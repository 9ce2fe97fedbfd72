import Std.Async.DNS
import Std.Async.TCP
import Std.Time
import SupervisorApi.Http.Wire
import SupervisorApi.Program.Download
import SupervisorApi.Program.Overview
import SupervisorApi.Program.Upload

set_option autoImplicit false

namespace SupervisorApi

namespace CommandLine

open Std.Async

def hostAndPort (address : String) : String × UInt16 :=
  let text := address.toList
  let host := if text.head? = some '[' then text.takeWhile (· ≠ ']') else text.takeWhile (· ≠ ':')
  let rest := (text.drop host.length).dropWhile (· = ']')
  let port := match (rest.drop 1).mapM Digits.value? with
    | some (d :: ds) => Digits.number (d :: ds)
    | _ => 80
  (String.ofList (host.filter (· ≠ '[')), UInt16.ofNat port)

def socketAddress (ip : Std.Net.IPAddr) (port : UInt16) : Std.Net.SocketAddress :=
  match ip with
  | .v4 a => .v4 ⟨a, port⟩
  | .v6 a => .v6 ⟨a, port⟩

partial def receive (socket : TCP.Socket.Client) (seen : ByteArray) : Async ByteArray := do
  match ← socket.recv? 65536 with
  | some part => receive socket (seen ++ part)
  | none => return seen

def connect (address : String) : Async (Option TCP.Socket.Client) := do
  let (host, port) := hostAndPort address
  match (← DNS.getAddrInfo host "").toList with
  | [] => return none
  | ip :: _ =>
    let socket ← TCP.Socket.Client.mk
    socket.connect (socketAddress ip port)
    return some socket

def converse (socket : TCP.Socket.Client) (r : Request) : Async Reaction := do
  socket.send ⟨(Wire.request r).toArray⟩
  return Wire.reaction r.method (← receive socket .empty).data.toList

partial def within (deadline : Option Nat) (answer : IO.Promise Reaction) : IO Reaction := do
  if ← answer.isResolved then return answer.result?.get.getD (.dropped ⟨"no answer", []⟩)
  if deadline.any (· ≤ (← IO.monoMsNow)) then return .silent
  IO.sleep 5
  within deadline answer

def everywhere (link : Link) (cause : Cause) : Surroundings where
  roots := .system
  link _ := link
  unreached _ _ _ := cause
  stopped e := ⟨"client error (SendRequest)", ["error from user's HttpBody stream", e.display]⟩

def perform (c : Client) (s : Session) (call : Call) : IO (Exchange Response) := do
  let around := everywhere .plain ⟨"client error (Connect)", []⟩
  let planned := c.call around s call .silent
  let some request := planned.request | return planned
  let alone (why : String) := everywhere .nobody ⟨"client error (Connect)", [why]⟩
  let start ← IO.monoMsNow
  let deadline := (call.timeout.resolve c.timeout).map fun d => start + d.millis
  try
    let some socket ← (connect (Uri.address request.authority)).block
      | return c.call (alone "no address") s call .silent
    let answer ← IO.Promise.new
    discard <| IO.asTask do
      let reaction ← try (converse socket request).block catch e =>
        pure (.dropped ⟨"client error (SendRequest)", [toString e]⟩)
      answer.resolve reaction
    return c.call around s call (← within deadline answer)
  catch e => return c.call (alone (toString e)) s call .silent

def writeLog (f : LogFilter) (r : Report) : IO Unit := do
  if f.shows r then
    IO.println ((← Std.Time.DateTime.now).toISO8601String ++ " " ++ r.line)

def fileFault : IO.Error → FileFault
  | .inappropriateType _ code _ => if code = 20 then .notDirectory else .isDirectory
  | _ => .missing

def written (change : IO Unit) : IO (Except FileFault Unit) := do
  try
    change
    return .ok ()
  catch e => return .error (fileFault e)

def run (f : LogFilter) : Program → IO UInt32
  | .ended none => return 0
  | .ended (some failure) => do
    IO.eprintln ("Error: " ++ failure)
    return 1
  | .waiting => return 1
  | .print line next => do
    IO.println line
    run f next
  | .report r next => do
    writeLog f r
    run f next
  | .call c s asked next => do
    let x ← perform c s asked
    for e in x.events do
      writeLog f (.ofEvent asked.span e)
    run f (next x)
  | .load path next => do
    let file ← try
        pure (.ok [.chunk (← IO.FS.readBinFile path).data.toList])
      catch e => pure (.error (fileFault e))
    run f (next file)
  | .create path next => do
    run f (next (← written (IO.FS.writeBinFile path .empty)))
  | .append path data next => do
    run f (next (← written (IO.FS.withFile path .append (·.write ⟨data.toArray⟩))))

def randomId : IO Uuid := do
  let bytes ← IO.getRandomBytes 16
  let digits := bytes.data.toList.flatMap fun b =>
    [⟨b.toNat / 16 % 16, Nat.mod_lt _ (Nat.succ_pos 15)⟩,
      ⟨b.toNat % 16, Nat.mod_lt _ (Nat.succ_pos 15)⟩]
  return (Uuid.ofDigits digits).getD Uuid.zero

def names : List String :=
  ["supervisor-info", "backup-download", "backup-upload"]

def usage : String :=
  "usage: " ++ " | ".intercalate names

def program? (environment : String → Option String) (id : Uuid) : List String → Option Program
  | "supervisor-info" :: _ => some (Overview.main environment)
  | "backup-download" :: arguments => some (Download.main environment arguments)
  | "backup-upload" :: arguments => some (UploadProgram.main environment ⟨id⟩ arguments)
  | _ => none

def environment : IO (String → Option String) := do
  let url ← IO.getEnv "SUPERVISOR_API_URL"
  let token ← IO.getEnv "SUPERVISOR_TOKEN"
  return fun name =>
    match name with
    | "SUPERVISOR_API_URL" => url
    | "SUPERVISOR_TOKEN" => token
    | _ => none

end CommandLine

end SupervisorApi

open SupervisorApi in
def main (arguments : List String) : IO UInt32 := do
  match CommandLine.program? (← CommandLine.environment) (← CommandLine.randomId) arguments with
  | some p => CommandLine.run (LogFilter.parse (← IO.getEnv "RUST_LOG")) p
  | none =>
    IO.eprintln CommandLine.usage
    return 1
