import SupervisorApi.Program.Basic
import SupervisorApi.Program.Layout

set_option autoImplicit false

namespace SupervisorApi

namespace Download

def source : String := "backup_download"

def backupLineOf (slug name : String) (date : Timestamp) (size : Binary64) : String :=
  slug ++ "  " ++ Layout.minute date ++ "  " ++ Layout.right 8 (size.fixed 1) ++ " MB  " ++ name

def backupLine : Backups.backup.Val → String
  | (_, ((slug, name, date, _, size, _), _), _) => backupLineOf slug name date size

open Program

def list (c : Client) (s : Session) : Program :=
  need Endpoint.backups c s .blank () fun _ xs => printAll (xs.map backupLine) (.ended none)

-- A file that is not as long as was announced is kept, and reported as a failure.
def verdict (announced : Option Nat) (received : Nat) : Option String :=
  match announced with
  | some n =>
    if n = received then none
    else some ("expected " ++ toString n ++ " bytes, received " ++ toString received)
  | none => none

def doneMessage (slug output : String) (received : Nat) : String :=
  "backup downloaded slug=" ++ slug ++ " output=" ++ output ++ " bytes=" ++ toString received

def copy (output : String) (done : Nat → Program) (stream : ByteStream) (received : Nat) : Program :=
  match _given : stream.next with
  | .now (some (.ok chunk), rest) =>
    .append output chunk fun
      | .ok () => copy output done rest (received + chunk.length)
      | .error e => fail e.message
  | .now (some (.error e), _) => fail e.display
  | .now (none, _) => done received
  | .never => .waiting
termination_by stream.body.events.length
decreasing_by exact ByteStream.length_next _given

def report (slug output : String) (announced : Option Nat) (received : Nat) : Program :=
  .report (.info source (doneMessage slug output received)) (.ended (verdict announced received))

def save (slug output : String) (stream : ByteStream) : Program :=
  .create output fun
    | .ok () => copy output (report slug output stream.contentLength) stream 0
    | .error e => fail e.message

def fetch (c : Client) (s : Session) (slug output : String) : Program :=
  need Endpoint.downloadBackup c s (.ofBackup slug) .unset fun _ stream => save slug output stream

def defaultOutput (slug : String) : String :=
  slug ++ ".tar"

def main (environment : String → Option String) (arguments : List String) : Program :=
  withClient environment id fun c s =>
    match arguments with
    | [] => list c s
    | slug :: rest => fetch c s slug (rest.headD (defaultOutput slug))

end Download

end SupervisorApi
