import SupervisorApi.Client.Receive
import SupervisorApi.Http.Uri
import SupervisorApi.Text.Split

set_option autoImplicit false

namespace SupervisorApi

namespace Wire

def lineBreak : Bytes := [0x0D, 0x0A]

def field (name : String) (value : Bytes) : Bytes :=
  Utf8.encode (name ++ ": ") ++ value ++ lineBreak

def hex (n : Nat) : Bytes :=
  Utf8.encode (String.ofList (Nat.toDigits 16 n))

def chunked (body : Bytes) : Bytes :=
  (if body.isEmpty then [] else hex body.length ++ lineBreak ++ body ++ lineBreak)
    ++ hex 0 ++ lineBreak ++ lineBreak

def framingFields : Framing → Bytes
  | .noBody => []
  | .length n => field "content-length" (Utf8.encode (toString n))
  | .chunked => field "transfer-encoding" (Utf8.encode "chunked")

def request (r : Request) : Bytes :=
  Utf8.encode (r.method.name ++ " " ++ r.target ++ " HTTP/1.1") ++ lineBreak
    ++ field "host" (Utf8.encode (Uri.address r.authority))
    ++ field "connection" (Utf8.encode "close")
    ++ r.headers.flatMap (fun h => field h.name h.value)
    ++ framingFields r.framing ++ lineBreak
    ++ match r.framing with
      | .chunked => chunked r.body
      | _ => r.body

def line? : Bytes → Option (Bytes × Bytes)
  | [] => none
  | [_] => none
  | a :: b :: rest =>
    if a = 0x0D ∧ b = 0x0A then some ([], rest)
    else (line? (b :: rest)).map fun (l, r) => (a :: l, r)

theorem length_of_line? {bytes line rest : Bytes} (h : line? bytes = some (line, rest)) :
    rest.length < bytes.length := by
  fun_induction line? bytes generalizing line rest with
  | case1 | case2 => simp at h
  | case3 a b r hab =>
    simp only [Option.some.injEq, Prod.mk.injEq] at h
    rw [← h.2]; simp only [List.length_cons]; omega
  | case4 a b r hab ih =>
    simp only [Option.map_eq_some_iff] at h
    obtain ⟨⟨l, s⟩, hl, e⟩ := h
    simp only [Prod.mk.injEq] at e
    have := ih hl
    rw [← e.2]; simp only [List.length_cons] at this ⊢; omega

def lines? (bytes : Bytes) : Option (List Bytes × Bytes) :=
  match h : line? bytes with
  | none => none
  | some ([], rest) => some ([], rest)
  | some (line, rest) =>
    have := length_of_line? h
    (lines? rest).map fun (ls, r) => (line :: ls, r)
termination_by bytes.length

def header? (line : Bytes) : Option Header := do
  let name := line.takeWhile (· ≠ 0x3A)
  let text ← Utf8.decode? name
  if name.length < line.length then
    some ⟨LowerCase.ofText text, Header.trim (line.drop (name.length + 1))⟩
  else none

def status? (line : Bytes) : Option Nat := do
  let text ← Utf8.decode? line
  match splitAt ' ' text.toList with
  | _ :: code :: _ => if code.length = 3 then (code.mapM Digits.value?).map Digits.number else none
  | _ => none

def chunkLength? (line : Bytes) : Option Nat := do
  let text ← Utf8.decode? line
  let digits ← (text.toList.takeWhile (· ≠ ';')).mapM Digits.hexValue?
  if digits = [] then none else some (digits.foldl (fun n d => 16 * n + d) 0)

def cutOff : BodyEnd :=
  .broken "error reading a body from connection"

def chunks (bytes : Bytes) : IncomingBody :=
  match h : line? bytes with
  | none => ⟨[], cutOff⟩
  | some (line, rest) =>
    match chunkLength? line with
    | none => ⟨[], cutOff⟩
    | some 0 => ⟨[], .complete⟩
    | some n =>
      if rest.length < n + 2 then ⟨[.data (rest.take n)], cutOff⟩
      else
        have := length_of_line? h
        let more := chunks (rest.drop (n + 2))
        ⟨.data (rest.take n) :: more.events, more.ending⟩
termination_by bytes.length
decreasing_by simp only [List.length_drop]; omega

def body (headers : Headers) (rest : Bytes) : IncomingBody :=
  if headers.get? "transfer-encoding" = some (Utf8.encode "chunked") then chunks rest
  else
    match (headers.get? "content-length").bind Incoming.lengthOf? with
    | some n => ⟨[.data (rest.take n)], if rest.length < n then cutOff else .complete⟩
    | none => ⟨[.data rest], .complete⟩

def unreadable : Cause :=
  ⟨"client error (SendRequest)", ["invalid HTTP response"]⟩

def reaction (m : Method) (bytes : Bytes) : Reaction :=
  match lines? bytes with
  | some (first :: fields, rest) =>
    match status? first, fields.mapM header? with
    | some status, some headers =>
      .answer ⟨status, headers,
        if m.isAnsweredByHead status then ⟨[], .complete⟩ else body headers rest⟩
    | _, _ => .dropped unreadable
  | _ => .dropped unreadable

end Wire

end SupervisorApi
