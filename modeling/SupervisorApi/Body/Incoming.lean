import SupervisorApi.Body.Poll
import SupervisorApi.Error.Basic
import SupervisorApi.Text.Utf8
import SupervisorApi.Time.Awaited

set_option autoImplicit false

namespace SupervisorApi

inductive BodyEvent where
  | pending
  | data (bytes : Bytes)
  | trailers
  deriving DecidableEq, Repr

inductive BodyEnd where
  | complete
  | broken (text : String)
  -- Nothing comes any more, and the connection stays open.
  | silent
  deriving DecidableEq, Repr

structure IncomingBody where
  events : List BodyEvent
  ending : BodyEnd

inductive BodyAnswer where
  | pending
  | data (bytes : Bytes)
  | trailers
  | broken (text : String)
  | ended
  deriving DecidableEq, Repr

namespace BodyAnswer

def ofEvent : BodyEvent → BodyAnswer
  | .pending => .pending
  | .data bytes => .data bytes
  | .trailers => .trailers

def ofEnd : BodyEnd → BodyAnswer
  | .complete => .ended
  | .broken text => .broken text
  | .silent => .pending

def isFrame : BodyAnswer → Bool
  | .data _ | .trailers => true
  | .pending | .broken _ | .ended => false

end BodyAnswer

namespace IncomingBody

def dataOf : BodyEvent → Bytes
  | .data bytes => bytes
  | .pending | .trailers => []

def bytes (b : IncomingBody) : Bytes :=
  b.events.flatMap dataOf

def read (b : IncomingBody) : Awaited (Except ApiError Bytes) :=
  match b.ending with
  | .complete => .now (.ok b.bytes)
  | .broken text => .now (.error (.connection ("failed to read response body: " ++ text)))
  | .silent => .never

def poll (b : IncomingBody) : BodyAnswer × IncomingBody :=
  match b.events with
  | event :: rest => (.ofEvent event, ⟨rest, b.ending⟩)
  | [] => (.ofEnd b.ending, b)

def Breaks (b : IncomingBody) : Prop :=
  ∃ text, b.ending = .broken text

def isStuck (b : IncomingBody) : Bool :=
  b.events.isEmpty && b.ending = .silent

def Gives (b rest : IncomingBody) : BodyAnswer → Prop
  | .pending => (b.events = .pending :: rest.events ∧ rest.ending = b.ending) ∨
      (b.events = [] ∧ b.ending = .silent ∧ rest = b)
  | .data bytes => b.events = .data bytes :: rest.events ∧ rest.ending = b.ending
  | .trailers => b.events = .trailers :: rest.events ∧ rest.ending = b.ending
  | .broken text => b.events = [] ∧ b.ending = .broken text ∧ rest = b
  | .ended => b.events = [] ∧ b.ending = .complete ∧ rest = b

theorem gives_of_poll {b rest : IncomingBody} {a : BodyAnswer} (given : b.poll = (a, rest)) :
    b.Gives rest a := by
  unfold poll at given
  split at given
  next event events here =>
    cases given
    cases event with
    | pending => exact .inl ⟨here, rfl⟩
    | data | trailers => exact ⟨here, rfl⟩
  next here =>
    cases given
    cases ending : b.ending with
    | complete | broken => exact ⟨here, ending, rfl⟩
    | silent => exact .inr ⟨here, ending, rfl⟩

theorem length_poll {b rest : IncomingBody} {a : BodyAnswer} (given : b.poll = (a, rest))
    (frame : a.isFrame = true) : rest.events.length < b.events.length := by
  have gives := gives_of_poll given
  cases a with
  | data | trailers => simp [gives.1]
  | pending | broken | ended => cases frame

end IncomingBody

structure ByteStream where
  body : IncomingBody
  contentLength : Option Nat
  done : Bool

namespace ByteStream

def ofBody (body : IncomingBody) (contentLength : Option Nat) : ByteStream :=
  ⟨body, contentLength, false⟩

def failure (text : String) : ApiError :=
  .connection ("stream error: " ++ text)

def poll (s : ByteStream) : Poll (Except ApiError Bytes) × ByteStream :=
  if s.done then (.ended, s)
  else
    match _given : s.body.poll with
    | (.pending, body) => (.pending, { s with body := body })
    | (.data (b :: bs), body) => (.item (.ok (b :: bs)), { s with body := body })
    | (.data [], body) => poll { s with body := body }
    | (.trailers, body) => poll { s with body := body }
    | (.broken text, body) =>
      (.item (.error (failure text)), { s with body := body, done := true })
    | (.ended, body) => (.ended, { s with body := body, done := true })
termination_by s.body.events.length
decreasing_by
  all_goals exact IncomingBody.length_poll _given rfl

theorem going_of_poll {s rest : ByteStream} {a : Poll (Except ApiError Bytes)}
    (given : s.poll = (a, rest)) (going : a = .pending ∨ ∃ chunk, a = .item (.ok chunk)) :
    rest.body.events.length < s.body.events.length ∨
      (a = .pending ∧ rest.body.isStuck = true) := by
  fun_induction poll s with
  | case1 => cases given; simp at going
  | case2 s fresh body waits =>
    cases given
    rcases IncomingBody.gives_of_poll waits with ⟨here, -⟩ | ⟨here, ending, rfl⟩
    · exact .inl (by simp [here])
    · exact .inr ⟨rfl, by simp [IncomingBody.isStuck, here, ending]⟩
  | case3 s fresh b bs body gives =>
    cases given
    exact .inl (IncomingBody.length_poll gives rfl)
  | case4 s fresh body gives ih | case5 s fresh body gives ih =>
    have shorter := IncomingBody.length_poll gives rfl
    exact (ih given).imp_left fun further => Nat.lt_trans further shorter
  | case6 | case7 => cases given; simp at going

def next (s : ByteStream) : Awaited (Option (Except ApiError Bytes) × ByteStream) :=
  match _given : s.poll with
  | (.item a, rest) => .now (some a, rest)
  | (.ended, rest) => .now (none, rest)
  | (.pending, rest) => if _stuck : rest.body.isStuck then .never else next rest
termination_by s.body.events.length
decreasing_by
  exact (going_of_poll _given (.inl rfl)).resolve_right fun waits => _stuck waits.2

theorem length_next {s rest : ByteStream} {chunk : Bytes}
    (given : s.next = .now (some (.ok chunk), rest)) :
    rest.body.events.length < s.body.events.length := by
  fun_induction next s with
  | case1 s a rest' gives =>
    cases given
    simpa using going_of_poll gives (.inr ⟨chunk, rfl⟩)
  | case2 | case3 => cases given
  | case4 s rest' waits stuck ih =>
    have shorter := (going_of_poll waits (.inl rfl)).resolve_right fun waits => stuck waits.2
    exact Nat.lt_trans (ih given) shorter

structure Drained where
  data : Bytes
  failed : Option ApiError
  stream : ByteStream

def drainFrom (s : ByteStream) (data : Bytes) : Awaited Drained :=
  match _given : s.next with
  | .now (some (.ok chunk), rest) => drainFrom rest (data ++ chunk)
  | .now (some (.error e), rest) => .now ⟨data, some e, rest⟩
  | .now (none, rest) => .now ⟨data, none, rest⟩
  | .never => .never
termination_by s.body.events.length
decreasing_by exact length_next _given

def drain (s : ByteStream) : Awaited Drained :=
  s.drainFrom []

def collect (s : ByteStream) : Awaited (Except ApiError Bytes) :=
  s.drain.map fun d =>
    match d.failed with
    | some e => .error e
    | none => .ok d.data

def describe (s : ByteStream) : String :=
  let length := match s.contentLength with
    | some n => "Some(" ++ toString n ++ ")"
    | none => "None"
  "ByteStream \x7b content_length: " ++ length ++ ", done: " ++ toString s.done ++ ", .. \x7d"

end ByteStream

end SupervisorApi
