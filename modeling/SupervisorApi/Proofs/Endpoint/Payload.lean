import Mathlib.Data.List.Infix
import SupervisorApi.Proofs.Client.Classification
import SupervisorApi.Proofs.Endpoint.Calls

set_option autoImplicit false

namespace SupervisorApi

def Payload.kind : Payload → ResponseKind
  | .empty => .none
  | .json _ => .json
  | .text _ => .text
  | .stream _ => .stream

def Awaited.isDone {ε α : Type} : Awaited (Except ε α) → Bool
  | .now (.ok _) => true
  | _ => false

theorem Awaited.isDone_iff {ε α : Type} {x : Awaited (Except ε α)} :
    x.isDone = true ↔ ∃ a, x = .now (.ok a) := by
  rcases x with (_ | _) | _ <;> simp [isDone]

namespace ApiError

def mismatches : List String :=
  ["JSON", "text", "stream"].map fun wanted => "expected " ++ wanted ++ " payload, got "

def IsMismatch (e : ApiError) : Prop :=
  ∃ opening ∈ mismatches, ∃ got, e = .response (opening ++ got)

def areApart (a b : String) : Bool :=
  !a.toList.isPrefixOf b.toList && !b.toList.isPrefixOf a.toList

theorem not_isMismatch_of_apart {opening : String} (rest : String)
    (apart : mismatches.all (areApart opening) = true) :
    ¬ IsMismatch (.response (opening ++ rest)) := by
  rintro ⟨other, known, got, same⟩
  have texts : opening.toList ++ rest.toList = other.toList ++ got.toList := by
    simpa using congrArg String.toList (ApiError.response.inj same)
  have each := List.all_eq_true.mp apart other known
  simp only [areApart, Bool.and_eq_true, Bool.not_eq_true', ← Bool.not_eq_true,
    List.isPrefixOf_iff_prefix] at each
  rcases List.prefix_or_prefix_of_prefix (List.prefix_append _ _) ⟨_, texts.symm⟩ with
    begins | begins
  · exact each.1 begins
  · exact each.2 begins

theorem not_isMismatch_of_other {e : ApiError} (other : ¬ e.IsResponse) : ¬ e.IsMismatch := by
  rintro ⟨_, _, _, rfl⟩
  exact other ⟨_, rfl⟩

theorem not_isMismatch_of_status {status : Nat} {e : ApiError} (sort : IsStatus status e) :
    ¬ e.IsMismatch := by
  apply not_isMismatch_of_other
  rintro ⟨_, rfl⟩
  cases sort

theorem not_isMismatch_of_connection {e : ApiError} (sort : e.IsConnection) : ¬ e.IsMismatch := by
  obtain ⟨_, rfl⟩ := sort
  exact not_isMismatch_of_other (by rintro ⟨_, ⟨⟩⟩)

end ApiError

open ApiError

namespace ResponseKind

def Allows (kind : ResponseKind) : Except ApiError Response → Prop
  | .ok answer => answer.payload.kind = kind
  | .error e => ¬ e.IsMismatch

def Admits (kind : ResponseKind) (x : Awaited (Except ApiError Response)) : Prop :=
  ∀ outcome, x = .now outcome → kind.Allows outcome

theorem admits_now {kind : ResponseKind} {outcome : Except ApiError Response}
    (allowed : kind.Allows outcome) : kind.Admits (.now outcome) := by
  rintro _ ⟨⟩
  exact allowed

theorem admits_never (kind : ResponseKind) : kind.Admits .never := by
  rintro _ ⟨⟩

end ResponseKind

namespace Incoming

variable {r : Incoming} {kind : ResponseKind}

theorem admits_whole {f : Bytes → Except ApiError Response}
    (each : ∀ body, kind.Allows (f body)) : kind.Admits (r.whole f) := by
  refine whole_cases (motive := kind.Admits) ?complete ?broken kind.admits_never
  case complete => exact fun body => ResponseKind.admits_now (each body)
  case broken =>
    exact fun message => ResponseKind.admits_now (not_isMismatch_of_connection ⟨message, rfl⟩)

theorem allows_ofEnvelope (body : Bytes) : ResponseKind.json.Allows (r.ofEnvelope body) := by
  unfold ofEnvelope
  split
  next e _ =>
    split
    next => rfl
    next => exact not_isMismatch_of_status (status_failure r.status e)
  next =>
    have apart := @not_isMismatch_of_apart "invalid response envelope" "" (by decide)
    rwa [String.append_empty] at apart

theorem allows_ofText (body : Bytes) : ResponseKind.text.Allows (r.ofText body) := by
  unfold ofText
  split
  next => rfl
  next => exact not_isMismatch_of_apart _ (by decide)

theorem admits_receive (r : Incoming) (kind : ResponseKind) : kind.Admits (r.receive kind).2 := by
  unfold receive
  split
  next =>
    rw [fail_eq_whole]
    exact admits_whole fun body => not_isMismatch_of_status (status_refusal r body)
  next =>
    cases kind with
    | none => exact admits_whole fun _ => rfl
    | json =>
      simp only
      split
      next => exact admits_whole allows_ofEnvelope
      next => exact ResponseKind.admits_now (not_isMismatch_of_apart _ (by decide))
    | text => exact admits_whole allows_ofText
    | stream => exact ResponseKind.admits_now rfl

end Incoming

namespace Client

variable {c : Client} {around : Surroundings} {s : Session} {call : Call} {reaction : Reaction}

theorem admits_send (kind : ResponseKind) (reaction : Reaction)
    (attempted : Except Cause Request) : kind.Admits (send kind reaction attempted).2.2 := by
  have failed (cause : Cause) : kind.Admits (.now (.error (.requestFailed cause))) :=
    ResponseKind.admits_now (not_isMismatch_of_connection ⟨_, rfl⟩)
  cases attempted with
  | error cause => exact failed cause
  | ok r =>
    cases reaction with
    | dropped cause => exact failed cause
    | silent => exact kind.admits_never
    | answer incoming => exact incoming.admits_receive kind

theorem admits_deadline {kind : ResponseKind} {timeout : Option Duration}
    {x : Awaited (Except ApiError Response)} (admitted : kind.Admits x) :
    kind.Admits (deadline timeout x) := by
  cases x with
  | now outcome => exact admitted
  | never =>
    cases timeout with
    | none => exact kind.admits_never
    | some d =>
      apply ResponseKind.admits_now
      exact not_isMismatch_of_other (by rintro ⟨_, ⟨⟩⟩)

theorem admits_call (c : Client) (around : Surroundings) (s : Session) (call : Call)
    (reaction : Reaction) : call.responseKind.Admits (c.call around s call reaction).result := by
  by_cases dispatches : c.Dispatches s call
  · obtain ⟨taken, attempted, -, sent⟩ := call_of_dispatches dispatches
    rw [sent]
    exact admits_deadline (admits_send _ _ _)
  · have stops : Stops c around s call (c.call around s call reaction) :=
      stops_of_not_dispatches dispatches
    obtain ⟨e, result, early⟩ := stops.result
    rw [result]
    refine ResponseKind.admits_now (not_isMismatch_of_other ?_)
    rintro ⟨_, rfl⟩
    cases early

end Client

theorem Except.of_map_error {ε α β : Type} {x : Except ε α} {f : α → β} {e : ε}
    (failed : x.map f = .error e) : x = .error e := by
  cases x with
  | ok _ => cases failed
  | error _ => cases failed; rfl

namespace Sends

variable {s : Shape} {v : s.Val} {e : ApiError}

theorem encode_of_members (failed : members s v = .error e) : ∃ message, e = .encode message := by
  unfold members at failed
  cases written : s.toWire v with
  | ok ms => rw [written] at failed; cases failed
  | error fault => rw [written] at failed; cases failed; exact ⟨_, rfl⟩

theorem encode_of_changed (failed : changed s v = .error e) : ∃ message, e = .encode message := by
  unfold changed at failed
  cases written : members s v with
  | error fault =>
    rw [written] at failed
    cases failed
    exact encode_of_members written
  | ok ms =>
    simp only [written, bind, Except.bind] at failed
    split at failed
    next => cases failed; exact ⟨_, rfl⟩
    next => cases failed

theorem encode_of_apply {arguments : Arguments} {c : Call} {x : Sends} {v : x.Val}
    (failed : x.apply arguments c v = .error e) : ∃ message, e = .encode message := by
  cases x with
  | nothing | object | bytes | file | source => cases failed
  | model s | job s background | named s member p =>
    exact encode_of_members (Except.of_map_error failed)
  | changes s => exact encode_of_changed (Except.of_map_error failed)
  | optional s | optionalJob s background =>
    cases v with
    | none => cases failed
    | some v => exact encode_of_members (Except.of_map_error failed)
  | optionalChanges s =>
    cases v with
    | none => cases failed
    | some v => exact encode_of_changed (Except.of_map_error failed)

end Sends

namespace Holds

def isTakenFrom : Holds → ResponseKind → Bool
  | .nothing, _ => true
  | .model _, kind | .part .., kind | .object, kind => kind = .json
  | .text, kind => kind = .text
  | .stream, kind => kind = .stream

theorem not_isMismatch_of_decode {s : Shape} {r : Response} {e : ApiError}
    (json : r.payload.kind = .json) (failed : r.decode s = .error e) : ¬ e.IsMismatch := by
  cases payload : r.payload with
  | json value =>
    simp only [Response.decode, Response.json, payload, bind, Except.bind] at failed
    cases read : s.fromWire value with
    | ok _ => rw [read] at failed; cases failed
    | error fault =>
      rw [read] at failed
      cases failed
      exact not_isMismatch_of_apart _ (by decide)
  | empty | text _ | stream _ => rw [payload] at json; cases json

theorem not_isMismatch_of_take {x : Holds} {r : Response} {e : ApiError}
    (fits : x.isTakenFrom r.payload.kind = true) (failed : x.take r = .error e) :
    ¬ e.IsMismatch := by
  cases x with
  | nothing => cases failed
  | model s => exact not_isMismatch_of_decode (of_decide_eq_true fits) failed
  | part s t f =>
    exact not_isMismatch_of_decode (of_decide_eq_true fits) (Except.of_map_error failed)
  | object =>
    have json : r.payload.kind = .json := of_decide_eq_true fits
    cases payload : r.payload with
    | json value =>
      simp only [take, Response.json, payload, Except.bind] at failed
      unfold objectOf at failed
      split at failed
      next => cases failed
      next => cases failed; exact not_isMismatch_of_apart _ (by decide)
    | empty | text _ | stream _ => rw [payload] at json; cases json
  | text =>
    have text : r.payload.kind = .text := of_decide_eq_true fits
    cases payload : r.payload with
    | text s => simp only [take, Response.text, payload, reduceCtorEq] at failed
    | empty | json _ | stream _ => rw [payload] at text; cases text
  | stream =>
    have stream : r.payload.kind = .stream := of_decide_eq_true fits
    cases payload : r.payload with
    | stream s => simp only [take, Response.stream, payload, reduceCtorEq] at failed
    | empty | json _ | text _ => rw [payload] at stream; cases stream

end Holds

namespace Endpoint

def askedKind (e : Endpoint) : ResponseKind :=
  e.asks.getD (.standard e.method)

theorem catalog_isTakenFrom :
    catalog.all (fun row => row.2.holds.isTakenFrom row.2.askedKind) = true := by
  decide +kernel

variable {e : Endpoint} {arguments : Arguments} {v : e.sends.Val} {c : Client}
  {around : Surroundings} {s : Session} {reaction : Reaction}

theorem responseKind_of_call {call : Call} (made : e.call arguments v = .ok call) :
    call.responseKind = e.askedKind := by
  have alike := Sends.alike_of_apply made
  rw [Call.responseKind, alike.kind, alike.method]
  rfl

theorem isTakenFrom_of_call {name : String} (known : (name, e) ∈ catalog) {call : Call}
    (made : e.call arguments v = .ok call) {r : Response}
    (answered : (c.call around s call reaction).result = .now (.ok r)) :
    e.holds.isTakenFrom r.payload.kind = true := by
  have kind : r.payload.kind = call.responseKind :=
    Client.admits_call c around s call reaction _ answered
  rw [kind, responseKind_of_call made]
  exact List.all_eq_true.mp catalog_isTakenFrom _ known

theorem result_of_exchange {outcome : Except ApiError e.holds.Val}
    (came : (e.exchange c around s arguments v reaction).result = .now outcome) :
    (∃ err, e.call arguments v = .error err ∧ outcome = .error err) ∨
      ∃ call, e.call arguments v = .ok call ∧
        ((∃ err, (c.call around s call reaction).result = .now (.error err) ∧
            outcome = .error err) ∨
          ∃ r, (c.call around s call reaction).result = .now (.ok r) ∧
            outcome = e.holds.take r) := by
  cases made : e.call arguments v with
  | error err =>
    simp only [exchange, made, Exchange.refuse, Awaited.now.injEq] at came
    exact .inl ⟨err, rfl, came.symm⟩
  | ok call =>
    refine .inr ⟨call, rfl, ?_⟩
    simp only [exchange, made, Exchange.andThen] at came
    cases answered : (c.call around s call reaction).result with
    | never => rw [answered] at came; cases came
    | now x =>
      rw [answered] at came
      cases x with
      | error err => exact .inl ⟨err, rfl, (Awaited.now.inj came).symm⟩
      | ok r => exact .inr ⟨r, rfl, (Awaited.now.inj came).symm⟩

theorem exchange_of_answer {call : Call} (made : e.call arguments v = .ok call) {r : Response}
    (answered : (c.call around s call reaction).result = .now (.ok r)) :
    (e.exchange c around s arguments v reaction).result = .now (e.holds.take r) := by
  simp only [exchange, made, Exchange.andThen, answered, Awaited.bind]

theorem not_isMismatch_of_exchange {name : String} (known : (name, e) ∈ catalog) {err : ApiError}
    (failed : (e.exchange c around s arguments v reaction).result = .now (.error err)) :
    ¬ err.IsMismatch := by
  rcases result_of_exchange failed with
    ⟨err', refused, same⟩ | ⟨call, made, ⟨err', answered, same⟩ | ⟨r, answered, taken⟩⟩
  · cases same
    obtain ⟨_, rfl⟩ := Sends.encode_of_apply refused
    exact not_isMismatch_of_other (by rintro ⟨_, ⟨⟩⟩)
  · cases same
    exact Client.admits_call c around s call reaction _ answered
  · exact Holds.not_isMismatch_of_take (isTakenFrom_of_call known made answered) taken.symm

theorem exchange_of_nothing (nothing : e.holds = .nothing) :
    (∃ a, (e.exchange c around s arguments v reaction).result = .now (.ok a)) ↔
      ∃ call r, e.call arguments v = .ok call ∧
        (c.call around s call reaction).result = .now (.ok r) := by
  constructor
  · rintro ⟨a, done⟩
    rcases result_of_exchange done with
      ⟨_, -, same⟩ | ⟨call, made, ⟨_, -, same⟩ | ⟨r, answered, -⟩⟩
    · cases same
    · cases same
    · exact ⟨call, r, made, answered⟩
  · rintro ⟨call, r, made, answered⟩
    rw [exchange_of_answer made answered]
    cases e
    cases nothing
    exact ⟨(), rfl⟩

/-- No endpoint is answered with a payload that it cannot take its result from: what its call returns
is of the kind that it asked for, none of its errors says otherwise, and one that takes nothing
succeeds as soon as its call does. -/
theorem answers_are_taken {name : String} (known : (name, e) ∈ catalog) (c : Client)
    (around : Surroundings) (s : Session) (arguments : Arguments) (v : e.sends.Val)
    (reaction : Reaction) :
    (∀ err, (e.exchange c around s arguments v reaction).result = .now (.error err) →
      ¬ err.IsMismatch) ∧
    (∀ call r, e.call arguments v = .ok call →
      (c.call around s call reaction).result = .now (.ok r) →
        r.payload.kind = call.responseKind ∧ e.holds.isTakenFrom r.payload.kind = true) ∧
    (e.holds = .nothing →
      ((∃ a, (e.exchange c around s arguments v reaction).result = .now (.ok a)) ↔
        ∃ call r, e.call arguments v = .ok call ∧
          (c.call around s call reaction).result = .now (.ok r))) := by
  refine ⟨fun err => not_isMismatch_of_exchange known, ?_, exchange_of_nothing⟩
  intro call r made answered
  exact ⟨Client.admits_call c around s call reaction _ answered,
    isTakenFrom_of_call known made answered⟩

theorem answers_are_taken_of_upload :
    ("backups.upload_backup", uploadBackup) ∈ catalog ∧
      ∃ (c : Client) (first : Session) (v : uploadBackup.sends.Val) (reaction : Reaction)
        (call : Call) (r : Response), uploadBackup.call .blank v = .ok call ∧
          (c.call .open first call reaction).result = .now (.ok r) ∧ r.payload.kind = .json := by
  let v : uploadBackup.sends.Val := (.ofBytes ⟨.zero⟩ [0x74], none)
  let reaction : Reaction := .answer ⟨200, [.ofText "content-type" "application/json"],
    ⟨[.data (Utf8.encode "\x7b\"result\":\"ok\"\x7d")], .complete⟩⟩
  have known : ("backups.upload_backup", uploadBackup) ∈ catalog := by
    simp [catalog, storageTable]
  obtain ⟨call, made⟩ : ∃ call, uploadBackup.call .blank v = .ok call := ⟨_, rfl⟩
  have done : ((Client.adopting "http://supervisor/api" "token").call .open (.adopted .standard) call
      reaction).result.isDone = true := by
    cases made
    decide +kernel
  obtain ⟨r, answered⟩ := Awaited.isDone_iff.mp done
  have agreed := (answers_are_taken known _ .open _ .blank v reaction).2.1 call r made answered
  exact ⟨known, _, _, v, reaction, call, r, made, answered, of_decide_eq_true agreed.2⟩

end Endpoint

end SupervisorApi
