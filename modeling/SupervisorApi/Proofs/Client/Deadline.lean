import SupervisorApi.Proofs.Client.Classification
import SupervisorApi.Proofs.Time.Duration

set_option autoImplicit false

namespace SupervisorApi

namespace ApiError

def IsTimeout (e : ApiError) : Prop :=
  ∃ message, e = .timeout message

inductive IsRemote : ApiError → Prop where
  | connection (message : String) : IsRemote (.connection message)
  | response (message : String) : IsRemote (.response message)
  | status {e : ApiError} {status : Nat} (sort : IsStatus status e) : IsRemote e

theorem IsRemote.not_isTimeout {e : ApiError} (remote : e.IsRemote) : ¬ e.IsTimeout := by
  rintro ⟨message, rfl⟩
  cases remote with
  | status sort => cases sort

theorem IsRemote.not_isEarly {e : ApiError} (remote : e.IsRemote) : ¬ e.IsEarly := by
  intro early
  cases remote with
  | connection | response => cases early
  | status sort => cases early <;> cases sort

end ApiError

open ApiError (IsRemote IsTimeout)

namespace Incoming

variable {r : Incoming} {kind : ResponseKind} {e : ApiError}

def NeedsBody (r : Incoming) (kind : ResponseKind) : Prop :=
  400 ≤ r.status ∨ kind = .none ∨ kind = .text ∨ (kind = .json ∧ r.SaysJson)

theorem whole_eq_never_iff {α : Type} {f : Bytes → Except ApiError α} :
    r.whole f = .never ↔ r.body.ending = .silent := by
  cases ending : r.body.ending <;> simp [whole, IncomingBody.read, ending, Awaited.map]

theorem fail_eq_never_iff : r.fail.2 = .never ↔ r.body.ending = .silent := by
  rw [fail_eq_whole, whole_eq_never_iff]

theorem receive_eq_never_iff :
    (r.receive kind).2 = .never ↔ r.body.ending = .silent ∧ r.NeedsBody kind := by
  by_cases high : 400 ≤ r.status
  · have bad : r.isError = true := decide_eq_true high
    simp [receive, bad, fail_eq_never_iff, NeedsBody, high]
  · have good : r.isError = false := decide_eq_false high
    simp only [receive, good, Bool.false_eq_true, if_false]
    cases kind with
    | none => simp [whole_eq_never_iff, NeedsBody]
    | text => simp [whole_eq_never_iff, NeedsBody]
    | stream => simp [NeedsBody, high]
    | json =>
      by_cases typed : r.SaysJson
      · simp [isJson_iff.mpr typed, whole_eq_never_iff, NeedsBody, typed]
      · have untyped : ¬ r.isJson = true := fun json => typed (isJson_iff.mp json)
        simp [untyped, NeedsBody, typed, high]

theorem isRemote_of_whole {α : Type} {f : Bytes → Except ApiError α}
    (each : ∀ body e, f body = .error e → e.IsRemote) (came : r.whole f = .now (.error e)) :
    e.IsRemote := by
  revert came
  refine whole_cases (motive := fun x => x = .now (.error e) → e.IsRemote) ?complete ?broken ?silent
  case complete => exact fun body came => each body e (Awaited.now.inj came)
  case broken =>
    rintro message ⟨⟩
    exact .connection message
  case silent => rintro ⟨⟩

theorem isRemote_of_fail (came : r.fail.2 = .now (.error e)) : e.IsRemote := by
  rw [fail_eq_whole] at came
  refine isRemote_of_whole (fun body _ refused => ?_) came
  cases refused
  exact .status (status_refusal r body)

theorem isRemote_of_ofEnvelope {body : Bytes} (failed : r.ofEnvelope body = .error e) :
    e.IsRemote := by
  unfold ofEnvelope at failed
  split at failed
  next envelope _ =>
    split at failed
    next => cases failed
    next =>
      cases failed
      exact .status (status_failure r.status envelope)
  next =>
    cases failed
    exact .response _

theorem isRemote_of_ofText {body : Bytes} (failed : r.ofText body = .error e) : e.IsRemote := by
  unfold ofText at failed
  split at failed
  next => cases failed
  next =>
    cases failed
    exact .response _

theorem isRemote_of_receive (came : (r.receive kind).2 = .now (.error e)) : e.IsRemote := by
  unfold receive at came
  split at came
  next => exact isRemote_of_fail came
  next =>
    cases kind with
    | none => exact isRemote_of_whole (fun _ _ failed => by cases failed) came
    | text => exact isRemote_of_whole (fun _ _ => isRemote_of_ofText) came
    | stream => cases came
    | json =>
      simp only at came
      split at came
      next => exact isRemote_of_whole (fun _ _ => isRemote_of_ofEnvelope) came
      next =>
        cases came
        exact .response _

end Incoming

namespace Reaction

variable {kind : ResponseKind} {reaction : Reaction} {e : ApiError}

def Withholds (kind : ResponseKind) : Reaction → Prop
  | .dropped _ => False
  | .silent => True
  | .answer r => r.body.ending = .silent ∧ r.NeedsBody kind

def outcome (kind : ResponseKind) : Reaction → Awaited (Except ApiError Response)
  | .dropped cause => .now (.error (.requestFailed cause))
  | .silent => .never
  | .answer r => (r.receive kind).2

theorem outcome_eq_never_iff : reaction.outcome kind = .never ↔ reaction.Withholds kind := by
  cases reaction with
  | dropped => simp [outcome, Withholds]
  | silent => simp [outcome, Withholds]
  | answer r => exact Incoming.receive_eq_never_iff

theorem isRemote_of_outcome (came : reaction.outcome kind = .now (.error e)) : e.IsRemote := by
  cases reaction with
  | dropped =>
    cases came
    exact .connection _
  | silent => cases came
  | answer r => exact Incoming.isRemote_of_receive came

end Reaction

namespace Client

variable {c : Client} {around : Surroundings} {s : Session} {call : Call} {reaction : Reaction}

theorem send_of_request (kind : ResponseKind) (r : Request) :
    (send kind reaction (.ok r)).2.2 = reaction.outcome kind := by
  cases reaction <;> rfl

inductive IsUnsent : ApiError → Prop where
  | invalidPath (message : String) : IsUnsent (.invalidPath message)
  | closed : IsUnsent .closed
  | connection (message : String) : IsUnsent (.connection message)

theorem isRemote_of_send {kind : ResponseKind} {attempted : Except Cause Request} {e : ApiError}
    (came : (send kind reaction attempted).2.2 = .now (.error e)) : e.IsRemote := by
  cases attempted with
  | error cause =>
    cases came
    exact .connection _
  | ok r =>
    rw [send_of_request] at came
    exact Reaction.isRemote_of_outcome came

theorem of_deadline {timeout : Option Duration} {x : Awaited (Except ApiError Response)}
    {e : ApiError} (came : deadline timeout x = .now (.error e)) :
    x = .now (.error e) ∨ e.IsTimeout := by
  cases x with
  | now outcome => exact .inl came
  | never =>
    cases timeout with
    | none => cases came
    | some d =>
      cases came
      exact .inr ⟨_, rfl⟩

theorem call_unsent (unsent : (c.call around s call reaction).request = none) :
    ∃ e, (c.call around s call reaction).result = .now (.error e) ∧ IsUnsent e := by
  by_cases dispatches : c.Dispatches s call
  · obtain ⟨taken, attempted, -, shape⟩ :=
      @call_of_dispatches c around s call reaction dispatches
    rw [shape] at unsent ⊢
    cases attempted with
    | error cause => exact ⟨_, rfl, .connection _⟩
    | ok r => rw [request_send] at unsent; cases unsent
  · have stops : Stops c around s call (c.call around s call reaction) :=
      stops_of_not_dispatches dispatches
    obtain ⟨e, result, early⟩ := stops.result
    cases early with
    | closed => exact ⟨_, result, .closed⟩
    | invalidPath path => exact ⟨_, result, .invalidPath path⟩

theorem result_of_request {r : Request}
    (sent : (c.call around s call reaction).request = some r) :
    (c.call around s call reaction).result =
      deadline (call.timeout.resolve c.timeout) (reaction.outcome call.responseKind) := by
  obtain ⟨taken, o, reached⟩ := sent_of_request sent
  rw [reached.exchange]
  simp only [send_of_request]

theorem deadline_eq_never_iff {timeout : Option Duration}
    {x : Awaited (Except ApiError Response)} :
    deadline timeout x = .never ↔ x = .never ∧ timeout = none := by
  cases x <;> cases timeout <;> simp [deadline]

theorem expired_inj {d d' : Duration} :
    "no response within " ++ d.text = "no response within " ++ d'.text ↔ d = d' := by
  constructor
  · intro same
    exact Duration.text_injective (String.append_right_inj _ |>.mp same)
  · rintro rfl
    rfl

theorem deadline_eq_timeout_iff {timeout : Option Duration} {message : String}
    {x : Awaited (Except ApiError Response)}
    (inTime : ∀ e, x = .now (.error e) → e.IsRemote) :
    deadline timeout x = .now (.error (.timeout message)) ↔
      x = .never ∧ ∃ d, timeout = some d ∧
        ∀ d' : Duration, message = "no response within " ++ d'.text ↔ d' = d := by
  cases x with
  | now outcome =>
    simp only [deadline, Awaited.now.injEq, reduceCtorEq, false_and, iff_false]
    rintro rfl
    exact (inTime _ rfl).not_isTimeout ⟨_, rfl⟩
  | never =>
    cases timeout with
    | none => simp [deadline]
    | some d =>
      simp only [deadline, Awaited.now.injEq, Except.error.injEq, ApiError.timeout.injEq,
        Option.some.injEq, true_and]
      constructor
      · rintro rfl
        exact ⟨d, rfl, fun d' => expired_inj.trans eq_comm⟩
      · rintro ⟨_, rfl, names⟩
        exact ((names d).mpr rfl).symm

/-- A call is given up exactly when it has a deadline and the other side keeps back the head of its
answer, or a body that the call reads; the error names the deadline. Without a deadline it then waits
for ever. A good answer that is handed on as a stream, or is not the JSON that was asked for, is never
late. -/
theorem given_up_iff (c : Client) (around : Surroundings) (s : Session) (call : Call)
    (reaction : Reaction) :
    (∀ message, (c.call around s call reaction).result = .now (.error (.timeout message)) ↔
      (c.call around s call reaction).request.isSome = true ∧
        reaction.Withholds call.responseKind ∧
        ∃ d, call.timeout.resolve c.timeout = some d ∧
          ∀ d' : Duration, message = "no response within " ++ d'.text ↔ d' = d) ∧
    ((c.call around s call reaction).result = .never ↔
      (c.call around s call reaction).request.isSome = true ∧
        reaction.Withholds call.responseKind ∧ call.timeout.resolve c.timeout = none) ∧
    (∀ r, reaction = .answer r → r.status < 400 →
      call.responseKind = .stream ∨ (call.responseKind = .json ∧ ¬ r.SaysJson) →
        ∃ x, (c.call around s call reaction).result = .now x ∧
          ∀ e, x = .error e → ¬ e.IsTimeout) ∧
    (call.timeout.resolve c.timeout = none →
      ∀ e, (c.call around s call reaction).result = .now (.error e) → ¬ e.IsTimeout) := by
  have late (message : String) :
      (c.call around s call reaction).result = .now (.error (.timeout message)) ↔
        (c.call around s call reaction).request.isSome = true ∧
          reaction.Withholds call.responseKind ∧
          ∃ d, call.timeout.resolve c.timeout = some d ∧
            ∀ d' : Duration, message = "no response within " ++ d'.text ↔ d' = d := by
    cases sent : (c.call around s call reaction).request with
    | none =>
      obtain ⟨e, result, unsent⟩ := call_unsent sent
      rw [result]
      simp only [Awaited.now.injEq, Except.error.injEq, Option.isSome_none, Bool.false_eq_true,
        false_and, iff_false]
      rintro rfl
      cases unsent
    | some r =>
      rw [result_of_request sent,
        deadline_eq_timeout_iff fun e => Reaction.isRemote_of_outcome,
        Reaction.outcome_eq_never_iff]
      simp
  have waiting : (c.call around s call reaction).result = .never ↔
      (c.call around s call reaction).request.isSome = true ∧
        reaction.Withholds call.responseKind ∧ call.timeout.resolve c.timeout = none := by
    cases sent : (c.call around s call reaction).request with
    | none =>
      obtain ⟨e, result, -⟩ := call_unsent sent
      simp [result]
    | some r =>
      rw [result_of_request sent, deadline_eq_never_iff, Reaction.outcome_eq_never_iff]
      simp
  refine ⟨late, waiting, ?_, ?_⟩
  · rintro r rfl low unread
    have given : ¬ Reaction.Withholds call.responseKind (.answer r) := by
      rintro ⟨-, needed⟩
      rcases unread with stream | ⟨json, untyped⟩ <;>
        simp_all [Incoming.NeedsBody, Nat.not_le.mpr low]
    cases result : (c.call around s call (.answer r)).result with
    | never => exact absurd (waiting.mp result).2.1 given
    | now x =>
      refine ⟨x, rfl, ?_⟩
      rintro _ rfl ⟨message, rfl⟩
      exact given ((late message).mp result).2.1
  · rintro endless e result ⟨message, rfl⟩
    obtain ⟨-, -, d, limited, -⟩ := (late message).mp result
    rw [endless] at limited
    cases limited

theorem given_up_iff_of_stream :
    ∃ r : Incoming, r.status = 404 ∧ r.body.ending = .silent ∧
      ((Client.adopting "http://supervisor/api" "token").call .open (.adopted .standard)
        { Call.ofPath .get "info" with kind := some .stream } (.answer r)).result =
          .now (.error (.timeout "no response within 10s")) := by
  let r : Incoming := ⟨404, [], ⟨[.data [0x7b]], .silent⟩⟩
  refine ⟨r, rfl, rfl, ((given_up_iff _ _ _ _ _).1 _).mpr ⟨by decide +kernel, ?_, ?_⟩⟩
  · exact ⟨rfl, .inl (by decide)⟩
  · have named : "no response within 10s" =
        "no response within " ++ (Duration.ofSeconds 10).text := by decide +kernel
    refine ⟨.ofSeconds 10, rfl, fun d' => ?_⟩
    rw [named, expired_inj, eq_comm]

end Client

end SupervisorApi
