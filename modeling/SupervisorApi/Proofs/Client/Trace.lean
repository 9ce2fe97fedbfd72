import SupervisorApi.Proofs.Client.Deadline

set_option autoImplicit false

namespace SupervisorApi

open ApiError (IsStatus)

namespace Event

def isOwn (e : Event) : Bool :=
  e.source = "hasupervisor_client::client"

def ofOutcome : Except ApiError Response → List Event
  | .ok answer =>
    match answer.payload with
    | .stream s => [.handingOff s.contentLength]
    | _ => []
  | .error e =>
    match e.status? with
    | some status => if 400 ≤ status then [.refused status e.kind] else []
    | none => []

def ofResult : Awaited (Except ApiError Response) → List Event
  | .now outcome => ofOutcome outcome
  | .never => []

variable {outcome : Except ApiError Response} {e : ApiError} {status : Nat}

theorem ofOutcome_of_high (sort : IsStatus status e) (high : 400 ≤ status) :
    ofOutcome (.error e) = [.refused status e.kind] := by
  rw [IsStatus] at sort
  simp only [ofOutcome, sort, if_pos high]

theorem ofOutcome_of_low (sort : IsStatus status e) (low : status < 400) :
    ofOutcome (.error e) = [] := by
  rw [IsStatus] at sort
  simp only [ofOutcome, sort, if_neg (Nat.not_le.mpr low)]

theorem ofOutcome_of_silent
    (silent : FailsAs outcome fun e => e.IsTimeout ∨ e.IsConnection ∨ e.IsResponse ∨
      ∃ status < 400, IsStatus status e) : ofOutcome outcome = [] := by
  obtain ⟨e, rfl, ⟨_, rfl⟩ | ⟨_, rfl⟩ | ⟨_, rfl⟩ | ⟨status, low, sort⟩⟩ := silent
  · rfl
  · rfl
  · rfl
  · exact ofOutcome_of_low sort low

structure Fits (outcome : Except ApiError Response) (more : List Event) : Prop where
  one : more = [] ∨ (∃ status kind, more = [.refused status kind]) ∨
    ∃ length, more = [.handingOff length]
  refused : ∀ status kind, .refused status kind ∈ more ↔
    400 ≤ status ∧ FailsAs outcome fun e => IsStatus status e ∧ e.kind = kind
  handedOff : ∀ length, .handingOff length ∈ more ↔
    ∃ answer s, outcome = .ok answer ∧ answer.payload = .stream s ∧ s.contentLength = length
  silent : (FailsAs outcome fun e => e.IsTimeout ∨ e.IsConnection ∨ e.IsResponse ∨
    ∃ status < 400, IsStatus status e) → more = []

theorem ofOutcome_cases (outcome : Except ApiError Response) :
    ofOutcome outcome = [] ∨ (∃ status kind, ofOutcome outcome = [.refused status kind]) ∨
      ∃ length, ofOutcome outcome = [.handingOff length] := by
  unfold ofOutcome
  split
  next =>
    split
    next s _ => exact .inr (.inr ⟨s.contentLength, rfl⟩)
    next => exact .inl rfl
  next e =>
    split
    next status _ =>
      split
      next => exact .inr (.inl ⟨status, e.kind, rfl⟩)
      next => exact .inl rfl
    next => exact .inl rfl

theorem refused_mem_ofOutcome_iff {kind : ErrorKind} :
    .refused status kind ∈ ofOutcome outcome ↔
      400 ≤ status ∧ FailsAs outcome fun e => IsStatus status e ∧ e.kind = kind := by
  cases outcome with
  | ok answer => cases payload : answer.payload <;> simp [ofOutcome, payload, not_failsAs_ok]
  | error e =>
    rw [failsAs_error, IsStatus]
    cases told : e.status? with
    | none => simp [ofOutcome, told]
    | some own =>
      by_cases high : 400 ≤ own
      · simp only [ofOutcome, told, if_pos high, List.mem_singleton, refused.injEq,
          Option.some.injEq]
        constructor
        · rintro ⟨rfl, rfl⟩
          exact ⟨high, rfl, rfl⟩
        · rintro ⟨-, rfl, rfl⟩
          exact ⟨rfl, rfl⟩
      · simp only [ofOutcome, told, if_neg high, List.not_mem_nil, Option.some.injEq, false_iff]
        rintro ⟨same, rfl, -⟩
        exact high same

theorem handingOff_mem_ofOutcome_iff {length : Option Nat} :
    .handingOff length ∈ ofOutcome outcome ↔
      ∃ answer s, outcome = .ok answer ∧ answer.payload = .stream s ∧ s.contentLength = length := by
  cases outcome with
  | error e =>
    simp only [ofOutcome, reduceCtorEq, false_and, exists_false, iff_false]
    split
    next => split <;> simp
    next => simp
  | ok answer =>
    cases payload : answer.payload <;> simp [ofOutcome, payload, eq_comm]

theorem fits_ofOutcome (outcome : Except ApiError Response) : Fits outcome (ofOutcome outcome) where
  one := ofOutcome_cases outcome
  refused _ _ := refused_mem_ofOutcome_iff
  handedOff _ := handingOff_mem_ofOutcome_iff
  silent := ofOutcome_of_silent

theorem ofResult_deadline (timeout : Option Duration) (x : Awaited (Except ApiError Response)) :
    ofResult (deadline timeout x) = ofResult x := by
  cases x with
  | now outcome => rfl
  | never => cases timeout <;> rfl

theorem isOwn_dispatching (timeout : Option Duration) : (dispatching timeout).isOwn = true := by
  simp [isOwn, source]

theorem filter_ofResult (x : Awaited (Except ApiError Response)) :
    (ofResult x).filter isOwn = ofResult x := by
  cases x with
  | never => rfl
  | now outcome =>
    obtain none | ⟨status, kind, one⟩ | ⟨length, one⟩ := ofOutcome_cases outcome
    · simp [ofResult, none]
    · simp [ofResult, one, isOwn, source]
    · simp [ofResult, one, isOwn, source]

end Event

namespace Incoming

variable {r : Incoming}

theorem fail_reported (high : 400 ≤ r.status) : r.fail.1 = Event.ofResult r.fail.2 := by
  cases ending : r.body.ending with
  | complete =>
    rw [fail, read_of_complete ending]
    exact (Event.ofOutcome_of_high (status_refusal r r.body.bytes) high).symm
  | broken text =>
    obtain ⟨_, read, _, rfl⟩ := read_of_breaks ⟨text, ending⟩
    rw [fail, read]
    rfl
  | silent =>
    rw [fail, IncomingBody.read, ending]
    rfl

theorem ofResult_whole {f : Bytes → Except ApiError Response}
    (each : ∀ body, Event.ofOutcome (f body) = []) : Event.ofResult (r.whole f) = [] :=
  whole_cases (motive := fun x => Event.ofResult x = []) each (fun _ => rfl) rfl

-- The error of an envelope is not reported where the status is a good one.
theorem ofOutcome_ofEnvelope (low : r.status < 400) (body : Bytes) :
    Event.ofOutcome (r.ofEnvelope body) = [] := by
  unfold ofEnvelope
  split
  next envelope _ =>
    split
    next => rfl
    next => exact Event.ofOutcome_of_low (status_failure r.status envelope) low
  next => rfl

theorem ofOutcome_ofText (body : Bytes) : Event.ofOutcome (r.ofText body) = [] := by
  unfold ofText
  split <;> rfl

theorem receive_reported (r : Incoming) (kind : ResponseKind) :
    (r.receive kind).1 = Event.ofResult (r.receive kind).2 := by
  by_cases high : 400 ≤ r.status
  · have bad : r.isError = true := decide_eq_true high
    simp only [receive, bad, if_true]
    exact fail_reported high
  · have good : r.isError = false := decide_eq_false high
    simp only [receive, good, Bool.false_eq_true, if_false]
    cases kind with
    | none => exact (ofResult_whole fun _ => rfl).symm
    | text => exact (ofResult_whole ofOutcome_ofText).symm
    | stream => rfl
    | json =>
      by_cases typed : r.isJson = true
      · simp only [if_pos typed]
        exact (ofResult_whole (ofOutcome_ofEnvelope (Nat.lt_of_not_le high))).symm
      · simp only [if_neg typed]
        rfl

end Incoming

def Exchange.trace {α : Type} (x : Exchange α) : List Event :=
  x.events.filter Event.isOwn

namespace Surroundings

theorem filter_reports (around : Surroundings) (taken : Session.Taken) :
    (around.reports taken).filter Event.isOwn = [] := by
  unfold reports
  split <;> simp [Event.isOwn, Event.source]

end Surroundings

namespace Client

variable {c : Client} {around : Surroundings} {s : Session} {call : Call} {reaction : Reaction}

theorem send_reported (kind : ResponseKind) (reaction : Reaction)
    (attempted : Except Cause Request) :
    (send kind reaction attempted).2.1 = Event.ofResult (send kind reaction attempted).2.2 := by
  cases attempted with
  | error cause => rfl
  | ok r =>
    cases reaction with
    | dropped cause => rfl
    | silent => rfl
    | answer incoming => exact incoming.receive_reported kind

theorem Stops.trace {x : Exchange Response} (stops : Stops c around s call x) : x.trace = [] := by
  cases stops with
  | refused | closed => rfl
  | unbuilt taken => exact around.filter_reports taken

theorem trace_of_dispatches (dispatches : c.Dispatches s call) :
    (c.call around s call reaction).trace =
      .dispatching (call.timeout.resolve c.timeout) ::
        Event.ofResult (c.call around s call reaction).result := by
  obtain ⟨taken, attempted, -, sent⟩ := call_of_dispatches dispatches
  rw [sent, Exchange.trace]
  simp only [List.filter_append, Surroundings.filter_reports, send_reported, Event.filter_ofResult,
    Event.ofResult_deadline, List.filter_cons_of_pos, Event.isOwn_dispatching, List.filter_nil,
    List.nil_append, List.cons_append]

theorem not_isEarly_of_dispatches {e : ApiError} (dispatches : c.Dispatches s call)
    (failed : (c.call around s call reaction).result = .now (.error e)) : ¬ e.IsEarly := by
  obtain ⟨taken, attempted, -, sent⟩ := call_of_dispatches dispatches
  rw [sent] at failed
  obtain came | ⟨_, rfl⟩ := of_deadline failed
  · exact (isRemote_of_send came).not_isEarly
  · intro early
    cases early

structure FindsNoRoots (around : Surroundings) (s : Session) (call : Call) : Prop where
  allowed : Path.guard call.path = .ok ()
  pending : s = .pending
  missing : around.roots = .missing

structure RootsFirst (around : Surroundings) (s : Session) (call : Call) (x : Exchange Response) :
    Prop where
  missing : FindsNoRoots around s call → x.events = .rootsUnreadable :: x.trace
  found : ¬ FindsNoRoots around s call → x.events = x.trace

theorem rootsFirst_of_take {x : Exchange Response} {taken : Session.Taken}
    (allowed : Path.guard call.path = .ok ()) (took : s.take = .ok taken)
    (events : x.events = around.reports taken ++ x.trace) : RootsFirst around s call x := by
  constructor
  · rintro ⟨-, rfl, missing⟩
    cases took
    rw [events]
    simp [Surroundings.reports, missing]
  · intro found
    have quiet : around.reports taken = [] := by
      rw [Surroundings.reports, if_neg]
      simp only [Bool.and_eq_true, decide_eq_true_eq]
      rintro ⟨created, missing⟩
      have pending : s = .pending := by
        cases s <;> cases took
        · rfl
        · cases created
        · cases created
      exact found ⟨allowed, pending, missing⟩
    rw [events, quiet, List.nil_append]

theorem Stops.rootsFirst {x : Exchange Response} (stops : Stops c around s call x) :
    RootsFirst around s call x := by
  cases stops with
  | refused path forbidden => exact ⟨fun rootless => absurd rootless.allowed forbidden, fun _ => rfl⟩
  | closed shut =>
    refine ⟨fun rootless => ?_, fun _ => rfl⟩
    cases shut.symm.trans rootless.pending
  | unbuilt taken path allowed took =>
    refine rootsFirst_of_take allowed took ?_
    rw [Exchange.trace, around.filter_reports, List.append_nil]

theorem rootsFirst_of_call (c : Client) (around : Surroundings) (s : Session) (call : Call)
    (reaction : Reaction) : RootsFirst around s call (c.call around s call reaction) := by
  by_cases dispatches : c.Dispatches s call
  · obtain ⟨taken, attempted, took, sent⟩ := call_of_dispatches dispatches
    refine rootsFirst_of_take dispatches.allowed took ?_
    rw [trace_of_dispatches dispatches, sent]
    simp [send_reported, Event.ofResult_deadline]
  · exact (stops_of_not_dispatches dispatches).rootsFirst

/-- What a call reports of itself fits what it comes to. A call that is refused, whose client is closed
or whose request cannot be built fails for this, and reports nothing. Any other reports its dispatch
with its deadline, and then at most one thing: a status of at least 400 and the kind of its error,
exactly where it fails with them, or the length of a stream, exactly where it hands this on. Where a
deadline cuts an answer off, the answer is one that falls silent there. What a transport that is made
for the call says of its roots is not the call's own. -/
theorem trace_fits_outcome {outcome : Except ApiError Response}
    (returned : (c.call around s call reaction).result = .now outcome) :
    (¬ c.Dispatches s call ↔ FailsAs outcome ApiError.IsEarly) ∧
    (¬ c.Dispatches s call → (c.call around s call reaction).trace = []) ∧
    (c.Dispatches s call → ∃ more,
      (c.call around s call reaction).trace =
        .dispatching (call.timeout.resolve c.timeout) :: more ∧ Event.Fits outcome more) ∧
    RootsFirst around s call (c.call around s call reaction) := by
  refine ⟨⟨fun stopped => ?_, fun failed dispatches => ?_⟩, fun stopped => ?_, fun dispatches => ?_,
    rootsFirst_of_call c around s call reaction⟩
  · have stops : Stops c around s call (c.call around s call reaction) :=
      stops_of_not_dispatches stopped
    obtain ⟨e, result, early⟩ := stops.result
    cases returned.symm.trans result
    exact ⟨e, rfl, early⟩
  · obtain ⟨e, rfl, early⟩ := failed
    exact not_isEarly_of_dispatches dispatches returned early
  · exact (stops_of_not_dispatches stopped).trace
  · refine ⟨Event.ofOutcome outcome, ?_, Event.fits_ofOutcome outcome⟩
    rw [trace_of_dispatches dispatches, returned]
    rfl

theorem trace_fits_outcome_of_missing :
    ∃ x, (Client.adopting "http://supervisor/api" "token").call
        { Surroundings.open with roots := .missing } .pending
        { Call.ofPath .get "info" with kind := some .stream }
        (.answer ⟨404, [], ⟨[], .complete⟩⟩) = x ∧
      x.result = .now (.error (.ofKind .notFound 404)) ∧
      x.events = [.rootsUnreadable, .dispatching (some (.ofSeconds 10)), .refused 404 .notFound] := by
  have answered : ((Client.adopting "http://supervisor/api" "token").call
      { Surroundings.open with roots := .missing } .pending
        { Call.ofPath .get "info" with kind := some .stream }
        (.answer ⟨404, [], ⟨[], .complete⟩⟩)).request.isSome = true := by
    decide +kernel
  obtain ⟨r, sent⟩ := Option.isSome_iff_exists.mp answered
  obtain ⟨taken, o, reached⟩ := sent_of_request sent
  have returned := result_of_request sent
  obtain ⟨-, -, dispatched, roots⟩ := trace_fits_outcome returned
  obtain ⟨more, trace, fits⟩ := dispatched ⟨reached.allowed, rfl, o, reached.prepared⟩
  have refused : .refused 404 .notFound ∈ more :=
    (fits.refused 404 .notFound).mpr ⟨by decide, _, rfl, rfl, rfl⟩
  have only : more = [.refused 404 .notFound] := by
    obtain rfl | ⟨status, kind, rfl⟩ | ⟨length, rfl⟩ := fits.one
    · cases refused
    · rw [List.mem_singleton.mp refused]
    · cases List.mem_singleton.mp refused
  refine ⟨_, rfl, returned, ?_⟩
  rw [roots.missing ⟨reached.allowed, rfl, rfl⟩, trace, only]
  rfl

end Client

end SupervisorApi
