import SupervisorApi.Proofs.Client.Target

set_option autoImplicit false

namespace SupervisorApi

namespace ApiError

def IsConnection (e : ApiError) : Prop :=
  ∃ message, e = .connection message

def IsResponse (e : ApiError) : Prop :=
  ∃ message, e = .response message

def IsStatus (status : Nat) (e : ApiError) : Prop :=
  e.status? = some status

end ApiError

def FailsAs {α : Type} (x : Except ApiError α) (sort : ApiError → Prop) : Prop :=
  ∃ e, x = .error e ∧ sort e

theorem failsAs_error {α : Type} {e : ApiError} {sort : ApiError → Prop} :
    FailsAs (.error e : Except ApiError α) sort ↔ sort e := by
  simp [FailsAs]

theorem not_failsAs_ok {α : Type} (a : α) (sort : ApiError → Prop) :
    ¬ FailsAs (.ok a : Except ApiError α) sort := by
  simp [FailsAs]

namespace Incoming

variable {r : Incoming} {kind : ResponseKind}

def SaysJson (r : Incoming) : Prop :=
  ∃ value text, r.contentType = some value ∧ Header.visible? value = some text ∧
    jsonType.toList <:+: text

theorem occursIn_iff {part s : List Char} : occursIn part s = true ↔ part <:+: s := by
  induction s with
  | nil => simp [occursIn]
  | cons c rest ih => simp [occursIn, ih, List.infix_cons_iff]

theorem isJson_iff : r.isJson = true ↔ r.SaysJson := by
  simp only [isJson, SaysJson, Option.any_eq_true, Option.bind_eq_some_iff, occursIn_iff]
  constructor
  · rintro ⟨text, ⟨value, header, shown⟩, inside⟩
    exact ⟨value, text, header, shown, inside⟩
  · rintro ⟨value, text, header, shown, inside⟩
    exact ⟨text, ⟨value, header, shown⟩, inside⟩

open ApiError (IsConnection IsResponse IsStatus)

def Refused (r : Incoming) (x : Except ApiError Response) : Prop :=
  (r.body.ending = .complete → FailsAs x (IsStatus r.status)) ∧
    (r.body.Breaks → FailsAs x IsConnection)

def Delivered (r : Incoming) (x : Except ApiError Response) : ResponseKind → Prop
  | .none =>
    (FailsAs x IsConnection ↔ r.body.Breaks) ∧
      ∀ answer, x = .ok answer ↔ r.body.ending = .complete ∧ answer = ⟨r.status, none, .empty⟩
  | .json =>
    (FailsAs x IsConnection ↔ r.SaysJson ∧ r.body.Breaks) ∧
      (FailsAs x IsResponse ↔ ¬ r.SaysJson ∨
        (r.body.ending = .complete ∧ ∃ fault, Envelope.parse r.body.bytes = .error fault)) ∧
      (FailsAs x (IsStatus r.status) ↔ r.SaysJson ∧ r.body.ending = .complete ∧
        ∃ e, Envelope.parse r.body.bytes = .ok e ∧ e.result = .error) ∧
      ∀ answer, x = .ok answer ↔ r.SaysJson ∧ r.body.ending = .complete ∧
        ∃ e, Envelope.parse r.body.bytes = .ok e ∧ e.result = .ok ∧
          answer = ⟨r.status, e.jobId, .json (e.data.getD .null)⟩
  | .text =>
    (FailsAs x IsConnection ↔ r.body.Breaks) ∧
      (FailsAs x IsResponse ↔ r.body.ending = .complete ∧ ∀ s, Utf8.encode s ≠ r.body.bytes) ∧
      ∀ answer, x = .ok answer ↔ r.body.ending = .complete ∧
        ∃ s, Utf8.encode s = r.body.bytes ∧ answer = ⟨r.status, none, .text s⟩
  | .stream => x = .ok ⟨r.status, none, .stream (.ofBody r.body r.contentLength)⟩

theorem status_failure (status : Nat) (e : Envelope) : IsStatus status (e.failure status) :=
  rfl

theorem status_refusal (r : Incoming) (body : Bytes) : IsStatus r.status (r.refusal body) := by
  unfold refusal
  split
  · split
    · exact status_failure r.status _
    · rfl
  · rfl

theorem not_breaks_of_complete (complete : r.body.ending = .complete) : ¬ r.body.Breaks := by
  rintro ⟨text, broken⟩
  cases complete.symm.trans broken

theorem not_complete_of_breaks (breaks : r.body.Breaks) : r.body.ending ≠ .complete :=
  fun complete => not_breaks_of_complete complete breaks

theorem read_of_complete (complete : r.body.ending = .complete) :
    r.body.read = .now (.ok r.body.bytes) := by
  rw [IncomingBody.read, complete]

theorem read_of_breaks (breaks : r.body.Breaks) :
    ∃ e, r.body.read = .now (.error e) ∧ IsConnection e := by
  obtain ⟨text, broken⟩ := breaks
  rw [IncomingBody.read, broken]
  exact ⟨_, rfl, _, rfl⟩

theorem whole_cases {α : Type} {f : Bytes → Except ApiError α}
    {motive : Awaited (Except ApiError α) → Prop} (complete : ∀ body, motive (.now (f body)))
    (broken : ∀ message, motive (.now (.error (.connection message)))) (silent : motive .never) :
    motive (r.whole f) := by
  cases ending : r.body.ending with
  | complete =>
    rw [whole, read_of_complete ending]
    exact complete _
  | broken text =>
    obtain ⟨_, read, message, rfl⟩ := read_of_breaks ⟨text, ending⟩
    rw [whole, read]
    exact broken message
  | silent =>
    rw [whole, IncomingBody.read, ending]
    exact silent

theorem fail_eq_whole (r : Incoming) : r.fail.2 = r.whole fun body => .error (r.refusal body) := by
  unfold fail whole
  cases r.body.read with
  | now x => cases x <;> rfl
  | never => rfl

theorem ending_cases (ended : r.body.ending ≠ .silent) :
    r.body.ending = .complete ∨ r.body.Breaks := by
  cases ending : r.body.ending with
  | complete => exact .inl rfl
  | broken text => exact .inr ⟨text, ending⟩
  | silent => exact absurd ending ended

theorem refused_fail (ended : r.body.ending ≠ .silent) :
    ∃ x, r.fail.2 = .now x ∧ r.Refused x := by
  rcases ending_cases ended with complete | breaks
  · refine ⟨.error (r.refusal r.body.bytes), by rw [fail, read_of_complete complete], ?_, ?_⟩
    · intro _
      exact failsAs_error.mpr (status_refusal r _)
    · exact fun breaks => absurd breaks (not_breaks_of_complete complete)
  · obtain ⟨e, read, connection⟩ := read_of_breaks breaks
    refine ⟨.error e, by rw [fail, read], ?_, ?_⟩
    · exact fun complete => absurd complete (not_complete_of_breaks breaks)
    · intro _
      exact failsAs_error.mpr connection

theorem delivered_none (ended : r.body.ending ≠ .silent) :
    ∃ x, (r.whole fun _ => .ok ⟨r.status, none, .empty⟩) = .now x ∧ r.Delivered x .none := by
  rcases ending_cases ended with complete | breaks
  · refine ⟨_, by rw [whole, read_of_complete complete]; rfl, ?_⟩
    simp [Delivered, complete, not_breaks_of_complete complete, not_failsAs_ok, eq_comm, Except.bind]
  · obtain ⟨e, read, connection⟩ := read_of_breaks breaks
    refine ⟨_, by rw [whole, read]; rfl, ?_⟩
    simp [Delivered, breaks, not_complete_of_breaks breaks, failsAs_error, connection, Except.bind]

theorem delivered_text (ended : r.body.ending ≠ .silent) :
    ∃ x, r.whole r.ofText = .now x ∧ r.Delivered x .text := by
  rcases ending_cases ended with complete | breaks
  · refine ⟨r.ofText r.body.bytes, by rw [whole, read_of_complete complete]; rfl, ?_⟩
    unfold ofText
    cases read : Utf8.decode r.body.bytes with
    | ok s =>
      have written := Utf8.decode_eq_ok_iff.mp read
      refine ⟨by simp [not_failsAs_ok, not_breaks_of_complete complete], ?_, ?_⟩
      · simp only [not_failsAs_ok, false_iff, not_and, not_forall, not_not]
        exact fun _ => ⟨s, written⟩
      · intro answer
        constructor
        · intro same
          cases same
          exact ⟨complete, s, written, rfl⟩
        · rintro ⟨-, t, again, rfl⟩
          rw [Utf8.encode_injective (written.trans again.symm)]
    | error fault =>
      have unreadable : ∀ s, Utf8.encode s ≠ r.body.bytes := by
        intro s written
        rw [Utf8.decode_eq_ok_iff.mpr written] at read
        cases read
      refine ⟨?_, ?_, ?_⟩
      · simp [failsAs_error, IsConnection, not_breaks_of_complete complete]
      · simp [failsAs_error, IsResponse, complete, unreadable]
      · simp [unreadable]
  · obtain ⟨e, read, connection⟩ := read_of_breaks breaks
    refine ⟨.error e, by rw [whole, read]; rfl, ?_⟩
    obtain ⟨message, rfl⟩ := connection
    simp [Delivered, breaks, not_complete_of_breaks breaks, failsAs_error, IsConnection, IsResponse]

theorem delivered_json (ended : r.body.ending ≠ .silent) :
    ∃ x, (if r.isJson then r.whole r.ofEnvelope else .now (.error r.notJson)) = .now x ∧
      r.Delivered x .json := by
  by_cases typed : r.SaysJson
  · rw [if_pos (isJson_iff.mpr typed)]
    rcases ending_cases ended with complete | breaks
    · refine ⟨r.ofEnvelope r.body.bytes, by rw [whole, read_of_complete complete]; rfl, ?_⟩
      unfold ofEnvelope
      cases read : Envelope.parse r.body.bytes with
      | error fault =>
        simp [Delivered, failsAs_error, IsConnection, IsResponse, IsStatus, ApiError.status?,
          typed, complete, not_breaks_of_complete complete, read]
      | ok e =>
        cases result : e.result with
        | ok =>
          simp [Delivered, not_failsAs_ok, Envelope.isOk, typed, complete, not_breaks_of_complete complete, read,
            result, eq_comm]
        | error =>
          simp [Delivered, failsAs_error, Envelope.isOk, typed, complete, not_breaks_of_complete complete, read,
            result,
            IsConnection, IsResponse, IsStatus, ApiError.status?, Envelope.failure]
    · obtain ⟨e, read, message, rfl⟩ := read_of_breaks breaks
      refine ⟨_, by rw [whole, read]; rfl, ?_⟩
      simp [Delivered, failsAs_error, IsConnection, IsResponse, IsStatus, ApiError.status?,
        typed, breaks, not_complete_of_breaks breaks, Except.bind]
  · rw [if_neg fun json => typed (isJson_iff.mp json)]
    refine ⟨_, rfl, ?_⟩
    simp [Delivered, failsAs_error, IsConnection, IsResponse, IsStatus, ApiError.status?, typed,
      notJson]

theorem receive_of_low (kind : ResponseKind) (low : r.status < 400)
    (ended : r.body.ending ≠ .silent) :
    ∃ x, (r.receive kind).2 = .now x ∧ r.Delivered x kind := by
  have good : r.isError = false := decide_eq_false (by omega)
  simp only [receive, good, Bool.false_eq_true, if_false]
  cases kind with
  | none => exact delivered_none ended
  | json => exact delivered_json ended
  | text => exact delivered_text ended
  | stream => exact ⟨_, rfl, rfl⟩

theorem receive_cases (kind : ResponseKind) (ended : r.body.ending ≠ .silent) :
    ∃ x, (r.receive kind).2 = .now x ∧ (400 ≤ r.status → r.Refused x) ∧
      (r.status < 400 → r.Delivered x kind) := by
  by_cases low : r.status < 400
  · obtain ⟨x, read, delivered⟩ := receive_of_low kind low ended
    exact ⟨x, read, fun high => absurd low (by omega), fun _ => delivered⟩
  · have bad : r.isError = true := decide_eq_true (by omega)
    obtain ⟨x, read, refused⟩ := refused_fail ended
    refine ⟨x, ?_, fun _ => refused, fun good => absurd good low⟩
    simp only [receive, bad, if_true, read]

end Incoming

namespace Client

/-- A call that is answered comes to what its status, its kind and the body make of it. -/
theorem call_classified {c : Client} {around : Surroundings} {s : Session} {call : Call}
    {incoming : Incoming} {r : Request}
    (sent : (c.call around s call (.answer incoming)).request = some r)
    (ended : incoming.body.ending ≠ .silent) :
    ∃ x, (c.call around s call (.answer incoming)).result = .now x ∧
      (400 ≤ incoming.status → incoming.Refused x) ∧
      (incoming.status < 400 → incoming.Delivered x call.responseKind) := by
  obtain ⟨taken, o, reached⟩ := sent_of_request sent
  obtain ⟨x, read, cases⟩ := Incoming.receive_cases call.responseKind ended
  refine ⟨x, ?_, cases⟩
  rw [reached.exchange, send, read]
  rfl

theorem call_classified_of_malformed :
    ∃ c first r incoming, incoming.status = 404 ∧ incoming.body.bytes = Utf8.encode "\x7b" ∧
      ((c : Client).call .open first
        { Call.ofPath .get "info" with kind := some .stream } (.answer incoming)).request = some r ∧
      ∃ x, (c.call .open first
        { Call.ofPath .get "info" with kind := some .stream } (.answer incoming)).result = .now x ∧
          FailsAs x (ApiError.IsStatus 404) := by
  have answered : ((Client.adopting "http://supervisor/api" "token").call .open
      (.adopted .standard) { Call.ofPath .get "info" with kind := some .stream }
        (.answer ⟨404, [.ofText "content-type" "application/json"],
          ⟨[.data (Utf8.encode "\x7b")], .complete⟩⟩)).request.isSome = true := by
    decide +kernel
  obtain ⟨r, sent⟩ := Option.isSome_iff_exists.mp answered
  obtain ⟨x, result, refused, -⟩ := call_classified sent (by decide)
  exact ⟨_, _, r, _, rfl, rfl, sent, x, result, (refused (by decide)).1 rfl⟩

end Client

end SupervisorApi
