import Mathlib.Tactic.Common
import SupervisorApi.Client.Exchange
import SupervisorApi.Proofs.Text.Utf8

set_option autoImplicit false

namespace SupervisorApi

namespace Host

theorem of_normalize {host base : String} {uri : Uri} (accepted : normalize host = .ok base)
    (read : Uri.parse host = .ok uri) :
    uri.scheme ≠ none ∧ uri.query = none ∧ base = withoutSlashes host := by
  unfold normalize at accepted
  rw [read] at accepted
  simp only at accepted
  split at accepted
  next => cases accepted
  next web =>
    split at accepted
    next => cases accepted
    next noQuery =>
      cases accepted
      refine ⟨?_, by simpa using noQuery, rfl⟩
      intro schemeless
      simp [Uri.schemeName, schemeless] at web

end Host

namespace ClientSettings

variable {settings : ClientSettings} {c : Client} {first : Session}

theorem of_build (built : settings.build = .ok (c, first)) :
    Host.normalize settings.host = .ok c.baseUrl ∧
      Header.value? ("Bearer " ++ settings.token) = some c.authorization ∧
        Header.value? settings.userAgent = some c.userAgent ∧
          c.timeout = settings.timeout ∧ first = .start settings.transport := by
  unfold build headerValue at built
  cases base : Host.normalize settings.host with
  | error _ => simp [base, bind, Except.bind] at built
  | ok url =>
    cases auth : Header.value? ("Bearer " ++ settings.token) with
    | none => simp [base, auth, bind, Except.bind] at built
    | some authorization =>
      cases agent : Header.value? settings.userAgent with
      | none => simp [base, auth, agent, bind, Except.bind] at built
      | some userAgent =>
        simp only [base, auth, agent, bind, Except.bind, pure, Except.pure, Except.ok.injEq,
          Prod.mk.injEq] at built
        obtain ⟨rfl, rfl⟩ := built
        exact ⟨rfl, rfl, rfl, rfl, rfl⟩

end ClientSettings

namespace Path

theorem guard_eq_ok_iff {path : String} :
    guard path = .ok () ↔ isSafe (Utf8.encode path) = true := by
  unfold guard
  split <;> simp_all

theorem guard_refuses {path : String} (unsafePath : guard path ≠ .ok ()) :
    guard path = .error (.invalidPath path) := by
  unfold guard at unsafePath ⊢
  split
  next safe => exact absurd (if_pos safe) unsafePath
  next => rfl

theorem not_mem_of_guard {path : String} {c : Char} (allowed : guard path = .ok ())
    (ascii : c.toNat < 0x80) (forbidden : isForbidden (UInt8.ofNat c.toNat) = true) :
    c ∉ path.toList := by
  intro member
  rw [guard_eq_ok_iff, isSafe, Bool.and_eq_true, Bool.not_eq_true', List.any_eq_false] at allowed
  refine allowed.1 (UInt8.ofNat c.toNat) ?_ forbidden
  have value : (UInt8.ofNat c.toNat).toNat = c.toNat := Utf8.toNat_byte (by omega)
  rw [Utf8.mem_encode_ascii (by omega), value, Char.ofNat_toNat]
  exact member

end Path

namespace Outgoing

theorem of_arrive {o : Outgoing} {r : Request} (arrived : o.arrive = .ok r) :
    r.method = o.method ∧ r.authority = o.authority ∧ r.target = o.target ∧
      r.headers = o.headers ∧ r.framing = o.framing ∧ o.sentBody.bytes? = .ok r.body := by
  unfold arrive at arrived
  cases body : o.sentBody.bytes? with
  | error _ => rw [body] at arrived; cases arrived
  | ok bytes =>
    rw [body] at arrived
    cases arrived
    exact ⟨rfl, rfl, rfl, rfl, rfl, rfl⟩

end Outgoing

theorem Call.begin_eq_ok_iff {call : Call} {s : Session} {taken : Session.Taken} :
    call.begin s = .ok taken ↔ Path.guard call.path = .ok () ∧ s.take = .ok taken := by
  unfold begin
  cases Path.guard call.path <;> simp

inductive ApiError.IsEarly : ApiError → Prop where
  | closed : IsEarly .closed
  | invalidPath (path : String) : IsEarly (.invalidPath path)

namespace Session

variable {s : Session}

theorem exists_take (unclosed : s.isClosed = false) : ∃ taken, s.take = .ok taken := by
  cases s with
  | closed => cases unclosed
  | _ => exact ⟨_, rfl⟩

theorem isClosed_of_take {taken : Session.Taken} (took : s.take = .ok taken) :
    s.isClosed = false := by
  cases s with
  | closed => cases took
  | _ => rfl

end Session

namespace Client

variable {c : Client} {around : Surroundings} {s : Session} {call : Call} {reaction : Reaction}
  {o : Outgoing} {r : Request}

theorem of_prepare (prepared : c.prepare call = .ok o) :
    ∃ uri, Uri.parse (c.url call) = .ok uri ∧
      o = ⟨call.method, uri.isSecure, uri.authority, uri.target,
        (c.defaults call).overlay call.headers, call.content.body⟩ := by
  unfold prepare at prepared
  split at prepared
  next uri read =>
    cases prepared
    exact ⟨uri, read, rfl⟩
  next => cases prepared

theorem invalidPath_of_prepare {e : ApiError} (failed : c.prepare call = .error e) :
    ∃ path, e = .invalidPath path := by
  unfold prepare at failed
  split at failed
  next => cases failed
  next =>
    cases failed
    exact ⟨_, rfl⟩

theorem call_of_begun {taken : Session.Taken} (begun : call.begin s = .ok taken) :
    c.call around s call reaction = c.finish around taken call reaction := by
  simp only [Client.call, begun]

theorem call_of_ready {taken : Session.Taken} (allowed : Path.guard call.path = .ok ())
    (ready : s.take = .ok taken) :
    c.call around s call reaction = c.finish around taken call reaction :=
  call_of_begun (Call.begin_eq_ok_iff.mpr ⟨allowed, ready⟩)

theorem attempt_eq_ok_iff {t : Transport} : attempt around t o = .ok r ↔
    around.reaches t (Uri.address o.authority) o.secure = true ∧ o.arrive = .ok r := by
  by_cases reached : around.reaches t (Uri.address o.authority) o.secure = true
  · cases arrived : o.arrive <;> simp [attempt, reached, arrived, Except.mapError]
  · simp [attempt, reached]

@[simp] theorem request_send (kind : ResponseKind) (reaction : Reaction) (r : Request) :
    (send kind reaction (.ok r)).1 = some r := by
  cases reaction <;> rfl

theorem of_send {kind : ResponseKind} {attempted : Except Cause Request}
    (sent : (send kind reaction attempted).1 = some r) : attempted = .ok r := by
  cases attempted with
  | error cause => cases sent
  | ok request => rw [← Option.some.inj ((request_send kind reaction request).symm.trans sent)]

theorem call_refused (around : Surroundings) (s : Session) (reaction : Reaction)
    (forbidden : Path.guard call.path ≠ .ok ()) :
    c.call around s call reaction = .refuse s (.invalidPath call.path) := by
  unfold Client.call Call.begin
  rw [Path.guard_refuses forbidden]

/-- A call comes as far as its dispatch. -/
structure Dispatches (c : Client) (s : Session) (call : Call) : Prop where
  allowed : Path.guard call.path = .ok ()
  unclosed : s.isClosed = false
  built : ∃ o, c.prepare call = .ok o

theorem call_of_dispatches (dispatches : c.Dispatches s call) :
    ∃ taken attempted, s.take = .ok taken ∧ c.call around s call reaction =
      { session := taken.session
        request := (send call.responseKind reaction attempted).1
        events := around.reports taken ++ [.dispatching (call.timeout.resolve c.timeout)] ++
          (send call.responseKind reaction attempted).2.1
        result := deadline (call.timeout.resolve c.timeout)
          (send call.responseKind reaction attempted).2.2 } := by
  obtain ⟨allowed, unclosed, o, built⟩ := dispatches
  obtain ⟨taken, took⟩ := Session.exists_take unclosed
  refine ⟨taken, attempt around taken.transport o, took, ?_⟩
  simp only [call_of_ready allowed took, finish, built]

inductive Stops (c : Client) (around : Surroundings) (s : Session) (call : Call) :
    Exchange Response → Prop where
  | refused (path : String) (forbidden : Path.guard call.path ≠ .ok ()) :
    Stops c around s call (.refuse s (.invalidPath path))
  | closed (shut : s = .closed) : Stops c around s call (.refuse s .closed)
  | unbuilt (taken : Session.Taken) (path : String) (allowed : Path.guard call.path = .ok ())
    (took : s.take = .ok taken) :
    Stops c around s call ⟨taken.session, none, around.reports taken, .now (.error (.invalidPath path))⟩

theorem stops_of_not_dispatches (stopped : ¬ c.Dispatches s call) :
    Stops c around s call (c.call around s call reaction) := by
  by_cases allowed : Path.guard call.path = .ok ()
  · cases took : s.take with
    | error e =>
      cases s <;> cases took
      simp only [Client.call, Call.begin, allowed, Session.take]
      exact .closed rfl
    | ok taken =>
      cases built : c.prepare call with
      | ok o => exact absurd ⟨allowed, Session.isClosed_of_take took, o, built⟩ stopped
      | error e =>
        obtain ⟨path, rfl⟩ := invalidPath_of_prepare built
        simp only [call_of_ready allowed took, finish, built]
        exact .unbuilt taken path allowed took
  · rw [call_refused around s reaction allowed]
    exact .refused call.path allowed

theorem Stops.result {x : Exchange Response} (stops : Stops c around s call x) :
    ∃ e, x.result = .now (.error e) ∧ e.IsEarly := by
  cases stops with
  | refused path | unbuilt _ path => exact ⟨_, rfl, .invalidPath path⟩
  | closed => exact ⟨_, rfl, .closed⟩

structure Sent (c : Client) (around : Surroundings) (s : Session) (call : Call)
    (reaction : Reaction) (taken : Session.Taken) (o : Outgoing) (r : Request) : Prop where
  allowed : Path.guard call.path = .ok ()
  session : s.take = .ok taken
  prepared : c.prepare call = .ok o
  reached : around.reaches taken.transport (Uri.address o.authority) o.secure = true
  arrived : o.arrive = .ok r
  exchange : c.call around s call reaction =
    { session := taken.session
      request := some r
      events := around.reports taken ++ [.dispatching (call.timeout.resolve c.timeout)]
        ++ (send call.responseKind reaction (.ok r)).2.1
      result := deadline (call.timeout.resolve c.timeout)
        (send call.responseKind reaction (.ok r)).2.2 }

theorem sent_of_request (sent : (c.call around s call reaction).request = some r) :
    ∃ taken o, Sent c around s call reaction taken o r := by
  have shape := sent
  unfold Client.call at shape
  split at shape
  next => cases shape
  next taken begun =>
    unfold finish at shape
    split at shape
    next => cases shape
    next o prepared =>
      have attempted := of_send shape
      obtain ⟨allowed, ready⟩ := Call.begin_eq_ok_iff.mp begun
      obtain ⟨reached, arrived⟩ := attempt_eq_ok_iff.mp attempted
      refine ⟨taken, o, allowed, ready, prepared, reached, arrived, ?_⟩
      simp only [call_of_ready allowed ready, finish, prepared, attempted, request_send]

end Client

end SupervisorApi
