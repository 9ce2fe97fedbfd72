import SupervisorApi.Proofs.Endpoint.Changes

set_option autoImplicit false

namespace SupervisorApi

def Field.written : Field Bool → Option Json
  | .unset => none
  | .null => some .null
  | .value b => some (.bool b)

theorem Field.written_of_shows {a : Field Bool} {j : Option Json}
    (shown : Presence.field.Shows Shape.bool.Shows a j) : j = a.written := by
  cases a with
  | unset | null => exact shown
  | value b =>
    obtain ⟨w, rfl, -, rfl⟩ := shown
    rfl

theorem Field.written_eq_true_iff {a : Field Bool} :
    a.written = some (.bool true) ↔ a = .value true := by
  cases a <;> simp [written]

def Content.ofObject : Option Members → Content
  | none => .empty
  | some ms => .json (.obj ms)

def Request.Carries (r : Request) : Option Members → Prop
  | none => r.framing = .noBody ∧ r.body = []
  | some ms => r.framing = .length (Json.obj ms).bytes.length ∧ r.body = (Json.obj ms).bytes

namespace Client

variable {c : Client} {around : Surroundings} {s : Session} {call : Call} {reaction : Reaction}
  {r : Request}

theorem carries_of_request {body : Option Members} (content : call.content = .ofObject body)
    (sent : (c.call around s call reaction).request = some r) : r.Carries body := by
  obtain ⟨taken, o, reached⟩ := sent_of_request sent
  obtain ⟨uri, -, rfl⟩ := of_prepare reached.prepared
  obtain ⟨-, -, -, -, framing, whole⟩ := Outgoing.of_arrive reached.arrived
  cases body with
  | none =>
    simp only [content, Content.ofObject, Content.body] at framing whole
    rw [RequestBody.bytes?, RequestBody.frames_eq] at whole
    exact ⟨framing, (Except.ok.inj whole).symm⟩
  | some ms =>
    refine ⟨?_, body_of_json content sent⟩
    simp only [content, Content.ofObject, Content.body] at framing
    exact framing

theorem request_of_timeout (c : Client) (limit : Option Duration) (around : Surroundings)
    (s : Session) (call : Call) (reaction : Reaction) :
    (({ c with timeout := limit } : Client).call around s call reaction).request =
      (c.call around s call reaction).request := by
  have prepared : ({ c with timeout := limit } : Client).prepare call = c.prepare call := rfl
  unfold Client.call finish
  rw [prepared]
  cases call.begin s with
  | error _ => rfl
  | ok taken => cases c.prepare call <;> rfl

theorem dispatching_of_request (sent : (c.call around s call reaction).request = some r) :
    .dispatching (call.timeout.resolve c.timeout) ∈ (c.call around s call reaction).events := by
  obtain ⟨taken, o, reached⟩ := sent_of_request sent
  rw [reached.exchange]
  simp

theorem result_of_withheld (sent : (c.call around s call reaction).request = some r)
    (withheld : reaction.Withholds call.responseKind) :
    (c.call around s call reaction).result =
      deadline (call.timeout.resolve c.timeout) .never := by
  rw [result_of_request sent, Reaction.outcome_eq_never_iff.mpr withheld]

end Client

namespace Endpoint

variable {e : Endpoint} {c : Client} {around : Surroundings} {s : Session} {arguments : Arguments}
  {v : e.sends.Val} {reaction : Reaction} {call : Call} {r : Request}

theorem dispatching_of_exchange (made : e.call arguments v = .ok call)
    (sent : (c.call around s call reaction).request = some r) :
    .dispatching (call.timeout.resolve c.timeout) ∈
      (e.exchange c around s arguments v reaction).events := by
  simp only [exchange, made]
  exact Client.dispatching_of_request sent

theorem result_of_withheld (made : e.call arguments v = .ok call)
    (sent : (c.call around s call reaction).request = some r)
    (withheld : reaction.Withholds call.responseKind) :
    (e.exchange c around s arguments v reaction).result =
      deadline (call.timeout.resolve c.timeout) .never := by
  simp only [exchange, made, Exchange.andThen, Client.result_of_withheld sent withheld]
  cases call.timeout.resolve c.timeout <;> rfl

end Endpoint

inductive Job where
  | fullBackup
  | partialBackup
  | fullRestore
  | partialRestore
  | installAddon
  | updateAddon
  deriving DecidableEq, Repr

namespace Job

def name : Job → String
  | .fullBackup => "backups.full_backup"
  | .partialBackup => "backups.partial_backup"
  | .fullRestore => "backups.full_restore"
  | .partialRestore => "backups.partial_restore"
  | .installAddon => "store.install_addon"
  | .updateAddon => "store.update_addon"

def endpoint : Job → Endpoint
  | .fullBackup => Endpoint.fullBackup
  | .partialBackup => Endpoint.partialBackup
  | .fullRestore => Endpoint.fullRestore
  | .partialRestore => Endpoint.partialRestore
  | .installAddon => Endpoint.installAddon
  | .updateAddon => Endpoint.updateAddon

def model : Job → String
  | .fullBackup => "FullBackupOptions"
  | .partialBackup => "PartialBackupOptions"
  | .fullRestore => "FullRestoreOptions"
  | .partialRestore => "PartialRestoreOptions"
  | .installAddon => "StoreAddonInstall"
  | .updateAddon => "StoreAddonUpdate"

def options : Job → Shape
  | .fullBackup => Backups.fullBackup
  | .partialBackup => Backups.partialBackup
  | .fullRestore => Backups.fullRestore
  | .partialRestore => Backups.partialRestore
  | .installAddon => Store.installOptions
  | .updateAddon => Store.updateOptions

def given : (j : Job) → j.endpoint.sends.Val → Option j.options.Val
  | .fullBackup, v | .fullRestore, v | .installAddon, v | .updateAddon, v => v
  | .partialBackup, v | .partialRestore, v => some v

def background : (j : Job) → j.options.Val → Field Bool
  | .fullBackup, a => Endpoint.backsUpBehind a
  | .partialBackup, (_, a, _) => Endpoint.backsUpBehind a
  | .fullRestore, a => Endpoint.restoresBehind a
  | .partialRestore, (_, a, _) => Endpoint.restoresBehind a
  | .installAddon, ((background, ()), ()) => background
  | .updateAddon, ((_, background, ()), ()) => background

theorem model?_eq (j : Job) : Catalog.model? j.model = some j.options := by
  cases j <;> rfl

theorem model_mem (j : Job) : j.model ∈ Catalog.requests := by
  cases j <;> decide

theorem find?_name (j : Job) : Endpoint.find? j.name = some j.endpoint := by
  cases j <;> rfl

theorem written_of_backup {a : Backups.fullBackupFields.Val} {look : String → Option Json}
    (shown : Backups.fullBackupFields.Shows a look) :
    look "background" = (Endpoint.backsUpBehind (a, ())).written := by
  obtain ⟨_, _, _, _, _, _, _⟩ := a
  obtain ⟨-, -, -, -, -, shown, -⟩ := shown
  exact Field.written_of_shows shown

theorem written_of_restore {a : Backups.fullRestoreFields.Val} {look : String → Option Json}
    (shown : Backups.fullRestoreFields.Shows a look) :
    look "background" = (Endpoint.restoresBehind (a, ())).written := by
  obtain ⟨_, _, _⟩ := a
  obtain ⟨-, shown, -⟩ := shown
  exact Field.written_of_shows shown

-- The member stands in the object itself, also where the options are a part of others.
theorem get?_of_shows (j : Job) {a : j.options.Val} {ms : Members}
    (shown : j.options.Shows a (.obj ms)) :
    Members.get? "background" ms = (j.background a).written := by
  cases j with
  | fullBackup =>
    obtain ⟨_, ⟨⟩, shown, -⟩ := shown
    exact written_of_backup shown
  | partialBackup =>
    obtain ⟨_, ⟨⟩, -, ⟨shown, -⟩, -⟩ := shown
    exact written_of_backup shown
  | fullRestore =>
    obtain ⟨_, ⟨⟩, shown, -⟩ := shown
    exact written_of_restore shown
  | partialRestore =>
    obtain ⟨_, ⟨⟩, -, ⟨shown, -⟩, -⟩ := shown
    exact written_of_restore shown
  | installAddon =>
    obtain ⟨_, ⟨⟩, ⟨shown, -⟩, -⟩ := shown
    exact Field.written_of_shows shown
  | updateAddon =>
    obtain ⟨_, ⟨⟩, ⟨-, shown, -⟩, -⟩ := shown
    exact Field.written_of_shows shown

def body (j : Job) (v : j.endpoint.sends.Val) : Except WireError (Option Members) :=
  (j.given v).mapM j.options.toWire

def IsQueued (body : Option Members) : Prop :=
  body.bind (Members.get? "background") = some (.bool true)

theorem exists_body (j : Job) (v : j.endpoint.sends.Val) :
    ∃ body, j.body v = .ok body ∧
      (IsQueued body ↔ (j.given v).map j.background = some (.value true)) := by
  unfold Job.body
  cases j.given v with
  | none => exact ⟨none, rfl, by simp [IsQueued]⟩
  | some a =>
    obtain ⟨ms, sent, shown, -⟩ := Catalog.fromWire_of_request j.model_mem j.model?_eq a
    refine ⟨some ms, ?_, ?_⟩
    · rw [Option.mapM_some, sent]
      rfl
    · simp only [IsQueued, Option.bind_some, j.get?_of_shows shown, Field.written_eq_true_iff,
        Option.map_some, Option.some_inj]

theorem apply_eq (j : Job) (arguments : Arguments) (c : Call) (v : j.endpoint.sends.Val) :
    j.endpoint.sends.apply arguments c v =
      match j.given v with
      | none => .ok (Sends.untilDone none c)
      | some a => (Sends.members j.options a).map
          (Sends.withObject (Sends.untilDone (some (j.background a)) c)) := by
  cases j with
  | partialBackup | partialRestore => rfl
  | fullBackup | fullRestore | installAddon | updateAddon => cases v <;> rfl

theorem timeout_untilDone {c : Call} (standard : c.timeout = .standard)
    (background : Option (Field Bool)) :
    (Sends.untilDone background c).timeout =
      if background = some (.value true) then .standard else .disabled := by
  unfold Sends.untilDone
  split
  · exact standard
  · rfl

theorem content_untilDone (background : Option (Field Bool)) (c : Call) :
    (Sends.untilDone background c).content = c.content := by
  unfold Sends.untilDone
  split <;> rfl

def timeout (j : Job) (v : j.endpoint.sends.Val) : CallTimeout :=
  if (j.given v).map j.background = some (.value true) then .standard else .disabled

theorem call_of_body (j : Job) (arguments : Arguments) {v : j.endpoint.sends.Val}
    {body : Option Members} (written : j.body v = .ok body) :
    ∃ call, j.endpoint.call arguments v = .ok call ∧ call.content = .ofObject body ∧
      call.timeout = j.timeout v := by
  let blank : Call :=
    { Call.ofPath j.endpoint.method (j.endpoint.pathText arguments) with
      kind := j.endpoint.asks
      timeout := j.endpoint.timeout }
  have standard : blank.timeout = .standard := by cases j <;> rfl
  have made : j.endpoint.call arguments v = j.endpoint.sends.apply arguments blank v := rfl
  rw [made, apply_eq]
  unfold Job.body at written
  unfold Job.timeout
  cases given : j.given v with
  | none =>
    rw [given] at written
    cases written
    exact ⟨_, rfl, content_untilDone none blank, timeout_untilDone standard none⟩
  | some a =>
    rw [given, Option.mapM_some] at written
    cases sent : j.options.toWire a with
    | error _ => simp [sent] at written
    | ok ms =>
      have same : body = some ms := by simpa [sent, eq_comm] using written
      refine ⟨_, by simp only [Sends.members, sent]; rfl, by rw [same]; rfl, ?_⟩
      exact timeout_untilDone standard _

theorem timeout_agrees (j : Job) {v : j.endpoint.sends.Val} {body : Option Members}
    (queued : IsQueued body ↔ (j.given v).map j.background = some (.value true))
    (client : Option Duration) :
    (j.timeout v = .disabled ↔ ¬ IsQueued body) ∧ (j.timeout v = .standard ↔ IsQueued body) ∧
      (¬ IsQueued body → (j.timeout v).resolve client = none) ∧
      (IsQueued body → (j.timeout v).resolve client = client) := by
  rw [queued]
  unfold timeout
  split
  next asks => simp [asks, CallTimeout.resolve]
  next waits => simp only [waits, CallTimeout.resolve]; simp

/-- Without a deadline runs exactly the call whose body, if it has one, does not ask for the job to be
queued; any other has the deadline of its client. Nothing else in the options has a part in this, and
no deadline has one in what is sent. -/
theorem deadline_agrees_with_body (j : Job) (c : Client) (around : Surroundings) (s : Session)
    (arguments : Arguments) (v : j.endpoint.sends.Val) (reaction : Reaction) :
    let exchange := j.endpoint.exchange c around s arguments v reaction
    Endpoint.find? j.name = some j.endpoint ∧
    ∃ call body limit, j.endpoint.call arguments v = .ok call ∧ j.body v = .ok body ∧
      call.content = .ofObject body ∧ call.timeout.resolve c.timeout = limit ∧
      (call.timeout = .disabled ↔ ¬ IsQueued body) ∧ (call.timeout = .standard ↔ IsQueued body) ∧
      (¬ IsQueued body → limit = none) ∧ (IsQueued body → limit = c.timeout) ∧
      (∀ r, exchange.request = some r → r.Carries body ∧ .dispatching limit ∈ exchange.events ∧
        (reaction.Withholds call.responseKind → exchange.result = deadline limit .never)) ∧
      (∀ w arguments' call', (j.given w).map j.background = (j.given v).map j.background →
        j.endpoint.call arguments' w = .ok call' → call'.timeout = call.timeout) ∧
      ∀ other, (j.endpoint.exchange { c with timeout := other } around s arguments v
        reaction).request = exchange.request := by
  intro exchange
  obtain ⟨body, written, queued⟩ := j.exists_body v
  obtain ⟨call, made, content, timeout⟩ := j.call_of_body arguments written
  obtain ⟨disabled, standard, endless, limited⟩ := j.timeout_agrees queued c.timeout
  rw [← timeout] at disabled standard endless limited
  refine ⟨j.find?_name, call, body, _, made, written, content, rfl, disabled, standard, endless,
    limited, ?_, ?_, ?_⟩
  · intro r came
    have sent : (c.call around s call reaction).request = some r :=
      (Endpoint.request_of_exchange made ..).symm.trans came
    exact ⟨Client.carries_of_request content sent, Endpoint.dispatching_of_exchange made sent,
      Endpoint.result_of_withheld made sent⟩
  · intro w arguments' call' same made'
    obtain ⟨body', written', -⟩ := j.exists_body w
    obtain ⟨call'', made'', -, timeout'⟩ := j.call_of_body arguments' written'
    cases made'.symm.trans made''
    simp only [timeout', timeout, Job.timeout, same]
  · intro other
    have before : exchange.request = (c.call around s call reaction).request :=
      Endpoint.request_of_exchange made ..
    rw [before, Endpoint.request_of_exchange made, Client.request_of_timeout]

def backupOfAll (background : Field Bool) : Backups.partialBackup.Val :=
  Backups.ofSelection ⟨⟨some .all, none, none⟩, rfl⟩
    ((.value "nightly", .unset, .unset, .null, .unset, background, .unset, ()), ())

theorem deadline_agrees_with_body_of_partial :
    let exchange (background : Field Bool) := partialBackup.endpoint.exchange
      (.adopting "http://supervisor/api" "token") .open (.adopted .standard) .blank
      (backupOfAll background) .silent
    partialBackup.body (backupOfAll (.value true)) = .ok (some [("addons", .str "all"),
      ("background", .bool true), ("location", .null), ("name", .str "nightly")]) ∧
    (exchange (.value true)).result = .now (.error (.timeout "no response within 10s")) ∧
    (exchange .null).result = .never := by
  intro exchange
  have sent (background : Field Bool) (few : background ∈ [.value true, .null]) :
      (exchange background).request.isSome = true := by
    revert background
    decide +kernel
  have written (background : Field Bool) := deadline_agrees_with_body partialBackup
    (.adopting "http://supervisor/api" "token") .open (.adopted .standard) .blank
    (backupOfAll background) .silent
  refine ⟨rfl, ?_, ?_⟩
  · obtain ⟨r, came⟩ := Option.isSome_iff_exists.mp (sent (.value true) (by simp))
    obtain ⟨-, call, body, limit, -, text, -, -, -, -, -, limited, runs, -⟩ := written (.value true)
    cases text
    have named : "no response within 10s" =
        "no response within " ++ (Duration.ofSeconds 10).text := by decide +kernel
    rw [(runs r came).2.2 trivial, limited rfl, named]
    rfl
  · obtain ⟨r, came⟩ := Option.isSome_iff_exists.mp (sent .null (by simp))
    obtain ⟨-, call, body, limit, -, text, -, -, -, -, endless, -, runs, -⟩ := written .null
    cases text
    rw [(runs r came).2.2 trivial, endless nofun]
    rfl

end Job

end SupervisorApi
