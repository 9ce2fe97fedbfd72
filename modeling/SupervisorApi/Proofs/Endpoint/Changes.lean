import SupervisorApi.Proofs.Body.Frames
import SupervisorApi.Proofs.Client.Deadline
import SupervisorApi.Proofs.Endpoint.Payload
import SupervisorApi.Proofs.Json.Members
import SupervisorApi.Proofs.Model.Requests

set_option autoImplicit false

namespace SupervisorApi

def Presence.isSet {α : Type} (p : Presence) : p.Val α → Bool :=
  match p with
  | .required | .optional => fun _ => true
  | .omitted => Option.isSome
  | .field => fun a => !a.isUnset

theorem Presence.fst_write {α : Type} (p : Presence) (name : String) (encode : α → Json)
    (a : p.Val α) :
    (p.write name encode a).map Prod.fst = if p.isSet a then [name] else [] := by
  cases p with
  | required => rfl
  | optional | omitted | field => cases a <;> rfl

namespace Slots

def areFields : Slots → Bool
  | .nil => true
  | .cons _ p _ rest => p = .field && rest.areFields

def setNames : (own : Slots) → own.Val → List String
  | .nil, _ => []
  | .cons n p _ rest, (a, b) => (if p.isSet a then [n] else []) ++ rest.setNames b

theorem fst_encode : (own : Slots) → (a : own.Val) → (own.encode a).map Prod.fst = own.setNames a
  | .nil, _ => rfl
  | .cons n p s rest, (a, b) => by
    rw [encode, List.map_append, p.fst_write, rest.fst_encode b, setNames]

end Slots

namespace Client

variable {c : Client} {around : Surroundings} {s : Session} {call : Call} {reaction : Reaction}

theorem body_of_json {j : Json} {r : Request} (content : call.content = .json j)
    (sent : (c.call around s call reaction).request = some r) : r.body = j.bytes := by
  obtain ⟨taken, o, reached⟩ := sent_of_request sent
  obtain ⟨uri, -, rfl⟩ := of_prepare reached.prepared
  obtain ⟨-, -, -, -, -, body⟩ := Outgoing.of_arrive reached.arrived
  simp only [content] at body
  have whole : (RequestBody.ofBytes j.bytes).bytes? = .ok j.bytes := by
    rw [RequestBody.bytes?, RequestBody.frames_eq]
    exact congrArg Except.ok (List.append_nil _)
  exact Except.ok.inj (body.symm.trans whole)

end Client

structure OptionsCall where
  name : String
  endpoint : Endpoint
  settings : Slots
  given : settings.Val → endpoint.sends.Val
  isChecked : Bool
  known : (name, endpoint) ∈ Endpoint.catalog
  bare : endpoint.holds = .nothing
  applied : ∀ arguments c a, endpoint.sends.apply arguments c (given a) =
    ((if isChecked then Sends.changed else Sends.members) (.record settings .nil) (a, ())).map
      (Sends.withObject c)

namespace OptionsCall

open Endpoint (catalog systemTable machineTable storageTable addonTable)

def settingsOf : Shape → Slots
  | .record own _ => own
  | _ => .nil

def all : List OptionsCall :=
  [⟨"homeassistant.options", Endpoint.setCoreOptions, settingsOf Core.options,
      fun a => (a, ()), true, by simp [catalog, systemTable], rfl, fun _ _ _ => rfl⟩,
    ⟨"homeassistant.update", Endpoint.updateCore, settingsOf Core.updateOptions,
      fun a => some (a, ()), true, by simp [catalog, systemTable], rfl, fun _ _ _ => rfl⟩,
    ⟨"homeassistant.restart", Endpoint.restartCore, settingsOf Core.restartOptions,
      fun a => some (a, ()), true, by simp [catalog, systemTable], rfl, fun _ _ _ => rfl⟩,
    ⟨"homeassistant.rebuild", Endpoint.rebuildCore, settingsOf Core.rebuildOptions,
      fun a => some (a, ()), true, by simp [catalog, systemTable], rfl, fun _ _ _ => rfl⟩,
    ⟨"supervisor.options", Endpoint.setSupervisorOptions, settingsOf System.supervisorOptions,
      fun a => (a, ()), true, by simp [catalog, systemTable], rfl, fun _ _ _ => rfl⟩,
    ⟨"resolution.check_options", Endpoint.setCheckOptions, settingsOf Resolution.checkOptions,
      fun a => (a, ()), true, by simp [catalog, systemTable], rfl, fun _ _ _ => rfl⟩,
    ⟨"os.green_options", Endpoint.setGreenOptions, settingsOf OperatingSystem.greenOptions,
      fun a => (a, ()), true, by simp [catalog, machineTable], rfl, fun _ _ _ => rfl⟩,
    ⟨"os.yellow_options", Endpoint.setYellowOptions, settingsOf OperatingSystem.yellowOptions,
      fun a => (a, ()), true, by simp [catalog, machineTable], rfl, fun _ _ _ => rfl⟩,
    ⟨"network.update_interface", Endpoint.updateInterface, settingsOf Network.interfaceConfig,
      fun a => (a, ()), true, by simp [catalog, machineTable], rfl, fun _ _ _ => rfl⟩,
    ⟨"network.save_vlan", Endpoint.saveVlan, settingsOf Network.vlanConfig,
      fun a => some (a, ()), true, by simp [catalog, machineTable], rfl, fun _ _ _ => rfl⟩,
    ⟨"addons.addon_options", Endpoint.setAddonOptions, settingsOf Addons.options,
      fun a => (a, ()), false, by simp [catalog, addonTable], rfl, fun _ _ _ => rfl⟩,
    ⟨"addons.addon_security", Endpoint.setAddonSecurity, settingsOf Addons.securityOptions,
      fun a => (a, ()), false, by simp [catalog, addonTable], rfl, fun _ _ _ => rfl⟩]

structure IsSound (o : OptionsCall) : Prop where
  fields : o.settings.areFields = true
  sound : (Shape.record o.settings .nil).isSound = true
  exact : ∀ s ∈ (Shape.record o.settings .nil).leaves, s.isExact = true

theorem isSound_of_mem : ∀ o ∈ all, o.IsSound := by
  have checked : ∀ o ∈ all, o.settings.areFields = true ∧
      (Shape.record o.settings .nil).isSound = true ∧
        ∀ s ∈ (Shape.record o.settings .nil).leaves, s.isExact = true := by
    decide +kernel
  intro o member
  obtain ⟨fields, sound, exact⟩ := checked o member
  exact ⟨fields, sound, exact⟩

theorem isChecked_iff : ∀ o ∈ all,
    (o.isChecked = true ↔ o.name ∉ ["addons.addon_options", "addons.addon_security"]) := by
  decide +kernel

structure Holds (own : Slots) (a : own.Val) (ms : Members) : Prop where
  keys : ∀ key, key ∈ ms.map Prod.fst ↔ key ∈ own.setNames a
  values : own.Shows a (Members.look ms)

variable {o : OptionsCall} {arguments : Arguments} {a : o.settings.Val}

theorem exists_members (sound : o.IsSound) (a : o.settings.Val) :
    ∃ ms, Sends.members (.record o.settings .nil) (a, ()) = .ok ms ∧ Holds o.settings a ms ∧
      (ms = [] ↔ o.settings.setNames a = []) := by
  have apart : o.settings.names.Nodup := by
    have checked := sound.sound
    simp only [Shape.isSound, Bool.and_eq_true, decide_eq_true_eq] at checked
    exact checked.2.of_append_left
  have encoded := o.settings.fst_encode a
  have unique : ((o.settings.encode a).map Prod.fst).Nodup :=
    apart.sublist (o.settings.keys_sublist a)
  have finite := (Shape.record o.settings .nil).finite_of_isExact sound.exact (a, ())
  obtain ⟨ms, sent, ⟨_, ⟨⟩, shown, -, -⟩, -⟩ :=
    Shape.toWire_shows sound.sound rfl finite
  have written : ms = Members.ofList (o.settings.encode a) := by
    have whole : (Shape.record o.settings .nil).toWire (a, ()) =
        .ok (Members.ofList (o.settings.encode a ++ [])) := rfl
    rw [List.append_nil] at whole
    exact Except.ok.inj (sent.symm.trans whole)
  refine ⟨ms, by simp only [Sends.members, sent]; rfl, ⟨fun key => ?_, shown⟩, ?_⟩
  · rw [← Members.isSome_get?_iff, written, Members.get?_ofList unique, Members.isSome_get?_iff,
      encoded]
  · rw [written, Members.ofList_eq_nil_iff unique, ← encoded, List.map_eq_nil_iff]

theorem call_eq (o : OptionsCall) (arguments : Arguments) (a : o.settings.Val) :
    ∃ c, o.endpoint.call arguments (o.given a) =
      ((if o.isChecked then Sends.changed else Sends.members) (.record o.settings .nil)
        (a, ())).map (Sends.withObject c) :=
  ⟨_, o.applied arguments _ a⟩

theorem call_of_blank (sound : o.IsSound) (checked : o.isChecked = true)
    (blank : o.settings.setNames a = []) (arguments : Arguments) :
    o.endpoint.call arguments (o.given a) =
      .error (.encode "At least one field must have a value") := by
  obtain ⟨c, made⟩ := o.call_eq arguments a
  obtain ⟨ms, written, -, empty⟩ := exists_members sound a
  simp only [made, if_pos checked, Sends.changed, written, empty.mpr blank]
  rfl

theorem call_of_set (sound : o.IsSound)
    (set : ¬ (o.isChecked = true ∧ o.settings.setNames a = [])) (arguments : Arguments) :
    ∃ call ms, o.endpoint.call arguments (o.given a) = .ok call ∧
      call.content = .json (.obj ms) ∧ Holds o.settings a ms := by
  obtain ⟨c, made⟩ := o.call_eq arguments a
  obtain ⟨ms, written, holds, empty⟩ := exists_members sound a
  refine ⟨Sends.withObject c ms, ms, ?_, rfl, holds⟩
  rw [made]
  split
  next checked =>
    have some : ms.isEmpty = false := by
      rw [List.isEmpty_eq_false_iff, ne_eq, empty]
      exact fun blank => set ⟨checked, blank⟩
    simp only [Sends.changed, written, bind, Except.bind, some, Bool.false_eq_true, if_false]
    rfl
  next =>
    rw [written]
    rfl

variable {c : Client} {around : Surroundings} {s : Session} {reaction : Reaction}

theorem take_of_bare {e : Endpoint} (bare : e.holds = .nothing) (r : Response) (err : ApiError) :
    e.holds.take r ≠ .error err := by
  cases e
  cases bare
  exact nofun

theorem call_ne_encode (c : Client) (around : Surroundings) (s : Session) (call : Call)
    (reaction : Reaction) (message : String) :
    (c.call around s call reaction).result ≠ .now (.error (.encode message)) := by
  intro result
  cases sent : (c.call around s call reaction).request with
  | none =>
    obtain ⟨e, failed, unsent⟩ := Client.call_unsent sent
    rw [failed] at result
    cases result
    cases unsent
  | some r =>
    rw [Client.result_of_request sent] at result
    cases outcome : reaction.outcome call.responseKind with
    | never =>
      rw [outcome] at result
      cases limit : call.timeout.resolve c.timeout <;> simp [deadline, limit] at result
    | now x =>
      rw [outcome] at result
      cases result
      cases Reaction.isRemote_of_outcome outcome with
      | status sort => cases sort

/-- Settings of which none is set are refused before anything is sent, but by the two calls that
change an add-on. Whatever else is given is sent: the body holds the members that are set, and the
call does not fail for what it was given. -/
theorem blank_settings_refused (o : OptionsCall) (listed : o ∈ all) (c : Client)
    (around : Surroundings) (s : Session) (arguments : Arguments) (a : o.settings.Val)
    (reaction : Reaction) :
    let exempt := o.name ∈ ["addons.addon_options", "addons.addon_security"]
    let exchange := o.endpoint.exchange c around s arguments (o.given a) reaction
    o.settings.areFields = true ∧
    (¬ exempt → o.settings.setNames a = [] →
      exchange = .refuse s (.encode "At least one field must have a value")) ∧
    (exempt ∨ o.settings.setNames a ≠ [] →
      ∃ call ms, o.endpoint.call arguments (o.given a) = .ok call ∧
        call.content = .json (.obj ms) ∧ Holds o.settings a ms ∧
        (∀ r, exchange.request = some r → r.body = (Json.obj ms).bytes) ∧
        ∀ message, exchange.result ≠ .now (.error (.encode message))) := by
  intro exempt exchange
  have sound := isSound_of_mem o listed
  have checked := isChecked_iff o listed
  refine ⟨sound.fields, ?_, ?_⟩
  · intro strict blank
    simp only [exchange, Endpoint.exchange, call_of_blank sound (checked.mpr strict) blank]
  · intro sent
    have set : ¬ (o.isChecked = true ∧ o.settings.setNames a = []) := by
      rintro ⟨strict, blank⟩
      rcases sent with loose | some
      · exact checked.mp strict loose
      · exact some blank
    obtain ⟨call, ms, made, content, holds⟩ := call_of_set sound set arguments
    refine ⟨call, ms, made, content, holds, ?_, ?_⟩
    · intro r came
      rw [Endpoint.request_of_exchange made] at came
      exact Client.body_of_json content came
    · intro message failed
      rcases Endpoint.result_of_exchange failed with
        ⟨_, refused, -⟩ | ⟨_, again, ⟨err, failed, same⟩ | ⟨r, -, taken⟩⟩
      · rw [made] at refused
        cases refused
      · cases same
        exact call_ne_encode _ _ _ _ _ _ failed
      · exact take_of_bare o.bare r _ taken.symm

theorem blank_settings_refused_of_interface :
    ∃ o ∈ all, ∃ blank nested : o.settings.Val, o.settings.setNames blank = [] ∧
      o.settings.setNames nested = ["ipv4"] ∧
      (∀ s, o.endpoint.exchange (.adopting "http://supervisor/api" "token") .open s .blank
        (o.given blank) .silent = .refuse s (.encode "At least one field must have a value")) ∧
      ∃ call ms, o.endpoint.call .blank (o.given nested) = .ok call ∧
        call.content = .json (.obj ms) ∧ ∀ key, key ∈ ms.map Prod.fst ↔ key = "ipv4" := by
  let o : OptionsCall := all[8]
  have listed : o ∈ all := List.getElem_mem _
  let blank : o.settings.Val := (.unset, .unset, .unset, .unset, ())
  let nested : o.settings.Val :=
    (.value ((.unset, .unset, .unset, .unset, ()), ()), .unset, .unset, .unset, ())
  have names : o.settings.setNames nested = ["ipv4"] := rfl
  have refused (s : Session) := (blank_settings_refused o listed
    (.adopting "http://supervisor/api" "token") .open s .blank blank .silent).2.1 (by decide) rfl
  obtain ⟨call, ms, made, content, holds, -⟩ := (blank_settings_refused o listed
    (.adopting "http://supervisor/api" "token") .open .closed .blank nested .silent).2.2
      (.inr (by rw [names]; decide))
  refine ⟨o, listed, blank, nested, rfl, names, refused, call, ms, made, content, fun key => ?_⟩
  rw [holds.keys, names, List.mem_singleton]

theorem blank_settings_sent :
    ∃ o ∈ all, o.name = "addons.addon_options" ∧
      ∃ blank : o.settings.Val, o.settings.setNames blank = [] ∧
        ∃ arguments : Arguments, arguments .addon = "core_ssh" ∧
          (o.endpoint.exchange (.adopting "http://supervisor/api" "token") .open
            (.adopted .standard) arguments (o.given blank) .silent).request.map Request.body =
              some (Utf8.encode "\x7b\x7d") := by
  let o : OptionsCall := all[10]
  let blank : o.settings.Val :=
    (.unset, .unset, .unset, .unset, .unset, .unset, .unset, .unset, ())
  let arguments : Arguments := fun
    | .addon => "core_ssh"
    | p => Arguments.blank p
  refine ⟨o, List.getElem_mem _, rfl, blank, rfl, arguments, rfl, ?_⟩
  decide +kernel

end OptionsCall

end SupervisorApi
