import SupervisorApi.Endpoint.Storage
import SupervisorApi.Proofs.Model.RoundTrip

set_option autoImplicit false

namespace SupervisorApi

def Shape.isExact : Shape → Bool
  | .real | .timestamp => false
  | _ => true

theorem Edit.keeps_of_isExact {leaves : List Shape} (exact : ∀ s ∈ leaves, s.isExact = true) :
    Edit.Keeps (fun _ => Shape.cutStamp) leaves := by
  intro s leaf place v
  have exact := exact s leaf
  cases s with
  | timestamp => cases exact
  | _ => rfl

mutual
theorem Tree.all_of {α : Type} {P : α → Prop} (each : ∀ a, P a) : (t : Tree α) → t.All P
  | .node a ts => ⟨each a, allBelow_of each ts⟩

theorem Tree.allBelow_of {α : Type} {P : α → Prop} (each : ∀ a, P a) : (ts : List (Tree α)) →
    AllBelow P ts
  | [] => trivial
  | t :: ts => ⟨all_of each t, allBelow_of each ts⟩
end

mutual

theorem Shape.finite_of_isExact (s : Shape) (exact : ∀ t ∈ s.leaves, t.isExact = true)
    (v : s.Val) : s.Finite v := by
  cases s with
  | real => cases exact _ List.mem_cons_self
  | nullable s =>
    cases v with
    | none => trivial
    | some a => exact s.finite_of_isExact exact a
  | list s => exact List.forall_iff_forall_mem.mpr fun a _ => s.finite_of_isExact exact a
  | dict s => exact fun e _ => s.finite_of_isExact exact e.2
  | record own parts =>
    obtain ⟨a, b⟩ := v
    rw [Shape.leaves, List.forall_mem_append] at exact
    exact ⟨own.finite_of_isExact exact.1 a, parts.finite_of_isExact exact.2 b⟩
  | tagged tag alternatives => exact alternatives.finite_of_isExact exact v
  | tree own children => exact Tree.all_of (own.finite_of_isExact exact) v
  | _ => trivial

theorem Slots.finite_of_isExact (own : Slots) (exact : ∀ t ∈ own.leaves, t.isExact = true)
    (a : own.Val) : own.Finite a := by
  cases own with
  | nil => trivial
  | cons n p s rest =>
    obtain ⟨a, b⟩ := a
    rw [Slots.leaves, List.forall_mem_append] at exact
    exact ⟨fun w _ => s.finite_of_isExact exact.1 w, rest.finite_of_isExact exact.2 b⟩

theorem Parts.finite_of_isExact (parts : Parts) (exact : ∀ t ∈ parts.leaves, t.isExact = true)
    (b : parts.Val) : parts.Finite b := by
  cases parts with
  | nil => trivial
  | record own parts rest =>
    obtain ⟨⟨a, b⟩, c⟩ := b
    rw [Parts.leaves, List.forall_mem_append, List.forall_mem_append] at exact
    exact ⟨own.finite_of_isExact exact.1.1 a, parts.finite_of_isExact exact.1.2 b,
      rest.finite_of_isExact exact.2 c⟩
  | selection rest => exact rest.finite_of_isExact exact b.2

theorem Alternatives.finite_of_isExact (alternatives : Alternatives)
    (exact : ∀ t ∈ alternatives.leaves, t.isExact = true) (v : alternatives.Val) :
    alternatives.Finite v := by
  cases alternatives with
  | nil => exact v.elim
  | cons n own parts rest =>
    rw [Alternatives.leaves, List.forall_mem_append, List.forall_mem_append] at exact
    cases v with
    | inl v =>
      obtain ⟨a, b⟩ := v
      exact ⟨own.finite_of_isExact exact.1.1 a, parts.finite_of_isExact exact.1.2 b⟩
    | inr v => exact rest.finite_of_isExact exact.2 v

end

def Alternatives.memberNames : Alternatives → List String
  | .nil => []
  | .cons _ own parts rest => own.names ++ parts.names ++ rest.memberNames

section Others

variable {look look' : String → Option Json}

theorem Slots.decode_congr (own : Slots) (buffered : Bool)
    (same : ∀ n ∈ own.names, look' n = look n) :
    own.decode buffered look' = own.decode buffered look := by
  cases own with
  | nil => rfl
  | cons n p s rest =>
    exact congrArg₂ Reading.both (congrArg _ (same n List.mem_cons_self))
      (rest.decode_congr buffered fun m later => same m (List.mem_cons_of_mem _ later))

theorem Parts.decode_congr (parts : Parts) (same : ∀ n ∈ parts.names, look' n = look n) :
    parts.decode look' = parts.decode look := by
  cases parts with
  | nil => rfl
  | record own parts rest =>
    rw [Parts.names, List.forall_mem_append, List.forall_mem_append] at same
    rw [Parts.decode, Parts.decode, own.decode_congr parts.isNil same.1.1,
      parts.decode_congr same.1.2, rest.decode_congr same.2]
  | selection rest =>
    rw [Parts.names, List.forall_mem_append] at same
    rw [Parts.decode, Parts.decode, Selection.decode_congr true same.1, rest.decode_congr same.2]

theorem Alternatives.decode_congr (alternatives : Alternatives) (names : List String) (name : String)
    (same : ∀ n ∈ alternatives.memberNames, look' n = look n) :
    alternatives.decode names name look' = alternatives.decode names name look := by
  cases alternatives with
  | nil => rfl
  | cons n own parts rest =>
    rw [Alternatives.memberNames, List.forall_mem_append, List.forall_mem_append] at same
    rw [Alternatives.decode_cons, Alternatives.decode_cons, own.decode_congr true same.1.1,
      parts.decode_congr same.1.2, rest.decode_congr names name same.2]

end Others

section Beside

variable {tag key : String} {alternatives : Alternatives}

-- No member of an alternative has another name than those of the alternatives and the tag.
theorem Alternatives.look_of_shows (alternatives : Alternatives) {look : String → Option Json}
    (untagged : key ≠ tag) (unnamed : key ∉ alternatives.memberNames) (v : alternatives.Val)
    (shown : alternatives.Shows tag v look) : look key = none := by
  cases alternatives with
  | nil => exact v.elim
  | cons n own parts rest =>
    rw [memberNames, List.mem_append, not_or] at unnamed
    cases v with
    | inl v => exact shown.2.2.2 key (by simpa [untagged] using unnamed.1)
    | inr v => exact rest.look_of_shows untagged unnamed.2 v shown

theorem Shape.decode_put {ms : Members} {x : Json} {v : alternatives.Val} (buffered : Bool)
    (untagged : key ≠ tag) (unnamed : key ∉ alternatives.memberNames)
    (read : (tagged tag alternatives).decode buffered (.obj ms) = .ok v) :
    (tagged tag alternatives).decode buffered (.obj (Members.put key x ms)) = .ok v := by
  obtain ⟨_, n, ⟨⟩, found, inner⟩ := decode_tagged_iff.mp read
  have same (m : String) (other : m ≠ key) :
      Members.look (Members.put key x ms) m = Members.look ms m := by
    simp [Members.look, other.symm]
  refine decode_tagged_iff.mpr ⟨_, n, rfl, (same tag untagged.symm).trans found, ?_⟩
  rw [alternatives.decode_congr _ n fun m named => same m fun equal => unnamed (equal ▸ named)]
  exact inner

end Beside

namespace Catalog

def requests : List String :=
  ["AddonsOptions", "AddonsSecurityOptions", "AddonsUninstall", "BackupsOptions", "FreezeOptions",
    "FullBackupOptions", "PartialBackupOptions", "FullRestoreOptions", "PartialRestoreOptions",
    "RemoveBackupOptions", "DiscoveryConfig", "HomeAssistantStopOptions", "HomeAssistantOptions",
    "HomeAssistantUpdateOptions", "HomeAssistantRestartOptions", "HomeAssistantRebuildOptions",
    "ShutdownOptions", "RebootOptions", "HostOptions", "JobsOptions", "MountRequest",
    "MountsOptions", "IPv4Config", "IPv6Config", "WifiConfig", "NetworkInterfaceConfig",
    "VlanConfig", "OSUpdate", "MigrateDataOptions", "SetBootSlotOptions", "GreenOptions",
    "YellowOptions", "CheckOptions", "StoreAddonInstall", "StoreAddonUpdate",
    "StoreAddRepository", "SupervisorUpdateOptions", "SupervisorOptions"]

theorem requests_isExact : ∀ name ∈ requests,
    (model? name).any fun s => s.leaves.all Shape.isExact := by
  decide +kernel

theorem fromWire_of_request {name : String} {s : Shape} (request : name ∈ requests)
    (model : model? name = some s) (m : s.Val) :
    ∃ o, s.toWire m = .ok o ∧ s.Shows m (.obj o) ∧ s.fromWire (.obj o) = .ok m := by
  have exact := requests_isExact name request
  rw [model, Option.any_some, List.all_eq_true] at exact
  obtain ⟨o, sent, shown, back⟩ := Shape.toWire_shows (isSound_of_model? model)
    (isObject_of_model? model) (s.finite_of_isExact exact m)
  have whole : s.cut m = m := s.amend_eq_self (Edit.keeps_of_isExact exact) [] m
  exact ⟨o, sent, shown, whole ▸ back⟩

/-- The body of a request is an object with the members of its model, each as its state has it, and
it is read back as the same model. A new mount is sent with its name beside the members of its
configuration, none of which has that name. -/
theorem requests_fromWire_toWire :
    (∀ name ∈ requests, ∃ s, model? name = some s ∧ ∀ m : s.Val, ∃ o,
      s.toWire m = .ok o ∧ s.Shows m (.obj o) ∧ s.fromWire (.obj o) = .ok m) ∧
    ∀ (arguments : Arguments) (m : Mounts.request.Val), ∃ call o,
      Endpoint.createMount.call arguments m = .ok call ∧ Mounts.request.toWire m = .ok o ∧
      call.content = .json (.obj (Members.put "name" (.str (arguments .mount)) o)) ∧
      Members.get? "name" o = none ∧
      Mounts.request.fromWire (.obj (Members.put "name" (.str (arguments .mount)) o)) = .ok m := by
  constructor
  · intro name request
    obtain ⟨s, model, -⟩ := (Option.any_eq_true _ _).mp (requests_isExact name request)
    exact ⟨s, model, fromWire_of_request request model⟩
  · intro arguments m
    have model : model? "MountRequest" = some Mounts.request := rfl
    obtain ⟨o, sent, ⟨_, ⟨⟩, shown⟩, back⟩ := fromWire_of_request (by decide) model m
    have untagged : "name" ≠ "type" := by decide
    have unnamed : "name" ∉ Alternatives.memberNames
        (.cons "cifs" Mounts.cifsRequestFields Mounts.requestParts
          (.cons "nfs" Mounts.nfsRequestFields Mounts.requestParts .nil)) := by decide
    have members : Sends.members Mounts.request m = .ok o := by
      rw [Sends.members, sent]
      rfl
    have called : Endpoint.createMount.call arguments m =
        (Sends.members Mounts.request m).map fun o => Sends.withObject _
          (Members.put "name" (.str (arguments .mount)) o) := rfl
    rw [called, members]
    exact ⟨_, o, rfl, sent, rfl, Alternatives.look_of_shows _ untagged unnamed m shown,
      Shape.fromWire_eq_ok_iff.mpr
        (Shape.decode_put false untagged unnamed (Shape.fromWire_eq_ok_iff.mp back))⟩

def startsAtBoot : Core.options.Val :=
  ((.value true, .null, .unset, .unset, .unset, .unset, .unset, .unset, .unset, ()), ())

theorem requests_fromWire_toWire_of_boot :
    "HomeAssistantOptions" ∈ requests ∧ ∃ o, Core.options.toWire startsAtBoot = .ok o ∧
      Members.get? "boot" o = some (.bool true) ∧ Members.get? "image" o = some .null ∧
      Members.get? "port" o = none ∧ Core.options.fromWire (.obj o) = .ok startsAtBoot := by
  have request : "HomeAssistantOptions" ∈ requests := by decide
  obtain ⟨s, model, bodies⟩ := requests_fromWire_toWire.1 _ request
  obtain rfl : Core.options = s := Option.some.inj model
  obtain ⟨o, sent, ⟨_, ⟨⟩, ⟨boot, image, port, -⟩, -⟩, back⟩ := bodies startsAtBoot
  obtain ⟨_, boot, -, rfl⟩ := boot
  exact ⟨request, o, sent, boot, image, port, back⟩

end Catalog

end SupervisorApi
