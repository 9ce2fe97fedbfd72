import SupervisorApi.Proofs.Error.Mapping

set_option autoImplicit false

namespace SupervisorApi

namespace ErrorKind

variable {status : Nat} {key opening : String} {k k' : ErrorKind}

/-- The kind that a key stands for, if the keys of the family are those with this opening. -/
inductive StandsFor (opening : String) (status : Nat) (key : String) : ErrorKind → Prop where
  | own {k : ErrorKind} (known : k.errorKey = some key) : StandsFor opening status key k
  | family (unknown : ∀ k : ErrorKind, k.errorKey ≠ some key)
      (begins : opening.toList <+: key.toList) : StandsFor opening status key .addonNotSupported
  | status (unknown : ∀ k : ErrorKind, k.errorKey ≠ some key)
      (apart : ¬ opening.toList <+: key.toList) : StandsFor opening status key (.ofStatus status)

theorem mem_registered_of_errorKey (own : k.errorKey = some key) : k ∈ registered := by
  cases k with
  | addonNotSupportedArchitecture | addonNotSupportedMachineType | addonNotSupportedVersion => decide
  | _ => cases own

theorem eq_of_errorKey (own : k.errorKey = some key) (other : k'.errorKey = some key) : k = k' := by
  have apart : ∀ k ∈ registered, ∀ k' ∈ registered, k.errorKey = k'.errorKey → k = k' := by decide
  exact apart k (mem_registered_of_errorKey own) k' (mem_registered_of_errorKey other)
    (own.trans other.symm)

theorem StandsFor.unique (one : StandsFor opening status key k)
    (other : StandsFor opening status key k') : k = k' := by
  cases one with
  | own known =>
    cases other with
    | own known' => exact eq_of_errorKey known known'
    | family unknown | status unknown => exact absurd known (unknown k)
  | family unknown begins =>
    cases other with
    | own known => exact absurd known (unknown k')
    | family => rfl
    | status _ apart => exact absurd begins apart
  | status unknown apart =>
    cases other with
    | own known => exact absurd known (unknown k')
    | family _ begins => exact absurd begins apart
    | status => rfl

theorem standsFor_ofErrorKey (status : Nat) (key : String) :
    StandsFor familyKey status key ((ofErrorKey key).getD (.ofStatus status)) := by
  unfold ofErrorKey
  split
  next k found => exact .own (by simpa using List.find?_some found)
  next missing =>
    have unknown (k : ErrorKind) : k.errorKey ≠ some key := by
      intro own
      have absent := List.find?_eq_none.mp missing k (mem_registered_of_errorKey own)
      exact absent (decide_eq_true own)
    split
    next begins => exact .family unknown (List.isPrefixOf_iff_prefix.mp begins)
    next apart => exact .status unknown fun begins => apart (List.isPrefixOf_iff_prefix.mpr begins)

theorem ofStatus_ne_addonNotSupported (status : Nat) : ofStatus status ≠ .addonNotSupported := by
  unfold ofStatus
  repeat' split
  all_goals decide

theorem underscore_begins (own : k.errorKey = some key) :
    (familyKey ++ "_").toList <+: key.toList := by
  have known := mem_registered_of_errorKey own
  simp only [registered, List.mem_cons, List.not_mem_nil, or_false] at known
  rcases known with rfl | rfl | rfl <;> cases own <;> decide

theorem familyKey_begins_of_underscore (begins : (familyKey ++ "_").toList <+: key.toList) :
    familyKey.toList <+: key.toList := by
  rw [String.toList_append] at begins
  exact (List.prefix_append _ _).trans begins

theorem StandsFor.underscore_iff (stands : StandsFor familyKey status key k) :
    StandsFor (familyKey ++ "_") status key k ↔
      (familyKey.toList <+: key.toList → (familyKey ++ "_").toList <+: key.toList) := by
  cases stands with
  | own known => exact ⟨fun _ _ => underscore_begins known, fun _ => .own known⟩
  | family unknown begins =>
    constructor
    · intro documented _
      generalize same : ErrorKind.addonNotSupported = kind at documented
      cases documented with
      | own known => exact absurd known (unknown _)
      | family _ longer => exact longer
      | status => exact absurd same.symm (ofStatus_ne_addonNotSupported status)
    · intro longer
      exact .family unknown (longer begins)
  | status unknown apart =>
    constructor
    · intro _ begins
      exact absurd begins apart
    · intro _
      exact .status unknown fun longer => apart (familyKey_begins_of_underscore longer)

end ErrorKind

namespace Envelope

open ErrorKind (StandsFor)

/-- The kind of an error with a key is the one whose own key it is; else the family's, if the key
begins with the name of the family; else that of the status. If an underscore had to stand behind the
name, that would be another kind exactly for the keys that have the name without one. -/
theorem kind_of_key {e : Envelope} {key : String} (status : Nat) (keyed : e.errorKey = some key) :
    (∀ k, StandsFor "addon_not_supported" status key k ↔ (e.failure status).kind = k) ∧
    (StandsFor "addon_not_supported_" status key (e.failure status).kind ↔
      ("addon_not_supported".toList <+: key.toList →
        "addon_not_supported_".toList <+: key.toList)) := by
  have stands : StandsFor ErrorKind.familyKey status key (e.failure status).kind := by
    rw [failure_kind, classify_of_key keyed]
    exact ErrorKind.standsFor_ofErrorKey status key
  refine ⟨fun k => ⟨stands.unique, ?_⟩, stands.underscore_iff⟩
  rintro rfl
  exact stands

theorem kind_of_key_of_kernel :
    let e : Envelope :=
      { Envelope.error "nope" with errorKey := some "addon_not_supported_kernel_error" }
    e.errorKey = some "addon_not_supported_kernel_error" ∧
      (e.failure 404).kind = .addonNotSupported ∧
      StandsFor "addon_not_supported_" 404 "addon_not_supported_kernel_error"
        (e.failure 404).kind := by
  intro e
  have keyed : e.errorKey = some "addon_not_supported_kernel_error" := rfl
  have family : StandsFor "addon_not_supported" 404 "addon_not_supported_kernel_error"
      .addonNotSupported := by
    refine .family ?_ (by decide)
    intro k
    cases k <;> decide
  have settled := kind_of_key 404 keyed
  exact ⟨keyed, (settled.1 _).mp family, settled.2.mpr fun _ => by decide⟩

theorem kind_of_bare_key :
    let e : Envelope := { Envelope.error "nope" with errorKey := some "addon_not_supported" }
    (e.failure 404).kind = .addonNotSupported ∧
      StandsFor "addon_not_supported_" 404 "addon_not_supported" .notFound ∧
      ¬ StandsFor "addon_not_supported_" 404 "addon_not_supported" (e.failure 404).kind := by
  intro e
  have documented : StandsFor "addon_not_supported_" 404 "addon_not_supported" .notFound := by
    refine .status ?_ (by decide)
    intro k
    cases k <;> decide
  have given : (e.failure 404).kind = .addonNotSupported := by decide
  refine ⟨given, documented, fun stands => ?_⟩
  rw [given] at stands
  cases documented.unique stands

end Envelope

end SupervisorApi
