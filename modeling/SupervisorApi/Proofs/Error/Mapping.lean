import SupervisorApi.Envelope.Failure
import SupervisorApi.Proofs.Error.Template

set_option autoImplicit false

namespace SupervisorApi

namespace ErrorKind

theorem isA_refl (k : ErrorKind) : k.isA k = true := by
  rw [isA]
  simp

theorem isA_of_parent {k p other : ErrorKind} (above : k.parent = some p)
    (family : p.isA other = true) : k.isA other = true := by
  rw [isA, Bool.or_eq_true]
  right
  split
  next q found =>
    rw [above] at found
    cases found
    exact family
  next none =>
    rw [above] at none
    cases none

theorem isA_of_registered {k : ErrorKind} (known : k ∈ registered) :
    k.isA .addonNotSupported = true ∧ k.isA .badRequest = true := by
  have above : k.parent = some .addonNotSupported := by
    revert k
    decide
  exact ⟨isA_of_parent above (isA_refl _), isA_of_parent above (isA_of_parent rfl (isA_refl _))⟩

theorem familyKey_begins {k : ErrorKind} {key : String} (known : k ∈ registered)
    (own : k.errorKey = some key) : familyKey.toList <+: key.toList := by
  simp only [registered, List.mem_cons, List.not_mem_nil, or_false] at known
  rcases known with rfl | rfl | rfl <;> cases own <;> decide

theorem isA_of_familyKey {key : String} (family : familyKey.toList <+: key.toList) :
    ∃ k, ofErrorKey key = some k ∧ k.isA .addonNotSupported = true := by
  unfold ofErrorKey
  split
  next k found => exact ⟨k, rfl, (isA_of_registered (List.mem_of_find?_eq_some found)).1⟩
  next =>
    rw [if_pos (List.isPrefixOf_iff_prefix.mpr family)]
    exact ⟨_, rfl, isA_refl _⟩

theorem ofErrorKey_of_other {key : String} (other : ¬ familyKey.toList <+: key.toList) :
    ofErrorKey key = none := by
  unfold ofErrorKey
  split
  next k found =>
    have own : k.errorKey = some key := by simpa using List.find?_some found
    exact absurd (familyKey_begins (List.mem_of_find?_eq_some found) own) other
  next => exact if_neg fun family => other (List.isPrefixOf_iff_prefix.mp family)

end ErrorKind

namespace Members

theorem get?_eq_none {object : Members} {key : String}
    (absent : ∀ member ∈ object, key ≠ member.1) : object.get? key = none := by
  induction object with
  | nil => rfl
  | cons member rest ih =>
    obtain ⟨k, v⟩ := member
    rw [get?, if_neg (Ne.symm (absent (k, v) List.mem_cons_self))]
    exact ih fun other present => absent other (List.mem_cons_of_mem _ present)

theorem get?_putAll {new : Members} (apart : new.Pairwise fun a b => a.1 ≠ b.1) (object : Members)
    (key : String) : (putAll new object).get? key = (new.get? key).or (object.get? key) := by
  unfold putAll
  induction new generalizing object with
  | nil => rfl
  | cons member rest ih =>
    obtain ⟨k, v⟩ := member
    obtain ⟨fresh, later⟩ := List.pairwise_cons.mp apart
    rw [List.foldl_cons, ih later, get?_put]
    by_cases same : k = key
    · subst same
      have absent : Members.get? k rest = none := get?_eq_none fresh
      simp [get?, absent]
    · simp [get?, same]

end Members

namespace Envelope

variable {status : Nat} {e : Envelope} {t : Template} {slug value : String}

structure Legacy (status : Nat) (e : Envelope) (t : Template) (slug value : String) : Prop where
  bad : status = 400
  keyless : e.errorKey = none
  known : t ∈ Template.all
  fits : t.Fits slug value
  message : e.message = some (t.fill slug value)

example :
    Legacy 400
      (.error "Add-on a not supported on this system, requires Home Assistant version 2 or greater")
      .version "a" "2" :=
  ⟨rfl, rfl, by simp [Template.all], ⟨by decide, by simp [isBlank], by decide,
    by simp [Template.version, ValueClass.admits, isBlank]⟩, by decide⟩

theorem ofStatus_eq_badRequest_iff : ErrorKind.ofStatus status = .badRequest ↔ status = 400 := by
  unfold ErrorKind.ofStatus
  split
  next same => simp [same]
  next other =>
    simp only [other, iff_false]
    repeat' split
    all_goals decide

theorem classify_of_legacy (legacy : Legacy status e t slug value) :
    e.classify status =
      (t.kind, some (Members.putAll (t.fields slug value) (e.extraFields.getD []))) := by
  have base := ofStatus_eq_badRequest_iff.mpr legacy.bad
  simp [classify, legacy.keyless, base, legacy.message, matchMessage_fill legacy.known legacy.fits]

theorem classify_of_key {key : String} (keyed : e.errorKey = some key) :
    e.classify status = ((ErrorKind.ofErrorKey key).getD (.ofStatus status), e.extraFields) := by
  simp [classify, keyed]

theorem classify_of_plain (keyless : e.errorKey = none)
    (plain : ∀ t slug value, ¬ Legacy status e t slug value) :
    e.classify status = (.ofStatus status, e.extraFields) := by
  unfold classify
  simp only [keyless]
  split
  next bad =>
    split
    next kind fields matched =>
      obtain ⟨message, present, read⟩ := Option.bind_eq_some_iff.mp matched
      obtain ⟨t, known, slug, value, fits, rfl, -⟩ := of_matchMessage read
      exact absurd ⟨ofStatus_eq_badRequest_iff.mp bad, keyless, known, fits, present⟩
        (plain t slug value)
    next => rfl
  next => rfl

/-- What is left of what the Supervisor said. -/
structure Kept (status : Nat) (e : Envelope) (err : ApiError) : Prop where
  code : err.status? = some status
  job : err.jobId = e.jobId
  said : ∀ message, e.message = some message → err.message = some message
  rendered : e.message = none → ∀ text, err.message = some text ↔
    ∃ extra, err.extraFields = some extra ∧ ∃ t ∈ Template.all, t.kind = err.kind ∧
      ∃ slug value, extra.get? ErrorKind.slugField = some slug ∧ extra.get? t.field = some value ∧
        text = t.fill slug.display value.display
  legacy : ∀ t slug value, Legacy status e t slug value → err.kind = t.kind ∧
    ∃ extra, err.extraFields = some extra ∧
      extra.get? ErrorKind.slugField = some (.str slug) ∧
      extra.get? t.field = some (.str value) ∧
      ∀ key, key ≠ ErrorKind.slugField → key ≠ t.field →
        extra.get? key = (e.extraFields.getD []).get? key
  untouched : (∀ t slug value, ¬ Legacy status e t slug value) → err.extraFields = e.extraFields
  absent : err.extraFields = none ↔
    e.extraFields = none ∧ ∀ t slug value, ¬ Legacy status e t slug value
  family : (∃ key, e.errorKey = some key ∧ ErrorKind.familyKey.toList <+: key.toList) →
    err.kind.isA .addonNotSupported = true
  general : (¬ ∃ key, e.errorKey = some key ∧ ErrorKind.familyKey.toList <+: key.toList) →
    err.kind.isA (.ofStatus status) = true

theorem failure_kind (status : Nat) (e : Envelope) :
    (e.failure status).kind = (e.classify status).1 :=
  rfl

theorem failure_extraFields (status : Nat) (e : Envelope) :
    (e.failure status).extraFields = (e.classify status).2 :=
  rfl

theorem failure_message (status : Nat) (e : Envelope) :
    (e.failure status).message =
      e.message.or ((e.failure status).extraFields.bind (e.failure status).kind.renderMessage) := by
  rw [failure_kind, failure_extraFields, failure, ApiError.message, Option.orElse_eq_or]

theorem kind_of_template (known : t ∈ Template.all) : t.kind ∈ ErrorKind.registered := by
  rcases Template.cases_of_mem known with rfl | rfl | rfl <;> decide

theorem extraFields_of_legacy (legacy : Legacy status e t slug value) :
    ∃ extra, (e.failure status).extraFields = some extra ∧
      extra.get? ErrorKind.slugField = some (.str slug) ∧
      extra.get? t.field = some (.str value) ∧
      ∀ key, key ≠ ErrorKind.slugField → key ≠ t.field →
        extra.get? key = (e.extraFields.getD []).get? key := by
  have keys := Template.keys_fields legacy.known slug value
  refine ⟨_, by rw [failure_extraFields, classify_of_legacy legacy], ?_, ?_, ?_⟩
  · simp [Members.get?_putAll keys, Template.get?_fields legacy.known]
  · simp [Members.get?_putAll keys, Template.get?_fields legacy.known,
      Template.field_ne_slug legacy.known]
  · intro key notSlug notField
    simp [Members.get?_putAll keys, Template.get?_fields legacy.known, notSlug, notField]

theorem extraFields_of_other (other : ∀ t slug value, ¬ Legacy status e t slug value) :
    (e.failure status).extraFields = e.extraFields := by
  rw [failure_extraFields]
  cases keyed : e.errorKey with
  | some key => rw [classify_of_key keyed]
  | none => rw [classify_of_plain keyed other]

theorem isA_of_general
    (other : ¬ ∃ key, e.errorKey = some key ∧ ErrorKind.familyKey.toList <+: key.toList) :
    (e.failure status).kind.isA (.ofStatus status) = true := by
  rw [failure_kind]
  cases keyed : e.errorKey with
  | some key =>
    have unknown := ErrorKind.ofErrorKey_of_other fun family => other ⟨key, keyed, family⟩
    rw [classify_of_key keyed, unknown]
    exact ErrorKind.isA_refl _
  | none =>
    by_cases legacy : ∃ t slug value, Legacy status e t slug value
    · obtain ⟨t, slug, value, legacy⟩ := legacy
      rw [classify_of_legacy legacy, ofStatus_eq_badRequest_iff.mpr legacy.bad]
      exact (ErrorKind.isA_of_registered (kind_of_template legacy.known)).2
    · rw [classify_of_plain keyed fun t slug value found => legacy ⟨t, slug, value, found⟩]
      exact ErrorKind.isA_refl _

theorem failure_kept (status : Nat) (e : Envelope) : Kept status e (e.failure status) where
  code := rfl
  job := rfl
  said message present := by
    rw [failure_message, present]
    rfl
  rendered absent text := by
    rw [failure_message, absent, Option.none_or, Option.bind_eq_some_iff]
    simp only [ErrorKind.renderMessage_eq_some_iff]
  legacy t slug value found := by
    refine ⟨?_, extraFields_of_legacy found⟩
    rw [failure_kind, classify_of_legacy found]
  untouched := extraFields_of_other
  absent := by
    constructor
    · intro none
      have other : ∀ t slug value, ¬ Legacy status e t slug value := by
        intro t slug value found
        obtain ⟨extra, some, -⟩ := extraFields_of_legacy found
        rw [none] at some
        cases some
      exact ⟨extraFields_of_other other ▸ none, other⟩
    · rintro ⟨none, other⟩
      rw [extraFields_of_other other, none]
  family := by
    rintro ⟨key, keyed, family⟩
    obtain ⟨k, known, isFamily⟩ := ErrorKind.isA_of_familyKey family
    rw [failure_kind, classify_of_key keyed, known]
    exact isFamily
  general := isA_of_general

theorem kind_of_settled {e' : Envelope} (same : e'.errorKey = e.errorKey)
    (settled : e.errorKey ≠ none ∨ status ≠ 400) :
    (e'.failure status).kind = (e.failure status).kind := by
  rw [failure_kind, failure_kind]
  cases keyed : e.errorKey with
  | some key => rw [classify_of_key keyed, classify_of_key (same.trans keyed)]
  | none =>
    have good : status ≠ 400 := settled.resolve_left fun key => key keyed
    rw [classify_of_plain keyed fun t slug value found => good found.bad,
      classify_of_plain (same.trans keyed) fun t slug value found => good found.bad]

/-- The error of an envelope keeps its status, job, message and fields, and its kind is settled by
the status and the key where there is one; the result and the data do not matter. -/
theorem failure_keeps (status : Nat) (e : Envelope) :
    Kept status e (e.failure status) ∧
      (∀ result data, failure status { e with result := result, data := data } =
        e.failure status) ∧
      (e.errorKey ≠ none ∨ status ≠ 400 → ∀ message,
        (failure status { e with message := message }).kind = (e.failure status).kind) := by
  exact ⟨failure_kept status e, fun result data => rfl,
    fun settled message => kind_of_settled rfl settled⟩

end Envelope

end SupervisorApi
