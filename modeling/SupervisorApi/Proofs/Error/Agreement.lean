import SupervisorApi.Proofs.Error.Mapping

set_option autoImplicit false

namespace SupervisorApi

def ApiError.shown? (e : ApiError) (key : String) : Option String :=
  (e.extraFields.bind fun extra => extra.get? key).map Json.display

/-- Two errors of one kind, with one message, that name the same add-on and the same value. -/
structure ApiError.Agree (t : Template) (a b : ApiError) : Prop where
  kind : b.kind = a.kind
  message : b.message = a.message
  slug : b.shown? ErrorKind.slugField = a.shown? ErrorKind.slugField
  value : b.shown? t.field = a.shown? t.field

namespace Template

variable {t t' : Template} {message slug value : String}

def recognize (t : Template) (message : String) : Option (ErrorKind × Members) :=
  (t.read? message).map fun (slug, value) => (t.kind, t.fields slug value)

theorem matchMessage_eq (message : String) :
    matchMessage message = all.findSome? fun t => t.recognize message :=
  rfl

theorem exists_of_registered {k : ErrorKind} (registered : k ∈ ErrorKind.registered) :
    ∃ t ∈ all, t.kind = k := by
  revert k
  decide

theorem renderMessage_fields (known : t ∈ all) (slug value : String) :
    t.kind.renderMessage (t.fields slug value) = some (t.fill slug value) := by
  refine ErrorKind.renderMessage_eq_some_iff.mpr ⟨t, known, rfl, .str slug, .str value, ?_, ?_, rfl⟩
  · simp [get?_fields known]
  · simp [get?_fields known, field_ne_slug known]

theorem eq_of_read? (known : t ∈ all) (known' : t' ∈ all)
    (read : (t.read? message).isSome = true) (read' : (t'.read? message).isSome = true) :
    t = t' := by
  obtain ⟨⟨slug, value⟩, read⟩ := Option.isSome_iff_exists.mp read
  obtain ⟨⟨slug', value'⟩, read'⟩ := Option.isSome_iff_exists.mp read'
  obtain ⟨rfl, fits⟩ := of_read? read
  obtain ⟨same, fits'⟩ := of_read? read'
  exact (fill_injective known known' fits fits' same).1

-- Whatever the order of the templates, a message is recognised as the same.
theorem findSome?_of_perm {order : List Template} (perm : order.Perm all) (message : String) :
    (order.findSome? fun t => t.recognize message) = matchMessage message := by
  rw [matchMessage_eq]
  cases found : order.findSome? fun t => t.recognize message with
  | none =>
    symm
    rw [List.findSome?_eq_none_iff] at found ⊢
    exact fun t known => found t (perm.mem_iff.mpr known)
  | some x =>
    obtain ⟨t, listed, one⟩ := List.exists_of_findSome?_eq_some found
    have known := perm.mem_iff.mp listed
    obtain ⟨⟨slug, value⟩, read, rfl⟩ := Option.map_eq_some_iff.mp one
    obtain ⟨rfl, fits⟩ := of_read? read
    exact (matchMessage_fill known fits).symm

end Template

theorem renderMessage_of_matchMessage {message : String} {k : ErrorKind} {fields : Members}
    (matched : matchMessage message = some (k, fields)) : k.renderMessage fields = some message := by
  obtain ⟨t, known, slug, value, -, rfl, same⟩ := of_matchMessage matched
  cases same
  exact t.renderMessage_fields known slug value

namespace Envelope

variable {e plain : Envelope} {t : Template} {slug value : String}

theorem shown?_of_legacy {status : Nat} (legacy : Legacy status e t slug value) :
    (e.failure status).shown? ErrorKind.slugField = some slug ∧
      (e.failure status).shown? t.field = some value := by
  obtain ⟨extra, same, hasSlug, hasValue, -⟩ := extraFields_of_legacy legacy
  constructor
  · rw [ApiError.shown?, same, Option.bind_some, hasSlug]
    rfl
  · rw [ApiError.shown?, same, Option.bind_some, hasValue]
    rfl

theorem of_rendered {status : Nat} {text : String} (silent : e.message = none)
    (rendered : (e.failure status).message = some text) :
    ∃ t ∈ Template.all, ∃ slug value, (e.failure status).kind = t.kind ∧
      (e.failure status).shown? ErrorKind.slugField = some slug ∧
        (e.failure status).shown? t.field = some value ∧ text = t.fill slug value := by
  obtain ⟨extra, same, t, known, kind, slug, value, hasSlug, hasValue, rfl⟩ :=
    ((failure_kept status e).rendered silent text).mp rendered
  refine ⟨t, known, slug.display, value.display, kind.symm, ?_, ?_, rfl⟩
  · rw [ApiError.shown?, same, Option.bind_some, hasSlug, Option.map_some]
  · rw [ApiError.shown?, same, Option.bind_some, hasValue, Option.map_some]

theorem kind_ne_badRequest (known : t ∈ Template.all) : t.kind ≠ .badRequest := by
  rcases Template.cases_of_mem known with rfl | rfl | rfl <;> decide

theorem legacy_of_kind (known : t ∈ Template.all) (keyless : plain.errorKey = none)
    (kind : (plain.failure 400).kind = t.kind) :
    ∃ slug value, Legacy 400 plain t slug value := by
  by_cases legacy : ∃ t' slug value, Legacy 400 plain t' slug value
  · obtain ⟨t', slug, value, legacy⟩ := legacy
    rw [failure_kind, classify_of_legacy legacy] at kind
    obtain rfl := Template.eq_of_kind legacy.known known kind
    exact ⟨slug, value, legacy⟩
  · rw [failure_kind, classify_of_plain keyless fun t' slug value found =>
      legacy ⟨t', slug, value, found⟩] at kind
    exact absurd kind.symm (kind_ne_badRequest known)

theorem agree_iff_fits (known : t ∈ Template.all) (kind : (e.failure 400).kind = t.kind)
    (message : (e.failure 400).message = some (t.fill slug value))
    (hasSlug : (e.failure 400).shown? ErrorKind.slugField = some slug)
    (hasValue : (e.failure 400).shown? t.field = some value)
    (said : plain.message = some (t.fill slug value)) (keyless : plain.errorKey = none) :
    (e.failure 400).Agree t (plain.failure 400) ↔ t.Fits slug value := by
  constructor
  · intro agree
    obtain ⟨slug', value', legacy⟩ := legacy_of_kind known keyless (agree.kind.trans kind)
    obtain ⟨hasSlug', hasValue'⟩ := shown?_of_legacy legacy
    have sameSlug : slug' = slug := by
      simpa [hasSlug, hasSlug'] using agree.slug
    have sameValue : value' = value := by
      simpa [hasValue, hasValue'] using agree.value
    subst sameSlug sameValue
    exact legacy.fits
  · intro fits
    have legacy : Legacy 400 plain t slug value := ⟨rfl, keyless, known, fits, said⟩
    obtain ⟨hasSlug', hasValue'⟩ := shown?_of_legacy legacy
    refine ⟨?_, ?_, hasSlug'.trans hasSlug.symm, hasValue'.trans hasValue.symm⟩
    · rw [kind, failure_kind, classify_of_legacy legacy]
    · rw [message]
      exact (failure_kept 400 plain).said _ said

/-- Messages of registered kinds and the extra fields behind them determine each other, whichever
template is tried first. A bad request with a key and one that has only the message of the first stand
for the same error exactly if the add-on and the value that the first shows fit the template. That the
message can be taken apart is not enough: it may come apart into others, as that of `wordy` does. -/
theorem messages_agree_with_fields :
    (∀ k ∈ ErrorKind.registered, ∃ t ∈ Template.all, t.kind = k ∧
      ∀ slug value, t.Fits slug value → ∃ text,
        k.renderMessage (t.fields slug value) = some text ∧
          matchMessage text = some (k, t.fields slug value)) ∧
    (∀ message k fields, matchMessage message = some (k, fields) →
      k.renderMessage fields = some message) ∧
    (∀ message, ∀ t ∈ Template.all, ∀ t' ∈ Template.all, (t.read? message).isSome = true →
      (t'.read? message).isSome = true → t = t') ∧
    (∀ order : List Template, order.Perm Template.all → ∀ message,
      (order.findSome? fun t => t.recognize message) = matchMessage message) ∧
    (∀ (e : Envelope) key text, e.errorKey = some key → e.message = none →
      (e.failure 400).message = some text →
        ∃ t ∈ Template.all, ∃ slug value, (e.failure 400).kind = t.kind ∧
          (e.failure 400).shown? ErrorKind.slugField = some slug ∧
          (e.failure 400).shown? t.field = some value ∧ text = t.fill slug value ∧
          ∀ plain : Envelope, plain.message = some text → plain.errorKey = none →
            ((e.failure 400).Agree t (plain.failure 400) ↔ t.Fits slug value)) := by
  refine ⟨?_, fun message k fields => renderMessage_of_matchMessage,
    fun message t known t' known' => Template.eq_of_read? known known',
    fun order perm message => Template.findSome?_of_perm perm message, ?_⟩
  · intro k registered
    obtain ⟨t, known, rfl⟩ := Template.exists_of_registered registered
    refine ⟨t, known, rfl, fun slug value fits => ⟨_, t.renderMessage_fields known slug value, ?_⟩⟩
    exact matchMessage_fill known fits
  · intro e key text keyed silent rendered
    obtain ⟨t, known, slug, value, kind, hasSlug, hasValue, rfl⟩ := of_rendered silent rendered
    refine ⟨t, known, slug, value, kind, hasSlug, hasValue, rfl, fun plain said keyless => ?_⟩
    exact agree_iff_fits known kind rendered hasSlug hasValue said keyless

-- The name of the add-on holds the words that stand behind it in the template.
def wordy : Envelope :=
  ⟨.error, none, none, some "addon_not_supported_architecture_error",
    some [("architectures", .str "y"),
      ("slug", .str "a not supported on this platform, supported architectures: x")], none⟩

theorem message_comes_apart_elsewhere :
    ∃ text value, (wordy.failure 400).message = some text ∧
      text = Template.architecture.fill "a" value ∧ Template.architecture.Fits "a" value ∧
      (Envelope.failure 400 (.error text)).kind = (wordy.failure 400).kind ∧
      (Envelope.failure 400 (.error text)).shown? ErrorKind.slugField = some "a" ∧
      ¬ (wordy.failure 400).Agree .architecture (Envelope.failure 400 (.error text)) := by
  let value : String := "x not supported on this platform, supported architectures: y"
  let text : String := Template.architecture.fill "a" value
  have rendered : (wordy.failure 400).message = some text := by decide +kernel
  have fits : Template.architecture.Fits "a" value := by decide +kernel
  have known : Template.architecture ∈ Template.all := by simp [Template.all]
  have legacy : Legacy 400 (.error text) .architecture "a" value := ⟨rfl, rfl, known, fits, rfl⟩
  have shown := (shown?_of_legacy legacy).1
  have sameKind : (Envelope.failure 400 (.error text)).kind = (wordy.failure 400).kind := by
    rw [failure_kind, classify_of_legacy legacy]
    decide +kernel
  refine ⟨text, value, rendered, rfl, fits, sameKind, shown, fun agree => ?_⟩
  have other : (wordy.failure 400).shown? ErrorKind.slugField ≠ some "a" := by decide +kernel
  exact other (agree.slug.symm.trans shown)

theorem messages_agree_with_fields_of_list :
    ∃ (e : Envelope) (text : String), e.errorKey = some "addon_not_supported_architecture_error" ∧
      e.extraFields = some [("architectures", .arr [.str "b\r", .arr [.str "not supported", .null]]),
        ("slug", .str "a")] ∧
      (e.failure 400).message = some text ∧
      (e.failure 400).Agree .architecture (Envelope.failure 400 (.error text)) := by
  let e : Envelope := ⟨.error, none, none, some "addon_not_supported_architecture_error",
    some [("architectures", .arr [.str "b\r", .arr [.str "not supported", .null]]),
      ("slug", .str "a")], none⟩
  let value : String := "b\r, not supported, null"
  have rendered : (e.failure 400).message = some (Template.architecture.fill "a" value) := by
    decide +kernel
  obtain ⟨-, -, -, -, keyed⟩ := messages_agree_with_fields
  obtain ⟨t, known, slug, shown, kind, hasSlug, hasValue, -, agreed⟩ :=
    keyed e _ _ rfl rfl rendered
  have one : t = .architecture := by
    apply Template.eq_of_kind known (by simp [Template.all])
    rw [← kind]
    decide +kernel
  subst one
  have slugIs : (e.failure 400).shown? ErrorKind.slugField = some "a" := by decide +kernel
  have valueIs : (e.failure 400).shown? Template.architecture.field = some value := by decide +kernel
  obtain rfl : slug = "a" := Option.some.inj (hasSlug.symm.trans slugIs)
  obtain rfl : shown = value := Option.some.inj (hasValue.symm.trans valueIs)
  exact ⟨e, _, rfl, rfl, rendered, (agreed _ rfl rfl).mpr (by decide +kernel)⟩

end Envelope

end SupervisorApi
