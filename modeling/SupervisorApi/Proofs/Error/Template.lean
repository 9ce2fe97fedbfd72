import Mathlib.Tactic.Common
import SupervisorApi.Error.Template
import SupervisorApi.Proofs.Uri.Parts

set_option autoImplicit false

namespace SupervisorApi

namespace Template

variable {t : Template} {message slug value : String}

structure Fits (t : Template) (slug value : String) : Prop where
  named : slug ≠ ""
  word : ∀ c ∈ slug.toList, isBlank c = false
  valued : value ≠ ""
  admitted : ∀ c ∈ value.toList, t.value.admits c = true

theorem fits_iff : (slug ≠ "" ∧ slug.toList.all (fun c => !isBlank c) = true ∧ value ≠ "" ∧
    value.toList.all t.value.admits = true) ↔ t.Fits slug value := by
  simp only [List.all_eq_true, Bool.not_eq_true']
  exact ⟨fun ⟨named, word, valued, admitted⟩ => ⟨named, word, valued, admitted⟩,
    fun fits => ⟨fits.named, fits.word, fits.valued, fits.admitted⟩⟩

instance : Decidable (t.Fits slug value) :=
  decidable_of_iff _ fits_iff

theorem cases_of_mem (known : t ∈ all) : t = architecture ∨ t = machineType ∨ t = version := by
  simpa [all] using known

theorem afterStart_eq_some_iff {start text rest : List Char} :
    afterStart start text = some rest ↔ text = start ++ rest := by
  unfold afterStart
  split
  next starts =>
    obtain ⟨behind, rfl⟩ := List.isPrefixOf_iff_prefix.mp starts
    simp [eq_comm]
  next other =>
    simp only [reduceCtorEq, false_iff]
    rintro rfl
    exact other (List.isPrefixOf_iff_prefix.mpr (List.prefix_append _ _))

theorem beforeEnd_eq_some_iff {ending text front : List Char} :
    beforeEnd ending text = some front ↔ text = front ++ ending := by
  unfold beforeEnd
  split
  next ends =>
    obtain ⟨before, rfl⟩ := List.isSuffixOf_iff_suffix.mp ends
    simp [eq_comm]
  next other =>
    simp only [reduceCtorEq, false_iff]
    rintro rfl
    exact other (List.isSuffixOf_iff_suffix.mpr (List.suffix_append _ _))

theorem toList_fill (t : Template) (slug value : String) :
    (t.fill slug value).toList = t.opening.toList ++ (slug.toList ++ (t.middle.toList ++
      (value.toList ++ t.closing.toList))) := by
  simp [fill]

-- In every template, a blank ends the name of the add-on.
theorem middle_blank (known : t ∈ all) : ∃ rest, t.middle.toList = ' ' :: rest := by
  rcases cases_of_mem known with rfl | rfl | rfl <;> exact ⟨_, rfl⟩

theorem takeWhile_slug (known : t ∈ all) (word : ∀ c ∈ slug.toList, isBlank c = false)
    (more : List Char) :
    (slug.toList ++ (t.middle.toList ++ more)).takeWhile (fun c => !isBlank c) = slug.toList := by
  obtain ⟨rest, blank⟩ := middle_blank known
  apply takeWhile_append_boundary
  · intro c member
    rw [word c member]
    rfl
  · intro c first
    rw [blank] at first
    cases first
    decide

theorem read?_fill (known : t ∈ all) (fits : t.Fits slug value) :
    t.read? (t.fill slug value) = some (slug, value) := by
  have opened : afterStart t.opening.toList (t.fill slug value).toList =
      some (slug.toList ++ (t.middle.toList ++ (value.toList ++ t.closing.toList))) :=
    afterStart_eq_some_iff.mpr (toList_fill t slug value)
  have followed : afterStart t.middle.toList
      (t.middle.toList ++ (value.toList ++ t.closing.toList)) =
        some (value.toList ++ t.closing.toList) :=
    afterStart_eq_some_iff.mpr rfl
  have closed : beforeEnd t.closing.toList (value.toList ++ t.closing.toList) =
      some value.toList :=
    beforeEnd_eq_some_iff.mpr rfl
  have good : slug.toList ≠ [] ∧ value.toList ≠ [] ∧ value.toList.all t.value.admits = true :=
    ⟨by simpa using fits.named, by simpa using fits.valued, List.all_eq_true.mpr fits.admitted⟩
  unfold read?
  simp only [opened, Option.bind_eq_bind, Option.bind_some, takeWhile_slug known fits.word,
    List.drop_left, followed, closed]
  rw [if_pos good, String.ofList_toList, String.ofList_toList]

theorem of_read? (read : t.read? message = some (slug, value)) :
    message = t.fill slug value ∧ t.Fits slug value := by
  unfold read? at read
  simp only [Option.bind_eq_bind, Option.bind_eq_some_iff] at read
  obtain ⟨rest, opened, behind, followed, front, closed, good⟩ := read
  rw [afterStart_eq_some_iff] at opened followed
  rw [beforeEnd_eq_some_iff] at closed
  split at good
  next fits =>
    simp only [Option.some.injEq, Prod.mk.injEq] at good
    obtain ⟨rfl, rfl⟩ := good
    have whole := List.prefix_iff_eq_append.mp
      (List.takeWhile_prefix (fun c => !isBlank c) (l := rest))
    rw [followed, closed] at whole
    refine ⟨?_, ?_, ?_, ?_, ?_⟩
    · rw [← String.toList_inj, toList_fill, opened, String.toList_ofList, String.toList_ofList,
        whole]
    · simpa using fits.1
    · intro c member
      rw [String.toList_ofList] at member
      simpa using List.mem_takeWhile_imp member
    · simpa using fits.2.1
    · simpa using fits.2.2
  next => cases good

theorem read?_eq_some_iff (known : t ∈ all) :
    t.read? message = some (slug, value) ↔ message = t.fill slug value ∧ t.Fits slug value := by
  constructor
  · exact of_read?
  · rintro ⟨rfl, fits⟩
    exact read?_fill known fits

theorem eq_of_middle {t' : Template} (known : t ∈ all) (known' : t' ∈ all)
    (begins : t.middle.toList <+: t'.middle.toList) : t = t' := by
  rcases cases_of_mem known with rfl | rfl | rfl <;>
    rcases cases_of_mem known' with rfl | rfl | rfl <;>
    first | rfl | exact absurd begins (by decide)

theorem dropWhile_fill (known : t ∈ all) (word : ∀ c ∈ slug.toList, isBlank c = false)
    (value : String) :
    ((t.fill slug value).toList.drop 7).dropWhile (fun c => !isBlank c) =
      t.middle.toList ++ (value.toList ++ t.closing.toList) := by
  have opening : t.opening = "Add-on " := by
    rcases cases_of_mem known with rfl | rfl | rfl <;> rfl
  have cut := takeWhile_slug known word (value.toList ++ t.closing.toList)
  have whole := List.takeWhile_append_dropWhile (p := fun c => !isBlank c)
    (l := slug.toList ++ (t.middle.toList ++ (value.toList ++ t.closing.toList)))
  rw [cut] at whole
  rw [toList_fill, opening]
  exact List.append_cancel_left whole

theorem fill_injective {t' : Template} {slug' value' : String} (known : t ∈ all)
    (known' : t' ∈ all) (fits : t.Fits slug value) (fits' : t'.Fits slug' value')
    (same : t.fill slug value = t'.fill slug' value') : t = t' ∧ slug = slug' ∧ value = value' := by
  have middles := dropWhile_fill known fits.word value
  rw [same, dropWhile_fill known' fits'.word value'] at middles
  -- Of two middles that the same text begins with, one begins with the other.
  have one : t = t' := by
    rcases List.prefix_or_prefix_of_prefix (List.prefix_append _ _) ⟨_, middles⟩ with
      begins | begins
    · exact eq_of_middle known known' begins
    · exact (eq_of_middle known' known begins).symm
  subst one
  have read := read?_fill known fits
  rw [same, read?_fill known' fits', Option.some.injEq, Prod.mk.injEq] at read
  exact ⟨rfl, read.1.symm, read.2.symm⟩

def fields (t : Template) (slug value : String) : Members :=
  Members.ofList [(ErrorKind.slugField, .str slug), (t.field, .str value)]

theorem field_ne_slug (known : t ∈ all) : t.field ≠ ErrorKind.slugField := by
  rcases cases_of_mem known with rfl | rfl | rfl <;> decide

theorem get?_fields (known : t ∈ all) (slug value key : String) :
    (t.fields slug value).get? key =
      if key = ErrorKind.slugField then some (.str slug)
      else if key = t.field then some (.str value) else none := by
  have apart := field_ne_slug known
  simp only [fields, Members.ofList, List.foldl_cons, List.foldl_nil, Members.get?_put]
  by_cases isSlug : key = ErrorKind.slugField
  · simp [isSlug, apart]
  · simp [isSlug, eq_comm, Members.get?]

theorem keys_fields (known : t ∈ all) (slug value : String) :
    (t.fields slug value).Pairwise fun a b => a.1 ≠ b.1 := by
  have apart := field_ne_slug known
  simp only [fields, Members.ofList, List.foldl_cons, List.foldl_nil, Members.put, Ne.symm apart,
    if_false]
  split <;> simp [apart, Ne.symm apart]

end Template

theorem of_matchMessage {message : String} {found : ErrorKind × Members}
    (matched : matchMessage message = some found) :
    ∃ t ∈ Template.all, ∃ slug value, t.Fits slug value ∧ message = t.fill slug value ∧
      found = (t.kind, t.fields slug value) := by
  obtain ⟨t, known, read⟩ := List.exists_of_findSome?_eq_some matched
  obtain ⟨⟨slug, value⟩, parts, rfl⟩ := Option.map_eq_some_iff.mp read
  obtain ⟨whole, fits⟩ := (Template.read?_eq_some_iff known).mp parts
  exact ⟨t, known, slug, value, fits, whole, rfl⟩

theorem matchMessage_fill {t : Template} {slug value : String} (known : t ∈ Template.all)
    (fits : t.Fits slug value) :
    matchMessage (t.fill slug value) = some (t.kind, t.fields slug value) := by
  cases matched : matchMessage (t.fill slug value) with
  | none =>
    have unread := List.findSome?_eq_none_iff.mp matched t known
    simp [Template.read?_fill known fits] at unread
  | some found =>
    obtain ⟨t', known', slug', value', fits', same, rfl⟩ := of_matchMessage matched
    obtain ⟨rfl, rfl, rfl⟩ := Template.fill_injective known known' fits fits' same
    rfl

theorem Template.eq_of_kind {t t' : Template} (known : t ∈ all) (known' : t' ∈ all)
    (same : t.kind = t'.kind) : t = t' := by
  rcases cases_of_mem known with rfl | rfl | rfl <;>
    rcases cases_of_mem known' with rfl | rfl | rfl <;>
    first | rfl | cases same

theorem ErrorKind.renderMessage_eq_some_iff {k : ErrorKind} {extra : Members} {text : String} :
    k.renderMessage extra = some text ↔ ∃ t ∈ Template.all, t.kind = k ∧
      ∃ slug value, extra.get? slugField = some slug ∧ extra.get? t.field = some value ∧
        text = t.fill slug.display value.display := by
  simp only [renderMessage, Option.bind_eq_bind, Option.bind_eq_some_iff, Option.pure_def,
    Option.some.injEq]
  constructor
  · rintro ⟨t, found, slug, hasSlug, value, hasValue, rfl⟩
    exact ⟨t, List.mem_of_find?_eq_some found, by simpa using List.find?_some found, slug, value,
      hasSlug, hasValue, rfl⟩
  · rintro ⟨t, known, rfl, slug, value, hasSlug, hasValue, rfl⟩
    refine ⟨t, ?_, slug, hasSlug, value, hasValue, rfl⟩
    cases found : Template.forKind t.kind with
    | none => simpa using List.find?_eq_none.mp found t known
    | some t' =>
      have same : t'.kind = t.kind := by simpa using List.find?_some found
      rw [Template.eq_of_kind (List.mem_of_find?_eq_some found) known same]

end SupervisorApi
