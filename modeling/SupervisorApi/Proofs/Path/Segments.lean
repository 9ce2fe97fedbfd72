import Mathlib.Tactic.Common
import SupervisorApi.Http.Path
import SupervisorApi.Proofs.Text.Percent

set_option autoImplicit false

namespace SupervisorApi

theorem of_mem_intercalate {α : Type} {separator : List α} {parts : List (List α)} {a : α}
    (member : a ∈ separator.intercalate parts) : a ∈ separator ∨ ∃ part ∈ parts, a ∈ part := by
  induction parts with
  | nil => simp at member
  | cons part more ih =>
    cases more with
    | nil => exact .inr ⟨part, by simp, by simpa using member⟩
    | cons next rest =>
      rw [List.intercalate_cons_cons, List.mem_append, List.mem_append] at member
      rcases member with (here | between) | later
      · exact .inr ⟨part, by simp, here⟩
      · exact .inl between
      · rcases ih later with between | ⟨other, present, inside⟩
        · exact .inl between
        · exact .inr ⟨other, List.mem_cons_of_mem _ present, inside⟩

section Split

variable {α : Type} [DecidableEq α] {mark : α}

theorem splitAt_eq_splitOn (mark : α) (s : List α) : splitAt mark s = s.splitOn mark := by
  induction s with
  | nil => rfl
  | cons a rest ih =>
    rw [splitAt, List.splitOn_cons_eq_if_modifyHead, ih]
    by_cases here : a = mark
    · simp [here]
    · simp only [here, if_false, beq_iff_eq]
      cases parts : rest.splitOn mark with
      | nil => exact absurd parts (List.splitOn_ne_nil mark rest)
      | cons part more => rfl

theorem splitAt_append_mark (s t : List α) :
    splitAt mark (s ++ mark :: t) = splitAt mark s ++ splitAt mark t := by
  simp only [splitAt_eq_splitOn, List.splitOn_append_cons_self]

theorem splitAt_of_not_mem {s : List α} (absent : mark ∉ s) : splitAt mark s = [s] := by
  rw [splitAt_eq_splitOn, List.splitOn_eq_singleton absent]

theorem intercalate_splitAt (s : List α) : [mark].intercalate (splitAt mark s) = s := by
  rw [splitAt_eq_splitOn, List.intercalate_splitOn]

theorem splitAt_intercalate {parts : List (List α)} (some : parts ≠ [])
    (absent : ∀ part ∈ parts, mark ∉ part) :
    splitAt mark ([mark].intercalate parts) = parts := by
  rw [splitAt_eq_splitOn, List.splitOn_intercalate mark absent some]

theorem splitAt_intercalate_flatMap {parts : List (List α)} (some : parts ≠ []) :
    splitAt mark ([mark].intercalate parts) = parts.flatMap (splitAt mark) := by
  induction parts with
  | nil => exact absurd rfl some
  | cons part more ih =>
    cases more with
    | nil => simp
    | cons next rest =>
      rw [List.intercalate_cons_cons, List.append_assoc, List.singleton_append,
        splitAt_append_mark, ih (by simp)]
      rfl

end Split

namespace Path

def joinSegments (parts : List Bytes) : Bytes :=
  [slash].intercalate parts

theorem joinSegments_split (path : Bytes) : joinSegments (split path) = path :=
  intercalate_splitAt path

theorem split_joinSegments {parts : List Bytes} (some : parts ≠ [])
    (absent : ∀ part ∈ parts, slash ∉ part) : split (joinSegments parts) = parts :=
  splitAt_intercalate some absent

theorem split_append_slash (s t : Bytes) : split (s ++ slash :: t) = split s ++ split t :=
  splitAt_append_mark s t

theorem split_ne_nil (path : Bytes) : split path ≠ [] :=
  splitAt_ne_nil slash path

theorem decode_append_slash (s t : Bytes) :
    Percent.decode (s ++ slash :: t) = Percent.decode s ++ slash :: Percent.decode t :=
  Percent.decode_append_cons (by decide) (by decide) s t

theorem decode_joinSegments (parts : List Bytes) :
    Percent.decode (joinSegments parts) = joinSegments (parts.map Percent.decode) := by
  induction parts with
  | nil => rfl
  | cons part more ih =>
    cases more with
    | nil => simp [joinSegments]
    | cons next rest =>
      simp only [joinSegments, List.map_cons, List.intercalate_cons_cons, List.append_assoc,
        List.singleton_append] at ih ⊢
      rw [decode_append_slash, ih]

theorem decode_eq_joinSegments (path : Bytes) :
    Percent.decode path = joinSegments ((split path).map Percent.decode) := by
  rw [← decode_joinSegments, joinSegments_split]

theorem withoutSlashes_withoutSlash (path : Bytes) :
    withoutSlashes (withoutSlash path) = withoutSlashes path := by
  cases path with
  | nil => rfl
  | cons b rest =>
    by_cases here : b = slash <;> simp [withoutSlash, withoutSlashes, here]

theorem mem_split_of_withoutSlashes {path part : Bytes}
    (member : part ∈ split (withoutSlashes path)) : part ∈ split path := by
  induction path with
  | nil => exact member
  | cons b rest ih =>
    by_cases here : b = slash
    · subst here
      have cut : split (slash :: rest) = [] :: split rest := split_append_slash [] rest
      rw [cut]
      apply List.mem_cons_of_mem
      apply ih
      simpa [withoutSlashes] using member
    · simpa [withoutSlashes, here] using member

theorem isSafeSegment_of_isSafe {path part : Bytes} (safe : isSafe path = true)
    (member : part ∈ split (withoutSlashes path)) : isSafeSegment part = true := by
  rw [← withoutSlashes_withoutSlash] at member
  rw [isSafe, Bool.and_eq_true, List.all_eq_true] at safe
  exact safe.2 part (mem_split_of_withoutSlashes member)

theorem isSafeSegment_iff {part : Bytes} :
    isSafeSegment part = true ↔ (Utf8.decode? (Percent.decode part)).isSome = true ∧
      isDots (Percent.decode part) = false ∧
        slash ∉ Percent.decode part ∧ backslash ∉ Percent.decode part := by
  simp only [isSafeSegment, Bool.and_eq_true, Bool.not_eq_true', List.any_eq_false, isSeparator,
    Bool.or_eq_true, decide_eq_true_eq, not_or, and_assoc]
  refine and_congr_right fun _ => and_congr_right fun _ => ?_
  constructor
  · intro apart
    exact ⟨fun member => (apart _ member).1 rfl, fun member => (apart _ member).2 rfl⟩
  · rintro ⟨noSlash, noBackslash⟩ b member
    exact ⟨fun same => noSlash (same ▸ member), fun same => noBackslash (same ▸ member)⟩

theorem split_cons_slash (path : Bytes) : split (slash :: path) = [] :: split path :=
  split_append_slash [] path

theorem split_eq_cons (path : Bytes) :
    split path = path.takeWhile (· ≠ slash) ::
      (if path.dropWhile (· ≠ slash) = [] then []
        else split (path.dropWhile (· ≠ slash)).tail) := by
  induction path with
  | nil => rfl
  | cons b rest ih =>
    by_cases here : b = slash
    · subst here
      simp [split_cons_slash]
    · simp only [split] at ih ⊢
      rw [splitAt, if_neg here, ih]
      simp [here]

theorem takeWhile_mem_split (path : Bytes) : path.takeWhile (· ≠ slash) ∈ split path := by
  rw [split_eq_cons]
  exact List.mem_cons_self

theorem head_dropWhile (path : Bytes) : ∀ b ∈ (path.dropWhile (· ≠ slash)).head?, b = slash := by
  intro b first
  have stopped := List.head?_dropWhile_not (· ≠ slash) path
  rw [Option.mem_def.mp first] at stopped
  simpa using stopped

theorem mem_split_dropWhile {path part : Bytes}
    (member : part ∈ split (path.dropWhile (· ≠ slash))) : part = [] ∨ part ∈ split path := by
  rw [split_eq_cons path]
  cases next : path.dropWhile (· ≠ slash) with
  | nil =>
    rw [next] at member
    exact .inl (List.mem_singleton.mp member)
  | cons b rest =>
    rw [next, head_dropWhile path b (by rw [next]; rfl), split_cons_slash] at member
    rcases List.mem_cons.mp member with empty | later
    · exact .inl empty
    · exact .inr (List.mem_cons_of_mem _ (by simpa using later))

end Path

end SupervisorApi
