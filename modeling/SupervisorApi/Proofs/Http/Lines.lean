import Mathlib.Tactic.Common
import SupervisorApi.Http.Wire
import SupervisorApi.Proofs.Text.Utf8

set_option autoImplicit false

namespace SupervisorApi

section Breaks

variable {α : Type} [DecidableEq α] {cr lf : α}

def breaks (cr lf : α) : List α → Nat
  | [] => 0
  | a :: rest => (if a = cr ∧ rest.head? = some lf then 1 else 0) + breaks cr lf rest

theorem breaks_append {s t : List α} (apart : ¬ (s.getLast? = some cr ∧ t.head? = some lf)) :
    breaks cr lf (s ++ t) = breaks cr lf s + breaks cr lf t := by
  induction s with
  | nil => simp [breaks]
  | cons a rest ih =>
    cases rest with
    | nil =>
      have alone : ¬ (a = cr ∧ t.head? = some lf) := by simpa using apart
      simp [breaks, alone]
    | cons b more =>
      have later := ih (by simpa using apart)
      have first : breaks cr lf (a :: b :: more) =
          (if a = cr ∧ some b = some lf then 1 else 0) + breaks cr lf (b :: more) := rfl
      rw [first, Nat.add_assoc, ← later]
      rfl

theorem breaks_of_not_mem {s : List α} (absent : cr ∉ s) : breaks cr lf s = 0 := by
  induction s with
  | nil => rfl
  | cons a rest ih =>
    rw [List.mem_cons, not_or] at absent
    rw [breaks, ih absent.2, if_neg fun same => absent.1 same.1.symm]

theorem breaks_pair (distinct : cr ≠ lf) (rest : List α) :
    breaks cr lf (cr :: lf :: rest) = 1 + breaks cr lf rest := by
  simp [breaks, distinct.symm]

theorem breaks_eq_zero_iff {s : List α} : breaks cr lf s = 0 ↔ ¬ [cr, lf] <:+: s := by
  induction s with
  | nil => simp [breaks]
  | cons a rest ih =>
    rw [breaks, Nat.add_eq_zero_iff, ih, List.infix_cons_iff, not_or]
    refine and_congr_left fun _ => ?_
    cases rest with
    | nil => simp
    | cons b more => simp [List.cons_prefix_cons, eq_comm]

end Breaks

namespace Wire

theorem breaks_of_line? {bytes line rest : Bytes} (read : line? bytes = some (line, rest)) :
    breaks 0x0D 0x0A bytes = 1 + breaks 0x0D 0x0A rest := by
  fun_induction line? bytes generalizing line rest with
  | case1 | case2 => cases read
  | case3 a b more pair =>
    obtain ⟨rfl, rfl⟩ := pair
    cases read
    exact breaks_pair (by decide) more
  | case4 a b more other ih =>
    obtain ⟨⟨l, r⟩, later, same⟩ := Option.map_eq_some_iff.mp read
    cases same
    rw [breaks, ih later]
    simp [other]

theorem breaks_of_lines? {bytes rest : Bytes} {lines : List Bytes}
    (read : lines? bytes = some (lines, rest)) :
    breaks 0x0D 0x0A bytes = lines.length + 1 + breaks 0x0D 0x0A rest := by
  fun_induction lines? bytes generalizing lines rest with
  | case1 => cases read
  | case2 bytes first one =>
    cases read
    rw [breaks_of_line? one]
    simp
  | case3 bytes line first _ one smaller ih =>
    obtain ⟨⟨ls, r⟩, later, same⟩ := Option.map_eq_some_iff.mp read
    cases same
    rw [breaks_of_line? one, ih later, List.length_cons]
    omega

theorem breaks_lineBreak (line rest : Bytes) : breaks 0x0D 0x0A (line ++ (lineBreak ++ rest)) =
    breaks 0x0D 0x0A line + (1 + breaks 0x0D 0x0A rest) := by
  have apart : ¬ (line.getLast? = some 0x0D ∧ (lineBreak ++ rest).head? = some 0x0A) := by
    simp [lineBreak]
  rw [breaks_append apart]
  exact congrArg _ (breaks_pair (by decide) rest)

theorem line?_append {line : Bytes} (whole : breaks 0x0D 0x0A line = 0) (rest : Bytes) :
    line? (line ++ (lineBreak ++ rest)) = some (line, rest) := by
  induction line with
  | nil => simp [lineBreak, line?]
  | cons a more ih =>
    rw [breaks, Nat.add_eq_zero_iff] at whole
    obtain ⟨first, later⟩ := whole
    have next := ih later
    cases more with
    | nil => simp_all [lineBreak, line?]
    | cons b more =>
      have other : ¬ (a = 0x0D ∧ b = 0x0A) := by
        intro pair
        simp [pair] at first
      rw [List.cons_append, List.cons_append, line?, if_neg other, ← List.cons_append, next]
      rfl

theorem lines?_of_line? {bytes line rest : Bytes} (read : line? bytes = some (line, rest)) :
    lines? bytes = if line = [] then some ([], rest)
      else (lines? rest).map fun (lines, more) => (line :: lines, more) := by
  rw [lines?]
  split
  next none => rw [read] at none; cases none
  next first => rw [read] at first; cases first; rfl
  next other found => rw [read] at found; cases found; rw [if_neg other]

theorem lines?_append {line : Bytes} (whole : breaks 0x0D 0x0A line = 0) (some : line ≠ [])
    (rest : Bytes) : lines? (line ++ (lineBreak ++ rest)) =
      (lines? rest).map fun (lines, more) => (line :: lines, more) := by
  rw [lines?_of_line? (line?_append whole rest), if_neg some]

theorem lines?_lineBreak (rest : Bytes) : lines? (lineBreak ++ rest) = some ([], rest) :=
  lines?_of_line? (@line?_append [] rfl rest)

end Wire

namespace Utf8

open String (utf8EncodeChar)

theorem head?_encodeChars (cs : List Char) :
    (cs.flatMap utf8EncodeChar).head? = some 0x0A ↔ cs.head? = some '\n' := by
  cases cs with
  | nil => simp
  | cons c rest =>
    constructor
    · intro first
      cases shown : utf8EncodeChar c with
      | nil => exact absurd shown String.utf8EncodeChar_ne_nil
      | cons b bs =>
        rw [List.flatMap_cons, shown] at first
        cases first
        have same := eq_ofNat_of_mem (b := 0x0A) (by decide) (shown ▸ List.mem_cons_self)
        rw [same]
        rfl
    · intro first
      cases first
      rfl

theorem breaks_encode (s : String) :
    breaks 0x0D 0x0A (encode s) = breaks '\r' '\n' s.toList := by
  unfold encode
  induction s.toList with
  | nil => rfl
  | cons c rest ih =>
    rw [List.flatMap_cons, breaks, ← ih]
    by_cases here : c = '\r'
    · have shown : utf8EncodeChar c = [0x0D] := by rw [here]; decide
      rw [shown, List.singleton_append, breaks]
      simp [here, head?_encodeChars]
    · have absent : (0x0D : UInt8) ∉ utf8EncodeChar c := by
        intro member
        exact here (eq_ofNat_of_mem (by decide) member)
      rw [breaks_append fun joined => absent (List.mem_of_getLast? joined.1),
        breaks_of_not_mem absent, if_neg fun pair => here pair.1]

end Utf8

end SupervisorApi
