import Mathlib.Tactic.Common
import Mathlib.Tactic.IntervalCases
import SupervisorApi.Text.Digits

set_option autoImplicit false

namespace SupervisorApi

namespace Digits

structure Spells (base n : Nat) (ds : List Nat) : Prop where
  small : ∀ d ∈ ds, d < base
  value : ds.foldl (fun n d => base * n + d) 0 = n

theorem Spells.number {n : Nat} {ds : List Nat} (spelt : Spells 10 n ds) : number ds = n :=
  spelt.value

theorem Spells.append {base n d : Nat} {ds : List Nat} (spelt : Spells base n ds) (small : d < base) :
    Spells base (base * n + d) (ds ++ [d]) where
  small := by
    intro e member
    rcases List.mem_append.mp member with member | member
    · exact spelt.small e member
    · rw [List.mem_singleton.mp member]
      exact small
  value := by rw [List.foldl_append, spelt.value]; rfl

theorem Spells.zeros {base n : Nat} {ds : List Nat} (spelt : Spells base n ds) (positive : 0 < base)
    (count : Nat) : Spells base n (List.replicate count 0 ++ ds) := by
  induction count with
  | zero => exact spelt
  | succ count ih =>
    constructor
    · intro d member
      rcases List.mem_cons.mp member with rfl | member
      · exact positive
      · exact ih.small d member
    · simpa [List.replicate_succ] using ih.value

theorem char_eq {d : Nat} (small : d < 10) : char d = Nat.digitChar d := by
  interval_cases d <;> rfl

theorem hexChar_eq {d : Nat} (small : d < 16) : hexChar d = Nat.digitChar d := by
  interval_cases d <;> rfl

@[simp] theorem value?_digitChar {d : Nat} (small : d < 10) : value? (Nat.digitChar d) = some d := by
  interval_cases d <;> rfl

@[simp] theorem hexValue?_digitChar {d : Nat} (small : d < 16) :
    hexValue? (Nat.digitChar d) = some d := by
  interval_cases d <;> rfl

theorem exists_toDigits {base : Nat} (large : 1 < base) (n : Nat) :
    ∃ ds, Nat.toDigits base n = ds.map Nat.digitChar ∧ Spells base n ds ∧ ds ≠ [] ∧
      ∀ d rest, ds ≠ 0 :: d :: rest := by
  induction n using Nat.strong_induction_on with
  | h n ih =>
    by_cases few : n < base
    · refine ⟨[n], Nat.toDigits_of_lt_base few, ⟨by simpa using few, by simp⟩, by simp, by simp⟩
    · have less : n / base < n := Nat.div_lt_self (by omega) large
      have positive : 0 < n / base := Nat.div_pos (by omega) (by omega)
      obtain ⟨ds, written, spelt, some, leading⟩ := ih _ less
      have all := spelt.append (Nat.mod_lt n (by omega : 0 < base))
      rw [Nat.div_add_mod] at all
      refine ⟨ds ++ [n % base], ?_, all, by simp, ?_⟩
      · rw [Nat.toDigits_of_base_le large (by omega), written, List.map_append]
        rfl
      · intro d rest zero
        match ds, some, leading with
        | [e], _, _ =>
          obtain rfl : e = 0 := by simpa using (List.cons.inj zero).1
          have none : n / base = 0 := by simpa using spelt.value.symm
          omega
        | e :: f :: more, _, leading =>
          obtain rfl : e = 0 := (List.cons.inj zero).1
          exact leading f more rfl

theorem exists_fixed (width n : Nat) :
    ∃ ds, fixed width n = ds.map Nat.digitChar ∧ Spells 10 (n % 10 ^ width) ds ∧
      ds.length = width := by
  induction width generalizing n with
  | zero => exact ⟨[], rfl, ⟨by simp, by simp [Nat.mod_one]⟩, rfl⟩
  | succ width ih =>
    obtain ⟨ds, written, spelt, length⟩ := ih (n / 10)
    refine ⟨ds ++ [n % 10], ?_, ?_, by simp [length]⟩
    · rw [fixed, written, char_eq (Nat.mod_lt n (by decide)), List.map_append]
      rfl
    · have all := spelt.append (Nat.mod_lt n (by decide : 0 < 10))
      have split : n % 10 ^ (width + 1) = 10 * (n / 10 % 10 ^ width) + n % 10 := by
        rw [Nat.pow_succ', Nat.mod_mul, Nat.add_comm]
      rwa [split]

theorem exists_atLeast (width n : Nat) :
    ∃ ds, atLeast width n = ds.map Nat.digitChar ∧ Spells 10 n ds ∧ ds ≠ [] := by
  obtain ⟨ds, written, spelt, some, -⟩ := exists_toDigits (by decide : 1 < 10) n
  refine ⟨List.replicate (width - (Nat.toDigits 10 n).length) 0 ++ ds, ?_,
    spelt.zeros (by decide) _, by simp [some]⟩
  rw [atLeast, List.map_append, ← written, List.map_replicate]
  rfl

theorem take_suffix (n : Nat) (s : List Char) : (take n s).2 <:+ s := by
  induction n generalizing s with
  | zero => exact List.suffix_refl s
  | succ n ih =>
    cases s with
    | nil => exact List.suffix_refl _
    | cons c s =>
      unfold take
      split
      · exact (ih s).trans (List.suffix_cons c s)
      · exact List.suffix_refl _

theorem take_of_not_digit {n : Nat} {r : List Char} (ends : ∀ c ∈ r.head?, value? c = none) :
    take n r = ([], r) := by
  cases n with
  | zero => rfl
  | succ n =>
    cases r with
    | nil => rfl
    | cons c r => rw [take, ends c rfl]

theorem take_map {ds : List Nat} {n : Nat} {r : List Char} (small : ∀ d ∈ ds, d < 10)
    (room : ds.length ≤ n) (ends : ds.length = n ∨ ∀ c ∈ r.head?, value? c = none) :
    take n (ds.map Nat.digitChar ++ r) = (ds, r) := by
  induction ds generalizing n with
  | nil =>
    rcases ends with rfl | ends
    · rfl
    · exact take_of_not_digit ends
  | cons d ds ih =>
    obtain ⟨n, rfl⟩ : ∃ m, n = m + 1 := ⟨n - 1, by simp at room; omega⟩
    have rest := ih (n := n) (fun e member => small e (List.mem_cons_of_mem _ member))
      (by simpa using room) (by simpa using ends)
    simp only [List.map_cons, List.cons_append, take,
      value?_digitChar (small d List.mem_cons_self), rest]

theorem take_fixed (width n : Nat) (r : List Char) :
    ∃ ds, take width (fixed width n ++ r) = (ds, r) ∧ number ds = n % 10 ^ width ∧
      ds.length = width := by
  obtain ⟨ds, written, spelt, length⟩ := exists_fixed width n
  refine ⟨ds, ?_, spelt.number, length⟩
  rw [written]
  exact take_map spelt.small length.le (.inl length)

end Digits

end SupervisorApi
