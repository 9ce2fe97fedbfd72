import Mathlib.Data.List.DropRight
import SupervisorApi.Proofs.Text.Digits
import SupervisorApi.Time.Duration

set_option autoImplicit false

namespace SupervisorApi

namespace Digits

theorem eq_of_map_append {ds ds' : List Nat} {rest rest' : List Char} (small : ∀ d ∈ ds, d < 10)
    (small' : ∀ d ∈ ds', d < 10) (ends : ∀ c ∈ rest.head?, value? c = none)
    (ends' : ∀ c ∈ rest'.head?, value? c = none)
    (same : ds.map Nat.digitChar ++ rest = ds'.map Nat.digitChar ++ rest') :
    ds = ds' ∧ rest = rest' := by
  have read := take_map (n := ds.length + ds'.length) small (by omega) (.inr ends)
  have read' := take_map (n := ds.length + ds'.length) small' (by omega) (.inr ends')
  rw [same, read'] at read
  cases read
  exact ⟨rfl, rfl⟩

end Digits

namespace Duration

theorem withoutTrailingZeros_append (cs : List Char) :
    withoutTrailingZeros cs
      ++ List.replicate (cs.length - (withoutTrailingZeros cs).length) '0' = cs := by
  have zeros : cs.rtakeWhile (· = '0') = List.replicate (cs.rtakeWhile (· = '0')).length '0' :=
    List.eq_replicate_iff.mpr ⟨rfl, fun c member => by simpa using List.mem_rtakeWhile_imp member⟩
  have whole : withoutTrailingZeros cs ++ cs.rtakeWhile (· = '0') = cs :=
    List.rdropWhile_append_rtakeWhile
  have lengths := congrArg List.length whole
  rw [List.length_append] at lengths
  rw [show cs.length - _ = (cs.rtakeWhile (· = '0')).length by omega, ← zeros, whole]

theorem exists_withoutTrailingZeros (places n : Nat) :
    ∃ ds : List Nat, withoutTrailingZeros (Digits.fixed places n) = ds.map Nat.digitChar ∧
      ∀ d ∈ ds, d < 10 := by
  obtain ⟨ds, written, spelt, -⟩ := Digits.exists_fixed places n
  have kept : withoutTrailingZeros (ds.map Nat.digitChar) <+: ds.map Nat.digitChar :=
    List.rdropWhile_prefix _ _
  refine ⟨ds.take (withoutTrailingZeros (ds.map Nat.digitChar)).length, ?_,
    fun d member => spelt.small d (List.mem_of_mem_take member)⟩
  rw [written, List.map_take]
  exact List.prefix_iff_eq_take.mp kept

-- The digits behind the point are those of the number, but for zeros at the end.
theorem eq_of_withoutTrailingZeros {places n n' : Nat}
    (same : withoutTrailingZeros (Digits.fixed places n) =
      withoutTrailingZeros (Digits.fixed places n')) : n % 10 ^ places = n' % 10 ^ places := by
  obtain ⟨ds, read, number, -⟩ := Digits.take_fixed places n []
  obtain ⟨ds', read', number', -⟩ := Digits.take_fixed places n' []
  obtain ⟨es, written, -, length⟩ := Digits.exists_fixed places n
  obtain ⟨es', written', -, length'⟩ := Digits.exists_fixed places n'
  have lengths : (Digits.fixed places n).length = (Digits.fixed places n').length := by
    rw [written, written', List.length_map, List.length_map, length, length']
  have digits : Digits.fixed places n = Digits.fixed places n' := by
    rw [← withoutTrailingZeros_append (Digits.fixed places n), same, lengths,
      withoutTrailingZeros_append]
  rw [digits, read'] at read
  cases read
  exact number.symm.trans number'

theorem fraction_cases (places n : Nat) :
    (fraction (Digits.fixed places n) = [] ∧ withoutTrailingZeros (Digits.fixed places n) = []) ∨
      fraction (Digits.fixed places n) =
        '.' :: withoutTrailingZeros (Digits.fixed places n) := by
  unfold fraction
  split
  next none => exact .inl ⟨rfl, none⟩
  next => exact .inr rfl

namespace Scale

theorem head_name (scale : Scale) :
    ∃ c rest, scale.name.toList = c :: rest ∧ Digits.value? c = none ∧ c ≠ '.' := by
  cases scale <;> exact ⟨_, _, rfl, by decide, by decide⟩

theorem name_injective {a b : Scale} (same : a.name.toList = b.name.toList) : a = b := by
  revert same
  cases a <;> cases b <;> decide

end Scale

theorem eq_of_fraction {places places' n n' : Nat} {scale scale' : Scale}
    (same : fraction (Digits.fixed places n) ++ scale.name.toList =
      fraction (Digits.fixed places' n') ++ scale'.name.toList) :
    withoutTrailingZeros (Digits.fixed places n) =
        withoutTrailingZeros (Digits.fixed places' n') ∧ scale = scale' := by
  obtain ⟨c, rest, name, noDigit, noPoint⟩ := scale.head_name
  obtain ⟨c', rest', name', noDigit', noPoint'⟩ := scale'.head_name
  obtain ⟨ds, digits, small⟩ := exists_withoutTrailingZeros places n
  obtain ⟨ds', digits', small'⟩ := exists_withoutTrailingZeros places' n'
  rcases fraction_cases places n with ⟨empty, none⟩ | point <;>
    rcases fraction_cases places' n' with ⟨empty', none'⟩ | point'
  · rw [empty, empty', List.nil_append, List.nil_append] at same
    exact ⟨none.trans none'.symm, Scale.name_injective same⟩
  · rw [empty, point', List.nil_append, name] at same
    exact absurd (List.cons.inj same).1 noPoint
  · rw [point, empty', List.nil_append, name'] at same
    exact absurd (List.cons.inj same).1.symm noPoint'
  · rw [point, point', digits, digits'] at same
    obtain ⟨equal, names⟩ := Digits.eq_of_map_append small small' (by simpa [name] using noDigit)
      (by simpa [name'] using noDigit') (List.cons.inj same).2
    exact ⟨by rw [digits, digits', equal], Scale.name_injective names⟩

theorem toList_text (d : Duration) : d.text.toList =
    Nat.toDigits 10 (d.nanos / 10 ^ (Scale.ofNanos d.nanos).places)
      ++ (fraction (Digits.fixed (Scale.ofNanos d.nanos).places
          (d.nanos % 10 ^ (Scale.ofNanos d.nanos).places))
        ++ (Scale.ofNanos d.nanos).name.toList) := by
  simp [text, toString, Nat.repr]

theorem value?_head_fraction (places n : Nat) (scale : Scale) :
    ∀ c ∈ (fraction (Digits.fixed places n) ++ scale.name.toList).head?,
      Digits.value? c = none := by
  obtain ⟨c, rest, name, noDigit, -⟩ := scale.head_name
  rcases fraction_cases places n with ⟨empty, -⟩ | point
  · simpa [empty, name] using noDigit
  · intro c member
    obtain rfl : '.' = c := by simpa [point] using member
    decide

theorem text_injective {d d' : Duration} (same : d.text = d'.text) : d = d' := by
  have texts := congrArg String.toList same
  rw [toList_text, toList_text] at texts
  obtain ⟨ds, written, spelt, -, -⟩ := Digits.exists_toDigits (by decide : 1 < 10)
    (d.nanos / 10 ^ (Scale.ofNanos d.nanos).places)
  obtain ⟨ds', written', spelt', -, -⟩ := Digits.exists_toDigits (by decide : 1 < 10)
    (d'.nanos / 10 ^ (Scale.ofNanos d'.nanos).places)
  rw [written, written'] at texts
  obtain ⟨rfl, rest⟩ := Digits.eq_of_map_append spelt.small spelt'.small
    (value?_head_fraction _ _ _) (value?_head_fraction _ _ _) texts
  obtain ⟨fractions, scales⟩ := eq_of_fraction rest
  rw [scales] at fractions spelt
  have whole := spelt.value.symm.trans spelt'.value
  have part := eq_of_withoutTrailingZeros fractions
  rw [Nat.mod_mod, Nat.mod_mod] at part
  obtain ⟨n⟩ := d
  obtain ⟨n'⟩ := d'
  exact congrArg ofNanos (by rw [← Nat.div_add_mod n, whole, part, Nat.div_add_mod])

end Duration

end SupervisorApi
