import SupervisorApi.Proofs.Model.Leaf
import SupervisorApi.Proofs.Timestamp.Printed

set_option autoImplicit false

namespace SupervisorApi

namespace Timestamp

def micros (t : Timestamp) : Nat :=
  t.nano % Clock.billion / 1000

def HasFraction (text : String) : Prop :=
  '.' ∈ text.toList

section Marks

variable {mark : Char} (other : Digits.value? mark = none)
include other

theorem not_mem_digits {ds : List Nat} (small : ∀ d ∈ ds, d < 10) :
    mark ∉ ds.map Nat.digitChar := by
  intro member
  obtain ⟨d, inside, same⟩ := List.mem_map.mp member
  exact ne_digitChar (small d inside) other same

theorem not_mem_fixed (width n : Nat) : mark ∉ Digits.fixed width n := by
  obtain ⟨ds, written, spelt, -⟩ := Digits.exists_fixed width n
  rw [written]
  exact not_mem_digits other spelt.small

theorem not_mem_atLeast (width n : Nat) : mark ∉ Digits.atLeast width n := by
  obtain ⟨ds, written, spelt, -⟩ := Digits.exists_atLeast width n
  rw [written]
  exact not_mem_digits other spelt.small

end Marks

theorem dot_not_mem_yearText (year : Int) : '.' ∉ yearText year := by
  unfold yearText
  split
  · exact not_mem_fixed rfl 4 _
  · have digits : '.' ∉ Digits.atLeast 4 year.natAbs := not_mem_atLeast rfl 4 year.natAbs
    split <;> simp [digits]

theorem dot_not_mem_offsetText (minutes : Int) : '.' ∉ offsetText minutes := by
  have digits : ∀ n, '.' ∉ Digits.fixed 2 n := not_mem_fixed rfl 2
  unfold offsetText
  split <;> simp [digits]

theorem dot_mem_fractionText_iff (nano : Nat) : '.' ∈ fractionText nano ↔ nano ≠ 0 := by
  unfold fractionText
  split <;> simp_all

theorem hasFraction_render_iff (t : Timestamp) : HasFraction t.render ↔ t.nano ≠ 0 := by
  have digits : ∀ n, '.' ∉ Digits.fixed 2 n := not_mem_fixed rfl 2
  simp only [HasFraction, render, String.toList_ofList, clockText, List.mem_append, List.mem_cons,
    dot_not_mem_yearText, dot_not_mem_offsetText, digits, dot_mem_fractionText_iff]
  simp [nano]

theorem micros_cut (t : Timestamp) : t.cut.micros = t.micros := by
  simp only [micros, nano, cut, Clock.cut, Clock.billion]
  omega

-- Nanoseconds are cut to microseconds in print too, so that only a fraction that goes shows.
theorem render_cut_iff (t : Timestamp) :
    t.cut.render = t.render ↔ t.nano = 0 ∨ 1000 ≤ t.nano := by
  constructor
  · intro same
    have shown := hasFraction_render_iff t
    rw [← same, hasFraction_render_iff] at shown
    simp only [nano, cut, Clock.cut] at shown ⊢
    omega
  · intro enough
    have carried : t.clock.nano / 1000 * 1000 / Clock.billion = t.clock.nano / Clock.billion := by
      unfold Clock.billion
      omega
    have printed : fractionText (t.clock.nano / 1000 * 1000) = fractionText t.clock.nano := by
      have same := micros_cut t
      have left : t.clock.nano / 1000 * 1000 = 0 ↔ t.clock.nano = 0 := by
        unfold nano at enough
        omega
      simp only [micros, nano, cut, Clock.cut] at same
      simp only [fractionText, left, same]
    simp only [render, clockText, cut, Clock.cut, carried, printed]

/-- A timestamp is read back from its text with the date, the time and the offset that it has, and
with its nanoseconds down to the last whole microsecond, in a leap second too. -/
theorem read_to_microsecond (t : Timestamp) (buffered : Bool) :
    ∃ u, Shape.timestamp.decode buffered (.str t.render) = .ok u ∧
      u.clock = { t.clock with nano := t.clock.nano / 1000 * 1000 } ∧
      u.offsetSeconds = t.offsetSeconds ∧ u.epoch = t.epoch ∧
      u.nano = t.nano - t.nano % 1000 ∧ u.micros = t.micros := by
  refine ⟨t.cut, Decode.spelled_render (parse_render t), rfl, rfl, rfl, ?_, micros_cut t⟩
  simp only [nano, cut, Clock.cut]
  omega

/-- A fraction is written exactly when there are nanoseconds. It says something unless these make up no
microsecond of the second: below a microsecond, and at the start of a leap second, its digits are
zeros. The text is written again as it was if there are no nanoseconds or a microsecond of them, and
what has been written again stays as it is. -/
theorem rewritten_iff (t : Timestamp) :
    (HasFraction t.render ↔ t.nano ≠ 0) ∧
    ((HasFraction t.render ↔ t.micros ≠ 0) ↔ t.nano = 0 ∨ t.micros ≠ 0) ∧
    ∃ u, parse t.render = some u ∧ (u.render = t.render ↔ t.nano = 0 ∨ 1000 ≤ t.nano) ∧
      ∃ w, parse u.render = some w ∧ w.render = u.render := by
  refine ⟨hasFraction_render_iff t, ?_, t.cut, parse_render t, render_cut_iff t, t.cut,
    by rw [parse_render, cut_cut], rfl⟩
  rw [hasFraction_render_iff]
  have none : t.nano = 0 → t.micros = 0 := by
    intro zero
    simp [micros, zero]
  tauto

example : (parse "2016-12-31T23:59:60Z").map render = some "2016-12-31T23:59:60.000000+00:00" := by
  cbv

theorem rewritten_otherwise :
    ∃ t u, parse "2024-05-31T16:00:00.000000001Z" = some t ∧ t.micros = 0 ∧ HasFraction t.render ∧
      parse t.render = some u ∧ u.render ≠ t.render := by
  have read : ∃ t, parse "2024-05-31T16:00:00.000000001Z" = some t ∧ t.nano = 1 := by
    refine ⟨_, rfl, rfl⟩
  obtain ⟨t, read, few⟩ := read
  refine ⟨t, t.cut, read, by simp [micros, few, Clock.billion], ?_, parse_render t, ?_⟩
  · rw [hasFraction_render_iff, few]
    decide
  · rw [ne_eq, render_cut_iff, few]
    decide

end Timestamp

end SupervisorApi
