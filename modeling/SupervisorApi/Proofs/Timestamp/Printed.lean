import SupervisorApi.Proofs.Text.Digits
import SupervisorApi.Timestamp.Parser
import SupervisorApi.Timestamp.Printer

set_option autoImplicit false

namespace SupervisorApi

namespace Timestamp

variable {c : Char} {r : List Char} {n : Nat}

theorem isBlank_digitChar {d : Nat} (small : d < 10) : isBlank (Nat.digitChar d) = false := by
  interval_cases d <;> rfl

theorem ne_digitChar {d : Nat} (small : d < 10) (other : Digits.value? c = none) :
    Nat.digitChar d ≠ c := by
  rintro rfl
  rw [Digits.value?_digitChar small] at other
  cases other

theorem skipBlanks_cons (dark : isBlank c = false) : skipBlanks (c :: r) = c :: r := by
  simp [skipBlanks, dark]

-- What stands in digits begins with one, so that nothing is skipped before it.
theorem skipBlanks_digits {ds : List Nat} (small : ∀ d ∈ ds, d < 10) (some : ds ≠ []) :
    skipBlanks (ds.map Nat.digitChar ++ r) = ds.map Nat.digitChar ++ r := by
  cases ds with
  | nil => exact absurd rfl some
  | cons d ds => exact skipBlanks_cons (isBlank_digitChar (small d List.mem_cons_self))

theorem separator_cons (dark : isBlank c = false) : separator c (c :: r) = some r := by
  rw [separator, skipBlanks_cons dark, expect, if_pos rfl]

theorem digits_fixed (width n : Nat) (r : List Char) :
    digits (width + 1) (Digits.fixed (width + 1) n ++ r) = some (n % 10 ^ (width + 1), r) := by
  obtain ⟨ds, taken, value, length⟩ := Digits.take_fixed (width + 1) n r
  unfold digits
  rw [taken]
  split
  next none =>
    cases none
    simp at length
  next same =>
    cases same
    rw [value]

theorem skipBlanks_fixed (width n : Nat) (r : List Char) :
    skipBlanks (Digits.fixed (width + 1) n ++ r) = Digits.fixed (width + 1) n ++ r := by
  obtain ⟨ds, written, spelt, length⟩ := Digits.exists_fixed (width + 1) n
  rw [written]
  refine skipBlanks_digits spelt.small ?_
  rintro rfl
  simp at length

theorem small_fixed (few : n < 100) : small (Digits.fixed 2 n ++ r) = some (n, r) := by
  rw [small, skipBlanks_fixed, digits_fixed, Nat.mod_eq_of_lt (by omega)]

theorem year_signed {ds : List Nat} (spelt : Digits.Spells 10 n ds) (some : ds ≠ [])
    (ends : ∀ c ∈ r.head?, Digits.value? c = none) :
    digits (ds.map Nat.digitChar ++ r).length (ds.map Nat.digitChar ++ r) = .some (n, r) := by
  unfold digits
  rw [Digits.take_map spelt.small (by simp) (.inr ends)]
  split
  next none => exact absurd (Prod.mk.inj none).1 some
  next same =>
    cases same
    rw [spelt.number]

theorem year_yearText (y : Int) (r : List Char) :
    year (yearText y ++ '-' :: r) = some (y, '-' :: r) := by
  unfold yearText
  split
  next four =>
    have few : y.toNat % 10 ^ 4 = y.toNat := Nat.mod_eq_of_lt (by omega)
    have read := digits_fixed 3 y.toNat ('-' :: r)
    rw [few] at read
    unfold year
    rw [skipBlanks_fixed]
    obtain ⟨ds, written, spelt, length⟩ := Digits.exists_fixed 4 y.toNat
    cases ds with
    | nil => simp at length
    | cons d ds =>
      have small := spelt.small d List.mem_cons_self
      rw [written, List.map_cons, List.cons_append]
      split
      next minus => exact absurd (List.cons.inj minus).1 (ne_digitChar small rfl)
      next plus => exact absurd (List.cons.inj plus).1 (ne_digitChar small rfl)
      next =>
        rw [← List.cons_append, ← List.map_cons, ← written, read]
        simp
        omega
  next far =>
    obtain ⟨ds, written, spelt, some⟩ := Digits.exists_atLeast 4 y.natAbs
    have read := year_signed (r := '-' :: r) spelt some (by simp; decide)
    rw [written, List.cons_append]
    split
    next negative =>
      rw [year, skipBlanks_cons (by decide)]
      simp only [read, Option.map_some, Option.some.injEq, Prod.mk.injEq, and_true]
      omega
    next positive =>
      rw [year, skipBlanks_cons (by decide)]
      simp only [read, Option.map_some, Option.some.injEq, Prod.mk.injEq, and_true]
      omega

theorem fraction_fractionText (nano : Nat) {c : Char} (ends : Digits.value? c = none)
    (other : c ≠ '.') (r : List Char) :
    fraction (fractionText nano ++ c :: r) = some (nano % Clock.billion / 1000 * 1000, c :: r) := by
  unfold fractionText
  split
  next zero =>
    subst zero
    simp [fraction, other]
  next =>
    have few : nano % Clock.billion / 1000 % 10 ^ 6 = nano % Clock.billion / 1000 := by
      unfold Clock.billion
      omega
    obtain ⟨ds, written, spelt, length⟩ := Digits.exists_fixed 6 (nano % Clock.billion / 1000)
    rw [few] at spelt
    have taken := Digits.take_map (n := 9) (r := c :: r) spelt.small (by omega)
      (.inr (by simpa using ends))
    unfold fraction
    rw [List.cons_append, written]
    simp only [taken]
    split
    next none =>
      cases none
      simp at length
    next same =>
      cases same
      simp [spelt.number, length, ends]

theorem twoDigits_fixed (few : n < 100) : twoDigits (Digits.fixed 2 n ++ r) = some (n, r) := by
  have first := Nat.mod_lt (n / 10) (by decide : 0 < 10)
  have second := Nat.mod_lt n (by decide : 0 < 10)
  have text : Digits.fixed 2 n = [Digits.char (n / 10 % 10), Digits.char (n % 10)] := rfl
  rw [text, Digits.char_eq first, Digits.char_eq second]
  simp [twoDigits, Digits.value?_digitChar first, Digits.value?_digitChar second]
  omega

theorem offset_signed {c : Char} {sg : Int} {hours minutes : Nat}
    (signed : c = '+' ∧ sg = 1 ∨ c = '-' ∧ sg = -1) (few : hours < 100) (hour : minutes < 60) :
    offset (c :: (Digits.fixed 2 hours ++ ':' :: Digits.fixed 2 minutes)) =
      some (sg * (60 * hours + minutes : Nat), []) := by
  have first := twoDigits_fixed (r := ':' :: Digits.fixed 2 minutes) few
  have second := twoDigits_fixed (r := []) (by omega : minutes < 100)
  have skipped : (':' :: Digits.fixed 2 minutes).dropWhile (fun c => c = ':' || isBlank c) =
      Digits.fixed 2 minutes := by
    have digit := Nat.mod_lt (minutes / 10) (by decide : 0 < 10)
    have text : Digits.fixed 2 minutes =
        [Nat.digitChar (minutes / 10 % 10), Digits.char (minutes % 10)] := by
      rw [← Digits.char_eq digit]
      rfl
    rw [text]
    simp [isBlank_digitChar digit, ne_digitChar digit (c := ':') (by decide)]
  rw [List.append_nil] at second
  rcases signed with ⟨rfl, rfl⟩ | ⟨rfl, rfl⟩
  · have universal : isUniversal ('+' :: (Digits.fixed 2 hours ++ ':' :: Digits.fixed 2 minutes)) =
        false := by
      simp [isUniversal]
    simp [offset, universal, isZulu, sign, first, skipped, second, hour]
  · have universal : isUniversal ('-' :: (Digits.fixed 2 hours ++ ':' :: Digits.fixed 2 minutes)) =
        false := by
      simp [isUniversal]
    simp [offset, universal, isZulu, sign, first, skipped, second, hour]

theorem offset_offsetText {minutes : Int} (low : -1440 < minutes) (high : minutes < 1440) :
    offset (skipBlanks (offsetText minutes)) = some (minutes, []) := by
  have whole : 60 * (minutes.natAbs / 60) + minutes.natAbs % 60 = minutes.natAbs :=
    Nat.div_add_mod _ _
  unfold offsetText
  split
  next negative =>
    have back : -1 * (minutes.natAbs : Int) = minutes := by omega
    rw [skipBlanks_cons (by decide), offset_signed (.inr ⟨rfl, rfl⟩) (by omega) (by omega), whole,
      back]
  next positive =>
    have back : 1 * (minutes.natAbs : Int) = minutes := by omega
    rw [skipBlanks_cons (by decide), offset_signed (.inl ⟨rfl, rfl⟩) (by omega) (by omega), whole,
      back]

theorem secondAndNano_printed {second nano : Nat} (short : second < 60)
    (leap : nano < Clock.billion ∨ (second = 59 ∧ nano < 2 * Clock.billion)) :
    secondAndNano (second + nano / Clock.billion) (nano % Clock.billion / 1000 * 1000) =
      (second, nano / 1000 * 1000) := by
  unfold secondAndNano Clock.billion at *
  split
  · simp; omega
  · simp; omega

theorem daysInMonth_le (year : Int) (month : Nat) : Calendar.daysInMonth year month ≤ 31 := by
  unfold Calendar.daysInMonth
  repeat' split
  all_goals omega

theorem readClock_clockText {c : Clock} (valid : c.isValid = true) :
    readClock (clockText c) = some c.cut := by
  simp only [Clock.isValid, Clock.isDate, Clock.isTime, Clock.isOffset, Bool.and_eq_true,
    Bool.or_eq_true, decide_eq_true_eq] at valid
  obtain ⟨⟨⟨⟨⟨⟨⟨-, -⟩, -⟩, month⟩, -⟩, day⟩, ⟨⟨hour, minute⟩, second⟩, nano⟩, low, high⟩ := valid.1
  have days := daysInMonth_le c.year c.month
  have leap : c.second + c.nano / Clock.billion < 100 := by
    unfold Clock.billion at *
    omega
  have fraction : ∃ sg rest, offsetText c.offsetMinutes = sg :: rest ∧
      fraction (fractionText c.nano ++ sg :: rest) =
        some (c.nano % Clock.billion / 1000 * 1000, sg :: rest) := by
    unfold offsetText
    split
    · exact ⟨_, _, rfl, fraction_fractionText c.nano (by decide) (by decide) _⟩
    · exact ⟨_, _, rfl, fraction_fractionText c.nano (by decide) (by decide) _⟩
  obtain ⟨sg, rest, offset, fraction⟩ := fraction
  have read := offset_offsetText low high
  rw [offset] at read
  have step {α β : Type} (a : α) (f : α → Option β) : (some a >>= f) = f a := rfl
  have dash (s : List Char) : separator '-' ('-' :: s) = some s := separator_cons (by decide)
  have colon (s : List Char) : separator ':' (':' :: s) = some s := separator_cons (by decide)
  have between (s : List Char) : betweenDateAndTime ('T' :: s) = some s := rfl
  have text : clockText c = yearText c.year ++ '-' :: (Digits.fixed 2 c.month
      ++ '-' :: (Digits.fixed 2 c.day ++ 'T' :: (Digits.fixed 2 c.hour
      ++ ':' :: (Digits.fixed 2 c.minute ++ ':' :: (Digits.fixed 2 (c.second + c.nano / Clock.billion)
      ++ (fractionText c.nano ++ sg :: rest)))))) := by
    simp only [clockText, offset, List.append_assoc, List.cons_append]
  rw [text]
  unfold readClock
  -- The date, then the time, then what is left of the second and the offset.
  simp only [year_yearText, step, dash, small_fixed (by omega : c.month < 100),
    small_fixed (by omega : c.day < 100)]
  simp only [between, step, colon, small_fixed (by omega : c.hour < 100),
    small_fixed (by omega : c.minute < 100), small_fixed leap]
  simp only [fraction, step, read, secondAndNano_printed second nano]
  rfl

theorem parse_render (t : Timestamp) : parse t.render = some t.cut := by
  rw [parse, render, String.toList_ofList, readClock_clockText t.valid]
  exact dif_pos (Clock.isValid_cut t.valid)

@[simp] theorem cut_cut (t : Timestamp) : t.cut.cut = t.cut := by
  simp [cut, Clock.cut]

end Timestamp

end SupervisorApi
