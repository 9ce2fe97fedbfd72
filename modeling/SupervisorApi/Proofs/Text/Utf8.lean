import Mathlib.Tactic.Common
import SupervisorApi.Text.Utf8

set_option autoImplicit false

namespace SupervisorApi

namespace Utf8

open String (utf8EncodeChar)

theorem encode_append (s t : String) : encode (s ++ t) = encode s ++ encode t := by
  simp [encode]

theorem encode_ofList (cs : List Char) : encode (String.ofList cs) = cs.flatMap utf8EncodeChar := by
  simp [encode]

theorem encode_intercalate (separator : String) (texts : List String) :
    encode (separator.intercalate texts) = (encode separator).intercalate (texts.map encode) := by
  induction texts with
  | nil => rfl
  | cons text more ih =>
    cases more with
    | nil => simp
    | cons next rest =>
      simp only [List.map_cons, List.intercalate_cons_cons] at ih ⊢
      rw [String.intercalate_cons_cons, encode_append, encode_append, ih]

theorem toNat_ofNat_of_valid {n : Nat} (valid : n.isValidChar) : (Char.ofNat n).toNat = n := by
  unfold Char.ofNat
  rw [dif_pos valid]
  rfl

theorem toNat_valid (c : Char) : c.toNat.isValidChar :=
  c.valid

theorem encodeChar_of_ascii {c : Char} (ascii : c.toNat < 0x80) :
    utf8EncodeChar c = [UInt8.ofNat c.toNat] := by
  have small : c.toNat ≤ 0x7F := by omega
  simp only [utf8EncodeChar, Char.toNat_val, small, if_true]

theorem eq_ofNat_of_mem {c : Char} {b : UInt8} (ascii : b.toNat < 0x80)
    (member : b ∈ utf8EncodeChar c) : c = Char.ofNat b.toNat := by
  have same : c.toNat = b.toNat := by
    have bound := toNat_valid c
    unfold Nat.isValidChar at bound
    simp only [utf8EncodeChar, Char.toNat_val] at member
    split at member
    next small =>
      rw [List.mem_singleton.mp member, UInt8.toNat_ofNat']
      omega
    next =>
      -- every other byte has its highest bit set
      exfalso
      split at member
      · simp only [List.mem_cons, List.not_mem_nil, or_false] at member
        rcases member with rfl | rfl <;> rw [UInt8.toNat_ofNat'] at ascii <;> omega
      · split at member
        · simp only [List.mem_cons, List.not_mem_nil, or_false] at member
          rcases member with rfl | rfl | rfl <;> rw [UInt8.toNat_ofNat'] at ascii <;> omega
        · simp only [List.mem_cons, List.not_mem_nil, or_false] at member
          rcases member with rfl | rfl | rfl | rfl <;> rw [UInt8.toNat_ofNat'] at ascii <;> omega
  rw [← same, Char.ofNat_toNat]

theorem mem_encode_ascii {s : String} {b : UInt8} (ascii : b.toNat < 0x80) :
    b ∈ encode s ↔ Char.ofNat b.toNat ∈ s.toList := by
  constructor
  · intro member
    obtain ⟨c, present, inside⟩ := List.mem_flatMap.mp member
    rw [← eq_ofNat_of_mem ascii inside]
    exact present
  · intro present
    refine List.mem_flatMap.mpr ⟨_, present, ?_⟩
    have value : (Char.ofNat b.toNat).toNat = b.toNat :=
      toNat_ofNat_of_valid (by unfold Nat.isValidChar; omega)
    rw [encodeChar_of_ascii (by rw [value]; exact ascii), value]
    simp

theorem within_iff {b low high : UInt8} :
    within b low high = true ↔ low.toNat ≤ b.toNat ∧ b.toNat ≤ high.toNat := by
  simp [within, UInt8.le_iff_toNat_le]

theorem not_within {b low high : UInt8} (outside : b.toNat < low.toNat ∨ high.toNat < b.toNat) :
    within b low high = false := by
  rw [Bool.eq_false_iff, ne_eq, within_iff]
  omega

theorem decodeFrom_one {i : Nat} {a : UInt8} {rest : Bytes} (ascii : a.toNat < 0x80) :
    decodeFrom i (a :: rest) = (decodeFrom (i + 1) rest).map (Char.ofNat a.toNat :: ·) := by
  rw [decodeFrom.eq_def]
  exact if_pos (UInt8.lt_iff_toNat_lt.mpr ascii)

theorem decodeFrom_two {i : Nat} {a b : UInt8} {rest : Bytes}
    (first : within a 0xC2 0xDF = true) (second : isTrail b = true) :
    decodeFrom i (a :: b :: rest) = (decodeFrom (i + 2) rest).map (two a b :: ·) := by
  have large : ¬ a < 0x80 := by
    have := within_iff.mp first
    rw [UInt8.lt_iff_toNat_lt]
    simp at this ⊢
    omega
  rw [decodeFrom.eq_def]
  simp only [large, first, second, if_true, if_false]

theorem decodeFrom_three {i : Nat} {a b c : UInt8} {rest : Bytes}
    (first : within a 0xE0 0xEF = true) (second : isSecondOfThree a b = true)
    (third : isTrail c = true) :
    decodeFrom i (a :: b :: c :: rest) = (decodeFrom (i + 3) rest).map (three a b c :: ·) := by
  have range := within_iff.mp first
  have large : ¬ a < 0x80 := by
    rw [UInt8.lt_iff_toNat_lt]
    simp at range ⊢
    omega
  have above : within a 0xC2 0xDF = false := not_within (by simp at range ⊢; omega)
  rw [decodeFrom.eq_def]
  simp only [large, above, first, second, third, if_true, if_false, Bool.false_eq_true]

theorem decodeFrom_four {i : Nat} {a b c d : UInt8} {rest : Bytes}
    (first : within a 0xF0 0xF4 = true) (second : isSecondOfFour a b = true)
    (third : isTrail c = true) (fourth : isTrail d = true) :
    decodeFrom i (a :: b :: c :: d :: rest) =
      (decodeFrom (i + 4) rest).map (four a b c d :: ·) := by
  have range := within_iff.mp first
  have large : ¬ a < 0x80 := by
    rw [UInt8.lt_iff_toNat_lt]
    simp at range ⊢
    omega
  have beyond : within a 0xC2 0xDF = false := not_within (by simp at range ⊢; omega)
  have above : within a 0xE0 0xEF = false := not_within (by simp at range ⊢; omega)
  rw [decodeFrom.eq_def]
  simp only [large, beyond, above, first, second, third, fourth, if_true, if_false,
    Bool.false_eq_true]

theorem toNat_byte {n : Nat} (small : n < 256) : (UInt8.ofNat n).toNat = n := by
  rw [UInt8.toNat_ofNat', Nat.mod_eq_of_lt small]

theorem ofNat_eq {n : Nat} {c : Char} (same : n = c.toNat) : Char.ofNat n = c := by
  rw [same, Char.ofNat_toNat]

theorem isTrail_byte (n : Nat) : isTrail (UInt8.ofNat (n % 64 + 128)) = true := by
  rw [isTrail, within_iff, toNat_byte (by omega)]
  simp
  omega

variable {c : Char}

theorem decodeFrom_encodeTwo (i : Nat) (rest : Bytes) (large : 0x7F < c.toNat)
    (small : c.toNat ≤ 0x7FF) :
    decodeFrom i (UInt8.ofNat (c.toNat / 64 % 32 + 192) :: UInt8.ofNat (c.toNat % 64 + 128) ::
      rest) = (decodeFrom (i + 2) rest).map (c :: ·) := by
  have first : within (UInt8.ofNat (c.toNat / 64 % 32 + 192)) 0xC2 0xDF = true := by
    rw [within_iff, toNat_byte (by omega)]
    simp
    omega
  have whole : two (UInt8.ofNat (c.toNat / 64 % 32 + 192))
      (UInt8.ofNat (c.toNat % 64 + 128)) = c := by
    unfold two tail
    apply ofNat_eq
    rw [toNat_byte (by omega), toNat_byte (by omega)]
    omega
  rw [decodeFrom_two first (isTrail_byte _), whole]

theorem decodeFrom_encodeThree (i : Nat) (rest : Bytes) (large : 0x7FF < c.toNat)
    (small : c.toNat ≤ 0xFFFF) :
    decodeFrom i (UInt8.ofNat (c.toNat / 4096 % 16 + 224) ::
      UInt8.ofNat (c.toNat / 64 % 64 + 128) :: UInt8.ofNat (c.toNat % 64 + 128) :: rest) =
        (decodeFrom (i + 3) rest).map (c :: ·) := by
  have bound := toNat_valid c
  unfold Nat.isValidChar at bound
  have first : within (UInt8.ofNat (c.toNat / 4096 % 16 + 224)) 0xE0 0xEF = true := by
    rw [within_iff, toNat_byte (by omega)]
    simp
    omega
  have second : isSecondOfThree (UInt8.ofNat (c.toNat / 4096 % 16 + 224))
      (UInt8.ofNat (c.toNat / 64 % 64 + 128)) = true := by
    rw [isSecondOfThree, within_iff, toNat_byte (by omega)]
    simp only [← UInt8.toNat_inj, toNat_byte (show c.toNat / 4096 % 16 + 224 < 256 by omega)]
    simp
    split <;> split <;> simp <;> omega
  have whole : three (UInt8.ofNat (c.toNat / 4096 % 16 + 224))
      (UInt8.ofNat (c.toNat / 64 % 64 + 128)) (UInt8.ofNat (c.toNat % 64 + 128)) = c := by
    unfold three tail
    apply ofNat_eq
    rw [toNat_byte (by omega), toNat_byte (by omega), toNat_byte (by omega)]
    omega
  rw [decodeFrom_three first second (isTrail_byte _), whole]

theorem decodeFrom_encodeFour (i : Nat) (rest : Bytes) (large : 0xFFFF < c.toNat) :
    decodeFrom i (UInt8.ofNat (c.toNat / 262144 % 8 + 240) ::
      UInt8.ofNat (c.toNat / 4096 % 64 + 128) :: UInt8.ofNat (c.toNat / 64 % 64 + 128) ::
        UInt8.ofNat (c.toNat % 64 + 128) :: rest) = (decodeFrom (i + 4) rest).map (c :: ·) := by
  have bound := toNat_valid c
  unfold Nat.isValidChar at bound
  have first : within (UInt8.ofNat (c.toNat / 262144 % 8 + 240)) 0xF0 0xF4 = true := by
    rw [within_iff, toNat_byte (by omega)]
    simp
    omega
  have second : isSecondOfFour (UInt8.ofNat (c.toNat / 262144 % 8 + 240))
      (UInt8.ofNat (c.toNat / 4096 % 64 + 128)) = true := by
    rw [isSecondOfFour, within_iff, toNat_byte (by omega)]
    simp only [← UInt8.toNat_inj, toNat_byte (show c.toNat / 262144 % 8 + 240 < 256 by omega)]
    simp
    split <;> split <;> simp <;> omega
  have whole : four (UInt8.ofNat (c.toNat / 262144 % 8 + 240))
      (UInt8.ofNat (c.toNat / 4096 % 64 + 128)) (UInt8.ofNat (c.toNat / 64 % 64 + 128))
      (UInt8.ofNat (c.toNat % 64 + 128)) = c := by
    unfold four tail
    apply ofNat_eq
    rw [toNat_byte (by omega), toNat_byte (by omega), toNat_byte (by omega),
      toNat_byte (by omega)]
    omega
  rw [decodeFrom_four first second (isTrail_byte _) (isTrail_byte _), whole]

theorem decodeFrom_encodeChar (i : Nat) (c : Char) (rest : Bytes) :
    decodeFrom i (utf8EncodeChar c ++ rest) =
      (decodeFrom (i + (utf8EncodeChar c).length) rest).map (c :: ·) := by
  simp only [utf8EncodeChar, Char.toNat_val]
  split
  next =>
    rw [List.singleton_append, decodeFrom_one (by rw [toNat_byte] <;> omega),
      toNat_byte (by omega), Char.ofNat_toNat]
    rfl
  next =>
    split
    next => exact decodeFrom_encodeTwo i rest (by omega) (by omega)
    next =>
      split
      next => exact decodeFrom_encodeThree i rest (by omega) (by omega)
      next => exact decodeFrom_encodeFour i rest (by omega)

theorem decodeFrom_encode (i : Nat) (cs : List Char) :
    decodeFrom i (cs.flatMap utf8EncodeChar) = .ok cs := by
  induction cs generalizing i with
  | nil => rfl
  | cons c cs ih => rw [List.flatMap_cons, decodeFrom_encodeChar, ih]; rfl

theorem ofNat_byte {n : Nat} {a : UInt8} (same : n = a.toNat) : UInt8.ofNat n = a := by
  rw [same, UInt8.ofNat_toNat]

theorem encodeChar_two {a b : UInt8} (first : within a 0xC2 0xDF = true)
    (second : isTrail b = true) : utf8EncodeChar (two a b) = [a, b] := by
  rw [isTrail, within_iff] at second
  rw [within_iff] at first
  simp at first second
  have value : (two a b).toNat = (a.toNat - 0xC0) * 64 + (b.toNat - 0x80) :=
    toNat_ofNat_of_valid (by unfold Nat.isValidChar tail; omega)
  simp only [utf8EncodeChar, Char.toNat_val]
  rw [if_neg (by omega), if_pos (by omega), value, ofNat_byte (a := a) (by omega),
    ofNat_byte (a := b) (by omega)]

theorem encodeChar_three {a b c : UInt8} (first : within a 0xE0 0xEF = true)
    (second : isSecondOfThree a b = true) (third : isTrail c = true) :
    utf8EncodeChar (three a b c) = [a, b, c] := by
  rw [isTrail, within_iff] at third
  rw [isSecondOfThree, within_iff] at second
  rw [within_iff] at first
  simp only [← UInt8.toNat_inj] at second
  simp at first second third
  -- no overlong form on the left, no surrogate on the right
  have low : 0x80 ≤ b.toNat ∧ (a.toNat = 0xE0 → 0xA0 ≤ b.toNat) := by
    have := second.1
    split at this <;> simp at this <;> omega
  have high : b.toNat ≤ 0xBF ∧ (a.toNat = 0xED → b.toNat ≤ 0x9F) := by
    have := second.2
    split at this <;> simp at this <;> omega
  have value : (three a b c).toNat =
      (a.toNat - 0xE0) * 4096 + (b.toNat - 0x80) * 64 + (c.toNat - 0x80) :=
    toNat_ofNat_of_valid (by unfold Nat.isValidChar tail; omega)
  simp only [utf8EncodeChar, Char.toNat_val]
  rw [if_neg (by omega), if_neg (by omega), if_pos (by omega), value,
    ofNat_byte (a := a) (by omega), ofNat_byte (a := b) (by omega),
    ofNat_byte (a := c) (by omega)]

theorem encodeChar_four {a b c d : UInt8} (first : within a 0xF0 0xF4 = true)
    (second : isSecondOfFour a b = true) (third : isTrail c = true) (fourth : isTrail d = true) :
    utf8EncodeChar (four a b c d) = [a, b, c, d] := by
  rw [isTrail, within_iff] at third fourth
  rw [isSecondOfFour, within_iff] at second
  rw [within_iff] at first
  simp only [← UInt8.toNat_inj] at second
  simp at first second third fourth
  have low : 0x80 ≤ b.toNat ∧ (a.toNat = 0xF0 → 0x90 ≤ b.toNat) := by
    have := second.1
    split at this <;> simp at this <;> omega
  have high : b.toNat ≤ 0xBF ∧ (a.toNat = 0xF4 → b.toNat ≤ 0x8F) := by
    have := second.2
    split at this <;> simp at this <;> omega
  have value : (four a b c d).toNat = (a.toNat - 0xF0) * 262144 + (b.toNat - 0x80) * 4096 +
      (c.toNat - 0x80) * 64 + (d.toNat - 0x80) :=
    toNat_ofNat_of_valid (by unfold Nat.isValidChar tail; omega)
  simp only [utf8EncodeChar, Char.toNat_val]
  rw [if_neg (by omega), if_neg (by omega), if_neg (by omega), value,
    ofNat_byte (a := a) (by omega), ofNat_byte (a := b) (by omega),
    ofNat_byte (a := c) (by omega), ofNat_byte (a := d) (by omega)]

theorem ok_of_map {c : Char} {r : Except Fault (List Char)} {cs : List Char}
    (read : r.map (c :: ·) = .ok cs) : ∃ ds, r = .ok ds ∧ cs = c :: ds := by
  cases r with
  | error _ => cases read
  | ok ds => cases read; exact ⟨ds, rfl, rfl⟩

theorem encode_of_decodeFrom {i : Nat} {bs : Bytes} {cs : List Char}
    (read : decodeFrom i bs = .ok cs) : cs.flatMap utf8EncodeChar = bs := by
  fun_induction decodeFrom i bs generalizing cs with
  | case1 => cases read; rfl
  | case2 i a rest ascii ih =>
    obtain ⟨ds, tail, rfl⟩ := ok_of_map read
    have small : a.toNat < 0x80 := UInt8.lt_iff_toNat_lt.mp ascii
    have value : (Char.ofNat a.toNat).toNat = a.toNat :=
      toNat_ofNat_of_valid (by unfold Nat.isValidChar; omega)
    rw [List.flatMap_cons, ih tail, encodeChar_of_ascii (by omega), value, UInt8.ofNat_toNat]
    rfl
  | case4 i a _ first b rest second ih =>
    obtain ⟨ds, tail, rfl⟩ := ok_of_map read
    rw [List.flatMap_cons, ih tail, encodeChar_two first second]
    rfl
  | case8 i a _ _ first b second c rest third ih =>
    obtain ⟨ds, tail, rfl⟩ := ok_of_map read
    rw [List.flatMap_cons, ih tail, encodeChar_three first second third]
    rfl
  | case14 i a _ _ _ first b second c third d rest fourth ih =>
    obtain ⟨ds, tail, rfl⟩ := ok_of_map read
    rw [List.flatMap_cons, ih tail, encodeChar_four first second third fourth]
    rfl
  -- everywhere else reading stops with a fault
  | _ => cases read

theorem decode_eq_ok_iff {bs : Bytes} {s : String} : decode bs = .ok s ↔ encode s = bs := by
  constructor
  · intro read
    unfold decode at read
    cases result : decodeFrom 0 bs with
    | error _ => rw [result] at read; cases read
    | ok cs =>
      rw [result] at read
      cases read
      rw [encode_ofList]
      exact encode_of_decodeFrom result
  · rintro rfl
    unfold decode encode
    rw [decodeFrom_encode]
    exact congrArg Except.ok String.ofList_toList

theorem decode?_encode (s : String) : decode? (encode s) = some s := by
  rw [decode?, decode_eq_ok_iff.mpr rfl, Except.toOption]

theorem encode_injective {s t : String} (same : encode s = encode t) : s = t := by
  have both := (decode_eq_ok_iff.mpr same).symm.trans (decode_eq_ok_iff.mpr rfl)
  exact Except.ok.inj both

theorem encode_ne_nil {s : String} (some : s ≠ "") : encode s ≠ [] := by
  intro none
  exact some (encode_injective (none.trans (by rfl)))

theorem cons_lt_cons_byte {m n : Nat} {s t : Bytes} (first : m < 256) (second : n < 256) :
    UInt8.ofNat m :: s < UInt8.ofNat n :: t ↔ m < n ∨ m = n ∧ s < t := by
  rw [List.cons_lt_cons_iff, UInt8.lt_iff_toNat_lt, ← UInt8.toNat_inj, toNat_byte first,
    toNat_byte second]

-- Numbers are compared by what is above their last six bits, and then by these.
theorem div_lt_div_iff {m n : Nat} (k : Nat) :
    m / k < n / k ↔
      m / (k * 64) < n / (k * 64) ∨ m / (k * 64) = n / (k * 64) ∧ m / k % 64 < n / k % 64 := by
  rw [← Nat.div_div_eq_div_mul, ← Nat.div_div_eq_div_mul]
  omega

theorem div_eq_div_iff {m n : Nat} (k : Nat) :
    m / k = n / k ↔ m / (k * 64) = n / (k * 64) ∧ m / k % 64 = n / k % 64 := by
  rw [← Nat.div_div_eq_div_mul, ← Nat.div_div_eq_div_mul]
  omega

theorem encodeFour_append_lt (s t : Bytes) {m n : Nat} (less : m < n) (small : n < 0x110000) :
    [UInt8.ofNat (m / 262144 % 8 + 240), UInt8.ofNat (m / 4096 % 64 + 128),
        UInt8.ofNat (m / 64 % 64 + 128), UInt8.ofNat (m % 64 + 128)] ++ s <
      [UInt8.ofNat (n / 262144 % 8 + 240), UInt8.ofNat (n / 4096 % 64 + 128),
        UInt8.ofNat (n / 64 % 64 + 128), UInt8.ofNat (n % 64 + 128)] ++ t := by
  have first {k : Nat} (below : k < 0x110000) : k / 262144 % 8 = k / 262144 := by omega
  have digits : m / 64 < n / 64 ∨ m / 64 = n / 64 ∧ m % 64 < n % 64 := by omega
  rw [div_lt_div_iff 64, div_eq_div_iff 64, div_lt_div_iff 4096, div_eq_div_iff 4096] at digits
  simp (disch := omega) only [List.cons_append, List.nil_append, cons_lt_cons_byte,
    first (Nat.lt_trans less small), first small, Nat.add_lt_add_iff_right,
    Nat.add_right_cancel_iff]
  rcases digits with
    ((first | ⟨same, second⟩) | ⟨⟨same, same'⟩, third⟩) | ⟨⟨⟨same, same'⟩, same''⟩, last⟩
  · exact .inl first
  · exact .inr ⟨same, .inl second⟩
  · exact .inr ⟨same, .inr ⟨same', .inl third⟩⟩
  · exact .inr ⟨same, .inr ⟨same', .inr ⟨same'', .inl last⟩⟩⟩

theorem encodeChar_append_lt {d : Char} (before : c < d) (s t : Bytes) :
    utf8EncodeChar c ++ s < utf8EncodeChar d ++ t := by
  have less : c.toNat < d.toNat := UInt32.lt_iff_toNat_lt.mp before
  have bound := toNat_valid d
  unfold Nat.isValidChar at bound
  simp only [utf8EncodeChar, Char.toNat_val]
  by_cases long : 0xFFFF < c.toNat
  · rw [if_neg (by omega), if_neg (by omega), if_neg (by omega), if_neg (by omega),
      if_neg (by omega), if_neg (by omega)]
    exact encodeFour_append_lt s t less (by omega)
  · -- the first byte tells lengths apart
    repeat' split
    all_goals
      simp (disch := omega) only [List.cons_append, List.nil_append, cons_lt_cons_byte]
      omega

theorem flatMap_lt_flatMap {cs ds : List Char} (before : cs < ds) :
    cs.flatMap utf8EncodeChar < ds.flatMap utf8EncodeChar := by
  induction ds generalizing cs with
  | nil => exact absurd before (List.not_lt_nil cs)
  | cons d ds ih =>
    cases cs with
    | nil =>
      obtain ⟨b, rest, bytes⟩ := List.exists_cons_of_ne_nil (String.utf8EncodeChar_ne_nil (c := d))
      rw [List.flatMap_cons, bytes]
      exact List.nil_lt_cons b _
    | cons c cs =>
      rw [List.flatMap_cons, List.flatMap_cons]
      rcases List.cons_lt_cons_iff.mp before with first | ⟨rfl, rest⟩
      · exact encodeChar_append_lt first _ _
      · exact List.append_left_lt (ih rest)

theorem encode_lt_encode_iff {s t : String} : encode s < encode t ↔ s < t := by
  have forth {s t : String} (before : s < t) : encode s < encode t :=
    flatMap_lt_flatMap (String.lt_iff.mp before)
  refine ⟨fun less => ?_, forth⟩
  by_contra other
  have back : t ≤ s := other
  by_cases same : s = t
  · exact List.lt_irrefl _ (same ▸ less)
  · exact List.lt_asymm less (forth (Std.lt_of_le_of_ne back (Ne.symm same)))

end Utf8

end SupervisorApi
