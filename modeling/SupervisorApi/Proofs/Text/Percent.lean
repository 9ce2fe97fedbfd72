import Mathlib.Tactic.Common
import SupervisorApi.Proofs.Text.Utf8
import SupervisorApi.Text.Percent

set_option autoImplicit false

namespace SupervisorApi

namespace Percent

theorem decode_cons_of_ne {a : UInt8} (plain : a ≠ sign) (rest : Bytes) :
    decode (a :: rest) = a :: decode rest := by
  match rest with
  | [] | [_] => rfl
  | _ :: _ :: _ => rw [decode, if_neg plain]

theorem byte?_of_left {high : UInt8} (low : UInt8) (other : value? high = none) :
    byte? high low = none := by
  simp [byte?, other]

theorem byte?_of_right (high : UInt8) {low : UInt8} (other : value? low = none) :
    byte? high low = none := by
  cases digit : value? high <;> simp [byte?, digit, other]

theorem decode_cons_of_broken {a b : UInt8} {rest : Bytes}
    (broken : ∀ c ∈ rest.head?, byte? b c = none) :
    decode (a :: b :: rest) = a :: decode (b :: rest) := by
  cases rest with
  | nil => rfl
  | cons c rest => simp [decode, broken c rfl]

theorem decode_append_cons {mark : UInt8} (plain : mark ≠ sign) (other : value? mark = none)
    (s t : Bytes) : decode (s ++ mark :: t) = decode s ++ mark :: decode t := by
  have single (a : UInt8) : decode (a :: mark :: t) = a :: mark :: decode t := by
    rw [decode_cons_of_broken fun c _ => byte?_of_left c other, decode_cons_of_ne plain]
  fun_induction decode s with
  | case1 => exact decode_cons_of_ne plain t
  | case2 a => exact single a
  | case3 a b =>
    have broken : ∀ c ∈ (mark :: t).head?, byte? b c = none := by
      intro c first
      cases first
      exact byte?_of_right b other
    rw [List.cons_append, List.singleton_append, decode_cons_of_broken broken, single]
    rfl
  | case4 b c rest x digits ih => simp [decode, digits, ih]
  | case5 b c rest digits ih =>
    rw [List.cons_append, List.cons_append, List.cons_append, decode, digits]
    simpa using ih
  | case6 a b c rest normal ih =>
    rw [List.cons_append, decode_cons_of_ne normal, ih, List.cons_append]

def isWritten (c : Char) : Bool :=
  (c.toNat < 0x80 && isUnreserved (UInt8.ofNat c.toNat)) || c = '%'

theorem isWritten_digit : ∀ d < 16, isWritten (digit d) = true := by
  decide

theorem toNat_lt_of_isUnreserved {b : UInt8} (plain : isUnreserved b = true) : b.toNat < 0x80 := by
  simp only [isUnreserved, Bool.or_eq_true, Bool.and_eq_true, decide_eq_true_eq] at plain
  omega

theorem ne_sign_of_isUnreserved {b : UInt8} (plain : isUnreserved b = true) : b ≠ sign := by
  rintro rfl
  exact absurd plain (by decide)

theorem toNat_ofNat_of_isUnreserved {b : UInt8} (plain : isUnreserved b = true) :
    (Char.ofNat b.toNat).toNat = b.toNat := by
  have small := toNat_lt_of_isUnreserved plain
  exact Utf8.toNat_ofNat_of_valid (by unfold Nat.isValidChar; omega)

theorem isWritten_encodeByte {b : UInt8} {c : Char} (member : c ∈ encodeByte b) :
    isWritten c = true := by
  unfold encodeByte at member
  split at member
  next plain =>
    rw [List.mem_singleton.mp member, isWritten, toNat_ofNat_of_isUnreserved plain,
      UInt8.ofNat_toNat, plain]
    simp [toNat_lt_of_isUnreserved plain]
  next =>
    have high := isWritten_digit (b.toNat / 16) (by have := b.toNat_lt; omega)
    have low := isWritten_digit (b.toNat % 16) (by omega)
    simp only [List.mem_cons, List.not_mem_nil, or_false] at member
    rcases member with rfl | rfl | rfl
    · decide
    · exact high
    · exact low

theorem isWritten_encode {s : String} {c : Char} (member : c ∈ (encode s).toList) :
    isWritten c = true := by
  rw [encode, String.toList_ofList, encodeBytes] at member
  obtain ⟨b, -, inside⟩ := List.mem_flatMap.mp member
  exact isWritten_encodeByte inside

theorem not_mem_encode {mark : UInt8} (ascii : mark.toNat < 0x80)
    (other : isWritten (Char.ofNat mark.toNat) = false) (s : String) :
    mark ∉ Utf8.encode (encode s) := by
  intro member
  rw [Utf8.mem_encode_ascii ascii] at member
  rw [isWritten_encode member] at other
  cases other

theorem value?_digit : ∀ d < 16, (digit d).toNat < 0x80 ∧
    value? (UInt8.ofNat (digit d).toNat) = some d := by
  decide

theorem decode_encodeByte (b : UInt8) (rest : Bytes) :
    decode ((encodeByte b).flatMap String.utf8EncodeChar ++ rest) = b :: decode rest := by
  unfold encodeByte
  split
  next plain =>
    have value := toNat_ofNat_of_isUnreserved plain
    have small : (Char.ofNat b.toNat).toNat < 0x80 := by
      rw [value]
      exact toNat_lt_of_isUnreserved plain
    rw [List.flatMap_singleton, Utf8.encodeChar_of_ascii small, value, UInt8.ofNat_toNat,
      List.singleton_append, decode_cons_of_ne (ne_sign_of_isUnreserved plain)]
  next =>
    have size := b.toNat_lt
    obtain ⟨highSmall, high⟩ := value?_digit (b.toNat / 16) (by omega)
    obtain ⟨lowSmall, low⟩ := value?_digit (b.toNat % 16) (by omega)
    have whole : 16 * (b.toNat / 16) + b.toNat % 16 = b.toNat := Nat.div_add_mod _ _
    have byte : byte? (UInt8.ofNat (digit (b.toNat / 16)).toNat)
        (UInt8.ofNat (digit (b.toNat % 16)).toNat) = some b := by
      simp only [byte?, high, low, Option.bind_eq_bind, Option.bind_some, whole,
        UInt8.ofNat_toNat, Option.pure_def]
    have mark : String.utf8EncodeChar '%' = [sign] := by decide
    simp only [List.flatMap_cons, List.flatMap_nil, mark, Utf8.encodeChar_of_ascii highSmall,
      Utf8.encodeChar_of_ascii lowSmall, List.cons_append, List.nil_append, decode, byte, if_true]

theorem decode_encode (s : String) : decode (Utf8.encode (encode s)) = Utf8.encode s := by
  rw [encode, Utf8.encode_ofList, encodeBytes]
  induction Utf8.encode s with
  | nil => rfl
  | cons b rest ih => rw [List.flatMap_cons, List.flatMap_append, decode_encodeByte, ih]

end Percent

end SupervisorApi
