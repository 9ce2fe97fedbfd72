import SupervisorApi.Json.Numeral

/-!
JSON text as tokens. `tokens` never fails: where no token can be read it ends with `broken`, so that
a reader meets a fault in the text exactly when it gets there.
-/

set_option autoImplicit false

namespace SupervisorApi

-- A byte of a quoted text, or a UTF-16 unit written as `\uXXXX`.
inductive Piece where
  | byte (b : UInt8)
  | unit (u : Nat)
  deriving DecidableEq, Repr

inductive Token where
  | lbrace
  | rbrace
  | lbracket
  | rbracket
  | comma
  | colon
  | null
  | bool (b : Bool)
  | num (n : Numeral)
  | str (pieces : List Piece)
  | broken
  deriving DecidableEq, Repr

namespace Piece

def isLeading (u : Nat) : Bool :=
  0xD800 ≤ u && u < 0xDC00

def isTrailing (u : Nat) : Bool :=
  0xDC00 ≤ u && u < 0xE000

def charBytes (code : Nat) : Bytes :=
  String.utf8EncodeChar (Char.ofNat code)

-- The bytes of a quoted text. A leading surrogate must be followed by a trailing one.
def bytes : List Piece → Option Bytes
  | [] => some []
  | .byte b :: rest => (bytes rest).map (b :: ·)
  | .unit u :: rest =>
    if isTrailing u then none
    else if isLeading u then
      match rest with
      | .unit v :: rest =>
        if isTrailing v then
          (bytes rest).map (charBytes (0x10000 + (u - 0xD800) * 0x400 + (v - 0xDC00)) ++ ·)
        else none
      | _ => none
    else (bytes rest).map (charBytes u ++ ·)

def text (pieces : List Piece) : Option String :=
  (bytes pieces).bind Utf8.decode?

end Piece

namespace Token

def isBlank (b : UInt8) : Bool :=
  b = 32 || b = 10 || b = 9 || b = 13

def hexValue (b : UInt8) : Option Nat :=
  if 48 ≤ b && b ≤ 57 then some (b.toNat - 48)
  else if 97 ≤ b && b ≤ 102 then some (b.toNat - 87)
  else if 65 ≤ b && b ≤ 70 then some (b.toNat - 55)
  else none

def hexUnit (a b c d : UInt8) : Option Nat := do
  let a ← hexValue a
  let b ← hexValue b
  let c ← hexValue c
  let d ← hexValue d
  return a * 4096 + b * 256 + c * 16 + d

def escaped (b : UInt8) : Option UInt8 :=
  if b = 34 ∨ b = 92 ∨ b = 47 then some b
  else if b = 98 then some 8
  else if b = 102 then some 12
  else if b = 110 then some 10
  else if b = 114 then some 13
  else if b = 116 then some 9
  else none

def scanQuoted : Bytes → Option (List Piece × Bytes)
  | [] => none
  | b :: rest =>
    if b = 34 then some ([], rest)
    else if b = 92 then
      match rest with
      | [] => none
      | e :: rest =>
        if e = 117 then
          match rest with
          | w :: x :: y :: z :: rest =>
            match hexUnit w x y z with
            | some u => (scanQuoted rest).map fun (ps, r) => (.unit u :: ps, r)
            | none => none
          | _ => none
        else
          match escaped e with
          | some c => (scanQuoted rest).map fun (ps, r) => (.byte c :: ps, r)
          | none => none
    else if b < 32 then none
    else (scanQuoted rest).map fun (ps, r) => (.byte b :: ps, r)

def scanName (name : Bytes) (t : Token) (s : Bytes) : Option (Token × Bytes) :=
  if name.isPrefixOf s then some (t, s.drop name.length) else none

def mark (b : UInt8) : Option Token :=
  if b = 123 then some .lbrace
  else if b = 125 then some .rbrace
  else if b = 91 then some .lbracket
  else if b = 93 then some .rbracket
  else if b = 44 then some .comma
  else if b = 58 then some .colon
  else none

def scanOne : Bytes → Option (Token × Bytes)
  | [] => none
  | b :: rest =>
    match mark b with
    | some t => some (t, rest)
    | none =>
      if b = 34 then (scanQuoted rest).map fun q => (.str q.1, q.2)
      else if b = 110 then scanName [117, 108, 108] .null rest
      else if b = 116 then scanName [114, 117, 101] (.bool true) rest
      else if b = 102 then scanName [97, 108, 115, 101] (.bool false) rest
      else if b = 45 then (Numeral.scanUnsigned true rest).map fun q => (.num q.1, q.2)
      else (Numeral.scanUnsigned false (b :: rest)).map fun q => (.num q.1, q.2)

theorem scanQuoted_length {s r : Bytes} {ps : List Piece} (h : scanQuoted s = some (ps, r)) :
    r.length < s.length := by
  fun_induction scanQuoted s generalizing ps with
  | case1 | case3 | case5 | case6 | case8 | case9 => simp at h
  | case2 => simp at h; simp [h.2]
  | case4 =>
    rename_i ih
    obtain ⟨q, hq, he⟩ := Option.map_eq_some_iff.1 h
    cases he
    have := ih hq
    simp only [List.length_cons]; omega
  | case7 =>
    rename_i ih
    obtain ⟨q, hq, he⟩ := Option.map_eq_some_iff.1 h
    cases he
    have := ih hq
    simp only [List.length_cons]; omega
  | case10 =>
    rename_i ih
    obtain ⟨q, hq, he⟩ := Option.map_eq_some_iff.1 h
    cases he
    have := ih hq
    simp only [List.length_cons]; omega

theorem scanName_length {name s r : Bytes} {t u : Token} (h : scanName name t s = some (u, r)) :
    r.length ≤ s.length := by
  unfold scanName at h
  split at h
  · cases h; simp
  · simp at h

theorem scanOne_length {s r : Bytes} {t : Token} (h : scanOne s = some (t, r)) :
    r.length < s.length := by
  unfold scanOne at h
  split at h
  · simp at h
  · next b rest =>
    have wider {r : Bytes} (h : r.length ≤ rest.length) : r.length < (b :: rest).length :=
      Nat.lt_succ_of_le h
    split at h
    · cases h; exact wider (Nat.le_refl _)
    · split at h
      · obtain ⟨q, hq, he⟩ := Option.map_eq_some_iff.1 h
        cases he
        exact wider (Nat.le_of_lt (scanQuoted_length hq))
      · split at h
        · exact wider (scanName_length h)
        · split at h
          · exact wider (scanName_length h)
          · split at h
            · exact wider (scanName_length h)
            · split at h
              · obtain ⟨q, hq, he⟩ := Option.map_eq_some_iff.1 h
                cases he
                exact wider (Nat.le_of_lt (Numeral.scanUnsigned_length hq))
              · obtain ⟨q, hq, he⟩ := Option.map_eq_some_iff.1 h
                cases he
                exact Numeral.scanUnsigned_length hq

def tokens (s : Bytes) : List Token :=
  match h : scanOne (s.dropWhile isBlank) with
  | some (t, r) =>
    have := scanOne_length h
    have := (List.dropWhile_sublist isBlank (l := s)).length_le
    t :: tokens r
  | none => if (s.dropWhile isBlank).isEmpty then [] else [.broken]
termination_by s.length

end Token

end SupervisorApi
