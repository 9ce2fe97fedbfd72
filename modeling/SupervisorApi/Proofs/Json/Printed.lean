import SupervisorApi.Json.Writer
import SupervisorApi.Proofs.Json.Value
import SupervisorApi.Proofs.Model.Reading
import SupervisorApi.Proofs.Text.Digits
import SupervisorApi.Proofs.Text.Utf8

set_option autoImplicit false

namespace SupervisorApi

namespace Numeral

theorem absorb_of_small {ds : List Nat} {n : Nat}
    (small : ds.foldl (fun n d => 10 * n + d) n < UInt64.size) :
    absorb n ds = (ds.foldl (fun n d => 10 * n + d) n, []) := by
  induction ds generalizing n with
  | nil => rfl
  | cons d ds ih =>
    have grows (ds : List Nat) (n : Nat) : n ≤ ds.foldl (fun n d => 10 * n + d) n := by
      induction ds generalizing n with
      | nil => exact Nat.le_refl n
      | cons d ds ih => exact Nat.le_trans (by omega) (ih (10 * n + d))
    rw [List.foldl_cons] at small ⊢
    have fits : n * 10 + d < UInt64.size := by
      have := grows ds (10 * n + d)
      omega
    rw [absorb, if_pos fits, Nat.mul_comm n 10, ih small]

theorem digitChar_toNat {d : Nat} (small : d < 10) : (Nat.digitChar d).toNat - 48 = d := by
  interval_cases d <;> rfl

theorem exists_decimal (n : Nat) : ∃ ds, Binary64.decimal n = ds ∧ Digits.Spells 10 n ds ∧
    ds ≠ [] ∧ ∀ d rest, ds ≠ 0 :: d :: rest := by
  obtain ⟨ds, written, spelt, some, leading⟩ := Digits.exists_toDigits (by decide : 1 < 10) n
  refine ⟨ds, ?_, spelt, some, leading⟩
  rw [Binary64.decimal, written, List.map_map]
  conv_rhs => rw [← List.map_id ds]
  exact List.map_congr_left fun d member => digitChar_toNat (spelt.small d member)

theorem value_ofInt {n : Int} (low : -(2 ^ 63 : Int) ≤ n) (high : n < 2 ^ 64) :
    (ofInt n).value = some (.int n) := by
  obtain ⟨ds, written, spelt, -, -⟩ := exists_decimal n.natAbs
  have taken : absorb 0 (Binary64.decimal n.natAbs) = (n.natAbs, []) := by
    have value := spelt.value
    rw [written, absorb_of_small (by rw [value]; unfold UInt64.size; omega), value]
  simp only [value, ofInt, taken]
  by_cases negative : n < 0
  · have some : ¬ (n.natAbs = 0 ∨ Nat.pow 2 63 < n.natAbs) := by
      simp only [Nat.pow_eq]
      omega
    have same : -(n.natAbs : Int) = n := by omega
    simp only [negative, decide_true, Bool.not_true, Bool.false_eq_true, ne_eq, not_true, some,
      if_false, same]
  · have same : (n.natAbs : Int) = n := by omega
    simp [negative, same]

theorem scanUnsigned_digits {ds : List Nat} (small : ∀ d ∈ ds, d < 10) (some : ds ≠ [])
    (leading : ∀ d rest, ds ≠ 0 :: d :: rest) (negative : Bool) {r : Bytes} (stops : Token.Stops r) :
    scanUnsigned negative (digitBytes ds ++ r) = .some (⟨negative, ds, none, none⟩, r) := by
  have whole : scanWhole (digitBytes ds ++ r) = .some (ds, r) := by
    rw [scanWhole, someDigits_append some small fun b member => (stops b member).1]
    split
    next zero => cases zero; exact absurd rfl (leading _ _)
    next => rfl
  have fraction : scanFraction r = .some (none, r) := by
    unfold scanFraction
    split
    next => exact absurd rfl (stops _ rfl).2.1
    next => rfl
  have exponent : scanExponent r = .some (none, r) := by
    cases r with
    | nil => rfl
    | cons b r => simp [scanExponent, stops b rfl]
  simp [scanUnsigned, whole, fraction, exponent]

theorem scanOne_digit {d : Nat} (small : d < 10) (s : Bytes) :
    Token.scanOne (UInt8.ofNat (48 + d) :: s) =
      (scanUnsigned false (UInt8.ofNat (48 + d) :: s)).map fun q => (.num q.1, q.2) := by
  interval_cases d <;> rfl

theorem scanOne_ofInt (n : Int) {r : Bytes} (stops : Token.Stops r) :
    Token.scanOne ((ofInt n).render ++ r) = some (.num (ofInt n), r) := by
  obtain ⟨ds, written, spelt, some, leading⟩ := exists_decimal n.natAbs
  have digits := scanUnsigned_digits spelt.small some leading (decide (n < 0)) stops
  simp only [render, ofInt, written, List.append_nil]
  cases negative : decide (n < 0) with
  | true =>
    rw [negative] at digits
    change (scanUnsigned true (digitBytes ds ++ r)).map _ = _
    rw [digits]
    rfl
  | false =>
    rw [negative] at digits
    cases ds with
    | nil => exact absurd rfl some
    | cons d ds =>
      have first := scanOne_digit (spelt.small d List.mem_cons_self) (digitBytes ds ++ r)
      change Token.scanOne (UInt8.ofNat (48 + d) :: (digitBytes ds ++ r)) = _
      change scanUnsigned false (UInt8.ofNat (48 + d) :: (digitBytes ds ++ r)) = _ at digits
      rw [first, digits]
      rfl

end Numeral

namespace Json

open Token (mark scanQuoted)

-- How a byte of a text is read back: controls without a letter of their own stand as units.
def spelled (b : UInt8) : Piece :=
  if b < 32 ∧ b ∉ [8, 9, 10, 12, 13] then .unit b.toNat else .byte b

def spelling (s : String) : List Piece :=
  (Utf8.encode s).map spelled

theorem hexUnit_control : ∀ n < 32,
    Token.hexUnit 48 48 (hexDigit (n / 16)) (hexDigit (n % 16)) = some n := by
  decide

theorem escape_control {b : UInt8} (control : b < 32 ∧ b ∉ [8, 9, 10, 12, 13]) :
    escape b = [92, 117, 48, 48, hexDigit (b.toNat / 16), hexDigit (b.toNat % 16)] := by
  obtain ⟨small, other⟩ := control
  simp only [List.mem_cons, List.not_mem_nil, or_false, not_or] at other
  have quote : b ≠ 34 := by rintro rfl; exact absurd small (by decide)
  have slash : b ≠ 92 := by rintro rfl; exact absurd small (by decide)
  simp [escape, quote, slash, other, small]

theorem escape_plain {b : UInt8} (quote : b ≠ 34) (slash : b ≠ 92) (large : ¬ b < 32) :
    escape b = [b] := by
  have other : b ≠ 8 ∧ b ≠ 9 ∧ b ≠ 10 ∧ b ≠ 12 ∧ b ≠ 13 := by
    refine ⟨?_, ?_, ?_, ?_, ?_⟩ <;> rintro rfl <;> exact absurd (by decide) large
  simp [escape, quote, slash, other, large]

theorem scanQuoted_escaped (b : UInt8) (s : Bytes) :
    scanQuoted (escape b ++ s) = (scanQuoted s).map fun q => (spelled b :: q.1, q.2) := by
  by_cases control : b < 32 ∧ b ∉ [8, 9, 10, 12, 13]
  · rw [escape_control control, spelled, if_pos control]
    exact Token.scanQuoted_unit (hexUnit_control _ (UInt8.lt_iff_toNat_lt.mp control.1)) s
  by_cases special : b ∈ [34, 92, 8, 9, 10, 12, 13]
  · simp only [List.mem_cons, List.not_mem_nil, or_false] at special
    rcases special with rfl | rfl | rfl | rfl | rfl | rfl | rfl <;>
      exact Token.scanQuoted_escape (by decide) rfl s
  · simp only [List.mem_cons, List.not_mem_nil, or_false, not_or] at special
    have large : ¬ b < 32 := fun small => control ⟨small, by simp [special]⟩
    rw [escape_plain special.1 special.2.1 large, spelled, if_neg control]
    exact Token.scanQuoted_plain special.1 special.2.1 large s

theorem scanQuoted_spelling (bs r : Bytes) :
    scanQuoted (bs.flatMap escape ++ 34 :: r) = some (bs.map spelled, r) := by
  induction bs with
  | nil => exact Token.scanQuoted_end r
  | cons b bs ih =>
    rw [List.flatMap_cons, List.append_assoc, scanQuoted_escaped, ih]
    rfl

theorem charBytes_control : ∀ n < 32, Piece.charBytes n = [UInt8.ofNat n] := by
  decide

theorem bytes_spelled (bs : Bytes) : Piece.bytes (bs.map spelled) = some bs := by
  induction bs with
  | nil => rfl
  | cons b bs ih =>
    rw [List.map_cons]
    by_cases control : b < 32 ∧ b ∉ [8, 9, 10, 12, 13]
    · have small : b.toNat < 32 := UInt8.lt_iff_toNat_lt.mp control.1
      have trailing : Piece.isTrailing b.toNat = false := by simp [Piece.isTrailing]; omega
      have leading : Piece.isLeading b.toNat = false := by simp [Piece.isLeading]; omega
      rw [spelled, if_pos control, Piece.bytes.eq_def]
      simp [trailing, leading, ih, charBytes_control _ small]
    · rw [spelled, if_neg control, Piece.bytes, ih]
      rfl

theorem text_spelling (s : String) : Piece.text (spelling s) = some s := by
  rw [Piece.text, spelling, bytes_spelled]
  exact Utf8.decode?_encode s

def quoted (s : String) : Bytes :=
  34 :: ((Utf8.encode s).flatMap escape ++ [34])

theorem tokens_quoted (s : String) (r : Bytes) :
    Token.tokens (quoted s ++ r) = .str (spelling s) :: Token.tokens r := by
  refine Token.tokens_of_scan ?_
  have scanned := scanQuoted_spelling (Utf8.encode s) r
  rw [quoted, List.cons_append, List.append_assoc, List.singleton_append]
  change (scanQuoted ((Utf8.encode s).flatMap escape ++ 34 :: r)).map _ = _
  rw [scanned]
  rfl

theorem tokenBytes_str (s : String) : tokenBytes (.str (pieces s)) = quoted s := by
  rw [tokenBytes, pieces, List.flatMap_map]
  rfl

def memberBytes (m : String × Json) : Bytes :=
  quoted m.1 ++ 58 :: m.2.bytes

theorem bytes_arr (xs : List Json) : (Json.arr xs).bytes = enclose 91 44 93 (xs.map bytes) := by
  have items : (itemTokens xs).flatMap tokenBytes = [44].intercalate (xs.map bytes) := by
    induction xs with
    | nil => rfl
    | cons x xs ih =>
      cases xs with
      | nil => rw [itemTokens, List.map_singleton, List.intercalate_singleton, bytes]
      | cons y ys =>
        rw [List.map_cons, List.map_cons, List.intercalate_cons_cons, ← List.map_cons, ← ih,
          itemTokens, List.flatMap_append, List.flatMap_cons, ← bytes, List.append_assoc]
        · rfl
        · nofun
  rw [bytes, tokens, List.flatMap_cons, List.flatMap_append, items]
  rfl

theorem bytes_obj (ms : Members) :
    (Json.obj ms).bytes = enclose 123 44 125 (ms.map memberBytes) := by
  have members : (memberTokens ms).flatMap tokenBytes = [44].intercalate (ms.map memberBytes) := by
    induction ms with
    | nil => rfl
    | cons m ms ih =>
      obtain ⟨k, v⟩ := m
      cases ms with
      | nil =>
        rw [memberTokens, List.map_singleton, List.intercalate_singleton, List.flatMap_cons,
          tokenBytes_str, List.flatMap_cons, ← bytes]
        rfl
      | cons n ns =>
        rw [List.map_cons, List.map_cons, List.intercalate_cons_cons, ← List.map_cons, ← ih,
          memberTokens, List.flatMap_cons, tokenBytes_str, List.flatMap_cons, List.flatMap_append,
          List.flatMap_cons, ← bytes, memberBytes, List.append_assoc, List.append_assoc]
        · rfl
        · nofun
  rw [bytes, tokens, List.flatMap_cons, List.flatMap_append, members]
  rfl

mutual
def depth : Json → Nat
  | .null | .bool _ | .int _ | .real _ | .str _ => 0
  | .arr xs => itemsDepth xs + 1
  | .obj ms => membersDepth ms + 1

def itemsDepth : List Json → Nat
  | [] => 0
  | x :: xs => max (depth x) (itemsDepth xs)

def membersDepth : List (String × Json) → Nat
  | [] => 0
  | (_, v) :: ms => max (depth v) (membersDepth ms)
end

theorem itemsDepth_le_iff {xs : List Json} {n : Nat} :
    itemsDepth xs ≤ n ↔ ∀ x ∈ xs, x.depth ≤ n := by
  induction xs with
  | nil => simp [itemsDepth]
  | cons x xs ih => rw [itemsDepth, Nat.max_le, ih, List.forall_mem_cons]

theorem membersDepth_le_iff {ms : Members} {n : Nat} :
    membersDepth ms ≤ n ↔ ∀ m ∈ ms, m.2.depth ≤ n := by
  induction ms with
  | nil => simp [membersDepth]
  | cons m ms ih => rw [membersDepth, Nat.max_le, ih, List.forall_mem_cons]

/-- A value all of whose numbers are integers of 64 bits, with or without a sign, and whose objects
hold one member for each key, in the order of the keys. -/
inductive IsWhole : Json → Prop where
  | null : IsWhole .null
  | bool (b : Bool) : IsWhole (.bool b)
  | int (n : Int) (low : -(2 ^ 63 : Int) ≤ n) (high : n < 2 ^ 64) : IsWhole (.int n)
  | str (s : String) : IsWhole (.str s)
  | arr (xs : List Json) (each : ∀ x ∈ xs, IsWhole x) : IsWhole (.arr xs)
  | obj (ms : Members) (ascending : ms.Pairwise (·.1 < ·.1)) (each : ∀ m ∈ ms, IsWhole m.2) :
    IsWhole (.obj ms)

structure Spells (j : Json) (ts : List Token) : Prop where
  value : IsValue ts
  gives : ∀ {depth}, j.depth ≤ depth → alone (read depth) ts = .ok j

theorem spells_scalar {j : Json} {t : Token} (value : IsValue [t]) (array : t ≠ .lbracket)
    (object : t ≠ .lbrace) (stands : scalar t = some j) : Spells j [t] where
  value := value
  gives := by
    intro depth _
    rw [(gives_scalar array object).alone_eq, scalarOf, stands]

theorem spells_arr {xs : List Json} {ts : Json → List Token} (each : ∀ x ∈ xs, Spells x (ts x)) :
    Spells (.arr xs) (enclose .lbracket .comma .rbracket (xs.map ts)) := by
  have values : ∀ p ∈ xs.map ts, IsValue p :=
    List.forall_mem_map.mpr fun x member => (each x member).value
  refine ⟨.arr _ values, ?_⟩
  intro depth enough
  obtain ⟨depth, rfl⟩ : ∃ d, depth = d + 1 := ⟨depth - 1, by rw [Json.depth] at enough; omega⟩
  have fold (ys : List Json) (among : ∀ x ∈ ys, x ∈ xs) (seen : List Json) :
      (ys.map ts).foldlM (fun xs p => addItem depth p xs) seen = .ok (ys.reverse ++ seen) := by
    induction ys generalizing seen with
    | nil => rfl
    | cons y ys ih =>
      have member := among y List.mem_cons_self
      have low : y.depth ≤ depth :=
        itemsDepth_le_iff.mp (Nat.le_of_succ_le_succ enough) y member
      rw [List.map_cons, List.foldlM_cons, addItem, (each y member).gives low]
      have rest := ih (fun x member => among x (List.mem_cons_of_mem _ member)) (y :: seen)
      rw [List.reverse_cons, List.append_assoc]
      exact rest
  have given := gives_array values fun p member => exists_gives (values p member) depth
  rw [given.alone_eq, fold xs (fun _ => id) []]
  simp [Except.map]

def entryOf (ts : Json → List Token) (m : String × Json) : Entry :=
  (spelling m.1, ts m.2)

theorem values_entries {ms : Members} {ts : Json → List Token}
    (each : ∀ m ∈ ms, Spells m.2 (ts m.2)) : ∀ m ∈ ms.map (entryOf ts), IsValue m.2 :=
  List.forall_mem_map.mpr fun m member => (each m member).value

theorem membersOf_entries {ms : Members} {ts : Json → List Token}
    (each : ∀ m ∈ ms, Spells m.2 (ts m.2)) {depth : Nat} (enough : membersDepth ms ≤ depth) :
    membersOf depth (ms.map (entryOf ts)) = .ok (Members.ofList ms) := by
  have fold (ns : Members) (among : ∀ m ∈ ns, m ∈ ms) (seen : Members) :
      (ns.map (entryOf ts)).foldlM (fun object m => addMember depth m object) seen =
        .ok (ns.foldl (fun object m => object.put m.1 m.2) seen) := by
    induction ns generalizing seen with
    | nil => rfl
    | cons n ns ih =>
      have member := among n List.mem_cons_self
      have low : n.2.depth ≤ depth := membersDepth_le_iff.mp enough n member
      rw [List.map_cons, List.foldlM_cons, addMember, entryOf, text_spelling,
        (each n member).gives low]
      exact ih (fun m member => among m (List.mem_cons_of_mem _ member)) (seen.put n.1 n.2)
  exact fold ms (fun _ => id) []

theorem spells_obj {ms : Members} {ts : Json → List Token} (ascending : ms.Pairwise (·.1 < ·.1))
    (each : ∀ m ∈ ms, Spells m.2 (ts m.2)) :
    Spells (.obj ms)
      (enclose .lbrace .comma .rbrace ((ms.map (entryOf ts)).map Entry.tokens)) := by
  have values := values_entries each
  refine ⟨.obj _ values, ?_⟩
  intro depth enough
  rw [Json.depth] at enough
  obtain ⟨depth, rfl⟩ : ∃ d, depth = d + 1 := ⟨depth - 1, by omega⟩
  have given := gives_object fun m member => exists_gives (values m member) depth
  rw [given.alone_eq, membersOf_entries each (by omega), Members.ofList_of_ascending ascending]
  rfl

theorem tokens_memberBytes (m : String × Json) :
    Token.tokens (memberBytes m) = (entryOf (fun v => Token.tokens v.bytes) m).tokens := by
  have colon : mark 58 = some .colon := rfl
  rw [memberBytes, tokens_quoted, Token.tokens_mark colon]
  rfl

theorem tokens_members {ms : Members} (each : ∀ m ∈ ms, IsValue (Token.tokens m.2.bytes)) :
    Token.tokens (Json.obj ms).bytes = enclose .lbrace .comma .rbrace
      ((ms.map (entryOf fun v => Token.tokens v.bytes)).map Entry.tokens) := by
  have sound : ∀ p ∈ ms.map memberBytes, .broken ∉ Token.tokens p := by
    intro p member
    obtain ⟨m, among, rfl⟩ := List.mem_map.mp member
    rw [tokens_memberBytes]
    simp [Entry.tokens, entryOf, (each m among).sound]
  rw [bytes_obj, Token.tokens_enclose rfl rfl sound, List.map_map, List.map_map]
  congr 1
  exact List.map_congr_left fun m _ => tokens_memberBytes m

theorem bytes_scalar {j : Json} {t : Token} (one : j.tokens = [t]) : j.bytes = tokenBytes t := by
  rw [bytes, one, List.flatMap_singleton]

theorem tokens_scalar {j : Json} {t u : Token} (one : j.tokens = [t])
    (scanned : Token.scanOne (tokenBytes t) = some (u, [])) : Token.tokens j.bytes = [u] := by
  rw [bytes_scalar one, Token.tokens_of_scan scanned, Token.tokens_nil]

theorem tokens_str (s : String) : Token.tokens (Json.str s).bytes = [.str (spelling s)] := by
  have written := tokens_quoted s []
  rw [List.append_nil, Token.tokens_nil] at written
  rw [bytes_scalar rfl, tokenBytes_str, written]

theorem IsWhole.spells {j : Json} (whole : j.IsWhole) : Spells j (Token.tokens j.bytes) := by
  induction whole with
  | null =>
    rw [tokens_scalar rfl rfl]
    exact spells_scalar .null nofun nofun rfl
  | bool b =>
    have scanned : Token.scanOne (tokenBytes (.bool b)) = some (.bool b, []) := by
      cases b <;> rfl
    rw [tokens_scalar rfl scanned]
    exact spells_scalar (.bool b) nofun nofun rfl
  | int n low high =>
    have scanned : Token.scanOne (tokenBytes (.num (.ofInt n))) = some (.num (.ofInt n), []) := by
      have digits := Numeral.scanOne_ofInt n Token.stops_nil
      rwa [List.append_nil] at digits
    rw [tokens_scalar rfl scanned]
    exact spells_scalar (.num _) nofun nofun (Numeral.value_ofInt low high)
  | str s =>
    rw [tokens_str]
    refine spells_scalar (.str _) nofun nofun ?_
    rw [scalar, text_spelling, Option.map_some]
  | arr xs each ih =>
    have sound : ∀ p ∈ xs.map bytes, .broken ∉ Token.tokens p :=
      List.forall_mem_map.mpr fun x member => (ih x member).value.sound
    rw [bytes_arr, Token.tokens_enclose rfl rfl sound, List.map_map]
    exact spells_arr ih
  | obj ms ascending each ih =>
    rw [tokens_members fun m member => (ih m member).value]
    exact spells_obj ascending ih

theorem parse_members {ms : Members} (each : ∀ m ∈ ms, Spells m.2 (Token.tokens m.2.bytes))
    (low : (Json.obj ms).depth ≤ maxDepth) :
    parse (Json.obj ms).bytes = .ok (.obj (Members.ofList ms)) := by
  have values : ∀ m ∈ ms.map (entryOf fun v => Token.tokens v.bytes), IsValue m.2 :=
    values_entries each
  have shallow : membersDepth ms ≤ maxDepth - 1 := Nat.le_of_succ_le_succ low
  have given := gives_object (fun m member => exists_gives (values m member) (maxDepth - 1)) []
  rw [membersOf_entries each shallow, List.append_nil] at given
  rw [parse, tokens_members fun m member => (each m member).value]
  change read maxDepth _ = .ok (.obj (Members.ofList ms), []) at given
  rw [given]

end Json

end SupervisorApi
