import Mathlib.Tactic.IntervalCases
import SupervisorApi.Json.Token

set_option autoImplicit false

namespace SupervisorApi

def enclose {α : Type} (opening comma closing : α) (parts : List (List α)) : List α :=
  opening :: ([comma].intercalate parts ++ [closing])

theorem exists_intercalate {α : Type} (sep : List α) (p : List α) (ps : List (List α)) (rest : List α) :
    ∃ more, sep.intercalate (p :: ps) ++ rest = p ++ more := by
  cases ps with
  | nil => exact ⟨rest, by rw [List.intercalate_singleton]⟩
  | cons q ps => exact ⟨_, by rw [List.intercalate_cons_cons, List.append_assoc, List.append_assoc]⟩

namespace Token

def Stops (r : Bytes) : Prop :=
  ∀ b ∈ r.head?, Numeral.isDigit b = false ∧ b ≠ 46 ∧ b ≠ 101 ∧ b ≠ 69

theorem stops_nil : Stops [] := nofun

theorem stops_cons {b : UInt8} {r : Bytes} :
    Stops (b :: r) ↔ Numeral.isDigit b = false ∧ b ≠ 46 ∧ b ≠ 101 ∧ b ≠ 69 := by
  simp [Stops]

theorem blank_cases {b : UInt8} (blank : isBlank b = true) : b = 32 ∨ b = 10 ∨ b = 9 ∨ b = 13 := by
  simpa [isBlank, or_assoc] using blank

theorem stops_blank {b : UInt8} {r : Bytes} (blank : isBlank b = true) : Stops (b :: r) := by
  rcases blank_cases blank with rfl | rfl | rfl | rfl <;> exact stops_cons.mpr (by decide)

-- What may stand where a scanner stopped: it begins alike, or stops as well.
def Follows (r r' : Bytes) : Prop :=
  r'.head? = r.head? ∨ Stops r'

theorem Follows.append {r r' : Bytes} (follows : Follows r r') (w : Bytes) :
    Follows (w ++ r) (w ++ r') := by
  cases w with
  | nil => exact follows
  | cons b w => exact .inl rfl

theorem Follows.head {r r' : Bytes} (follows : Follows r r') {P : UInt8 → Prop}
    (before : ∀ b ∈ r.head?, P b)
    (stop : ∀ b, Numeral.isDigit b = false ∧ b ≠ 46 ∧ b ≠ 101 ∧ b ≠ 69 → P b) :
    ∀ b ∈ r'.head?, P b := by
  intro b member
  rcases follows with same | stops
  · exact before b (same ▸ member)
  · exact stop b (stops b member)

/-- At a text a scanner takes the same bytes, and finds the same, whatever comes behind them. -/
def LocalAt {α : Type} (scan : Bytes → Option (α × Bytes)) (s : Bytes) : Prop :=
  ∀ a r, scan s = some (a, r) →
    ∃ w, s = w ++ r ∧ ∀ r', Follows r r' → scan (w ++ r') = some (a, r')

def Local {α : Type} (scan : Bytes → Option (α × Bytes)) : Prop :=
  ∀ s, LocalAt scan s

variable {α β : Type} {f : Bytes → Option (α × Bytes)}

theorem LocalAt.after {s : Bytes} (loc : LocalAt f s) (u : Bytes) {g : Bytes → Option (β × Bytes)}
    (h : α → β) (same : ∀ s, g (u ++ s) = (f s).map fun q => (h q.1, q.2)) :
    LocalAt g (u ++ s) := by
  intro b r found
  rw [same] at found
  obtain ⟨⟨a, r⟩, scanned, pair⟩ := Option.map_eq_some_iff.mp found
  cases pair
  obtain ⟨w, rfl, again⟩ := loc a r scanned
  refine ⟨u ++ w, by rw [List.append_assoc], fun r' follows => ?_⟩
  rw [List.append_assoc, same, again r' follows, Option.map_some]

theorem LocalAt.behind {s : Bytes} (loc : LocalAt f s) (b : UInt8)
    {g : Bytes → Option (α × Bytes)} (same : ∀ s, g (b :: s) = f s) : LocalAt g (b :: s) :=
  loc.after [b] id fun s => by simp [same]

theorem Local.map (loc : Local f) (h : α → β) :
    Local fun s => (f s).map fun q => (h q.1, q.2) :=
  fun s => (loc s).after [] h fun _ => rfl

theorem Local.bind (loc : Local f) {g : α → Bytes → Option (β × Bytes)}
    (each : ∀ a, Local (g a)) : Local fun s => (f s).bind fun q => g q.1 q.2 := by
  intro s b r found
  obtain ⟨⟨a, middle⟩, scanned, rest⟩ := Option.bind_eq_some_iff.mp found
  obtain ⟨front, cut, again⟩ := loc s a middle scanned
  obtain ⟨back, cut', again'⟩ := each a middle b r rest
  refine ⟨front ++ back, by rw [List.append_assoc, ← cut', ← cut], fun r' follows => ?_⟩
  have middle' : Follows middle (back ++ r') := cut' ▸ follows.append back
  simp only [List.append_assoc, again _ middle', Option.bind_some, again' r' follows]

end Token

namespace Numeral

open Token (Follows Local)

theorem takeDigits_append {ds : List Nat} (small : ∀ d ∈ ds, d < 10) {r : Bytes}
    (ends : ∀ b ∈ r.head?, isDigit b = false) : takeDigits (digitBytes ds ++ r) = (ds, r) := by
  induction ds with
  | nil =>
    cases r with
    | nil => rfl
    | cons b r => simp [digitBytes, takeDigits, ends b rfl]
  | cons d ds ih =>
    have low : d < 10 := small d List.mem_cons_self
    have digit : isDigit (UInt8.ofNat (48 + d)) = true ∧
        (UInt8.ofNat (48 + d)).toNat - 48 = d := by
      clear ih small
      interval_cases d <;> decide
    have rest := ih fun d member => small d (List.mem_cons_of_mem _ member)
    rw [digitBytes] at rest
    simp only [digitBytes, List.map_cons, List.cons_append, takeDigits, digit, if_true, rest]

theorem exists_takeDigits (s : Bytes) :
    ∃ ds r, takeDigits s = (ds, r) ∧ s = digitBytes ds ++ r ∧ (∀ d ∈ ds, d < 10) ∧
      ∀ b ∈ r.head?, isDigit b = false := by
  induction s with
  | nil => exact ⟨[], [], rfl, rfl, nofun, nofun⟩
  | cons b s ih =>
    cases digit : isDigit b with
    | false =>
      refine ⟨[], b :: s, by simp [takeDigits, digit], rfl, nofun, ?_⟩
      rintro _ ⟨⟩
      exact digit
    | true =>
      obtain ⟨ds, r, taken, cut, small, ends⟩ := ih
      have range : 48 ≤ b.toNat ∧ b.toNat ≤ 57 := by
        simpa [isDigit, UInt8.le_iff_toNat_le] using digit
      have same : UInt8.ofNat (48 + (b.toNat - 48)) = b := by
        rw [Nat.add_sub_cancel' range.1, UInt8.ofNat_toNat]
      refine ⟨(b.toNat - 48) :: ds, r, by simp [takeDigits, digit, taken], ?_, ?_, ends⟩
      · rw [digitBytes, List.map_cons, same, List.cons_append, ← digitBytes, ← cut]
      · rintro d (_ | ⟨_, member⟩)
        · omega
        · exact small d member

theorem someDigits_append {ds : List Nat} (some : ds ≠ []) (small : ∀ d ∈ ds, d < 10) {r : Bytes}
    (ends : ∀ b ∈ r.head?, isDigit b = false) :
    someDigits (digitBytes ds ++ r) = .some (ds, r) := by
  rw [someDigits, takeDigits_append small ends]
  cases ds with
  | nil => exact absurd rfl some
  | cons d ds => rfl

theorem of_someDigits {s r : Bytes} {ds : List Nat} (found : someDigits s = some (ds, r)) :
    s = digitBytes ds ++ r ∧ ds ≠ [] ∧ (∀ d ∈ ds, d < 10) ∧
      ∀ r', Follows r r' → someDigits (digitBytes ds ++ r') = some (ds, r') := by
  obtain ⟨ds', r', taken, rfl, small, ends⟩ := exists_takeDigits s
  have same : ds' = ds ∧ r' = r ∧ ds' ≠ [] := by
    rw [someDigits, taken] at found
    cases ds' with
    | nil => cases found
    | cons d ds => cases found; exact ⟨rfl, rfl, nofun⟩
  obtain ⟨rfl, rfl, some⟩ := same
  exact ⟨rfl, some, small, fun r'' follows =>
    someDigits_append some small (follows.head ends fun _ stop => stop.1)⟩

theorem local_someDigits : Local someDigits := by
  intro s ds r found
  obtain ⟨cut, -, -, again⟩ := of_someDigits found
  exact ⟨digitBytes ds, cut, again⟩

theorem local_scanWhole : Local scanWhole := by
  intro s ds r found
  have taken : someDigits s = some (ds, r) ∧ ∀ d e, ds ≠ 0 :: d :: e := by
    unfold scanWhole at found
    split at found
    next => cases found
    next plain => exact ⟨found, fun d e zero => plain d e r (zero ▸ found)⟩
  obtain ⟨w, cut, again⟩ := local_someDigits s ds r taken.1
  refine ⟨w, cut, fun r' follows => ?_⟩
  rw [scanWhole, again r' follows]
  split
  next zero => cases zero; exact absurd rfl (taken.2 _ _)
  next => rfl

theorem local_marked {α : Type} {f : Bytes → Option (α × Bytes)} (isMark : UInt8 → Bool)
    {scan : Bytes → Option (Option α × Bytes)} (loc : Local f)
    (marked : ∀ b s, isMark b = true → scan (b :: s) = (f s).map fun q => (some q.1, q.2))
    (other : ∀ s, (∀ b ∈ s.head?, isMark b = false) → scan s = some (none, s))
    (stop : ∀ b, isDigit b = false ∧ b ≠ 46 ∧ b ≠ 101 ∧ b ≠ 69 → isMark b = false) :
    Local scan := by
  intro s a r found
  by_cases plain : ∀ b ∈ s.head?, isMark b = false
  · rw [other s plain] at found
    cases found
    exact ⟨[], rfl, fun r' follows => other r' (follows.head plain stop)⟩
  · cases s with
    | nil => exact absurd nofun plain
    | cons b s =>
      have mark : isMark b = true := by simpa using plain
      exact (loc s).after [b] some (fun s => marked b s mark) a r found

theorem local_scanFraction : Local scanFraction := by
  refine local_marked (· = 46) local_someDigits ?_ ?_ ?_
  · intro b s mark
    cases of_decide_eq_true mark
    rfl
  · intro s plain
    unfold scanFraction
    split
    next => simp at plain
    next => rfl
  · intro b stop
    simpa using stop.2.1

def scanShift (s : Bytes) : Option ((Bool × List Nat) × Bytes) :=
  (someDigits (scanSign s).2).map fun q => (((scanSign s).1, q.1), q.2)

theorem scanSign_of_digits {ds : List Nat} (some : ds ≠ []) (small : ∀ d ∈ ds, d < 10) (r : Bytes) :
    scanSign (digitBytes ds ++ r) = (false, digitBytes ds ++ r) := by
  cases ds with
  | nil => exact absurd rfl some
  | cons d ds =>
    have low : d < 10 := small d List.mem_cons_self
    clear small some
    interval_cases d <;> rfl

theorem local_scanShift : Local scanShift := by
  intro s a r found
  unfold scanShift at found
  unfold scanSign at found
  split at found
  next s => exact (local_someDigits s).after [45] (fun ds => (true, ds)) (fun _ => rfl) a r found
  next s => exact (local_someDigits s).after [43] (fun ds => (false, ds)) (fun _ => rfl) a r found
  next s _ _ =>
    obtain ⟨⟨ds, _⟩, taken, same⟩ := Option.map_eq_some_iff.mp found
    cases same
    obtain ⟨rfl, some, small, again⟩ := of_someDigits taken
    refine ⟨digitBytes ds, rfl, fun r' follows => ?_⟩
    rw [scanShift, scanSign_of_digits some small]
    simp only [again r' follows, Option.map_some]

theorem local_scanExponent : Local scanExponent := by
  refine local_marked (fun b => b = 101 || b = 69) local_scanShift ?_ ?_ ?_
  · intro b s mark
    have either : b = 101 ∨ b = 69 := by simpa using mark
    simp [scanExponent, scanShift, either, Function.comp_def]
  · intro s plain
    cases s with
    | nil => rfl
    | cons b s =>
      have neither : ¬ (b = 101 ∨ b = 69) := by simpa using plain b rfl
      simp only [scanExponent, neither, if_false]
  · intro b stop
    simpa using stop.2.2

theorem local_scanUnsigned (negative : Bool) : Local (scanUnsigned negative) := by
  have parts := local_scanWhole.bind fun whole => local_scanFraction.bind fun fraction =>
    local_scanExponent.map fun exponent => (⟨negative, whole, fraction, exponent⟩ : Numeral)
  have same : scanUnsigned negative = fun s => (scanWhole s).bind fun w =>
      (scanFraction w.2).bind fun f =>
        (scanExponent f.2).map fun e => (⟨negative, w.1, f.1, e.1⟩, e.2) := by
    funext s
    simp only [scanUnsigned, Option.bind_eq_bind, Option.map_eq_bind]
    rfl
  rw [same]
  exact parts

end Numeral

namespace Token

theorem scanQuoted_end (r : Bytes) : scanQuoted (34 :: r) = some ([], r) := by
  unfold scanQuoted
  simp

theorem scanQuoted_unit {w x y z : UInt8} {u : Nat} (unit : hexUnit w x y z = some u)
    (s : Bytes) : scanQuoted ([92, 117, w, x, y, z] ++ s) =
      (scanQuoted s).map fun q => (.unit u :: q.1, q.2) := by
  simp only [List.cons_append, List.nil_append]
  rw [scanQuoted]
  simp [unit]

theorem scanQuoted_escape {e c : UInt8} (other : e ≠ 117) (stands : escaped e = some c)
    (s : Bytes) : scanQuoted ([92, e] ++ s) =
      (scanQuoted s).map fun q => (.byte c :: q.1, q.2) := by
  simp only [List.cons_append, List.nil_append]
  rw [scanQuoted.eq_def]
  simp [other, stands]

theorem scanQuoted_plain {b : UInt8} (quote : b ≠ 34) (slash : b ≠ 92) (large : ¬ b < 32)
    (s : Bytes) : scanQuoted ([b] ++ s) =
      (scanQuoted s).map fun q => (.byte b :: q.1, q.2) := by
  simp only [List.cons_append, List.nil_append]
  rw [scanQuoted.eq_def]
  simp [quote, slash, large]

theorem local_scanQuoted : Local scanQuoted := by
  intro s
  fun_induction scanQuoted s with
  | case1 =>
    intro ps r found
    cases found
  | case2 rest =>
    intro ps r found
    cases (scanQuoted_end rest).symm.trans found
    exact ⟨[34], rfl, fun r' _ => scanQuoted_end r'⟩
  | case4 w x y z rest u unit _ ih =>
    exact ih.after _ (.unit u :: ·) (scanQuoted_unit unit)
  | case7 e rest other c stands _ ih =>
    exact ih.after _ (.byte c :: ·) (scanQuoted_escape other stands)
  | case10 b rest quote slash large ih =>
    exact ih.after _ (.byte b :: ·) (scanQuoted_plain quote slash large)
  | case3 | case5 | case6 | case8 | case9 =>
    intro ps r found
    rw [scanQuoted.eq_def] at found
    simp_all

theorem local_scanName (name : Bytes) (t : Token) : Local (scanName name t) := by
  intro s u r found
  unfold scanName at found
  split at found
  next begins =>
    cases found
    obtain ⟨rest, rfl⟩ := List.isPrefixOf_iff_prefix.mp begins
    refine ⟨name, by rw [List.drop_left], fun r' _ => ?_⟩
    rw [scanName, if_pos (List.isPrefixOf_iff_prefix.mpr (List.prefix_append _ _)), List.drop_left]
  next => cases found

/-- A token ends where it ends, whatever comes behind it; only a number would go on. -/
theorem local_scanOne : Local scanOne := by
  intro s
  cases s with
  | nil => exact nofun
  | cons b s =>
    cases marked : mark b with
    | some t =>
      intro u r found
      simp only [scanOne, marked, Option.some.injEq, Prod.mk.injEq] at found
      obtain ⟨rfl, rfl⟩ := found
      exact ⟨[b], rfl, fun r' _ => by simp [scanOne, marked]⟩
    | none =>
      by_cases quote : b = 34
      · subst quote
        exact (local_scanQuoted.map Token.str s).behind 34 fun _ => rfl
      by_cases n : b = 110
      · subst n
        exact (local_scanName _ _ s).behind 110 fun _ => rfl
      by_cases t : b = 116
      · subst t
        exact (local_scanName _ _ s).behind 116 fun _ => rfl
      by_cases f : b = 102
      · subst f
        exact (local_scanName _ _ s).behind 102 fun _ => rfl
      by_cases minus : b = 45
      · subst minus
        exact ((Numeral.local_scanUnsigned true).map Token.num s).behind 45 fun _ => rfl
      · have number (s : Bytes) : scanOne (b :: s) =
            (Numeral.scanUnsigned false (b :: s)).map fun q => (.num q.1, q.2) := by
          simp only [scanOne, marked, quote, n, t, f, minus, if_false]
        intro u r found
        have shorter := scanOne_length found
        rw [number] at found
        obtain ⟨w, cut, again⟩ := (Numeral.local_scanUnsigned false).map Token.num _ u r found
        cases w with
        | nil =>
          rw [cut] at shorter
          exact absurd shorter (Nat.lt_irrefl _)
        | cons c w =>
          obtain ⟨rfl, rfl⟩ := List.cons_eq_cons.mp cut
          exact ⟨b :: w, rfl, fun r' follows => (number _).trans (again r' follows)⟩

theorem scanOne_of_blank {b : UInt8} (blank : isBlank b = true) (s : Bytes) :
    scanOne (b :: s) = none := by
  rcases blank_cases blank with rfl | rfl | rfl | rfl <;> rfl

theorem tokens_eq (s : Bytes) : tokens s =
    match scanOne (s.dropWhile isBlank) with
    | some (t, r) => t :: tokens r
    | none => if (s.dropWhile isBlank).isEmpty then [] else [.broken] := by
  rw [tokens]
  split <;> simp only [*]

@[simp] theorem tokens_nil : tokens [] = [] := by
  rw [tokens_eq]
  rfl

theorem tokens_blank {b : UInt8} (blank : isBlank b = true) (s : Bytes) :
    tokens (b :: s) = tokens s := by
  rw [tokens_eq, tokens_eq s, List.dropWhile_cons_of_pos blank]

theorem tokens_of_scan {s r : Bytes} {t : Token} (found : scanOne s = some (t, r)) :
    tokens s = t :: tokens r := by
  have clear : s.dropWhile isBlank = s := by
    cases s with
    | nil => rfl
    | cons b s =>
      have solid : ¬ isBlank b = true := fun blank => by
        rw [scanOne_of_blank blank] at found
        cases found
      rw [List.dropWhile_cons_of_neg solid]
  rw [tokens_eq, clear, found]

theorem tokens_of_fault {b : UInt8} {s : Bytes} (solid : isBlank b = false)
    (fault : scanOne (b :: s) = none) : tokens (b :: s) = [.broken] := by
  rw [tokens_eq, List.dropWhile_cons_of_neg (by simp [solid]), fault]
  rfl

theorem text_induction {P : Bytes → Prop} (nil : P [])
    (blank : ∀ b s, isBlank b = true → P s → P (b :: s))
    (token : ∀ s t r, scanOne s = some (t, r) → P r → P s)
    (fault : ∀ b s, isBlank b = false → scanOne (b :: s) = none → P (b :: s)) (s : Bytes) : P s := by
  match s with
  | [] => exact nil
  | b :: s =>
    match isB : isBlank b with
    | true => exact blank b s isB (text_induction nil blank token fault s)
    | false =>
      match found : scanOne (b :: s) with
      | some (t, r) =>
        have shorter : r.length < s.length + 1 := scanOne_length found
        exact token _ t r found (text_induction nil blank token fault r)
      | none => exact fault b s isB found
termination_by s.length

theorem tokens_append {s t : Bytes} (sound : .broken ∉ tokens s) (stops : Stops t) :
    tokens (s ++ t) = tokens s ++ tokens t := by
  induction s using text_induction with
  | nil => simp
  | blank b s blank ih =>
    rw [tokens_blank blank] at sound ⊢
    rw [List.cons_append, tokens_blank blank, ih sound]
  | token s u r found ih =>
    obtain ⟨w, rfl, again⟩ := local_scanOne s u r found
    have follows : Follows r (r ++ t) := by
      cases r with
      | nil => exact .inr stops
      | cons b r => exact .inl rfl
    rw [tokens_of_scan found] at sound ⊢
    rw [List.append_assoc, tokens_of_scan (again _ follows),
      ih fun broken => sound (List.mem_cons_of_mem _ broken), List.cons_append]
  | fault b s solid fault =>
    rw [tokens_of_fault solid fault] at sound
    exact absurd List.mem_cons_self sound

theorem exists_cut {s : Bytes} {front back : List Token} (sound : .broken ∉ tokens s)
    (split : tokens s = front ++ back) :
    ∃ u v, s = u ++ v ∧ tokens u = front ∧ tokens v = back := by
  induction s using text_induction generalizing front with
  | nil =>
    obtain ⟨rfl, rfl⟩ := List.append_eq_nil_iff.mp (split.symm.trans tokens_nil)
    exact ⟨[], [], rfl, tokens_nil, tokens_nil⟩
  | blank b s blank ih =>
    rw [tokens_blank blank] at sound split
    obtain ⟨u, v, rfl, first, last⟩ := ih sound split
    exact ⟨b :: u, v, rfl, by rw [tokens_blank blank, first], last⟩
  | token s t r found ih =>
    cases front with
    | nil => exact ⟨[], s, rfl, tokens_nil, split⟩
    | cons t' front =>
      rw [tokens_of_scan found] at sound split
      obtain ⟨rfl, rest⟩ := List.cons_eq_cons.mp split
      obtain ⟨u, v, rfl, first, last⟩ := ih (fun broken => sound (List.mem_cons_of_mem _ broken)) rest
      obtain ⟨w, rfl, again⟩ := local_scanOne s t _ found
      have follows : Follows (u ++ v) u := by
        cases u with
        | nil => exact .inr stops_nil
        | cons b u => exact .inl rfl
      refine ⟨w ++ u, v, (List.append_assoc _ _ _).symm, ?_, last⟩
      rw [tokens_of_scan (again u follows), first]
  | fault b s solid fault =>
    rw [tokens_of_fault solid fault] at sound
    exact absurd List.mem_cons_self sound

theorem mark_cases {b : UInt8} {t : Token} (marked : mark b = some t) :
    b = 123 ∨ b = 125 ∨ b = 91 ∨ b = 93 ∨ b = 44 ∨ b = 58 := by
  by_contra other
  simp only [not_or] at other
  simp [mark, other] at marked

theorem stops_mark {b : UInt8} {t : Token} (marked : mark b = some t) (r : Bytes) :
    Stops (b :: r) := by
  rcases mark_cases marked with rfl | rfl | rfl | rfl | rfl | rfl <;>
    exact stops_cons.mpr (by decide)

theorem tokens_mark {b : UInt8} {t : Token} (marked : mark b = some t) (s : Bytes) :
    tokens (b :: s) = t :: tokens s :=
  tokens_of_scan (by simp [scanOne, marked])

theorem tokens_intercalate {c : UInt8} {t : Token} (closing : mark c = some t) {parts : List Bytes}
    (sound : ∀ p ∈ parts, .broken ∉ tokens p) :
    tokens ([44].intercalate parts ++ [c]) = [.comma].intercalate (parts.map tokens) ++ [t] := by
  have comma : mark 44 = some .comma := rfl
  induction parts with
  | nil => simp [tokens_mark closing]
  | cons p ps ih =>
    have first := sound p List.mem_cons_self
    cases ps with
    | nil =>
      rw [List.map_singleton, List.intercalate_singleton, List.intercalate_singleton,
        tokens_append first (stops_mark closing []), tokens_mark closing, tokens_nil]
    | cons q ps =>
      have rest := ih fun q member => sound q (List.mem_cons_of_mem _ member)
      rw [List.map_cons, List.map_cons, List.intercalate_cons_cons, List.intercalate_cons_cons,
        List.append_assoc, List.append_assoc, List.append_assoc, List.append_assoc,
        List.singleton_append, List.singleton_append, tokens_append first (stops_mark comma _),
        tokens_mark comma, rest, List.map_cons]

theorem tokens_enclose {a c : UInt8} {t u : Token} (opening : mark a = some t)
    (closing : mark c = some u) {parts : List Bytes} (sound : ∀ p ∈ parts, .broken ∉ tokens p) :
    tokens (enclose a 44 c parts) = enclose t .comma u (parts.map tokens) := by
  rw [enclose, tokens_mark opening, tokens_intercalate closing sound, enclose]

section Cut

variable {b c : UInt8} {t u : Token} {s v : Bytes}

theorem stops_blanks (blank : ∀ b ∈ s, isBlank b = true) : Stops s := by
  cases s with
  | nil => exact stops_nil
  | cons b s => exact stops_blank (blank b List.mem_cons_self)

theorem tokens_blanks (blank : ∀ b ∈ s, isBlank b = true) (v : Bytes) :
    tokens (s ++ v) = tokens v := by
  induction s with
  | nil => rfl
  | cons b s ih =>
    rw [List.cons_append, tokens_blank (blank b List.mem_cons_self),
      ih fun c member => blank c (List.mem_cons_of_mem _ member)]

theorem tokens_of_blank (blank : ∀ b ∈ s, isBlank b = true) : tokens s = [] := by
  have written := tokens_blanks blank []
  rwa [List.append_nil, tokens_nil] at written

theorem blank_of_tokens (none : tokens s = []) : ∀ b ∈ s, isBlank b = true := by
  induction s using text_induction with
  | nil => nofun
  | blank b s blank ih =>
    rw [tokens_blank blank] at none
    exact List.forall_mem_cons.mpr ⟨blank, ih none⟩
  | token s t r found ih => simp [tokens_of_scan found] at none
  | fault b s solid fault => simp [tokens_of_fault solid fault] at none

theorem mark_injective (marked : mark b = some t) (marked' : mark c = some t) : b = c := by
  rcases mark_cases marked with rfl | rfl | rfl | rfl | rfl | rfl <;>
    rcases mark_cases marked' with rfl | rfl | rfl | rfl | rfl | rfl <;>
      cases marked <;> first | rfl | cases marked'

theorem scanOne_other {r : Bytes} (other : mark b = none) (found : scanOne (b :: s) = some (t, r)) :
    (∃ ps, t = .str ps) ∨ t = .null ∨ (∃ x, t = .bool x) ∨ ∃ n, t = .num n := by
  have name {name : Bytes} {x : Token} (found : scanName name x s = some (t, r)) : t = x := by
    unfold scanName at found
    split at found
    next => cases found; rfl
    next => cases found
  simp only [scanOne, other] at found
  split at found
  next =>
    obtain ⟨q, -, same⟩ := Option.map_eq_some_iff.mp found
    cases same
    exact .inl ⟨_, rfl⟩
  next =>
    split at found
    next => exact .inr (.inl (name found))
    next =>
      split at found
      next => exact .inr (.inr (.inl ⟨true, name found⟩))
      next =>
        split at found
        next => exact .inr (.inr (.inl ⟨false, name found⟩))
        next =>
          split at found <;>
          · obtain ⟨q, -, same⟩ := Option.map_eq_some_iff.mp found
            cases same
            exact .inr (.inr (.inr ⟨_, rfl⟩))

theorem of_scanOne_mark {r : Bytes} (marked : mark c = some t) (found : scanOne s = some (t, r)) :
    s = c :: r := by
  cases s with
  | nil => cases found
  | cons b s =>
    cases other : mark b with
    | some u =>
      simp only [scanOne, other, Option.some.injEq, Prod.mk.injEq] at found
      obtain ⟨rfl, rfl⟩ := found
      rw [mark_injective other marked]
    | none =>
      have cases := mark_cases marked
      rcases scanOne_other other found with ⟨_, rfl⟩ | rfl | ⟨_, rfl⟩ | ⟨_, rfl⟩ <;>
        rcases cases with rfl | rfl | rfl | rfl | rfl | rfl <;> cases marked

theorem exists_mark (marked : mark c = some t) (one : tokens s = [t]) :
    ∃ before after, s = before ++ c :: after ∧ (∀ b ∈ before, isBlank b = true) ∧
      ∀ b ∈ after, isBlank b = true := by
  induction s using text_induction with
  | nil => simp at one
  | blank b s blank ih =>
    rw [tokens_blank blank] at one
    obtain ⟨before, after, rfl, front, back⟩ := ih one
    exact ⟨b :: before, after, rfl, List.forall_mem_cons.mpr ⟨blank, front⟩, back⟩
  | token s u r found ih =>
    rw [tokens_of_scan found] at one
    obtain ⟨rfl, none⟩ := List.cons_eq_cons.mp one
    exact ⟨[], r, of_scanOne_mark marked found, nofun, blank_of_tokens none⟩
  | fault b s solid fault =>
    rw [tokens_of_fault solid fault] at one
    obtain ⟨rfl, -⟩ := List.cons_eq_cons.mp one
    rcases mark_cases marked with rfl | rfl | rfl | rfl | rfl | rfl <;> cases marked

theorem exists_part (marked : mark c = some t) {p rest : List Token} (sound : .broken ∉ tokens s)
    (made : tokens s = p ++ t :: rest) :
    ∃ part more, s = part ++ c :: more ∧ tokens part = p ∧ tokens more = rest := by
  rw [made] at sound
  obtain ⟨part, s', rfl, first, behind⟩ := exists_cut (made ▸ sound) made
  have sound' : .broken ∉ t :: rest := fun broken => sound (List.mem_append_right _ broken)
  have split : tokens s' = [t] ++ rest := behind
  obtain ⟨x, more, rfl, one, last⟩ := exists_cut (behind ▸ sound') split
  obtain ⟨before, after, rfl, front, back⟩ := exists_mark marked one
  refine ⟨part ++ before, after ++ more, by simp, ?_, ?_⟩
  · have solid : .broken ∉ tokens part := by
      rw [first]
      exact fun broken => sound (List.mem_append_left _ broken)
    rw [tokens_append solid (stops_blanks front), tokens_of_blank front, first, List.append_nil]
  · rw [tokens_blanks back, last]

theorem exists_joined (closing : mark c = some t) {p : List Token} {ps : List (List Token)}
    (sound : .broken ∉ tokens s)
    (made : tokens s = [.comma].intercalate (p :: ps) ++ [t]) :
    ∃ q qs after, s = [44].intercalate (q :: qs) ++ c :: after ∧
      (q :: qs).map tokens = p :: ps ∧ ∀ b ∈ after, isBlank b = true := by
  induction ps generalizing s p with
  | nil =>
    rw [List.intercalate_singleton] at made
    obtain ⟨part, after, rfl, first, none⟩ := exists_part closing sound made
    refine ⟨part, [], after, ?_, by rw [List.map_singleton, first], blank_of_tokens none⟩
    rw [List.intercalate_singleton]
  | cons q qs ih =>
    have comma : mark 44 = some .comma := rfl
    have split : tokens s = p ++ .comma :: ([.comma].intercalate (q :: qs) ++ [t]) := by
      rw [made, List.intercalate_cons_cons]
      simp
    obtain ⟨part, more, rfl, first, rest⟩ := exists_part comma sound split
    have solid : .broken ∉ tokens more := by
      rw [split] at sound
      rw [rest]
      exact fun broken => sound (List.mem_append_right _ (List.mem_cons_of_mem _ broken))
    obtain ⟨q', qs', after, rfl, parts, blank⟩ := ih solid rest
    refine ⟨part, q' :: qs', after, ?_, by rw [List.map_cons, first, parts], blank⟩
    rw [List.intercalate_cons_cons]
    simp

theorem exists_enclosed {a : UInt8} (opening : mark a = some u) (closing : mark c = some t)
    {ps : List (List Token)} (some : ps ≠ []) (sound : .broken ∉ tokens s)
    (made : tokens s = enclose u .comma t ps) :
    ∃ before parts after, s = before ++ (enclose a 44 c parts ++ after) ∧
      parts.map tokens = ps ∧ (∀ b ∈ before, isBlank b = true) ∧
        ∀ b ∈ after, isBlank b = true := by
  obtain ⟨before, more, rfl, none, rest⟩ := exists_part (p := []) opening sound made
  obtain ⟨p, ps, rfl⟩ := List.exists_cons_of_ne_nil some
  have solid : .broken ∉ tokens more := by
    rw [made, enclose] at sound
    rw [rest]
    exact fun broken => sound (List.mem_cons_of_mem _ broken)
  obtain ⟨q, qs, after, rfl, parts, blank⟩ := exists_joined closing solid rest
  exact ⟨before, q :: qs, after, by simp [enclose], parts, blank_of_tokens none, blank⟩

end Cut

-- The second text is the first one with blanks put between its tokens.
inductive Spaced : Bytes → Bytes → Prop where
  | same (s : Bytes) : Spaced s s
  | blank {s u v : Bytes} {b : UInt8} (spaced : Spaced s (u ++ v)) (blank : isBlank b = true)
    (between : tokens (u ++ v) = tokens u ++ tokens v) : Spaced s (u ++ b :: v)

theorem tokens_of_spaced {s t : Bytes} (sound : .broken ∉ tokens s) (spaced : Spaced s t) :
    tokens t = tokens s := by
  induction spaced with
  | same => rfl
  | @blank u v b _ blank between ih =>
    have whole : .broken ∉ tokens u ++ tokens v := by rwa [← between, ih]
    have front : .broken ∉ tokens u := fun broken => whole (List.mem_append_left _ broken)
    rw [tokens_append front (stops_blank blank), tokens_blank blank, ← between, ih]

end Token

end SupervisorApi
