import SupervisorApi.Json.Basic
import SupervisorApi.Text.Utf8

set_option autoImplicit false

namespace SupervisorApi

structure Numeral where
  negative : Bool
  whole : List Nat
  fraction : Option (List Nat)
  exponent : Option (Bool × List Nat)
  deriving DecidableEq, Repr

namespace Numeral

def digitBytes (ds : List Nat) : Bytes :=
  ds.map fun d => UInt8.ofNat (48 + d)

def render (n : Numeral) : Bytes :=
  (if n.negative then [45] else [])
    ++ digitBytes n.whole
    ++ (match n.fraction with | some ds => 46 :: digitBytes ds | none => [])
    ++ (match n.exponent with
        | some (down, ds) => 101 :: (if down then 45 else 43) :: digitBytes ds
        | none => [])

def isDigit (b : UInt8) : Bool :=
  48 ≤ b && b ≤ 57

def takeDigits : Bytes → List Nat × Bytes
  | [] => ([], [])
  | b :: rest =>
    if isDigit b then
      let (ds, r) := takeDigits rest
      ((b.toNat - 48) :: ds, r)
    else ([], b :: rest)

theorem takeDigits_length (s : Bytes) :
    (takeDigits s).1.length + (takeDigits s).2.length = s.length := by
  induction s with
  | nil => rfl
  | cons b rest ih =>
    unfold takeDigits
    split
    · simp only [List.length_cons]; omega
    · simp

def someDigits (s : Bytes) : Option (List Nat × Bytes) :=
  match takeDigits s with
  | ([], _) => none
  | (ds, r) => some (ds, r)

theorem someDigits_length {s r : Bytes} {ds : List Nat} (h : someDigits s = some (ds, r)) :
    r.length < s.length := by
  have hs := takeDigits_length s
  unfold someDigits at h
  split at h
  · simp at h
  · next ds' r' hne e =>
    cases h
    rw [e] at hs
    have : ds.length ≠ 0 := by simpa using hne
    simp only at hs; omega

def scanWhole (s : Bytes) : Option (List Nat × Bytes) :=
  match someDigits s with
  | some (0 :: _ :: _, _) => none
  | found => found

def scanFraction : Bytes → Option (Option (List Nat) × Bytes)
  | 46 :: rest => (someDigits rest).map fun (ds, r) => (some ds, r)
  | s => some (none, s)

def scanSign : Bytes → Bool × Bytes
  | 45 :: rest => (true, rest)
  | 43 :: rest => (false, rest)
  | s => (false, s)

def scanExponent : Bytes → Option (Option (Bool × List Nat) × Bytes)
  | b :: rest =>
    if b = 101 ∨ b = 69 then
      (someDigits (scanSign rest).2).map fun (ds, r) => (some ((scanSign rest).1, ds), r)
    else some (none, b :: rest)
  | [] => some (none, [])

theorem scanWhole_length {s r : Bytes} {ds : List Nat} (h : scanWhole s = some (ds, r)) :
    r.length < s.length := by
  unfold scanWhole at h
  split at h
  · simp at h
  · exact someDigits_length h

theorem scanFraction_length {s r : Bytes} {f : Option (List Nat)}
    (h : scanFraction s = some (f, r)) : r.length ≤ s.length := by
  unfold scanFraction at h
  split at h
  · obtain ⟨q, hq, he⟩ := Option.map_eq_some_iff.1 h
    cases he
    have := someDigits_length hq
    simp only [List.length_cons]; omega
  · cases h; simp

theorem scanSign_length (s : Bytes) : (scanSign s).2.length ≤ s.length := by
  unfold scanSign
  split <;> simp

theorem scanExponent_length {s r : Bytes} {e : Option (Bool × List Nat)}
    (h : scanExponent s = some (e, r)) : r.length ≤ s.length := by
  unfold scanExponent at h
  split at h
  · next b rest =>
    split at h
    · obtain ⟨q, hq, he⟩ := Option.map_eq_some_iff.1 h
      cases he
      have h1 := someDigits_length hq
      have h2 := scanSign_length rest
      simp only [List.length_cons]; omega
    · cases h; simp
  · cases h; simp

def scanUnsigned (negative : Bool) (s : Bytes) : Option (Numeral × Bytes) := do
  let (whole, s) ← scanWhole s
  let (fraction, s) ← scanFraction s
  let (exponent, s) ← scanExponent s
  return (⟨negative, whole, fraction, exponent⟩, s)

theorem scanUnsigned_length {g : Bool} {s r : Bytes} {n : Numeral}
    (h : scanUnsigned g s = some (n, r)) : r.length < s.length := by
  simp only [scanUnsigned, Option.bind_eq_bind, Option.bind_eq_some_iff, Prod.exists] at h
  obtain ⟨w, s₁, h₁, f, s₂, h₂, e, s₃, h₃, h⟩ := h
  cases h
  have := scanWhole_length h₁
  have := scanFraction_length h₂
  have := scanExponent_length h₃
  omega

def naturalOf (ds : List Nat) : Nat :=
  ds.foldl (fun n d => 10 * n + d) 0

-- Takes digits while the number stays below `2 ^ 64`.
def absorb (n : Nat) : List Nat → Nat × List Nat
  | [] => (n, [])
  | d :: ds => if n * 10 + d < UInt64.size then absorb (n * 10 + d) ds else (n, d :: ds)

def power (k : Nat) : Binary64 :=
  Binary64.ofRatio false (Nat.pow 10 k) 1

-- `x · 10 ^ e`, one rounding for each table power; nothing beyond the finite numbers.
def scale (x : Binary64) (e : Int) : Option Binary64 :=
  if 308 < e then (if x.isZero then some x else none)
  else if 0 ≤ e then
    let y := x.mul (power e.toNat)
    if y.isFinite then some y else none
  else if -308 ≤ e then some (x.div (power (-e).toNat))
  else if x.isZero then some x
  else scale (x.div (power 308)) (e + 308)
termination_by (-e).toNat

def real (negative : Bool) (n : Nat) (e : Int) : Option Json :=
  (scale (Binary64.ofNat n) e).map fun x => .real (if negative then x.neg else x)

/-- An integer literal below `2 ^ 64` and not below `-2 ^ 63` is an integer, `-0` excepted. All else
is a floating point number from the leading digits that fit in 64 bits. -/
def value (n : Numeral) : Option Json :=
  let (m, left) := absorb 0 n.whole
  match n.fraction, n.exponent with
  | none, none =>
    if left ≠ [] then real n.negative m left.length
    else if !n.negative then some (.int m)
    else if m = 0 ∨ Nat.pow 2 63 < m then real true m 0
    else some (.int (-m))
  | fraction, exponent =>
    let digits := fraction.getD []
    let (m, rest) := absorb m digits
    let shift : Int := left.length - (digits.length - rest.length : Nat)
    match exponent with
    | none => real n.negative m shift
    | some (down, ds) => real n.negative m (if down then shift - naturalOf ds else shift + naturalOf ds)

end Numeral

end SupervisorApi
