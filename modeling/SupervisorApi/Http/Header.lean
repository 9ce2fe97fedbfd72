import SupervisorApi.Text.Digits
import SupervisorApi.Text.Utf8

set_option autoImplicit false

namespace SupervisorApi

structure Header where
  name : String
  value : Bytes
  deriving DecidableEq, Repr

abbrev Headers := List Header

namespace Header

def isValueByte (b : UInt8) : Bool :=
  (0x20 ≤ b && b != 0x7F) || b = 0x09

def ofText (name value : String) : Header :=
  ⟨name, Utf8.encode value⟩

def value? (text : String) : Option Bytes :=
  let bytes := Utf8.encode text
  if bytes.all isValueByte then some bytes else none

def isBlankByte (b : UInt8) : Bool :=
  b = 0x20 || b = 0x09

def trim (value : Bytes) : Bytes :=
  ((value.dropWhile isBlankByte).reverse.dropWhile isBlankByte).reverse

def isVisible (b : UInt8) : Bool :=
  (0x20 ≤ b && b ≤ 0x7E) || b = 0x09

def visible? (value : Bytes) : Option (List Char) :=
  if value.all isVisible then some (value.map fun b => Char.ofNat b.toNat) else none

def quoteByte (b : UInt8) : List Char :=
  if b = 0x22 then ['\\', '"']
  else if isVisible b then [Char.ofNat b.toNat]
  else ['\\', 'x'] ++ (if b.toNat < 16 then [] else [Digits.hexChar (b.toNat / 16)])
    ++ [Digits.hexChar (b.toNat % 16)]

def quote (value : Bytes) : String :=
  String.ofList ('"' :: (value.flatMap quoteByte ++ ['"']))

def describe (sensitive : Bool) (value : Bytes) : String :=
  if sensitive then "Sensitive" else quote value

end Header

namespace Headers

def names (hs : Headers) : List String :=
  hs.map Header.name

def get? (name : String) (hs : Headers) : Option Bytes :=
  (hs.find? fun h => h.name = name).map Header.value

def values (name : String) (hs : Headers) : List Bytes :=
  (hs.filter fun h => h.name = name).map Header.value

def overlay (base own : Headers) : Headers :=
  base.filter (fun h => !own.names.contains h.name) ++ own

def sorted (hs : Headers) : Headers :=
  hs.mergeSort fun a b => a.name ≤ b.name

theorem values_overlay (name : String) (base own : Headers) :
    (overlay base own).values name =
      if name ∈ own.names then own.values name else base.values name := by
  unfold overlay values
  rw [List.filter_append, List.map_append]
  split
  · next h =>
    have : (base.filter fun h => !own.names.contains h.name).filter (fun h => h.name = name) = [] := by
      rw [List.filter_eq_nil_iff]
      intro a ha hn
      simp only [List.mem_filter, Bool.not_eq_true', decide_eq_true_eq] at ha hn
      rw [hn] at ha
      simp [h] at ha
    rw [this]; rfl
  · next h =>
    have ho : own.filter (fun h => h.name = name) = [] := by
      rw [List.filter_eq_nil_iff]
      intro a ha hn
      simp only [decide_eq_true_eq] at hn
      exact h (hn ▸ List.mem_map_of_mem ha)
    have hb : (base.filter fun h => !own.names.contains h.name).filter (fun h => h.name = name) =
        base.filter fun h => h.name = name := by
      rw [List.filter_filter]
      apply List.filter_congr
      intro a _
      by_cases hn : a.name = name
      · simp [hn, h]
      · simp [hn]
    rw [ho, hb]; simp

end Headers

end SupervisorApi
