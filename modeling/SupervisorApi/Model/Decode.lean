import SupervisorApi.Model.Shape
import SupervisorApi.Timestamp.Parser

/-!
Reading the values of a form from JSON. Members with other names are ignored. Of the members of a
record the bad value with the least name is reported, then the first that is missing; the parts of a
record are read after its own members.
-/

set_option autoImplicit false

namespace SupervisorApi

inductive Reading (α : Type) where
  | done (a : α)
  | missing (name : String)
  | bad (name : String) (e : DecodeError)

namespace Reading

variable {α β : Type}

def map (f : α → β) : Reading α → Reading β
  | .done a => .done (f a)
  | .missing n => .missing n
  | .bad n e => .bad n e

def both : Reading α → Reading β → Reading (α × β)
  | .bad n e, .bad m f => if m < n then .bad m f else .bad n e
  | .bad n e, _ => .bad n e
  | _, .bad m f => .bad m f
  | .missing n, _ => .missing n
  | .done _, .missing m => .missing m
  | .done a, .done b => .done (a, b)

def ofExcept (name : String) : Except DecodeError α → Reading α
  | .ok a => .done a
  | .error e => .bad name e

def result : Reading α → Except DecodeError α
  | .done a => .ok a
  | .missing n => .error (.missing n)
  | .bad _ e => .error e

end Reading

namespace Presence

variable {α : Type}

def read (p : Presence) (name : String) (decode : Json → Except DecodeError α) :
    Option Json → Reading (p.Val α) :=
  match p with
  | .required => fun
    | none => .missing name
    | some j => .ofExcept name (decode j)
  | .optional => fun
    | none | some .null => .done none
    | some j => .ofExcept name ((decode j).map some)
  | .omitted => fun
    | none | some .null => .done none
    | some j => .ofExcept name ((decode j).map some)
  | .field => fun
    | none => .done .unset
    | some .null => .done .null
    | some j => .ofExcept name ((decode j).map .value)

def readNext (p : Presence) (decode : Json → Except DecodeError α) :
    List Json → Except DecodeError (p.Val α × List Json) :=
  match p with
  | .required => fun
    | [] => .error .mismatched
    | j :: rest => (decode j).map (·, rest)
  | .optional => fun
    | [] => .error .mismatched
    | .null :: rest => .ok (none, rest)
    | j :: rest => (decode j).map fun a => (some a, rest)
  | .omitted => fun
    | [] => .ok (none, [])
    | .null :: rest => .ok (none, rest)
    | j :: rest => (decode j).map fun a => (some a, rest)
  | .field => fun
    | [] => .ok (.unset, [])
    | .null :: rest => .ok (.null, rest)
    | j :: rest => (decode j).map fun a => (.value a, rest)

end Presence

namespace Decode

def bool : Json → Except DecodeError Bool
  | .bool b => .ok b
  | _ => .error .mismatched

def int64 : Json → Except DecodeError Int64
  | .int n =>
    if Int64.minValue.toInt ≤ n ∧ n ≤ Int64.maxValue.toInt then .ok (Int64.ofInt n)
    else .error .mismatched
  | _ => .error .mismatched

def port : Json → Except DecodeError UInt16
  | .int n => if 0 ≤ n ∧ n < 65536 then .ok (UInt16.ofNat n.toNat) else .error .mismatched
  | _ => .error .mismatched

def finite (x : Binary64) : Except DecodeError Binary64 :=
  if x.isFinite then .ok x else .error .mismatched

def real : Json → Except DecodeError Binary64
  | .real x => finite x
  | .int n => finite (Binary64.ofInt n)
  | _ => .error .mismatched

def text : Json → Except DecodeError String
  | .str s => .ok s
  | _ => .error .mismatched

def object : Json → Except DecodeError Members
  | .obj ms => .ok ms
  | _ => .error .mismatched

def spelled {α : Type} (parse : String → Option α) (e : DecodeError) : Json → Except DecodeError α
  | .str s =>
    match parse s with
    | some a => .ok a
    | none => .error e
  | _ => .error .mismatched

def items {α : Type} (decode : Json → Except DecodeError α) : Json → Except DecodeError (List α)
  | .arr xs => xs.mapM decode
  | _ => .error .mismatched

def entries {α : Type} (decode : Json → Except DecodeError α) : Json → Except DecodeError (Dict α)
  | .obj ms =>
    (ms.mapM fun (m : String × Json) => (decode m.2).map fun a => (m.1, a)).map Dict.ofList
  | _ => .error .mismatched

def key (buffered : Bool) : (k : Key) → Json → Except DecodeError k.Val
  | .nullableText, j => Location.nullableText j
  | .choice c, j => c.decode buffered j

def tag (name : String) : Option Json → Except DecodeError String
  | none => .error (.missing name)
  | some (.str s) => .ok s
  | some _ => .error .mismatched

def selectionParts (buffered : Bool) (look : String → Option Json) : Reading Selection.Parts :=
  ((Presence.optional.read "addons" AddonSelection.decode (look "addons")).both
    ((Presence.optional.read "folders" (fun j => (items (key buffered (.choice folder)) j).map
        SortedSet.ofList) (look "folders")).both
      (Presence.optional.read "homeassistant" bool (look "homeassistant")))).map
    fun (addons, folders, homeassistant) => ⟨addons, folders, homeassistant⟩

def selection (buffered : Bool) (look : String → Option Json) : Except DecodeError Selection := do
  Selection.ofParts (← (selectionParts buffered look).result)

def selectionRow (buffered : Bool) (xs : List Json) : Except DecodeError Selection := do
  let (addons, xs) ← Presence.optional.readNext AddonSelection.decode xs
  let (folders, xs) ← Presence.optional.readNext
    (fun j => (items (key buffered (.choice folder)) j).map SortedSet.ofList) xs
  let (homeassistant, xs) ← Presence.optional.readNext bool xs
  if xs.isEmpty then Selection.ofParts ⟨addons, folders, homeassistant⟩ else .error .mismatched

end Decode

theorem Members.sizeOf_get? {key : String} {v : Json} {ms : Members} (h : Members.get? key ms = some v) :
    sizeOf v < sizeOf ms := by
  induction ms with
  | nil => simp [Members.get?] at h
  | cons m rest ih =>
    obtain ⟨k, w⟩ := m
    unfold Members.get? at h
    split at h
    · cases h; simp only [List.cons.sizeOf_spec, Prod.mk.sizeOf_spec]; omega
    · have := ih h; simp only [List.cons.sizeOf_spec]; omega

def Tree.decode {α : Type} (own : (String → Option Json) → Reading α) (width : Nat)
    (row : List Json → Except DecodeError α) (children : String) :
    Json → Except DecodeError (Tree α)
  | .obj ms =>
    let below : Reading (List (Tree α)) :=
      match h : Members.get? children ms with
      | none => .missing children
      | some (.arr xs) =>
        .ofExcept children (xs.attach.mapM fun ⟨x, hx⟩ =>
          have := Members.sizeOf_get? h
          have := List.sizeOf_lt_of_mem hx
          Tree.decode own width row children x)
      | some _ => .bad children .mismatched
    ((own (Members.look ms)).both below).result.map fun (a, ts) => .node a ts
  | .arr xs => do
    let a ← row (xs.take width)
    match h : xs.drop width with
    | .arr ys :: rest =>
      let ts ← ys.attach.mapM fun ⟨y, hy⟩ =>
        have := List.sizeOf_lt_of_mem hy
        have : .arr ys ∈ xs := List.mem_of_mem_drop (h ▸ List.mem_cons_self)
        have := List.sizeOf_lt_of_mem this
        Tree.decode own width row children y
      if rest.isEmpty then return .node a ts else .error .mismatched
    | _ => .error .mismatched
  | _ => .error .mismatched
termination_by j => sizeOf j
decreasing_by
  all_goals simp_all
  all_goals omega

mutual

/-- Reads a value. Inside the parts of a record and inside alternatives the values are `buffered`. -/
def Shape.decode (buffered : Bool) : (s : Shape) → Json → Except DecodeError s.Val
  | .bool, j => Decode.bool j
  | .int64, j => Decode.int64 j
  | .port, j => Decode.port j
  | .real, j => Decode.real j
  | .text, j => Decode.text j
  | .json, j => .ok j
  | .object, j => Decode.object j
  | .ipv4, j => Decode.spelled Ipv4.parse .badIpv4 j
  | .ipv6, j => Decode.spelled Ipv6.parse .badIpv6 j
  | .uuid, j => Decode.spelled Uuid.parse .badUuid j
  | .timestamp, j => Decode.spelled Timestamp.parse .badTimestamp j
  | .choice c, j => c.decode buffered j
  | .lenient c, j => Lenient.decode c j
  | .location, j => Location.decode j
  | .nullable s, j =>
    match j with
    | .null => .ok none
    | j => (s.decode buffered j).map some
  | .list s, j => Decode.items (s.decode buffered) j
  | .dict s, j => Decode.entries (s.decode buffered) j
  | .set k, j => (Decode.items (Decode.key buffered k) j).map SortedSet.ofList
  | .record own parts, j =>
    match j with
    | .obj ms => do
      let a ← (own.decode buffered (Members.look ms)).result
      let b ← parts.decode (Members.look ms)
      return (a, b)
    | .arr xs => do
      let b ← parts.decodeNone
      let (a, rest) ← own.decodeRow buffered xs
      if rest.isEmpty then return (a, b) else .error .mismatched
    | _ => .error .mismatched
  | .selection, j =>
    match j with
    | .obj ms => Decode.selection buffered (Members.look ms)
    | .arr xs => Decode.selectionRow buffered xs
    | _ => .error .mismatched
  | .tagged tag alternatives, j =>
    match j with
    | .obj ms => do
      let name ← Decode.tag tag (Members.get? tag ms)
      alternatives.decode alternatives.names name (Members.look ms)
    | .arr [] => .error (.missing tag)
    | .arr (.str name :: _) =>
      .error (if name ∈ alternatives.names then .mismatched
        else .unknownVariant name alternatives.names)
    | _ => .error .mismatched
  | .tree own children, j =>
    Tree.decode (own.decode buffered) own.names.length
      (fun xs => (own.decodeRow buffered xs).map (·.1)) children j

def Slots.decode (buffered : Bool) : (own : Slots) → (String → Option Json) → Reading own.Val
  | .nil, _ => .done ()
  | .cons n p s rest, look =>
    (p.read n (s.decode buffered) (look n)).both (rest.decode buffered look)

def Slots.decodeRow (buffered : Bool) :
    (own : Slots) → List Json → Except DecodeError (own.Val × List Json)
  | .nil, xs => .ok ((), xs)
  | .cons _ p s rest, xs => do
    let (a, xs) ← p.readNext (s.decode buffered) xs
    let (b, xs) ← rest.decodeRow buffered xs
    return ((a, b), xs)

def Parts.decode : (parts : Parts) → (String → Option Json) → Except DecodeError parts.Val
  | .nil, _ => .ok ()
  | .record own parts rest, look => do
    let a ← (own.decode parts.isNil look).result
    let b ← parts.decode look
    let c ← rest.decode look
    return ((a, b), c)
  | .selection rest, look => do
    let a ← Decode.selection true look
    let c ← rest.decode look
    return (a, c)

def Parts.decodeNone : (parts : Parts) → Except DecodeError parts.Val
  | .nil => .ok ()
  | _ => .error .mismatched

def Alternatives.decode (names : List String) : (alternatives : Alternatives) → String →
    (String → Option Json) → Except DecodeError alternatives.Val
  | .nil, name, _ => .error (.unknownVariant name names)
  | .cons n own parts rest, name, look =>
    if n = name then do
      let a ← (own.decode true look).result
      let b ← parts.decode look
      return .inl (a, b)
    else (rest.decode names name look).map .inr

end

end SupervisorApi
