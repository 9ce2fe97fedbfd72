import Mathlib.Logic.Basic
import SupervisorApi.Model.Shape
import SupervisorApi.Timestamp.Basic

set_option autoImplicit false

namespace SupervisorApi

inductive Step where
  | member (name : String)
  | item (i : Nat)

-- The steps from a place out to the whole value.
abbrev Place := List Step

-- What may be done to a value that has no places of its own.
abbrev Edit := Place → (s : Shape) → s.Val → s.Val

def Presence.map {α : Type} (p : Presence) (f : α → α) : p.Val α → p.Val α :=
  match p with
  | .required => f
  | .optional | .omitted => Option.map f
  | .field => Field.map f

def Dict.map {β γ : Type} (f : String → β → γ) (d : Dict β) : Dict γ where
  entries := d.entries.map fun e => (e.1, f e.1 e.2)
  ascending := List.pairwise_map.mpr d.ascending

namespace Tree

variable {α : Type}

mutual
def amend (f : Place → α → α) (children : String) : Place → Tree α → Tree α
  | place, .node a ts => .node (f place a) (amendAll f children (.member children :: place) 0 ts)

def amendAll (f : Place → α → α) (children : String) (place : Place) :
    Nat → List (Tree α) → List (Tree α)
  | _, [] => []
  | i, t :: ts => amend f children (.item i :: place) t :: amendAll f children place (i + 1) ts
end

end Tree

mutual

def Shape.amend (f : Edit) : (s : Shape) → Place → s.Val → s.Val
  | .nullable s, place, v => Option.map (s.amend f place) v
  | .list s, place, as => List.mapIdx (fun i => s.amend f (.item i :: place)) as
  | .dict s, place, d => Dict.map (fun key => s.amend f (.member key :: place)) d
  | .record own parts, place, (a, b) => (own.amend f place a, parts.amend f place b)
  | .tagged _ alternatives, place, v => alternatives.amend f place v
  | .tree own children, place, t => Tree.amend (own.amend f) children place t
  | s, place, v => f place s v

def Slots.amend (f : Edit) : (own : Slots) → Place → own.Val → own.Val
  | .nil, _, a => a
  | .cons n p s rest, place, (a, b) =>
    (p.map (s.amend f (.member n :: place)) a, rest.amend f place b)

def Parts.amend (f : Edit) : (parts : Parts) → Place → parts.Val → parts.Val
  | .nil, _, a => a
  | .record own parts rest, place, ((a, b), c) =>
    ((own.amend f place a, parts.amend f place b), rest.amend f place c)
  | .selection rest, place, (a, c) => (a, rest.amend f place c)

def Alternatives.amend (f : Edit) : (alternatives : Alternatives) → Place → alternatives.Val →
    alternatives.Val
  | .cons _ own parts _, place, .inl (a, b) => .inl (own.amend f place a, parts.amend f place b)
  | .cons _ _ _ rest, place, .inr v => .inr (rest.amend f place v)

end

mutual

def Shape.leaves : Shape → List Shape
  | .nullable s | .list s | .dict s => s.leaves
  | .record own parts => own.leaves ++ parts.leaves
  | .tagged _ alternatives => alternatives.leaves
  | .tree own _ => own.leaves
  | s => [s]

def Slots.leaves : Slots → List Shape
  | .nil => []
  | .cons _ _ s rest => s.leaves ++ rest.leaves

def Parts.leaves : Parts → List Shape
  | .nil => []
  | .record own parts rest => own.leaves ++ parts.leaves ++ rest.leaves
  | .selection rest => rest.leaves

def Alternatives.leaves : Alternatives → List Shape
  | .nil => []
  | .cons _ own parts rest => own.leaves ++ parts.leaves ++ rest.leaves

end

def Edit.Keeps (f : Edit) (leaves : List Shape) : Prop :=
  ∀ s ∈ leaves, ∀ place v, f place s v = v

namespace Edit.Keeps

variable {f : Edit} {front back : List Shape}

theorem left (keeps : f.Keeps (front ++ back)) : f.Keeps front :=
  fun s leaf => keeps s (List.mem_append_left _ leaf)

theorem right (keeps : f.Keeps (front ++ back)) : f.Keeps back :=
  fun s leaf => keeps s (List.mem_append_right _ leaf)

end Edit.Keeps

theorem Presence.map_eq_self {α : Type} (p : Presence) {f : α → α} (same : ∀ a, f a = a)
    (a : p.Val α) : p.map f a = a := by
  obtain rfl : f = id := funext same
  cases p with
  | required => rfl
  | optional | omitted => exact Option.map_id_apply
  | field => exact Field.map_id a

theorem mapIdx_eq_self {α : Type} {f : Nat → α → α} (same : ∀ i a, f i a = a) (as : List α) :
    as.mapIdx f = as :=
  List.ext_getElem List.length_mapIdx fun i _ _ => by simp [same]

theorem Dict.map_eq_self {β : Type} {f : String → β → β} (same : ∀ key a, f key a = a)
    (d : Dict β) : map f d = d := by
  refine ext ?_
  simp [map, same]

mutual
theorem Tree.amend_eq_self {α : Type} {f : Place → α → α} (same : ∀ place a, f place a = a)
    (children : String) : (t : Tree α) → (place : Place) → amend f children place t = t
  | .node a ts, place =>
    congrArg₂ Tree.node (same place a) (amendAll_eq_self same children ts _ 0)

theorem Tree.amendAll_eq_self {α : Type} {f : Place → α → α} (same : ∀ place a, f place a = a)
    (children : String) : (ts : List (Tree α)) → (place : Place) → (i : Nat) →
      amendAll f children place i ts = ts
  | [], _, _ => rfl
  | t :: ts, place, i => congrArg₂ List.cons (amend_eq_self same children t _)
    (amendAll_eq_self same children ts place (i + 1))
end

mutual

theorem Shape.amend_eq_self (s : Shape) {f : Edit} (keeps : f.Keeps s.leaves) (place : Place)
    (v : s.Val) : s.amend f place v = v := by
  cases s with
  | nullable s =>
    cases v with
    | none => rfl
    | some a => exact congrArg some (s.amend_eq_self keeps place a)
  | list s =>
    exact mapIdx_eq_self (fun i a => s.amend_eq_self keeps (.item i :: place) a) v
  | dict s =>
    exact Dict.map_eq_self (fun key a => s.amend_eq_self keeps (.member key :: place) a) v
  | record own parts =>
    obtain ⟨a, b⟩ := v
    exact congrArg₂ Prod.mk (own.amend_eq_self keeps.left place a)
      (parts.amend_eq_self keeps.right place b)
  | tagged tag alternatives => exact alternatives.amend_eq_self keeps place v
  | tree own children =>
    exact Tree.amend_eq_self (fun place a => own.amend_eq_self keeps place a) children v place
  | _ => exact keeps _ List.mem_cons_self place v

theorem Slots.amend_eq_self (own : Slots) {f : Edit} (keeps : f.Keeps own.leaves) (place : Place)
    (a : own.Val) : own.amend f place a = a := by
  cases own with
  | nil => rfl
  | cons n p s rest =>
    obtain ⟨a, b⟩ := a
    exact congrArg₂ Prod.mk
      (p.map_eq_self (fun w => s.amend_eq_self keeps.left (.member n :: place) w) a)
      (rest.amend_eq_self keeps.right place b)

theorem Parts.amend_eq_self (parts : Parts) {f : Edit} (keeps : f.Keeps parts.leaves)
    (place : Place) (b : parts.Val) : parts.amend f place b = b := by
  cases parts with
  | nil => rfl
  | record own parts rest =>
    obtain ⟨⟨a, b⟩, c⟩ := b
    exact congrArg₂ Prod.mk (congrArg₂ Prod.mk (own.amend_eq_self keeps.left.left place a)
      (parts.amend_eq_self keeps.left.right place b)) (rest.amend_eq_self keeps.right place c)
  | selection rest =>
    obtain ⟨a, c⟩ := b
    exact congrArg (Prod.mk a) (rest.amend_eq_self keeps place c)

theorem Alternatives.amend_eq_self (alternatives : Alternatives) {f : Edit}
    (keeps : f.Keeps alternatives.leaves) (place : Place) (v : alternatives.Val) :
    alternatives.amend f place v = v := by
  cases alternatives with
  | nil => exact v.elim
  | cons n own parts rest =>
    cases v with
    | inl v =>
      obtain ⟨a, b⟩ := v
      exact congrArg Sum.inl (congrArg₂ Prod.mk (own.amend_eq_self keeps.left.left place a)
        (parts.amend_eq_self keeps.left.right place b))
    | inr v => exact congrArg Sum.inr (rest.amend_eq_self keeps.right place v)

end

namespace Shape

def cutStamp : (s : Shape) → s.Val → s.Val
  | .timestamp, t => Timestamp.cut t
  | _, v => v

def cut (s : Shape) (v : s.Val) : s.Val :=
  s.amend (fun _ => cutStamp) [] v

end Shape

end SupervisorApi
