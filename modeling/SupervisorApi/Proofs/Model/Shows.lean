import SupervisorApi.Proofs.Model.Sound

set_option autoImplicit false

namespace SupervisorApi

def Only (names : List String) (look : String → Option Json) : Prop :=
  ∀ key ∉ names, look key = none

namespace Presence

variable {α : Type}

def held (p : Presence) : p.Val α → Option α :=
  match p with
  | .required => some
  | .optional | .omitted => fun a => a
  | .field => Field.toOption

def Shows (p : Presence) (shows : α → Json → Prop) : p.Val α → Option Json → Prop :=
  match p with
  | .required => fun a j => ∃ w, j = some w ∧ shows a w
  | .optional => fun
    | none, j => j = some .null
    | some a, j => ∃ w, j = some w ∧ w ≠ .null ∧ shows a w
  | .omitted => fun
    | none, j => j = none
    | some a, j => ∃ w, j = some w ∧ w ≠ .null ∧ shows a w
  | .field => fun
    | .unset, j => j = none
    | .null, j => j = some .null
    | .value a, j => ∃ w, j = some w ∧ w ≠ .null ∧ shows a w

end Presence

namespace Tree

variable {α : Type}

mutual
def Shows (own : α → (String → Option Json) → Prop) (names : List String) (children : String) :
    Tree α → Json → Prop
  | .node a ts, j => ∃ ms xs, j = .obj ms ∧ own a (Members.look ms) ∧
    Members.get? children ms = some (.arr xs) ∧ ShowsAll own names children ts xs ∧
    Only (names ++ [children]) (Members.look ms)

def ShowsAll (own : α → (String → Option Json) → Prop) (names : List String) (children : String) :
    List (Tree α) → List Json → Prop
  | [], xs => xs = []
  | t :: ts, xs => ∃ x rest, xs = x :: rest ∧ Shows own names children t x ∧
    ShowsAll own names children ts rest
end

mutual
def All (P : α → Prop) : Tree α → Prop
  | .node a ts => P a ∧ AllBelow P ts

def AllBelow (P : α → Prop) : List (Tree α) → Prop
  | [] => True
  | t :: ts => All P t ∧ AllBelow P ts
end

end Tree

mutual

/-- All numbers in a value are finite. What is read always is: JSON has no other numbers. -/
def Shape.Finite : (s : Shape) → s.Val → Prop
  | .real, x => Binary64.isFinite x = true
  | .nullable _, none => True
  | .nullable s, some a => s.Finite a
  | .list s, as => List.Forall s.Finite as
  | .dict s, d => ∀ e ∈ Dict.entries d, s.Finite e.2
  | .record own parts, (a, b) => own.Finite a ∧ parts.Finite b
  | .tagged _ alternatives, v => alternatives.Finite v
  | .tree own _, t => Tree.All own.Finite t
  | _, _ => True

def Slots.Finite : (own : Slots) → own.Val → Prop
  | .nil, _ => True
  | .cons _ p s rest, (a, b) => (∀ w ∈ p.held a, s.Finite w) ∧ rest.Finite b

def Parts.Finite : (parts : Parts) → parts.Val → Prop
  | .nil, _ => True
  | .record own parts rest, ((a, b), c) => own.Finite a ∧ parts.Finite b ∧ rest.Finite c
  | .selection rest, (_, c) => rest.Finite c

def Alternatives.Finite : (alternatives : Alternatives) → alternatives.Val → Prop
  | .cons _ own parts _, .inl (a, b) => own.Finite a ∧ parts.Finite b
  | .cons _ _ _ rest, .inr v => rest.Finite v

end

mutual

def Shape.Shows : (s : Shape) → s.Val → Json → Prop
  | .real, x, j => Binary64.isFinite x = true ∧ j = .real x
  | .nullable _, none, j => j = .null
  | .nullable s, some a, j => j ≠ .null ∧ s.Shows a j
  | .list s, as, j => ∃ xs, j = .arr xs ∧ List.Forall₂ s.Shows as xs
  | .dict s, d, j => ∃ ms, j = .obj ms ∧
    List.Forall₂ (fun e m => m.1 = e.1 ∧ s.Shows e.2 m.2) (Dict.entries d) ms
  | .record own parts, (a, b), j => ∃ ms, j = .obj ms ∧ own.Shows a (Members.look ms) ∧
    parts.Shows b (Members.look ms) ∧ Only (own.names ++ parts.names) (Members.look ms)
  | .selection, s, j => ∃ ms, j = .obj ms ∧ Selection.Shows s (Members.look ms) ∧
    Only Selection.names (Members.look ms)
  | .tagged tag alternatives, v, j => ∃ ms, j = .obj ms ∧ alternatives.Shows tag v (Members.look ms)
  | .tree own children, t, j => Tree.Shows own.Shows own.names children t j
  | s, v, j => j = s.encode v

def Slots.Shows : (own : Slots) → own.Val → (String → Option Json) → Prop
  | .nil, _, _ => True
  | .cons n p s rest, (a, b), look => p.Shows s.Shows a (look n) ∧ rest.Shows b look

def Parts.Shows : (parts : Parts) → parts.Val → (String → Option Json) → Prop
  | .nil, _, _ => True
  | .record own parts rest, ((a, b), c), look =>
    own.Shows a look ∧ parts.Shows b look ∧ rest.Shows c look
  | .selection rest, (a, c), look => Selection.Shows a look ∧ rest.Shows c look

def Alternatives.Shows (tag : String) : (alternatives : Alternatives) → alternatives.Val →
    (String → Option Json) → Prop
  | .cons n own parts _, .inl (a, b), look => look tag = some (.str n) ∧ own.Shows a look ∧
    parts.Shows b look ∧ Only (tag :: (own.names ++ parts.names)) look
  | .cons _ _ _ rest, .inr v, look => rest.Shows tag v look

end

section Keys

theorem Presence.keys_write {α : Type} (p : Presence) (name : String) (encode : α → Json)
    (a : p.Val α) : ((p.write name encode a).map Prod.fst).Sublist [name] := by
  cases p with
  | required => simp [write]
  | optional => cases a <;> simp [write]
  | omitted => cases a <;> simp [write]
  | field => cases a <;> simp [write]

theorem Slots.keys_sublist : (own : Slots) → (a : own.Val) →
    ((own.encode a).map Prod.fst).Sublist own.names
  | .nil, _ => .slnil
  | .cons n p s rest, (a, b) => by
    rw [Slots.encode, List.map_append]
    exact (p.keys_write n s.encode a).append (rest.keys_sublist b)

theorem Parts.keys_sublist : (parts : Parts) → (a : parts.Val) →
    ((parts.encode a).map Prod.fst).Sublist parts.names
  | .nil, _ => .slnil
  | .record own parts rest, ((a, b), c) => by
    rw [Parts.encode, List.map_append, List.map_append]
    exact ((own.keys_sublist a).append (parts.keys_sublist b)).append (rest.keys_sublist c)
  | .selection rest, (a, c) => by
    rw [Parts.encode, List.map_append]
    exact (Selection.keys_sublist a).append (rest.keys_sublist c)

end Keys

namespace Members

def Agree (names : List String) (look : String → Option Json) (ms : Members) : Prop :=
  ∀ n ∈ names, look n = get? n ms

variable {ms front back : Members} {names others : List String} {look' : String → Option Json}

theorem keys_append (before : (front.map Prod.fst).Sublist names)
    (after : (back.map Prod.fst).Sublist others) :
    ((front ++ back).map Prod.fst).Sublist (names ++ others) := by
  rw [List.map_append]
  exact before.append after

theorem Agree.left (agree : Agree (names ++ others) look' (front ++ back))
    (apart : (names ++ others).Nodup) (keys : (back.map Prod.fst).Sublist others) :
    Agree names look' front := by
  intro n named
  have absent : n ∉ back.map Prod.fst := fun member =>
    List.disjoint_of_nodup_append apart named (keys.subset member)
  rw [agree n (List.mem_append_left _ named), get?_append, get?_of_not_mem absent, Option.or_none]

theorem Agree.right (agree : Agree (names ++ others) look' (front ++ back))
    (apart : (names ++ others).Nodup) (keys : (front.map Prod.fst).Sublist names) :
    Agree others look' back := by
  intro n named
  have absent : n ∉ front.map Prod.fst := fun member =>
    List.disjoint_of_nodup_append apart (keys.subset member) named
  rw [agree n (List.mem_append_right _ named), get?_append, get?_of_not_mem absent, Option.none_or]

theorem agree_ofList (apart : names.Nodup) (keys : (ms.map Prod.fst).Sublist names) :
    Agree names (look (ofList ms)) ms :=
  fun key _ => get?_ofList (apart.sublist keys) key

theorem only_ofList (apart : names.Nodup) (keys : (ms.map Prod.fst).Sublist names) :
    Only names (look (ofList ms)) := by
  intro key other
  refine (get?_ofList (apart.sublist keys) key).trans ?_
  exact get?_of_not_mem fun member => other (keys.subset member)

end Members

theorem Selection.Shows.congr {s : Selection} {look other : String → Option Json}
    (shown : s.Shows look) (same : ∀ n ∈ names, other n = look n) : s.Shows other where
  addons := (same _ (by simp [names])).trans shown.addons
  folders := (same _ (by simp [names])).trans shown.folders
  homeassistant := (same _ (by simp [names])).trans shown.homeassistant

theorem Presence.shows_write {α : Type} (p : Presence) (name : String) {shows : α → Json → Prop}
    {encode : α → Json} {a : p.Val α} (each : ∀ w ∈ p.held a, shows w (encode w))
    (solid : p = .required ∨ ∀ w ∈ p.held a, encode w ≠ .null) :
    p.Shows shows a (Members.get? name (p.write name encode a)) := by
  cases p with
  | required => exact ⟨encode a, by simp [write, Members.get?], each a rfl⟩
  | optional =>
    cases a with
    | none => simp [write, Members.get?, Shows]
    | some w =>
      exact ⟨encode w, by simp [write, Members.get?], solid.resolve_left (by simp) w rfl, each w rfl⟩
  | omitted =>
    cases a with
    | none => rfl
    | some w =>
      exact ⟨encode w, by simp [write, Members.get?], solid.resolve_left (by simp) w rfl, each w rfl⟩
  | field =>
    cases a with
    | unset => rfl
    | null => simp [write, Members.get?, Shows]
    | value w =>
      exact ⟨encode w, by simp [write, Members.get?], solid.resolve_left (by simp) w rfl, each w rfl⟩

theorem Shape.encode_ne_null {s : Shape} {v : s.Val} (solid : s.isSolid = true)
    (finite : s.Finite v) : s.encode v ≠ .null := by
  cases s with
  | json => cases solid
  | nullable => cases solid
  | real =>
    have small : Binary64.isFinite v = true := finite
    simp [Shape.encode, Encode.real, small]
  | location => cases v <;> simp [Shape.encode, Location.encode]
  | tree own children =>
    cases v
    simp [Shape.encode, Tree.encode, Json.ofMembers]
  | record own parts =>
    cases v
    simp [Shape.encode, Json.ofMembers]
  | _ => simp [Shape.encode, Choice.encode, Lenient.encode, Json.ofMembers]

namespace Tree

variable {α : Type} {P : α → Prop} {own : α → (String → Option Json) → Prop}
  {write : α → Members} {names : List String} {children : String}

mutual
theorem shows_encode (apart : (names ++ [children]).Nodup)
    (keys : ∀ a, ((write a).map Prod.fst).Sublist names)
    (each : ∀ a look, P a → Members.Agree names look (write a) → own a look) :
    (t : Tree α) → t.All P → Shows own names children t (encode write children t)
  | .node a ts, ⟨here, below⟩ => by
    have last : ([(children, Json.arr (encodeAll write children ts))].map Prod.fst).Sublist
      [children] := .refl _
    have all := Members.keys_append (keys a) last
    have agree := Members.agree_ofList apart all
    refine ⟨_, _, rfl, each a _ here (agree.left apart last), ?_,
      shows_encodeAll apart keys each ts below, Members.only_ofList apart all⟩
    exact (agree.right apart (keys a) children List.mem_cons_self).trans (by simp [Members.get?])

theorem shows_encodeAll (apart : (names ++ [children]).Nodup)
    (keys : ∀ a, ((write a).map Prod.fst).Sublist names)
    (each : ∀ a look, P a → Members.Agree names look (write a) → own a look) :
    (ts : List (Tree α)) → AllBelow P ts →
      ShowsAll own names children ts (encodeAll write children ts)
  | [], _ => rfl
  | t :: ts, ⟨here, below⟩ => ⟨_, _, rfl, shows_encode apart keys each t here,
    shows_encodeAll apart keys each ts below⟩
end

end Tree

-- The members of a form are written one row after the other, so each row is handed the object by what
-- it finds under its own names: that no name stands in two rows is what `isSound` checks.
mutual

theorem Shape.shows_encode (s : Shape) (v : s.Val) (sound : s.isSound = true)
    (finite : s.Finite v) : s.Shows v (s.encode v) := by
  cases s with
  | real =>
    have small : Binary64.isFinite v = true := finite
    exact ⟨small, if_pos small⟩
  | nullable s =>
    cases v with
    | none => rfl
    | some a =>
      rw [Shape.isSound, Bool.and_eq_true] at sound
      exact ⟨Shape.encode_ne_null (s := s) sound.1 finite, s.shows_encode a sound.2 finite⟩
  | list s =>
    refine ⟨_, rfl, List.forall₂_map_right_iff.mpr (List.forall₂_same.mpr fun a member => ?_)⟩
    exact s.shows_encode a sound (List.forall_iff_forall_mem.mp finite a member)
  | dict s =>
    refine ⟨_, rfl, ?_⟩
    rw [Members.ofList_of_ascending (List.pairwise_map.mpr (Dict.ascending v)),
      List.forall₂_map_right_iff, List.forall₂_same]
    exact fun e member => ⟨rfl, s.shows_encode e.2 sound (finite e member)⟩
  | record own parts =>
    obtain ⟨a, b⟩ := v
    simp only [Shape.isSound, Bool.and_eq_true, decide_eq_true_eq] at sound
    obtain ⟨⟨soundOwn, soundParts⟩, apart⟩ := sound
    have all := Members.keys_append (own.keys_sublist a) (parts.keys_sublist b)
    have agree := Members.agree_ofList apart all
    exact ⟨_, rfl, own.shows_encode a _ soundOwn apart.of_append_left finite.1
        (agree.left apart (parts.keys_sublist b)),
      parts.shows_encode b _ soundParts apart.of_append_right finite.2
        (agree.right apart (own.keys_sublist a)), Members.only_ofList apart all⟩
  | selection =>
    have apart : Selection.names.Nodup := by decide
    have all := Selection.keys_sublist v
    exact ⟨_, rfl, (Selection.shows_encode v).congr (Members.agree_ofList apart all),
      Members.only_ofList apart all⟩
  | tagged tag alternatives =>
    simp only [Shape.isSound, Bool.and_eq_true] at sound
    exact ⟨_, rfl, alternatives.shows_encode tag v sound.1 finite⟩
  | tree own children =>
    simp only [Shape.isSound, Bool.and_eq_true, decide_eq_true_eq] at sound
    exact Tree.shows_encode sound.2 own.keys_sublist (fun a look finite agree =>
      own.shows_encode a look sound.1 sound.2.of_append_left finite agree) v finite
  | _ => rfl

theorem Slots.shows_encode (own : Slots) (a : own.Val) (look : String → Option Json)
    (sound : own.isSound = true) (apart : own.names.Nodup) (finite : own.Finite a)
    (agree : Members.Agree own.names look (own.encode a)) : own.Shows a look := by
  cases own with
  | nil => trivial
  | cons n p s rest =>
    obtain ⟨a, b⟩ := a
    simp only [Slots.isSound, Bool.and_eq_true, Bool.or_eq_true, decide_eq_true_eq] at sound
    obtain ⟨⟨solid, soundShape⟩, soundRest⟩ := sound
    have beside : ([n] ++ rest.names).Nodup := apart
    refine ⟨?_, rest.shows_encode b look soundRest apart.of_cons finite.2
      (Members.Agree.right agree beside (p.keys_write n s.encode a))⟩
    rw [Members.Agree.left agree beside (rest.keys_sublist b) n List.mem_cons_self]
    exact p.shows_write n (fun w held => s.shows_encode w soundShape (finite.1 w held))
      (solid.imp_right fun solid w held => Shape.encode_ne_null solid (finite.1 w held))

theorem Parts.shows_encode (parts : Parts) (b : parts.Val) (look : String → Option Json)
    (sound : parts.isSound = true) (apart : parts.names.Nodup) (finite : parts.Finite b)
    (agree : Members.Agree parts.names look (parts.encode b)) : parts.Shows b look := by
  cases parts with
  | nil => trivial
  | record own parts rest =>
    obtain ⟨⟨a, b⟩, c⟩ := b
    simp only [Parts.isSound, Bool.and_eq_true] at sound
    obtain ⟨⟨soundOwn, soundParts⟩, soundRest⟩ := sound
    have keys := Members.keys_append (own.keys_sublist a) (parts.keys_sublist b)
    have inner := Members.Agree.left agree apart (rest.keys_sublist c)
    have apart' := apart.of_append_left
    exact ⟨own.shows_encode a look soundOwn apart'.of_append_left finite.1
        (inner.left apart' (parts.keys_sublist b)),
      parts.shows_encode b look soundParts apart'.of_append_right finite.2.1
        (inner.right apart' (own.keys_sublist a)),
      rest.shows_encode c look soundRest apart.of_append_right finite.2.2
        (Members.Agree.right agree apart keys)⟩
  | selection rest =>
    obtain ⟨a, c⟩ := b
    exact ⟨(Selection.shows_encode a).congr (Members.Agree.left agree apart (rest.keys_sublist c)),
      rest.shows_encode c look sound apart.of_append_right finite
        (Members.Agree.right agree apart (Selection.keys_sublist a))⟩

theorem Alternatives.shows_encode (tag : String) (alternatives : Alternatives)
    (v : alternatives.Val) (sound : alternatives.isSound tag = true)
    (finite : alternatives.Finite v) :
    alternatives.Shows tag v (Members.look (Members.ofList (alternatives.encode tag v))) := by
  cases alternatives with
  | nil => exact v.elim
  | cons n own parts rest =>
    simp only [Alternatives.isSound, Bool.and_eq_true, decide_eq_true_eq] at sound
    obtain ⟨⟨⟨soundOwn, soundParts⟩, apart⟩, soundRest⟩ := sound
    cases v with
    | inr v => exact rest.shows_encode tag v soundRest finite
    | inl v =>
      obtain ⟨a, b⟩ := v
      have beside : ([tag] ++ (own.names ++ parts.names)).Nodup := apart
      have inner := apart.of_cons
      have first : ([(tag, Json.str n)].map Prod.fst).Sublist [tag] := .refl _
      have keys := Members.keys_append (own.keys_sublist a) (parts.keys_sublist b)
      have all := Members.keys_append first keys
      have agree := Members.agree_ofList beside all
      have members := agree.right beside first
      refine ⟨?_, own.shows_encode a _ soundOwn inner.of_append_left finite.1
          (members.left inner (parts.keys_sublist b)),
        parts.shows_encode b _ soundParts inner.of_append_right finite.2
          (members.right inner (own.keys_sublist a)), Members.only_ofList beside all⟩
      exact (agree.left beside keys tag List.mem_cons_self).trans (by simp [Members.get?])

end

end SupervisorApi
