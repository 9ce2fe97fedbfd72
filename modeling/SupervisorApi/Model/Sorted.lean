set_option autoImplicit false

namespace SupervisorApi

class KeyOrder (α : Type) where
  lt : α → α → Prop
  decidableLt : DecidableRel lt
  irrefl : ∀ a, ¬ lt a a
  trans : ∀ {a b c}, lt a b → lt b c → lt a c
  connected : ∀ {a b}, ¬ lt a b → ¬ lt b a → a = b

instance {α : Type} [KeyOrder α] : DecidableRel (KeyOrder.lt (α := α)) :=
  KeyOrder.decidableLt

instance : KeyOrder String where
  lt := (· < ·)
  decidableLt := inferInstance
  irrefl := String.lt_irrefl
  trans := String.lt_trans
  connected := fun h g => String.le_antisymm (String.not_lt.1 g) (String.not_lt.1 h)

instance {n : Nat} : KeyOrder (Fin n) where
  lt := (· < ·)
  decidableLt := inferInstance
  irrefl := fun a => Nat.lt_irrefl a.val
  trans := fun h g => Nat.lt_trans h g
  connected := fun h g => Fin.ext (Nat.le_antisymm (Nat.not_lt.1 g) (Nat.not_lt.1 h))

def Option.before {α : Type} [KeyOrder α] : Option α → Option α → Prop
  | none, some _ => True
  | some a, some b => KeyOrder.lt a b
  | _, none => False

instance {α : Type} [KeyOrder α] : KeyOrder (Option α) where
  lt := Option.before
  decidableLt := fun a b =>
    match a, b with
    | none, some _ => .isTrue trivial
    | some a, some b => inferInstanceAs (Decidable (KeyOrder.lt a b))
    | none, none => .isFalse fun h => h
    | some _, none => .isFalse fun h => h
  irrefl := fun a => by
    cases a
    · exact fun h => h
    · exact KeyOrder.irrefl _
  trans := fun {a b c} h g => by
    cases a <;> cases b <;> cases c <;> simp_all only [Option.before]
    exact KeyOrder.trans h g
  connected := fun {a b} h g => by
    cases a <;> cases b <;> simp_all only [Option.before, not_true_eq_false]
    rw [KeyOrder.connected h g]

structure SortedSet (α : Type) [KeyOrder α] where
  items : List α
  ascending : items.Pairwise KeyOrder.lt

namespace SortedSet

variable {α : Type} [KeyOrder α]

@[ext] theorem ext {s t : SortedSet α} (h : s.items = t.items) : s = t := by
  cases s; cases t; simp_all

def empty : SortedSet α := ⟨[], .nil⟩

def place (a : α) : List α → List α
  | [] => [a]
  | b :: rest =>
    if KeyOrder.lt a b then a :: b :: rest
    else if KeyOrder.lt b a then b :: place a rest
    else b :: rest

theorem mem_place {a x : α} {l : List α} : x ∈ place a l ↔ x = a ∨ x ∈ l := by
  induction l with
  | nil => simp [place]
  | cons b rest ih =>
    unfold place
    split
    · simp
    · split
      · simp [ih, or_left_comm]
      · next h g => have := KeyOrder.connected h g; subst this; simp

theorem pairwise_place {a : α} {l : List α} (h : l.Pairwise KeyOrder.lt) :
    (place a l).Pairwise KeyOrder.lt := by
  induction l with
  | nil => simp [place]
  | cons b rest ih =>
    have hb := List.pairwise_cons.1 h
    unfold place
    split
    · next hab =>
      refine List.pairwise_cons.2 ⟨fun x hx => ?_, h⟩
      rcases List.mem_cons.1 hx with rfl | hx
      · exact hab
      · exact KeyOrder.trans hab (hb.1 x hx)
    · split
      · next hba =>
        refine List.pairwise_cons.2 ⟨fun x hx => ?_, ih hb.2⟩
        rcases mem_place.1 hx with rfl | hx
        · exact hba
        · exact hb.1 x hx
      · exact h

def insert (a : α) (s : SortedSet α) : SortedSet α :=
  ⟨place a s.items, pairwise_place s.ascending⟩

def ofList (l : List α) : SortedSet α :=
  l.foldr insert empty

theorem mem_ofList {x : α} {l : List α} : x ∈ (ofList l).items ↔ x ∈ l := by
  induction l with
  | nil => simp [ofList, empty]
  | cons a l ih => simp only [ofList, List.foldr_cons, insert, mem_place] at ih ⊢; simp [ih]

theorem items_ofList {l : List α} (h : l.Pairwise KeyOrder.lt) : (ofList l).items = l := by
  induction l with
  | nil => rfl
  | cons a l ih =>
    have ha := List.pairwise_cons.1 h
    have hl := ih ha.2
    simp only [ofList, List.foldr_cons, insert] at hl ⊢
    rw [hl]
    cases l with
    | nil => rfl
    | cons b rest => simp [place, ha.1 b (by simp)]

@[simp] theorem ofList_items (s : SortedSet α) : ofList s.items = s :=
  ext (items_ofList s.ascending)

def isEmpty (s : SortedSet α) : Bool :=
  s.items.isEmpty

end SortedSet

structure Dict (β : Type) where
  entries : List (String × β)
  ascending : entries.Pairwise (·.1 < ·.1)

namespace Dict

variable {β : Type}

@[ext] theorem ext {s t : Dict β} (h : s.entries = t.entries) : s = t := by
  cases s; cases t; simp_all

def empty : Dict β := ⟨[], .nil⟩

def place (k : String) (v : β) : List (String × β) → List (String × β)
  | [] => [(k, v)]
  | e :: rest =>
    if k < e.1 then (k, v) :: e :: rest
    else if e.1 < k then e :: place k v rest
    else (k, v) :: rest

theorem fst_place {k : String} {v : β} {l : List (String × β)} {e : String × β}
    (h : e ∈ place k v l) : e.1 = k ∨ e ∈ l := by
  induction l with
  | nil => simp only [place, List.mem_singleton] at h; exact .inl (h ▸ rfl)
  | cons b rest ih =>
    unfold place at h
    split at h
    · rcases List.mem_cons.1 h with rfl | h
      · exact .inl rfl
      · exact .inr h
    · split at h
      · rcases List.mem_cons.1 h with rfl | h
        · exact .inr (by simp)
        · rcases ih h with h | h
          · exact .inl h
          · exact .inr (by simp [h])
      · rcases List.mem_cons.1 h with rfl | h
        · exact .inl rfl
        · exact .inr (by simp [h])

theorem pairwise_place {k : String} {v : β} {l : List (String × β)}
    (h : l.Pairwise (·.1 < ·.1)) : (place k v l).Pairwise (·.1 < ·.1) := by
  induction l with
  | nil => simp [place]
  | cons b rest ih =>
    have hb := List.pairwise_cons.1 h
    unfold place
    split
    · next hab =>
      refine List.pairwise_cons.2 ⟨fun x hx => ?_, h⟩
      rcases List.mem_cons.1 hx with rfl | hx
      · exact hab
      · exact String.lt_trans hab (hb.1 x hx)
    · split
      · next hba =>
        refine List.pairwise_cons.2 ⟨fun x hx => ?_, ih hb.2⟩
        rcases fst_place hx with hx | hx
        · rw [hx]; exact hba
        · exact hb.1 x hx
      · next g h' =>
        have : k = b.1 := String.le_antisymm (String.not_lt.1 h') (String.not_lt.1 g)
        subst this
        exact List.pairwise_cons.2 ⟨hb.1, hb.2⟩

def insert (k : String) (v : β) (d : Dict β) : Dict β :=
  ⟨place k v d.entries, pairwise_place d.ascending⟩

-- Of two entries with one key the later stays.
def ofList (l : List (String × β)) : Dict β :=
  l.foldl (fun d e => d.insert e.1 e.2) empty

end Dict

end SupervisorApi
