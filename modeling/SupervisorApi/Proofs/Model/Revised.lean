import SupervisorApi.Proofs.Model.RoundTrip

/-!
Answers of a later Supervisor: the same document with members that are not known here, and with other
names from open lists. `decode_revised`: it is still read, and what is read differs in those names
alone.
-/

set_option autoImplicit false

namespace SupervisorApi

abbrev Renaming := Place → String → String

def Renaming.edit (ρ : Renaming) : Edit
  | place, .lenient c, x =>
    if ρ place (Lenient.name x) = Lenient.name x then x else Lenient.parse c (ρ place (Lenient.name x))
  | _, _, v => v

theorem Renaming.name_edit (ρ : Renaming) (place : Place) {c : Choice} (x : Lenient c) :
    Lenient.name (ρ.edit place (.lenient c) x) = ρ place x.name := by
  by_cases kept : ρ place x.name = x.name
  · exact (congrArg Lenient.name (if_pos kept)).trans kept.symm
  · exact (congrArg Lenient.name (if_neg kept)).trans (Lenient.name_parse c _)

theorem Renaming.edit_parse (ρ : Renaming) (place : Place) (c : Choice) (n : String) :
    ρ.edit place (.lenient c) (Lenient.parse c n) = Lenient.parse c (ρ place n) := by
  have named := Lenient.name_parse c n
  by_cases kept : ρ place (Lenient.parse c n).name = (Lenient.parse c n).name
  · refine (if_pos kept).trans ?_
    rw [named] at kept
    rw [kept]
  · refine (if_neg kept).trans ?_
    rw [named]

def Shape.rename (s : Shape) (ρ : Renaming) (v : s.Val) : s.Val :=
  s.amend ρ.edit [] v

def Added (before after : Option Json) : Prop :=
  before = none ∨ after = before

abbrev Others := Option Json → Option Json → Prop

def Others.Hold (others : Others) (names : List String) (look look' : String → Option Json) : Prop :=
  ∀ key ∉ names, others (look key) (look' key)

theorem Others.hold_added {names : List String} {ms ns : Members}
    (known : ms.map Prod.fst ⊆ names) : Others.Hold Added names (Members.look ms) (Members.look ns) :=
  fun _ other => .inl (Members.get?_of_not_mem fun member => other (known member))

def Presence.Revised (p : Presence) (revised : Json → Json → Prop) :
    Option Json → Option Json → Prop
  | none, none => True
  | some x, some y => (p ≠ .required ∧ x = .null ∧ y = .null) ∨ revised x y
  | _, _ => False

def Items (related : Nat → Json → Json → Prop) (xs ys : List Json) : Prop :=
  ys.length = xs.length ∧ ∀ i x y, xs[i]? = some x → ys[i]? = some y → related i x y

inductive Tree.Revised (others : Others)
    (own : Place → (String → Option Json) → (String → Option Json) → Prop)
    (row : Place → List Json → List Json → Prop) (names : List String) (children : String) :
    Place → Json → Json → Prop
  | object {place : Place} {ms ns : Members} {xs ys : List Json}
      (here : own place (Members.look ms) (Members.look ns))
      (before : Members.look ms children = some (.arr xs))
      (after : Members.look ns children = some (.arr ys))
      (rest : others.Hold (names ++ [children]) (Members.look ms) (Members.look ns))
      (length : ys.length = xs.length)
      (below : ∀ i x y, xs[i]? = some x → ys[i]? = some y →
        Tree.Revised others own row names children (.item i :: .member children :: place) x y) :
      Tree.Revised others own row names children place (.obj ms) (.obj ns)
  -- A record may come as an array too: its members in their order, the children last.
  | array {place : Place} {front front' xs ys : List Json}
      (here : row place front front')
      (before : front.length = names.length)
      (after : front'.length = names.length)
      (length : ys.length = xs.length)
      (below : ∀ i x y, xs[i]? = some x → ys[i]? = some y →
        Tree.Revised others own row names children (.item i :: .member children :: place) x y) :
      Tree.Revised others own row names children place (.arr (front ++ [.arr xs]))
        (.arr (front' ++ [.arr ys]))

mutual

/-- A document for a value of a form, and one that differs from it in the names from open lists and
in the members that are not known where they stand. -/
def Shape.Revised (others : Others) (ρ : Renaming) : Shape → Place → Json → Json → Prop
  | .lenient _, place, j, j' => ∃ x, j = .str x ∧ j' = .str (ρ place x)
  | .nullable s, place, j, j' => (j = .null ∧ j' = .null) ∨ s.Revised others ρ place j j'
  | .list s, place, j, j' => ∃ xs ys, j = .arr xs ∧ j' = .arr ys ∧
    Items (fun i => s.Revised others ρ (.item i :: place)) xs ys
  | .dict s, place, j, j' => ∃ ms ns, j = .obj ms ∧ j' = .obj ns ∧
    List.Forall₂ (fun m n => n.1 = m.1 ∧ s.Revised others ρ (.member m.1 :: place) m.2 n.2) ms ns
  | .record own parts, place, j, j' =>
    (∃ ms ns, j = .obj ms ∧ j' = .obj ns ∧
      own.Revised others ρ place (Members.look ms) (Members.look ns) ∧
      parts.Revised others ρ place (Members.look ms) (Members.look ns) ∧
      others.Hold (own.names ++ parts.names) (Members.look ms) (Members.look ns)) ∨
    ∃ xs ys, j = .arr xs ∧ j' = .arr ys ∧ own.RevisedRow others ρ place xs ys
  | .selection, _, j, j' =>
    (∃ ms ns, j = .obj ms ∧ j' = .obj ns ∧
      (∀ n ∈ Selection.names, Members.look ns n = Members.look ms n) ∧
      others.Hold Selection.names (Members.look ms) (Members.look ns)) ∨
    ∃ xs, j = .arr xs ∧ j' = .arr xs
  | .tagged tag alternatives, place, j, j' => ∃ ms ns n, j = .obj ms ∧ j' = .obj ns ∧
    Members.look ms tag = some (.str n) ∧ Members.look ns tag = some (.str n) ∧
    alternatives.Revised others ρ tag n place (Members.look ms) (Members.look ns)
  | .tree own children, place, j, j' =>
    Tree.Revised others (own.Revised others ρ) (own.RevisedRow others ρ) own.names children place j j'
  | _, _, j, j' => j' = j

def Slots.Revised (others : Others) (ρ : Renaming) : Slots → Place → (String → Option Json) →
    (String → Option Json) → Prop
  | .nil, _, _, _ => True
  | .cons n p s rest, place, look, look' =>
    p.Revised (s.Revised others ρ (.member n :: place)) (look n) (look' n) ∧
      rest.Revised others ρ place look look'

-- Members that come as an array have no names, so none is added there.
def Slots.RevisedRow (others : Others) (ρ : Renaming) : Slots → Place → List Json → List Json → Prop
  | .nil, _, xs, ys => ys = xs
  | .cons n p s rest, place, xs, ys =>
    p.Revised (s.Revised others ρ (.member n :: place)) xs.head? ys.head? ∧
      rest.RevisedRow others ρ place xs.tail ys.tail

def Parts.Revised (others : Others) (ρ : Renaming) : Parts → Place → (String → Option Json) →
    (String → Option Json) → Prop
  | .nil, _, _, _ => True
  | .record own parts rest, place, look, look' => own.Revised others ρ place look look' ∧
    parts.Revised others ρ place look look' ∧ rest.Revised others ρ place look look'
  | .selection rest, place, look, look' =>
    (∀ n ∈ Selection.names, look' n = look n) ∧ rest.Revised others ρ place look look'

def Alternatives.Revised (others : Others) (ρ : Renaming) (tag : String) : Alternatives → String →
    Place → (String → Option Json) → (String → Option Json) → Prop
  | .nil, _, _, _, _ => False
  | .cons n own parts rest, name, place, look, look' =>
    if n = name then own.Revised others ρ place look look' ∧
      parts.Revised others ρ place look look' ∧
      others.Hold (tag :: (own.names ++ parts.names)) look look'
    else rest.Revised others ρ tag name place look look'

end

theorem Items.forall₂_mapIdx {α : Type} {R S : Json → α → Prop} {related : Nat → Json → Json → Prop}
    {xs ys : List Json} {as : List α} {f : Nat → α → α} (items : Items related xs ys)
    (read : List.Forall₂ R xs as)
    (each : ∀ i x y a, related i x y → R x a → S y (f i a)) : List.Forall₂ S ys (as.mapIdx f) := by
  induction read generalizing related f ys with
  | nil => simp [List.length_eq_zero_iff.mp items.1]
  | @cons x a xs as first _ ih =>
    obtain ⟨length, belong⟩ := items
    cases ys with
    | nil => cases length
    | cons y ys =>
      rw [List.mapIdx_cons]
      refine .cons (each 0 x y a (belong 0 x y rfl rfl) first) (ih ⟨by simpa using length,
        fun i x y before after => belong (i + 1) x y before after⟩ fun i => each (i + 1))

namespace Dict

variable {β γ : Type} {f : String → β → γ}

theorem map_place (f : String → β → γ) (key : String) (value : β) (l : List (String × β)) :
    (place key value l).map (fun e => (e.1, f e.1 e.2)) =
      place key (f key value) (l.map fun e => (e.1, f e.1 e.2)) := by
  induction l with
  | nil => rfl
  | cons e l ih =>
    simp only [place, List.map_cons]
    split
    next => rfl
    next =>
      split
      next => rw [List.map_cons, ih]
      next => rfl

theorem map_ofList (f : String → β → γ) (l : List (String × β)) :
    map f (ofList l) = ofList (l.map fun e => (e.1, f e.1 e.2)) := by
  refine ext ?_
  induction l using List.reverseRecOn with
  | nil => rfl
  | append_singleton l e ih =>
    rw [List.map_append, List.map_singleton, entries_ofList_concat, ← ih]
    have last := map_place f e.1 e.2 (ofList l).entries
    rwa [← entries_ofList_concat] at last

end Dict

namespace Presence

variable {α : Type} {name : String} {f : α → α} {decode : Json → Except DecodeError α}
  {revised : Json → Json → Prop}

theorem read_revised (p : Presence) {j j' : Option Json} {a : p.Val α}
    (same : p.Revised revised j j') (read : p.read name decode j = .done a)
    (null : ∀ x y, revised x y → (y = .null ↔ x = .null))
    (each : ∀ x y w, revised x y → decode x = .ok w → decode y = .ok (f w)) :
    p.read name decode j' = .done (p.map f a) := by
  rw [read_eq_done_iff] at read ⊢
  obtain blank | ⟨x, w, rfl, there, found, rfl⟩ := read
  · left
    have unchanged : j' = j := by
      cases j with
      | none =>
        cases j' with
        | none => rfl
        | some y => exact same.elim
      | some x =>
        cases j' with
        | none => exact same.elim
        | some y =>
          obtain rfl := p.eq_null_of_blank blank
          obtain ⟨-, -, rfl⟩ | same := same
          · rfl
          · rw [(null _ _ same).mpr rfl]
    rw [unchanged, p.map_of_held (p.held_of_blank blank), blank]
  · right
    cases j' with
    | none => exact same.elim
    | some y =>
      obtain ⟨may, rfl, rfl⟩ | same := same
      · exact (there.elim may (absurd rfl)).elim
      · exact ⟨y, f w, rfl, there.imp_right fun there => mt (null x y same).mp there,
          each x y w same found, p.map_of w⟩

end Presence

namespace Tree

variable {α : Type} {own : Place → (String → Option Json) → (String → Option Json) → Prop}
  {others : Others} {row : Place → List Json → List Json → Prop} {names : List String}
  {children : String} {read : (String → Option Json) → Reading α}
  {readRow : List Json → Except DecodeError α} {f : Place → α → α}

theorem amendAll_eq_mapIdx (place : Place) (i : Nat) (ts : List (Tree α)) :
    amendAll f children place i ts = ts.mapIdx fun k => amend f children (.item (i + k) :: place) := by
  induction ts generalizing i with
  | nil => rfl
  | cons t ts ih => simp [amendAll, ih, List.mapIdx_cons, Nat.add_assoc, Nat.add_comm 1]

theorem decode_revised {place : Place} {j j' : Json} {t : Tree α}
    (same : Revised others own row names children place j j')
    (each : ∀ place look look' a, own place look look' → read look = .done a →
      read look' = .done (f place a))
    (eachRow : ∀ place xs ys a, row place xs ys → readRow xs = .ok a → readRow ys = .ok (f place a))
    (found : decode read names.length readRow children j = .ok t) :
    decode read names.length readRow children j' = .ok (amend f children place t) := by
  induction same generalizing t with
  | @object place ms ns xs ys here before after rest length below ih =>
    obtain ⟨a, xs', ts, first, there, items, rfl⟩ := decode_obj_iff.mp found
    cases there.symm.trans before
    refine decode_obj_iff.mpr ⟨_, ys, _, each place _ _ a here first, after, ?_, rfl⟩
    rw [amendAll_eq_mapIdx]
    simp only [Nat.zero_add]
    exact Items.forall₂_mapIdx ⟨length, ih⟩ items fun i x y t related read => related read
  | @array place front front' xs ys here before after length below ih =>
    obtain ⟨a, xs', ts, first, there, items, rfl⟩ := decode_arr_iff.mp found
    rw [← before, List.take_left'  rfl] at first
    rw [← before, List.drop_left' rfl] at there
    cases there
    refine decode_arr_iff.mpr ⟨_, ys, _, eachRow place _ _ a ?_ first, ?_, ?_, rfl⟩
    · rwa [← after, List.take_left' rfl]
    · rw [← after, List.drop_left' rfl]
    · rw [amendAll_eq_mapIdx]
      simp only [Nat.zero_add]
      exact Items.forall₂_mapIdx ⟨length, ih⟩ items fun i x y t related read => related read

end Tree

theorem Shape.revised_null (s : Shape) {others : Others} {ρ : Renaming} {place : Place}
    {j j' : Json} (same : s.Revised others ρ place j j') : j' = .null ↔ j = .null := by
  cases s with
  | lenient c =>
    obtain ⟨x, rfl, rfl⟩ := same
    simp
  | nullable s =>
    obtain ⟨rfl, rfl⟩ | same := same
    · simp
    · exact s.revised_null same
  | list s =>
    obtain ⟨xs, ys, rfl, rfl, -⟩ := same
    simp
  | dict s =>
    obtain ⟨ms, ns, rfl, rfl, -⟩ := same
    simp
  | record own parts =>
    obtain ⟨ms, ns, rfl, rfl, -⟩ | ⟨xs, ys, rfl, rfl, -⟩ := same <;> simp
  | selection =>
    obtain ⟨ms, ns, rfl, rfl, -⟩ | ⟨xs, rfl, rfl⟩ := same <;> simp
  | tagged tag alternatives =>
    obtain ⟨ms, ns, n, rfl, rfl, -⟩ := same
    simp
  | tree own children => cases same <;> simp
  | _ => cases same; rfl

-- Both documents are taken apart along the form: a name from an open list is read as it stands, and the
-- members that are not known are never looked up.
mutual

theorem Shape.decode_revised (s : Shape) {ρ : Renaming} (place : Place) {j j' : Json} (v : s.Val)
    (buffered : Bool) (same : s.Revised Added ρ place j j') (read : s.decode buffered j = .ok v) :
    s.decode buffered j' = .ok (s.amend ρ.edit place v) := by
  cases s with
  | lenient c =>
    obtain ⟨x, rfl, rfl⟩ := same
    cases read
    exact congrArg Except.ok (ρ.edit_parse place c x).symm
  | nullable s =>
    obtain ⟨rfl, rfl⟩ | ⟨there, a, inner, rfl⟩ := Shape.decode_nullable_iff.mp read
    · obtain ⟨-, rfl⟩ | same := same
      · rfl
      · rw [(s.revised_null same).mpr rfl]
        rfl
    · obtain ⟨null, -⟩ | same := same
      · exact absurd null there
      · exact Shape.decode_nullable_iff.mpr (.inr ⟨mt (s.revised_null same).mp there, _,
          s.decode_revised place a buffered same inner, rfl⟩)
  | list s =>
    obtain ⟨xs, ys, rfl, rfl, same⟩ := same
    obtain ⟨_, ⟨⟩, items⟩ := Shape.decode_list_iff.mp read
    exact Shape.decode_list_iff.mpr ⟨ys, rfl, same.forall₂_mapIdx items fun i x y a same read =>
      s.decode_revised (.item i :: place) a buffered same read⟩
  | dict s =>
    obtain ⟨ms, ns, rfl, rfl, same⟩ := same
    obtain ⟨_, es, ⟨⟩, entries, rfl⟩ := Shape.decode_dict_iff.mp read
    refine Shape.decode_dict_iff.mpr ⟨ns, _, rfl, ?_, Dict.map_ofList _ es⟩
    refine List.forall₂_map_right_iff.mpr (forall₂_of_common entries same fun m e n read same => ?_)
    rw [read.2]
    exact ⟨s.decode_revised (.member m.1 :: place) e.2 buffered same.2 read.1, same.1.symm⟩
  | record own parts =>
    obtain ⟨a, b⟩ := v
    obtain ⟨ms, ns, rfl, rfl, sameOwn, sameParts, -⟩ | ⟨xs, ys, rfl, rfl, sameRow⟩ := same
    · obtain ⟨_, ⟨⟩, readOwn, readParts⟩ | ⟨_, ⟨⟩, -⟩ := Shape.decode_record_iff.mp read
      exact Shape.decode_record_iff.mpr (.inl ⟨ns, rfl,
        own.decode_revised place a buffered sameOwn readOwn,
        parts.decode_revised place b sameParts readParts⟩)
    · obtain ⟨_, ⟨⟩, -⟩ | ⟨_, ⟨⟩, readNone, readRow⟩ := Shape.decode_record_iff.mp read
      obtain rfl := Parts.decodeNone_eq_ok readNone
      exact Shape.decode_record_iff.mpr (.inr ⟨ys, rfl, readNone,
        own.decodeRow_revised place a buffered sameRow readRow⟩)
  | selection =>
    obtain ⟨ms, ns, rfl, rfl, same, -⟩ | ⟨xs, rfl, rfl⟩ := same
    · exact (Selection.decode_congr buffered same).trans read
    · exact read
  | tagged tag alternatives =>
    obtain ⟨ms, ns, n, rfl, rfl, found, found', same⟩ := same
    obtain ⟨_, m, ⟨⟩, named, inner⟩ := Shape.decode_tagged_iff.mp read
    cases named.symm.trans found
    exact Shape.decode_tagged_iff.mpr ⟨ns, n, rfl, found',
      alternatives.decode_revised place v same inner⟩
  | tree own children =>
    refine Tree.decode_revised same
      (fun place look look' a same read => own.decode_revised place a buffered same read)
      (fun place xs ys a same read => ?_) read
    obtain ⟨⟨_, zs⟩, row, rfl⟩ := Except.map_eq_ok_iff.mp read
    exact Except.map_eq_ok_iff.mpr ⟨_, own.decodeRow_revised place _ buffered same row, rfl⟩
  | _ => cases same; exact read

theorem Slots.decode_revised (own : Slots) {ρ : Renaming} (place : Place)
    {look look' : String → Option Json} (a : own.Val) (buffered : Bool)
    (same : own.Revised Added ρ place look look') (read : own.decode buffered look = .done a) :
    own.decode buffered look' = .done (own.amend ρ.edit place a) := by
  cases own with
  | nil => rfl
  | cons n p s rest =>
    obtain ⟨a, b⟩ := a
    obtain ⟨first, later⟩ := Slots.decode_cons_iff.mp read
    exact Slots.decode_cons_iff.mpr ⟨p.read_revised same.1 first (fun _ _ => s.revised_null)
        fun x y w same read => s.decode_revised (.member n :: place) w buffered same read,
      rest.decode_revised place b buffered same.2 later⟩

theorem Slots.decodeRow_revised (own : Slots) {ρ : Renaming} (place : Place) {xs ys zs : List Json}
    (a : own.Val) (buffered : Bool) (same : own.RevisedRow Added ρ place xs ys)
    (read : own.decodeRow buffered xs = .ok (a, zs)) :
    own.decodeRow buffered ys = .ok (own.amend ρ.edit place a, zs) := by
  cases own with
  | nil =>
    cases same
    exact read
  | cons n p s rest =>
    obtain ⟨a, b⟩ := a
    obtain ⟨first, long, later⟩ := Slots.decodeRow_cons_iff.mp read
    refine Slots.decodeRow_cons_iff.mpr ⟨p.read_revised same.1 first (fun _ _ => s.revised_null)
        fun x y w same read => s.decode_revised (.member n :: place) w buffered same read,
      fun empty => long ?_, rest.decodeRow_revised place b buffered same.2 later⟩
    subst empty
    cases xs with
    | nil => rfl
    | cons => exact same.1.elim

theorem Parts.decode_revised (parts : Parts) {ρ : Renaming} (place : Place)
    {look look' : String → Option Json} (b : parts.Val)
    (same : parts.Revised Added ρ place look look') (read : parts.decode look = .ok b) :
    parts.decode look' = .ok (parts.amend ρ.edit place b) := by
  cases parts with
  | nil => rfl
  | record own parts rest =>
    obtain ⟨⟨a, b⟩, c⟩ := b
    obtain ⟨first, second, third⟩ := Parts.decode_record_iff.mp read
    exact Parts.decode_record_iff.mpr ⟨own.decode_revised place a _ same.1 first,
      parts.decode_revised place b same.2.1 second, rest.decode_revised place c same.2.2 third⟩
  | selection rest =>
    obtain ⟨a, c⟩ := b
    obtain ⟨first, second⟩ := Parts.decode_selection_iff.mp read
    exact Parts.decode_selection_iff.mpr ⟨(Selection.decode_congr true same.1).trans first,
      rest.decode_revised place c same.2 second⟩

theorem Alternatives.decode_revised (alternatives : Alternatives) {ρ : Renaming} {tag name : String}
    (place : Place) {look look' : String → Option Json} {names : List String} (v : alternatives.Val)
    (same : alternatives.Revised Added ρ tag name place look look')
    (read : alternatives.decode names name look = .ok v) :
    alternatives.decode names name look' = .ok (alternatives.amend ρ.edit place v) := by
  cases alternatives with
  | nil => exact v.elim
  | cons n own parts rest =>
    rw [Alternatives.Revised] at same
    by_cases named : n = name
    · subst named
      rw [if_pos rfl] at same
      obtain ⟨a, b, first, second, rfl⟩ := Alternatives.decode_cons_same.mp read
      exact Alternatives.decode_cons_same.mpr ⟨_, _, own.decode_revised place a true same.1 first,
        parts.decode_revised place b same.2.1 second, rfl⟩
    · rw [if_neg named] at same
      obtain ⟨w, later, rfl⟩ := (Alternatives.decode_cons_other named).mp read
      exact (Alternatives.decode_cons_other named).mpr
        ⟨_, rest.decode_revised place w same later, rfl⟩

end

end SupervisorApi
