import SupervisorApi.Proofs.Model.Revised

set_option autoImplicit false

namespace SupervisorApi

theorem Items.of_forall₂ {α : Type} {R : α → Json → Prop} {related : Nat → Json → Json → Prop}
    {as : List α} {xs ys : List Json} {f : Nat → α → α} (before : List.Forall₂ R as xs)
    (after : List.Forall₂ R (as.mapIdx f) ys)
    (each : ∀ i a x y, R a x → R (f i a) y → related i x y) : Items related xs ys := by
  induction before generalizing related f ys with
  | nil =>
    cases after
    exact ⟨rfl, nofun⟩
  | @cons a x as xs first rest ih =>
    rw [List.mapIdx_cons] at after
    cases after with
    | @cons _ y _ ys first' rest' =>
      obtain ⟨length, belong⟩ := ih rest' fun i => each (i + 1)
      refine ⟨congrArg (· + 1) length, fun i x' y' item item' => ?_⟩
      cases i with
      | zero =>
        cases item
        cases item'
        exact each 0 a x y first first'
      | succ i => exact belong i x' y' item item'

theorem Presence.revised_of_shows {α : Type} (p : Presence) {f : α → α} {shows : α → Json → Prop}
    {revised : Json → Json → Prop} {a : p.Val α} {j j' : Option Json} (before : p.Shows shows a j)
    (after : p.Shows shows (p.map f a) j')
    (each : ∀ w x y, shows w x → shows (f w) y → revised x y) : p.Revised revised j j' := by
  cases p with
  | required =>
    obtain ⟨x, rfl, before⟩ := before
    obtain ⟨y, rfl, after⟩ := after
    exact .inr (each a x y before after)
  | optional =>
    cases a with
    | none =>
      cases before
      cases after
      exact .inl ⟨nofun, rfl, rfl⟩
    | some w =>
      obtain ⟨x, rfl, -, before⟩ := before
      obtain ⟨y, rfl, -, after⟩ := after
      exact .inr (each w x y before after)
  | omitted =>
    cases a with
    | none =>
      cases before
      cases after
      trivial
    | some w =>
      obtain ⟨x, rfl, -, before⟩ := before
      obtain ⟨y, rfl, -, after⟩ := after
      exact .inr (each w x y before after)
  | field =>
    cases a with
    | unset =>
      cases before
      cases after
      trivial
    | null =>
      cases before
      cases after
      exact .inl ⟨nofun, rfl, rfl⟩
    | value w =>
      obtain ⟨x, rfl, -, before⟩ := before
      obtain ⟨y, rfl, -, after⟩ := after
      exact .inr (each w x y before after)

theorem Only.hold_eq {names : List String} {look look' : String → Option Json}
    (before : Only names look) (after : Only names look') : Others.Hold Eq names look look' :=
  fun key other => (before key other).trans (after key other).symm

namespace Tree

variable {α : Type} {own : Place → (String → Option Json) → (String → Option Json) → Prop}
  {row : Place → List Json → List Json → Prop} {names : List String} {children : String}
  {shows : α → (String → Option Json) → Prop} {f : Place → α → α}

mutual
theorem revised_of_shows
    (each : ∀ place a look look', shows a look → shows (f place a) look' → own place look look') :
    (t : Tree α) → (place : Place) → (j j' : Json) → Shows shows names children t j →
      Shows shows names children (amend f children place t) j' →
      Revised Eq own row names children place j j'
  | .node a ts, place, _, _, ⟨ms, xs, rfl, here, found, below, only⟩,
      ⟨ns, ys, rfl, here', found', below', only'⟩ =>
    have items := items_of_shows each ts (.member children :: place) 0 xs ys below below'
    .object (each place a _ _ here here') found found' (only.hold_eq only') items.1
      fun i x y item item' => by simpa using items.2 i x y item item'

theorem items_of_shows
    (each : ∀ place a look look', shows a look → shows (f place a) look' → own place look look') :
    (ts : List (Tree α)) → (place : Place) → (k : Nat) → (xs ys : List Json) →
      ShowsAll shows names children ts xs →
      ShowsAll shows names children (amendAll f children place k ts) ys →
      Items (fun i => Revised Eq own row names children (.item (k + i) :: place)) xs ys
  | [], _, _, _, _, rfl, rfl => ⟨rfl, nofun⟩
  | t :: ts, place, k, _, _, ⟨x, xs, rfl, here, below⟩, ⟨y, ys, rfl, here', below'⟩ => by
    have first := revised_of_shows each t (.item k :: place) x y here here'
    obtain ⟨length, belong⟩ := items_of_shows each ts place (k + 1) xs ys below below'
    refine ⟨congrArg (· + 1) length, fun i x' y' item item' => ?_⟩
    cases i with
    | zero =>
      cases item
      cases item'
      exact first
    | succ i => simpa [Nat.add_assoc, Nat.add_comm 1] using belong i x' y' item item'
end

end Tree

theorem Selection.look_eq_of_shows {s : Selection} {look look' : String → Option Json}
    (before : s.Shows look) (after : s.Shows look') : ∀ n ∈ names, look' n = look n := by
  simp [names, before.addons, before.folders, before.homeassistant, after.addons, after.folders,
    after.homeassistant]

-- What is written holds nothing that its form does not know, so here the other members are equal.
mutual

theorem Shape.revised_of_shows (s : Shape) {ρ : Renaming} (place : Place) (v : s.Val) {j j' : Json}
    (sound : s.isSound = true) (before : s.Shows v j) (after : s.Shows (s.amend ρ.edit place v) j') :
    s.Revised Eq ρ place j j' := by
  cases s with
  | lenient c =>
    cases before
    cases after
    exact ⟨Lenient.name v, rfl, congrArg Json.str (ρ.name_edit place v)⟩
  | real =>
    obtain ⟨-, rfl⟩ := before
    obtain ⟨-, rfl⟩ := after
    rfl
  | nullable s =>
    cases v with
    | none =>
      cases before
      cases after
      exact .inl ⟨rfl, rfl⟩
    | some a =>
      rw [Shape.isSound, Bool.and_eq_true] at sound
      exact .inr (s.revised_of_shows place a sound.2 before.2 after.2)
  | list s =>
    obtain ⟨xs, rfl, before⟩ := before
    obtain ⟨ys, rfl, after⟩ := after
    exact ⟨xs, ys, rfl, rfl, .of_forall₂ before after fun i a x y before after =>
      s.revised_of_shows (.item i :: place) a sound before after⟩
  | dict s =>
    obtain ⟨ms, rfl, before⟩ := before
    obtain ⟨ns, rfl, after⟩ := after
    refine ⟨ms, ns, rfl, rfl, List.Forall₂.flip (forall₂_of_common before
      (List.forall₂_map_left_iff.mp after) fun e m n before after => ?_)⟩
    show n.1 = m.1 ∧ s.Revised Eq ρ (.member m.1 :: place) m.2 n.2
    rw [before.1]
    exact ⟨after.1, s.revised_of_shows (.member e.1 :: place) e.2 sound before.2 after.2⟩
  | record own parts =>
    obtain ⟨a, b⟩ := v
    obtain ⟨ms, rfl, ownBefore, partsBefore, only⟩ := before
    obtain ⟨ns, rfl, ownAfter, partsAfter, only'⟩ := after
    simp only [Shape.isSound, Bool.and_eq_true] at sound
    exact .inl ⟨ms, ns, rfl, rfl, own.revised_of_shows place a sound.1.1 ownBefore ownAfter,
      parts.revised_of_shows place b sound.1.2 partsBefore partsAfter, only.hold_eq only'⟩
  | selection =>
    obtain ⟨ms, rfl, before, only⟩ := before
    obtain ⟨ns, rfl, after, only'⟩ := after
    exact .inl ⟨ms, ns, rfl, rfl, Selection.look_eq_of_shows before after, only.hold_eq only'⟩
  | tagged tag alternatives =>
    obtain ⟨ms, rfl, before⟩ := before
    obtain ⟨ns, rfl, after⟩ := after
    simp only [Shape.isSound, Bool.and_eq_true, decide_eq_true_eq] at sound
    obtain ⟨n, -, found, found', same⟩ :=
      alternatives.revised_of_shows place v sound.1 sound.2 before after
    exact ⟨ms, ns, n, rfl, rfl, found, found', same⟩
  | tree own children =>
    simp only [Shape.isSound, Bool.and_eq_true] at sound
    refine Tree.revised_of_shows (fun place a look look' before after => ?_) v place j j' before after
    exact own.revised_of_shows place a sound.1 before after
  | _ =>
    cases before
    cases after
    rfl

theorem Slots.revised_of_shows (own : Slots) {ρ : Renaming} (place : Place) (a : own.Val)
    {look look' : String → Option Json} (sound : own.isSound = true) (before : own.Shows a look)
    (after : own.Shows (own.amend ρ.edit place a) look') :
    own.Revised Eq ρ place look look' := by
  cases own with
  | nil => trivial
  | cons n p s rest =>
    obtain ⟨a, b⟩ := a
    simp only [Slots.isSound, Bool.and_eq_true] at sound
    exact ⟨p.revised_of_shows before.1 after.1 fun w x y before after =>
        s.revised_of_shows (.member n :: place) w sound.1.2 before after,
      rest.revised_of_shows place b sound.2 before.2 after.2⟩

theorem Parts.revised_of_shows (parts : Parts) {ρ : Renaming} (place : Place) (b : parts.Val)
    {look look' : String → Option Json} (sound : parts.isSound = true) (before : parts.Shows b look)
    (after : parts.Shows (parts.amend ρ.edit place b) look') :
    parts.Revised Eq ρ place look look' := by
  cases parts with
  | nil => trivial
  | record own parts rest =>
    obtain ⟨⟨a, b⟩, c⟩ := b
    simp only [Parts.isSound, Bool.and_eq_true] at sound
    exact ⟨own.revised_of_shows place a sound.1.1 before.1 after.1,
      parts.revised_of_shows place b sound.1.2 before.2.1 after.2.1,
      rest.revised_of_shows place c sound.2 before.2.2 after.2.2⟩
  | selection rest =>
    obtain ⟨a, c⟩ := b
    exact ⟨Selection.look_eq_of_shows before.1 after.1,
      rest.revised_of_shows place c sound before.2 after.2⟩

theorem Alternatives.revised_of_shows (alternatives : Alternatives) {ρ : Renaming} {tag : String}
    (place : Place) (v : alternatives.Val) {look look' : String → Option Json}
    (sound : alternatives.isSound tag = true) (apart : alternatives.names.Nodup)
    (before : alternatives.Shows tag v look)
    (after : alternatives.Shows tag (alternatives.amend ρ.edit place v) look') :
    ∃ n ∈ alternatives.names, look tag = some (.str n) ∧ look' tag = some (.str n) ∧
      alternatives.Revised Eq ρ tag n place look look' := by
  cases alternatives with
  | nil => exact v.elim
  | cons n own parts rest =>
    simp only [Alternatives.isSound, Bool.and_eq_true] at sound
    obtain ⟨⟨⟨soundOwn, soundParts⟩, -⟩, soundRest⟩ := sound
    cases v with
    | inl v =>
      obtain ⟨a, b⟩ := v
      obtain ⟨found, ownBefore, partsBefore, only⟩ := before
      obtain ⟨found', ownAfter, partsAfter, only'⟩ := after
      refine ⟨n, List.mem_cons_self, found, found', ?_⟩
      rw [Alternatives.Revised, if_pos rfl]
      exact ⟨own.revised_of_shows place a soundOwn ownBefore ownAfter,
        parts.revised_of_shows place b soundParts partsBefore partsAfter, only.hold_eq only'⟩
    | inr v =>
      obtain ⟨m, named, found, found', same⟩ :=
        rest.revised_of_shows place v soundRest apart.of_cons before after
      have other : n ≠ m := fun same => (List.nodup_cons.mp apart).1 (same ▸ named)
      refine ⟨m, List.mem_cons_of_mem _ named, found, found', ?_⟩
      rw [Alternatives.Revised, if_neg other]
      exact same

end

namespace Catalog

variable {name : String} {s : Shape}

/-- A document of any model that has got members that are not known here and other names from open
lists is still read, as the value that it was read as with those names in their places. That value is
written with exactly those names, and a name is a known one when it is in its list. -/
theorem fromWire_revised (model : model? name = some s) (ρ : Renaming) {d d' : Json} {v : s.Val}
    (revised : s.Revised Added ρ [] d d') (read : s.fromWire d = .ok v) :
    s.fromWire d' = .ok (s.rename ρ v) ∧
    (∃ o o', s.toWire v = .ok o ∧ s.toWire (s.rename ρ v) = .ok o' ∧
      s.Revised Eq ρ [] (.obj o) (.obj o')) ∧
    ((∀ place n, ρ place n = n) → s.rename ρ v = v) ∧
    ∀ c buffered n, ∃ x : Lenient c, (Shape.lenient c).decode buffered (.str n) = .ok x ∧
      x.name = n ∧ (x.isKnown = true ↔ n ∈ c.names) := by
  have sound := isSound_of_model? model
  have object := isObject_of_model? model
  rw [Shape.fromWire_eq_ok_iff] at read ⊢
  have read' := s.decode_revised [] v false revised read
  obtain ⟨o, sent, shown, -⟩ := Shape.toWire_shows sound object (s.finite_decode v d false read)
  obtain ⟨o', sent', shown', -⟩ := Shape.toWire_shows sound object (s.finite_decode _ d' false read')
  refine ⟨read', ⟨o, o', sent, sent', s.revised_of_shows [] v sound shown shown'⟩, fun kept => ?_,
    fun c buffered n => ⟨_, rfl, Lenient.name_parse c n, Lenient.isKnown_parse_iff c n⟩⟩
  refine s.amend_eq_self (fun t _ place w => ?_) [] v
  cases t with
  | lenient c => exact if_pos (kept place _)
  | _ => rfl

def newerServices : Json :=
  .obj [("services", .arr [.obj [("description", .str "Audio"), ("name", .str "audio"),
    ("since", .int 12), ("state", .str "hibernating")]]), ("total", .int 1)]

def services : Json :=
  .obj [("services", .arr [.obj [("description", .str "Audio"), ("name", .str "audio"),
    ("state", .str "active")]])]

theorem fromWire_revised_of_services : ∃ v, Host.services.fromWire services = .ok v ∧
    Host.services.fromWire newerServices =
      .ok (Host.services.rename (fun _ _ => "hibernating") v) := by
  have model : model? "ServiceList" = some Host.services := rfl
  have read : ∃ v, Host.services.fromWire services = .ok v := ⟨_, rfl⟩
  obtain ⟨v, read⟩ := read
  have revised : Host.services.Revised Added (fun _ _ => "hibernating") [] services newerServices := by
    refine .inl ⟨_, _, rfl, rfl, ⟨.inr ⟨_, _, rfl, rfl, rfl, fun i x y item item' => ?_⟩, trivial⟩,
      trivial, Others.hold_added (by decide)⟩
    match i, item, item' with
    | 0, rfl, rfl =>
      exact .inl ⟨_, _, rfl, rfl, ⟨.inr rfl, .inr rfl, .inr ⟨_, rfl, rfl⟩, trivial⟩, trivial,
        Others.hold_added (by decide)⟩
  exact ⟨v, read, (fromWire_revised model _ revised read).1⟩

end Catalog

end SupervisorApi
