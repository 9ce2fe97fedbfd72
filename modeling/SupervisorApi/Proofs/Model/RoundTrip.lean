import SupervisorApi.Model.Wire
import SupervisorApi.Proofs.Model.Amend
import SupervisorApi.Proofs.Model.Forms
import SupervisorApi.Proofs.Model.Shows

set_option autoImplicit false

namespace SupervisorApi

theorem forall₂_mapIdx {α β γ : Type} {R : α → β → Prop} {S : β → γ → Prop} {as : List α}
    {xs : List β} (related : List.Forall₂ R as xs) (f : Nat → α → γ)
    (each : ∀ i a x, R a x → S x (f i a)) : List.Forall₂ S xs (as.mapIdx f) := by
  induction related generalizing f with
  | nil => exact .nil
  | cons first _ ih =>
    rw [List.mapIdx_cons]
    exact .cons (each 0 _ _ first) (ih _ fun i => each (i + 1))

namespace Presence

variable {α : Type} {name : String} {shows : α → Json → Prop} {f : α → α}
  {decode : Json → Except DecodeError α}

theorem map_of (p : Presence) (w : α) : p.map f (p.of w) = p.of (f w) := by
  cases p <;> rfl

theorem held_of (p : Presence) (w : α) : p.held (p.of w) = some w := by
  cases p <;> rfl

theorem map_of_held (p : Presence) {a : p.Val α} (empty : p.held a = none) : p.map f a = a := by
  cases p with
  | required => cases empty
  | optional | omitted => cases empty; rfl
  | field => cases a <;> first | rfl | cases empty

theorem held_of_blank (p : Presence) {j : Option Json} {a : p.Val α} (blank : p.blank j = some a) :
    p.held a = none := by
  cases p with
  | required => cases blank
  | optional | omitted | field =>
    rcases j with - | x
    · cases blank; rfl
    · cases x with
      | null => cases blank; rfl
      | _ => cases blank

theorem of_shows (p : Presence) {a : p.Val α} {j : Option Json} (shown : p.Shows shows a j) :
    p.blank j = some a ∨
      ∃ w x, a = p.of w ∧ j = some x ∧ (p = .required ∨ x ≠ .null) ∧ shows w x := by
  cases p with
  | required =>
    obtain ⟨x, rfl, shown⟩ := shown
    exact .inr ⟨a, x, rfl, rfl, .inl rfl, shown⟩
  | optional | omitted =>
    cases a with
    | none => cases shown; exact .inl rfl
    | some w =>
      obtain ⟨x, rfl, there, shown⟩ := shown
      exact .inr ⟨w, x, rfl, rfl, .inr there, shown⟩
  | field =>
    cases a with
    | unset | null => cases shown; exact .inl rfl
    | value w =>
      obtain ⟨x, rfl, there, shown⟩ := shown
      exact .inr ⟨w, x, rfl, rfl, .inr there, shown⟩

theorem read_shows (p : Presence) {a : p.Val α} {j : Option Json} (shown : p.Shows shows a j)
    (each : ∀ w x, shows w x → decode x = .ok (f w)) : p.read name decode j = .done (p.map f a) := by
  rw [read_eq_done_iff]
  obtain blank | ⟨w, x, rfl, rfl, there, shown⟩ := p.of_shows shown
  · rw [p.map_of_held (p.held_of_blank blank)]
    exact .inl blank
  · exact .inr ⟨x, f w, rfl, there, each w x shown, p.map_of w⟩

end Presence

namespace Tree

variable {α : Type} {shows : α → (String → Option Json) → Prop} {names : List String}
  {children : String} {own : (String → Option Json) → Reading α} {width : Nat}
  {row : List Json → Except DecodeError α} {f : Place → α → α}

mutual
theorem decode_shows (each : ∀ place a look, shows a look → own look = .done (f place a)) :
    (t : Tree α) → (place : Place) → (j : Json) → Shows shows names children t j →
      decode own width row children j = .ok (amend f children place t)
  | .node a ts, place, _, ⟨ms, xs, rfl, here, found, below, _⟩ =>
    decode_obj_iff.mpr ⟨_, xs, _, each place a _ here, found,
      decode_showsAll each ts (.member children :: place) 0 xs below, rfl⟩

theorem decode_showsAll (each : ∀ place a look, shows a look → own look = .done (f place a)) :
    (ts : List (Tree α)) → (place : Place) → (i : Nat) → (xs : List Json) →
      ShowsAll shows names children ts xs →
      List.Forall₂ (fun x t => decode own width row children x = .ok t) xs
        (amendAll f children place i ts)
  | [], _, _, _, rfl => .nil
  | t :: ts, place, i, _, ⟨_, _, rfl, here, below⟩ =>
    .cons (decode_shows each t (.item i :: place) _ here)
      (decode_showsAll each ts place (i + 1) _ below)
end

end Tree

-- A document is read under whatever names it was shown for, so what else stands in its objects does not
-- matter here. Of all values without parts only a timestamp comes back as another one.
mutual

theorem Shape.decode_shows (s : Shape) (place : Place) (v : s.Val) (j : Json) (buffered : Bool)
    (sound : s.isSound = true) (shown : s.Shows v j) :
    s.decode buffered j = .ok (s.amend (fun _ => Shape.cutStamp) place v) := by
  cases s with
  | nullable s =>
    cases v with
    | none => cases shown; rfl
    | some a =>
      rw [Shape.isSound, Bool.and_eq_true] at sound
      exact Shape.decode_nullable_iff.mpr
        (.inr ⟨shown.1, _, s.decode_shows place a j buffered sound.2 shown.2, rfl⟩)
  | list s =>
    obtain ⟨xs, rfl, shown⟩ := shown
    exact Shape.decode_list_iff.mpr ⟨xs, rfl, forall₂_mapIdx shown _ fun i a x shown =>
      s.decode_shows (.item i :: place) a x buffered sound shown⟩
  | dict s =>
    obtain ⟨ms, rfl, shown⟩ := shown
    refine Shape.decode_dict_iff.mpr ⟨ms, _, rfl, ?_, (Dict.ofList_entries _).symm⟩
    refine List.forall₂_map_right_iff.mpr (List.Forall₂.flip (shown.imp fun e m shown => ?_))
    exact ⟨s.decode_shows (.member e.1 :: place) e.2 m.2 buffered sound shown.2, shown.1.symm⟩
  | record own parts =>
    obtain ⟨a, b⟩ := v
    obtain ⟨ms, rfl, shownOwn, shownParts, -⟩ := shown
    simp only [Shape.isSound, Bool.and_eq_true] at sound
    exact Shape.decode_record_iff.mpr (.inl ⟨ms, rfl,
      own.decode_shows place a _ buffered sound.1.1 shownOwn,
      parts.decode_shows place b _ sound.1.2 shownParts⟩)
  | selection =>
    obtain ⟨ms, rfl, shown, -⟩ := shown
    exact Selection.decode_of_shows shown buffered
  | tagged tag alternatives =>
    obtain ⟨ms, rfl, shown⟩ := shown
    simp only [Shape.isSound, Bool.and_eq_true, decide_eq_true_eq] at sound
    obtain ⟨n, -, found, read⟩ := alternatives.decode_shows tag place v _ sound.1 sound.2 shown
    exact Shape.decode_tagged_iff.mpr ⟨ms, n, rfl, found, read alternatives.names⟩
  | tree own children =>
    simp only [Shape.isSound, Bool.and_eq_true] at sound
    exact Tree.decode_shows (fun place a look shown =>
      own.decode_shows place a look buffered sound.1 shown) v place j shown
  | real =>
    obtain ⟨small, rfl⟩ := shown
    exact if_pos small
  | int64 => cases shown; exact Decode.int64_toInt v
  | port => cases shown; exact Decode.port_toNat v
  | ipv4 => cases shown; exact Decode.spelled_render (Ipv4.parse_render v)
  | ipv6 => cases shown; exact Decode.spelled_render (Ipv6.parse_render v)
  | uuid => cases shown; exact Decode.spelled_render (Uuid.parse_render v)
  | timestamp => cases shown; exact Decode.spelled_render (Timestamp.parse_render v)
  | choice c => cases shown; exact c.decode_encode (of_decide_eq_true sound) buffered v
  | lenient c =>
    cases shown
    exact congrArg Except.ok (Lenient.parse_name (of_decide_eq_true sound) v)
  | location => cases shown; exact Location.decode_encode v
  | set k => cases shown; exact Decode.set_encode sound buffered v
  | _ => cases shown; rfl

theorem Slots.decode_shows (own : Slots) (place : Place) (a : own.Val)
    (look : String → Option Json) (buffered : Bool) (sound : own.isSound = true)
    (shown : own.Shows a look) :
    own.decode buffered look = .done (own.amend (fun _ => Shape.cutStamp) place a) := by
  cases own with
  | nil => rfl
  | cons n p s rest =>
    obtain ⟨a, b⟩ := a
    simp only [Slots.isSound, Bool.and_eq_true] at sound
    exact Slots.decode_cons_iff.mpr ⟨p.read_shows shown.1 fun w x shown =>
        s.decode_shows (.member n :: place) w x buffered sound.1.2 shown,
      rest.decode_shows place b look buffered sound.2 shown.2⟩

theorem Parts.decode_shows (parts : Parts) (place : Place) (b : parts.Val)
    (look : String → Option Json) (sound : parts.isSound = true) (shown : parts.Shows b look) :
    parts.decode look = .ok (parts.amend (fun _ => Shape.cutStamp) place b) := by
  cases parts with
  | nil => rfl
  | record own parts rest =>
    obtain ⟨⟨a, b⟩, c⟩ := b
    simp only [Parts.isSound, Bool.and_eq_true] at sound
    exact Parts.decode_record_iff.mpr
      ⟨own.decode_shows place a look parts.isNil sound.1.1 shown.1,
        parts.decode_shows place b look sound.1.2 shown.2.1,
        rest.decode_shows place c look sound.2 shown.2.2⟩
  | selection rest =>
    obtain ⟨a, c⟩ := b
    exact Parts.decode_selection_iff.mpr ⟨Selection.decode_of_shows shown.1 true,
      rest.decode_shows place c look sound shown.2⟩

-- The name of the alternative is found under the tag, and no alternative before has it.
theorem Alternatives.decode_shows (tag : String) (alternatives : Alternatives) (place : Place)
    (v : alternatives.Val) (look : String → Option Json) (sound : alternatives.isSound tag = true)
    (apart : alternatives.names.Nodup) (shown : alternatives.Shows tag v look) :
    ∃ n ∈ alternatives.names, look tag = some (.str n) ∧ ∀ names,
      alternatives.decode names n look =
        .ok (alternatives.amend (fun _ => Shape.cutStamp) place v) := by
  cases alternatives with
  | nil => exact v.elim
  | cons n own parts rest =>
    simp only [Alternatives.isSound, Bool.and_eq_true] at sound
    obtain ⟨⟨⟨soundOwn, soundParts⟩, -⟩, soundRest⟩ := sound
    cases v with
    | inl v =>
      obtain ⟨a, b⟩ := v
      obtain ⟨found, shownOwn, shownParts, -⟩ := shown
      exact ⟨n, List.mem_cons_self, found, fun names => Alternatives.decode_cons_same.mpr
        ⟨_, _, own.decode_shows place a look true soundOwn shownOwn,
          parts.decode_shows place b look soundParts shownParts, rfl⟩⟩
    | inr v =>
      obtain ⟨m, named, found, read⟩ :=
        rest.decode_shows tag place v look soundRest apart.of_cons shown
      have other : n ≠ m := fun same => (List.nodup_cons.mp apart).1 (same ▸ named)
      exact ⟨m, List.mem_cons_of_mem _ named, found, fun names =>
        (Alternatives.decode_cons_other other).mpr ⟨_, read names, rfl⟩⟩

end

namespace Presence

variable {α : Type} {name : String} {decode : Json → Except DecodeError α}

theorem held_of_read (p : Presence) {a : p.Val α} {j : Option Json} {w : α}
    (read : p.read name decode j = .done a) (held : w ∈ p.held a) : ∃ x, decode x = .ok w := by
  obtain blank | ⟨x, w', -, -, found, rfl⟩ := p.read_eq_done_iff.mp read
  · rw [p.held_of_blank blank] at held
    cases held
  · rw [p.held_of] at held
    cases held
    exact ⟨x, found⟩

end Presence

namespace Tree

variable {α : Type} {P : α → Prop} {children : String} {own : (String → Option Json) → Reading α}
  {width : Nat} {row : List Json → Except DecodeError α}

mutual
theorem all_of_decode (each : ∀ look a, own look = .done a → P a)
    (eachRow : ∀ xs a, row xs = .ok a → P a) : (t : Tree α) → (j : Json) →
      decode own width row children j = .ok t → t.All P
  | .node a ts, j, read => by
    obtain ⟨ms, rfl⟩ | ⟨xs, rfl⟩ := of_decode read
    · obtain ⟨a', xs, ts', here, -, below, same⟩ := decode_obj_iff.mp read
      cases same
      exact ⟨each _ a here, allBelow_of_decode each eachRow ts xs below⟩
    · obtain ⟨a', ys, ts', here, -, below, same⟩ := decode_arr_iff.mp read
      cases same
      exact ⟨eachRow _ a here, allBelow_of_decode each eachRow ts ys below⟩

theorem allBelow_of_decode (each : ∀ look a, own look = .done a → P a)
    (eachRow : ∀ xs a, row xs = .ok a → P a) : (ts : List (Tree α)) → (xs : List Json) →
      List.Forall₂ (fun x t => decode own width row children x = .ok t) xs ts → AllBelow P ts
  | [], _, _ => trivial
  | t :: ts, x :: xs, .cons here below =>
    ⟨all_of_decode each eachRow t x here, allBelow_of_decode each eachRow ts xs below⟩
end

end Tree

-- What is read need not have been written here: a record may have come as an array of its members.
mutual

theorem Shape.finite_decode (s : Shape) (v : s.Val) (j : Json) (buffered : Bool)
    (read : s.decode buffered j = .ok v) : s.Finite v := by
  cases s with
  | real => exact Decode.isFinite_of_real read
  | nullable s =>
    obtain ⟨-, rfl⟩ | ⟨-, a, inner, rfl⟩ := Shape.decode_nullable_iff.mp read
    · trivial
    · exact s.finite_decode a j buffered inner
  | list s =>
    obtain ⟨xs, -, items⟩ := Shape.decode_list_iff.mp read
    refine List.forall_iff_forall_mem.mpr fun a member => ?_
    obtain ⟨x, item⟩ := exists_of_forall₂ items member
    exact s.finite_decode a x buffered item
  | dict s =>
    obtain ⟨ms, es, -, entries, rfl⟩ := Shape.decode_dict_iff.mp read
    intro e member
    obtain ⟨m, entry, -⟩ := exists_of_forall₂ entries (Dict.mem_of_mem_ofList member)
    exact s.finite_decode e.2 m.2 buffered entry
  | record own parts =>
    obtain ⟨a, b⟩ := v
    obtain ⟨ms, -, readOwn, readParts⟩ | ⟨xs, -, readNone, readRow⟩ :=
      Shape.decode_record_iff.mp read
    · exact ⟨own.finite_decode a _ buffered readOwn, parts.finite_decode b _ readParts⟩
    · obtain rfl := Parts.decodeNone_eq_ok readNone
      exact ⟨own.finite_decodeRow a xs [] buffered readRow, trivial⟩
  | tagged tag alternatives =>
    obtain ⟨ms, n, -, -, read⟩ := Shape.decode_tagged_iff.mp read
    exact alternatives.finite_decode v _ n _ read
  | tree own children =>
    refine Tree.all_of_decode (fun look a read => own.finite_decode a look buffered read)
      (fun xs a read => ?_) v j read
    obtain ⟨⟨_, ys⟩, row, rfl⟩ := Except.map_eq_ok_iff.mp read
    exact own.finite_decodeRow _ xs ys buffered row
  | _ => trivial

theorem Slots.finite_decode (own : Slots) (a : own.Val) (look : String → Option Json)
    (buffered : Bool) (read : own.decode buffered look = .done a) : own.Finite a := by
  cases own with
  | nil => trivial
  | cons n p s rest =>
    obtain ⟨a, b⟩ := a
    obtain ⟨first, later⟩ := Slots.decode_cons_iff.mp read
    refine ⟨fun w held => ?_, rest.finite_decode b look buffered later⟩
    obtain ⟨x, read⟩ := p.held_of_read first held
    exact s.finite_decode w x buffered read

theorem Slots.finite_decodeRow (own : Slots) (a : own.Val) (xs ys : List Json) (buffered : Bool)
    (read : own.decodeRow buffered xs = .ok (a, ys)) : own.Finite a := by
  cases own with
  | nil => trivial
  | cons n p s rest =>
    obtain ⟨a, b⟩ := a
    obtain ⟨first, -, later⟩ := Slots.decodeRow_cons_iff.mp read
    refine ⟨fun w held => ?_, rest.finite_decodeRow b xs.tail ys buffered later⟩
    obtain ⟨x, read⟩ := p.held_of_read first held
    exact s.finite_decode w x buffered read

theorem Parts.finite_decode (parts : Parts) (b : parts.Val) (look : String → Option Json)
    (read : parts.decode look = .ok b) : parts.Finite b := by
  cases parts with
  | nil => trivial
  | record own parts rest =>
    obtain ⟨⟨a, b⟩, c⟩ := b
    obtain ⟨first, second, third⟩ := Parts.decode_record_iff.mp read
    exact ⟨own.finite_decode a look _ first, parts.finite_decode b look second,
      rest.finite_decode c look third⟩
  | selection rest =>
    obtain ⟨a, c⟩ := b
    exact rest.finite_decode c look (Parts.decode_selection_iff.mp read).2

theorem Alternatives.finite_decode (alternatives : Alternatives) (v : alternatives.Val)
    (names : List String) (name : String) (look : String → Option Json)
    (read : alternatives.decode names name look = .ok v) : alternatives.Finite v := by
  cases alternatives with
  | nil => cases read
  | cons n own parts rest =>
    by_cases same : n = name
    · subst same
      obtain ⟨a, b, first, second, rfl⟩ := Alternatives.decode_cons_same.mp read
      exact ⟨own.finite_decode a look true first, parts.finite_decode b look second⟩
    · obtain ⟨w, later, rfl⟩ := (Alternatives.decode_cons_other same).mp read
      exact rest.finite_decode w names name look later

end

namespace Shape

variable {s : Shape} {v : s.Val} {j : Json}

theorem fromWire_eq_ok_iff : s.fromWire j = .ok v ↔ s.decode false j = .ok v := by
  unfold fromWire
  cases s.decode false j <;> simp

theorem toWire_of_isObject (object : s.isObject = true) (v : s.Val) :
    ∃ o, s.encode v = .obj o ∧ s.toWire v = .ok o := by
  have written (o : Members) (shape : s.encode v = .obj o) :
      ∃ o, s.encode v = .obj o ∧ s.toWire v = .ok o :=
    ⟨o, shape, by rw [toWire, shape]; rfl⟩
  cases s with
  | object | dict | record | selection | tagged => exact written _ rfl
  | tree own children =>
    cases v with
    | node a ts => exact written _ rfl
  | _ => cases object

theorem toWire_shows (sound : s.isSound = true) (object : s.isObject = true) (finite : s.Finite v) :
    ∃ o, s.toWire v = .ok o ∧ s.Shows v (.obj o) ∧ s.fromWire (.obj o) = .ok (s.cut v) := by
  obtain ⟨o, written, sent⟩ := toWire_of_isObject object v
  have shown := s.shows_encode v sound finite
  rw [written] at shown
  exact ⟨o, sent, shown, fromWire_eq_ok_iff.mpr (s.decode_shows [] v _ false sound shown)⟩

end Shape

namespace Catalog

variable {name : String} {s : Shape}

theorem mem_of_model? (model : model? name = some s) : (name, s) ∈ models := by
  obtain ⟨front, back, whole, -⟩ := List.lookup_eq_some_iff.mp model
  rw [whole]
  exact List.mem_append_right _ List.mem_cons_self

theorem isSound_of_model? (model : model? name = some s) : s.isSound = true :=
  models_isSound _ (mem_of_model? model)

theorem isObject_of_model? (model : model? name = some s) : s.isObject = true :=
  models_isObject _ (mem_of_model? model)

/-- What is read of any model is written as an object that is read back as the same value, its
timestamps cut to whole microseconds, and unchanged if they are whole already. Of all values with whole
timestamps, those whose numbers are finite come back, and no others: see `nan_is_not_read_back`. -/
theorem fromWire_toWire (model : model? name = some s) :
    (∀ d v, s.fromWire d = .ok v →
      s.Finite v ∧ ∃ o, s.toWire v = .ok o ∧ s.fromWire (.obj o) = .ok (s.cut v)) ∧
    (∀ d v, s.fromWire d = .ok v → s.cut v = v →
      ∃ o, s.toWire v = .ok o ∧ s.fromWire (.obj o) = .ok v) ∧
    ∀ v, s.cut v = v → ∃ o, s.toWire v = .ok o ∧ (s.fromWire (.obj o) = .ok v ↔ s.Finite v) := by
  have sound := isSound_of_model? model
  have object := isObject_of_model? model
  have again (d : Json) (v : s.Val) (read : s.fromWire d = .ok v) :
      s.Finite v ∧ ∃ o, s.toWire v = .ok o ∧ s.fromWire (.obj o) = .ok (s.cut v) := by
    have finite := s.finite_decode v d false (Shape.fromWire_eq_ok_iff.mp read)
    obtain ⟨o, sent, -, back⟩ := Shape.toWire_shows sound object finite
    exact ⟨finite, o, sent, back⟩
  refine ⟨again, fun d v read whole => ?_, fun v whole => ?_⟩
  · obtain ⟨-, o, sent, back⟩ := again d v read
    exact ⟨o, sent, back.trans (congrArg _ whole)⟩
  · obtain ⟨o, -, sent⟩ := Shape.toWire_of_isObject object v
    refine ⟨o, sent, fun read => (again (.obj o) v read).1, fun finite => ?_⟩
    obtain ⟨o', sent', -, back⟩ := Shape.toWire_shows sound object finite
    cases sent.symm.trans sent'
    rwa [whole] at back

def nan : Binary64 :=
  ⟨0x7FF8000000000000⟩

def nanStats : System.containerStats.Val :=
  let nothing : Int64 := 0
  ((nan, nothing, nothing, nan, nothing, nothing, nothing, nothing, ()), ())

-- No reply gives a number that is not finite. It is written as null, which is no number.
theorem nan_is_not_read_back :
    System.containerStats.cut nanStats = nanStats ∧ ¬ System.containerStats.Finite nanStats ∧
      ∃ o, System.containerStats.toWire nanStats = .ok o ∧ o.get? "cpu_percent" = some .null ∧
        ∃ e, System.containerStats.fromWire (.obj o) = .error e := by
  refine ⟨rfl, fun finite => ?_, _, rfl, rfl, _, rfl⟩
  have number : nan.isFinite = true := finite.1.1 _ rfl
  exact absurd number (by decide +kernel)

def nightly : Json :=
  .obj [("compressed", .bool true), ("content", .obj [("addons", .arr []), ("folders", .arr []),
    ("homeassistant", .bool true)]), ("date", .str "2024-03-01T12:00:00.123456789+01:00"),
    ("location", .null), ("locations", .arr [.str "nas", .null]), ("name", .str "nightly"),
    ("protected", .bool false), ("size", .int 12), ("size_bytes", .int 12000000),
    ("slug", .str "ab12"), ("type", .str "full")]

theorem fromWire_toWire_of_nightly :
    (∃ v o, Backups.backup.fromWire nightly = .ok v ∧ Backups.backup.toWire v = .ok o ∧
      Backups.backup.fromWire (.obj o) = .ok (Backups.backup.cut v)) ∧
    ∃ o, Jobs.error.toWire (("BackupError", "interrupted", ()), ()) = .ok o ∧
      Jobs.error.fromWire (.obj o) = .ok (("BackupError", "interrupted", ()), ()) := by
  constructor
  · have read : ∃ v, Backups.backup.fromWire nightly = .ok v := ⟨_, rfl⟩
    obtain ⟨v, read⟩ := read
    have model : model? "Backup" = some Backups.backup := rfl
    obtain ⟨-, o, sent, back⟩ := (fromWire_toWire model).1 nightly v read
    exact ⟨v, o, read, sent, back⟩
  · have model : model? "JobError" = some Jobs.error := rfl
    obtain ⟨o, sent, back⟩ := (fromWire_toWire model).2.2 (("BackupError", "interrupted", ()), ()) rfl
    exact ⟨o, sent, back.mpr (by simp [Jobs.error, Shape.plain, Slots.ofList, Slots.must,
      Shape.Finite, Slots.Finite, Parts.Finite])⟩

end Catalog

end SupervisorApi
