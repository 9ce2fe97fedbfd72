import SupervisorApi.Proofs.Model.Requests

set_option autoImplicit false

namespace SupervisorApi

theorem SortedSet.exists_mem_iff {α β : Type} [KeyOrder β] {f : α → Except DecodeError β}
    {xs : List α} {ys : List β} (read : xs.mapM f = .ok ys) :
    (∃ y, y ∈ (ofList ys).items) ↔ ∃ x rest, xs = x :: rest := by
  simp only [mem_ofList]
  have related := mapM_eq_ok_iff.mp read
  cases related with
  | nil => simp
  | cons first later => simp

namespace AddonSelection

variable {a : AddonSelection} {x : Json}

def Selects : AddonSelection → Prop
  | .all => True
  | .slugs s => ∃ slug, slug ∈ s.items

theorem isSelected_iff : a.isSelected = true ↔ a.Selects := by
  cases a with
  | all => simp [isSelected, Selects]
  | slugs s => simp [isSelected, Selects, SortedSet.isEmpty, List.eq_nil_iff_forall_not_mem]

def IsNamed (x : Json) : Prop :=
  x = .str "all" ∨ ∃ y ys, x = .arr (y :: ys)

theorem selects_iff_of_decode (read : decode x = .ok a) : a.Selects ↔ IsNamed x := by
  cases x with
  | str s =>
    simp only [decode] at read
    split at read
    next same =>
      cases read
      simp [Selects, IsNamed, same, keyword]
    next => cases read
  | arr xs =>
    obtain ⟨slugs, items, rfl⟩ := Except.map_eq_ok_iff.mp read
    simp [Selects, IsNamed, SortedSet.exists_mem_iff items]
  | _ => cases read

end AddonSelection

namespace Selection

variable {p : Parts} {s : Selection} {e : DecodeError} {buffered : Bool} {j : Json}

def Parts.Selects (p : Parts) : Prop :=
  (∃ a, p.addons = some a ∧ a.Selects) ∨ (∃ f, p.folders = some f ∧ ∃ x, x ∈ f.items) ∨
    p.homeassistant = some true

theorem Parts.isSelected_iff : p.isSelected = true ↔ p.Selects := by
  obtain ⟨addons, folders, homeassistant⟩ := p
  simp only [isSelected, Selects, Bool.or_eq_true, Option.any_eq_true, decide_eq_true_eq,
    AddonSelection.isSelected_iff, SortedSet.isEmpty, Bool.not_eq_true',
    List.isEmpty_eq_false_iff_exists_mem, or_assoc]

theorem ofParts_eq_ok_iff : ofParts p = .ok s ↔ p.Selects ∧ s.parts = p := by
  rw [ofParts, ← Parts.isSelected_iff]
  split
  next selected =>
    obtain ⟨q, selected'⟩ := s
    simp [selected, eq_comm]
  next empty => simp [empty]

theorem ofParts_eq_error_iff : ofParts p = .error e ↔ ¬ p.Selects ∧ e = .emptySelection := by
  rw [ofParts, ← Parts.isSelected_iff]
  split
  next selected => simp [selected]
  next empty => simp [empty, eq_comm]

def member (j : Json) (place : Nat) (name : String) : Option Json :=
  match j with
  | .obj ms => Members.look ms name
  | .arr xs => xs[place]?
  | _ => none

/-- What the members of a selection hold. One that is not there, or null, holds nothing. -/
structure Offers (buffered : Bool) (j : Json) (p : Parts) : Prop where
  addons : Presence.optional.read "addons" AddonSelection.decode (member j 0 "addons") =
    .done p.addons
  folders : Presence.optional.read "folders" ((Shape.set (.choice folder)).decode buffered)
    (member j 1 "folders") = .done p.folders
  homeassistant : Presence.optional.read "homeassistant" Decode.bool
    (member j 2 "homeassistant") = .done p.homeassistant

def IsNamed (j : Json) : Prop :=
  (∃ x, member j 0 "addons" = some x ∧ AddonSelection.IsNamed x) ∨
    (∃ x, member j 1 "folders" = some x ∧ ∃ y ys, x = .arr (y :: ys)) ∨
      ∃ x, member j 2 "homeassistant" = some x ∧ x = .bool true

section Members

variable {α : Type} {name : String} {decode : Json → Except DecodeError α} {x : Option Json}
  {a : Option α}

theorem exists_held_iff {P : α → Prop} {Q : Json → Prop}
    (read : Presence.optional.read name decode x = .done a) (null : ¬ Q .null)
    (each : ∀ y w, decode y = .ok w → (P w ↔ Q y)) :
    (∃ w, a = some w ∧ P w) ↔ ∃ y, x = some y ∧ Q y := by
  rcases Presence.optional.read_eq_done_iff.mp read with blank | ⟨y, w, rfl, -, held, rfl⟩
  · have only : ∀ y, x = some y → y = .null := fun y there =>
      Presence.optional.eq_null_of_blank (there ▸ blank)
    have nothing : a = none := by
      rcases x with _ | y
      · cases blank; rfl
      · cases only y rfl; cases blank; rfl
    subst nothing
    constructor
    · rintro ⟨_, ⟨⟩, _⟩
    · rintro ⟨y, there, named⟩
      exact absurd (only y there ▸ named) null
  · have same := each y w held
    simp [Presence.of, same]

end Members

theorem folders_iff_of_decode {f : SortedSet folder.Value} {x : Json}
    (read : (Shape.set (.choice folder)).decode buffered x = .ok f) :
    (∃ v, v ∈ f.items) ↔ ∃ y ys, x = .arr (y :: ys) := by
  obtain ⟨values, items, rfl⟩ := Except.map_eq_ok_iff.mp read
  cases x with
  | arr xs => simpa using SortedSet.exists_mem_iff items
  | _ => cases items

theorem Offers.selects_iff (offers : Offers buffered j p) : p.Selects ↔ IsNamed j := by
  have homeassistant : p.homeassistant = some true ↔ ∃ w, p.homeassistant = some w ∧ w = true := by
    simp
  rw [Parts.Selects, homeassistant]
  refine or_congr ?_ (or_congr ?_ ?_)
  · exact exists_held_iff offers.addons (by simp [AddonSelection.IsNamed])
      fun _ _ => AddonSelection.selects_iff_of_decode
  · exact exists_held_iff offers.folders (by simp) fun _ _ => folders_iff_of_decode
  · refine exists_held_iff offers.homeassistant (by simp) fun x w read => ?_
    cases x with
    | bool b => cases read; simp
    | _ => cases read

theorem decode_obj_eq {ms : Members} (offers : Offers buffered (.obj ms) p) :
    Decode.selection buffered (Members.look ms) = ofParts p := by
  have parts : Decode.selectionParts buffered (Members.look ms) = .done p :=
    Reading.map_eq_done_iff.mpr ⟨(p.addons, p.folders, p.homeassistant),
      Reading.both_eq_done_iff.mpr ⟨offers.addons,
        Reading.both_eq_done_iff.mpr ⟨offers.folders, offers.homeassistant⟩⟩, rfl⟩
  rw [Decode.selection, parts]
  rfl

theorem offers_of_decode_obj {ms : Members}
    (read : Decode.selection buffered (Members.look ms) = .ok s) :
    Offers buffered (.obj ms) s.parts := by
  obtain ⟨q, held, made⟩ := Except.bind_eq_ok_iff.mp read
  obtain ⟨-, rfl⟩ := ofParts_eq_ok_iff.mp made
  obtain ⟨⟨addons, folders, homeassistant⟩, both, whole⟩ :=
    Reading.map_eq_done_iff.mp (Reading.result_eq_ok_iff.mp held)
  obtain ⟨first, both⟩ := Reading.both_eq_done_iff.mp both
  obtain ⟨second, third⟩ := Reading.both_eq_done_iff.mp both
  rw [← whole]
  exact ⟨first, second, third⟩

theorem offers_of_decode_arr {xs : List Json} (read : Decode.selectionRow buffered xs = .ok s) :
    Offers buffered (.arr xs) s.parts := by
  obtain ⟨⟨addons, ys⟩, next, read⟩ := Except.bind_eq_ok_iff.mp read
  obtain ⟨first, rfl, -⟩ := (Presence.optional.readNext_eq_ok_iff "addons").mp next
  obtain ⟨⟨folders, zs⟩, next, read⟩ := Except.bind_eq_ok_iff.mp read
  obtain ⟨second, rfl, -⟩ := (Presence.optional.readNext_eq_ok_iff "folders").mp next
  obtain ⟨⟨homeassistant, rest⟩, next, read⟩ := Except.bind_eq_ok_iff.mp read
  obtain ⟨third, rfl, -⟩ := (Presence.optional.readNext_eq_ok_iff "homeassistant").mp next
  have whole : s.parts = ⟨addons, folders, homeassistant⟩ := by
    simp only at read
    split at read
    next => exact (ofParts_eq_ok_iff.mp read).2
    next => cases read
  simp only [List.head?_eq_getElem?, List.getElem?_tail] at first second third
  rw [whole]
  exact ⟨first, second, third⟩

end Selection

inductive Selective where
  | alone
  | backup
  | restore
  deriving DecidableEq, Repr

namespace Selective

def model : Selective → String
  | .alone => "PartialSelection"
  | .backup => "PartialBackupOptions"
  | .restore => "PartialRestoreOptions"

def shape : Selective → Shape
  | .alone => Backups.selection
  | .backup => Backups.partialBackup
  | .restore => Backups.partialRestore

def options : Selective → Slots
  | .alone => .nil
  | .backup => Backups.fullBackupFields
  | .restore => Backups.fullRestoreFields

def make : (m : Selective) → m.options.Val → Selection → m.shape.Val
  | .alone, _, s => s
  | .backup, a, s => Backups.ofSelection s (a, ())
  | .restore, a, s => Backups.restoreOfSelection s (a, ())

def selection : (m : Selective) → m.shape.Val → Selection
  | .alone, s => s
  | .backup, (_, _, s, _) => s
  | .restore, (_, _, s, _) => s

def isBuffered : Selective → Bool
  | .alone => false
  | .backup | .restore => true

variable {m : Selective} {ms : Members} {p : Selection.Parts}

theorem model?_eq (m : Selective) : Catalog.model? m.model = some m.shape := by
  cases m <;> rfl

theorem decode_beside {own : Slots} {a : own.Val}
    (offers : Selection.Offers true (.obj ms) p)
    (read : own.decode true (Members.look ms) = .done a) :
    (Shape.record .nil (.record own .nil (.selection .nil))).decode false (.obj ms) =
      (Selection.ofParts p).map fun s => ((), (a, ()), s, ()) := by
  have selected := Selection.decode_obj_eq offers
  have parts : (Parts.record own .nil (.selection .nil)).decode (Members.look ms) =
      (Selection.ofParts p).map fun s => ((a, ()), s, ()) := by
    rw [Parts.decode, Parts.decode, Parts.decode, Parts.isNil, read, selected]
    cases Selection.ofParts p <;> rfl
  show ((Parts.record own .nil (.selection .nil)).decode (Members.look ms) >>=
    fun b => pure ((), b)) = _
  rw [parts]
  cases Selection.ofParts p <;> rfl

theorem decode_eq_ofParts (m : Selective) {a : m.options.Val}
    (offers : Selection.Offers m.isBuffered (.obj ms) p)
    (read : m.options.decode true (Members.look ms) = .done a) :
    m.shape.decode false (.obj ms) = (Selection.ofParts p).map (m.make a) := by
  cases m with
  | alone =>
    have same : Shape.selection.decode false (.obj ms) = Selection.ofParts p :=
      Selection.decode_obj_eq offers
    simp only [shape, Backups.selection, same]
    cases Selection.ofParts p <;> rfl
  | backup | restore => exact decode_beside offers read

theorem offers_of_decode (m : Selective) {j : Json} {v : m.shape.Val}
    (read : m.shape.decode false j = .ok v) :
    Selection.Offers m.isBuffered j (m.selection v).parts := by
  have beside {own : Slots} {v : (Shape.record .nil (.record own .nil (.selection .nil))).Val}
      (read : (Shape.record .nil (.record own .nil (.selection .nil))).decode false j = .ok v) :
      Selection.Offers true j v.2.2.1.parts := by
    obtain ⟨a, b, s, c⟩ := v
    obtain ⟨ms, rfl, -, parts⟩ | ⟨xs, rfl, none, -⟩ := Shape.decode_record_iff.mp read
    · obtain ⟨-, -, rest⟩ := Parts.decode_record_iff.mp parts
      exact Selection.offers_of_decode_obj (Parts.decode_selection_iff.mp rest).1
    · cases Parts.decodeNone_eq_ok none
  cases m with
  | alone =>
    obtain ⟨ms, rfl, read⟩ | ⟨xs, rfl, read⟩ := Shape.decode_selection_iff.mp read
    · exact Selection.offers_of_decode_obj read
    · exact Selection.offers_of_decode_arr read
  | backup | restore => exact beside read

theorem leaves_isExact (m : Selective) : ∀ s ∈ m.shape.leaves, s.isExact = true := by
  cases m <;> decide +kernel

theorem exists_body (m : Selective) (v : m.shape.Val) :
    ∃ o, m.shape.toWire v = .ok o ∧ m.shape.fromWire (.obj o) = .ok v := by
  obtain ⟨o, sent, -, back⟩ := Shape.toWire_shows (Catalog.isSound_of_model? m.model?_eq)
    (Catalog.isObject_of_model? m.model?_eq) (m.shape.finite_of_isExact m.leaves_isExact v)
  have whole : m.shape.cut v = v :=
    m.shape.amend_eq_self (Edit.keeps_of_isExact m.leaves_isExact) [] v
  exact ⟨o, sent, whole ▸ back⟩

theorem selection_make (m : Selective) (a : m.options.Val) (s : Selection) :
    m.selection (m.make a s) = s := by
  cases m <;> rfl

theorem fromWire_eq_ok_iff (m : Selective) {a : m.options.Val} {v : m.shape.Val}
    (offers : Selection.Offers m.isBuffered (.obj ms) p)
    (rest : m.options.decode true (Members.look ms) = .done a) :
    m.shape.fromWire (.obj ms) = .ok v ↔
      ∃ s, Selection.ofParts p = .ok s ∧ v = m.make a s ∧ m.selection v = s := by
  rw [Shape.fromWire_eq_ok_iff, m.decode_eq_ofParts offers rest, Except.map_eq_ok_iff]
  constructor
  · rintro ⟨s, made, rfl⟩
    exact ⟨s, made, rfl, m.selection_make a s⟩
  · rintro ⟨s, made, rfl, -⟩
    exact ⟨s, made, rfl⟩

theorem fromWire_eq_error_iff (m : Selective) {a : m.options.Val} {e : WireError}
    (offers : Selection.Offers m.isBuffered (.obj ms) p)
    (rest : m.options.decode true (Members.look ms) = .done a) :
    m.shape.fromWire (.obj ms) = .error e ↔
      ∃ e', Selection.ofParts p = .error e' ∧ e = .refused e' ∧ e.message = e'.message := by
  have read := m.decode_eq_ofParts offers rest
  rw [Shape.fromWire, read]
  cases Selection.ofParts p with
  | ok s => simp [Except.map]
  | error e' =>
    simp only [Except.map, Except.error.injEq, exists_eq_left']
    constructor
    · rintro rfl
      exact ⟨rfl, rfl⟩
    · rintro ⟨rfl, -⟩
      rfl

/-- A selection can be made of its parts exactly if one of them selects something. What is read as a
model that has a selection offers that selection, and names what is selected; so does what such a
model is written as. An object whose other members can be read is read exactly if a selection can be
made of what it offers: it is read as that selection beside them, or refused in the same words. -/
theorem never_empty (m : Selective) :
    Catalog.model? m.model = some m.shape ∧
    (∀ p, (∀ s, Selection.ofParts p = .ok s ↔ p.Selects ∧ s.parts = p) ∧
      ∀ e, Selection.ofParts p = .error e → ¬ p.Selects ∧
        e.message = "At least one of addons, folders, or homeassistant must have a value") ∧
    (∀ j v, m.shape.fromWire j = .ok v → (m.selection v).parts.Selects ∧ Selection.IsNamed j ∧
      Selection.Offers m.isBuffered j (m.selection v).parts) ∧
    (∀ v, ∃ o, m.shape.toWire v = .ok o ∧ Selection.IsNamed (.obj o) ∧
      Selection.Offers m.isBuffered (.obj o) (m.selection v).parts) ∧
    ∀ ms p a, Selection.Offers m.isBuffered (.obj ms) p →
      m.options.decode true (Members.look ms) = .done a →
        (∀ v, m.shape.fromWire (.obj ms) = .ok v ↔
          ∃ s, Selection.ofParts p = .ok s ∧ v = m.make a s ∧ m.selection v = s) ∧
        ∀ e, m.shape.fromWire (.obj ms) = .error e ↔
          ∃ e', Selection.ofParts p = .error e' ∧ e = .refused e' ∧ e.message = e'.message := by
  have selects (s : Selection) : s.parts.Selects := Selection.Parts.isSelected_iff.mp s.selected
  have offers {j : Json} {v : m.shape.Val} (read : m.shape.fromWire j = .ok v) :
      Selection.Offers m.isBuffered j (m.selection v).parts :=
    m.offers_of_decode (Shape.fromWire_eq_ok_iff.mp read)
  refine ⟨m.model?_eq, fun p => ⟨fun _ => Selection.ofParts_eq_ok_iff, fun e refused => ?_⟩,
    fun j v read => ?_, fun v => ?_, fun ms p a offered rest =>
      ⟨fun _ => m.fromWire_eq_ok_iff offered rest, fun _ => m.fromWire_eq_error_iff offered rest⟩⟩
  · obtain ⟨empty, rfl⟩ := Selection.ofParts_eq_error_iff.mp refused
    exact ⟨empty, rfl⟩
  · exact ⟨selects _, (offers read).selects_iff.mp (selects _), offers read⟩
  · obtain ⟨o, sent, back⟩ := m.exists_body v
    exact ⟨o, sent, (offers back).selects_iff.mp (selects _), offers back⟩

-- No add-on, one folder twice, and a name that is not part of the selection.
def folderTwice : Members :=
  [("addons", .arr []), ("folders", .arr [.str "ssl", .str "ssl"]), ("homeassistant", .bool false),
    ("name", .str "nightly")]

def nothing : Members :=
  [("addons", .arr []), ("folders", .null), ("homeassistant", .bool false)]

theorem never_empty_of_folder :
    (∃ v, backup.shape.fromWire (.obj folderTwice) = .ok v ∧
      (backup.selection v).parts.folders.map (fun f => f.items.map folder.name) = some ["ssl"]) ∧
    ∃ e, restore.shape.fromWire (.obj nothing) = .error e ∧
      e.message = "At least one of addons, folders, or homeassistant must have a value" := by
  constructor
  · let ssl : folder.Value := ⟨2, by decide⟩
    let p : Selection.Parts := ⟨some (.slugs .empty), some (.ofList [ssl, ssl]), some false⟩
    have offers : Selection.Offers backup.isBuffered (.obj folderTwice) p := ⟨rfl, rfl, rfl⟩
    have read := ((never_empty backup).2.2.2.2 folderTwice p _ offers rfl).1
    exact ⟨_, (read _).mpr ⟨⟨p, rfl⟩, rfl, rfl, rfl⟩, rfl⟩
  · let p : Selection.Parts := ⟨some (.slugs .empty), none, some false⟩
    have offers : Selection.Offers restore.isBuffered (.obj nothing) p := ⟨rfl, rfl, rfl⟩
    have refused := ((never_empty restore).2.2.2.2 nothing p _ offers rfl).2
    exact ⟨_, (refused _).mpr ⟨.emptySelection, rfl, rfl, rfl⟩, rfl⟩

end Selective

end SupervisorApi
