import SupervisorApi.Proofs.Model.Reading

set_option autoImplicit false

namespace SupervisorApi

namespace Presence

variable {α : Type} {decode : Json → Except DecodeError α}

def of (p : Presence) : α → p.Val α :=
  match p with
  | .required => id
  | .optional | .omitted => some
  | .field => .value

def blank (p : Presence) : Option Json → Option (p.Val α) :=
  match p with
  | .required => fun _ => none
  | .optional | .omitted => fun
    | none | some .null => some none
    | some _ => none
  | .field => fun
    | none => some .unset
    | some .null => some .null
    | some _ => none

theorem read_eq_done_iff (p : Presence) {name : String} {j : Option Json} {a : p.Val α} :
    p.read name decode j = .done a ↔ p.blank j = some a ∨
      ∃ x w, j = some x ∧ (p = .required ∨ x ≠ .null) ∧ decode x = .ok w ∧ a = p.of w := by
  have value {β : Type} (f : α → β) (x : Json) (b : β) :
      Reading.ofExcept name ((decode x).map f) = .done b ↔ ∃ w, decode x = .ok w ∧ b = f w := by
    rw [Reading.ofExcept_eq_done_iff, Except.map_eq_ok_iff]
    simp only [eq_comm]
  rcases j with - | x
  case none => cases p <;> simp [read, blank]
  case some =>
    cases p with
    | required => simp [read, blank, of, Reading.ofExcept_eq_done_iff]
    | optional => cases x <;> simp [read, blank, of, value]
    | omitted => cases x <;> simp [read, blank, of, value]
    | field => cases x <;> simp [read, blank, of, value]

theorem eq_null_of_blank (p : Presence) {x : Json} {a : p.Val α} (blank : p.blank (some x) = some a) :
    x = .null := by
  cases p with
  | required => cases blank
  | _ => cases x <;> first | rfl | cases blank

def mayEnd : Presence → Bool
  | .required | .optional => false
  | .omitted | .field => true

theorem readNext_eq_ok_iff (p : Presence) (name : String) {xs ys : List Json} {a : p.Val α} :
    p.readNext decode xs = .ok (a, ys) ↔
      p.read name decode xs.head? = .done a ∧ ys = xs.tail ∧ (xs = [] → p.mayEnd = true) := by
  have value {β : Type} (f : α → β) (x : Json) (rest : List Json) (b : β) :
      (decode x).map (fun w => (f w, rest)) = .ok (b, ys) ↔
        Reading.ofExcept name ((decode x).map f) = .done b ∧ ys = rest := by
    cases decode x <;> simp [Except.map, Reading.ofExcept, eq_comm]
  cases p <;> rcases xs with - | ⟨x, rest⟩
  case required.nil => simp [readNext, read]
  case required.cons =>
    have found := value id x rest a
    simp only [id, show (decode x).map id = decode x by cases decode x <;> rfl] at found
    simpa [readNext, read] using found
  case optional.nil => simp [readNext, mayEnd]
  case optional.cons => cases x <;> simp [readNext, read, value, @eq_comm _ ys]
  case omitted.nil => simp [readNext, read, mayEnd]
  case omitted.cons => cases x <;> simp [readNext, read, value, @eq_comm _ ys]
  case field.nil => simp [readNext, read, mayEnd]
  case field.cons => cases x <;> simp [readNext, read, value, @eq_comm _ ys]

end Presence

theorem Decode.tag_eq_ok_iff {name n : String} {j : Option Json} :
    tag name j = .ok n ↔ j = some (.str n) := by
  cases j with
  | none => simp [tag]
  | some x => cases x <;> simp [tag]

namespace Shape

variable {buffered : Bool} {j : Json}

theorem decode_nullable_iff {s : Shape} {v : Option s.Val} :
    (nullable s).decode buffered j = .ok v ↔
      (j = .null ∧ v = none) ∨ (j ≠ .null ∧ ∃ a, s.decode buffered j = .ok a ∧ v = some a) := by
  have value : (s.decode buffered j).map some = .ok v ↔
      ∃ a, s.decode buffered j = .ok a ∧ v = some a := by
    rw [Except.map_eq_ok_iff]
    simp only [eq_comm]
  cases j with
  | null => exact ⟨fun read => .inl ⟨rfl, (Except.ok.inj read).symm⟩,
      fun read => read.elim (fun read => read.2 ▸ rfl) fun read => absurd rfl read.1⟩
  | _ => exact value.trans (by simp)

theorem decode_list_iff {s : Shape} {v : List s.Val} : (list s).decode buffered j = .ok v ↔
    ∃ xs, j = .arr xs ∧ List.Forall₂ (fun x a => s.decode buffered x = .ok a) xs v := by
  show Decode.items (s.decode buffered) j = .ok v ↔ _
  cases j with
  | arr xs => simp [Decode.items, mapM_eq_ok_iff]
  | _ => simp [Decode.items]

theorem decode_dict_iff {s : Shape} {v : Dict s.Val} : (dict s).decode buffered j = .ok v ↔
    ∃ ms es, j = .obj ms ∧
      List.Forall₂ (fun (m : String × Json) e => s.decode buffered m.2 = .ok e.2 ∧ e.1 = m.1) ms es ∧
      v = Dict.ofList es := by
  show Decode.entries (s.decode buffered) j = .ok v ↔ _
  cases j with
  | obj ms =>
    simp only [Decode.entries, Except.map_eq_ok_iff, mapM_eq_ok_iff, Json.obj.injEq]
    have entry (m : String × Json) (e : String × s.Val) :
        (∃ a, s.decode buffered m.2 = .ok a ∧ (m.1, a) = e) ↔
          s.decode buffered m.2 = .ok e.2 ∧ e.1 = m.1 := by
      obtain ⟨key, a⟩ := e
      simp [Prod.ext_iff, eq_comm, and_comm]
    simp only [entry]
    exact ⟨fun ⟨es, read, whole⟩ => ⟨ms, es, rfl, read, whole.symm⟩,
      fun ⟨_, es, same, read, whole⟩ => ⟨es, same ▸ read, whole.symm⟩⟩
  | _ => simp [Decode.entries]

theorem decode_record_iff {own : Slots} {parts : Parts} {v : own.Val × parts.Val} :
    (record own parts).decode buffered j = .ok v ↔
      (∃ ms, j = .obj ms ∧ own.decode buffered (Members.look ms) = .done v.1 ∧
        parts.decode (Members.look ms) = .ok v.2) ∨
      ∃ xs, j = .arr xs ∧ parts.decodeNone = .ok v.2 ∧
        own.decodeRow buffered xs = .ok (v.1, []) := by
  obtain ⟨a, b⟩ := v
  cases j with
  | obj ms =>
    constructor
    · intro read
      obtain ⟨a', own, read⟩ := Except.bind_eq_ok_iff.mp read
      obtain ⟨b', parts, read⟩ := Except.bind_eq_ok_iff.mp read
      cases read
      exact .inl ⟨ms, rfl, Reading.result_eq_ok_iff.mp own, parts⟩
    · rintro (⟨_, ⟨⟩, own, parts⟩ | ⟨_, ⟨⟩, _⟩)
      exact Except.bind_eq_ok_iff.mpr ⟨a, Reading.result_eq_ok_iff.mpr own,
        Except.bind_eq_ok_iff.mpr ⟨b, parts, rfl⟩⟩
  | arr xs =>
    constructor
    · intro read
      obtain ⟨b', parts, read⟩ := Except.bind_eq_ok_iff.mp read
      obtain ⟨⟨a', rest⟩, own, read⟩ := Except.bind_eq_ok_iff.mp read
      cases rest with
      | nil =>
        cases read
        exact .inr ⟨xs, rfl, parts, own⟩
      | cons => cases read
    · rintro (⟨_, ⟨⟩, _⟩ | ⟨_, ⟨⟩, parts, own⟩)
      exact Except.bind_eq_ok_iff.mpr ⟨b, parts, Except.bind_eq_ok_iff.mpr ⟨(a, []), own, rfl⟩⟩
  | _ => exact ⟨nofun, by rintro (⟨_, ⟨⟩, _⟩ | ⟨_, ⟨⟩, _⟩)⟩

theorem decode_selection_iff {v : Selection} : selection.decode buffered j = .ok v ↔
    (∃ ms, j = .obj ms ∧ Decode.selection buffered (Members.look ms) = .ok v) ∨
    ∃ xs, j = .arr xs ∧ Decode.selectionRow buffered xs = .ok v := by
  cases j with
  | obj ms => exact ⟨fun read => .inl ⟨ms, rfl, read⟩, by rintro (⟨_, ⟨⟩, read⟩ | ⟨_, ⟨⟩, _⟩); exact read⟩
  | arr xs => exact ⟨fun read => .inr ⟨xs, rfl, read⟩, by rintro (⟨_, ⟨⟩, _⟩ | ⟨_, ⟨⟩, read⟩); exact read⟩
  | _ => exact ⟨nofun, by rintro (⟨_, ⟨⟩, _⟩ | ⟨_, ⟨⟩, _⟩)⟩

theorem decode_tagged_iff {tag : String} {alternatives : Alternatives} {v : alternatives.Val} :
    (tagged tag alternatives).decode buffered j = .ok v ↔
      ∃ ms n, j = .obj ms ∧ Members.look ms tag = some (.str n) ∧
        alternatives.decode alternatives.names n (Members.look ms) = .ok v := by
  constructor
  · intro read
    cases j with
    | obj ms =>
      obtain ⟨n, found, read⟩ := Except.bind_eq_ok_iff.mp read
      exact ⟨ms, n, rfl, Decode.tag_eq_ok_iff.mp found, read⟩
    | arr xs =>
      rcases xs with - | ⟨x, xs⟩
      · cases read
      · cases x <;> cases read
    | _ => cases read
  · rintro ⟨ms, n, rfl, found, read⟩
    exact Except.bind_eq_ok_iff.mpr ⟨n, Decode.tag_eq_ok_iff.mpr found, read⟩

end Shape

namespace Slots

variable {buffered : Bool}

theorem decode_cons_iff {n : String} {p : Presence} {s : Shape} {rest : Slots}
    {look : String → Option Json} {a : p.Val s.Val} {b : rest.Val} :
    (cons n p s rest).decode buffered look = .done (a, b) ↔
      p.read n (s.decode buffered) (look n) = .done a ∧ rest.decode buffered look = .done b :=
  Reading.both_eq_done_iff

theorem decodeRow_cons_iff {n : String} {p : Presence} {s : Shape} {rest : Slots}
    {xs ys : List Json} {a : p.Val s.Val} {b : rest.Val} :
    (cons n p s rest).decodeRow buffered xs = .ok ((a, b), ys) ↔
      p.read n (s.decode buffered) xs.head? = .done a ∧ (xs = [] → p.mayEnd = true) ∧
        rest.decodeRow buffered xs.tail = .ok (b, ys) := by
  constructor
  · intro read
    obtain ⟨⟨a', zs⟩, next, read⟩ := Except.bind_eq_ok_iff.mp read
    obtain ⟨⟨b', ys'⟩, later, read⟩ := Except.bind_eq_ok_iff.mp read
    cases read
    obtain ⟨first, rfl, long⟩ := (p.readNext_eq_ok_iff n).mp next
    exact ⟨first, long, later⟩
  · rintro ⟨first, long, later⟩
    exact Except.bind_eq_ok_iff.mpr ⟨(a, xs.tail), (p.readNext_eq_ok_iff n).mpr ⟨first, rfl, long⟩,
      Except.bind_eq_ok_iff.mpr ⟨(b, ys), later, rfl⟩⟩

end Slots

namespace Parts

variable {look : String → Option Json}

theorem decode_record_iff {own : Slots} {parts rest : Parts} {a : own.Val} {b : parts.Val}
    {c : rest.Val} : (record own parts rest).decode look = .ok ((a, b), c) ↔
      own.decode parts.isNil look = .done a ∧ parts.decode look = .ok b ∧
        rest.decode look = .ok c := by
  constructor
  · intro read
    obtain ⟨_, first, read⟩ := Except.bind_eq_ok_iff.mp read
    obtain ⟨_, second, read⟩ := Except.bind_eq_ok_iff.mp read
    obtain ⟨_, third, read⟩ := Except.bind_eq_ok_iff.mp read
    cases read
    exact ⟨Reading.result_eq_ok_iff.mp first, second, third⟩
  · rintro ⟨first, second, third⟩
    exact Except.bind_eq_ok_iff.mpr ⟨a, Reading.result_eq_ok_iff.mpr first,
      Except.bind_eq_ok_iff.mpr ⟨b, second, Except.bind_eq_ok_iff.mpr ⟨c, third, rfl⟩⟩⟩

theorem decode_selection_iff {rest : Parts} {a : Selection} {c : rest.Val} :
    (selection rest).decode look = .ok (a, c) ↔
      Decode.selection true look = .ok a ∧ rest.decode look = .ok c := by
  constructor
  · intro read
    obtain ⟨_, first, read⟩ := Except.bind_eq_ok_iff.mp read
    obtain ⟨_, second, read⟩ := Except.bind_eq_ok_iff.mp read
    cases read
    exact ⟨first, second⟩
  · rintro ⟨first, second⟩
    exact Except.bind_eq_ok_iff.mpr ⟨a, first, Except.bind_eq_ok_iff.mpr ⟨c, second, rfl⟩⟩

theorem decodeNone_eq_ok {parts : Parts} {b : parts.Val} (read : parts.decodeNone = .ok b) :
    parts = .nil := by
  cases parts with
  | nil => rfl
  | _ => cases read

end Parts

namespace Alternatives

variable {names : List String} {look : String → Option Json} {n name : String} {own : Slots}
  {parts : Parts} {rest : Alternatives}

theorem decode_cons : (cons n own parts rest).decode names name look =
    if n = name then (do
      let a ← (own.decode true look).result
      let b ← parts.decode look
      return .inl (a, b))
    else (rest.decode names name look).map .inr := rfl

theorem decode_cons_same {v : (own.Val × parts.Val) ⊕ rest.Val} :
    (cons n own parts rest).decode names n look = .ok v ↔
      ∃ a b, own.decode true look = .done a ∧ parts.decode look = .ok b ∧ v = .inl (a, b) := by
  rw [decode_cons, if_pos rfl]
  constructor
  · intro read
    obtain ⟨a, first, read⟩ := Except.bind_eq_ok_iff.mp read
    obtain ⟨b, second, read⟩ := Except.bind_eq_ok_iff.mp read
    cases read
    exact ⟨a, b, Reading.result_eq_ok_iff.mp first, second, rfl⟩
  · rintro ⟨a, b, first, second, rfl⟩
    exact Except.bind_eq_ok_iff.mpr ⟨a, Reading.result_eq_ok_iff.mpr first,
      Except.bind_eq_ok_iff.mpr ⟨b, second, rfl⟩⟩

theorem decode_cons_other {v : (own.Val × parts.Val) ⊕ rest.Val} (other : n ≠ name) :
    (cons n own parts rest).decode names name look = .ok v ↔
      ∃ w, rest.decode names name look = .ok w ∧ v = .inr w := by
  rw [decode_cons, if_neg other]
  exact Except.map_eq_ok_iff.trans (exists_congr fun w => and_congr_right' eq_comm)

end Alternatives

end SupervisorApi
