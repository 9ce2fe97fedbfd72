import Mathlib.Data.List.Nodup
import SupervisorApi.Model.Encode
import SupervisorApi.Proofs.Model.Reading
import SupervisorApi.Proofs.Net.Address
import SupervisorApi.Proofs.Timestamp.Printed

set_option autoImplicit false

namespace SupervisorApi

namespace Choice

variable {c : Choice} {s : String} {v : c.Value}

theorem name_of_ofName (found : c.ofName s = some v) : c.name v = s := by
  simpa [name] using (List.finIdxOf?_eq_some_iff.mp found).1

theorem ofName_name (apart : c.names.Nodup) (v : c.Value) : c.ofName (c.name v) = some v := by
  rw [ofName, List.finIdxOf?_eq_some_iff]
  refine ⟨rfl, fun w less same => ?_⟩
  have twice : w.val = v.val := (List.Nodup.getElem_inj_iff apart).mp (by simpa [name] using same)
  omega

theorem ofName_eq_none_iff : c.ofName s = none ↔ s ∉ c.names := by
  rw [ofName, List.finIdxOf?_eq_none_iff]

theorem decode_encode (apart : c.names.Nodup) (buffered : Bool) (v : c.Value) :
    c.decode buffered (c.encode v) = .ok v := by
  simp [decode, encode, decodeName, ofName_name apart]

end Choice

namespace Lenient

variable {c : Choice}

theorem name_parse (c : Choice) (s : String) : (parse c s).name = s := by
  unfold parse
  split
  next found => exact Choice.name_of_ofName found
  next => rfl

theorem parse_name (apart : c.names.Nodup) (x : Lenient c) : parse c x.name = x := by
  unfold parse
  split
  next v found =>
    cases x with
    | known w =>
      rw [name, Choice.ofName_name apart] at found
      cases found
      rfl
    | unknown s other =>
      rw [name, other] at found
      cases found
  next absent =>
    cases x with
    | known w =>
      rw [name, Choice.ofName_name apart] at absent
      cases absent
    | unknown s other => rfl

theorem isKnown_parse_iff (c : Choice) (s : String) : (parse c s).isKnown = true ↔ s ∈ c.names := by
  unfold parse
  split
  next v found =>
    have named : s ∈ c.names := by
      by_contra absent
      rw [Choice.ofName_eq_none_iff.mpr absent] at found
      cases found
    simp [isKnown, named]
  next absent => simp [isKnown, Choice.ofName_eq_none_iff.mp absent]

end Lenient

namespace Uuid

theorem digit?_hexChar (d : Fin 16) : digit? (Digits.hexChar d.val) = some d := by
  rw [digit?, Digits.hexChar_eq d.isLt, Digits.hexValue?_digitChar d.isLt]
  exact congrArg some (Fin.ofNat_val_eq_self d)

theorem parse_render (u : Uuid) : parse u.render = some u := by
  have read : u.text.mapM digit? = some u.digits := by
    rw [text, List.mapM_map]
    have each : (digit? ∘ fun d : Fin 16 => Digits.hexChar d.val) = fun d => pure d :=
      funext digit?_hexChar
    rw [each, List.mapM_pure, List.map_id']
    rfl
  rw [parse, render, String.toList_ofList, read, Option.bind_some]
  exact dif_pos u.complete

end Uuid

namespace Location

theorem nullableText_encodeText (s : Option String) : nullableText (encodeText s) = .ok s := by
  cases s <;> rfl

theorem decode_encode (l : Location) : decode l.encode = .ok l := by
  cases l with
  | named name => rfl
  | places names =>
    have read := mapM_map_ok names fun s _ => nullableText_encodeText s
    simp only [decode, encode, read, Except.map]
    simp

end Location

namespace AddonSelection

theorem decode_encode (a : AddonSelection) : decode a.encode = .ok a := by
  cases a with
  | all => rfl
  | slugs s =>
    have read := mapM_map_ok (g := text) (f := Json.str) (h := id) s.items fun s _ => rfl
    simp only [decode, encode, read, Except.map]
    simp

end AddonSelection

namespace Decode

theorem int64_toInt (n : Int64) : int64 (.int n.toInt) = .ok n := by
  simp only [int64]
  rw [if_pos ⟨n.minValue_le_toInt, n.toInt_le⟩, Int64.ofInt_toInt]

theorem port_toNat (n : UInt16) : port (.int n.toNat) = .ok n := by
  have bound := n.toNat_lt
  simp only [port]
  rw [if_pos (by omega)]
  simp

theorem isFinite_of_real {j : Json} {x : Binary64} (read : real j = .ok x) : x.isFinite = true := by
  have finite (y : Binary64) (read : finite y = .ok x) : x.isFinite = true := by
    unfold Decode.finite at read
    split at read
    next small =>
      cases read
      exact small
    next => cases read
  cases j with
  | real y => exact finite y read
  | int n => exact finite _ read
  | _ => cases read

theorem spelled_render {α : Type} {parse : String → Option α} {e : DecodeError} {s : String} {a : α}
    (read : parse s = some a) : spelled parse e (.str s) = .ok a := by
  simp [spelled, read]

end Decode

def Key.isSound : Key → Bool
  | .nullableText => true
  | .choice c => c.names.Nodup

namespace Decode

theorem key_encode {k : Key} (sound : k.isSound = true) (buffered : Bool) (v : k.Val) :
    key buffered k (Encode.key k v) = .ok v := by
  cases k with
  | nullableText => exact Location.nullableText_encodeText v
  | choice c => exact c.decode_encode (by simpa [Key.isSound] using sound) buffered v

theorem set_encode {k : Key} (sound : k.isSound = true) (buffered : Bool) (set : SortedSet k.Val) :
    (items (key buffered k) (.arr (set.items.map (Encode.key k)))).map SortedSet.ofList = .ok set := by
  have read := mapM_map_ok set.items fun v _ => key_encode sound buffered v
  simp only [items, read, Except.map]
  simp

theorem folder_isSound : (Key.choice folder).isSound = true := by
  decide

end Decode

namespace Selection

def names : List String := ["addons", "folders", "homeassistant"]

structure Shows (s : Selection) (look : String → Option Json) : Prop where
  addons : look "addons" = s.parts.addons.map AddonSelection.encode
  folders : look "folders" = s.parts.folders.map fun f => .arr (f.items.map folder.encode)
  homeassistant : look "homeassistant" = s.parts.homeassistant.map .bool

theorem read_optional {α : Type} (name : String) (decode : Json → Except DecodeError α)
    (encode : α → Json) (solid : ∀ a, encode a ≠ .null) (inverse : ∀ a, decode (encode a) = .ok a)
    (x : Option α) : Presence.optional.read name decode (x.map encode) = .done x := by
  cases x with
  | none => rfl
  | some a =>
    have read := inverse a
    have some := solid a
    simp only [Option.map_some]
    cases written : encode a with
    | null => exact absurd written some
    | _ => rw [written] at read; simp [Presence.read, read, Except.map, Reading.ofExcept]

theorem decode_of_shows {s : Selection} {look : String → Option Json} (shown : s.Shows look)
    (buffered : Bool) : Decode.selection buffered look = .ok s := by
  have addons := read_optional "addons" AddonSelection.decode AddonSelection.encode
    (fun a => by cases a <;> simp [AddonSelection.encode]) AddonSelection.decode_encode s.parts.addons
  have folders := read_optional "folders"
    (fun j => (Decode.items (Decode.key buffered (.choice folder)) j).map SortedSet.ofList)
    (fun f : SortedSet folder.Value => .arr (f.items.map folder.encode)) (fun _ => by simp)
    (Decode.set_encode Decode.folder_isSound buffered) s.parts.folders
  have homeassistant := read_optional "homeassistant" Decode.bool .bool (fun _ => by simp)
    (fun _ => rfl) s.parts.homeassistant
  have parts : Decode.selectionParts buffered look = .done s.parts := by
    rw [Decode.selectionParts, shown.addons, shown.folders, shown.homeassistant,
      Reading.map_eq_done_iff]
    refine ⟨(s.parts.addons, s.parts.folders, s.parts.homeassistant), ?_, rfl⟩
    rw [Reading.both_eq_done_iff, Reading.both_eq_done_iff]
    exact ⟨addons, folders, homeassistant⟩
  rw [Decode.selection, parts]
  exact dif_pos s.selected

theorem decode_congr {look look' : String → Option Json} (buffered : Bool)
    (same : ∀ n ∈ names, look' n = look n) :
    Decode.selection buffered look' = Decode.selection buffered look := by
  rw [Decode.selection, Decode.selection, Decode.selectionParts, Decode.selectionParts, same _ (by simp [names]),
    same _ (by simp [names]), same _ (by simp [names])]

theorem keys_sublist (s : Selection) : ((Encode.selection s).map Prod.fst).Sublist names := by
  obtain ⟨⟨addons, folders, homeassistant⟩, selected⟩ := s
  cases addons <;> cases folders <;> cases homeassistant <;>
    simp [Encode.selection, Presence.write, names]

theorem shows_encode (s : Selection) : s.Shows (Members.look (Encode.selection s)) := by
  obtain ⟨⟨addons, folders, homeassistant⟩, selected⟩ := s
  constructor <;> cases addons <;> cases folders <;> cases homeassistant <;>
    simp [Encode.selection, Presence.write, Members.look, Members.get?]

end Selection

end SupervisorApi
