import SupervisorApi.Proofs.Envelope.Reader
import SupervisorApi.Proofs.Json.Members
import SupervisorApi.Proofs.Json.Printed

set_option autoImplicit false

namespace SupervisorApi

namespace Envelope

open Json (alone entryOf tokens_str)

def get (e : Envelope) : (p : Part) → p.Val
  | .result => e.result
  | .message => e.message
  | .jobId => e.jobId
  | .errorKey => e.errorKey
  | .extraFields => e.extraFields
  | .data => e.data

def written (e : Envelope) : Part → Option Json
  | .result => some (.str e.result.name)
  | .message => e.message.map .str
  | .jobId => e.jobId.map .str
  | .errorKey => e.errorKey.map .str
  | .extraFields => e.extraFields.map .obj
  | .data => e.data

def listed (e : Envelope) : Members :=
  Part.all.flatMap fun p => optional p.name (e.written p)

theorem members_eq (e : Envelope) : e.members = Members.ofList e.listed := by
  simp [members, listed, Part.all, written, optional, Part.name]

-- Data that are null are no data.
def withoutNull : Option Json → Option Json
  | some .null => none
  | data => data

def settled (e : Envelope) : Envelope :=
  { e with data := withoutNull e.data }

structure IsWhole (e : Envelope) : Prop where
  extraFields : ∀ ms, e.extraFields = some ms → (Json.obj ms).IsWhole
  data : ∀ j, e.data = some j → j.IsWhole

variable {e : Envelope} {p : Part} {v : Json}

theorem mem_all (p : Part) : p ∈ Part.all := by
  cases p <;> decide

theorem name_injective {p q : Part} (same : p.name = q.name) : p = q := by
  have found := ofName_name p
  rw [same, ofName_name] at found
  exact (Option.some.inj found).symm

theorem IsWhole.written (whole : e.IsWhole) (there : e.written p = some v) : v.IsWhole := by
  cases p with
  | result =>
    cases there
    exact .str _
  | message | jobId | errorKey =>
    obtain ⟨s, -, rfl⟩ := Option.map_eq_some_iff.mp there
    exact .str s
  | extraFields =>
    obtain ⟨ms, held, rfl⟩ := Option.map_eq_some_iff.mp there
    exact whole.extraFields ms held
  | data => exact whole.data v there

def entryFor (p : Part) (v : Json) : Json.Entry :=
  entryOf (fun v => Token.tokens v.bytes) (p.name, v)

theorem part?_entryFor (p : Part) (v : Json) : part? (entryFor p v) = some p := by
  rw [part?, entryFor, entryOf, Json.text_spelling, Option.bind_some, ofName_name]

theorem outcomeOf_name (o : Outcome) : outcomeOf o.name = .ok o := by
  cases o <;> rfl

theorem alone_text (s : String) :
    alone (nullable text) (Token.tokens (Json.str s).bytes) = .ok (some s) := by
  simp [tokens_str, alone, nullable, text, Json.text_spelling, Except.map]

theorem alone_object {ms : Members} (whole : (Json.obj ms).IsWhole) {depth : Nat}
    (low : (Json.obj ms).depth ≤ depth + 1) :
    alone (nullable (object depth)) (Token.tokens (Json.obj ms).bytes) = .ok (some ms) := by
  cases whole with
  | obj _ ascending each =>
    have spelt := fun m member => (each m member).spells
    have values : ∀ m ∈ ms.map (entryOf fun v => Token.tokens v.bytes), Json.IsValue m.2 := by
      intro m member
      obtain ⟨n, among, rfl⟩ := List.mem_map.mp member
      exact (spelt n among).value
    have inside := Json.gives_members (fun m member => Json.exists_gives (values m member) depth) []
    rw [Json.membersOf_entries spelt (Nat.le_of_succ_le_succ low),
      Members.ofList_of_ascending ascending, List.append_nil] at inside
    rw [Json.tokens_members fun m member => (spelt m member).value, enclose]
    simp only [alone, nullable, object, inside, Except.map]

theorem withoutNull_of_ne {v : Json} (other : v ≠ .null) : withoutNull (some v) = some v := by
  cases v <;> first | rfl | exact absurd rfl other

theorem alone_data {v : Json} (whole : v.IsWhole) {depth : Nat} (low : v.depth ≤ depth) :
    alone (nullable (Json.read depth)) (Token.tokens v.bytes) = .ok (withoutNull (some v)) := by
  have spelt := whole.spells
  have read := spelt.gives low
  by_cases null : Token.tokens v.bytes = [.null]
  · rw [null] at read ⊢
    have same : v = .null := by cases depth <;> exact (Except.ok.inj read).symm
    rw [same]
    rfl
  · have other : v ≠ .null := by
      rintro rfl
      exact null (Json.tokens_scalar rfl rfl)
    rw [alone_nullable _ spelt.value null, read, withoutNull_of_ne other]
    rfl

theorem valueOf_written (whole : e.IsWhole) (there : e.written p = some v)
    (low : v.depth ≤ partDepth + 1) : valueOf (entryFor p v) p = .ok (e.settled.get p) := by
  cases p with
  | result =>
    cases there
    simp only [valueOf, entryFor, entryOf, tokens_str, Part.read, alone]
    rw [outcome_str, Json.text_spelling]
    simp only [outcomeOf_name, Except.map]
    rfl
  | message =>
    obtain ⟨s, held, rfl⟩ := Option.map_eq_some_iff.mp there
    simp only [settled, get, held]
    exact alone_text s
  | jobId =>
    obtain ⟨s, held, rfl⟩ := Option.map_eq_some_iff.mp there
    simp only [settled, get, held]
    exact alone_text s
  | errorKey =>
    obtain ⟨s, held, rfl⟩ := Option.map_eq_some_iff.mp there
    simp only [settled, get, held]
    exact alone_text s
  | extraFields =>
    obtain ⟨ms, held, rfl⟩ := Option.map_eq_some_iff.mp there
    simp only [settled, get, held]
    exact alone_object (whole.extraFields ms held) low
  | data =>
    have held : e.data = some v := there
    simp only [settled, get, held]
    exact alone_data (whole.data v held) low

section Entries

def entries (ms : Members) : List Json.Entry :=
  ms.map (entryOf fun v => Token.tokens v.bytes)

theorem exists_of_listed {m : String × Json} (member : m ∈ e.listed) :
    ∃ p, e.written p = some m.2 ∧ m = (p.name, m.2) := by
  obtain ⟨p, -, held⟩ := List.mem_flatMap.mp member
  cases there : e.written p with
  | none => rw [there] at held; cases held
  | some v =>
    rw [there] at held
    obtain rfl := List.mem_singleton.mp held
    exact ⟨p, there, rfl⟩

theorem keys_listed (e : Envelope) :
    e.listed.map Prod.fst = (Part.all.filter fun p => (e.written p).isSome).map Part.name := by
  rw [listed]
  induction Part.all with
  | nil => rfl
  | cons p ps ih =>
    rw [List.flatMap_cons, List.map_append, ih]
    cases there : e.written p <;> simp [optional, there]

theorem parts_listed (e : Envelope) :
    (entries e.listed).filterMap part? = Part.all.filter fun p => (e.written p).isSome := by
  rw [listed, entries]
  induction Part.all with
  | nil => rfl
  | cons p ps ih =>
    rw [List.flatMap_cons, List.map_append, List.filterMap_append, ih]
    cases there : e.written p with
    | none => simp [optional, there]
    | some v =>
      have known := part?_entryFor p v
      rw [entryFor] at known
      simp [optional, there, known]

theorem changes_listed (whole : e.IsWhole)
    (low : ∀ p v, e.written p = some v → v.depth ≤ partDepth + 1) :
    (entries e.listed).filterMap change? =
      (Part.all.filter fun p => (e.written p).isSome).map fun p => ⟨p, e.settled.get p⟩ := by
  rw [listed, entries]
  induction Part.all with
  | nil => rfl
  | cons p ps ih =>
    rw [List.flatMap_cons, List.map_append, List.filterMap_append, ih]
    cases there : e.written p with
    | none => simp [optional, there]
    | some v =>
      have read := valueOf_written whole there (low p v there)
      have changed : change? (entryFor p v) = some ⟨p, e.settled.get p⟩ := by
        rw [change?, part?_entryFor, Option.bind_some, read]
        rfl
      rw [entryFor] at changed
      simp [optional, there, changed]

theorem foldl_change (e : Envelope) :
    ((Part.all.filter fun p => (e.written p).isSome).map fun p =>
      (⟨p, e.settled.get p⟩ : (p : Part) × p.Val)).foldl change (.ok none) = e.settled := by
  obtain ⟨result, message, jobId, errorKey, extraFields, data⟩ := e
  cases message <;> cases jobId <;> cases errorKey <;> cases extraFields <;> cases data <;> rfl

theorem ofEntries_listed (whole : e.IsWhole)
    (low : ∀ p v, e.written p = some v → v.depth ≤ partDepth + 1) :
    ofEntries (entries e.listed) = e.settled := by
  rw [ofEntries, changes_listed whole low, foldl_change]

end Entries

section RoundTrip

variable {ms : Members}

theorem nodup_listed (e : Envelope) : (e.listed.map Prod.fst).Nodup := by
  rw [keys_listed]
  refine List.Nodup.map (fun p q => name_injective) (List.Nodup.filter _ ?_)
  decide

theorem depth_of_written (deep : e.toJson.depth ≤ Json.maxDepth) (there : e.written p = some v) :
    v.depth ≤ partDepth + 1 := by
  have listed : (p.name, v) ∈ e.listed := by
    refine List.mem_flatMap.mpr ⟨p, mem_all p, ?_⟩
    rw [there]
    exact List.mem_singleton_self _
  have among : (p.name, v) ∈ e.members := by
    rw [members_eq]
    exact (Members.perm_ofList e.nodup_listed).symm.subset listed
  exact Json.membersDepth_le_iff.mp (Nat.le_of_succ_le_succ deep) _ among

theorem isReadable_of_written (whole : e.IsWhole) (there : e.written p = some v)
    (low : v.depth ≤ partDepth + 1) : IsReadable (entryFor p v) := by
  refine ⟨⟨p.name, Json.text_spelling p.name⟩, fun q known => ?_⟩
  rw [part?_entryFor] at known
  cases known
  exact ⟨_, valueOf_written whole there low⟩

theorem spells_of_listed (whole : e.IsWhole) (order : ms.Perm e.listed) {m : String × Json}
    (member : m ∈ ms) : Json.Spells m.2 (Token.tokens m.2.bytes) := by
  obtain ⟨p, there, -⟩ := exists_of_listed (order.subset member)
  exact (whole.written there).spells

theorem parse_listed (whole : e.IsWhole) (deep : e.toJson.depth ≤ Json.maxDepth)
    (order : ms.Perm e.listed) : parse (Json.obj ms).bytes = .ok e.settled := by
  have low (p : Part) (v : Json) (there : e.written p = some v) := depth_of_written deep there
  have perm : (entries ms).Perm (entries e.listed) := order.map _
  have parts : ((entries ms).filterMap part?).Perm
      (Part.all.filter fun p => (e.written p).isSome) := by
    rw [← parts_listed]
    exact perm.filterMap part?
  have apart : ((entries ms).filterMap part?).Nodup :=
    parts.nodup_iff.mpr (List.Nodup.filter _ (by decide))
  have values : ∀ m ∈ entries ms, Json.IsValue m.2 :=
    Json.values_entries fun m => spells_of_listed whole order
  have made := Json.tokens_members fun m member => (spells_of_listed whole order member).value
  refine (parse_eq_ok_iff values made).mpr ⟨?_, apart, ?_, ?_⟩
  · intro m member
    obtain ⟨n, among, rfl⟩ := List.mem_map.mp member
    obtain ⟨p, there, named⟩ := exists_of_listed (order.subset among)
    rw [named]
    exact isReadable_of_written whole there (low p _ there)
  · refine parts.symm.subset (List.mem_filter.mpr ⟨by decide, rfl⟩)
  · rw [ofEntries_perm perm apart, ofEntries_listed whole low]

theorem perm_members (e : Envelope) : e.members.Perm e.listed := by
  rw [members_eq]
  exact Members.perm_ofList e.nodup_listed

theorem mem_keys_iff {key : String} :
    key ∈ e.members.map Prod.fst ↔ ∃ p, (e.written p).isSome = true ∧ p.name = key := by
  rw [(e.perm_members.map Prod.fst).mem_iff, keys_listed, List.mem_map]
  constructor
  · rintro ⟨p, member, named⟩
    exact ⟨p, (List.mem_filter.mp member).2, named⟩
  · rintro ⟨p, there, named⟩
    exact ⟨p, List.mem_filter.mpr ⟨mem_all p, there⟩, named⟩

theorem parse_json (whole : e.IsWhole) (deep : e.toJson.depth ≤ Json.maxDepth)
    (order : ms.Perm e.listed) : Json.parse (Json.obj ms).bytes = .ok e.toJson := by
  have low : Json.membersDepth ms ≤ partDepth + 1 := by
    refine Json.membersDepth_le_iff.mpr fun m member => ?_
    obtain ⟨p, there, -⟩ := exists_of_listed (order.subset member)
    exact depth_of_written deep there
  have apart : (ms.map Prod.fst).Nodup := (order.map Prod.fst).nodup_iff.mpr e.nodup_listed
  rw [Json.parse_members (fun m => spells_of_listed whole order) (Nat.succ_le_succ low),
    Members.ofList_perm order apart, ← members_eq, toJson]

/-- The text of an envelope is read back as it, whatever order its members have in the text, only
that data that are null are read as no data. It has a member for the result, one for each other part
that is there, and no more. -/
theorem parse_written (whole : e.IsWhole) (deep : e.toJson.depth ≤ Json.maxDepth) :
    (∀ key, key ∈ e.members.map Prod.fst ↔
      key = "result" ∨ (key = "message" ∧ e.message.isSome = true) ∨
        (key = "job_id" ∧ e.jobId.isSome = true) ∨ (key = "error_key" ∧ e.errorKey.isSome = true) ∨
          (key = "extra_fields" ∧ e.extraFields.isSome = true) ∨
            (key = "data" ∧ e.data.isSome = true)) ∧
    ∀ ms : Members, ms.Perm e.members →
      Json.parse (Json.obj ms).bytes = .ok e.toJson ∧
        parse (Json.obj ms).bytes = .ok { e with data := withoutNull e.data } := by
  refine ⟨fun key => ?_, fun ms order => ?_⟩
  · rw [mem_keys_iff]
    constructor
    · rintro ⟨p, there, rfl⟩
      cases p <;> simp_all [written, Part.name]
    · rintro (rfl | ⟨rfl, there⟩ | ⟨rfl, there⟩ | ⟨rfl, there⟩ | ⟨rfl, there⟩ | ⟨rfl, there⟩)
      · exact ⟨.result, rfl, rfl⟩
      · exact ⟨.message, by simp [written, there], rfl⟩
      · exact ⟨.jobId, by simp [written, there], rfl⟩
      · exact ⟨.errorKey, by simp [written, there], rfl⟩
      · exact ⟨.extraFields, by simp [written, there], rfl⟩
      · exact ⟨.data, there, rfl⟩
  · have listed := order.trans e.perm_members
    exact ⟨parse_json whole deep listed, parse_listed whole deep listed⟩

theorem parse_written_of_nested :
    ∃ e : Envelope, e.IsWhole ∧ e.toJson.depth = 4 ∧ e.message = some "\"\\\n\u0001é" ∧
      e.data = some .null ∧ parse e.toJson.bytes = .ok { e with data := none } := by
  let fields : Members := [("k", .arr [.int (-1), .obj [("ü", .int (2 ^ 64 - 1))]])]
  let e : Envelope := ⟨.error, some "\"\\\n\u0001é", none, none, some fields, some .null⟩
  have inner : (Json.obj [("ü", .int (2 ^ 64 - 1))]).IsWhole := by
    refine .obj _ (List.pairwise_singleton _ _) fun m member => ?_
    obtain rfl := List.mem_singleton.mp member
    exact .int _ (by decide) (by decide)
  have outer : (Json.obj fields).IsWhole := by
    refine .obj _ (List.pairwise_singleton _ _) fun m member => ?_
    obtain rfl := List.mem_singleton.mp member
    refine .arr _ fun x among => ?_
    rcases List.mem_cons.mp among with rfl | rest
    · exact .int _ (by decide) (by decide)
    · obtain rfl := List.mem_singleton.mp rest
      exact inner
  have whole : e.IsWhole := by
    constructor
    · rintro _ ⟨⟩
      exact outer
    · rintro _ ⟨⟩
      exact .null
  have deep : e.toJson.depth = 4 := by decide +kernel
  have read := (parse_written whole (by rw [deep]; decide)).2 e.members (.refl _)
  exact ⟨e, whole, deep, rfl, rfl, read.2⟩

end RoundTrip

end Envelope

end SupervisorApi
