import Mathlib.Data.List.Nodup
import Mathlib.Data.List.Perm.Basic
import SupervisorApi.Envelope.Reader
import SupervisorApi.Proofs.Json.Value
import SupervisorApi.Proofs.Model.Reading

set_option autoImplicit false

namespace SupervisorApi

namespace Envelope

open Json (Entry Gives IsValue alone colon key mismatch)

namespace Part

def Val : Part → Type
  | .result => Outcome
  | .message | .jobId | .errorKey => Option String
  | .extraFields => Option Members
  | .data => Option Json

def read (depth : Nat) : (p : Part) → Reader p.Val
  | .result => outcome
  | .message | .jobId | .errorKey => nullable text
  | .extraFields => nullable (object depth)
  | .data => nullable (Json.read (depth + 1))

end Part

def put (e : Envelope) : (p : Part) → p.Val → Envelope
  | .result, v => { e with result := v }
  | .message, v => { e with message := v }
  | .jobId, v => { e with jobId := v }
  | .errorKey, v => { e with errorKey := v }
  | .extraFields, v => { e with extraFields := v }
  | .data, v => { e with data := v }

theorem readPart_eq (depth : Nat) (p : Part) (e : Envelope) (ts : List Token) :
    readPart depth p e ts = (p.read depth ts).map fun q => (e.put p q.1, q.2) := by
  cases p <;> rfl

theorem put_comm (e : Envelope) {p q : Part} (other : p ≠ q) (v : p.Val) (w : q.Val) :
    (e.put p v).put q w = (e.put q w).put p v := by
  cases p <;> cases q <;> first | rfl | exact absurd rfl other

section Gives

variable {ts : List Token}

theorem mismatch_append (value : IsValue ts) (rest : List Token) :
    mismatch (ts ++ rest) = mismatch ts := by
  obtain ⟨t, more, rfl, -⟩ := value.exists_cons
  cases t <;> rfl

theorem gives_mismatch {α : Type} {read : Reader α} (value : IsValue ts)
    (refused : ∀ rest, read (ts ++ rest) = .error (mismatch (ts ++ rest))) :
    ∃ x, Gives read ts x :=
  ⟨.error (mismatch ts), fun rest => by rw [refused, mismatch_append value]; rfl⟩

theorem exists_gives_text (value : IsValue ts) : ∃ x, Gives text ts x := by
  have again := value
  cases value with
  | str ps =>
    cases said : Piece.text ps with
    | none => exact ⟨.error .malformed, fun rest => by simp [text, said, Except.map]⟩
    | some s => exact ⟨.ok s, fun rest => by simp [text, said, Except.map]⟩
  | null | bool | num | arr | obj => exact gives_mismatch again fun rest => rfl

theorem nullable_append {α : Type} (read : Reader α) (value : IsValue ts) (some : ts ≠ [.null])
    (rest : List Token) :
    nullable read (ts ++ rest) = (read (ts ++ rest)).map fun q => (.some q.1, q.2) := by
  cases value with
  | null => exact absurd rfl some
  | bool | num | str | arr | obj => rfl

theorem alone_nullable {α : Type} (read : Reader α) (value : IsValue ts) (some : ts ≠ [.null]) :
    alone (nullable read) ts = (alone read ts).map .some := by
  have given := nullable_append read value some []
  rw [List.append_nil] at given
  rw [alone, given, alone]
  cases read ts <;> rfl

theorem exists_gives_nullable {α : Type} {read : Reader α} (value : IsValue ts)
    (gives : ∃ x, Gives read ts x) : ∃ x, Gives (nullable read) ts x := by
  obtain ⟨x, gives⟩ := gives
  by_cases null : ts = [.null]
  · exact ⟨.ok none, fun rest => by rw [null]; rfl⟩
  · exact ⟨_, fun rest => (nullable_append read value null rest).trans (gives.map some rest)⟩

theorem exists_gives_object (value : IsValue ts) (depth : Nat) :
    ∃ x, Gives (object depth) ts x := by
  have again := value
  cases value with
  | obj members each =>
    have inside := Json.gives_members fun m member => Json.exists_gives (each m member) depth
    exact ⟨_, fun rest => inside rest⟩
  | null | bool | num | str | arr => exact gives_mismatch again fun rest => rfl

theorem exists_behind (p : List Token) (ps : List (List Token)) :
    ∃ more, [.comma].intercalate (p :: ps) ++ [.rbrace] = p ++ more ∧
      (more = [.rbrace] ∨ ∃ r, more = .comma :: r) := by
  cases ps with
  | nil => exact ⟨[.rbrace], by rw [List.intercalate_singleton], .inl rfl⟩
  | cons q ps =>
    refine ⟨_, ?_, .inr ⟨[.comma].intercalate (q :: ps) ++ [.rbrace], rfl⟩⟩
    rw [List.intercalate_cons_cons, List.append_assoc, List.append_assoc]
    rfl

theorem outcome_str (ps : List Piece) (rest : List Token) : outcome (.str ps :: rest) =
    (match Piece.text ps with
      | some s => outcomeOf s
      | none => .error .malformed).map fun o => (o, rest) := by
  cases said : Piece.text ps with
  | none => simp [outcome, text, said, bind, Except.bind, Except.map]
  | some s =>
    simp only [outcome, text, said, bind, Except.bind]
    cases outcomeOf s <;> rfl

theorem outcome_obj (ps : List Piece) (rest : List Token) :
    outcome (.lbrace :: .str ps :: .colon :: rest) =
      match Piece.text ps with
      | some s =>
        match outcomeOf s with
        | .ok o =>
          match rest with
          | .null :: .rbrace :: ts => .ok (o, ts)
          | .null :: _ => .error .malformed
          | ts => .error (mismatch ts)
        | .error e => .error e
      | none => .error .malformed := by
  cases said : Piece.text ps with
  | none => simp [outcome, text, said, bind, Except.bind]
  | some s =>
    simp only [outcome, text, said, bind, Except.bind, colon]
    cases outcomeOf s <;> rfl

theorem exists_gives_outcome (value : IsValue ts) : ∃ x, Gives outcome ts x := by
  cases value with
  | null | bool | num | arr => exact ⟨.error .malformed, fun rest => rfl⟩
  | str ps => exact ⟨_, outcome_str ps⟩
  | obj members each =>
    cases members with
    | nil => exact ⟨.error .malformed, fun rest => rfl⟩
    | cons m ms =>
      obtain ⟨ps, vs⟩ := m
      have value : IsValue vs := each (ps, vs) List.mem_cons_self
      obtain ⟨more, split, behind⟩ := exists_behind (Entry.tokens (ps, vs)) (ms.map Entry.tokens)
      have begun (rest : List Token) :
          enclose .lbrace .comma .rbrace (((ps, vs) :: ms).map Entry.tokens) ++ rest =
            .lbrace :: .str ps :: .colon :: (vs ++ (more ++ rest)) := by
        rw [enclose, List.map_cons, split, List.cons_append, List.append_assoc]
        rfl
      unfold Gives
      simp only [begun, outcome_obj]
      cases Piece.text ps with
      | none => exact ⟨.error .malformed, fun rest => rfl⟩
      | some s =>
        simp only
        cases outcomeOf s with
        | error e => exact ⟨.error e, fun rest => rfl⟩
        | ok o =>
          have again := value
          cases value with
          | null =>
            rcases behind with rfl | ⟨r, rfl⟩
            · exact ⟨.ok o, fun rest => rfl⟩
            · exact ⟨.error .malformed, fun rest => rfl⟩
          | bool | num | str | arr | obj =>
            exact ⟨.error (mismatch _), fun rest => congrArg Except.error (mismatch_append again _)⟩

theorem exists_gives (value : IsValue ts) (depth : Nat) (p : Part) :
    ∃ x, Gives (p.read depth) ts x := by
  cases p with
  | result => exact exists_gives_outcome value
  | message | jobId | errorKey => exact exists_gives_nullable value (exists_gives_text value)
  | extraFields => exact exists_gives_nullable value (exists_gives_object value depth)
  | data => exact exists_gives_nullable value (Json.exists_gives value (depth + 1))

end Gives

def part? (m : Entry) : Option Part :=
  (Piece.text m.1).bind Part.ofName

theorem ofName_name (p : Part) : Part.ofName p.name = some p := by
  cases p <;> rfl

def valueOf (m : Entry) (p : Part) : Except TextFault p.Val :=
  alone (p.read partDepth) m.2

def addEntry (m : Entry) (d : Draft) : Except TextFault Draft :=
  match Piece.text m.1 with
  | none => .error .malformed
  | some k =>
    match Part.ofName k with
    | none => .ok d
    | some p =>
      if p ∈ d.met then .error (.refused (.repeated p.name))
      else (valueOf m p).map fun v => ⟨p :: d.met, d.envelope.put p v⟩

def draftOf (ms : List Entry) (d : Draft) : Except TextFault Draft :=
  ms.foldlM (fun d m => addEntry m d) d

theorem gives_readMember {m : Entry} (value : IsValue m.2) (d : Draft) :
    Gives (readMember partDepth d) m.tokens (addEntry m d) := by
  intro rest
  simp only [readMember, Entry.tokens, List.cons_append, key, addEntry]
  cases Piece.text m.1 with
  | none => rfl
  | some k =>
    simp only [bind, Except.bind, colon]
    cases Part.ofName k with
    | none =>
      simp only [Json.skipValue, Json.skip_value value, Json.skip]
      rfl
    | some p =>
      simp only
      split
      next => rfl
      next =>
        obtain ⟨x, gives⟩ := exists_gives value partDepth p
        rw [readPart_eq, gives rest, valueOf, gives.alone_eq]
        cases x <;> rfl

theorem parse_of_tokens {body : Bytes} {ms : List Entry} (values : ∀ m ∈ ms, IsValue m.2)
    (made : Token.tokens body = enclose .lbrace .comma .rbrace (ms.map Entry.tokens)) :
    parse body = (draftOf ms .empty).bind Draft.finish := by
  have items := Json.gives_items .rbrace Entry.tokens nofun (fun m _ => ⟨_, _, rfl, nofun⟩)
    (fun m member d => gives_readMember (values m member) d) Draft.empty []
  rw [List.append_nil] at items
  rw [parse, ofTokens, made, enclose, readDraft, items, draftOf]
  cases ms.foldlM (fun d m => addEntry m d) Draft.empty with
  | error e => rfl
  | ok d =>
    simp only [Except.map, bind, Except.bind]
    cases d.finish <;> rfl

def IsReadable (m : Entry) : Prop :=
  (∃ k, Piece.text m.1 = some k) ∧ ∀ p, part? m = some p → ∃ v, valueOf m p = .ok v

def change? (m : Entry) : Option ((p : Part) × p.Val) :=
  (part? m).bind fun p => (valueOf m p).toOption.map fun v => ⟨p, v⟩

def change (e : Envelope) (c : (p : Part) × p.Val) : Envelope :=
  e.put c.1 c.2

def Draft.after (d : Draft) (ms : List Entry) : Draft :=
  ⟨(ms.filterMap part?).reverse ++ d.met, (ms.filterMap change?).foldl change d.envelope⟩

namespace Draft

theorem after_of_unknown {m : Entry} (unknown : part? m = none) (d : Draft) : d.after [m] = d := by
  simp [after, change?, unknown]

theorem after_of_known {m : Entry} {p : Part} {v : p.Val} (known : part? m = some p)
    (read : valueOf m p = .ok v) (d : Draft) : d.after [m] = ⟨p :: d.met, d.envelope.put p v⟩ := by
  simp [after, change?, known, read, change, Except.toOption]

theorem after_cons (d : Draft) (m : Entry) (ms : List Entry) :
    d.after (m :: ms) = (d.after [m]).after ms := by
  cases known : part? m <;> cases changed : change? m <;> simp [after, known, changed]

theorem met_after_one (d : Draft) (m : Entry) : (d.after [m]).met = (part? m).toList ++ d.met := by
  cases known : part? m <;> simp [after, known]

theorem nodup_after_cons {d : Draft} {m : Entry} {ms : List Entry}
    (apart : (d.after (m :: ms)).met.Nodup) :
    (d.after [m]).met.Nodup ∧ ∀ p, part? m = some p → p ∉ d.met := by
  rw [after_cons] at apart
  have one : (d.after [m]).met.Nodup := apart.of_append_right
  refine ⟨one, fun p known met => ?_⟩
  rw [met_after_one, known] at one
  exact (List.nodup_cons.mp one).1 met

end Draft

theorem addEntry_of_silent {m : Entry} (silent : Piece.text m.1 = none) (d : Draft) :
    addEntry m d = .error .malformed := by
  rw [addEntry, silent]

theorem addEntry_of_unknown {m : Entry} {k : String} (said : Piece.text m.1 = some k)
    (unknown : part? m = none) (d : Draft) : addEntry m d = .ok d := by
  rw [part?, said, Option.bind_some] at unknown
  simp only [addEntry, said, unknown]

theorem addEntry_of_known {m : Entry} {p : Part} (known : part? m = some p) (d : Draft) :
    addEntry m d =
      if p ∈ d.met then .error (.refused (.repeated p.name))
      else (valueOf m p).map fun v => ⟨p :: d.met, d.envelope.put p v⟩ := by
  obtain ⟨k, said, named⟩ := Option.bind_eq_some_iff.mp known
  simp only [addEntry, said, named]

theorem addEntry_eq_ok_iff {m : Entry} {d d' : Draft} :
    addEntry m d = .ok d' ↔
      IsReadable m ∧ (∀ p, part? m = some p → p ∉ d.met) ∧ d' = d.after [m] := by
  cases said : Piece.text m.1 with
  | none => simp [addEntry_of_silent said, IsReadable, said]
  | some k =>
    cases named : part? m with
    | none =>
      simp [addEntry_of_unknown said named, IsReadable, said, named,
        Draft.after_of_unknown named, eq_comm]
    | some p =>
      rw [addEntry_of_known named]
      simp only [IsReadable, said, named, Option.some.injEq, exists_eq', true_and, forall_eq']
      split
      next met => simp [met]
      next fresh =>
        cases read : valueOf m p with
        | error e => simp [Except.map]
        | ok v => simp [Except.map, fresh, Draft.after_of_known named read, eq_comm]

theorem draftOf_eq_ok_iff {ms : List Entry} {d d' : Draft} (apart : d.met.Nodup) :
    draftOf ms d = .ok d' ↔
      (∀ m ∈ ms, IsReadable m) ∧ (d.after ms).met.Nodup ∧ d' = d.after ms := by
  induction ms generalizing d with
  | nil => simp [draftOf, Draft.after, pure, Except.pure, apart, eq_comm]
  | cons m ms ih =>
    have step : draftOf (m :: ms) d = addEntry m d >>= draftOf ms := List.foldlM_cons
    rw [step, Except.bind_eq_ok_iff]
    simp only [addEntry_eq_ok_iff, List.forall_mem_cons]
    constructor
    · rintro ⟨_, ⟨readable, fresh, rfl⟩, made⟩
      have one : (d.after [m]).met.Nodup := by
        rw [Draft.met_after_one]
        cases known : part? m with
        | none => exact apart
        | some p => exact List.nodup_cons.mpr ⟨fresh p known, apart⟩
      obtain ⟨rest, all, rfl⟩ := (ih one).mp made
      rw [← Draft.after_cons] at all
      exact ⟨⟨readable, rest⟩, all, (Draft.after_cons d m ms).symm⟩
    · rintro ⟨⟨readable, rest⟩, all, rfl⟩
      obtain ⟨one, fresh⟩ := Draft.nodup_after_cons all
      rw [Draft.after_cons] at all
      exact ⟨_, ⟨readable, fresh, rfl⟩, (ih one).mpr ⟨rest, all, Draft.after_cons d m ms⟩⟩

def ofEntries (ms : List Entry) : Envelope :=
  (ms.filterMap change?).foldl change (.ok none)

theorem met_after (ms : List Entry) :
    (Draft.empty.after ms).met = (ms.filterMap part?).reverse :=
  List.append_nil _

theorem draftOf_empty_iff {ms : List Entry} {d : Draft} :
    draftOf ms .empty = .ok d ↔
      (∀ m ∈ ms, IsReadable m) ∧ (ms.filterMap part?).Nodup ∧ d = Draft.empty.after ms := by
  rw [draftOf_eq_ok_iff List.nodup_nil, met_after, List.nodup_reverse]

theorem finish_after_iff {ms : List Entry} {e : Envelope} :
    (Draft.empty.after ms).finish = .ok e ↔
      .result ∈ ms.filterMap part? ∧ e = ofEntries ms := by
  have found : .result ∈ (Draft.empty.after ms).met ↔ .result ∈ ms.filterMap part? := by
    rw [met_after, List.mem_reverse]
  rw [← found, Draft.finish]
  split
  next met =>
    simp only [Except.ok.injEq, met, true_and]
    exact eq_comm
  next unmet => simp [unmet]

theorem parse_eq_ok_iff {body : Bytes} {ms : List Entry} (values : ∀ m ∈ ms, IsValue m.2)
    (made : Token.tokens body = enclose .lbrace .comma .rbrace (ms.map Entry.tokens))
    {e : Envelope} : parse body = .ok e ↔
      (∀ m ∈ ms, IsReadable m) ∧ (ms.filterMap part?).Nodup ∧ .result ∈ ms.filterMap part? ∧
        e = ofEntries ms := by
  rw [parse_of_tokens values made]
  constructor
  · intro read
    obtain ⟨d, drafted, finished⟩ := Except.bind_eq_ok_iff.mp read
    obtain ⟨readable, apart, rfl⟩ := draftOf_empty_iff.mp drafted
    exact ⟨readable, apart, finish_after_iff.mp finished⟩
  · rintro ⟨readable, apart, finished⟩
    rw [draftOf_empty_iff.mpr ⟨readable, apart, rfl⟩]
    exact finish_after_iff.mpr finished

theorem part?_of_change? {m : Entry} {c : (p : Part) × p.Val} (changed : change? m = some c) :
    part? m = some c.1 := by
  obtain ⟨p, known, read⟩ := Option.bind_eq_some_iff.mp changed
  obtain ⟨v, -, rfl⟩ := Option.map_eq_some_iff.mp read
  exact known

theorem parts_sublist (ms : List Entry) :
    ((ms.filterMap change?).map Sigma.fst).Sublist (ms.filterMap part?) := by
  induction ms with
  | nil => exact .slnil
  | cons m ms ih =>
    cases changed : change? m with
    | none =>
      cases known : part? m with
      | none => simpa [changed, known] using ih
      | some p => simpa [changed, known] using ih.cons p
    | some c => simpa [changed, part?_of_change? changed] using ih

theorem ofEntries_perm {ms ns : List Entry} (perm : ms.Perm ns)
    (apart : (ms.filterMap part?).Nodup) : ofEntries ms = ofEntries ns := by
  have different := List.inj_on_of_nodup_map (apart.sublist (parts_sublist ms))
  refine (perm.filterMap change?).foldl_eq' (fun c among c' among' e => ?_) _
  by_cases same : c = c'
  · rw [same]
  · exact put_comm e (fun part => same (different among among' part)) c.2 c'.2

theorem draftOf_append (front back : List Entry) (d : Draft) :
    draftOf (front ++ back) d = draftOf front d >>= draftOf back :=
  List.foldlM_append

theorem draftOf_of_repeated {front back : List Entry} {m : Entry} {p : Part}
    (readable : ∀ n ∈ front, IsReadable n) (apart : (front.filterMap part?).Nodup)
    (known : part? m = some p) (met : p ∈ front.filterMap part?) :
    draftOf (front ++ m :: back) .empty = .error (.refused (.repeated p.name)) := by
  have again : addEntry m (Draft.empty.after front) = .error (.refused (.repeated p.name)) := by
    rw [addEntry_of_known known, if_pos]
    rwa [met_after, List.mem_reverse]
  have rest : draftOf (m :: back) (Draft.empty.after front) =
      addEntry m (Draft.empty.after front) >>= draftOf back := List.foldlM_cons
  rw [draftOf_append, draftOf_empty_iff.mpr ⟨readable, apart, rfl⟩]
  change draftOf (m :: back) (Draft.empty.after front) = _
  rw [rest, again]
  rfl

end Envelope

end SupervisorApi
