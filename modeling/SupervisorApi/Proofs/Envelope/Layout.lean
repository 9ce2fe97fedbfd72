import SupervisorApi.Proofs.Client.Deadline
import SupervisorApi.Proofs.Envelope.Reader
import SupervisorApi.Proofs.Json.Taken

set_option autoImplicit false

namespace SupervisorApi

namespace Envelope

open Json (Entry IsPart IsValue Reads colon key mismatch)

section Reads

theorem text_eq_ok {ts rest : List Token} {s : String} (read : text ts = .ok (s, rest)) :
    ∃ ps, ts = .str ps :: rest := by
  unfold text at read
  split at read
  next ps ts =>
    split at read
    next =>
      cases read
      exact ⟨ps, rfl⟩
    next => cases read
  next => cases read

theorem reads_text : Reads text IsValue := by
  intro ts s rest read
  obtain ⟨ps, rfl⟩ := text_eq_ok read
  exact ⟨[.str ps], rfl, .str ps⟩

theorem reads_nullable {α : Type} {read : Reader α} (reads : Reads read IsValue) :
    Reads (nullable read) IsValue := by
  intro ts a rest found
  unfold nullable at found
  split at found
  next ts =>
    cases found
    exact ⟨[.null], rfl, .null⟩
  next =>
    obtain ⟨⟨a, ts₁⟩, first, same⟩ := Except.map_eq_ok_iff.mp found
    cases same
    exact reads _ a _ first

theorem reads_object (depth : Nat) : Reads (object depth) IsValue := by
  intro ts ms rest read
  unfold object at read
  split at read
  next ts =>
    obtain ⟨p, rfl, value⟩ := Json.reads_readObject (Json.reads_read depth) ts ms rest read
    exact ⟨_, rfl, value⟩
  next => cases read

theorem reads_outcome : Reads outcome IsValue := by
  intro ts o rest read
  unfold outcome at read
  split at read
  next ps ts =>
    obtain ⟨⟨s, ts₁⟩, said, more⟩ := Except.bind_eq_ok_iff.mp read
    obtain ⟨o', -, same⟩ := Except.bind_eq_ok_iff.mp more
    cases same
    exact reads_text _ s _ said
  next ts =>
    obtain ⟨⟨s, ts₁⟩, said, more⟩ := Except.bind_eq_ok_iff.mp read
    obtain ⟨ps, rfl⟩ := text_eq_ok said
    obtain ⟨o', -, named⟩ := Except.bind_eq_ok_iff.mp more
    obtain ⟨ts₂, marked, closed⟩ := Except.bind_eq_ok_iff.mp named
    obtain rfl := Json.colon_eq_ok marked
    split at closed
    next ts =>
      cases closed
      refine ⟨enclose .lbrace .comma .rbrace (([(ps, [.null])] : List Entry).map Entry.tokens),
        rfl, .obj _ ?_⟩
      simp only [List.mem_singleton, forall_eq]
      exact .null
    next => cases closed
    next => cases closed
  next => cases read

theorem reads_part (depth : Nat) (p : Part) : Reads (p.read depth) IsValue := by
  cases p with
  | result => exact reads_outcome
  | message | jobId | errorKey => exact reads_nullable reads_text
  | extraFields => exact reads_nullable (reads_object depth)
  | data => exact reads_nullable (Json.reads_read (depth + 1))

theorem reads_readMember (depth : Nat) (d : Draft) :
    Reads (readMember depth d) (IsPart .object) := by
  intro ts d' rest read
  obtain ⟨⟨k, ts₁⟩, said, more⟩ := Except.bind_eq_ok_iff.mp read
  obtain ⟨ps, rfl, -⟩ := Json.key_eq_ok said
  have taken : ∃ vs, ts₁ = .colon :: (vs ++ rest) ∧ IsValue vs := by
    simp only at more
    split at more
    next p _ =>
      split at more
      next => cases more
      next =>
        obtain ⟨ts₂, marked, more⟩ := Except.bind_eq_ok_iff.mp more
        obtain ⟨⟨e, ts₃⟩, last, same⟩ := Except.bind_eq_ok_iff.mp more
        cases same
        rw [readPart_eq] at last
        obtain ⟨⟨v, ts₃⟩, held, same⟩ := Except.map_eq_ok_iff.mp last
        cases same
        obtain ⟨vs, rfl, value⟩ := reads_part depth p ts₂ v _ held
        exact ⟨vs, Json.colon_eq_ok marked, value⟩
    next =>
      obtain ⟨ts₂, marked, more⟩ := Except.bind_eq_ok_iff.mp more
      obtain ⟨ts₃, passed, same⟩ := Except.bind_eq_ok_iff.mp more
      cases same
      obtain ⟨vs, rfl, value⟩ := Json.exists_of_skipValue passed
      exact ⟨vs, Json.colon_eq_ok marked, value⟩
  obtain ⟨vs, rfl, value⟩ := taken
  exact ⟨_, rfl, (ps, vs), rfl, value⟩

theorem exists_entries {body : Bytes} {ts : List Token} {e : Envelope}
    (opened : Token.tokens body = .lbrace :: ts) (parsed : parse body = .ok e) :
    ∃ ms : List Entry, Token.tokens body =
      enclose .lbrace .comma .rbrace (ms.map Entry.tokens) ∧ ∀ m ∈ ms, IsValue m.2 := by
  rw [parse, opened, ofTokens] at parsed
  obtain ⟨⟨d, rest⟩, drafted, more⟩ := Except.bind_eq_ok_iff.mp parsed
  obtain ⟨e', -, ended⟩ := Except.bind_eq_ok_iff.mp more
  have none : rest = [] := by
    split at ended
    next empty => exact List.isEmpty_iff.mp empty
    next => cases ended
  obtain ⟨_, rfl, parts, rfl, each⟩ :=
    Json.reads_items (reads_readMember partDepth) _ ts d rest drafted
  obtain ⟨ms, rfl, values⟩ := Json.exists_map each
  refine ⟨ms, ?_, values⟩
  rw [opened, none, List.append_nil, enclose]

end Reads

section Texts

open Token (Spaced)

def entryIn (text : Bytes) : Entry :=
  match Token.tokens text with
  | .str ps :: .colon :: vs => (ps, vs)
  | _ => ([], [])

structure IsMember (key : String) (text : Bytes) : Prop where
  tokens : Token.tokens text = (entryIn text).tokens
  key : Piece.text (entryIn text).1 = some key
  value : IsValue (entryIn text).2

structure IsObject (members : List Bytes) (text : Bytes) : Prop where
  each : ∀ m ∈ members, ∃ key, IsMember key m
  framed : ∃ before after, text = before ++ (enclose 123 44 125 members ++ after) ∧
    (∀ b ∈ before, Token.isBlank b = true) ∧ ∀ b ∈ after, Token.isBlank b = true

variable {key : String} {m text : Bytes} {ms order : List Bytes} {e : Envelope}

theorem IsMember.part? (member : IsMember key m) : part? (entryIn m) = Part.ofName key := by
  rw [Envelope.part?, member.key, Option.bind_some]

theorem IsMember.sound (member : IsMember key m) : .broken ∉ Token.tokens m := by
  rw [member.tokens]
  simp [Entry.tokens, member.value.sound]

theorem tokens_enclosed (members : ∀ m ∈ order, ∃ key, IsMember key m) :
    Token.tokens (enclose 123 44 125 order) =
      enclose .lbrace .comma .rbrace ((order.map entryIn).map Entry.tokens) := by
  have sound : ∀ m ∈ order, .broken ∉ Token.tokens m := fun m member =>
    (members m member).elim fun _ => IsMember.sound
  rw [Token.tokens_enclose rfl rfl sound, List.map_map]
  congr 1
  refine List.map_congr_left fun m member => ?_
  obtain ⟨_, holds⟩ := members m member
  exact holds.tokens

theorem values_of_members (members : ∀ m ∈ order, ∃ key, IsMember key m) :
    ∀ n ∈ order.map entryIn, IsValue n.2 := by
  refine List.forall_mem_map.mpr fun m member => ?_
  obtain ⟨_, holds⟩ := members m member
  exact holds.value

theorem sound_enclosed (members : ∀ m ∈ order, ∃ key, IsMember key m) :
    .broken ∉ Token.tokens (enclose 123 44 125 order) := by
  rw [tokens_enclosed members]
  exact (IsValue.obj _ (values_of_members members)).sound

theorem IsObject.tokens (object : IsObject ms text) : Token.tokens text =
    enclose .lbrace .comma .rbrace ((ms.map entryIn).map Entry.tokens) := by
  obtain ⟨before, after, rfl, front, back⟩ := object.framed
  rw [Token.tokens_blanks front, Token.tokens_append (sound_enclosed object.each)
    (Token.stops_blanks back), Token.tokens_of_blank back, List.append_nil,
    tokens_enclosed object.each]

theorem entryIn_eq {n : Entry} (made : Token.tokens m = n.tokens) : entryIn m = n := by
  rw [entryIn, made]
  rfl

theorem IsMember.of_tokens {n : Entry} (made : Token.tokens m = n.tokens)
    (said : Piece.text n.1 = some key) (value : IsValue n.2) : IsMember key m := by
  have same := entryIn_eq made
  exact ⟨by rw [same, made], by rw [same, said], by rw [same]; exact value⟩

theorem exists_lbrace (object : (text.dropWhile Token.isBlank).head? = some 123) :
    ∃ ts, Token.tokens text = .lbrace :: ts := by
  obtain ⟨more, cut⟩ := List.head?_eq_some_iff.mp object
  have blank : ∀ b ∈ text.takeWhile Token.isBlank, Token.isBlank b = true :=
    fun b member => List.mem_takeWhile_imp member
  refine ⟨Token.tokens more, ?_⟩
  rw [← List.takeWhile_append_dropWhile (p := Token.isBlank) (l := text), Token.tokens_blanks blank, cut,
    Token.tokens_mark rfl]

theorem exists_members (parsed : parse text = .ok e)
    (object : (text.dropWhile Token.isBlank).head? = some 123) : ∃ ms, IsObject ms text := by
  obtain ⟨ts, opened⟩ := exists_lbrace object
  obtain ⟨entries, made, values⟩ := exists_entries opened parsed
  obtain ⟨readable, -, found, -⟩ := (parse_eq_ok_iff values made).mp parsed
  have filled : entries.map Entry.tokens ≠ [] := by
    intro none
    rw [List.map_eq_nil_iff.mp none] at found
    cases found
  have sound : .broken ∉ Token.tokens text := by
    rw [made]
    exact (IsValue.obj _ values).sound
  have opening : Token.mark 123 = some .lbrace := rfl
  have closing : Token.mark 125 = some .rbrace := rfl
  obtain ⟨before, parts, after, cut, held, front, back⟩ :=
    Token.exists_enclosed opening closing filled sound made
  refine ⟨parts, fun m member => ?_, before, after, cut, front, back⟩
  obtain ⟨n, among, said⟩ := List.mem_map.mp (held ▸ List.mem_map_of_mem (f := Token.tokens) member)
  obtain ⟨⟨key, readable⟩, -⟩ := readable n among
  exact ⟨key, .of_tokens said.symm readable (values n among)⟩

def IsStranger (m : Bytes) : Prop :=
  ∃ key, IsMember key m ∧ ∀ p : Part, key ≠ p.name

def IsAccepted (m : Bytes) : Prop :=
  ∃ ms text e, m ∈ ms ∧ IsObject ms text ∧ parse text = .ok e

theorem ofName_eq_none (unknown : ∀ p : Part, key ≠ p.name) : Part.ofName key = none := by
  refine List.find?_eq_none.mpr fun p _ => ?_
  simpa using (unknown p).symm

theorem IsStranger.isReadable (stranger : IsStranger m) :
    part? (entryIn m) = none ∧ IsReadable (entryIn m) := by
  obtain ⟨key, member, unknown⟩ := stranger
  have none : Envelope.part? (entryIn m) = none := by
    rw [member.part?, ofName_eq_none unknown]
  exact ⟨none, ⟨key, member.key⟩, fun p known => by rw [none] at known; cases known⟩

theorem of_parsed (object : IsObject ms text) (parsed : parse text = .ok e) :
    (∀ m ∈ ms, IsReadable (entryIn m)) ∧ ((ms.map entryIn).filterMap part?).Nodup ∧
      .result ∈ (ms.map entryIn).filterMap part? ∧ e = ofEntries (ms.map entryIn) := by
  obtain ⟨readable, rest⟩ :=
    (parse_eq_ok_iff (values_of_members object.each) object.tokens).mp parsed
  exact ⟨fun m member => readable _ (List.mem_map_of_mem member), rest⟩

theorem of_strangers {strangers : List Bytes} (unknown : ∀ m ∈ strangers, IsStranger m) :
    (strangers.map entryIn).filterMap part? = [] ∧
      (strangers.map entryIn).filterMap change? = [] := by
  have none : ∀ n ∈ strangers.map entryIn, part? n = none :=
    List.forall_mem_map.mpr fun m member => (unknown m member).isReadable.1
  refine ⟨List.filterMap_eq_nil_iff.mpr none, List.filterMap_eq_nil_iff.mpr fun n member => ?_⟩
  rw [change?, none n member]
  rfl

section Relaid

variable {strangers : List Bytes} {text' : Bytes}

theorem parts_of_perm (unknown : ∀ m ∈ strangers, IsStranger m)
    (perm : order.Perm (ms ++ strangers)) :
    ((order.map entryIn).filterMap part?).Perm ((ms.map entryIn).filterMap part?) := by
  have parts := (perm.map entryIn).filterMap part?
  rwa [List.map_append, List.filterMap_append, (of_strangers unknown).1, List.append_nil] at parts

theorem ofEntries_of_perm (unknown : ∀ m ∈ strangers, IsStranger m)
    (perm : order.Perm (ms ++ strangers)) (apart : ((ms.map entryIn).filterMap part?).Nodup) :
    ofEntries (order.map entryIn) = ofEntries (ms.map entryIn) := by
  have apart' := (parts_of_perm unknown perm).nodup_iff.mpr apart
  rw [ofEntries_perm (perm.map entryIn) apart', ofEntries, List.map_append, List.filterMap_append,
    (of_strangers unknown).2, List.append_nil, ofEntries]

theorem isMember_of_perm (each : ∀ m ∈ ms, ∃ key, IsMember key m)
    (unknown : ∀ m ∈ strangers, IsStranger m) (perm : order.Perm (ms ++ strangers)) :
    ∀ m ∈ order, ∃ key, IsMember key m := by
  intro m member
  rcases List.mem_append.mp (perm.subset member) with known | stranger
  · exact each m known
  · obtain ⟨key, holds, -⟩ := unknown m stranger
    exact ⟨key, holds⟩

theorem isReadable_of_perm (readable : ∀ m ∈ ms, IsReadable (entryIn m))
    (unknown : ∀ m ∈ strangers, IsStranger m) (perm : order.Perm (ms ++ strangers)) :
    ∀ m ∈ order, IsReadable (entryIn m) := by
  intro m member
  rcases List.mem_append.mp (perm.subset member) with known | stranger
  · exact readable m known
  · exact (unknown m stranger).isReadable.2

theorem tokens_spaced (each : ∀ m ∈ order, ∃ key, IsMember key m)
    (spaced : Spaced (enclose 123 44 125 order) text') : Token.tokens text' =
      enclose .lbrace .comma .rbrace ((order.map entryIn).map Entry.tokens) := by
  rw [Token.tokens_of_spaced (sound_enclosed each) spaced, tokens_enclosed each]

theorem parse_relaid (object : IsObject ms text) (parsed : parse text = .ok e)
    (unknown : ∀ m ∈ strangers, IsStranger m) (perm : order.Perm (ms ++ strangers))
    (spaced : Spaced (enclose 123 44 125 order) text') : parse text' = .ok e := by
  obtain ⟨readable, apart, found, rfl⟩ := of_parsed object parsed
  have each := isMember_of_perm object.each unknown perm
  have parts := parts_of_perm unknown perm
  refine (parse_eq_ok_iff (values_of_members each) (tokens_spaced each spaced)).mpr
    ⟨fun n member => ?_, parts.nodup_iff.mpr apart, parts.symm.subset found,
      (ofEntries_of_perm unknown perm apart).symm⟩
  obtain ⟨m, among, rfl⟩ := List.mem_map.mp member
  exact isReadable_of_perm readable unknown perm m among

theorem draftOf_of_twice {front back : List Entry} {n : Entry} {p : Part}
    (readable : ∀ m ∈ front ++ back, IsReadable m)
    (apart : ((front ++ back).filterMap part?).Nodup) (known : part? n = some p)
    (met : p ∈ (front ++ back).filterMap part?)
    (sound : IsReadable n ∨ p ∈ front.filterMap part?) :
    draftOf (front ++ n :: back) .empty = .error (.refused (.repeated p.name)) := by
  have before : ∀ m ∈ front, IsReadable m := fun m member =>
    readable m (List.mem_append_left _ member)
  rw [List.filterMap_append] at apart met
  by_cases first : p ∈ front.filterMap part?
  · exact draftOf_of_repeated before apart.of_append_left known first
  · -- The entry stands before the one that has its part.
    have one : IsReadable n := sound.resolve_right first
    obtain ⟨n', among, known'⟩ :=
      List.mem_filterMap.mp ((List.mem_append.mp met).resolve_left first)
    obtain ⟨back₁, back₂, rfl⟩ := List.append_of_mem among
    have whole : front ++ n :: (back₁ ++ n' :: back₂) = (front ++ n :: back₁) ++ n' :: back₂ := by
      simp
    rw [whole]
    refine draftOf_of_repeated ?_ ?_ known' ?_
    · intro m member
      rcases List.mem_append.mp member with left | right
      · exact before m left
      · rcases List.mem_cons.mp right with rfl | right
        · exact one
        · exact readable m (List.mem_append_right _ (List.mem_append_left _ right))
    · simp only [List.filterMap_append, List.filterMap_cons, known, known'] at apart ⊢
      refine List.Nodup.perm (apart.sublist ?_)
        ((List.perm_append_singleton p (back₁.filterMap part?)).append_left _)
      exact (List.Sublist.refl _).append ((List.Sublist.refl _).append ((List.nil_sublist _).cons_cons p))
    · simp [known]

theorem IsAccepted.isReadable (accepted : IsAccepted m) : IsReadable (entryIn m) := by
  obtain ⟨ms, text, e, member, object, parsed⟩ := accepted
  exact (of_parsed object parsed).1 m member

theorem mem_parts {p : Part} {n : Bytes} (member : n ∈ ms) (named : IsMember p.name n) :
    p ∈ (ms.map entryIn).filterMap part? :=
  List.mem_filterMap.mpr ⟨entryIn n, List.mem_map_of_mem member, by rw [named.part?, ofName_name]⟩

section Twice

variable {p : Part} {n : Bytes} {front back : List Bytes}

theorem isMember_between (each : ∀ x ∈ front ++ back, ∃ key, IsMember key x)
    (member : IsMember key m) : ∀ x ∈ front ++ m :: back, ∃ key, IsMember key x := by
  intro x among
  rcases List.mem_cons.mp (List.perm_middle.subset among) with rfl | rest
  · exact ⟨key, member⟩
  · exact each x rest

/-- A text with the members of an object, strangers, and one known member once more. -/
structure Doubled (ms strangers : List Bytes) (p : Part) (m : Bytes) (front back : List Bytes)
    (text' : Bytes) : Prop where
  again : IsMember p.name m
  named : ∃ n ∈ ms, IsMember p.name n
  perm : (front ++ back).Perm (ms ++ strangers)
  spaced : Spaced (enclose 123 44 125 (front ++ m :: back)) text'

namespace Doubled

theorem repeated (doubled : Doubled ms strangers p m front back text') (object : IsObject ms text)
    (parsed : parse text = .ok e) (unknown : ∀ m ∈ strangers, IsStranger m)
    (sound : IsAccepted m ∨ ∃ x ∈ front, IsMember p.name x) :
    parse text' = .error (.refused (.repeated p.name)) := by
  obtain ⟨again, ⟨n, among, named⟩, perm, spaced⟩ := doubled
  obtain ⟨readable, apart, -, -⟩ := of_parsed object parsed
  have each := isMember_between (isMember_of_perm object.each unknown perm) again
  have parts := parts_of_perm unknown perm
  have met := parts.symm.subset (mem_parts among named)
  rw [List.map_append] at parts met
  have twice := draftOf_of_twice (n := entryIn m) ?_ (parts.nodup_iff.mpr apart)
    (by rw [again.part?, ofName_name]) met ?_
  · rw [parse_of_tokens (values_of_members each) (tokens_spaced each spaced), List.map_append,
      List.map_cons, twice]
    rfl
  · intro x member
    rw [← List.map_append] at member
    obtain ⟨y, held, rfl⟩ := List.mem_map.mp member
    exact isReadable_of_perm readable unknown perm y held
  · rcases sound with accepted | ⟨y, held, first⟩
    · exact .inl accepted.isReadable
    · exact .inr (mem_parts held first)

theorem repeated_behind (doubled : Doubled ms strangers p m front back text')
    (object : IsObject ms text) (parsed : parse text = .ok e)
    (unknown : ∀ m ∈ strangers, IsStranger m) (first : ∃ x ∈ front, IsMember p.name x) :
    parse text' = .error (.refused (.repeated p.name)) :=
  doubled.repeated object parsed unknown (.inr first)

theorem repeated_anywhere (doubled : Doubled ms strangers p m front back text')
    (object : IsObject ms text) (parsed : parse text = .ok e)
    (unknown : ∀ m ∈ strangers, IsStranger m) (accepted : IsAccepted m) :
    parse text' = .error (.refused (.repeated p.name)) :=
  doubled.repeated object parsed unknown (.inl accepted)

theorem exists_fault (doubled : Doubled ms strangers p m front back text')
    (object : IsObject ms text) (unknown : ∀ m ∈ strangers, IsStranger m) :
    ∃ fault, parse text' = .error fault := by
  obtain ⟨again, ⟨n, among, named⟩, perm, spaced⟩ := doubled
  cases parsed : parse text' with
  | error fault => exact ⟨fault, rfl⟩
  | ok e =>
    have every := isMember_between (isMember_of_perm object.each unknown perm) again
    obtain ⟨-, apart, -, -⟩ :=
      (parse_eq_ok_iff (values_of_members every) (tokens_spaced every spaced)).mp parsed
    have moved : (front ++ m :: back).Perm (m :: (front ++ back)) := List.perm_middle
    have parts := ((moved.map entryIn).filterMap part?).nodup_iff.mp apart
    rw [List.map_cons, List.filterMap_cons, again.part?, ofName_name] at parts
    have there : n ∈ front ++ back := perm.symm.subset (List.mem_append_left _ among)
    exact absurd (mem_parts there named) (List.nodup_cons.mp parts).1

end Doubled

end Twice

end Relaid

def TellsStatusOnly (text : Bytes) : Prop :=
  ∀ (r : Incoming) (c : Client) (around : Surroundings) (s : Session) (call : Call),
    (c.call around s call (.answer r)).request.isSome = true →
    r.body.ending = .complete → r.body.bytes = text → 400 ≤ r.status →
      (c.call around s call (.answer r)).result =
        .now (.error (.status (.ofStatus r.status) r.status none none none))

theorem tellsStatusOnly {fault : TextFault} (unreadable : parse text = .error fault) :
    TellsStatusOnly text := by
  intro r c around s call reached complete body high
  obtain ⟨sent, reached⟩ := Option.isSome_iff_exists.mp reached
  have bad : r.isError = true := decide_eq_true high
  have plain : r.refusal r.body.bytes = .status (.ofStatus r.status) r.status none none none := by
    simp only [Incoming.refusal, body, unreadable, ite_self]
    rfl
  have failed : (r.receive call.responseKind).2 = .now (.error (r.refusal r.body.bytes)) := by
    simp only [Incoming.receive, bad, if_true, Incoming.fail, Incoming.read_of_complete complete]
  rw [Client.result_of_request reached]
  simp only [Reaction.outcome, failed, plain, deadline]

/-- The layout of an envelope does not matter. An object that is read as one has members; these, and
any members that nobody asks for, may be put in any order, with blanks between the tokens, and give
the same envelope. No member that is asked for may stand a second time. That is reported, but for a
value in front of the first that no envelope may hold, as in `ill_typed_in_front`. -/
theorem layout_is_free (parsed : parse text = .ok e)
    (object : (text.dropWhile Token.isBlank).head? = some 123) :
    (∃ ms, IsObject ms text) ∧
    ∀ ms, IsObject ms text → ∀ strangers, (∀ m ∈ strangers, IsStranger m) →
      (∀ order text', order.Perm (ms ++ strangers) → Spaced (enclose 123 44 125 order) text' →
        parse text' = .ok e) ∧
      ∀ p m front back text', Doubled ms strangers p m front back text' →
        ((∃ x ∈ front, IsMember p.name x) → parse text' = .error (.refused (.repeated p.name))) ∧
        (IsAccepted m → parse text' = .error (.refused (.repeated p.name))) ∧
        (∃ fault, parse text' = .error fault) ∧
        TellsStatusOnly text' := by
  refine ⟨exists_members parsed object, fun ms object strangers unknown => ⟨?_, ?_⟩⟩
  · intro order text' perm spaced
    exact parse_relaid object parsed unknown perm spaced
  · intro p m front back text' doubled
    obtain ⟨fault, broken⟩ := doubled.exists_fault object unknown
    exact ⟨doubled.repeated_behind object parsed unknown,
      doubled.repeated_anywhere object parsed unknown, ⟨fault, broken⟩, tellsStatusOnly broken⟩

def spelled (s : String) : List Piece :=
  (Utf8.encode s).map .byte

-- The text {"message":5,"result":"ok","message":"x"}.
theorem ill_typed_in_front :
    ∃ (a b m text : Bytes) (e : Envelope), text = enclose 123 44 125 [a, b] ∧ IsObject [a, b] text ∧
      parse text = .ok e ∧ m = Utf8.encode "\"message\":5" ∧
      Doubled [a, b] [] .message m [] [a, b] (enclose 123 44 125 (m :: [a, b])) ∧
      parse (enclose 123 44 125 (m :: [a, b])) = .error (.refused .mismatched) := by
  let a := Utf8.encode "\"result\":\"ok\""
  let b := Utf8.encode "\"message\":\"x\""
  let m := Utf8.encode "\"message\":5"
  have result : IsMember "result" a :=
    .of_tokens (n := (spelled "result", [.str (spelled "ok")])) (by decide +kernel)
      (by decide +kernel) (.str _)
  have message : IsMember "message" b :=
    .of_tokens (n := (spelled "message", [.str (spelled "x")])) (by decide +kernel)
      (by decide +kernel) (.str _)
  have number : IsMember "message" m :=
    .of_tokens (n := (spelled "message", [.num ⟨false, [5], none, none⟩])) (by decide +kernel)
      (by decide +kernel) (.num _)
  have object : IsObject [a, b] (enclose 123 44 125 [a, b]) :=
    ⟨by simpa using ⟨⟨_, result⟩, ⟨_, message⟩⟩, [], [], by simp, by simp, by simp⟩
  have parsed : ∃ e, parse (enclose 123 44 125 [a, b]) = .ok e := by
    have read : (parse (enclose 123 44 125 [a, b])).isOk = true := by decide +kernel
    cases parsed : parse (enclose 123 44 125 [a, b]) with
    | error fault => simp [parsed, Except.isOk, Except.toBool] at read
    | ok e => exact ⟨e, rfl⟩
  have refused : parse (enclose 123 44 125 (m :: [a, b])) = .error (.refused .mismatched) := by
    have read : (parse (enclose 123 44 125 (m :: [a, b]))).map Envelope.message =
        .error (.refused .mismatched) := by decide +kernel
    cases parsed : parse (enclose 123 44 125 (m :: [a, b])) with
    | error fault => simpa [parsed, Except.map] using read
    | ok e => simp [parsed, Except.map] at read
  obtain ⟨e, parsed⟩ := parsed
  exact ⟨a, b, m, _, e, rfl, object, parsed, rfl,
    ⟨number, ⟨b, by simp, message⟩, .refl _, .same _⟩, refused⟩

theorem layout_is_free_of_message :
    ∃ (a b text : Bytes) (e : Envelope),
      a = Utf8.encode "\"result\": \"error\"" ∧ b = Utf8.encode " \"message\":\"no\" " ∧
      text = 32 :: enclose 123 44 125 [a, b] ∧ parse text = .ok e ∧ e.message = some "no" ∧
      parse (enclose 123 44 125 [b, a]) = .ok e ∧
      parse (enclose 123 44 125 [a, b, b]) = .error (.refused (.repeated "message")) := by
  let a := Utf8.encode "\"result\": \"error\""
  let b := Utf8.encode " \"message\":\"no\" "
  let text := 32 :: enclose 123 44 125 [a, b]
  have result : IsMember "result" a :=
    .of_tokens (n := (spelled "result", [.str (spelled "error")])) (by decide +kernel)
      (by decide +kernel) (.str _)
  have message : IsMember "message" b :=
    .of_tokens (n := (spelled "message", [.str (spelled "no")])) (by decide +kernel)
      (by decide +kernel) (.str _)
  have object : IsObject [a, b] text :=
    ⟨by simpa using ⟨⟨_, result⟩, ⟨_, message⟩⟩, [32], [], by simp [text],
      List.forall_mem_singleton.mpr rfl, by simp⟩
  have parsed : ∃ e, parse text = .ok e ∧ e.message = some "no" := by
    have read : (parse text).toOption.map Envelope.message = some (some "no") := by decide +kernel
    cases parsed : parse text with
    | error fault => simp [parsed, Except.toOption] at read
    | ok e => exact ⟨e, rfl, by simpa [parsed, Except.toOption] using read⟩
  obtain ⟨e, parsed, said⟩ := parsed
  obtain ⟨moved, twice⟩ := (layout_is_free parsed rfl).2 _ object [] (by simp)
  obtain ⟨repeated, -⟩ :=
    twice .message b [a, b] [] _ ⟨message, ⟨b, by simp, message⟩, .refl _, .same _⟩
  exact ⟨a, b, text, e, rfl, rfl, rfl, parsed, said, moved _ _ (.swap a b []) (.same _),
    repeated ⟨b, by simp, message⟩⟩

end Texts

end Envelope

end SupervisorApi
