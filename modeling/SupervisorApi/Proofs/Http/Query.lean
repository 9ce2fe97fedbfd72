import SupervisorApi.Proofs.Client.Target

set_option autoImplicit false

namespace SupervisorApi

section Cut

variable {α : Type} [DecidableEq α] {mark : α} {s : List α}

theorem takeWhile_append_mark (absent : mark ∉ s) (t : List α) :
    (s ++ mark :: t).takeWhile (· ≠ mark) = s := by
  apply takeWhile_append_boundary
  · intro a member
    exact decide_eq_true fun same => absent (same ▸ member)
  · intro a first
    cases first
    simp

theorem dropWhile_append_mark (absent : mark ∉ s) (t : List α) :
    (s ++ mark :: t).dropWhile (· ≠ mark) = mark :: t := by
  have inside : ∀ a ∈ s, decide (a ≠ mark) = true := fun a member =>
    decide_eq_true fun same => absent (same ▸ member)
  rw [List.dropWhile_append_of_pos inside]
  simp

end Cut

namespace Query

def ampersand : UInt8 := 0x26

def equals : UInt8 := 0x3D

def plus : UInt8 := 0x2B

def space : UInt8 := 0x20

theorem encode_encodePair (pair : String × String) :
    Utf8.encode (encodePair pair) =
      Utf8.encode (Percent.encode pair.1) ++ equals :: Utf8.encode (Percent.encode pair.2) := by
  have mark : Utf8.encode "=" = [equals] := by decide
  rw [encodePair, Utf8.encode_append, Utf8.encode_append, mark, List.append_assoc,
    List.singleton_append]

theorem not_mem_encodePair (pair : String × String) :
    ampersand ∉ Utf8.encode (encodePair pair) := by
  have absent : ∀ side, ampersand ∉ Utf8.encode (Percent.encode side) :=
    Percent.not_mem_encode (by decide) (by decide)
  rw [encode_encodePair, List.mem_append, List.mem_cons]
  rintro (key | same | value)
  · exact absent pair.1 key
  · exact absurd same (by decide)
  · exact absent pair.2 value

inductive Rules where
  | plain
  | form
  deriving DecidableEq, Repr

namespace Rules

def spaced : Rules → Bytes → Bytes
  | .plain, side => side
  | .form, side => side.map fun b => if b = plus then space else b

def text? (rules : Rules) (side : Bytes) : Option String :=
  Utf8.decode? (Percent.decode (rules.spaced side))

def pair? (rules : Rules) (part : Bytes) : Option (String × String) := do
  let key ← rules.text? (part.takeWhile (· ≠ equals))
  let value ← rules.text? (part.dropWhile (· ≠ equals)).tail
  return (key, value)

def read? (rules : Rules) (text : String) : Option Query :=
  (splitAt ampersand (Utf8.encode text)).mapM rules.pair?

def ofTarget? (rules : Rules) (target : String) : Option Query :=
  match target.toList.dropWhile (· ≠ '?') with
  | [] => some []
  | _ :: text => rules.read? (String.ofList text)

variable (rules : Rules)

theorem spaced_of_not_mem {side : Bytes} (absent : plus ∉ side) : rules.spaced side = side := by
  cases rules with
  | plain => rfl
  | form =>
    have kept : ∀ b ∈ side, (if b = plus then space else b) = b := by
      intro b member
      rw [if_neg]
      rintro rfl
      exact absent member
    exact (List.map_congr_left kept).trans (List.map_id side)

theorem text?_encode (s : String) : rules.text? (Utf8.encode (Percent.encode s)) = some s := by
  have absent : plus ∉ Utf8.encode (Percent.encode s) :=
    Percent.not_mem_encode (by decide) (by decide) s
  rw [text?, rules.spaced_of_not_mem absent, Percent.decode_encode, Utf8.decode?_encode]

theorem pair?_encodePair (pair : String × String) :
    rules.pair? (Utf8.encode (encodePair pair)) = some pair := by
  have absent : equals ∉ Utf8.encode (Percent.encode pair.1) :=
    Percent.not_mem_encode (by decide) (by decide) pair.1
  rw [encode_encodePair, pair?, takeWhile_append_mark absent, dropWhile_append_mark absent,
    List.tail_cons, rules.text?_encode, rules.text?_encode]
  rfl

theorem mapM_pair? (query : Query) :
    (query.map fun pair => Utf8.encode (encodePair pair)).mapM rules.pair? = some query := by
  induction query with
  | nil => rfl
  | cons pair rest ih => simp [pair?_encodePair, ih]

theorem read?_encode {query : Query} (some : query ≠ []) :
    rules.read? query.encode = .some query := by
  have mark : Utf8.encode "&" = [ampersand] := by decide
  have absent : ∀ part ∈ query.map fun pair => Utf8.encode (encodePair pair),
      ampersand ∉ part := by
    intro part member
    obtain ⟨pair, -, rfl⟩ := List.mem_map.mp member
    exact not_mem_encodePair pair
  rw [read?, encode, Utf8.encode_intercalate, mark, List.map_map, Function.comp_def,
    splitAt_intercalate (by simpa using some) absent, mapM_pair?]

theorem ofTarget?_of_not_mem {target : String} (absent : '?' ∉ target.toList) :
    rules.ofTarget? target = some [] := by
  have none : target.toList.dropWhile (· ≠ '?') = [] := by
    rw [List.dropWhile_eq_nil_iff]
    intro c member
    exact decide_eq_true fun same => absent (same ▸ member)
  rw [ofTarget?, none]

theorem ofTarget?_append {path : String} (absent : '?' ∉ path.toList) (query : Query) :
    rules.ofTarget? (path ++ Client.queryText query) = some query := by
  by_cases empty : query = []
  · have nothing : path ++ Client.queryText query = path := by simp [empty, Client.queryText]
    rw [nothing, empty, rules.ofTarget?_of_not_mem absent]
  · have asked : (path ++ Client.queryText query).toList =
        path.toList ++ '?' :: query.encode.toList := by
      rw [String.toList_append, Client.toList_queryText, if_neg (by simpa using empty)]
    rw [ofTarget?, asked, dropWhile_append_mark absent]
    simp only [String.ofList_toList, rules.read?_encode empty]

end Rules

theorem foldl_add (query : Query) (additions : List Addition) :
    additions.foldl add query = query ++ additions.flatMap Addition.pairs := by
  induction additions generalizing query with
  | nil => simp
  | cons a rest ih => rw [List.foldl_cons, ih, add, List.flatMap_cons, List.append_assoc]

end Query

namespace Host

theorem exists_parse {host base : String} (accepted : normalize host = .ok base) :
    ∃ uri, Uri.parse host = .ok uri := by
  unfold normalize at accepted
  split at accepted
  next => cases accepted
  next uri read => exact ⟨uri, read⟩

end Host

namespace Client

open Query (Addition Rules)

variable {settings : ClientSettings} {c : Client} {first : Session} {around : Surroundings}
  {s : Session} {call : Call} {reaction : Reaction} {r : Request}

theorem question_not_mem_path {uri : Uri} (plain : uri.path.toList.all Uri.isPathChar = true)
    (noQuery : uri.query = none) : '?' ∉ uri.target.toList := by
  by_cases empty : uri.path = ""
  · simp [Uri.target, empty, noQuery]
  · rw [target_of_path empty noQuery]
    exact not_mem_of_isPathChar plain (by decide)

theorem ofTarget?_of_request (built : settings.build = .ok (c, first)) (rules : Rules)
    (sent : (c.call around s call reaction).request = some r) :
    rules.ofTarget? r.target =
      some (if '#' ∈ settings.host.toList then [] else call.query) := by
  obtain ⟨accepted, -⟩ := ClientSettings.of_build built
  obtain ⟨uri, read⟩ := Host.exists_parse accepted
  obtain ⟨schemed, noQuery, -⟩ := Host.of_normalize accepted read
  obtain ⟨plain, -⟩ := Uri.path_rooted read schemed noQuery
  obtain ⟨-, -, target⟩ := target_of_request built read sent
  obtain ⟨taken, o, reached⟩ := sent_of_request sent
  rw [target]
  split
  next => exact rules.ofTarget?_of_not_mem (question_not_mem_path plain noQuery)
  next =>
    apply rules.ofTarget?_append
    rw [toList_sentPath]
    exact not_mem_joined plain reached.allowed (.inr rfl)

/-- The text of a query holds unreserved characters, escapes and its two marks alone, and is read
back as the very pairs that it was written for, as a form or not. So a request carries what was added
to its query, in the order in which it was added, unless there is a fragment in the host, which hides
every pair. -/
theorem query_read_back (built : settings.build = .ok (c, first)) (around : Surroundings)
    (s : Session) (call : Call) (reaction : Reaction) (additions : List Addition) (rules : Rules) :
    (∀ query : Query, query ≠ [] →
      (∀ ch ∈ query.encode.toList, Percent.isWritten ch = true ∨ ch = '=' ∨ ch = '&') ∧
        rules.read? query.encode = some query) ∧
    ∀ r, (c.call around s { call with query := additions.foldl Query.add [] } reaction).request =
        some r →
      (rules.ofTarget? r.target = some (additions.flatMap Addition.pairs) ↔
        '#' ∉ settings.host.toList ∨ additions.flatMap Addition.pairs = []) := by
  refine ⟨fun query some => ⟨fun _ => Query.mem_encode, rules.read?_encode some⟩, ?_⟩
  intro r sent
  rw [ofTarget?_of_request built rules sent, Query.foldl_add, List.nil_append]
  by_cases fragment : '#' ∈ settings.host.toList
  · rw [if_pos fragment, Option.some_inj, eq_comm]
    exact ⟨.inr, fun hidden => hidden.resolve_left (not_not_intro fragment)⟩
  · rw [if_neg fragment]
    exact ⟨fun _ => .inl fragment, fun _ => rfl⟩

theorem query_read_back_of_locations :
    let additions : List Addition := [.one "a&b=" "1 + 1#é", .all "location" [".local", "", ".local"]]
    ∃ c first r, (ClientSettings.adopting "http://supervisor/api" "token").build = .ok (c, first) ∧
      (c.call .open first
        { Call.ofPath .get "info" with query := additions.foldl Query.add [] } .hungUp).request =
          some r ∧
      Rules.form.ofTarget? r.target = some [("a&b=", "1 + 1#é"), ("location", ".local"),
        ("location", ""), ("location", ".local")] := by
  intro additions
  have answered : ((Client.adopting "http://supervisor/api" "token").call .open
      (.adopted .standard) { Call.ofPath .get "info" with query := additions.foldl Query.add [] }
        .hungUp).request.isSome = true := by
    decide +kernel
  obtain ⟨r, sent⟩ := Option.isSome_iff_exists.mp answered
  have built : (ClientSettings.adopting "http://supervisor/api" "token").build =
      .ok (.adopting "http://supervisor/api" "token", .adopted .standard) := rfl
  have carried := ((query_read_back built _ _ _ _ additions .form).2 r sent).mpr (.inl (by decide))
  exact ⟨_, _, r, built, sent, carried⟩

theorem query_hidden :
    ∃ c first r,
      (ClientSettings.adopting "http://127.0.0.1:8099/api#frag" "test-token").build =
        .ok (c, first) ∧
      (c.call .open first { Call.ofPath .get "info" with query := [("location", ".local")] }
        .hungUp).request = some r ∧
      r.target = "/api" ∧ Rules.plain.ofTarget? r.target ≠ some [("location", ".local")] := by
  have answered : ((Client.adopting "http://127.0.0.1:8099/api#frag" "test-token").call .open
      (.adopted .standard) { Call.ofPath .get "info" with query := [("location", ".local")] }
        .hungUp).request.map Request.target = some "/api" := by
    decide +kernel
  obtain ⟨r, sent, target⟩ := Option.map_eq_some_iff.mp answered
  refine ⟨.adopting "http://127.0.0.1:8099/api#frag" "test-token", .adopted .standard, r, rfl, sent,
    target, ?_⟩
  rw [target]
  decide +kernel

end Client

end SupervisorApi
