import SupervisorApi.Proofs.Client.Sending
import SupervisorApi.Proofs.Path.Segments
import SupervisorApi.Proofs.Text.Percent
import SupervisorApi.Proofs.Uri.Parts

set_option autoImplicit false

namespace SupervisorApi

namespace Query

theorem mem_encode {query : Query} {c : Char} (member : c ∈ query.encode.toList) :
    Percent.isWritten c = true ∨ c = '=' ∨ c = '&' := by
  rw [encode, String.toList_intercalate] at member
  rcases of_mem_intercalate member with mark | ⟨text, present, inside⟩
  · exact .inr (.inr (by simpa using mark))
  · obtain ⟨pairText, shown, rfl⟩ := List.mem_map.mp present
    obtain ⟨pair, -, rfl⟩ := List.mem_map.mp shown
    simp only [encodePair, String.toList_append, List.mem_append] at inside
    rcases inside with (key | equals) | value
    · exact .inl (Percent.isWritten_encode key)
    · exact .inr (.inl (by simpa using equals))
    · exact .inl (Percent.isWritten_encode value)

theorem fragment_not_mem_encode (query : Query) : '#' ∉ query.encode.toList := by
  intro member
  rcases mem_encode member with written | same | same <;> revert ‹_› <;> decide

end Query

def ClientSettings.adopting (host token : String) : ClientSettings :=
  { ClientSettings.standard host token with transport := some .standard }

def Client.adopting (address token : String) : Client :=
  ⟨address, Utf8.encode ("Bearer " ++ token), Utf8.encode "hasupervisor-rs/0.1.0",
    some (.ofSeconds 10)⟩

-- Every server is there, and none of them speaks TLS.
def Surroundings.open : Surroundings where
  roots := .system
  link _ := .plain
  unreached _ _ _ := ⟨"client error (Connect)", []⟩
  stopped e := ⟨"client error (SendRequest)", [e.display]⟩

def Reaction.hungUp : Reaction :=
  .dropped ⟨"client error (SendRequest)", ["connection closed before message completed"]⟩

namespace Host

theorem toList_withoutSlashes (s : String) :
    (withoutSlashes s).toList = s.toList.rdropWhile (· = '/') :=
  String.toList_ofList

end Host

namespace Client

def sentPath (uri : Uri) (path : String) : String :=
  Host.withoutSlashes uri.path ++ "/" ++ relative path

def queryText (query : Query) : String :=
  if query.isEmpty then "" else "?" ++ query.encode

theorem toList_relative (path : String) :
    (relative path).toList = path.toList.dropWhile (· = '/') :=
  String.toList_ofList

theorem mem_relative {path : String} {c : Char} (member : c ∈ (relative path).toList) :
    c ∈ path.toList := by
  rw [toList_relative] at member
  exact (List.dropWhile_suffix _).subset member

theorem toList_queryText (query : Query) :
    (queryText query).toList = if query.isEmpty then [] else '?' :: query.encode.toList := by
  unfold queryText
  split
  · rfl
  · rw [String.toList_append]
    rfl

theorem toList_url (c : Client) (call : Call) :
    (c.url call).toList = c.baseUrl.toList ++ '/' ::
      ((relative call.path).toList ++ (queryText call.query).toList) := by
  simp only [url, queryText, String.toList_append, List.append_assoc]
  rfl

variable {host : String} {uri sentUri : Uri} {c : Client} {call : Call}

theorem not_mem_of_isPathChar {path : List Char} {mark : Char}
    (plain : path.all Uri.isPathChar = true) (outside : Uri.isPathChar mark = false) :
    mark ∉ path := by
  intro member
  rw [List.all_eq_true] at plain
  exact absurd (plain mark member) (by simp [outside])

theorem toList_sentPath (uri : Uri) (path : String) :
    (sentPath uri path).toList =
      uri.path.toList.rdropWhile (· = '/') ++ '/' :: (relative path).toList := by
  simp only [sentPath, String.toList_append, Host.toList_withoutSlashes, List.append_assoc]
  rfl

theorem not_mem_joined {path : List Char} {text : String} {mark : Char}
    (plain : path.all Uri.isPathChar = true) (allowed : Path.guard text = .ok ())
    (ends : mark = '#' ∨ mark = '?') :
    mark ∉ path.rdropWhile (· = '/') ++ '/' :: (relative text).toList := by
  have special : Uri.isPathChar mark = false ∧ mark ≠ '/' ∧ mark.toNat < 0x80 ∧
      Path.isForbidden (UInt8.ofNat mark.toNat) = true := by
    rcases ends with rfl | rfl <;> decide
  obtain ⟨notPath, notSlash, ascii, forbidden⟩ := special
  intro member
  rcases List.mem_append.mp member with inside | inside
  · exact not_mem_of_isPathChar plain notPath
      ((List.rdropWhile_prefix (· = '/') path).subset inside)
  · rcases List.mem_cons.mp inside with same | inside
    · exact notSlash same
    · exact Path.not_mem_of_guard allowed ascii forbidden (mem_relative inside)

-- A fragment hides whatever is written behind it.
theorem splitQuery_hidden {tail path more : List Char} (fragment : '#' ∈ tail)
    (cut : Uri.splitQuery tail = some (path, none)) :
    Uri.splitQuery (tail.rdropWhile (· = '/') ++ '/' :: more) = some (path, none) := by
  obtain ⟨start, plain⟩ := Uri.of_splitQuery_none cut
  have whole : path ++ tail.dropWhile (· ≠ '#') = tail := by
    rw [start]
    exact List.takeWhile_append_dropWhile
  cases behind : tail.dropWhile (· ≠ '#') with
  | nil =>
    rw [behind, List.append_nil] at whole
    exact absurd (whole ▸ fragment) (not_mem_of_isPathChar plain (by decide))
  | cons mark rest =>
    have stopped := List.head?_dropWhile_not (· ≠ '#') tail
    rw [behind] at stopped
    have marked : mark = '#' := by simpa using stopped
    have kept : ∀ c ∈ (path ++ ['#']).getLast?, decide (c = '/') = false := by
      intro c last
      rw [List.getLast?_concat] at last
      cases last
      decide
    have trimmed := rdropWhile_append (t := rest) kept
    simp only [List.append_assoc, List.cons_append, List.nil_append] at trimmed
    rw [← whole, behind, marked, trimmed, List.append_assoc, List.cons_append,
      Uri.splitQuery_path (not_mem_of_isPathChar plain (by decide))
        (not_mem_of_isPathChar plain (by decide)) (by intro c first; cases first; rfl),
      if_pos plain]

theorem splitQuery_open {path : List Char} (plain : path.all Uri.isPathChar = true)
    (allowed : Path.guard call.path = .ok ()) {found : List Char × Option (List Char)}
    (cut : Uri.splitQuery (path.rdropWhile (· = '/') ++ '/' ::
      ((relative call.path).toList ++ (queryText call.query).toList)) = some found) :
    found = (path.rdropWhile (· = '/') ++ '/' :: (relative call.path).toList,
      if call.query.isEmpty then none else some call.query.encode.toList) := by
  have noFragment := not_mem_joined plain allowed (.inl rfl)
  have noQuery := not_mem_joined plain allowed (.inr rfl)
  rw [toList_queryText] at cut
  by_cases empty : call.query.isEmpty = true
  · rw [if_pos empty, List.append_nil] at cut
    have nothing : ∀ c ∈ ([] : List Char).head?, c = '#' := by simp
    have read := Uri.splitQuery_path noFragment noQuery nothing
    rw [List.append_nil, cut] at read
    split at read
    · rw [if_pos empty]
      exact Option.some.inj read
    · cases read
  · rw [if_neg empty, ← List.cons_append, ← List.append_assoc,
      Uri.splitQuery_query noFragment noQuery (Query.fragment_not_mem_encode _)] at cut
    split at cut
    · rw [if_neg empty]
      exact (Option.some.inj cut).symm
    · cases cut

theorem parse_url (accepted : Host.normalize host = .ok c.baseUrl)
    (read : Uri.parse host = .ok uri) (allowed : Path.guard call.path = .ok ())
    (sent : Uri.parse (c.url call) = .ok sentUri) :
    sentUri = if '#' ∈ host.toList then uri else
      { uri with
        path := sentPath uri call.path
        query := if call.query.isEmpty then none else some call.query.encode } := by
  obtain ⟨schemed, noQuery, base⟩ := Host.of_normalize accepted read
  obtain ⟨scheme, authority, tail, path, query, parts, cut, rfl⟩ :=
    Uri.parts_of_parse read schemed
  have none : query = none := by simpa [Uri.ofParts] using noQuery
  subst none
  have extended := parts.extend ((relative call.path).toList ++ (queryText call.query).toList)
  rw [← Host.toList_withoutSlashes, ← base, ← toList_url] at extended
  obtain ⟨path', query', cut', rfl⟩ := extended.of_parse sent
  by_cases fragment : '#' ∈ host.toList
  · rw [if_pos fragment]
    rw [splitQuery_hidden (parts.mem_iff.mp fragment) cut] at cut'
    cases cut'
    rfl
  · obtain ⟨start, plain⟩ := Uri.of_splitQuery_none cut
    have whole : path = tail := by
      rw [start, List.takeWhile_eq_self_iff]
      intro c member
      refine decide_eq_true fun same => fragment ?_
      exact parts.mem_iff.mpr (same ▸ member)
    subst whole
    have found := splitQuery_open plain allowed cut'
    rw [Prod.mk.injEq] at found
    obtain ⟨rfl, rfl⟩ := found
    rw [if_neg fragment]
    have joined : String.ofList (path.rdropWhile (· = '/') ++ '/' :: (relative call.path).toList) =
        sentPath (Uri.ofParts scheme authority path none) call.path := by
      rw [← String.toList_inj, toList_sentPath]
      simp only [Uri.ofParts, String.toList_ofList]
    simp only [Uri.ofParts] at joined ⊢
    rw [joined]
    by_cases empty : call.query.isEmpty = true <;> simp [empty]

def intendedTarget (uri : Uri) (call : Call) : String :=
  sentPath uri call.path ++ queryText call.query

theorem target_of_path {u : Uri} (some : u.path ≠ "") (noQuery : u.query = none) :
    u.target = u.path := by
  simp [Uri.target, some, noQuery]

theorem sentPath_ne_empty (uri : Uri) (path : String) : sentPath uri path ≠ "" := by
  intro empty
  have shown := congrArg String.toList empty
  simp [sentPath] at shown

theorem target_of_open (uri : Uri) (call : Call) :
    Uri.target { uri with
      path := sentPath uri call.path
      query := if call.query.isEmpty then none else some call.query.encode } =
        intendedTarget uri call := by
  unfold Uri.target intendedTarget queryText
  rw [if_neg (sentPath_ne_empty uri call.path)]
  by_cases empty : call.query.isEmpty = true <;> simp [empty]

theorem target_slashes {uri : Uri} (noQuery : uri.query = none) :
    ∃ slashes : List Char, (∀ c ∈ slashes, c = '/') ∧
      uri.target.toList = (Host.withoutSlashes uri.path).toList ++ slashes := by
  by_cases empty : uri.path = ""
  · refine ⟨['/'], by simp, ?_⟩
    simp [Uri.target, empty, noQuery, Host.withoutSlashes]
  · refine ⟨uri.path.toList.rtakeWhile (· = '/'), ?_, ?_⟩
    · intro c member
      simpa using List.mem_rtakeWhile_imp member
    · rw [target_of_path empty noQuery, Host.toList_withoutSlashes,
        List.rdropWhile_append_rtakeWhile]

theorem intended_of_slashes {uri : Uri} {call : Call} (noQuery : uri.query = none)
    (same : uri.target = intendedTarget uri call) :
    relative call.path = "" ∧ call.query = [] ∧
      uri.target = Host.withoutSlashes uri.path ++ "/" := by
  obtain ⟨slashes, all, whole⟩ := target_slashes noQuery
  have cut : slashes = '/' :: ((relative call.path).toList ++ (queryText call.query).toList) := by
    have shown := congrArg String.toList same
    simp only [intendedTarget, sentPath, String.toList_append, List.append_assoc] at shown
    rw [whole] at shown
    exact List.append_cancel_left shown
  have rest : ∀ c ∈ (relative call.path).toList ++ (queryText call.query).toList, c = '/' := by
    intro c member
    exact all c (by rw [cut]; exact List.mem_cons_of_mem _ member)
  have noPath : relative call.path = "" := by
    rw [← String.toList_inj]
    have stopped := List.head?_dropWhile_not (· = '/') call.path.toList
    rw [← toList_relative] at stopped
    cases text : (relative call.path).toList with
    | nil => rfl
    | cons c more =>
      rw [text] at stopped rest
      exact absurd (rest c (by simp)) (by simpa using stopped)
  have noText : call.query = [] := by
    rw [toList_queryText] at rest
    by_contra some
    have shown : call.query.isEmpty ≠ true := by simpa using some
    rw [if_neg shown] at rest
    exact absurd (rest '?' (by simp)) (by decide)
  refine ⟨noPath, noText, ?_⟩
  rw [same, intendedTarget, sentPath, noPath, noText]
  simp [queryText]

theorem target_of_request {settings : ClientSettings} {first : Session} {around : Surroundings}
    {s : Session} {reaction : Reaction} {r : Request} (built : settings.build = .ok (c, first))
    (read : Uri.parse settings.host = .ok uri)
    (sent : (c.call around s call reaction).request = some r) :
    r.authority = uri.authority ∧
      (∃ taken, s.take = .ok taken ∧
        around.reaches taken.transport (Uri.address uri.authority) uri.isSecure = true) ∧
      r.target = if '#' ∈ settings.host.toList then uri.target else intendedTarget uri call := by
  obtain ⟨accepted, -⟩ := ClientSettings.of_build built
  obtain ⟨taken, o, call'⟩ := sent_of_request sent
  obtain ⟨sentUri, sentRead, rfl⟩ := of_prepare call'.prepared
  obtain ⟨-, authority, target, -⟩ := Outgoing.of_arrive call'.arrived
  have address := parse_url accepted read call'.allowed sentRead
  have same : sentUri.authority = uri.authority ∧ sentUri.isSecure = uri.isSecure := by
    rw [address]
    split <;> exact ⟨rfl, rfl⟩
  have reached := call'.reached
  simp only [same.1, same.2] at reached authority
  refine ⟨authority, ⟨taken, call'.session, reached⟩, ?_⟩
  rw [target, address]
  split
  · rfl
  · exact target_of_open uri call

/-- A request goes where its host says. Its target is made of the host, the path and the query
unless the host has a fragment, which hides everything behind it. -/
theorem request_target {settings : ClientSettings} {first : Session} {around : Surroundings}
    {s : Session} {reaction : Reaction} {r : Request} (built : settings.build = .ok (c, first))
    (read : Uri.parse settings.host = .ok uri)
    (sent : (c.call around s call reaction).request = some r) :
    r.authority = uri.authority ∧
      (∃ taken, s.take = .ok taken ∧
        around.reaches taken.transport (Uri.address uri.authority) uri.isSecure = true) ∧
      ('#' ∉ settings.host.toList → r.target = intendedTarget uri call) ∧
      ('#' ∈ settings.host.toList → r.target = uri.target) ∧
      (r.target = intendedTarget uri call ↔ '#' ∉ settings.host.toList ∨
        (relative call.path = "" ∧ call.query = [] ∧
          uri.target = Host.withoutSlashes uri.path ++ "/")) := by
  obtain ⟨authority, reached, target⟩ := target_of_request built read sent
  refine ⟨authority, reached, fun noFragment => target.trans (if_neg noFragment),
    fun fragment => target.trans (if_pos fragment), ?_⟩
  by_cases fragment : '#' ∈ settings.host.toList
  · obtain ⟨accepted, -⟩ := ClientSettings.of_build built
    obtain ⟨-, noQuery, -⟩ := Host.of_normalize accepted read
    rw [target, if_pos fragment]
    -- The hidden target is the intended one only if nothing was there to be hidden.
    constructor
    · intro meant
      exact .inr (intended_of_slashes noQuery meant)
    · rintro (noFragment | ⟨noPath, noQuery, slash⟩)
      · exact absurd fragment noFragment
      · rw [slash, intendedTarget, sentPath, noPath, noQuery]
        simp [queryText]
  · exact ⟨fun _ => .inl fragment, fun _ => target.trans (if_neg fragment)⟩

theorem request_target_of_api :
    ∃ c first r, (ClientSettings.adopting "http://supervisor/api/" "token").build = .ok (c, first) ∧
      (c.call .open first
        { Call.ofPath .get "//addons/a" with query := [("location", "#1")] } .hungUp).request =
          some r ∧
      r.authority = "supervisor" ∧ r.target = "/api/addons/a?location=%231" := by
  have answered : ((Client.adopting "http://supervisor/api" "token").call .open
      (.adopted .standard) { Call.ofPath .get "//addons/a" with query := [("location", "#1")] }
        .hungUp).request.isSome = true := by
    decide +kernel
  obtain ⟨r, sent⟩ := Option.isSome_iff_exists.mp answered
  have built : (ClientSettings.adopting "http://supervisor/api/" "token").build =
      .ok (.adopting "http://supervisor/api" "token", .adopted .standard) := rfl
  have facts := request_target built rfl sent
  exact ⟨_, _, r, built, sent, facts.1,
    (facts.2.2.1 (by decide)).trans (by decide +kernel)⟩

theorem request_target_hidden :
    ∃ c first uri r,
      (ClientSettings.adopting "http://127.0.0.1:8099/api#frag" "test-token").build =
        .ok (c, first) ∧
      Uri.parse "http://127.0.0.1:8099/api#frag" = .ok uri ∧ Path.guard "info" = .ok () ∧
      (c.call .open first (.ofPath .get "info") .hungUp).request = some r ∧
      r.target = "/api" ∧ r.target ≠ intendedTarget uri (.ofPath .get "info") := by
  have answered : ((Client.adopting "http://127.0.0.1:8099/api#frag" "test-token").call .open
      (.adopted .standard) (.ofPath .get "info") .hungUp).request.map Request.target =
        some "/api" := by
    decide +kernel
  obtain ⟨r, sent, target⟩ := Option.map_eq_some_iff.mp answered
  refine ⟨.adopting "http://127.0.0.1:8099/api#frag" "test-token", .adopted .standard,
    ⟨some "http", "127.0.0.1:8099", "/api", none⟩, r, rfl, rfl, rfl, sent, target, ?_⟩
  rw [target]
  decide +kernel

end Client

end SupervisorApi
