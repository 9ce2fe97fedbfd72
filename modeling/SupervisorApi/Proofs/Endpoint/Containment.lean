import SupervisorApi.Proofs.Client.Target
import SupervisorApi.Proofs.Endpoint.Calls
import SupervisorApi.Proofs.Path.Normal

set_option autoImplicit false

namespace SupervisorApi

namespace Utf8

theorem encode_slashes (texts : List String) :
    encode ("/".intercalate texts) = Path.joinSegments (texts.map encode) :=
  encode_intercalate "/" texts

theorem encode_relative (path : String) :
    encode (Client.relative path) = Path.withoutSlashes (encode path) := by
  rw [Client.relative, encode_ofList, encode]
  induction path.toList with
  | nil => rfl
  | cons c cs ih =>
    by_cases here : c = '/'
    · subst here
      have first : String.utf8EncodeChar '/' = [Path.slash] := by decide
      simpa [Path.withoutSlashes, first] using ih
    · have kept : Path.slash ∉ String.utf8EncodeChar c := by
        intro member
        exact here (eq_ofNat_of_mem (b := Path.slash) (by decide) member)
      rw [List.dropWhile_cons_of_neg (by simpa using here), List.flatMap_cons,
        Path.withoutSlashes]
      cases shown : String.utf8EncodeChar c with
      | nil => exact absurd shown String.utf8EncodeChar_ne_nil
      | cons b bs =>
        have other : b ≠ Path.slash := by
          intro same
          rw [shown, same] at kept
          exact kept List.mem_cons_self
        rw [List.cons_append, List.dropWhile_cons_of_neg (by simpa using other)]

end Utf8

def Request.path (r : Request) : String :=
  String.ofList (r.target.toList.takeWhile (· ≠ '?'))

namespace Client

def basePath (uri : Uri) : Bytes :=
  Utf8.encode (Host.withoutSlashes uri.path)

/-- A client of a host without a fragment, whose path has no dot segments. -/
structure Hosted (settings : ClientSettings) (c : Client) (first : Session) (uri : Uri) :
    Prop where
  built : settings.build = .ok (c, first)
  read : Uri.parse settings.host = .ok uri
  noFragment : '#' ∉ settings.host.toList
  clean : ∀ part ∈ Path.split (Path.plain (basePath uri)), Path.isDots part = false

variable {settings : ClientSettings} {c : Client} {first : Session} {uri : Uri}

theorem encode_sentPath (uri : Uri) (path : String) :
    Utf8.encode (sentPath uri path) =
      basePath uri ++ Path.slash :: Utf8.encode (relative path) := by
  have mark : Utf8.encode "/" = [Path.slash] := by decide
  rw [sentPath, Utf8.encode_append, Utf8.encode_append, mark, basePath, List.append_assoc,
    List.singleton_append]

theorem safe_relative {path : String} (allowed : Path.guard path = .ok ()) :
    ∀ part ∈ Path.split (Utf8.encode (relative path)), Path.isSafeSegment part = true := by
  intro part member
  rw [Utf8.encode_relative] at member
  exact Path.isSafeSegment_of_isSafe (Path.guard_eq_ok_iff.mp allowed) member

namespace Hosted

variable (hosted : Hosted settings c first uri)
include hosted

theorem path_rooted :
    uri.path.toList.all Uri.isPathChar = true ∧ ∀ c ∈ uri.path.toList.head?, c = '/' := by
  obtain ⟨accepted, -⟩ := ClientSettings.of_build hosted.built
  obtain ⟨schemed, noQuery, -⟩ := Host.of_normalize accepted hosted.read
  exact Uri.path_rooted hosted.read schemed noQuery

theorem basePath_rooted : ∀ b ∈ (basePath uri).head?, b = Path.slash := by
  obtain ⟨-, rooted⟩ := hosted.path_rooted
  rw [basePath, Utf8.encode, Host.toList_withoutSlashes]
  cases shown : uri.path.toList.rdropWhile (· = '/') with
  | nil => simp
  | cons c rest =>
    obtain ⟨dropped, whole⟩ := List.rdropWhile_prefix (· = '/') uri.path.toList
    rw [shown] at whole
    rw [rooted c (by rw [← whole]; rfl)]
    intro b start
    cases start
    rfl

theorem normal_sentPath {path : String} (allowed : Path.guard path = .ok ()) :
    Path.normal (Utf8.encode (sentPath uri path)) = Path.plain (basePath uri) ++
        Path.slash :: Path.joinSegments (Path.parts (Utf8.encode (relative path))) ∧
      Path.split (Path.normal (Utf8.encode (sentPath uri path))) =
        Path.split (Path.plain (basePath uri)) ++ Path.parts (Utf8.encode (relative path)) := by
  rw [encode_sentPath]
  exact Path.normal_append hosted.basePath_rooted hosted.clean (safe_relative allowed)

theorem refused_outside {call : Call} (around : Surroundings) (s : Session) (reaction : Reaction)
    (outside : ¬ Path.plain (basePath uri) ++ [Path.slash] <+:
      Path.normal (Utf8.encode (sentPath uri call.path))) :
    c.call around s call reaction = .refuse s (.invalidPath call.path) := by
  apply call_refused
  intro allowed
  apply outside
  rw [(hosted.normal_sentPath allowed).1]
  exact ⟨Path.joinSegments (Path.parts (Utf8.encode (relative call.path))), by simp⟩

theorem mark_not_mem {path : String} (allowed : Path.guard path = .ok ()) :
    '?' ∉ (sentPath uri path).toList := by
  rw [toList_sentPath]
  exact not_mem_joined hosted.path_rooted.1 allowed (.inr rfl)

theorem path_of_request {around : Surroundings} {s : Session} {call : Call} {reaction : Reaction}
    {r : Request} (sent : (c.call around s call reaction).request = some r) :
    Path.guard call.path = .ok () ∧ r.path = sentPath uri call.path := by
  obtain ⟨taken, o, reached⟩ := sent_of_request sent
  have noMark := hosted.mark_not_mem reached.allowed
  obtain ⟨-, -, target⟩ := target_of_request hosted.built hosted.read sent
  rw [if_neg hosted.noFragment] at target
  refine ⟨reached.allowed, ?_⟩
  have cut : r.target.toList.takeWhile (· ≠ '?') = (sentPath uri call.path).toList := by
    rw [target, intendedTarget, String.toList_append, toList_queryText]
    apply takeWhile_append_boundary
    · intro c member
      exact decide_eq_true fun same => noMark (same ▸ member)
    · intro c start
      split at start
      · cases start
      · cases start
        rfl
  rw [Request.path, cut, String.ofList_toList]

end Hosted

end Client

namespace Segment

-- The segments that a part of a path stands for. An argument may hold slashes of its own.
def parts (arguments : Arguments) (segment : Segment) : List Bytes :=
  Path.parts (Utf8.encode (segment.text arguments))

def isFixed : Segment → Bool
  | .fixed _ => true
  | .given _ => false

def isTidy : Segment → Bool
  | .fixed s => s ≠ "" && s.toList.all fun c => c ≠ '/' && c ≠ '%'
  | .given _ => true

theorem tidy_not_mem {s : String} {b : UInt8} (tidy : (fixed s).isTidy = true)
    (special : b = Path.slash ∨ b = Percent.sign) : b ∉ Utf8.encode s := by
  have ascii : b.toNat < 0x80 := by
    rcases special with rfl | rfl <;> decide
  rw [Utf8.mem_encode_ascii ascii]
  intro member
  simp only [isTidy, Bool.and_eq_true, List.all_eq_true, decide_eq_true_eq] at tidy
  have plain := tidy.2 _ member
  rcases special with rfl | rfl
  · exact plain.1 rfl
  · exact plain.2 rfl

theorem parts_fixed {s : String} (arguments : Arguments) (tidy : (fixed s).isTidy = true) :
    parts arguments (.fixed s) = [Utf8.encode s] := by
  have whole : Path.split (Utf8.encode s) = [Utf8.encode s] :=
    splitAt_of_not_mem (tidy_not_mem tidy (.inl rfl))
  rw [parts, text, Path.parts, whole, List.map_singleton,
    Percent.decode_of_not_mem (tidy_not_mem tidy (.inr rfl))]

theorem flatMap_parts_fixed (arguments : Arguments) {texts : List String}
    (tidy : ∀ segment ∈ texts.map fixed, segment.isTidy = true) :
    (texts.map fixed).flatMap (parts arguments) = texts.map Utf8.encode := by
  induction texts with
  | nil => rfl
  | cons text more ih =>
    simp only [List.map_cons, List.forall_mem_cons] at tidy
    rw [List.map_cons, List.flatMap_cons, parts_fixed arguments tidy.1, ih tidy.2]
    rfl

end Segment

namespace Endpoint

def isTidy (e : Endpoint) : Bool :=
  e.path.head?.any Segment.isFixed && e.path.all Segment.isTidy

theorem catalog_isTidy : catalog.all (fun row => row.2.isTidy) = true := by
  decide +kernel

variable {e : Endpoint}

theorem isTidy_of_mem {row : String × Endpoint} (known : row ∈ catalog) : row.2.isTidy = true :=
  List.all_eq_true.mp catalog_isTidy row known

theorem intercalate_begins (text : String) (more : List String) :
    ∃ rest, "/".intercalate (text :: more) = text ++ rest := by
  cases more with
  | nil => exact ⟨"", by simp⟩
  | cons next rest =>
    rw [String.intercalate_cons_cons, String.append_assoc]
    exact ⟨_, rfl⟩

theorem relative_pathText (tidy : e.isTidy = true) (arguments : Arguments) :
    Client.relative (e.pathText arguments) = e.pathText arguments := by
  rw [isTidy, Bool.and_eq_true] at tidy
  obtain ⟨begins, whole⟩ := tidy
  cases path : e.path with
  | nil => simp [path] at begins
  | cons segment more =>
    cases segment with
    | given p => simp [path, Segment.isFixed] at begins
    | fixed s =>
      rw [path, List.all_cons, Bool.and_eq_true] at whole
      obtain ⟨rest, text⟩ := intercalate_begins s (more.map (Segment.text arguments))
      have shown : e.pathText arguments = s ++ rest := by
        rw [pathText, path, List.map_cons, Segment.text, text]
      simp only [Segment.isTidy, Bool.and_eq_true, decide_eq_true_eq, List.all_eq_true] at whole
      obtain ⟨⟨nonempty, plain⟩, -⟩ := whole
      rw [shown, ← String.toList_inj, Client.toList_relative, String.toList_append]
      cases chars : s.toList with
      | nil => exact absurd (String.toList_eq_nil_iff.mp chars) nonempty
      | cons c cs =>
        have other := (plain c (by rw [chars]; exact List.mem_cons_self)).1
        rw [List.cons_append, List.dropWhile_cons_of_neg (by simpa using other)]

theorem parts_pathText (tidy : e.isTidy = true) (arguments : Arguments) :
    Path.parts (Utf8.encode (e.pathText arguments)) = e.path.flatMap (Segment.parts arguments) := by
  have some : e.path.map (Segment.text arguments) ≠ [] := by
    intro none
    rw [List.map_eq_nil_iff] at none
    simp [isTidy, none] at tidy
  rw [pathText, Utf8.encode_slashes, Path.parts, Path.joinSegments, Path.split,
    splitAt_intercalate_flatMap (by simpa using some)]
  simp only [List.map_map, List.flatMap_map, List.map_flatMap]
  rfl

end Endpoint

namespace Client

variable {settings : ClientSettings} {c : Client} {first : Session} {uri : Uri}

theorem Hosted.segments_of_exchange (hosted : Hosted settings c first uri)
    {row : String × Endpoint} (known : row ∈ Endpoint.catalog) {arguments : Arguments}
    {v : row.2.sends.Val} {around : Surroundings} {s : Session} {reaction : Reaction} {r : Request}
    (sent : (row.2.exchange c around s arguments v reaction).request = some r) :
    Path.split (Path.normal (Utf8.encode r.path)) = Path.split (Path.plain (basePath uri)) ++
      row.2.path.flatMap (Segment.parts arguments) := by
  have tidy := Endpoint.isTidy_of_mem known
  obtain ⟨call, made, called⟩ := Endpoint.call_of_request sent
  obtain ⟨allowed, path⟩ := hosted.path_of_request called
  rw [path, (hosted.normal_sentPath allowed).2, Endpoint.path_of_call made,
    Endpoint.relative_pathText tidy, Endpoint.parts_pathText tidy]

/-- Whatever is asked for stays below the base path of the host, segment by segment; what would
leave it is refused; and endpoints keep their own segments around those of their arguments. -/
theorem calls_stay_below_base (hosted : Hosted settings c first uri) :
    (∀ path, Path.guard path = .ok () →
      Path.normal (Utf8.encode (sentPath uri path)) = Path.plain (basePath uri) ++
          Path.slash :: Path.joinSegments (Path.parts (Utf8.encode (relative path))) ∧
        Path.split (Path.normal (Utf8.encode (sentPath uri path))) =
          Path.split (Path.plain (basePath uri)) ++ Path.parts (Utf8.encode (relative path))) ∧
      (∀ around s call reaction r, (c.call around s call reaction).request = some r →
        Path.guard call.path = .ok () ∧ r.path = sentPath uri call.path) ∧
      (∀ around s call reaction, ¬ Path.plain (basePath uri) ++ [Path.slash] <+:
          Path.normal (Utf8.encode (sentPath uri call.path)) →
        c.call around s call reaction = .refuse s (.invalidPath call.path)) ∧
      (∀ row ∈ Endpoint.catalog, ∀ arguments v around s reaction r,
        (row.2.exchange c around s arguments v reaction).request = some r →
        ∀ (front : List String) (middle : List Segment) (back : List String),
          row.2.path = front.map Segment.fixed ++ middle ++ back.map Segment.fixed →
          Path.split (Path.normal (Utf8.encode r.path)) = Path.split (Path.plain (basePath uri)) ++
            (front.map Utf8.encode ++ middle.flatMap (Segment.parts arguments) ++
              back.map Utf8.encode)) := by
  refine ⟨fun path => hosted.normal_sentPath,
    fun around s call reaction r => hosted.path_of_request,
    fun around s call reaction => hosted.refused_outside around s reaction, ?_⟩
  intro row known arguments v around s reaction r sent front middle back path
  have tidy := Endpoint.isTidy_of_mem known
  have each : ∀ segment ∈ row.2.path, segment.isTidy = true := by
    rw [Endpoint.isTidy, Bool.and_eq_true, List.all_eq_true] at tidy
    exact tidy.2
  simp only [path, List.forall_mem_append] at each
  rw [hosted.segments_of_exchange known sent, path, List.flatMap_append, List.flatMap_append,
    Segment.flatMap_parts_fixed arguments each.1.1, Segment.flatMap_parts_fixed arguments each.2]

theorem calls_stay_below_base_of_api :
    ∃ c first uri r, Hosted (.adopting "http://supervisor/api/" "token") c first uri ∧
      (Endpoint.fullRestore.exchange c .open first (.ofBackup "a%2/b") none .hungUp).request =
        some r ∧
      Path.split (Path.normal (Utf8.encode r.path)) =
        ["", "api", "backups", "a%2", "b", "restore", "full"].map Utf8.encode ∧
      c.call .open first (.ofPath .delete "a/.%2E/%2e./b") .hungUp =
        .refuse first (.invalidPath "a/.%2E/%2e./b") := by
  have answered : (Endpoint.fullRestore.exchange (.adopting "http://supervisor/api" "token") .open
      (.adopted .standard) (.ofBackup "a%2/b") none .hungUp).request.isSome = true := by
    decide +kernel
  obtain ⟨r, sent⟩ := Option.isSome_iff_exists.mp answered
  have hosted : Hosted (.adopting "http://supervisor/api/" "token")
      (.adopting "http://supervisor/api" "token") (.adopted .standard)
      ⟨some "http", "supervisor", "/api/", none⟩ :=
    ⟨rfl, rfl, by decide, by decide +kernel⟩
  have known : ("backups.full_restore", Endpoint.fullRestore) ∈ Endpoint.catalog := by
    simp [Endpoint.catalog, Endpoint.storageTable]
  obtain ⟨-, -, refused, segments⟩ := calls_stay_below_base hosted
  have kept := segments ("backups.full_restore", Endpoint.fullRestore) known _ _ _ _ _ r sent
    ["backups"] [.given .backup] ["restore", "full"] rfl
  refine ⟨_, _, _, r, hosted, sent, ?_, ?_⟩
  · rw [kept]
    decide +kernel
  · apply refused
    decide +kernel

end Client

end SupervisorApi
