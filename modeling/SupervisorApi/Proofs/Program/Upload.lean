import Mathlib.Data.List.Sort
import SupervisorApi.Program.Upload
import SupervisorApi.Proofs.Http.Query
import SupervisorApi.Proofs.Model.Reading

set_option autoImplicit false

namespace SupervisorApi

theorem SortedSet.eq_of_mem_iff {α : Type} [KeyOrder α] {s t : SortedSet α}
    (same : ∀ a, a ∈ s.items ↔ a ∈ t.items) : s = t := by
  have : Std.Irrefl (KeyOrder.lt (α := α)) := ⟨KeyOrder.irrefl⟩
  have : Std.Antisymm (KeyOrder.lt (α := α)) :=
    ⟨fun a b less more => absurd (KeyOrder.trans less more) (KeyOrder.irrefl a)⟩
  exact SortedSet.ext (s.ascending.eq_of_mem_iff t.ascending same)

theorem ClientSettings.host_of_environment {environment : String → Option String}
    {settings : ClientSettings} (set : ofEnvironment environment = .ok settings) :
    environment "SUPERVISOR_API_URL" = some settings.host := by
  obtain ⟨host, given, set⟩ := Except.bind_eq_ok_iff.mp set
  obtain ⟨token, -, set⟩ := Except.bind_eq_ok_iff.mp set
  cases set
  unfold setting at given
  split at given
  next value there =>
    split at given
    next => cases given
    next => cases given; exact there
  next => cases given

namespace Client

variable {settings : ClientSettings} {c : Client} {first : Session} {around : Surroundings}
  {s : Session} {call : Call} {reaction : Reaction} {r : Request}

-- Where nothing is asked for, there is no query at all, not an empty one.
theorem question_not_mem_target (built : settings.build = .ok (c, first))
    (sent : (c.call around s call reaction).request = some r) (nothing : call.query = []) :
    '?' ∉ r.target.toList := by
  obtain ⟨accepted, -⟩ := ClientSettings.of_build built
  obtain ⟨uri, read⟩ := Host.exists_parse accepted
  obtain ⟨schemed, noQuery, -⟩ := Host.of_normalize accepted read
  obtain ⟨plain, -⟩ := Uri.path_rooted read schemed noQuery
  obtain ⟨-, -, target⟩ := target_of_request built read sent
  obtain ⟨taken, o, reached⟩ := sent_of_request sent
  rw [target]
  split
  next => exact question_not_mem_path plain noQuery
  next =>
    rw [intendedTarget, nothing, queryText, if_pos List.isEmpty_nil, String.append_empty,
      toList_sentPath]
    exact not_mem_joined plain reached.allowed (.inr rfl)

end Client

namespace UploadProgram

open Program
open Query (Rules)

def Precedes (a b : String) : Prop :=
  b ≠ localLocation ∧ (a = localLocation ∨ Utf8.encode a < Utf8.encode b)

instance : DecidableRel Precedes :=
  fun _ b => inferInstanceAs (Decidable (b ≠ localLocation ∧ _))

structure Lists (names places : List String) : Prop where
  mem_iff : ∀ place, place ∈ places ↔ place ∈ names
  ordered : places.Pairwise Precedes

def places (names : List String) : List String :=
  (locations names).items.map Location.queryValue

variable {names others : List String} {a b : String}

theorem Precedes.irrefl (a : String) : ¬ Precedes a a := by
  rintro ⟨other, same | less⟩
  · exact other same
  · exact List.lt_irrefl _ less

theorem Precedes.asymm (before : Precedes a b) : ¬ Precedes b a := by
  rintro ⟨other, same | less⟩
  · exact before.1 same
  · rcases before.2 with same | more
    · exact other same
    · exact List.lt_asymm more less

theorem Lists.unique {more : List String} (lists : Lists names others) (lists' : Lists names more) :
    others = more := by
  have : Std.Irrefl Precedes := ⟨Precedes.irrefl⟩
  have : Std.Antisymm Precedes := ⟨fun _ _ before after => absurd after before.asymm⟩
  refine lists.ordered.eq_of_mem_iff lists'.ordered fun place => ?_
  rw [lists.mem_iff, lists'.mem_iff]

theorem queryValue_location (name : String) : Location.queryValue (location name) = name := by
  unfold location
  split
  next same => exact same.symm
  next => rfl

theorem location_ne {name : String} : location name ≠ some localLocation := by
  unfold location
  split
  next => exact Option.some_ne_none _ ∘ Eq.symm
  next other => exact fun same => other (Option.some.inj same)

theorem precedes_of_before {x y : Option String} (less : KeyOrder.lt x y)
    (other : y ≠ some localLocation) :
    Precedes (Location.queryValue x) (Location.queryValue y) := by
  cases y with
  | none => cases x <;> exact absurd less id
  | some b =>
    refine ⟨fun same => other (congrArg some same), ?_⟩
    cases x with
    | none => exact .inl rfl
    | some a => exact .inr (Utf8.encode_lt_encode_iff.mpr less)

theorem mem_locations {x : Option String} :
    x ∈ (locations names).items ↔ ∃ name ∈ names, location name = x := by
  rw [locations, SortedSet.mem_ofList, List.mem_map]

theorem lists_places (names : List String) : Lists names (places names) := by
  refine ⟨fun place => ?_, ?_⟩
  · rw [places, List.mem_map]
    constructor
    · rintro ⟨x, present, rfl⟩
      obtain ⟨name, given, rfl⟩ := mem_locations.mp present
      rwa [queryValue_location]
    · exact fun given =>
        ⟨location place, mem_locations.mpr ⟨place, given, rfl⟩, queryValue_location place⟩
  · refine List.pairwise_map.mpr ((locations names).ascending.imp_of_mem fun _ present less => ?_)
    obtain ⟨name, -, rfl⟩ := mem_locations.mp present
    exact precedes_of_before less location_ne

theorem locations_congr (same : ∀ name, name ∈ others ↔ name ∈ names) :
    locations others = locations names := by
  refine SortedSet.eq_of_mem_iff fun x => ?_
  simp only [mem_locations, same]

theorem main_congr (environment : String → Option String) (boundary : Boundary) (path : String)
    (same : ∀ name, name ∈ others ↔ name ∈ names) :
    main environment boundary (path :: others) = main environment boundary (path :: names) := by
  unfold main send
  simp only [locations_congr same]

def call (boundary : Boundary) (path : String) (names : List String) (file : List Arrival) : Call :=
  Sends.uploadCall (.ofStream boundary file) (some ⟨locations names, fileName path⟩)
    { Call.ofPath .post "backups/new/upload" with
      kind := some .json
      timeout := .disabled }

variable {environment : String → Option String} {boundary : Boundary} {path : String}
  {file : List Arrival} {f : LogFilter} {w : Scene} {settings : ClientSettings} {c : Client}
  {first : Session} {r : Request}

theorem query_call : (call boundary path names file).query = Query.all "location" (places names) :=
  rfl

theorem query_eq_nil_iff : (call boundary path names file).query = [] ↔ names = [] := by
  rw [query_call, Query.all, List.map_eq_nil_iff, List.eq_nil_iff_forall_not_mem,
    List.eq_nil_iff_forall_not_mem]
  simp only [(lists_places names).mem_iff]

def reported (path : String) (r : Except ApiError Response) : Program :=
  match r.bind Endpoint.uploadBackup.holds.take with
  | .ok (slug : String) => .report (.info source (doneMessage path slug)) (.ended none)
  | .error e => fail e.display

theorem requests_reported (x : Awaited (Except ApiError Response)) :
    ((awaitThen x (reported path)).runIn f w).requests = [] := by
  cases x with
  | never => rfl
  | now r =>
    rw [awaitThen, reported]
    split <;> rfl

theorem call_uploadBackup :
    Endpoint.uploadBackup.call .blank
      (Upload.ofStream boundary file, some ⟨locations names, fileName path⟩) =
        .ok (call boundary path names file) :=
  rfl

theorem runIn_send (set : ClientSettings.ofEnvironment environment = .ok settings)
    (built : settings.build = .ok (c, first)) :
    let x := c.call w.around first (call boundary path names file) (w.reaction .post)
    ∃ later output, (send environment boundary path names file).runIn f w =
      ((awaitThen x.result (reported path)).runIn f later).after output x.request.toList := by
  intro x
  let shown := x.events.map (Report.ofEvent (call boundary path names file).span)
  refine ⟨w.following x, Ended.shown f shown, ?_⟩
  have made : (ClientSettings.ofEnvironment environment).bind (fun settings => settings.build) =
      .ok (c, first) := by
    rw [set]
    exact built
  simp only [send, withClient, id, made, need, ask, call_uploadBackup, runIn]
  refine congrArg (fun next => ((awaitThen x.result next).runIn f (w.following x)).after _ _)
    (funext fun r => ?_)
  unfold reported
  cases r.bind Endpoint.uploadBackup.holds.take <;> rfl

theorem requests_send (set : ClientSettings.ofEnvironment environment = .ok settings)
    (built : settings.build = .ok (c, first)) :
    ((send environment boundary path names file).runIn f w).requests =
      (c.call w.around first (call boundary path names file)
        (w.reaction .post)).request.toList := by
  obtain ⟨later, output, run⟩ := runIn_send (f := f) (w := w) set built
  rw [run, Ended.after, requests_reported, List.append_nil]

theorem request_of_main
    (sent : r ∈ ((main environment boundary (path :: names)).runIn f w).requests) :
    ∃ settings c first file, ClientSettings.ofEnvironment environment = .ok settings ∧
      settings.build = .ok (c, first) ∧ w.files.load path = .ok file ∧
      (c.call w.around first (call boundary path names file) (w.reaction .post)).request = some r ∧
      ((main environment boundary (path :: names)).runIn f w).requests = [r] := by
  simp only [main, runIn] at sent ⊢
  cases loaded : w.files.load path with
  | error e =>
    rw [loaded] at sent
    cases sent
  | ok file =>
    rw [loaded] at sent
    cases set : ClientSettings.ofEnvironment environment with
    | error e =>
      simp only [send, withClient, set] at sent
      cases sent
    | ok settings =>
      cases built : settings.build with
      | error e =>
        simp only [send, withClient, set, id, Except.bind, built] at sent
        cases sent
      | ok made =>
        obtain ⟨c, first⟩ := made
        simp only [requests_send set built, Option.mem_toList] at sent ⊢
        exact ⟨settings, c, first, file, rfl, built, rfl, sent, by rw [sent]; rfl⟩

/-- An upload sends one request at most. Its query lists every place that is named, each of them
once, the local one first and the others in the order of their bytes, unless there is a fragment in
the host, which hides every pair; where no place is named there is no query. The order of the names
is of no account, nor is how often a place is named. -/
theorem places_sent_once (environment : String → Option String) (boundary : Boundary)
    (path : String) (names : List String) (f : LogFilter) (w : Scene) :
    let ended := (main environment boundary (path :: names)).runIn f w
    ∃ places, Lists names places ∧ (∀ others, Lists names others → others = places) ∧
      ended.requests.length ≤ 1 ∧
      (∀ r ∈ ended.requests, ∃ host, environment "SUPERVISOR_API_URL" = some host ∧
        r.method = .post ∧
        (∀ rules : Rules, rules.ofTarget? r.target = some (Query.all "location" places) ↔
          '#' ∉ host.toList ∨ names = []) ∧
        (names = [] → '?' ∉ r.target.toList)) ∧
      ∀ others, (∀ name, name ∈ others ↔ name ∈ names) →
        main environment boundary (path :: others) = main environment boundary (path :: names) := by
  intro ended
  refine ⟨places names, lists_places names, fun others lists => lists.unique (lists_places names),
    ?_, fun r sent => ?_, fun others => main_congr environment boundary path⟩
  · cases sent : ended.requests with
    | nil => exact Nat.zero_le 1
    | cons r rest =>
      have first : r ∈ ended.requests := by simp [sent]
      obtain ⟨_, _, _, _, -, -, -, -, only⟩ := request_of_main first
      exact (sent ▸ congrArg List.length only).le
  · obtain ⟨settings, c, first, file, set, built, -, sent, -⟩ := request_of_main sent
    have asked : (call boundary path names file).query = Query.all "location" (places names) :=
      query_call
    have empty : (call boundary path names file).query = [] ↔ names = [] := query_eq_nil_iff
    refine ⟨settings.host, ClientSettings.host_of_environment set, ?_, fun rules => ?_,
      fun none => ?_⟩
    · obtain ⟨_, o, reached⟩ := Client.sent_of_request sent
      obtain ⟨uri, -, rfl⟩ := Client.of_prepare reached.prepared
      exact (Outgoing.of_arrive reached.arrived).1
    · rw [Client.ofTarget?_of_request built rules sent, ← asked, ← empty, Option.some_inj]
      split
      next fragment =>
        exact ⟨fun hidden => .inr hidden.symm,
          fun why => (why.resolve_left (not_not_intro fragment)).symm⟩
      next plain => exact ⟨fun _ => .inl plain, fun _ => rfl⟩
    · exact Client.question_not_mem_target built sent (empty.mpr none)

def hosted (host name : String) : Option String :=
  if name = "SUPERVISOR_API_URL" then some host else some "test-token"

def nightly : Scene :=
  ⟨.open, [fun _ => .hungUp], ⟨[], [(["nightly.tar"], .file [1, 2, 3])]⟩⟩

def sentTo (host : String) (names : List String) : List Request :=
  ((main (hosted host) ⟨Uuid.zero⟩ ("nightly.tar" :: names)).runIn .standard nightly).requests

theorem places_sent_once_of_repeated :
    ∃ r, sentTo "http://supervisor/api" ["nas", ".local", "a&b", "nas", "", ".local"] = [r] ∧
      Rules.form.ofTarget? r.target =
        some (Query.all "location" [".local", "", "a&b", "nas"]) := by
  let names := ["nas", ".local", "a&b", "nas", "", ".local"]
  have sent : (sentTo "http://supervisor/api" names).length = 1 := by decide +kernel
  obtain ⟨r, only⟩ := List.length_eq_one_iff.mp sent
  obtain ⟨found, -, unique, -, asks, -⟩ := places_sent_once (hosted "http://supervisor/api")
    ⟨Uuid.zero⟩ "nightly.tar" names .standard nightly
  have lists : Lists names [".local", "", "a&b", "nas"] := by
    have all : names ⊆ [".local", "", "a&b", "nas"] := by decide
    have none : [".local", "", "a&b", "nas"] ⊆ names := by decide
    exact ⟨fun _ => ⟨fun listed => none listed, fun named => all named⟩, by decide⟩
  have member : r ∈ sentTo "http://supervisor/api" names := by simp [only]
  obtain ⟨host, given, -, query, -⟩ := asks r member
  cases given
  exact ⟨r, only, unique _ lists ▸ (query .form).mpr (.inl (by decide))⟩

theorem places_hidden :
    ∃ r, sentTo "http://127.0.0.1:8099/api#frag" [".local"] = [r] ∧ r.target = "/api" ∧
      Rules.plain.ofTarget? r.target ≠ some (Query.all "location" [".local"]) := by
  have sent : (sentTo "http://127.0.0.1:8099/api#frag" [".local"]).map Request.target =
      ["/api"] := by
    decide +kernel
  obtain ⟨r, only, target⟩ := List.map_eq_singleton_iff.mp sent
  refine ⟨r, only, target, ?_⟩
  rw [target]
  decide +kernel

end UploadProgram

end SupervisorApi
