import SupervisorApi.Program.Download
import SupervisorApi.Proofs.Body.Stream
import SupervisorApi.Proofs.Client.Deadline

set_option autoImplicit false

namespace SupervisorApi

theorem ClientSettings.transport_of_environment {environment : String → Option String}
    {settings : ClientSettings} (set : ofEnvironment environment = .ok settings) :
    settings.transport = none := by
  unfold ofEnvironment at set
  cases host : setting environment "SUPERVISOR_API_URL" with
  | error e => rw [host] at set; cases set
  | ok host' =>
    cases token : setting environment "SUPERVISOR_TOKEN" with
    | error e => rw [host, token] at set; cases set
    | ok token' => rw [host, token] at set; cases set; rfl

namespace Client

variable {c : Client} {around : Surroundings} {s : Session} {taken : Session.Taken} {call : Call}
  {reaction : Reaction}

def Accepts (c : Client) (call : Call) : Prop :=
  Path.guard call.path = .ok () ∧ ∃ uri, Uri.parse (c.url call) = .ok uri

def Reaches (c : Client) (around : Surroundings) (t : Transport) (call : Call) : Prop :=
  ∀ o, c.prepare call = .ok o → around.reaches t (Uri.address o.authority) o.secure = true

theorem prepare_of_accepts (accepted : c.Accepts call) :
    ∃ o, c.prepare call = .ok o ∧ o.body = call.content.body := by
  obtain ⟨-, uri, read⟩ := accepted
  unfold prepare
  rw [read]
  exact ⟨_, rfl, rfl⟩

theorem arrive_of_empty {o : Outgoing} (nothing : o.body = .empty) : ∃ r, o.arrive = .ok r := by
  have sent : o.sentBody = .empty := by
    unfold Outgoing.sentBody
    split
    · rfl
    · exact nothing
  rw [Outgoing.arrive, sent, RequestBody.bytes?_empty]
  exact ⟨_, rfl⟩

theorem result_of_refused (refused : ¬ c.Accepts call) (ready : s.take = .ok taken) :
    ∃ message, (c.call around s call reaction).result = .now (.error (.invalidPath message)) := by
  by_cases allowed : Path.guard call.path = .ok ()
  · cases read : Uri.parse (c.url call) with
    | ok uri => exact absurd ⟨allowed, uri, read⟩ refused
    | error fault =>
      simp only [call_of_ready allowed ready, finish, prepare, read]
      exact ⟨_, rfl⟩
  · rw [call_refused around s reaction allowed]
    exact ⟨_, rfl⟩

theorem request_of_reached (accepted : c.Accepts call) (ready : s.take = .ok taken)
    (nothing : call.content = .empty) (reached : c.Reaches around taken.transport call) :
    (c.call around s call reaction).request.isSome = true := by
  obtain ⟨o, prepared, body⟩ := prepare_of_accepts accepted
  obtain ⟨r, arrived⟩ := arrive_of_empty (body.trans (congrArg Content.body nothing))
  have attempted := attempt_eq_ok_iff.mpr ⟨reached o prepared, arrived⟩
  simp only [call_of_ready accepted.1 ready, finish, prepared, attempted, request_send,
    Option.isSome_some]

theorem result_of_unreached (accepted : c.Accepts call) (ready : s.take = .ok taken)
    (nobody : ¬ c.Reaches around taken.transport call) :
    ∃ cause, (c.call around s call reaction).result = .now (.error (.requestFailed cause)) := by
  obtain ⟨o, prepared, -⟩ := prepare_of_accepts accepted
  have unreached :
      around.reaches taken.transport (Uri.address o.authority) o.secure = false := by
    by_contra some
    refine nobody fun o' prepared' => ?_
    cases prepared.symm.trans prepared'
    simpa using some
  refine ⟨around.unreached taken.transport (Uri.address o.authority) o.secure, ?_⟩
  simp only [call_of_ready accepted.1 ready, finish, prepared, attempt, unreached,
    Bool.false_eq_true, if_false, send, deadline]

@[simp] theorem deadline_none (x : Awaited (Except ApiError Response)) : deadline none x = x := by
  cases x <;> rfl

end Client

namespace Reaction

variable {reaction : Reaction}

def Grants (reaction : Reaction) (incoming : Incoming) : Prop :=
  reaction = .answer incoming ∧ incoming.status < 400

theorem outcome_of_grants {incoming : Incoming} (granted : reaction.Grants incoming) :
    reaction.outcome .stream = .now (.ok ⟨incoming.status, none,
      .stream (.ofBody incoming.body incoming.contentLength)⟩) := by
  obtain ⟨rfl, good⟩ := granted
  have low : incoming.isError = false := decide_eq_false (Nat.not_le.mpr good)
  simp [outcome, Incoming.receive, low]

theorem grants_of_outcome {answer : Response}
    (came : reaction.outcome .stream = .now (.ok answer)) :
    ∃ incoming, reaction.Grants incoming := by
  cases reaction with
  | dropped => cases came
  | silent => cases came
  | answer incoming =>
    refine ⟨incoming, rfl, ?_⟩
    by_contra high
    have bad : incoming.isError = true := decide_eq_true (Nat.not_lt.mp high)
    rw [outcome, Incoming.receive, if_pos bad, Incoming.fail] at came
    split at came <;> cases came

end Reaction

namespace Download

open Program

def client (environment : String → Option String) : Except BuildError (Client × Session) :=
  (ClientSettings.ofEnvironment environment).bind ClientSettings.build

def call (slug : String) : Call :=
  { Call.ofPath .get ("backups/" ++ slug ++ "/download") with
    kind := some .stream
    timeout := .disabled }

def outcome (c : Client) (s : Session) (slug : String) (w : Scene) :
    Awaited (Except ApiError Response) :=
  (c.call w.around s (call slug) (w.reaction .get)).result

variable {environment : String → Option String} {slug output : String} {more : List String}
  {c : Client} {first : Session} {f : LogFilter} {w : Scene}

theorem take_of_client (built : client environment = .ok (c, first)) :
    first.take = .ok ⟨.standard, .owned .standard, true⟩ := by
  unfold client at built
  cases set : ClientSettings.ofEnvironment environment with
  | error e => rw [set] at built; cases built
  | ok settings =>
    rw [set] at built
    obtain ⟨-, -, -, -, session⟩ := ClientSettings.of_build built
    rw [session, ClientSettings.transport_of_environment set]
    rfl

theorem call_downloadBackup (slug : String) :
    Endpoint.downloadBackup.call (.ofBackup slug) .unset = .ok (call slug) := by
  have path : Endpoint.downloadBackup.pathText (.ofBackup slug) =
      "backups/" ++ slug ++ "/download" := by
    have parts : Endpoint.downloadBackup.path.map (Segment.text (.ofBackup slug)) =
        ["backups", slug, "download"] := rfl
    rw [Endpoint.pathText, parts, ← String.toList_inj]
    simp
  simp only [Endpoint.call, path]
  rfl

structure Begins (c : Client) (slug : String) (w : Scene) (incoming : Incoming) : Prop where
  path : c.Accepts (call slug)
  reached : c.Reaches w.around .standard (call slug)
  granted : (w.reaction .get).Grants incoming

theorem outcome_of_reached (built : client environment = .ok (c, first))
    (accepted : c.Accepts (call slug)) (reached : c.Reaches w.around .standard (call slug)) :
    outcome c first slug w = (w.reaction .get).outcome .stream := by
  have asked : (c.call w.around first (call slug) (w.reaction .get)).request.isSome = true :=
    Client.request_of_reached accepted (take_of_client built) rfl reached
  obtain ⟨r, sent⟩ := Option.isSome_iff_exists.mp asked
  rw [outcome, Client.result_of_request sent]
  exact Client.deadline_none _

theorem outcome_of_begins {incoming : Incoming} (built : client environment = .ok (c, first))
    (begins : Begins c slug w incoming) :
    outcome c first slug w = .now (.ok ⟨incoming.status, none,
      .stream (.ofBody incoming.body incoming.contentLength)⟩) := by
  rw [outcome_of_reached built begins.path begins.reached]
  exact Reaction.outcome_of_grants begins.granted

theorem begins_of_outcome {answer : Response} (built : client environment = .ok (c, first))
    (came : outcome c first slug w = .now (.ok answer)) :
    ∃ incoming, Begins c slug w incoming := by
  have ready := take_of_client built
  by_cases accepted : c.Accepts (call slug)
  · by_cases reached : c.Reaches w.around .standard (call slug)
    · rw [outcome_of_reached built accepted reached] at came
      obtain ⟨incoming, granted⟩ := Reaction.grants_of_outcome came
      exact ⟨incoming, accepted, reached, granted⟩
    · obtain ⟨cause, failed⟩ := Client.result_of_unreached accepted ready reached
      cases came.symm.trans failed
  · obtain ⟨message, refused⟩ := Client.result_of_refused accepted ready
    cases came.symm.trans refused

theorem accepts_iff (built : client environment = .ok (c, first)) :
    c.Accepts (call slug) ↔
      ∀ message, outcome c first slug w ≠ .now (.error (.invalidPath message)) := by
  have ready := take_of_client built
  constructor
  · intro accepted message
    by_cases reached : c.Reaches w.around .standard (call slug)
    · rw [outcome_of_reached built accepted reached]
      intro came
      cases Reaction.isRemote_of_outcome came with
      | status sort => cases sort
    · obtain ⟨cause, failed⟩ := Client.result_of_unreached accepted ready reached
      rw [outcome, failed]
      simp [ApiError.requestFailed]
  · intro other
    by_contra refused
    obtain ⟨message, came⟩ := Client.result_of_refused refused ready
    exact other message came

theorem runIn_copy_of_next {spot : Spot} {done : Nat → Program} {stream next : ByteStream}
    {chunk old : Bytes} (received : Nat) (found : w.files.place output = .file spot)
    (there : w.files.get? spot = some old) (taken : stream.next = .now (some (.ok chunk), next)) :
    (copy output done stream received).runIn f w =
      (copy output done next (received + chunk.length)).runIn f
        { w with files := w.files.put spot (old ++ chunk) } := by
  rw [copy]
  split <;> simp_all [runIn, written, Files.append_of_file found there]

-- What has been handed out of a stream stands in the file, behind what was there, and is counted.
theorem runIn_copy {spot : Spot} (done : Nat → Program)
    (found : w.files.place output = .file spot) {chunks : List Bytes} {left : List Frame}
    {stream : ByteStream} (received : Nat) {old : Bytes}
    (held : stream.items = chunks.map .ok ++ left) (there : w.files.get? spot = some old) :
    ∃ rest : ByteStream, (copy output done stream received).runIn f w =
        (copy output done rest (received + chunks.flatten.length)).runIn f
          { w with files := w.files.put spot (old ++ chunks.flatten) } ∧
      rest.items = left ∧ rest.idle = stream.idle := by
  induction chunks generalizing stream received old w with
  | nil =>
    refine ⟨stream, ?_, held, rfl⟩
    simp [Files.put_of_get? there]
  | cons chunk more ih =>
    obtain ⟨next, taken, items, idle⟩ := ByteStream.next_of_item held
    let later : Scene := { w with files := w.files.put spot (old ++ chunk) }
    have stored : later.files.get? spot = some (old ++ chunk) := by simp [later]
    have still : later.files.place output = .file spot := Files.place_put found _
    obtain ⟨rest, run, behind, same⟩ := ih still (received + chunk.length) items stored
    refine ⟨rest, ?_, behind, same.trans idle⟩
    rw [runIn_copy_of_next received found there taken, run]
    simp [later, Nat.add_assoc]

theorem runIn_copy_of_ended {spot : Spot} (done : Nat → Program)
    (found : w.files.place output = .file spot) {chunks : List Bytes} {stream : ByteStream}
    {old : Bytes} (held : stream.items = chunks.map .ok) (ended : stream.idle = .ended)
    (there : w.files.get? spot = some old) :
    (copy output done stream 0).runIn f w = (done chunks.flatten.length).runIn f
      { w with files := w.files.put spot (old ++ chunks.flatten) } := by
  have all : stream.items = chunks.map .ok ++ [] := by rw [held, List.append_nil]
  obtain ⟨rest, run, items, idle⟩ := runIn_copy (f := f) done found 0 all there
  obtain ⟨last, taken⟩ := ByteStream.next_of_ended items (idle.trans ended)
  rw [run, copy]
  split <;> simp_all

theorem runIn_save (slug : String) (f : LogFilter) (w : Scene) {spot : Spot}
    {stream : ByteStream} {chunks : List Bytes} (found : w.files.place output = .file spot)
    (held : stream.items = chunks.map .ok) (ended : stream.idle = .ended) :
    ((save slug output stream).runIn f w).failure =
        .now (verdict stream.contentLength chunks.flatten.length) ∧
      ((save slug output stream).runIn f w).files = w.files.put spot chunks.flatten := by
  let made : Scene := { w with files := w.files.put spot [] }
  have there : made.files.get? spot = some [] := by simp [made]
  have still : made.files.place output = .file spot := Files.place_put found _
  have copied := runIn_copy_of_ended (f := f) (report slug output stream.contentLength) still held
    ended there
  simp only [made] at copied
  simp [save, runIn, written, Files.create_of_file found, copied, report]

def stored (slug output : String) (r : Except ApiError Response) : Program :=
  match r.bind Response.stream with
  | .ok stream => save slug output stream
  | .error e => fail e.display

theorem runIn_main (more : List String) (f : LogFilter)
    (built : client environment = .ok (c, first)) :
    ∃ later output requests, later.files = w.files ∧
      (main environment (slug :: more)).runIn f w =
        ((awaitThen (outcome c first slug w) (stored slug (more.headD (defaultOutput slug)))).runIn f
          later).after output requests := by
  let x := c.call w.around first (call slug) (w.reaction .get)
  refine ⟨w.following x, Ended.shown f (x.events.map (.ofEvent (call slug).span)),
    x.request.toList, ?_, ?_⟩
  · unfold Scene.following
    split <;> rfl
  · unfold client at built
    simp only [main, withClient, id, built, fetch, need, ask, call_downloadBackup, runIn]
    refine congrArg (fun next => ((awaitThen x.result next).runIn f (w.following x)).after _ _)
      (funext fun r => ?_)
    have taken : (r.bind fun answer => Endpoint.downloadBackup.holds.take answer) =
        r.bind Response.stream := rfl
    rw [taken, stored]
    cases r.bind Response.stream <;> rfl

theorem runIn_main_of_unbuilt {e : BuildError} (failed : client environment = .error e) :
    (main environment (slug :: more)).runIn f w = ⟨[], .now (some e.message), w.files, []⟩ := by
  unfold client at failed
  simp only [main, withClient, id, failed]
  rfl

theorem runIn_main_of_error {e : ApiError} (built : client environment = .ok (c, first))
    (failed : outcome c first slug w = .now (.error e)) :
    ((main environment (slug :: more)).runIn f w).failure = .now (some e.display) ∧
      ((main environment (slug :: more)).runIn f w).files = w.files := by
  obtain ⟨later, output, requests, files, run⟩ := runIn_main more f built
  rw [run, failed]
  exact ⟨rfl, files⟩

theorem runIn_main_of_never (built : client environment = .ok (c, first))
    (silent : outcome c first slug w = .never) :
    ((main environment (slug :: more)).runIn f w).failure = .never ∧
      ((main environment (slug :: more)).runIn f w).files = w.files := by
  obtain ⟨later, output, requests, files, run⟩ := runIn_main more f built
  rw [run, silent]
  exact ⟨rfl, files⟩

theorem runIn_main_of_begins {incoming : Incoming} {spot : Spot}
    (built : client environment = .ok (c, first)) (begins : Begins c slug w incoming)
    (complete : incoming.body.ending = .complete)
    (found : w.files.place (more.headD (defaultOutput slug)) = .file spot) :
    ((main environment (slug :: more)).runIn f w).failure =
        .now (verdict incoming.contentLength incoming.body.bytes.length) ∧
      ((main environment (slug :: more)).runIn f w).files =
        w.files.put spot incoming.body.bytes := by
  obtain ⟨later, output, requests, files, run⟩ := runIn_main more f built
  let stream := ByteStream.ofBody incoming.body incoming.contentLength
  have held : stream.items = incoming.body.chunks.map .ok := by
    rw [ByteStream.items_ofBody, IncomingBody.faults, complete, List.append_nil]
  have ended : stream.idle = .ended := by
    rw [ByteStream.idle_ofBody, complete]
    rfl
  have saved := runIn_save slug f later (files ▸ found) held ended
  rw [IncomingBody.flatten_chunks, files] at saved
  rw [run, outcome_of_begins built begins]
  exact saved

structure Answers (environment : String → Option String) (slug : String) (w : Scene)
    (incoming : Incoming) : Prop where
  reached : ∀ c first, client environment = .ok (c, first) →
    c.Reaches w.around .standard (call slug)
  given : w.reaction .get = .answer incoming
  complete : incoming.body.ending = .complete

def Fits (incoming : Incoming) : Prop :=
  ∀ value n, incoming.headers.get? "content-length" = some value →
    Incoming.lengthOf? value = some n → n = incoming.body.bytes.length

theorem verdict_eq_none_iff {incoming : Incoming} :
    verdict incoming.contentLength incoming.body.bytes.length = none ↔ Fits incoming := by
  have announced (n : Nat) : incoming.contentLength = some n ↔
      ∃ value, incoming.headers.get? "content-length" = some value ∧
        Incoming.lengthOf? value = some n := Option.bind_eq_some_iff
  cases length : incoming.contentLength with
  | none =>
    refine ⟨fun _ value n header read => ?_, fun _ => rfl⟩
    cases length.symm.trans ((announced n).mpr ⟨value, header, read⟩)
  | some n =>
    obtain ⟨value, header, read⟩ := (announced n).mp length
    have exact : verdict (some n) incoming.body.bytes.length = none ↔
        n = incoming.body.bytes.length := by simp [verdict]
    rw [exact]
    constructor
    · rintro same value' m header' read'
      cases length.symm.trans ((announced m).mpr ⟨value', header', read'⟩)
      exact same
    · exact fun fits => fits value n header read

theorem begins_of_good (good : ((main environment (slug :: more)).runIn f w).failure = .now none) :
    ∃ c first incoming, client environment = .ok (c, first) ∧ Begins c slug w incoming := by
  cases built : client environment with
  | error e =>
    rw [runIn_main_of_unbuilt built] at good
    cases good
  | ok made =>
    obtain ⟨c, first⟩ := made
    cases came : outcome c first slug w with
    | never =>
      rw [(runIn_main_of_never built came).1] at good
      cases good
    | now result =>
      cases result with
      | error e =>
        rw [(runIn_main_of_error built came).1] at good
        cases good
      | ok answer =>
        obtain ⟨incoming, begins⟩ := begins_of_outcome built came
        exact ⟨c, first, incoming, rfl, begins⟩

/-- A download that does not begin touches no file, whatever the cause, and is reported. One that
begins stores the body that arrives, and nothing else, and is reported as good exactly when no other
length was announced. -/
theorem good_iff_fits (environment : String → Option String) (slug : String) (more : List String)
    (f : LogFilter) (w : Scene) :
    let ended := (main environment (slug :: more)).runIn f w
    let output := more.headD (defaultOutput slug)
    (∀ e, client environment = .error e →
      ended.failure = .now (some e.message) ∧ ended.files = w.files) ∧
    (∀ c first, client environment = .ok (c, first) →
      (c.Accepts (call slug) ↔
        ∀ message, outcome c first slug w ≠ .now (.error (.invalidPath message))) ∧
      ((∃ answer, outcome c first slug w = .now (.ok answer)) ↔
        ∃ incoming, Begins c slug w incoming) ∧
      (∀ e, outcome c first slug w = .now (.error e) →
        ended.failure = .now (some e.display) ∧ ended.files = w.files) ∧
      (outcome c first slug w = .never → ended.failure = .never ∧ ended.files = w.files)) ∧
    (∀ incoming, Answers environment slug w incoming →
      (∃ files, w.files.create output = .ok files) →
      (ended.failure = .now none ↔
        (∃ c first, client environment = .ok (c, first) ∧ c.Accepts (call slug)) ∧
          incoming.status < 400 ∧ Fits incoming) ∧
      (∀ c first, client environment = .ok (c, first) → c.Accepts (call slug) →
        incoming.status < 400 →
          ended.files.load output = .ok [.chunk incoming.body.bytes] ∧
          ended.files.home = w.files.home ∧
          ∀ spot, w.files.place output ≠ .file spot →
            ended.files.find? spot = w.files.find? spot)) := by
  intro ended output
  refine ⟨fun e failed => ?_, fun c first built => ⟨accepts_iff built, ?_, ?_, ?_⟩,
    fun incoming answers writable => ?_⟩
  · simp only [ended, runIn_main_of_unbuilt failed, and_self]
  · constructor
    · rintro ⟨answer, came⟩
      exact begins_of_outcome built came
    · rintro ⟨incoming, begins⟩
      exact ⟨_, outcome_of_begins built begins⟩
  · exact fun e failed => runIn_main_of_error built failed
  · exact fun silent => runIn_main_of_never built silent
  · obtain ⟨files, made⟩ := writable
    obtain ⟨spot, found⟩ := Files.place_of_create made
    have stores {c : Client} {first : Session} (built : client environment = .ok (c, first))
        (accepted : c.Accepts (call slug)) (low : incoming.status < 400) :
        ended.failure = .now (verdict incoming.contentLength incoming.body.bytes.length) ∧
          ended.files = w.files.put spot incoming.body.bytes :=
      runIn_main_of_begins built
        ⟨accepted, answers.reached c first built, answers.given, low⟩ answers.complete found
    refine ⟨⟨fun good => ?_, ?_⟩, fun c first built accepted low => ?_⟩
    · obtain ⟨c, first, other, built, begins⟩ := begins_of_good good
      obtain ⟨given, low⟩ := begins.granted
      cases answers.given.symm.trans given
      have fits := good.symm.trans (stores built begins.path low).1
      exact ⟨⟨c, first, built, begins.path⟩, low,
        verdict_eq_none_iff.mp (Awaited.now.inj fits).symm⟩
    · rintro ⟨⟨c, first, built, accepted⟩, low, fits⟩
      rw [(stores built accepted low).1, verdict_eq_none_iff.mpr fits]
    · rw [(stores built accepted low).2]
      refine ⟨Files.load_of_file (Files.place_put found _) (Files.get?_put _ _ _), rfl,
        fun other elsewhere => ?_⟩
      have apart : other ≠ spot := fun same => elsewhere (same ▸ found)
      rw [Files.find?_put, if_neg apart]

-- Three bytes in two chunks, where the head speaks of seven.
def overstated : Incoming :=
  ⟨200, [.ofText "content-length" "7"], ⟨[.data [1, 2], .pending, .data [3], .trailers], .complete⟩⟩

def localSettings (name : String) : Option String :=
  if name = "SUPERVISOR_API_URL" then some "http://supervisor/api" else some "token"

theorem good_iff_fits_of_overstated :
    ∃ w : Scene,
      ((main localSettings ["daily", "../kept/daily.tar"]).runIn .standard w).failure ≠ .now none ∧
      ((main localSettings ["daily", "../kept/daily.tar"]).runIn .standard w).files.load
        "../kept/daily.tar" = .ok [.chunk [1, 2, 3]] := by
  let w : Scene :=
    ⟨.open, [fun _ => .answer overstated], ⟨["home"], [(["home"], .directory), (["kept"], .directory)]⟩⟩
  let c : Client := ⟨"http://supervisor/api", Utf8.encode "Bearer token",
    Utf8.encode "hasupervisor-rs/0.1.0", some (.ofSeconds 10)⟩
  have built : client localSettings = .ok (c, .pending) := rfl
  have address : Uri.parse (c.url (call "daily")) =
      .ok ⟨some "http", "supervisor", "/api/backups/daily/download", none⟩ := by
    decide +kernel
  have accepted : c.Accepts (call "daily") :=
    ⟨Path.guard_eq_ok_iff.mpr (by decide +kernel), _, address⟩
  have answers : Answers localSettings "daily" w overstated := by
    refine ⟨fun c' first built' o prepared => ?_, rfl, rfl⟩
    cases built.symm.trans built'
    obtain ⟨uri, read, rfl⟩ := Client.of_prepare prepared
    cases address.symm.trans read
    rfl
  have facts := (good_iff_fits localSettings "daily" ["../kept/daily.tar"] .standard w).2.2
    overstated answers ⟨_, rfl⟩
  refine ⟨w, fun good => ?_, (facts.2 c .pending built accepted (by decide)).1⟩
  have fits := (facts.1.mp good).2.2
  exact absurd (fits _ 7 rfl (by decide +kernel)) (by decide)

end Download

end SupervisorApi
