import Mathlib.Data.List.Infix
import SupervisorApi.Client.Run
import SupervisorApi.Proofs.Client.Deadline

/-!
Who closes what over whole runs. Whatever steps are taken through the names of a client, its session
is the one that `settled` tells from what has happened, and each thing that happens fits what has
happened before.
-/

set_option autoImplicit false

namespace SupervisorApi

namespace Call

variable {call : Call} {s : Session}

theorem begin_eq_error {e : ApiError} (failed : call.begin s = .error e) :
    (Path.guard call.path ≠ .ok () ∧ e = .invalidPath call.path) ∨
      (Path.guard call.path = .ok () ∧ s.take = .error e) := by
  by_cases allowed : Path.guard call.path = .ok ()
  · unfold begin at failed
    rw [allowed] at failed
    exact .inr ⟨allowed, failed⟩
  · unfold begin at failed
    rw [Path.guard_refuses allowed] at failed
    cases failed
    exact .inl ⟨allowed, rfl⟩

end Call

namespace Client

variable {c : Client} {around : Surroundings} {call : Call} {reaction : Reaction}

theorem finish_ne_closed (taken : Session.Taken) :
    (c.finish around taken call reaction).result ≠ .now (.error .closed) := by
  unfold finish
  split
  next e failed =>
    obtain ⟨path, rfl⟩ := invalidPath_of_prepare failed
    simp
  next =>
    intro came
    obtain came | ⟨_, ⟨⟩⟩ := of_deadline came
    exact (isRemote_of_send came).not_isEarly .closed

end Client

namespace Happening

variable {transport : Option Transport} {past : List Happening}

/-- The session of a client after what has happened. -/
def settled (transport : Option Transport) (past : List Happening) : Session :=
  match transport with
  | some t => .adopted t
  | none =>
    if past.any isClose then .closed
    else if past.any takes then .owned .standard
    else .pending

def Shut (transport : Option Transport) (past : List Happening) : Prop :=
  transport = none ∧ .closed ∈ past

/-- What may happen to a client after what has happened before. -/
def Fits (transport : Option Transport) (c : Client) (around : Surroundings)
    (past : List Happening) : Happening → Prop
  | .closed => True
  | .seen isClosed isOwn =>
    (isClosed = true ↔ Shut transport past) ∧ (isOwn = true ↔ transport = none ∧ .closed ∉ past)
  | .begun call s outcome =>
    s = settled transport past ∧
    (Path.guard call.path ≠ .ok () →
      outcome = .error (.refuse s (.invalidPath call.path))) ∧
    (Path.guard call.path = .ok () → Shut transport past → outcome = .error (.refuse s .closed)) ∧
    (Path.guard call.path = .ok () → ¬ Shut transport past → ∃ taken, outcome = .ok taken ∧
      taken.transport = transport.getD .standard ∧
      (taken.created = true ↔ transport = none ∧ past.any takes = false))
  | .ended call s reaction x =>
    (∃ taken, .begun call s (.ok taken) ∈ past) ∧ x = c.call around s call reaction ∧
    x.result ≠ .now (.error .closed)

theorem any_isClose : past.any isClose = true ↔ .closed ∈ past := by
  rw [List.any_eq_true]
  constructor
  · rintro ⟨h, member, close⟩
    cases h with
    | closed => exact member
    | _ => cases close
  · exact fun member => ⟨.closed, member, rfl⟩

theorem settled_none : settled none past = if past.any isClose then .closed
    else if past.any takes then .owned .standard else .pending := rfl

theorem isClosed_settled : (settled transport past).isClosed = true ↔ Shut transport past := by
  cases transport with
  | some t => simp [settled, Session.isClosed, Shut]
  | none =>
    rw [settled_none, Shut, ← any_isClose]
    cases past.any isClose <;> cases past.any takes <;> simp [Session.isClosed]

theorem isOwn_settled :
    (settled transport past).isOwn = true ↔ transport = none ∧ .closed ∉ past := by
  cases transport with
  | some t => simp [settled, Session.isOwn]
  | none =>
    rw [settled_none, ← any_isClose]
    cases past.any isClose <;> cases past.any takes <;> simp [Session.isOwn]

theorem settled_close : settled transport (.closed :: past) = (settled transport past).close := by
  cases transport with
  | some t => rfl
  | none =>
    simp only [settled_none, List.any_cons, isClose, takes, Bool.true_or, Bool.false_or]
    cases past.any isClose <;> cases past.any takes <;> rfl

theorem settled_cons {h : Happening} (open_ : h.isClose = false) (idle : h.takes = false) :
    settled transport (h :: past) = settled transport past := by
  cases transport with
  | some t => rfl
  | none => simp [settled_none, open_, idle]

theorem take_settled {taken : Session.Taken} (took : (settled transport past).take = .ok taken) :
    ¬ Shut transport past ∧ taken.transport = transport.getD .standard ∧
      (taken.created = true ↔ transport = none ∧ past.any takes = false) ∧
      ∀ call s, settled transport (.begun call s (.ok taken) :: past) = taken.session := by
  cases transport with
  | some t =>
    cases took
    simp [Shut, settled]
  | none =>
    rw [Shut, ← any_isClose]
    rw [settled_none] at took
    cases closed : past.any isClose with
    | true => simp [closed, Session.take] at took
    | false =>
      cases before : past.any takes <;>
        · simp only [closed, before] at took
          cases took
          simp [settled_none, isClose, takes, closed]

theorem take_settled_error {e : ApiError} (failed : (settled transport past).take = .error e) :
    e = .closed ∧ Shut transport past := by
  rw [← isClosed_settled]
  cases s : settled transport past with
  | closed =>
    rw [s] at failed
    cases failed
    exact ⟨rfl, rfl⟩
  | _ => rw [s] at failed; cases failed

end Happening

namespace Roster

variable {r : Roster} {seat : Seat} {name other : String}

theorem isSome_place? : (r.place? name).isSome = true ↔ ∃ h ∈ r.handles, name = h.1 := by
  simp [place?]

theorem isSome_place?_of_suffix {r' : Roster} (kept : r.handles <:+ r'.handles)
    (known : (r.place? name).isSome = true) : (r'.place? name).isSome = true := by
  obtain ⟨h, among, same⟩ := isSome_place?.mp known
  exact isSome_place?.mpr ⟨h, kept.subset among, same⟩

theorem handles_setSession (s : Session) : (r.setSession name s).handles = r.handles := by
  unfold setSession
  split <;> rfl

theorem handles_close : (r.close name).handles = r.handles := by
  unfold close
  split
  next => exact handles_setSession _
  next => rfl

theorem handles_share : r.handles <:+ (r.share name other).handles := by
  unfold share
  split
  next => exact List.suffix_cons _ _
  next => exact List.suffix_rfl

theorem isSome_share (known : (r.place? name).isSome = true) :
    ((r.share name other).place? other).isSome = true := by
  obtain ⟨i, place⟩ := Option.isSome_iff_exists.mp known
  rw [share, place]
  simp [isSome_place?]

structure Sole (r : Roster) (seat : Seat) : Prop where
  seats : r.seats = [seat]
  handles : ∀ name i, r.place? name = some i → i = 0

theorem sole_make (name : String) (seat : Seat) : (empty.make name seat).Sole seat where
  seats := rfl
  handles := by
    intro other i found
    simp only [place?, make, empty, List.lookup_cons, List.lookup_nil] at found
    split at found <;> simp_all

theorem isSome_make (name : String) (seat : Seat) :
    ((empty.make name seat).place? name).isSome = true := by
  simp [make, place?]

namespace Sole

theorem seat?_eq (sole : r.Sole seat) {seat' : Seat} (found : r.seat? name = some seat') :
    seat' = seat ∧ r.place? name = some 0 := by
  obtain ⟨i, place, held⟩ := Option.bind_eq_some_iff.mp found
  obtain rfl := sole.handles name i place
  rw [sole.seats] at held
  exact ⟨(Option.some.inj held).symm, place⟩

theorem isSome_seat? (sole : r.Sole seat) :
    (r.seat? name).isSome = true ↔ (r.place? name).isSome = true := by
  cases place : r.place? name with
  | none => simp [seat?, place]
  | some i =>
    obtain rfl := sole.handles name i place
    simp [seat?, place, sole.seats]

theorem seat?_eq_some (sole : r.Sole seat) (known : (r.place? name).isSome = true) :
    r.seat? name = some seat := by
  obtain ⟨seat', found⟩ := Option.isSome_iff_exists.mp (sole.isSome_seat?.mpr known)
  rw [found, (sole.seat?_eq found).1]

theorem share (sole : r.Sole seat) (name other : String) : (r.share name other).Sole seat := by
  unfold Roster.share
  cases place : r.place? name with
  | none => exact sole
  | some i =>
    refine ⟨sole.seats, fun third j found => ?_⟩
    simp only [place?, List.lookup_cons] at found
    split at found
    next =>
      cases found
      exact sole.handles name i place
    next => exact sole.handles third j found

theorem setSession (sole : r.Sole seat) (found : r.seat? name = some seat) (s : Session) :
    (r.setSession name s).Sole { seat with session := s } := by
  unfold Roster.setSession
  rw [(sole.seat?_eq found).2, found]
  exact ⟨by simp [sole.seats], sole.handles⟩

theorem close (sole : r.Sole seat) (found : r.seat? name = some seat) :
    (r.close name).Sole { seat with session := seat.session.close } := by
  unfold Roster.close
  rw [found]
  exact sole.setSession found _

theorem leave {inner : Roster} {seat' : Seat} (sole : r.Sole seat) (after : inner.Sole seat') :
    (r.leave inner).Sole seat' :=
  ⟨after.seats, sole.handles⟩

end Sole

end Roster

namespace Run

open Happening (Fits Shut settled takes creates)

variable {transport : Option Transport} {c : Client} {around : Surroundings} {r : Run}

theorem handles_close (name : String) :
    (r.close name).roster.handles = r.roster.handles := by
  unfold Run.close
  split
  next => exact Roster.handles_close
  next => rfl

theorem handles_look (name : String) :
    (r.look name).roster.handles = r.roster.handles := by
  unfold Run.look
  split <;> rfl

theorem handles_begin (name : String) (call : Call) :
    (r.begin name call).roster.handles = r.roster.handles := by
  unfold Run.begin
  split
  next => rfl
  next => split <;> exact Roster.handles_setSession _

theorem handles_finish (i : Nat) (reaction : Reaction) :
    (r.finish i reaction).roster.handles = r.roster.handles := by
  unfold Run.finish
  split <;> rfl

structure Waits (c : Client) (around : Surroundings) (past : List Happening) (u : Underway) :
    Prop where
  client : u.seat.client = c
  around : u.seat.around = around
  begun : u.call.begin u.seat.session = .ok u.taken
  noted : .begun u.call u.seat.session (.ok u.taken) ∈ past

theorem Waits.later {past : List Happening} {u : Underway} (waits : Waits c around past u)
    (h : Happening) : Waits c around (h :: past) u :=
  { waits with noted := List.mem_cons_of_mem h waits.noted }

/-- A run in which everything so far fits what was before it. -/
structure Follows (transport : Option Transport) (c : Client) (around : Surroundings) (r : Run) :
    Prop where
  sole : r.roster.Sole ⟨c, settled transport r.past, around⟩
  underway : ∀ u ∈ r.underway, Waits c around r.past u
  fits : ∀ h before, h :: before <:+ r.past → Fits transport c around before h
  created : r.past.countP creates ≤ 1

theorem settled_nil : settled transport [] = .start transport := by
  cases transport <;> rfl

theorem follows_of (name : String) :
    (of name ⟨c, .start transport, around⟩).Follows transport c around := by
  refine ⟨?_, fun u under => absurd under List.not_mem_nil, fun h before part => ?_, Nat.zero_le _⟩
  · rw [show (of name ⟨c, .start transport, around⟩).past = [] from rfl, settled_nil]
    exact Roster.sole_make name _
  · cases List.suffix_nil.mp part

theorem takes_of_creates {h : Happening} (creates : h.creates = true)
    (fits : Fits transport c around r.past h) : h.takes = true ∧ r.past.any takes = false := by
  cases h with
  | begun call s outcome =>
    obtain ⟨-, refused, closed, taken⟩ := fits
    cases outcome with
    | error x => cases creates
    | ok t =>
      refine ⟨rfl, ?_⟩
      by_cases allowed : Path.guard call.path = .ok ()
      · by_cases shut : Shut transport r.past
        · cases closed allowed shut
        · obtain ⟨_, ⟨⟩, -, first⟩ := taken allowed shut
          exact (first.mp creates).2
      · cases refused allowed
  | _ => cases creates

theorem countP_creates {past : List Happening} (idle : past.any takes = false) :
    past.countP creates = 0 := by
  rw [List.countP_eq_zero]
  intro h member creates
  refine List.any_eq_false.mp idle h member ?_
  cases h with
  | begun call s outcome =>
    cases outcome with
    | error x => cases creates
    | ok taken => rfl
  | _ => cases creates

theorem Follows.note (follows : r.Follows transport c around) {h : Happening} {roster : Roster}
    {underway : List Underway} (fits : Fits transport c around r.past h)
    (sole : roster.Sole ⟨c, settled transport (h :: r.past), around⟩)
    (waits : ∀ u ∈ underway, Waits c around (h :: r.past) u) :
    (Run.mk roster underway (h :: r.past)).Follows transport c around := by
  refine ⟨sole, waits, fun h' before part => ?_, ?_⟩
  · obtain same | part := List.suffix_cons_iff.mp part
    · cases same
      exact fits
    · exact follows.fits h' before part
  · show (h :: r.past).countP creates ≤ 1
    rw [List.countP_cons]
    split
    next made => rw [countP_creates (takes_of_creates made fits).2]
    next => exact follows.created

theorem Follows.seat_eq (follows : r.Follows transport c around) {name : String} {seat : Seat}
    (found : r.roster.seat? name = some seat) : seat = ⟨c, settled transport r.past, around⟩ :=
  (follows.sole.seat?_eq found).1

theorem Follows.share (follows : r.Follows transport c around) (name other : String) :
    ({ r with roster := r.roster.share name other } : Run).Follows transport c around :=
  ⟨follows.sole.share name other, follows.underway, follows.fits, follows.created⟩

theorem Follows.close (follows : r.Follows transport c around) (name : String) :
    (r.close name).Follows transport c around := by
  unfold Run.close
  split
  next seat found =>
    obtain rfl := follows.seat_eq found
    refine follows.note trivial ?_ fun u under => (follows.underway u under).later _
    rw [Happening.settled_close]
    exact follows.sole.close found
  next => exact follows

theorem Follows.look (follows : r.Follows transport c around) (name : String) :
    (r.look name).Follows transport c around := by
  unfold Run.look
  split
  next seat found =>
    obtain rfl := follows.seat_eq found
    refine follows.note ⟨Happening.isClosed_settled, Happening.isOwn_settled⟩ ?_
      fun u under => (follows.underway u under).later _
    rw [Happening.settled_cons rfl rfl]
    exact follows.sole
  next => exact follows

theorem Follows.begin (follows : r.Follows transport c around) (name : String) (call : Call) :
    (r.begin name call).Follows transport c around := by
  unfold Run.begin
  split
  next => exact follows
  next seat found =>
    obtain rfl := follows.seat_eq found
    split
    next e failed =>
      refine follows.note ⟨rfl, fun refused => ?_, fun allowed shut => ?_, fun allowed unshut => ?_⟩
        ?_ fun u under => (follows.underway u under).later _
      · obtain ⟨-, rfl⟩ | ⟨allowed, -⟩ := Call.begin_eq_error failed
        · rfl
        · exact absurd allowed refused
      · obtain ⟨refused, -⟩ | ⟨-, failed⟩ := Call.begin_eq_error failed
        · exact absurd allowed refused
        · rw [(Happening.take_settled_error failed).1]
      · obtain ⟨refused, -⟩ | ⟨-, failed⟩ := Call.begin_eq_error failed
        · exact absurd allowed refused
        · exact absurd (Happening.take_settled_error failed).2 unshut
      · rw [Happening.settled_cons rfl rfl]
        exact follows.sole.setSession found _
    next taken begun =>
      obtain ⟨allowed, took⟩ := Call.begin_eq_ok_iff.mp begun
      obtain ⟨unshut, same, first, after⟩ := Happening.take_settled took
      refine follows.note ⟨rfl, fun refused => absurd allowed refused,
        fun _ shut => absurd shut unshut, fun _ _ => ⟨taken, rfl, same, first⟩⟩ ?_ fun u under => ?_
      · rw [after]
        exact follows.sole.setSession found _
      · obtain before | last := List.mem_append.mp under
        · exact (follows.underway u before).later _
        · cases List.mem_singleton.mp last
          exact ⟨rfl, rfl, begun, List.mem_cons_self⟩

theorem Follows.finish (follows : r.Follows transport c around) (i : Nat) (reaction : Reaction) :
    (r.finish i reaction).Follows transport c around := by
  unfold Run.finish
  split
  next => exact follows
  next u found =>
    have waits := follows.underway u (List.mem_of_getElem? found)
    refine follows.note ⟨⟨u.taken, waits.noted⟩, ?_, ?_⟩ ?_ fun v under => ?_
    · rw [waits.client, waits.around, Client.call_of_begun waits.begun]
    · exact Client.finish_ne_closed u.taken
    · rw [Happening.settled_cons rfl rfl]
      exact follows.sole
    · exact (follows.underway v (List.mem_of_mem_eraseIdx under)).later _

theorem Follows.leave (follows : r.Follows transport c around) {inner : Run}
    (after : inner.Follows transport c around) (name : String) :
    (r.leave inner name).Follows transport c around :=
  Follows.close (r := { inner with roster := r.roster.leave inner.roster })
    ⟨follows.sole.leave after.sole, after.underway, after.fits, after.created⟩ name

theorem suffix_of_mem {α : Type} {a : α} {l : List α} (member : a ∈ l) :
    ∃ before, a :: before <:+ l := by
  obtain ⟨front, back, rfl⟩ := List.append_of_mem member
  exact ⟨back, List.suffix_append front (a :: back)⟩

theorem Follows.stays_closed (follows : r.Follows transport c around) {before : List Happening}
    {isClosed isOwn isOwn' : Bool} (part : .seen isClosed isOwn :: before <:+ r.past)
    (member : .seen true isOwn' ∈ before) : isClosed = true := by
  obtain ⟨earlier, inside⟩ := suffix_of_mem member
  have within := (inside.trans (List.suffix_cons _ before)).trans part
  obtain ⟨own, closed⟩ := (follows.fits _ earlier within).1.mp rfl
  exact (follows.fits _ before part).1.mpr ⟨own, inside.subset (List.mem_cons_of_mem _ closed)⟩

end Run

mutual

theorem Act.follows_run {transport : Option Transport} {c : Client} {around : Surroundings} :
    (a : Act) → (r : Run) → r.Follows transport c around → (a.run r).Follows transport c around
  | .clone name other, _, follows => follows.share name other
  | .close name, _, follows => follows.close name
  | .look name, _, follows => follows.look name
  | .begin name call, _, follows => follows.begin name call
  | .finish i reaction, _, follows => follows.finish i reaction
  | .scoped name body, _, follows =>
    follows.leave (follows_runAll body _ (follows.share name Roster.scopeName)) name

theorem Act.follows_runAll {transport : Option Transport} {c : Client} {around : Surroundings} :
    (acts : List Act) → (r : Run) → r.Follows transport c around →
      (Act.runAll acts r).Follows transport c around
  | [], _, follows => follows
  | a :: rest, r, follows => follows_runAll rest _ (a.follows_run r follows)

end

namespace Act

open Happening (Fits Shut settled creates)

/-- What a step leaves behind, if there is what it names. -/
def Recorded (r after : Run) : Act → Prop
  | .clone name other => ∀ seat, r.roster.seat? name = some seat →
    after.roster.seat? other = some seat
  | .close name => ∀ seat, r.roster.seat? name = some seat → after.past = .closed :: r.past
  | .look name => ∀ seat, r.roster.seat? name = some seat →
    after.past = .seen seat.session.isClosed seat.session.isOwn :: r.past
  | .begin name call => ∀ seat, r.roster.seat? name = some seat → ∃ outcome,
    after.past = .begun call seat.session outcome :: r.past ∧
    ∀ taken, outcome = .ok taken → after.underway = r.underway ++ [⟨seat, call, taken⟩]
  | .finish i reaction => ∀ u, r.underway[i]? = some u → ∃ x,
    after.past = .ended u.call u.seat.session reaction x :: r.past
  | .scoped name body => ∀ seat, r.roster.seat? name = some seat →
    after.past = .closed ::
      (runAll body { r with roster := r.roster.share name Roster.scopeName }).past

section Recorded

variable {transport : Option Transport} {c : Client} {around : Surroundings} {r : Run}

theorem handles_run : (a : Act) → (r : Run) → r.roster.handles <:+ (a.run r).roster.handles
  | .clone _ _, _ => Roster.handles_share
  | .close name, r => by rw [Act.run, Run.handles_close]
  | .look name, r => by rw [Act.run, Run.handles_look]
  | .begin name call, r => by rw [Act.run, Run.handles_begin]
  | .finish i reaction, r => by rw [Act.run, Run.handles_finish]
  | .scoped name body, r => by rw [Act.run, Run.leave, Run.handles_close]; exact List.suffix_rfl

theorem handles_runAll (acts : List Act) (r : Run) :
    r.roster.handles <:+ (runAll acts r).roster.handles := by
  induction acts generalizing r with
  | nil => exact List.suffix_rfl
  | cons a rest ih => exact (handles_run a r).trans (ih (a.run r))

theorem recorded (follows : r.Follows transport c around) : (a : Act) → Recorded r (a.run r) a
  | .clone name other => by
    intro seat found
    have known := follows.sole.isSome_seat?.mp (Option.isSome_of_eq_some found)
    rw [follows.seat_eq found]
    exact (follows.share name other).sole.seat?_eq_some (Roster.isSome_share known)
  | .close name => by
    intro seat found
    simp only [Act.run, Run.close, found]
  | .look name => by
    intro seat found
    simp only [Act.run, Run.look, found]
  | .begin name call => by
    intro seat found
    cases begun : call.begin seat.session with
    | error e =>
      simp only [Act.run, Run.begin, found, begun]
      exact ⟨_, rfl, fun _ came => nomatch came⟩
    | ok taken =>
      simp only [Act.run, Run.begin, found, begun]
      exact ⟨_, rfl, fun _ came => by cases came; rfl⟩
  | .finish i reaction => by
    intro u found
    simp only [Act.run, Run.finish, found]
    exact ⟨_, rfl⟩
  | .scoped name body => by
    intro seat found
    -- The name that is closed at the end of the scope is one from outside.
    have known := follows.sole.isSome_seat?.mp (Option.isSome_of_eq_some found)
    have inner := follows_runAll body _ (follows.share name Roster.scopeName)
    have left := (follows.sole.leave inner.sole).seat?_eq_some known
    simp only [Act.run, Run.leave, Run.close, left]

end Recorded

/-- Whatever is done through the names of a client, they all see the session that is told from what
has happened, and each thing that happens fits what was before it. A client that was seen closed is
closed for good, and at most one transport is made. Nothing is done unseen, and no name is lost. -/
theorem session_over_run {settings : ClientSettings} {c : Client} {first : Session}
    (built : settings.build = .ok (c, first)) (around : Surroundings) (name : String)
    (acts : List Act) :
    let run := runAll acts (.of name ⟨c, first, around⟩)
    (∀ other seat, run.roster.seat? other = some seat →
      seat = ⟨c, settled settings.transport run.past, around⟩) ∧
    (∀ h before, h :: before <:+ run.past → Fits settings.transport c around before h) ∧
    (∀ before isClosed isOwn isOwn', .seen isClosed isOwn :: before <:+ run.past →
      .seen true isOwn' ∈ before → isClosed = true) ∧
    run.past.countP creates ≤ 1 ∧
    run.roster.seat? name = some ⟨c, settled settings.transport run.past, around⟩ ∧
    ∀ a, Recorded run (a.run run) a ∧ ∀ other, (run.roster.seat? other).isSome = true →
      ((a.run run).roster.seat? other).isSome = true := by
  obtain ⟨-, -, -, -, rfl⟩ := ClientSettings.of_build built
  have follows : (runAll acts (.of name ⟨c, .start settings.transport, around⟩)).Follows
      settings.transport c around := follows_runAll acts _ (Run.follows_of name)
  refine ⟨fun other seat found => follows.seat_eq found, follows.fits,
    fun before isClosed isOwn isOwn' part member => ?_, follows.created, ?_, fun a => ⟨?_, ?_⟩⟩
  · exact follows.stays_closed part member
  · exact follows.sole.seat?_eq_some
      (Roster.isSome_place?_of_suffix (handles_runAll acts _) (Roster.isSome_make name _))
  · exact recorded follows a
  · intro other known
    rw [follows.sole.isSome_seat?] at known
    exact (a.follows_run _ follows).sole.isSome_seat?.mpr
      (Roster.isSome_place?_of_suffix (handles_run a _) known)

-- A call that is begun in a scope and ends behind it.
def lateAnswer : List Act :=
  [.scoped "main" [.begin "scoped" (.ofPath .get "info")], .finish 0 .silent, .look "main"]

theorem session_over_run_of_late_answer :
    ∃ c first before, (ClientSettings.standard "http://supervisor/api/" "token").build = .ok (c, first) ∧
      .seen true false :: before <:+ (runAll lateAnswer (.of "main" ⟨c, first, .open⟩)).past ∧
      Shut none before := by
  have built : ∃ c first,
      (ClientSettings.standard "http://supervisor/api/" "token").build = .ok (c, first) := ⟨_, _, rfl⟩
  obtain ⟨c, first, built⟩ := built
  have transport : first = .pending := (ClientSettings.of_build built).2.2.2.2
  have shape : ∃ before, (runAll lateAnswer (.of "main" ⟨c, .pending, .open⟩)).past =
      .seen true false :: before := ⟨_, rfl⟩
  obtain ⟨before, shape⟩ := shape
  rw [← transport] at shape
  have part : .seen true false :: before <:+
      (runAll lateAnswer (.of "main" ⟨c, first, .open⟩)).past := ⟨[], shape.symm⟩
  have fits := (session_over_run built .open "main" lateAnswer).2.1 _ before part
  exact ⟨c, first, before, built, part, fits.1.mp rfl⟩

end Act

end SupervisorApi
