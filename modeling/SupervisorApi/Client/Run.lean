import SupervisorApi.Client.Roster

set_option autoImplicit false

namespace SupervisorApi

inductive Act where
  | clone (name other : String)
  | close (name : String)
  | look (name : String)
  | begin (name : String) (call : Call)
  -- One of the calls that are under way ends, counted from the oldest.
  | finish (i : Nat) (reaction : Reaction)
  -- A body in which the client has one more name, and which closes it.
  | scoped (name : String) (body : List Act)

inductive Happening where
  | closed
  | seen (isClosed isOwn : Bool)
  | begun (call : Call) (s : Session) (outcome : Except (Exchange Response) Session.Taken)
  | ended (call : Call) (s : Session) (reaction : Reaction) (x : Exchange Response)

namespace Happening

def isClose : Happening → Bool
  | .closed => true
  | _ => false

def takes : Happening → Bool
  | .begun _ _ (.ok _) => true
  | _ => false

def creates : Happening → Bool
  | .begun _ _ (.ok taken) => taken.created
  | _ => false

end Happening

structure Underway where
  seat : Seat
  call : Call
  taken : Session.Taken

structure Run where
  roster : Roster
  -- The oldest first.
  underway : List Underway
  -- The newest first.
  past : List Happening

namespace Run

def of (name : String) (seat : Seat) : Run :=
  ⟨Roster.empty.make name seat, [], []⟩

def close (r : Run) (name : String) : Run :=
  match r.roster.seat? name with
  | some _ => { r with roster := r.roster.close name, past := .closed :: r.past }
  | none => r

def look (r : Run) (name : String) : Run :=
  match r.roster.seat? name with
  | some seat => { r with past := .seen seat.session.isClosed seat.session.isOwn :: r.past }
  | none => r

def begin (r : Run) (name : String) (call : Call) : Run :=
  match r.roster.seat? name with
  | none => r
  | some seat =>
    match call.begin seat.session with
    | .error e =>
      let x := Exchange.refuse seat.session e
      { r with
        roster := r.roster.setSession name x.session
        past := .begun call seat.session (.error x) :: r.past }
    | .ok taken =>
      { roster := r.roster.setSession name taken.session
        underway := r.underway ++ [⟨seat, call, taken⟩]
        past := .begun call seat.session (.ok taken) :: r.past }

def finish (r : Run) (i : Nat) (reaction : Reaction) : Run :=
  match r.underway[i]? with
  | none => r
  | some u =>
    { r with
      underway := r.underway.eraseIdx i
      past := .ended u.call u.seat.session reaction
        (u.seat.client.finish u.seat.around u.taken u.call reaction) :: r.past }

def leave (r inner : Run) (name : String) : Run :=
  ({ inner with roster := r.roster.leave inner.roster } : Run).close name

end Run

mutual

def Act.run : Act → Run → Run
  | .clone name other, r => { r with roster := r.roster.share name other }
  | .close name, r => r.close name
  | .look name, r => r.look name
  | .begin name call, r => r.begin name call
  | .finish i reaction, r => r.finish i reaction
  | .scoped name body, r =>
    r.leave (runAll body { r with roster := r.roster.share name Roster.scopeName }) name

def Act.runAll : List Act → Run → Run
  | [], r => r
  | a :: rest, r => runAll rest (a.run r)

end

end SupervisorApi
