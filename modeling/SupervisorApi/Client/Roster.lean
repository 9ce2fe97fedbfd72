import SupervisorApi.Client.Exchange

set_option autoImplicit false

namespace SupervisorApi

structure Seat where
  client : Client
  session : Session
  around : Surroundings

structure Roster where
  seats : List Seat
  handles : List (String × Nat)

namespace Roster

def empty : Roster := ⟨[], []⟩

def place? (r : Roster) (name : String) : Option Nat :=
  r.handles.lookup name

def seat? (r : Roster) (name : String) : Option Seat :=
  (r.place? name).bind fun i => r.seats[i]?

def make (r : Roster) (name : String) (seat : Seat) : Roster :=
  ⟨r.seats ++ [seat], (name, r.seats.length) :: r.handles⟩

def share (r : Roster) (other name : String) : Roster :=
  match r.place? other with
  | some i => { r with handles := (name, i) :: r.handles }
  | none => r

def setSession (r : Roster) (name : String) (s : Session) : Roster :=
  match r.place? name, r.seat? name with
  | some i, some seat => { r with seats := r.seats.set i { seat with session := s } }
  | _, _ => r

def close (r : Roster) (name : String) : Roster :=
  match r.seat? name with
  | some seat => r.setSession name seat.session.close
  | none => r

def scopeName : String := "scoped"

-- What a scope leaves behind: the names that were made in it are gone.
def leave (r inner : Roster) : Roster :=
  ⟨inner.seats, r.handles⟩

end Roster

end SupervisorApi
