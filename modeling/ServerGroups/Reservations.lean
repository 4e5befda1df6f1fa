/-
ServerGroups/Reservations.lean

The servers that are being moved, each with the group it is moving to.

A move reserves all of its servers or none, and gives them back when it is
over.  Overlapping moves are refused at once.
-/
import ServerGroups.Error

namespace ServerGroups

/-- The reserved servers and the group that each is moving to. -/
structure Reservations where
  targets : Std.ExtTreeMap ServerAddress String
deriving DecidableEq

namespace Reservations

/-- No server is reserved. -/
def none : Reservations := ⟨∅⟩

/-- The group that a server is moving to, if it is reserved. -/
def target? (r : Reservations) (s : ServerAddress) : Option String := r.targets[s]?

/-- Whether a server is reserved. -/
def contains (r : Reservations) (s : ServerAddress) : Bool := r.targets.contains s

/-- How many servers are reserved. -/
def size (r : Reservations) : Nat := r.targets.size

/-- Whether no server is reserved. -/
def isEmpty (r : Reservations) : Bool := r.targets.isEmpty

/-- The reserved servers and their targets, in server order. -/
def toList (r : Reservations) : List (ServerAddress × String) := r.targets.toList

/-- The refusal of the first of some servers that is reserved already, if one is. -/
def conflict? (r : Reservations) (servers : ServerSet) : Option Refusal :=
  servers.toList.findSome? fun s => (r.target? s).map (Refusal.alreadyMoving s)

/-- Reserves servers for a move to a group; the refusal names the first that is reserved. -/
def reserve (r : Reservations) (servers : ServerSet) (target : String) :
    Except Refusal Reservations :=
  match r.conflict? servers with
  | some cause => .error cause
  | .none => .ok ⟨servers.toList.foldl (fun m s => m.insert s target) r.targets⟩

/-- Gives servers back. -/
def release (r : Reservations) (servers : ServerSet) : Reservations :=
  ⟨servers.toList.foldl (fun m s => m.erase s) r.targets⟩

end Reservations

end ServerGroups
