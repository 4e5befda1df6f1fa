/-
ServerGroups/Balancer.lean

Evening out the regions of one table over some servers.

While some server has at least two regions more than another, the last region
of the first server with the most moves to the first server with the fewest.

Design.  A move from a load `a` to a load `b ≤ a - 2` lowers the sum of the
squares of all loads by `2 * (a - b - 1) ≥ 2`, so that sum bounds the number of
moves.
-/
import ServerGroups.Region
import Std.Data.ExtTreeMap

namespace ServerGroups

/-- The regions of one table on each of some servers. -/
abbrev Snapshot := Std.ExtTreeMap ServerAddress (List Region)

/-- The regions on each of some servers, in server order. -/
abbrev Loads := List (ServerAddress × List Region)

namespace Loads

/-- The first server with the most regions. -/
def busiest? : Loads → Option (ServerAddress × List Region)
  | [] => none
  | first :: rest => some <|
    rest.foldl (fun best x => if best.2.length < x.2.length then x else best) first

/-- The first server with the fewest regions. -/
def idlest? : Loads → Option (ServerAddress × List Region)
  | [] => none
  | first :: rest => some <|
    rest.foldl (fun best x => if x.2.length < best.2.length then x else best) first

/-- Takes a region off the end of one server's regions and puts it at the end of another's. -/
def shift (loads : Loads) (source destination : ServerAddress) (r : Region) : Loads :=
  loads.map fun x =>
    if x.1 = source then (x.1, x.2.dropLast)
    else if x.1 = destination then (x.1, x.2 ++ [r])
    else x

/-- The next move and the loads after it, if the loads are not even. -/
def next? (loads : Loads) : Option (Placement × Loads) :=
  match loads.busiest?, loads.idlest? with
  | some most, some least =>
    if most.2.length ≤ least.2.length + 1 then none
    else
      match most.2.getLast? with
      | some r => some (⟨r, some most.1, least.1⟩, loads.shift most.1 least.1 r)
      | none => none
  | _, _ => none

/-- The sum of the squares of the loads, which every move lowers. -/
def unevenness (loads : Loads) : Nat := loads.foldr (fun x n => x.2.length * x.2.length + n) 0

/-- The moves that even the loads out, at most `fuel` of them. -/
def moves : (fuel : Nat) → Loads → List Placement
  | 0, _ => []
  | fuel + 1, loads =>
    match loads.next? with
    | none => []
    | some (move, after) => move :: moves fuel after

end Loads

/-- The moves that even a snapshot out: none if it has fewer than two servers. -/
def Snapshot.moves (s : Snapshot) : List Placement :=
  if s.size < 2 then [] else Loads.moves (Loads.unevenness s.toList) s.toList

/-- The plan for a snapshot, if there is anything to move. -/
def Snapshot.plan? (s : Snapshot) : Option (List Placement) :=
  if s.moves = [] then none else some s.moves

end ServerGroups
