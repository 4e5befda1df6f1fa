/-
ServerGroups/Guards.lean

Reservations kept under labels until they are given back.

A label keeps one reservation.  What a label is used for again is reserved
before its old reservation is given back, so the two may not overlap.
-/
import ServerGroups.Reservations

namespace ServerGroups

/-- The servers reserved under each label. -/
structure Guards where
  kept : Std.ExtTreeMap String ServerSet
deriving DecidableEq

namespace Guards

/-- No label keeps anything. -/
def none : Guards := ⟨∅⟩

/-- Gives the servers of a label back; tells whether the label kept any reservation. -/
def drop (g : Guards) (r : Reservations) (label : String) : Bool × Guards × Reservations :=
  match g.kept[label]? with
  | some servers => (true, ⟨g.kept.erase label⟩, r.release servers)
  | .none => (false, g, r)

/-- Reserves servers under a label, and then gives back what the label kept before. -/
def reserve (g : Guards) (r : Reservations) (label : String) (servers : ServerSet)
    (target : String) : Except Refusal (Guards × Reservations) :=
  match r.reserve servers target with
  | .error cause => .error cause
  | .ok reserved =>
    let (_, left, r) := g.drop reserved label
    .ok (⟨left.kept.insert label servers⟩, r)

end Guards

end ServerGroups
