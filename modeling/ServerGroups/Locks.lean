/-
ServerGroups/Locks.lean

The locks that keep operations apart, and who holds them.

One lock guards the membership of groups, one the placement of regions, and
each table has one of its own.  A lock is held by one holder alone or by any
number that share it.
-/
import ServerGroups.TableName

namespace ServerGroups

/-- What can be locked. -/
inductive Lock where
  | membership
  | placement
  | table (name : TableName)
deriving DecidableEq, Repr

/-- Who can hold a lock: the operation that is running, the drain of a move, or someone outside
the coordinator under a label. -/
inductive Holder where
  | operation
  | move (number : Nat)
  | guest (label : String)
  | planner
deriving DecidableEq, Repr

/-- A lock that is held. -/
structure Grant where
  lock : Lock
  /-- Whether others may hold the lock in the same way. -/
  shared : Bool
  holder : Holder
deriving DecidableEq, Repr

/-- The locks that are held, the latest first. -/
structure Locks where
  grants : List Grant
deriving DecidableEq, Repr

namespace Locks

/-- No lock is held. -/
def none : Locks := ⟨[]⟩

/-- Whether a lock can be had: by one who shares it if no one holds it alone, by one who does not
if no one holds it. -/
def isFree (l : Locks) (lock : Lock) (shared : Bool) : Bool :=
  l.grants.all fun g => g.lock ≠ lock || (shared && g.shared)

/-- Whether someone holds a lock alone. -/
def isExclusive (l : Locks) (lock : Lock) : Bool :=
  l.grants.any fun g => g.lock = lock && !g.shared

/-- Whether a holder holds anything. -/
def holds (l : Locks) (holder : Holder) : Bool := l.grants.any fun g => g.holder = holder

/-- Grants a lock.  Someone outside the coordinator then loses what the same label held before. -/
def grant (l : Locks) (g : Grant) : Locks :=
  match g.holder with
  | .guest label => ⟨g :: l.grants.filter fun x => x.holder ≠ .guest label⟩
  | _ => ⟨g :: l.grants⟩

/-- Takes one lock from a holder. -/
def release (l : Locks) (lock : Lock) (holder : Holder) : Locks :=
  ⟨l.grants.filter fun g => ¬(g.lock = lock ∧ g.holder = holder)⟩

/-- Takes every lock from a holder. -/
def releaseAll (l : Locks) (holder : Holder) : Locks :=
  ⟨l.grants.filter fun g => g.holder ≠ holder⟩

/-- Hands a lock from one holder to another. -/
def handOver (l : Locks) (lock : Lock) (giver taker : Holder) : Locks :=
  ⟨l.grants.map fun g => if g.lock = lock ∧ g.holder = giver then { g with holder := taker } else g⟩

end Locks

end ServerGroups
