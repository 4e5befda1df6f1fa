/-
ServerGroups/Fault.lean

Faults: calls of a given name that are made to fail, or to crash the one who
makes them, before they reach a service.

A call meets the faults of its name in the order in which they were added.  A
fault lets the first calls pass and counts them down; then it strikes as often
as it is meant to, and a call that it strikes meets no further fault.
-/
import ServerGroups.Error

namespace ServerGroups

/-- What a fault does to a call. -/
inductive FaultEffect where
  | fails (cause : ServiceError)
  | crashes
deriving DecidableEq, Repr

/-- A fault. -/
structure Fault where
  /-- The name of the calls that meet it. -/
  call : String
  /-- How many calls it still lets pass. -/
  after : Nat
  /-- How many calls it strikes then. -/
  count : Nat
  effect : FaultEffect
deriving DecidableEq, Repr

/-- Lets a call of a given name meet some faults: what strikes it, and the faults afterwards. -/
def Fault.meet (name : String) : List Fault → Option FaultEffect × List Fault
  | [] => (none, [])
  | f :: fs =>
    if f.call = name ∧ f.after = 0 ∧ 0 < f.count then
      (some f.effect, { f with count := f.count - 1 } :: fs)
    else
      let (effect, rest) := meet name fs
      (effect, (if f.call = name then { f with after := f.after - 1 } else f) :: rest)

end ServerGroups
