/-
ServerGroups/Config.lean

How a coordinator drains servers: the wait after the first pass, the factor by
which the wait grows from pass to pass, the wait it never exceeds, and the
catalog table, whose regions leave a server last.
-/
import ServerGroups.Error

namespace ServerGroups

namespace Config

/-- One second. -/
def defaultInterval : Duration := ⟨1000000000, by decide⟩

/-- Five seconds. -/
def defaultMaxInterval : Duration := ⟨5000000000, by decide⟩

end Config

/-- The settings of a coordinator. -/
structure Config where
  /-- The wait between the first and the second pass of a drain. -/
  drainInterval : Duration := Config.defaultInterval
  /-- The longest wait between two passes. -/
  maxDrainInterval : Duration := Config.defaultMaxInterval
  /-- The factor by which a wait exceeds the one before it. -/
  multiplier : Binary64 := .finite false (3 * Nat.pow 2 51) 1022
  /-- The catalog table. -/
  metaTable : TableName := ⟨"system", "meta"⟩

namespace Config

/-- What is wrong with the settings, if anything: the wait is zero, its bound is below it, or the
factor is not a number of at least one. -/
def validate (c : Config) : Except Refusal Unit :=
  if c.drainInterval.nanoseconds = 0 then .error .zeroInterval
  else if c.maxDrainInterval.nanoseconds < c.drainInterval.nanoseconds then
    .error (.capBelowInterval c.maxDrainInterval c.drainInterval)
  else if c.multiplier.isFinite && c.multiplier.atLeastOne then .ok ()
  else .error (.multiplierBelowOne c.multiplier)

/-- The wait after a wait of `current`: the product with the factor, at most the longest wait, and
the longest wait where the product is no duration. -/
def nextInterval (c : Config) (current : Duration) : Duration :=
  match Duration.ofSeconds? (current.toSeconds.mul c.multiplier) with
  | some next => next.min c.maxDrainInterval
  | none => c.maxDrainInterval

/-- The waits after a wait of `current`, one for each of `count` passes. -/
def nextIntervals (c : Config) (current : Duration) : (count : Nat) → List Duration
  | 0 => []
  | count + 1 =>
    let next := c.nextInterval current
    next :: c.nextIntervals next count

end Config

/-- The parts that a coordinator is put together from. -/
inductive Part where
  | registry
  | cluster
  | placement
  | namespaces
  | tableLocks
  | observer
  | placementLock
deriving DecidableEq, Repr

namespace Part

/-- The name of a part. -/
def text : Part → String
  | registry => "registry"
  | cluster => "cluster"
  | placement => "placement"
  | namespaces => "namespaces"
  | tableLocks => "table_locks"
  | observer => "observer"
  | placementLock => "placement_lock"

/-- Every part. -/
def all : List Part :=
  [registry, cluster, placement, namespaces, tableLocks, observer, placementLock]

/-- The part of a given name. -/
def read? (s : String) : Option Part := all.find? fun part => part.text == s

/-- The parts without which there is no coordinator, in the order in which they are missed. -/
def required : List Part := [registry, cluster, placement, namespaces, tableLocks]

end Part

/-- Whether a coordinator can be put together from some parts: the settings are looked at first,
then the parts in their order. -/
def Config.assemble (c : Config) (parts : List Part) : Except Refusal Config :=
  match c.validate with
  | .error cause => .error cause
  | .ok () =>
    match Part.required.find? fun part => !parts.contains part with
    | some part => .error (.missingPart part.text)
    | none => .ok c

end ServerGroups
