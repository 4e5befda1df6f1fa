/-
ServerGroups/Wire/Config.lean

Durations and settings in JSON.

A duration is a record of whole seconds and nanoseconds; the nanoseconds may
exceed a second, but nothing else may stand in the record.
-/
import ServerGroups.Config
import ServerGroups.Wire.Identity

namespace ServerGroups

namespace Duration

/-- A duration as a record. -/
def toJson (d : Duration) : Json :=
  .object [("secs", .natural d.seconds), ("nanos", .natural d.subsecond)]

/-- Whether a record holds nothing but seconds and nanoseconds. -/
def hasOwnFields : Json → Bool
  | .object members => members.all fun m => m.1 == "secs" || m.1 == "nanos"
  | _ => true

/-- The duration that a record describes. -/
def ofJson? (j : Json) : Option Duration :=
  if hasOwnFields j then
    match j.fields? ["secs", "nanos"] 2 with
    | some [some seconds, some nanoseconds] => do
      ofParts? (← seconds.natural? (Nat.pow 2 64)) (← nanoseconds.natural? (Nat.pow 2 32))
    | _ => none
  else none

end Duration

namespace Config

/-- Settings as a record. -/
def toJson (c : Config) : Json :=
  .object [("drain_interval", c.drainInterval.toJson),
    ("max_drain_interval", c.maxDrainInterval.toJson),
    ("drain_backoff_multiplier", .real c.multiplier), ("meta_table", c.metaTable.toJson)]

/-- The settings that a record describes. -/
def ofJson? (j : Json) : Option Config :=
  match j.fields? ["drain_interval", "max_drain_interval", "drain_backoff_multiplier",
    "meta_table"] 4 with
  | some [some interval, some cap, some multiplier, some catalog] => do
    pure ⟨← Duration.ofJson? interval, ← Duration.ofJson? cap, ← multiplier.real?,
      ← TableName.ofJson? catalog⟩
  | _ => none

end Config

end ServerGroups
