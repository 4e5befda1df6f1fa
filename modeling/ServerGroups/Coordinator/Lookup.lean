/-
ServerGroups/Coordinator/Lookup.lean

Looking up groups.  Every look holds the membership lock, so it waits for a
move that is under way.
-/
import ServerGroups.Program

namespace ServerGroups.Coordinator

open Program

/-- The group of a given name. -/
def getGroup (name : String) : Program (Option Group) :=
  holding .membership <| call (.group name)

/-- The group that pins a table. -/
def getGroupOfTable (t : TableName) : Program (Option Group) :=
  holding .membership do
    match ← call (.groupOfTable t) with
    | some name => call (.group name)
    | none => pure none

/-- The group that a server belongs to. -/
def getGroupOfServer (s : ServerAddress) : Program (Option Group) :=
  holding .membership <| call (.groupOfServer s)

/-- Every group. -/
def listGroups : Program (List Group) :=
  holding .membership <| call .groups

end ServerGroups.Coordinator
