/-
ServerGroups/Namespace.lean

Namespaces of tables and their configuration.  The property `group` of a
namespace names the group that its new tables are pinned to.
-/
import ServerGroups.Group
import Std.Data.ExtTreeMap

namespace ServerGroups

/-- The property that names the group of a namespace's new tables. -/
def groupProperty : String := "group"

/-- A namespace and its properties. -/
structure Namespace where
  name : String
  configuration : Std.ExtTreeMap String String
deriving DecidableEq

namespace Namespace

/-- A namespace without properties. -/
def empty (name : String) : Namespace := ⟨name, ∅⟩

/-- Names the group of the namespace's new tables. -/
def withGroup (n : Namespace) (group : String) : Namespace :=
  { n with configuration := n.configuration.insert groupProperty group }

/-- The group of the namespace's new tables, if it names one. -/
def group? (n : Namespace) : Option String :=
  n.configuration[groupProperty]?

end Namespace

/-- The namespaces of a cluster, by name. -/
abbrev Namespaces := Std.ExtTreeMap String Namespace

namespace Namespaces

/-- Stores a namespace under its name, in place of the one stored there. -/
def put (s : Namespaces) (n : Namespace) : Namespaces :=
  s.insert n.name n

end Namespaces

end ServerGroups
