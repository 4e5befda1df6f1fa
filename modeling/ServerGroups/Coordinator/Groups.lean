/-
ServerGroups/Coordinator/Groups.lean

Adding and removing groups.  Only a group that nothing needs can be removed.
-/
import ServerGroups.Program

namespace ServerGroups.Coordinator

open Program

/-- Adds a group without members. -/
def addGroup (name : String) : Program Unit := do
  hook (.preAddGroup name)
  refuseIf (name = "") .emptyGroupName
  holding .membership do
    let existing ← call (.group name)
    refuseIf existing.isSome (.groupExists name)
    call (.addGroup name)
  note (.groupAdded name)
  hook (.postAddGroup name)

/-- Refuses to remove a group that a namespace names. -/
def refuseIfReferenced (name : String) : List Namespace → Program Unit
  | [] => pure ()
  | n :: rest =>
    if n.group? = some name then refuse (.groupReferenced name n.name)
    else refuseIfReferenced name rest

/-- Removes a group that is not `default`, has no members, and is named by no namespace. -/
def removeGroup (name : String) : Program Unit :=
  holding .membership do
    hook (.preRemoveGroup name)
    match ← call (.group name) with
    | none => refuse (.groupMissing name)
    | some g =>
      refuseIf g.isDefault .defaultGroupStays
      refuseIf (g.tables.size ≠ 0) (.groupHasTables name g.tables.size)
      refuseIf (g.servers.size ≠ 0) (.groupHasServers name g.servers.size)
      refuseIfReferenced name (← call .namespaces)
      call (.removeGroup name)
      note (.groupRemoved name)
      hook (.postRemoveGroup name)

end ServerGroups.Coordinator
