/-
ServerGroups/Call.lean

The calls that a coordinator makes on the services around it, what each
answers, and how a call is written in a trace.
-/
import ServerGroups.Cluster
import ServerGroups.Balancer
import ServerGroups.Observer

namespace ServerGroups

/-- A call on the registry, the cluster, the balancer, the namespaces, the table locks or the
observer. -/
inductive Call where
  -- registry
  | group (name : String)
  | groupOfServer (server : ServerAddress)
  | groupOfTable (table : TableName)
  | groups
  | addGroup (name : String)
  | removeGroup (name : String)
  | moveServers (servers : ServerSet) (source target : String)
  | moveTables (tables : TableSet) (target : Option String)
  -- cluster
  | online
  | recovering
  | assignments
  | transitions
  | regionsOf (table : TableName)
  | unassign (region : Region)
  | place (placement : Placement)
  -- the others
  | plan (snapshot : Snapshot)
  | namespaces
  | namespaceOf (name : String)
  | tableLock (table : TableName) (purpose : String)
  | hook (hook : Hook)

namespace Call

/-- What a call answers when it does not fail. -/
abbrev Answer : Call → Type
  | group _ | groupOfServer _ => Option Group
  | groupOfTable _ => Option String
  | groups => List Group
  | moveServers .. => ServerSet
  | online => ServerSet
  | recovering => Bool
  | assignments => Std.ExtTreeMap Region ServerAddress
  | transitions => Std.ExtTreeMap String RegionTransition
  | regionsOf _ => List Region
  | plan _ => Option (List Placement)
  | namespaces => List Namespace
  | namespaceOf _ => Option Namespace
  | addGroup _ | removeGroup _ | moveTables .. | unassign _ | place _ | tableLock .. | hook _ =>
    Unit

/-- The name of a call, by service and function. -/
def name : Call → String
  | group _ => "registry.get_group"
  | groupOfServer _ => "registry.get_group_of_server"
  | groupOfTable _ => "registry.get_group_of_table"
  | groups => "registry.list_groups"
  | addGroup _ => "registry.add_group"
  | removeGroup _ => "registry.remove_group"
  | moveServers .. => "registry.move_servers"
  | moveTables .. => "registry.move_tables"
  | online => "cluster.online_servers"
  | recovering => "cluster.dead_servers_in_progress"
  | assignments => "cluster.region_assignments"
  | transitions => "cluster.regions_in_transition"
  | regionsOf _ => "cluster.regions_of_table"
  | unassign _ => "cluster.unassign"
  | place _ => "cluster.apply_placement"
  | plan _ => "placement.compute_plan"
  | namespaces => "namespaces.list_namespaces"
  | namespaceOf _ => "namespaces.get_namespace"
  | tableLock .. => "table_locks.write_lock"
  | hook h => "observer." ++ h.name

/-- The arguments of a call, as they are written. -/
def arguments : Call → List String
  | group name | addGroup name | removeGroup name | namespaceOf name => [name]
  | groupOfServer server => [server.text]
  | groupOfTable table | regionsOf table => [table.text]
  | moveServers servers source target => [servers.text, source, target]
  | moveTables tables target => [tables.text, target.getD "-"]
  | unassign region => [region.text]
  | place placement => [placement.text]
  | tableLock table purpose => [table.text, purpose]
  | groups | online | recovering | assignments | transitions | plan _ | namespaces => []
  | hook h =>
    match h with
    | .preMoveServers servers target | .postMoveServers servers target => [servers.text, target]
    | .preMoveTables tables target | .postMoveTables tables target =>
      [tables.text, target.getD "-"]
    | .preAddGroup name | .postAddGroup name | .preRemoveGroup name | .postRemoveGroup name
    | .preBalance name => [name]
    | .postBalance name ran => [name, if ran then "true" else "false"]

/-- `service.function(arguments)`. -/
def text (c : Call) : String :=
  c.name ++ "(" ++ String.intercalate ", " c.arguments ++ ")"

end Call

end ServerGroups
