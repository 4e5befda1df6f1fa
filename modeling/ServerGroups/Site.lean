/-
ServerGroups/Site.lean

The services of a coordinator, held in memory, and how they answer its calls.

A call either fails and changes nothing, or is answered and may change the
service it is addressed to; no call touches two services.
-/
import ServerGroups.Notice

namespace ServerGroups

/-- The services around a coordinator. -/
structure Site where
  registry : Registry
  cluster : Cluster
  /-- The snapshots that the balancer was asked about, oldest first. -/
  snapshots : Array Snapshot
  /-- Answers to give in place of the balancer's own, next first. -/
  script : List (Option (List Placement))
  namespaces : Namespaces
  observer : Observer

/-- What a service makes of a call: an answer or a failure, its reports, and what it is like
afterwards. -/
structure Service (α : Type) where
  answer : Except ServiceError α
  notices : List Notice
  site : Site

namespace Site

/-- A site where the group `default` holds some servers, which are online, and the namespace
`default` is the only one. -/
def ofServers (servers : ServerSet) (observer : Observer) : Site where
  registry := .ofServers servers
  cluster := .ofServers servers
  snapshots := #[]
  script := []
  namespaces := Namespaces.put ∅ (Namespace.empty TableName.defaultSpace)
  observer := observer

/-- A call that only looks. -/
def look {α : Type} (site : Site) (answer : α) : Service α := ⟨.ok answer, [], site⟩

/-- Asks the balancer: it records the snapshot and plans, and an answer that was laid down for it
goes in place of its own. -/
def plan (site : Site) (s : Snapshot) : Service (Option (List Placement)) :=
  let notices := if s.size < 2 then [] else [Notice.planned s.moves.length]
  let asked := { site with snapshots := site.snapshots.push s }
  match site.script with
  | [] => ⟨.ok s.plan?, notices, asked⟩
  | head :: rest => ⟨.ok head, notices, { asked with script := rest }⟩

/-- Serves a call. -/
def serve (site : Site) : (c : Call) → Service c.Answer
  | .group name => site.look (site.registry.group? name)
  | .groupOfServer server => site.look (site.registry.groupOfServer? server)
  | .groupOfTable table => site.look (site.registry.groupOfTable? table)
  | .groups => site.look site.registry.list
  | .addGroup name =>
    match site.registry.addGroup name with
    | .ok registry => ⟨.ok (), [.registryAdding name], { site with registry }⟩
    | .error e => ⟨.error e, [], site⟩
  | .removeGroup name =>
    match site.registry.removeGroup name with
    | .ok registry => ⟨.ok (), [.registryRemoved name], { site with registry }⟩
    | .error e => ⟨.error e, [], site⟩
  | .moveServers servers source target =>
    match site.registry.moveServers servers source target with
    | .ok (moved, registry) =>
      ⟨.ok moved, [.registryMoved moved.size source target], { site with registry }⟩
    | .error e => ⟨.error e, [], site⟩
  | .moveTables tables target =>
    match site.registry.moveTables tables target with
    | .ok registry => ⟨.ok (), [], { site with registry }⟩
    | .error e => ⟨.error e, [], site⟩
  | .online => site.look site.cluster.online
  | .recovering => site.look site.cluster.recovering
  | .assignments => site.look site.cluster.assignments
  | .transitions => site.look site.cluster.transitions
  | .regionsOf table => site.look (site.cluster.regionsOf table)
  | .unassign region =>
    match site.cluster.unassign region with
    | .ok (ignored, cluster) =>
      ⟨.ok (), if ignored then [.pinHolds region] else [], { site with cluster }⟩
    | .error e => ⟨.error e, [], site⟩
  | .place p => ⟨.ok (), [], { site with cluster := site.cluster.place p }⟩
  | .plan snapshot => site.plan snapshot
  | .namespaces => site.look (site.namespaces.toList.map Prod.snd)
  | .namespaceOf name => site.look site.namespaces[name]?
  | .tableLock .. => site.look ()
  | .hook h =>
    match site.observer.hear h with
    | .ok observer => ⟨.ok (), [], { site with observer }⟩
    | .error e => ⟨.error e, [], site⟩

end Site

end ServerGroups
