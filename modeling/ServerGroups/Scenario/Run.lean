/-
ServerGroups/Scenario/Run.lean

Running a scenario step by step.

After every step the passes that are due by then run, so the state between two
steps has no pass due.
-/
import ServerGroups.Guards
import ServerGroups.Scenario.Step

namespace ServerGroups

/-- Why a step has no answer. -/
inductive Failure where
  /-- The coordinator refused the operation, or could not complete it. -/
  | coordinator (cause : Error)
  /-- A service that was called directly failed. -/
  | service (cause : ServiceError)
  /-- The step waited too long and was given up. -/
  | blocked

/-- A world between two steps, and what the steps before have labelled. -/
structure Scenario where
  world : World
  /-- The numbers of labelled moves; a move of no servers was over at once and has none. -/
  moves : Std.ExtTreeMap String (Option Nat)
  guards : Guards

namespace Scenario

/-- A scenario that starts with some servers online and in the group `default`. -/
def start (c : Config) (servers : ServerSet) (observer : Observer) : Scenario :=
  ⟨.start c (.ofServers servers observer), ∅, .none⟩

/-- What became of an operation, as the answer of a step. -/
def answer {α : Type} : Outcome α → Except Failure α
  | .returned result => .ok result
  | .failed cause => .error (.coordinator cause)
  | .crashed => .error (.coordinator .internal)
  | .givenUp => .error .blocked

/-- How far the move of a number has come; a move without a number is over. -/
def phaseOf (w : World) : Option Nat → Phase
  | some number => (w.moves[number]?.map Move.phase).getD .settled
  | none => .settled

/-- Runs a program on the world of a scenario. -/
def perform {α : Type} (s : Scenario) (p : Program α) : Except Failure α × Scenario :=
  let (outcome, world) := s.world.perform p
  (answer outcome, { s with world })

/-- Starts a move and labels it, if it is not refused. -/
def startMove (s : Scenario) (label : String) (servers : ServerSet) (target : String) :
    Except Failure Phase × Scenario :=
  match s.perform (Coordinator.startMove servers target) with
  | (.ok number, s) =>
    (.ok (phaseOf s.world number), { s with moves := s.moves.insert label number })
  | (.error failure, s) => (.error failure, s)

/-- Waits for a labelled move; tells whether there was one. -/
def awaitMove (s : Scenario) (label : String) : Except Failure Bool × Scenario :=
  match s.moves[label]? with
  | none => (.ok false, s)
  | some handle =>
    let s := { s with moves := s.moves.erase label }
    match handle with
    | none => (.ok true, s)
    | some number =>
      let (ended, s) := s.perform (Coordinator.awaitMove number)
      (ended.map fun _ => true, s)

/-- Reserves servers under a label. -/
def reserve (s : Scenario) (label : String) (servers : ServerSet) (target : String) :
    Except Failure Unit × Scenario :=
  match s.guards.reserve s.world.reservations label servers target with
  | .ok (guards, reservations) =>
    (.ok (), { s with world := { s.world with reservations }, guards })
  | .error cause => (.error (.coordinator (.refused cause)), s)

/-- Gives back the servers reserved under a label. -/
def release (s : Scenario) (label : String) : Bool × Scenario :=
  let (found, guards, reservations) := s.guards.drop s.world.reservations label
  (found, { s with world := { s.world with reservations }, guards })

/-- Takes every lock from a holder; tells whether there was any. -/
def releaseLocks (s : Scenario) (holder : Holder) : Bool × Scenario :=
  (s.world.locks.holds holder,
    { s with world := { s.world with locks := s.world.locks.releaseAll holder } })

/-- Lets time pass; a sleep that is too long is given up. -/
def sleep (s : Scenario) (milliseconds : Nat) : Except Failure Unit × Scenario :=
  let wake := s.world.now + min milliseconds World.patience
  (if milliseconds ≤ World.patience then .ok () else .error .blocked,
    { s with world := s.world.sleepUntil wake })

/-- Lets a recording observer refuse a hook. -/
def refuseHook (name : String) : Observer → Observer
  | .recording recorder => .recording { recorder with refuses := some name }
  | o => o

/-- The scenario with other services. -/
def withSite (s : Scenario) (site : Site) : Scenario := { s with world := { s.world with site } }

/-- Takes the lock of a table. -/
def lockTable (s : Scenario) (t : TableName) (shared : Bool) (label : String) :
    Except Failure Unit × Scenario :=
  s.perform do
    Program.ask (.lock (.table t) shared (.guest label)) Program.done
    if !shared then Program.note (.tableLocked t "scenario")

/-- Takes a step. -/
def take (s : Scenario) : (x : Step) → Except Failure x.Answer × Scenario
  | .operate o =>
    let (outcome, world) := s.world.operate o
    (answer outcome, { s with world })
  | .startMove label servers target => s.startMove label servers target
  | .phase label => (.ok (s.moves[label]?.map (phaseOf s.world)), s)
  | .awaitMove label => s.awaitMove label
  | .forgetMove label => (.ok (s.moves.contains label), { s with moves := s.moves.erase label })
  | .reserve label servers target => s.reserve label servers target
  | .release label => let (found, s) := s.release label; (.ok found, s)
  | .holdPlacement => s.perform (Program.ask (.lock .placement false .planner) Program.done)
  | .freePlacement => let (found, s) := s.releaseLocks .planner; (.ok found, s)
  | .sleep milliseconds => s.sleep milliseconds
  | .fault f => (.ok (), { s with world := { s.world with faults := s.world.faults ++ [f] } })
  | .heal => (.ok (), { s with world := { s.world with faults := [] } })
  | .refuseHook name =>
    (.ok (), s.withSite { s.world.site with observer := refuseHook name s.world.site.observer })
  | .script plans =>
    (.ok (), s.withSite { s.world.site with script := s.world.site.script ++ plans })
  | .call c =>
    let (served, world) := s.world.serve c
    (served.mapError .service, { s with world })
  | .change c => (.ok (), s.withSite (s.world.site.change c))
  | .spread t server count stem =>
    (.ok (), s.withSite ((Change.spread t server count stem).foldl Site.change s.world.site))
  | .assignmentOf r => (.ok s.world.site.cluster.assignments[r]?, s)
  | .regionsOn server => (.ok (s.world.site.cluster.regionsOn server), s)
  | .strays => (.ok s.world.site.cluster.strays, s)
  | .unassigned => (.ok (s.world.history.unassigned.toList.map Prod.snd), s)
  | .snapshots => (.ok s.world.site.snapshots.toList, s)
  | .lockTable t shared label => s.lockTable t shared label
  | .unlockTable label => let (found, s) := s.releaseLocks (.guest label); (.ok found, s)
  | .isLocked t => (.ok (s.world.locks.isExclusive (.table t)), s)

/-- Takes a step, and lets the passes run that are due then. -/
def step (s : Scenario) (x : Step) : Except Failure x.Answer × Scenario :=
  let (answer, s) := s.take x
  (answer, { s with world := s.world.settle })

end Scenario

end ServerGroups
