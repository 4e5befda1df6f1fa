/-
ServerGroups/Proofs/Schedule/Basic.lean

All the ways in which a coordinator can be at work: any number of operations
and drains, and whatever happens around them.

A `Moment` is a world together with the activity that runs in it, if one does,
and the operations that wait.  Between two moments one of these happens:

    outside     something changes that is not the coordinator's doing
    ticks       time passes
    begins      an operation is called
    drains      a drain that has not ended starts its next pass
    answers     a request of the running activity is met
    ends        the running activity ends: it returns, fails or crashes
    waits       an operation that asks for a lock or for the end of a drain waits
    resumes     an operation that has waited goes on
    drops       an operation that has waited is given up

Design.  An activity runs alone from one request to the next, but anything may
happen outside between any two requests of it, and at each request for a lock
or for the end of a drain other activities may come first, any number of them
and in any order.  A pass may run whenever nothing else does, however short
the wait since the one before; so what holds at every moment does not depend
on the clock.
-/
import Mathlib.Tactic
import ServerGroups.Operation

namespace ServerGroups

/-! ### Activities -/

/-- Whether a request may have to wait: it asks for a lock or for the end of a drain. -/
def Request.pauses : Request → Bool
  | .lock .. | .join _ => true
  | _ => false

/-- The regions that an operation has yet to unassign once a request is answered, of those that it
had to before: every region of the tables that it has pinned elsewhere, then those that are listed
for a table, and a region no more once it has been asked to be unassigned. -/
def Request.owed : (q : Request) → q.Answer → Set Region → Set Region
  | .call (.moveTables tables _), _, owed => owed ∪ {r | r.table ∈ tables}
  | .call (.regionsOf t), (listed : List Region), owed => {r ∈ owed | r.table = t → r ∈ listed}
  | .call (.unassign r), _, owed => owed \ {r}
  | _, _, owed => owed

/-- Who runs: an operation, a pass of a drain, or what follows the last pass of one. -/
inductive Agent where
  | operation (operation : Operation)
  | pass (number : Nat) (move : Move)
  | finish (number : Nat) (move : Move)

/-- What the program of an agent results in. -/
abbrev Agent.Result : Agent → Type
  | operation o => o.Answer
  | pass .. => List ServerAddress
  | finish .. => Unit

/-- An agent, with what is left of its program. -/
structure Activity where
  agent : Agent
  /-- The regions that it has yet to unassign because it has moved their tables. -/
  owed : Set Region
  rest : Program agent.Result

/-- An operation that has just been called. -/
def Activity.ofOperation (o : Operation) : Activity := ⟨.operation o, ∅, o.program⟩

/-- The next pass of a drain. -/
def Activity.ofPass (c : Config) (number : Nat) (m : Move) : Activity :=
  ⟨.pass number m, ∅, Coordinator.drainPass c m⟩

/-- What follows the last pass of a drain. -/
def Activity.ofFinish (number : Nat) (m : Move) : Activity :=
  ⟨.finish number m, ∅, Coordinator.finishMove m⟩

/-- What a program that has ended came to, as the outcome of an operation. -/
def Progress.outcome {α : Type} : Progress α → Outcome α
  | returned result => .returned result
  | failed cause => .failed cause
  | crashed => .crashed
  | waiting _ => .givenUp

/-! ### Moments -/

/-- A world, what runs in it and what waits. -/
structure Moment where
  world : World
  running : Option Activity
  waiting : List Activity

/-- A world in which nothing runs and nothing waits. -/
def Moment.still (w : World) : Moment := ⟨w, none, []⟩

/-- What some activities have yet to unassign. -/
def Activity.debts (activities : List Activity) : Set Region :=
  {r | ∃ a ∈ activities, r ∈ a.owed}

/-- What runs or waits. -/
def Moment.activities (m : Moment) : List Activity := m.running.toList ++ m.waiting

/-- The moment after an activity has ended. -/
def Moment.close (w : World) (waiting : List Activity) : (a : Agent) → Progress a.Result → Moment
  | .operation o, ended => ⟨(o.conclude (ended.outcome, w.letGo)).2, none, waiting⟩
  | .pass number m, .returned [] =>
    ⟨w.setMove number m.settle, some (.ofFinish number m.settle), waiting⟩
  | .pass number m, ended => ⟨w.passed number m ended, none, waiting⟩
  | .finish number m, ended => ⟨w.finished number m ended, none, waiting⟩

/-- A program ends where it stands. -/
inductive World.Ends {α : Type} : World → Program α → Progress α → World → Prop
  | returned {w result} : Ends w (.done result) (.returned result) w
  | refused {w cause} : Ends w (.fail cause) (.failed cause) w
  | failed {w w' request next cause} (h : w.meet request = (.failed cause, w')) :
      Ends w (.ask request next) (.failed cause) w'
  | crashed {w w' request next} (h : w.meet request = (.crashed, w')) :
      Ends w (.ask request next) .crashed w'

/-- Which operations may be called, which may be given up while they wait, and what may happen
outside the coordinator. -/
structure Setting where
  called : Operation → Prop
  abandoned : Activity → Prop
  outside : World → World → Prop

namespace Moment

variable (E : Setting)

/-- What may happen next. -/
inductive Step : Moment → Moment → Prop
  | outside {w w' running waiting} (h : E.outside w w') :
      Step ⟨w, running, waiting⟩ ⟨w', running, waiting⟩
  | ticks {w running waiting} (time : Nat) :
      Step ⟨w, running, waiting⟩ ⟨w.advance time, running, waiting⟩
  | begins {w waiting o} (h : E.called o) :
      Step ⟨w, none, waiting⟩ ⟨w, some (.ofOperation o), waiting⟩
  | drains {w waiting number m} (hm : w.moves[number]? = some m) (he : m.ending = none) :
      Step ⟨w, none, waiting⟩
        ⟨w.setMove number m.drain, some (.ofPass w.config number m.drain), waiting⟩
  | answers {w w' waiting agent owed request next answer}
      (h : w.meet request = (.answered answer, w')) :
      Step ⟨w, some ⟨agent, owed, .ask request next⟩, waiting⟩
        ⟨w', some ⟨agent, request.owed answer owed, next answer⟩, waiting⟩
  | ends {w w' waiting agent owed rest ended} (h : w.Ends rest ended w') :
      Step ⟨w, some ⟨agent, owed, rest⟩, waiting⟩ (close w' waiting agent ended)
  | waits {w waiting o owed request next} (h : request.pauses) :
      Step ⟨w, some ⟨.operation o, owed, .ask request next⟩, waiting⟩
        ⟨w, none, ⟨.operation o, owed, .ask request next⟩ :: waiting⟩
  | resumes {w before activity after} :
      Step ⟨w, none, before ++ activity :: after⟩ ⟨w, some activity, before ++ after⟩
  | drops {w before activity after} (h : E.abandoned activity) :
      Step ⟨w, none, before ++ activity :: after⟩ ⟨w.letGo, none, before ++ after⟩

/-- What may have happened some time later. -/
abbrev Reaches : Moment → Moment → Prop := Relation.ReflTransGen (Step E)

end Moment

end ServerGroups
