/-
ServerGroups/Proofs/Commands.lean

Commands do what other operations do.

A command reports itself, and then it returns or is refused at once, or it does
one of the other operations and passes its answer on (`Command.does`).  So what
is kept by reporting and by passing answers on holds of every operation, if it
holds of those that are no commands (`Operation.program_of`).
-/
import ServerGroups.Operation

namespace ServerGroups

open Program

namespace Command

/-- The operation that a command does, if it does one. -/
def operation? : Command → Option Operation
  | getGroup name => some (.getGroup name)
  | getGroupOfTable table => some (.getGroupOfTable table)
  | getGroupOfServer server => some (.getGroupOfServer server)
  | listGroups => some .listGroups
  | addGroup name => some (.addGroup name)
  | removeGroup name => some (.removeGroup name)
  | moveServers (some servers) (some target) =>
    if servers.size = 0 ∨ target = "" then none else some (.moveServers servers target)
  | moveTables (some tables) target => some (.moveTables tables target)
  | moveServers .. | moveTables .. => none
  | balanceGroup name => some (.balance name)

/-- What a command does after its report. -/
inductive Does : Option Operation → Program Response → Prop
  | returns (response : Response) : Does none (pure response)
  | refuses (cause : Refusal) : Does none (refuse cause)
  | operates (o : Operation) (respond : o.Answer → Response) :
      Does (some o) (o.program >>= fun answer => pure (respond answer))

theorem does (c : Command) : Does c.operation? c.perform := by
  cases c with
  | getGroup name => exact .operates (.getGroup name) .group
  | getGroupOfTable table => exact .operates (.getGroupOfTable table) .group
  | getGroupOfServer server => exact .operates (.getGroupOfServer server) .group
  | listGroups => exact .operates .listGroups .groups
  | addGroup name => exact .operates (.addGroup name) fun _ => .done
  | removeGroup name => exact .operates (.removeGroup name) fun _ => .done
  | balanceGroup name => exact .operates (.balance name) .balanced
  | moveTables tables target =>
    rcases tables with - | tables
    · exact .refuses _
    · exact .operates (.moveTables tables target) fun _ => .done
  | moveServers servers target =>
    rcases servers with - | servers
    · exact .refuses _
    -- no servers are moved anywhere, so then it does not matter whether there is a target
    by_cases hnone : servers.size = 0
    · rcases target with - | target <;> simp only [operation?, perform, hnone, true_or, if_true]
      · exact .returns _
      · exact .returns _
    rcases target with - | target
    · simp only [perform, hnone, if_false]
      exact .refuses _
    by_cases htarget : target = ""
    · subst htarget
      simp only [operation?, perform, hnone, or_true, if_true, if_false]
      exact .refuses _
    · simp only [operation?, perform, hnone, htarget, or_self, if_false]
      exact .operates (.moveServers servers target) fun _ => .done

theorem operation?_ne_execute {c c' : Command} : c.operation? ≠ some (.execute c') := by
  cases c with
  | moveServers servers target =>
    rcases servers with - | servers <;> rcases target with - | target <;> simp [operation?]
  | moveTables tables target => cases tables <;> simp [operation?]
  | _ => simp [operation?]

end Command

namespace Operation

/-- The operation that is done in the end: a command's own, and any other one itself. -/
def core? : Operation → Option Operation
  | execute c => c.operation?
  | o => some o

theorem core?_ne_execute {o : Operation} {c : Command} : o.core? ≠ some (.execute c) := by
  cases o with
  | execute c' => exact Command.operation?_ne_execute
  | _ => simp [core?]

/-- What holds of the operation that is done in the end holds of the whole one, if it holds of what
ends at once and is kept by passing answers on and by reports. -/
theorem program_of {motive : ∀ {α : Type}, Program α → Prop} (o : Operation)
    (returns : ∀ response : Response, motive (pure response))
    (refuses : ∀ cause, motive (refuse cause : Program Response))
    (responds : ∀ {α : Type} {p : Program α} (respond : α → Response), motive p →
      motive (p >>= fun answer => pure (respond answer)))
    (reports : ∀ {p : Program Response} (n : Notice), motive p → motive (note n >>= fun _ => p))
    (core : ∀ o', o.core? = some o' → (∀ c, o' ≠ .execute c) → motive o'.program) :
    motive o.program := by
  have hcore : ∀ o', o.core? = some o' → motive o'.program := fun o' ho' =>
    core o' ho' fun c hc => core?_ne_execute (hc ▸ ho')
  cases o with
  | execute c =>
    refine reports _ ?_
    have hdoes := c.does
    change ∀ o', c.operation? = some o' → _ at hcore
    generalize c.operation? = o?, c.perform = p at hdoes hcore
    cases hdoes with
    | returns response => exact returns response
    | refuses cause => exact refuses cause
    | operates o' respond => exact responds respond (hcore o' rfl)
  | _ => exact hcore _ rfl

end Operation

end ServerGroups
