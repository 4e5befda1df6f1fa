/-
ServerGroups/Proofs/Conduct/Monitors.lean

Laws that go by a state of their own.

A `Monitor` reads the requests of an operation and what each was answered, and
keeps a state; which request may come next is told from this state.  What a
program ensures by the rule of a monitor it ensures as a law
(`Monitor.ensures_law`), so it is kept along the conduct of its operation.

    launching   the number of the drain that has been launched: from then on
                an operation does nothing but wait for it, and report
    staging     the stage of the operation, as it is told from its requests
-/
import ServerGroups.Proofs.Commands
import ServerGroups.Proofs.Conduct.Tracking
import ServerGroups.Proofs.Exclusion.Stages

namespace ServerGroups

open Program

/-! ### Monitors -/

/-- A state that is kept along the requests of an operation. -/
structure Monitor (σ : Type) where
  start : σ
  /-- Which request may be made in a state. -/
  fits : σ → Request → Prop
  /-- The state after a request has been answered. -/
  next : σ → (q : Request) → q.Answer → σ

namespace Monitor

variable {σ α : Type} (M : Monitor σ)

/-- Every request is made in a state that it fits. -/
def rule : Rule σ where
  ask q post st := M.fits st q ∧ ∀ answer, post answer (M.next st q answer)
  fail _ _ := True

theorem rule_monotone : M.rule.Monotone := fun h hask => ⟨hask.1, fun a => h a _ (hask.2 a)⟩

/-- The state after some requests. -/
def after : Asked → σ
  | [] => M.start
  | x :: before =>
    match (x.1.meet x.2).1 with
    | .answered answer => M.next (after before) x.2 answer
    | _ => after before

/-- What a monitor allows, as a law. -/
def law (post : α → σ → Prop) : Law α :=
  ⟨fun asked q => M.fits (M.after asked) q, fun a asked => post a (M.after asked)⟩

variable {M}

theorem after_cons {w w' : World} {q : Request} {answer : q.Answer} {asked : Asked}
    (h : w.meet q = (.answered answer, w')) :
    M.after ((w, q) :: asked) = M.next (M.after asked) q answer := by
  simp only [after, h]

/-- A program that keeps to a monitor obeys its law. -/
theorem ensures_law {post : α → σ → Prop} {p : Program α} : ∀ {asked : Asked},
    p.Ensures M.rule post (M.after asked) →
      p.Ensures (noting (M.law post).next) (M.law post).final asked := by
  induction p with
  | done a => exact id
  | fail cause => exact fun _ => trivial
  | ask q next ih =>
    rintro asked ⟨hfits, hnext⟩
    refine ⟨hfits, fun w answer w' h => ih answer ?_⟩
    rw [after_cons h]
    exact hnext answer

/-- An operation whose program keeps to a monitor keeps to it in every schedule. -/
theorem tracked {E : Setting} {o : Operation} {w : World} {c : Conduct o}
    {post : o.Answer → σ → Prop} (hE : E.Follows) (hp : o.program.Ensures M.rule post M.start)
    (h : (Conduct.begin w o).Reaches E c) : c.Tracked (M.law post) :=
  Conduct.tracked hE (ensures_law hp) h

end Monitor

/-- What an operation asks for fits the state of a monitor that it keeps to. -/
theorem Conduct.Tracked.fits {σ : Type} {M : Monitor σ} {o : Operation} {c : Conduct o}
    {post : o.Answer → σ → Prop} (h : c.Tracked (M.law post)) {a : Agent} {owed : Set Region}
    {q : Request} {next : q.Answer → Program a.Result}
    (hrun : c.moment.running = some ⟨a, owed, .ask q next⟩) (ha : a.isOperation = true) :
    M.fits (M.after (Entry.asked c.entries)) q :=
  h.request hrun ha

/-! ### Stages -/

/-- The stage of an operation (`Stage`), told from its requests. -/
def staging : Monitor Stage where
  start := .free
  fits := Stage.Fits
  next st q _ := st.next q

/-! ### Launches -/

/-- Whether a request launches a drain. -/
def Request.launches : Request → Bool
  | .launch .. => true
  | _ => false

/-- The number of the drain that an operation has launched; it then waits for this drain only. -/
def launching : Monitor (Option Nat) where
  start := none
  fits
    | none, _ => True
    | some number, q => q = .join number ∨ ∃ n, q = .note n
  next
    | _, .launch .., number => some number
    | launched, _, _ => launched

/-- What the law of launches allows. -/
abbrev Asked.Launched (asked : Asked) : Prop :=
  asked.Lawful fun asked q => launching.fits (launching.after asked) q

/-- After a launch nothing is asked for but the end of the drain. -/
theorem launched_awaits {asked : Asked} {w : World} {q : Request} {number : Nat}
    (h : Asked.Launched ((w, q) :: asked)) (hn : launching.after asked = some number) :
    q = .join number ∨ ∃ n, q = .note n := by
  have hfits : launching.fits (launching.after asked) q := h.1
  rw [hn] at hfits
  exact hfits

/-- What has been launched is remembered. -/
theorem launched_of_mem {asked : Asked} {w : World} {servers : ServerSet} {source target : String}
    (h : asked.Launched) (hlaunch : (w, Request.launch servers source target) ∈ asked) :
    launching.after asked = some w.moves.size := by
  induction asked with
  | nil => exact absurd hlaunch List.not_mem_nil
  | cons x before ih =>
    rcases List.mem_cons.1 hlaunch with rfl | hbefore
    · rfl
    · obtain ⟨v, q⟩ := x
      have hn := ih h.2.2 hbefore
      rw [Monitor.after]
      split
      · rcases launched_awaits h hn with rfl | ⟨n, rfl⟩ <;> exact hn
      · exact hn

/-- The state of this monitor is told from what is noted of an operation. -/
theorem launching_after : ∀ entries : List Entry,
    launching.after (Entry.asked entries) = Entry.drain? entries
  | [] => rfl
  | ⟨a, w, q⟩ :: entries => by
    have ih := launching_after entries
    cases a with
    | operation o =>
      rw [Entry.asked_operation, Monitor.after, ih]
      cases q with
      | launch servers source target => rfl
      | _ =>
        simp only [Entry.drain?, List.findSome?_cons, Entry.launches?]
        split <;> rfl
    | _ =>
      rw [Entry.asked_drain rfl, ih]
      rfl

/-- A program that launches no drain. -/
abbrev Program.Grounded {α : Type} (p : Program α) : Prop :=
  p.Only (fun q => q.launches = false) fun _ => True

section Grounded

variable {α β : Type} {launched : Option Nat}

theorem Request.launches_of_usual {q : Request} (hq : q.usual = true) : q.launches = false := by
  cases q <;> first | rfl | cases hq

theorem launching_next {q : Request} (hq : q.launches = false) (answer : q.Answer) :
    launching.next launched q answer = launched := by
  cases q <;> first | rfl | cases hq

/-- Before a drain is launched nothing is asked of a program, and while none is, none has been. -/
theorem launching_of_grounded {p : Program α} (h : p.Grounded) :
    p.Ensures launching.rule (fun _ launched => launched = none) none := by
  refine h.ensures (fun {q post} hq hpost => ⟨trivial, fun answer => ?_⟩) fun _ _ => trivial
  rw [launching_next hq]
  exact hpost answer

/-- A program that launches no drain comes first. -/
theorem launching_bind {p : Program α} {f : α → Program β} {post : β → Option Nat → Prop}
    (hp : p.Grounded) (hf : ∀ a, (f a).Ensures launching.rule post none) :
    (p >>= f).Ensures launching.rule post none := by
  rw [ensures_bind]
  refine (launching_of_grounded hp).mono launching.rule_monotone ?_
  rintro a _ rfl
  exact hf a

end Grounded

namespace Coordinator

/-- A move that is started answers the number of the drain that it has launched. -/
theorem launching_startMove (servers : ServerSet) (target : String) :
    (startMove servers target).Ensures launching.rule
      (fun number launched => launched = number) none := by
  unfold startMove
  split
  · exact launching_bind (Only.note (by rfl)) fun _ => rfl
  · refine launching_bind (Only.ask (by rfl)) fun reserved => ?_
    split
    · trivial
    · refine launching_bind (Only.ask (by rfl)) fun _ => ?_
      exact launching_bind (only_changeMembership (fun _ => Request.launches_of_usual) _ target
        (fun _ => rfl) fun _ _ => rfl) fun groups => ⟨trivial, fun number => rfl⟩

/-- Only the drain that has been launched is waited for. -/
theorem launching_awaitMove (number : Nat) : (awaitMove number).Ensures launching.rule
    (fun _ launched => launched = some number) (some number) := by
  refine ⟨.inl rfl, fun ending => ?_⟩
  rcases (ending : Ending) with - | cause | -
  · exact rfl
  · trivial
  · exact ⟨.inr ⟨_, rfl⟩, fun _ => trivial⟩

theorem launching_moveServers (servers : ServerSet) (target : String) :
    (moveServers servers target).Ensures launching.rule (fun _ _ => True) none := by
  unfold moveServers
  rw [ensures_bind]
  refine (launching_startMove servers target).mono launching.rule_monotone ?_
  rintro (- | number) _ rfl
  · trivial
  · exact (launching_awaitMove number).mono launching.rule_monotone fun _ _ _ => trivial

end Coordinator

open Coordinator

/-- After an operation has launched a drain it does nothing but wait for it, and report. -/
theorem Operation.awaits_launched (o : Operation) :
    o.program.Ensures launching.rule (fun _ _ => True) none := by
  have hP : ∀ q : Request, q.usual = true → q.launches = false := fun _ => Request.launches_of_usual
  have hgrounded : ∀ {α : Type} {p : Program α}, p.Grounded →
      p.Ensures launching.rule (fun _ _ => True) none := fun h =>
    (launching_of_grounded h).mono launching.rule_monotone fun _ _ _ => trivial
  refine o.program_of (motive := fun {_} p => p.Ensures launching.rule (fun _ _ => True) none)
    (fun _ => trivial) (fun _ => trivial) (fun _ h => ensures_bind.2 h)
    (fun n h => launching_bind (Only.note (hP (.note n) rfl)) fun _ => h) fun o _ ho => ?_
  cases o with
  | moveServers servers target => exact launching_moveServers servers target
  | startMove servers target =>
    exact (launching_startMove servers target).mono launching.rule_monotone fun _ _ _ => trivial
  | getGroup name => exact hgrounded (only_getGroup hP name)
  | getGroupOfServer s => exact hgrounded (only_getGroupOfServer hP s)
  | getGroupOfTable t => exact hgrounded (only_getGroupOfTable hP t)
  | listGroups => exact hgrounded (only_listGroups hP)
  | addGroup name => exact hgrounded (only_addGroup hP rfl)
  | removeGroup name => exact hgrounded (only_removeGroup hP rfl)
  | awaitMove number => exact hgrounded (only_awaitMove hP rfl)
  | moveTables tables goal => exact hgrounded (only_moveTables hP rfl)
  | prepareTable t => exact hgrounded (only_prepareTable hP fun _ => rfl)
  | forgetTable t => exact hgrounded (only_forgetTable hP rfl)
  | balance name => exact hgrounded (only_balance hP name)
  | execute c => exact absurd rfl (ho c)

end ServerGroups
