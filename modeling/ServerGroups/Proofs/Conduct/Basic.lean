/-
ServerGroups/Proofs/Conduct/Basic.lean

One operation followed from its call, with the drain that it launches.

A `Conduct` is a moment together with what has been asked for so far, by the
operation and by its drain, each request with the world that it was asked in,
and with what the operation has come to.  Its steps are those of the moment:

    aside      something else happens
    answers    a request of the operation or its drain is answered
    ends       the operation ends
    stops      a pass of its drain ends, or what follows the last pass
    waits      the operation waits

Design.  No other operation is called in these moments, so the activity of an
operation is that of the one that is followed, and nothing has to tell two
calls of the same operation apart.  Whatever other operations do is part of
what may happen outside, between any two requests; drains of other moves run
as they do in every schedule.  All that is asked of what happens outside is
that it leaves alone the records of moves, but for new ones, and the note of
what the running operation has reserved.  To follow an operation restricts
nothing: there is a conduct for every schedule from its call
(`Conduct.reaches_iff`).
-/
import ServerGroups.Proofs.Drains.Course

namespace ServerGroups

open Program

/-- The request that a program comes to next, if it has not ended. -/
def Program.request? {α : Type} : Program α → Option Request
  | ask q _ => some q
  | _ => none

/-- The call that is asked for, if one is. -/
def Request.call? : Request → Option Call
  | .call c => some c
  | _ => none

/-- The hook that is called, if one is. -/
def Request.hook? : Request → Option Hook
  | .call (.hook h) => some h
  | _ => none

/-- Whether an agent is an operation. -/
def Agent.isOperation : Agent → Bool
  | operation _ => true
  | _ => false

/-- A request, who asked for it, and in which world. -/
structure Entry where
  agent : Agent
  world : World
  request : Request

namespace Entry

/-- The number of the drain that an operation launches, if it launches one. -/
def launches? (x : Entry) : Option Nat :=
  match x.agent, x.request with
  | .operation _, .launch .. => some x.world.moves.size
  | _, _ => none

end Entry

/-- The number of the drain that has been launched. -/
def Entry.drain? (entries : List Entry) : Option Nat := entries.findSome? launches?

/-- Whether an agent is the operation that is followed, or works on its drain. -/
def Agent.Own (entries : List Entry) : Agent → Prop
  | operation _ => True
  | pass number _ | finish number _ => Entry.drain? entries = some number

/-- An operation that is followed. -/
structure Conduct (o : Operation) where
  /-- What it and its drain have asked for, the latest first. -/
  entries : List Entry
  /-- What it has come to. -/
  outcome : Option (Outcome o.Answer)
  moment : Moment

/-- No operation is called, and what happens outside leaves alone the records of moves and what the
operation that is followed has reserved. -/
structure Setting.Follows (E : Setting) : Prop where
  called : ∀ o, ¬ E.called o
  moves : E.SparesMoves
  held : ∀ {w w' : World}, E.outside w w' → w'.held = w.held

/-- Nothing happens but the operation that is followed. -/
def Setting.alone : Setting := ⟨fun _ => False, fun _ => True, fun _ _ => False⟩

theorem Setting.follows_alone : Setting.alone.Follows := ⟨fun _ => id, False.elim, False.elim⟩

namespace Conduct

variable {o : Operation}

/-- An operation that has just been called. -/
def begin (w : World) (o : Operation) : Conduct o := ⟨[], none, ⟨w, some (.ofOperation o), []⟩⟩

/-- What has been asked for once an agent's program has come to its end. -/
def note (entries : List Entry) (w : World) (a : Agent) {α : Type} (rest : Program α) :
    List Entry :=
  match rest.request? with
  | some q => ⟨a, w, q⟩ :: entries
  | none => entries

variable (E : Setting)

/-- What may happen next to an operation that is followed. -/
inductive Step : Conduct o → Conduct o → Prop
  | aside {entries outcome m m'} (hs : m.Step E m')
      (hm : m'.running = m.running ∨ ∀ a, m.running = some a → ¬ a.agent.Own entries) :
      Step ⟨entries, outcome, m⟩ ⟨entries, outcome, m'⟩
  | answers {entries outcome w w' waiting agent owed request next answer}
      (ha : agent.Own entries) (h : w.meet request = (.answered answer, w')) :
      Step ⟨entries, outcome, ⟨w, some ⟨agent, owed, .ask request next⟩, waiting⟩⟩
        ⟨⟨agent, w, request⟩ :: entries, outcome,
          ⟨w', some ⟨agent, request.owed answer owed, next answer⟩, waiting⟩⟩
  | ends {entries outcome w w' waiting owed rest ended} (h : w.Ends rest ended w') :
      Step ⟨entries, outcome, ⟨w, some ⟨.operation o, owed, rest⟩, waiting⟩⟩
        ⟨note entries w (.operation o) rest, some (o.conclude (ended.outcome, w'.letGo)).1,
          .close w' waiting (.operation o) ended⟩
  | stops {entries outcome w w' waiting agent owed rest ended} (hd : agent.isOperation = false)
      (ha : agent.Own entries) (h : w.Ends rest ended w') :
      Step ⟨entries, outcome, ⟨w, some ⟨agent, owed, rest⟩, waiting⟩⟩
        ⟨note entries w agent rest, outcome, .close w' waiting agent ended⟩
  | waits {entries outcome w waiting owed request next} (h : request.pauses) :
      Step ⟨entries, outcome, ⟨w, some ⟨.operation o, owed, .ask request next⟩, waiting⟩⟩
        ⟨entries, outcome, ⟨w, none, ⟨.operation o, owed, .ask request next⟩ :: waiting⟩⟩

/-- What may have happened some time later. -/
abbrev Reaches : Conduct o → Conduct o → Prop := Relation.ReflTransGen (Step E)

/-- The calls that the operation and its drain have made, the latest first. -/
def calls (c : Conduct o) : List Call := c.entries.filterMap fun x => x.request.call?

variable {E} {c c' : Conduct o} {m m' : Moment}

/-- To follow an operation changes nothing of what may happen. -/
theorem Step.moment (h : c.Step E c') : c.moment.Step E c'.moment := by
  cases h with
  | aside hs => exact hs
  | answers ha h => exact .answers h
  | ends h => exact .ends h
  | stops hd ha h => exact .ends h
  | waits h => exact .waits h

theorem Reaches.moment (h : c.Reaches E c') : c.moment.Reaches E c'.moment := by
  induction h with
  | refl => exact .refl
  | tail _ hs ih => exact ih.tail hs.moment

/-- A program that ends does so at its latest request, which is noted, or without one. -/
theorem note_of_ends {entries : List Entry} {w w' : World} {waiting : List Activity} {a : Agent}
    {owed : Set Region} {rest : Program a.Result} {ended : Progress a.Result}
    (he : w.Ends rest ended w') :
    (note entries w a rest = entries ∧ ∀ b k reply,
      ¬ (⟨w, some ⟨a, owed, rest⟩, waiting⟩ : Moment).Calls b k reply (.close w' waiting a ended)) ∨
    ∃ q next, rest = ask q next ∧ note entries w a rest = ⟨a, w, q⟩ :: entries ∧
      ∀ k, q = .call k → ∃ reply, (⟨w, some ⟨a, owed, rest⟩, waiting⟩ : Moment).Calls a k reply
        (.close w' waiting a ended) := by
  -- a program that makes a call has not ended
  have hnone : ∀ {rest : Program a.Result} {ended : Progress a.Result},
      (∀ q next, rest ≠ ask q next) → ∀ b k reply,
        ¬ (⟨w, some ⟨a, owed, rest⟩, waiting⟩ : Moment).Calls b k reply
          (.close w' waiting a ended) := by
    intro rest ended hrest b k reply hc
    obtain ⟨_, _, hrun, -⟩ := hc.before
    cases hrun
    exact hrest _ _ rfl
  cases he with
  | returned => exact .inl ⟨rfl, hnone (by simp)⟩
  | refused => exact .inl ⟨rfl, hnone (by simp)⟩
  | failed hm => exact .inr ⟨_, _, rfl, rfl, by rintro k rfl; exact ⟨_, .failed hm⟩⟩
  | crashed hm => exact .inr ⟨_, _, rfl, rfl, by rintro k rfl; exact ⟨_, .crashed hm⟩⟩

/-- On every step either nothing of the operation or its drain is met, or one request of theirs is,
and is noted. -/
theorem Step.entries (h : c.Step E c') :
    (c'.entries = c.entries ∧ ∀ a k reply, c.moment.Calls a k reply c'.moment →
      ¬ a.Own c.entries) ∨
    ∃ a owed q next, a.Own c.entries ∧ c.moment.running = some ⟨a, owed, .ask q next⟩ ∧
      c'.entries = ⟨a, c.moment.world, q⟩ :: c.entries ∧
      ∀ k, q = .call k → ∃ reply, c.moment.Calls a k reply c'.moment := by
  have hends : ∀ {entries w w' waiting a owed ended} {rest : Program a.Result},
      a.Own entries → w.Ends rest ended w' →
      (note entries w a rest = entries ∧ ∀ b k reply,
        (⟨w, some ⟨a, owed, rest⟩, waiting⟩ : Moment).Calls b k reply (.close w' waiting a ended) →
          ¬ b.Own entries) ∨
      ∃ b owed' q next, b.Own entries ∧
        (some ⟨a, owed, rest⟩ : Option Activity) = some ⟨b, owed', .ask q next⟩ ∧
        note entries w a rest = ⟨b, w, q⟩ :: entries ∧ ∀ k, q = .call k → ∃ reply,
          (⟨w, some ⟨a, owed, rest⟩, waiting⟩ : Moment).Calls b k reply
            (.close w' waiting a ended) := by
    intro entries w w' waiting a owed ended rest ha he
    rcases note_of_ends he with ⟨hsame, hnot⟩ | ⟨q, next, rfl, hnoted, hcalls⟩
    · exact .inl ⟨hsame, fun b k reply hc => absurd hc (hnot b k reply)⟩
    · exact .inr ⟨a, owed, q, next, ha, rfl, hnoted, hcalls⟩
  cases h with
  | aside hs hm =>
    refine .inl ⟨rfl, fun a k reply hc hown => ?_⟩
    obtain ⟨owed, next, hrun, -⟩ := hc.before
    exact hm.elim hc.running_ne fun hm => hm _ hrun hown
  | answers ha hm =>
    exact .inr ⟨_, _, _, _, ha, rfl, rfl, by rintro k rfl; exact ⟨_, .answered hm⟩⟩
  | ends he => exact hends trivial he
  | stops hd ha he => exact hends ha he
  | waits hq =>
    refine .inl ⟨rfl, fun a k reply hc => ?_⟩
    obtain ⟨owed, next, hrun, -⟩ := hc.before
    cases hrun
    cases hq

end Conduct

end ServerGroups
