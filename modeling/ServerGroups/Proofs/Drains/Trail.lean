/-
ServerGroups/Proofs/Drains/Trail.lean

What is seen of a drain on the trail of a run.

A `Trail` is a run with each of its steps, the latest first.  Four things can
be seen of the drain of a move on it:

    a call of a pass fails       `FailsAt`
    a call crashes               `CrashesAt`
    a pass finds nothing         `Clears`
    the last hook is replied     `HearsAt`

A pass finds nothing if it returns and has come to no request to unassign a
region since it began (`Unasked`).  `Seen` sums up which of the four have been
on a trail.

Design.  A step is a pair of moments, so what is seen on it is told from who
ran before it, for what they asked, and who runs after it.
-/
import ServerGroups.Proofs.Exclusion.Lawful

namespace ServerGroups

open Program

/-! ### Trails -/

namespace Moment

/-- A run from a moment with its steps, each with what was before and after it, the latest first. -/
inductive Trail (E : Setting) (start : Moment) : List (Moment × Moment) → Moment → Prop
  | start : Trail E start [] start
  | step {steps m m'} (h : Trail E start steps m) (hs : m.Step E m') :
      Trail E start ((m, m') :: steps) m'

/-- A step is the reply to a call of an agent. -/
inductive Calls (a : Agent) (c : Call) : Reply c.Answer → Moment → Moment → Prop
  | answered {w w' waiting owed next answer} (h : w.meet (.call c) = (.answered answer, w')) :
      Calls a c (.answered answer) ⟨w, some ⟨a, owed, .ask (.call c) next⟩, waiting⟩
        ⟨w', some ⟨a, Request.owed (.call c) answer owed, next answer⟩, waiting⟩
  | failed {w w' waiting owed next cause} (h : w.meet (.call c) = (.failed cause, w')) :
      Calls a c (.failed cause) ⟨w, some ⟨a, owed, .ask (.call c) next⟩, waiting⟩
        (close w' waiting a (.failed cause))
  | crashed {w w' waiting owed next} (h : w.meet (.call c) = (.crashed, w')) :
      Calls a c .crashed ⟨w, some ⟨a, owed, .ask (.call c) next⟩, waiting⟩
        (close w' waiting a .crashed)

end Moment

/-- An agent works on the drain of a move. -/
def Agent.Serves (number : Nat) : Agent → Prop
  | operation _ => False
  | pass n _ => n = number
  | finish n _ => n = number

variable {E : Setting} {m m' : Moment} {a : Agent} {c : Call} {reply : Reply c.Answer}
variable {number : Nat} {servers : ServerSet} {target : String} {cause : Error}
variable {steps : List (Moment × Moment)} {x : Moment × Moment}

theorem Moment.Trail.reaches {m₀ : Moment} (h : Trail E m₀ steps m) : Reaches E m₀ m := by
  induction h with
  | start => exact .refl
  | step _ hs ih => exact ih.tail hs

/-- A step, and a trail that goes on from there. -/
theorem Moment.Trail.head {m₀ m₁ : Moment} (hs : m₀.Step E m₁) (h : Trail E m₁ steps m) :
    Trail E m₀ (steps ++ [(m₀, m₁)]) m := by
  induction h with
  | start => exact .step .start hs
  | step _ hs' ih => exact ih.step hs'

/-- Every run has a trail. -/
theorem Moment.Reaches.trail {m₀ : Moment} (h : Reaches E m₀ m) : ∃ steps, Trail E m₀ steps m := by
  induction h with
  | refl => exact ⟨[], .start⟩
  | tail _ hs ih =>
    obtain ⟨steps, h⟩ := ih
    exact ⟨_, h.step hs⟩

/-! ### Calls -/

/-- No program goes on to where it is: programs are finite. -/
theorem Program.next_ne {α : Type} {q : Request} {next : q.Answer → Program α} (answer : q.Answer) :
    next answer ≠ .ask q next := by
  suffices h : ∀ (p : Program α) (q : Request) (next : q.Answer → Program α) (answer : q.Answer),
      p = next answer → p ≠ .ask q next from h _ q next answer rfl
  intro p
  induction p with
  | done result => exact fun _ _ _ _ h => by cases h
  | fail cause => exact fun _ _ _ _ h => by cases h
  | ask q' next' ih =>
    rintro q next answer hnext h
    cases h
    exact ih answer q' next' answer rfl hnext.symm

/-- Who calls, and what they are replied, is told from the moment before. -/
theorem Moment.Calls.before (h : m.Calls a c reply m') : ∃ owed next,
    m.running = some ⟨a, owed, .ask (.call c) next⟩ ∧ (m.world.meet (.call c)).1 = reply := by
  cases h with
  | answered h => exact ⟨_, _, rfl, congrArg Prod.fst h⟩
  | failed h => exact ⟨_, _, rfl, congrArg Prod.fst h⟩
  | crashed h => exact ⟨_, _, rfl, congrArg Prod.fst h⟩

theorem Moment.running_close {w : World} {waiting : List Activity} {ended : Progress a.Result}
    (h : ∀ result, ended ≠ .returned result) : (close w waiting a ended).running = none := by
  cases a with
  | operation o => rfl
  | pass n mv =>
    cases ended with
    | returned busy => exact absurd rfl (h busy)
    | _ => rfl
  | finish n mv => rfl

/-- An activity that is replied goes on. -/
theorem Activity.next_ne {owed owed' : Set Region} {q : Request}
    (next : q.Answer → Program a.Result) (answer : q.Answer) :
    (⟨a, owed', next answer⟩ : Activity) ≠ ⟨a, owed, .ask q next⟩ := by
  intro h
  simp only [Activity.mk.injEq, heq_eq_eq, true_and] at h
  exact Program.next_ne answer h.2

/-- A step after which the same activity stands where it stood is no reply. -/
theorem Moment.Calls.running_ne (h : m.Calls a c reply m') : m'.running ≠ m.running := by
  cases h with
  | @answered w w' waiting owed next answer h =>
    exact fun hrun => Activity.next_ne next answer (Option.some.inj hrun)
  | failed h =>
    rw [running_close fun _ => by simp]
    simp
  | crashed h =>
    rw [running_close fun _ => by simp]
    simp

/-- A step is the reply to one call only. -/
theorem Moment.Calls.unique {a' : Agent} {c' : Call} {reply' : Reply c'.Answer}
    (h : m.Calls a c reply m') (h' : m.Calls a' c' reply' m') :
    a' = a ∧ (⟨c', reply'⟩ : (c : Call) × Reply c.Answer) = ⟨c, reply⟩ := by
  obtain ⟨owed, next, hrun, hreply⟩ := h.before
  obtain ⟨owed', next', hrun', hreply'⟩ := h'.before
  have hactivity := Option.some.inj (hrun.symm.trans hrun')
  simp only [Activity.mk.injEq] at hactivity
  obtain ⟨rfl, -, hrest⟩ := hactivity
  cases eq_of_heq hrest
  rw [← hreply, ← hreply']
  exact ⟨rfl, rfl⟩

/-! ### What is seen of a drain -/

namespace Moment

/-- A call of a pass fails. -/
def FailsAt (number : Nat) (cause : Error) (m m' : Moment) : Prop :=
  ∃ mv c, m.Calls (.pass number mv) c (.failed cause) m'

/-- A call of the drain crashes. -/
def CrashesAt (number : Nat) (m m' : Moment) : Prop :=
  ∃ a c, a.Serves number ∧ m.Calls a c .crashed m'

/-- The hook that follows the last pass is replied. -/
def HearsAt (number : Nat) (servers : ServerSet) (target : String) (reply : Reply Unit)
    (m m' : Moment) : Prop :=
  ∃ a, a.Serves number ∧ m.Calls a (.hook (.postMoveServers servers target)) reply m'

/-- A pass begins. -/
def BeginsAt (number : Nat) (m m' : Moment) : Prop :=
  m.running = none ∧ ∃ mv, m'.running = some (.ofPass m.world.config number mv)

/-- A pass asks for a region to be unassigned. -/
def AsksAt (number : Nat) (m m' : Moment) : Prop :=
  ∃ mv r reply, m.Calls (.pass number mv) (.unassign r) reply m'

/-- A pass returns. -/
def ReturnsAt (number : Nat) (m m' : Moment) : Prop :=
  ∃ mv owed busy, m.running = some ⟨.pass number mv, owed, .done busy⟩ ∧
    m' = close m.world m.waiting (.pass number mv) (.returned busy)

/-- A pass has begun, and since then none has asked for a region to be unassigned. -/
inductive Unasked (number : Nat) : List (Moment × Moment) → Prop
  | begins {m m' : Moment} {steps : List (Moment × Moment)} (h : BeginsAt number m m') :
      Unasked number ((m, m') :: steps)
  | goesOn {m m' : Moment} {steps : List (Moment × Moment)} (h : Unasked number steps)
      (ha : ¬ AsksAt number m m') : Unasked number ((m, m') :: steps)

/-- A pass has found every pending server clear: it has returned, and it had not asked for any
region to be unassigned. -/
inductive Clears (number : Nat) : List (Moment × Moment) → Prop
  | returns {m m' : Moment} {steps : List (Moment × Moment)} (hr : ReturnsAt number m m')
      (h : Unasked number steps) : Clears number ((m, m') :: steps)
  | goesOn {m m' : Moment} {steps : List (Moment × Moment)} (h : Clears number steps) :
      Clears number ((m, m') :: steps)

/-- What has been seen of a drain on a trail: the error of a pass, a crash, a pass that has found
every server clear, and the reply to the last hook. -/
structure Seen (number : Nat) (servers : ServerSet) (target : String)
    (steps : List (Moment × Moment)) (failure : Option Error) (crash clear : Prop)
    (heard : Option (Reply Unit)) : Prop where
  failed : ∀ cause, (∃ x ∈ steps, FailsAt number cause x.1 x.2) ↔ failure = some cause
  crashed : (∃ x ∈ steps, CrashesAt number x.1 x.2) ↔ crash
  cleared : Clears number steps ↔ clear
  heard : ∀ reply, (∃ x ∈ steps, HearsAt number servers target reply x.1 x.2) ↔ heard = some reply

variable {failure failure' : Option Error} {crash clear crash' clear' : Prop}
variable {heard heard' : Option (Reply Unit)}

/-! ### What is seen of a reply -/

theorem Calls.failsAt_iff (h : m.Calls a c reply m') :
    FailsAt number cause m m' ↔ (∃ mv, a = .pass number mv) ∧ reply = .failed cause := by
  constructor
  · rintro ⟨mv, c', h'⟩
    obtain ⟨ha, hc⟩ := h.unique h'
    cases hc
    exact ⟨⟨mv, ha.symm⟩, rfl⟩
  · rintro ⟨⟨mv, rfl⟩, rfl⟩
    exact ⟨mv, c, h⟩

theorem Calls.crashesAt_iff (h : m.Calls a c reply m') :
    CrashesAt number m m' ↔ a.Serves number ∧ reply = .crashed := by
  constructor
  · rintro ⟨a', c', ha, h'⟩
    obtain ⟨rfl, hc⟩ := h.unique h'
    cases hc
    exact ⟨ha, rfl⟩
  · rintro ⟨ha, rfl⟩
    exact ⟨a, c, ha, h⟩

theorem Calls.hearsAt_iff {reply' : Reply Unit} (h : m.Calls a c reply m') :
    HearsAt number servers target reply' m m' ↔ a.Serves number ∧
      (⟨c, reply⟩ : (c : Call) × Reply c.Answer) = ⟨.hook (.postMoveServers servers target), reply'⟩ := by
  constructor
  · rintro ⟨a', ha, h'⟩
    obtain ⟨rfl, hc⟩ := h.unique h'
    exact ⟨ha, hc.symm⟩
  · rintro ⟨ha, hc⟩
    cases hc
    exact ⟨a, ha, h⟩

theorem Calls.not_returnsAt (h : m.Calls a c reply m') : ¬ ReturnsAt number m m' := by
  rintro ⟨mv, owed, busy, hrun, -⟩
  obtain ⟨owed', next, hrun', -⟩ := h.before
  cases hrun.symm.trans hrun'

/-! ### What is seen of a trail -/

theorem clears_cons : Clears number ((m, m') :: steps) ↔
    (ReturnsAt number m m' ∧ Unasked number steps) ∨ Clears number steps := by
  constructor
  · rintro (⟨hr, h⟩ | h)
    · exact .inl ⟨hr, h⟩
    · exact .inr h
  · rintro (⟨hr, h⟩ | h)
    · exact .returns hr h
    · exact .goesOn h

/-- While a pass runs none begins. -/
theorem unasked_cons (hrun : m.running ≠ none) : Unasked number ((m, m') :: steps) ↔
    Unasked number steps ∧ ¬ AsksAt number m m' := by
  constructor
  · rintro (h | ⟨h, ha⟩)
    · exact absurd h.1 hrun
    · exact ⟨h, ha⟩
  · rintro ⟨h, ha⟩
    exact .goesOn h ha

theorem seen_nil (number : Nat) (servers : ServerSet) (target : String) :
    Seen number servers target [] none False False none :=
  ⟨by simp, by simp, ⟨(nomatch ·), False.elim⟩, by simp⟩

/-- One more step, on which something may be seen. -/
theorem Seen.cons (h : Seen number servers target steps failure crash clear heard)
    (hf : ∀ cause, FailsAt number cause m m' ∨ failure = some cause ↔ failure' = some cause)
    (hk : CrashesAt number m m' ∨ crash ↔ crash')
    (hc : (ReturnsAt number m m' ∧ Unasked number steps) ∨ clear ↔ clear')
    (hh : ∀ reply, HearsAt number servers target reply m m' ∨ heard = some reply ↔
      heard' = some reply) :
    Seen number servers target ((m, m') :: steps) failure' crash' clear' heard' where
  failed cause := by
    rw [List.exists_mem_cons_iff, h.failed]
    exact hf cause
  crashed := by
    rw [List.exists_mem_cons_iff, h.crashed]
    exact hk
  cleared := by
    rw [clears_cons, h.cleared]
    exact hc
  heard reply := by
    rw [List.exists_mem_cons_iff, h.heard]
    exact hh reply

/-- One more step, which is the reply to a call. -/
theorem Seen.replied (h : Seen number servers target steps failure crash clear heard)
    (hcalls : m.Calls a c reply m')
    (hf : ∀ cause, ((∃ mv, a = .pass number mv) ∧ reply = .failed cause) ∨ failure = some cause ↔
      failure' = some cause)
    (hk : (a.Serves number ∧ reply = .crashed) ∨ crash ↔ crash')
    (hh : ∀ reply', (a.Serves number ∧ (⟨c, reply⟩ : (c : Call) × Reply c.Answer) =
      ⟨.hook (.postMoveServers servers target), reply'⟩) ∨ heard = some reply' ↔
        heard' = some reply') :
    Seen number servers target ((m, m') :: steps) failure' crash' clear heard' := by
  refine h.cons (fun cause => ?_) ?_ (or_iff_right fun hr => hcalls.not_returnsAt hr.1)
    fun reply' => ?_
  · rw [hcalls.failsAt_iff]
    exact hf cause
  · rw [hcalls.crashesAt_iff]
    exact hk
  · rw [hcalls.hearsAt_iff]
    exact hh reply'

/-- One more step, on which nothing is seen of the drain. -/
theorem Seen.same (h : Seen number servers target steps failure crash clear heard)
    (hcalls : ∀ a c reply, a.Serves number → m.Calls a c reply m' →
      (∃ answer, reply = .answered answer) ∧ ∀ k, c ≠ .hook k)
    (hreturns : ReturnsAt number m m' → ¬ Unasked number steps) :
    Seen number servers target ((m, m') :: steps) failure crash clear heard := by
  refine h.cons (fun cause => or_iff_right ?_) (or_iff_right ?_) (or_iff_right ?_)
    fun reply => or_iff_right ?_
  · rintro ⟨mv, c, hc⟩
    obtain ⟨⟨answer, ha⟩, -⟩ := hcalls (.pass number mv) c _ rfl hc
    cases ha
  · rintro ⟨a, c, ha, hc⟩
    obtain ⟨⟨answer, ha⟩, -⟩ := hcalls a c _ ha hc
    cases ha
  · exact fun ⟨hr, hu⟩ => hreturns hr hu
  · rintro ⟨a, ha, hc⟩
    exact (hcalls a (.hook _) reply ha hc).2 _ rfl

/-- Nothing is seen of a drain while nobody works on it. -/
theorem Seen.unserved (h : Seen number servers target steps failure crash clear heard)
    (hrun : ∀ a, m.running = some a → ¬ a.agent.Serves number) :
    Seen number servers target ((m, m') :: steps) failure crash clear heard := by
  refine h.same (fun a c reply ha hc => ?_) ?_
  · obtain ⟨owed, next, hr, -⟩ := hc.before
    exact absurd ha (hrun _ hr)
  · rintro ⟨mv, owed, busy, hr, -⟩
    exact absurd rfl (hrun _ hr)

/-- Nothing is seen of a drain while something happens outside. -/
theorem Seen.stays (h : Seen number servers target steps failure crash clear heard)
    (hrun : m'.running = m.running) :
    Seen number servers target ((m, m') :: steps) failure crash clear heard := by
  refine h.same (fun a c reply _ hc => absurd hrun hc.running_ne) ?_
  rintro ⟨mv, owed, busy, hr, rfl⟩
  rw [hr] at hrun
  cases busy <;> cases hrun

end Moment

/-! ### Who works on what -/

/-- Only operations wait, ever. -/
theorem Moment.Reaches.waiting {w : World} (h : Reaches E (.still w) m) :
    ∀ a ∈ m.waiting, ∃ o, a.agent = .operation o := by
  induction h with
  | refl => exact fun a ha => absurd ha List.not_mem_nil
  | tail _ hs ih =>
    cases hs with
    | @ends w w' waiting agent owed rest ended he =>
      have hwaiting : (close w' waiting agent ended).waiting = waiting := by
        cases agent with
        | pass n mv =>
          cases ended with
          | returned busy => cases busy <;> rfl
          | _ => rfl
        | _ => rfl
      rw [hwaiting]
      exact ih
    | @waits w waiting o owed q next hq =>
      intro a ha
      rcases List.mem_cons.1 ha with rfl | ha
      · exact ⟨o, rfl⟩
      · exact ih a ha
    | @resumes w before activity after =>
      exact fun a ha => ih a (by simp only [List.mem_append, List.mem_cons] at ha ⊢; tauto)
    | @drops w before activity after =>
      exact fun a ha => ih a (by simp only [List.mem_append, List.mem_cons] at ha ⊢; tauto)
    | outside | ticks | begins | drains | answers => exact ih

/-- Only a launch changes the records of the moves. -/
theorem World.moves_of_no_launch {w w' : World} {q : Request} {reply : Reply q.Answer}
    (hq : ∀ servers source target, q ≠ .launch servers source target)
    (hm : w.meet q = (reply, w')) : w'.moves = w.moves := by
  cases q with
  | call c => exact (alike_call hm).moves
  | lock l shared holder =>
    simp only [meet] at hm
    split at hm <;> obtain ⟨-, rfl⟩ := Prod.mk.inj hm <;> rfl
  | reserve servers target =>
    rcases meet_reserve hm with ⟨cause, -, rfl⟩ | ⟨-, reservations, -, rfl⟩ <;> rfl
  | launch servers source target => exact absurd rfl (hq servers source target)
  | join k =>
    obtain ⟨rfl, -⟩ := meet_join hm
    rfl
  | note | unlock | reservations =>
    obtain ⟨-, rfl⟩ := Prod.mk.inj hm
    rfl

/-- No request changes the record of a move that has been started. -/
theorem World.moves_meet {w w' : World} {q : Request} {reply : Reply q.Answer}
    (hm : w.meet q = (reply, w')) {mv : Move} (h : w.moves[number]? = some mv) :
    w'.moves[number]? = some mv := by
  by_cases hq : ∃ servers source target, q = .launch servers source target
  · obtain ⟨servers, source, target, rfl⟩ := hq
    obtain ⟨-, rfl⟩ := Prod.mk.inj hm
    obtain ⟨hlt, -⟩ := Array.getElem?_eq_some_iff.1 h
    show (w.moves.push _)[number]? = some mv
    rw [Array.getElem?_push_lt hlt, ← h, Array.getElem?_eq_getElem hlt]
  · push Not at hq
    rw [moves_of_no_launch hq hm]
    exact h

/-- The end of an activity that works on another move leaves the record of this one. -/
theorem Moment.moves_close {w : World} {waiting : List Activity} {ended : Progress a.Result}
    (ha : ¬ a.Serves number) {mv : Move} (h : w.moves[number]? = some mv) :
    (close w waiting a ended).world.moves[number]? = some mv := by
  have hset : ∀ {n : Nat} {y : Move}, n ≠ number →
      (w.moves.setIfInBounds n y)[number]? = some mv := by
    intro n y hn
    rw [Array.getElem?_setIfInBounds_ne hn]
    exact h
  cases a with
  | operation o => cases o <;> first | exact h | (cases ended <;> exact h)
  | pass n y =>
    cases ended with
    | returned busy => cases busy <;> exact hset ha
    | _ => exact hset ha
  | finish n y => cases ended <;> exact hset ha

end ServerGroups
