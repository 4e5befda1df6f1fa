/-
ServerGroups/Proofs/Refusals.lean

An operation that is rejected has changed nothing.

`w.Untouched w'` says that the registry, the cluster, the regions that were
asked to be unassigned, the placements that were applied, and the reservations
are the same in two worlds.  From any moment at which an operation runs, for as
long as it runs without giving way, each step of its own leaves them untouched
if it is rejected in the end; and so does the end, which gives back whatever
the operation has (`rejected_untouched`).

Design.  A step is the operation's own if what runs is not the same after it:
what happens outside, and the passing of time, leave the running activity where
it is.  An operation that waits for a lock runs anew when it has it, so what
others did while it waited is not counted.
-/
import ServerGroups.Proofs.Confinement
import ServerGroups.Proofs.Drains.Trail
import ServerGroups.Proofs.Exclusion.Tracking
import ServerGroups.Proofs.Refusals.Checks
import ServerGroups.Proofs.Runs.Requests

namespace ServerGroups

open Program

/-! ### Worlds in which nothing is touched -/

/-- What an operation may change is the same. -/
structure World.Untouched (w w' : World) : Prop where
  registry : w'.site.registry = w.site.registry
  cluster : w'.site.cluster = w.site.cluster
  unassigned : w'.history.unassigned = w.history.unassigned
  placed : w'.history.placed = w.history.placed
  reservations : w'.reservations = w.reservations

namespace World

variable {w w' w'' : World}

theorem Untouched.refl (w : World) : w.Untouched w := ⟨rfl, rfl, rfl, rfl, rfl⟩

theorem Untouched.trans (h : w.Untouched w') (h' : w'.Untouched w'') : w.Untouched w'' where
  registry := h'.registry.trans h.registry
  cluster := h'.cluster.trans h.cluster
  unassigned := h'.unassigned.trans h.unassigned
  placed := h'.placed.trans h.placed
  reservations := h'.reservations.trans h.reservations

/-- A call that moves no region leaves the cluster as it is. -/
theorem cluster_serve {site : Site} {c : Call} (hc : c.shifts = false) :
    (site.serve c).site.cluster = site.cluster := by
  cases c <;> cases hc
  case plan snapshot => simp only [Site.serve, Site.plan]; split <;> rfl
  all_goals simp only [Site.serve, Site.look]
  all_goals split <;> rfl

/-- A request that is not answered touches nothing. -/
theorem untouched_of_not_answered {q : Request} {reply : Reply q.Answer}
    (hm : w.meet q = (reply, w')) (hr : ∀ answer, reply ≠ .answered answer) : w.Untouched w' := by
  have hsite := site_of_not_answered hm hr
  have hlogs : w'.history.unassigned = w.history.unassigned ∧
      w'.history.placed = w.history.placed := by
    cases q with
    | call c =>
      rcases (logs_call hm).2 with ⟨⟨answer, ha⟩, -⟩ | ⟨-, hlogs⟩
      · exact absurd ha (hr answer)
      · exact hlogs
    | lock l shared holder =>
      simp only [meet] at hm
      split at hm <;> obtain ⟨-, rfl⟩ := Prod.mk.inj hm <;> exact ⟨rfl, rfl⟩
    | reserve servers target =>
      rcases meet_reserve hm with ⟨cause, -, rfl⟩ | ⟨rfl, -⟩
      · exact ⟨rfl, rfl⟩
      · exact absurd rfl (hr ())
    | join number =>
      obtain ⟨rfl, -⟩ := meet_join hm
      exact ⟨rfl, rfl⟩
    | note | unlock | reservations | launch => exact absurd (Prod.mk.inj hm).1.symm (hr _)
  refine ⟨by rw [hsite], by rw [hsite], hlogs.1, hlogs.2, ?_⟩
  exact (alike_of_not_answered hm hr).reservations

/-- A request that does not commit touches nothing. -/
theorem untouched_of_commits {q : Request} (hq : q.commits = false) {answer : q.Answer}
    (hm : w.meet q = (.answered answer, w')) : w.Untouched w' := by
  cases q with
  | call c =>
    obtain ⟨hwrites, hshifts⟩ : c.writes = false ∧ c.shifts = false := by
      simpa [Request.commits] using hq
    have hremember : (w.remember c).history = w.history := by
      cases c <;> first | rfl | cases hshifts
    obtain ⟨hunassigned, hplaced⟩ := logs_answered hm
    rw [hremember] at hunassigned hplaced
    refine ⟨(serves_of_answered hm).eq_of_reads hwrites, ?_, hunassigned, hplaced,
      (alike_call hm).reservations⟩
    rw [(answered_call hm).2]
    exact cluster_serve hshifts
  | lock l shared holder =>
    simp only [meet] at hm
    split at hm <;> obtain ⟨-, rfl⟩ := Prod.mk.inj hm <;> exact ⟨rfl, rfl, rfl, rfl, rfl⟩
  | reserve servers target => cases hq
  | join number =>
    obtain ⟨rfl, -⟩ := meet_join hm
    exact .refl _
  | note | unlock | reservations | launch =>
    obtain ⟨-, rfl⟩ := Prod.mk.inj hm
    exact ⟨rfl, rfl, rfl, rfl, rfl⟩

/-- What the running operation has reserved changes only when it commits. -/
theorem held_of_commits {q : Request} (hq : q.commits = false) {answer : q.Answer}
    (hm : w.meet q = (.answered answer, w')) (hheld : w.held = ∅) : w'.held = ∅ := by
  cases q with
  | call c => exact (alike_call hm).held.trans hheld
  | lock l shared holder =>
    simp only [meet] at hm
    split at hm <;> obtain ⟨-, rfl⟩ := Prod.mk.inj hm <;> exact hheld
  | reserve servers target => cases hq
  | join number =>
    obtain ⟨rfl, -⟩ := meet_join hm
    exact hheld
  | launch servers source target =>
    obtain ⟨-, rfl⟩ := Prod.mk.inj hm
    rfl
  | note | unlock | reservations =>
    obtain ⟨-, rfl⟩ := Prod.mk.inj hm
    exact hheld

theorem Ends.untouched {α : Type} {rest : Program α} {cause : Error}
    (h : w.Ends rest (.failed cause) w') : w.Untouched w' := by
  cases h with
  | refused => exact .refl _
  | failed h => exact untouched_of_not_answered h fun _ => by simp

/-- An operation that has reserved nothing leaves all reservations as they are. -/
theorem untouched_letGo (hheld : w.held = ∅) : w.Untouched w.letGo := by
  refine ⟨rfl, rfl, rfl, rfl, ?_⟩
  show w.reservations.release w.held = w.reservations
  rw [hheld]
  rfl

/-- The failure of a call is no rejection. -/
theorem not_rejects_of_call {c : Call} {cause : Error}
    (hm : w.meet (.call c) = (.failed cause, w')) : ¬ cause.Rejects := by
  have hmake : ∀ {reply : Reply c.Answer}, (w.make c).1 = reply → reply = .failed cause →
      ¬ cause.Rejects := by
    intro reply hreply hfailed hrejects
    obtain ⟨refusal, rfl⟩ := Error.rejects_iff.1 hrejects
    rw [hfailed] at hreply
    unfold make at hreply
    dsimp only at hreply
    split at hreply
    · cases hreply
    · cases hreply
    · split at hreply <;> cases hreply
  cases c with
  | hook h =>
    simp only [meet, consult] at hm
    split at hm
    · exact hmake (congrArg Prod.fst hm) rfl
    · cases (Prod.mk.inj hm).1
  | _ => exact hmake (congrArg Prod.fst hm) rfl

end World

theorem Operation.untouched_conclude (o : Operation) (ended : Outcome o.Answer)
    (w : World) : w.Untouched (o.conclude (ended, w)).2 := by
  cases o with
  | forgetTable t => cases ended <;> exact ⟨rfl, rfl, rfl, rfl, rfl⟩
  | _ => exact .refl w

/-! ### Drains end with no rejection -/

/-- No drain has ended with a rejection. -/
def World.Plain (w : World) : Prop := ∀ (number : Nat) (mv : Move) (cause : Error),
  w.moves[number]? = some mv → mv.ending = some (.failed cause) → ¬ cause.Rejects

/-- No drain has ended with a rejection, and the one that is at work will not. -/
structure Moment.Plain (m : Moment) : Prop where
  world : m.world.Plain
  quiet : ∀ {a : Activity}, m.running = some a → (∀ o, a.agent ≠ .operation o) → a.rest.Quiet

section Plain

variable {E : Setting} {w w' : World} {m m' : Moment}

theorem World.Plain.of_moves (h : w.Plain) (hm : w'.moves = w.moves) : w'.Plain := by
  intro number mv cause hmv
  rw [hm] at hmv
  exact h number mv cause hmv

theorem World.Plain.setMove (h : w.Plain) {number : Nat} {x : Move}
    (hx : ∀ cause, x.ending = some (.failed cause) → ¬ cause.Rejects) :
    (w.setMove number x).Plain := by
  intro k mv cause hmv he
  have hset : (w.moves.setIfInBounds number x)[k]? = some mv := hmv
  rw [Array.getElem?_setIfInBounds] at hset
  split at hset
  · split at hset
    · cases hset
      exact hx cause he
    · cases hset
  · exact h k mv cause hset he

theorem World.Plain.endMove (h : w.Plain) (number : Nat) (x : Move) {ending : Ending}
    (hx : ∀ cause, ending = .failed cause → ¬ cause.Rejects) :
    (w.endMove number x ending).Plain := by
  have hset : (w.setMove number { x with ending := some ending }).Plain :=
    h.setMove fun cause he => hx cause (Option.some.inj he)
  exact hset.of_moves rfl

/-- The end of a program that never fails of its own is no rejection. -/
theorem World.Ends.not_rejects {α : Type} {rest : Program α} {cause : Error}
    (hq : rest.Quiet) (h : w.Ends rest (.failed cause) w') : ¬ cause.Rejects := by
  cases h with
  | refused => exact hq.elim
  | @failed _ q _ _ hm =>
    cases q with
    | call c => exact not_rejects_of_call hm
    | note | reservations => cases (Prod.mk.inj hm).1
    | _ => cases hq.1

theorem Moment.Plain.rest (h : w.Plain) {waiting : List Activity} :
    Moment.Plain ⟨w, none, waiting⟩ := ⟨h, fun ha => by cases ha⟩

/-- The end of a drain that is at work is no rejection. -/
theorem Moment.Plain.close (h : w.Plain) {waiting : List Activity} {a : Agent}
    {ended : Progress a.Result} {owed others : Set Region}
    (hc : exclusive.closed a ended ⟨w, owed, others⟩)
    (he : (∀ o, a ≠ .operation o) → ∀ cause, ended = .failed cause → ¬ cause.Rejects) :
    (Moment.close w waiting a ended).Plain := by
  cases a with
  | operation o =>
    refine .rest ?_
    cases o with
    | forgetTable t => cases ended <;> exact h.of_moves rfl
    | _ => exact h.of_moves rfl
  | pass number x =>
    have hnone : ∀ cause : Error, x.ending = some (.failed cause) → ¬ cause.Rejects := by
      intro cause hcause
      cases hc.2.2.symm.trans hcause
    cases ended with
    | returned busy =>
      cases busy with
      | nil =>
        refine ⟨h.setMove (x := x.settle) hnone, ?_⟩
        rintro a ⟨⟩ -
        exact Coordinator.quiet_finishMove _
      | cons s busy =>
        refine .rest ?_
        exact h.setMove hnone
    | failed cause =>
      have hreport : (w.report (.drainFailed x.source x.target cause)).Plain := h.of_moves rfl
      refine .rest (hreport.endMove number { x with phase := .failed } ?_)
      rintro _ ⟨⟩
      exact he (by simp) cause rfl
    | crashed => exact .rest (h.endMove number x (by simp))
    | waiting => exact .rest (h.endMove number x (by simp))
  | finish number x =>
    cases ended with
    | failed cause =>
      refine .rest (h.endMove number x ?_)
      rintro _ ⟨⟩
      exact he (by simp) cause rfl
    | _ => exact .rest (h.endMove number x (by simp))

theorem Moment.Plain.step (hE : E.Spares) (hg : guarded.Holds E m) (hx : exclusive.Holds E m)
    (hwait : ∀ a ∈ m.waiting, ∃ o, a.agent = .operation o) (h : m.Plain) (hs : m.Step E m') :
    m'.Plain := by
  cases hs with
  | outside ho => exact ⟨h.world.of_moves (hE ho).moves, h.quiet⟩
  | ticks time => exact ⟨h.world.of_moves rfl, h.quiet⟩
  | begins ho =>
    refine ⟨h.world, ?_⟩
    rintro a ⟨⟩ ha
    exact absurd rfl (ha _)
  | @drains w waiting number mv hm he =>
    refine ⟨h.world.setMove fun cause hcause => ?_, ?_⟩
    · exact h.world number mv cause hm hcause
    · rintro a ⟨⟩ -
      exact Coordinator.quiet_drainPass _ _
  | @answers w w' waiting agent owed q next answer hm =>
    refine ⟨?_, ?_⟩
    · by_cases hq : ∃ servers source target, q = .launch servers source target
      · obtain ⟨servers, source, target, rfl⟩ := hq
        obtain ⟨-, rfl⟩ := Prod.mk.inj hm
        intro number mv cause hmv he
        have hpush : (w.moves.push (Move.start w.config servers source target w.now))[number]? =
            some mv := hmv
        rw [Array.getElem?_push] at hpush
        split at hpush
        · cases hpush
          cases he
        · exact h.world number mv cause hpush he
      · push Not at hq
        exact h.world.of_moves (World.moves_of_no_launch hq hm)
    · rintro a ⟨⟩ ha
      exact (h.quiet rfl ha).2 answer
  | @ends w w' waiting agent owed rest ended he =>
    refine .close (h.world.of_moves he.alike.moves) (exclusive_closed hg hx he) ?_
    rintro ha cause rfl
    exact he.not_rejects (h.quiet rfl ha)
  | waits hq => exact .rest h.world
  | @resumes w before activity after =>
    refine ⟨h.world, ?_⟩
    rintro a ⟨⟩ ha
    obtain ⟨o, ho⟩ := hwait activity (by simp)
    exact absurd ho (ha o)
  | drops ha =>
    refine .rest ?_
    exact h.world.of_moves rfl

/-- At every moment of every schedule no drain has ended with a rejection. -/
theorem Moment.Reaches.plain (hE : E.Spares) (hw : w.Fresh) (hplain : w.Plain)
    (h : Reaches E (.still w) m) : m.Plain := by
  induction h with
  | refl => exact .rest hplain
  | @tail m m' h hs ih =>
    have hreach : Reaches E (.still w) m := h
    obtain ⟨hg, hx⟩ := exclusive_holds hE hw hreach
    exact ih.step hE hg hx hreach.waiting hs

end Plain

/-! ### Operations that are rejected -/

theorem World.plain_of_answered {w w' : World} {q : Request} {answer : q.Answer} (h : w.Plain)
    (hm : w.meet q = (.answered answer, w')) : q.Plain answer := by
  cases q with
  | join number =>
    rintro cause rfl
    simp only [meet] at hm
    split at hm
    · next mv hmv =>
      split at hm
      · next ending he =>
        cases (Prod.mk.inj hm).1
        exact h number mv cause hmv he
      · cases (Prod.mk.inj hm).1
    · cases (Prod.mk.inj hm).1
  | _ => trivial

/-- Until an operation has committed it has reserved nothing. -/
theorem rejecting_tracks : rejecting.Tracks (fun _ => True) World.Plain
    fun committed w => committed = false → w.held = ∅ where
  starts _ := ⟨false, Operation.declines _⟩
  rests h _ := h.grasped.1
  spared h hw hc := hw.held.trans (h hc)
  answered {q _ committed _ _ _} hask hknown htied hm := by
    refine ⟨committed || q.commits, hask.2 _ (World.plain_of_answered hknown hm), fun hc => ?_⟩
    obtain ⟨hbefore, hq⟩ := Bool.or_eq_false_iff.1 hc
    exact World.held_of_commits hq hm (htied hbefore)

open Moment

variable {E : Setting} {w : World} {m m' m₀ : Moment} {o : Operation} {cause : Error}
variable {steps : List (Moment × Moment)}

/-- An operation runs. -/
def Moment.Runs (o : Operation) (m : Moment) : Prop :=
  ∃ owed rest, m.running = some ⟨.operation o, owed, rest⟩

/-- A step ends an operation with an error. -/
inductive Moment.EndsWith (o : Operation) (cause : Error) : Moment → Moment → Prop
  | ends {w w' waiting owed rest} (h : w.Ends rest (.failed cause) w') :
      EndsWith o cause ⟨w, some ⟨.operation o, owed, rest⟩, waiting⟩
        (close w' waiting (.operation o) (.failed cause))

/-- On every step of its own, what runs has touched nothing. -/
def Moment.Spotless (steps : List (Moment × Moment)) : Prop :=
  ∀ x ∈ steps, x.2.running ≠ x.1.running → x.1.world.Untouched x.2.world

theorem Moment.Spotless.cons (h : Spotless steps)
    (hm : m'.running ≠ m.running → m.world.Untouched m'.world) : Spotless ((m, m') :: steps) := by
  intro x hx
  rcases List.mem_cons.1 hx with rfl | hx
  · exact hm
  · exact h x hx

/-- An operation that has not committed has touched nothing on the way. -/
theorem Moment.Trail.spotless (hE : E.Spares) (hw : w.Fresh) (hplain : w.Plain)
    (h₀ : Reaches E (.still w) m₀) (h : Trail E m₀ steps m) (hruns : ∀ x ∈ steps, x.1.Runs o)
    (hrun : m.Runs o) : ∃ owed rest committed, m.running = some ⟨.operation o, owed, rest⟩ ∧
      rest.Ensures rejecting (fun _ _ => True) committed ∧
      (committed = false → m.world.held = ∅ ∧ Spotless steps) := by
  have hknown : ∀ {m}, Reaches E (.still w) m → m.world.Plain := fun h' =>
    (Reaches.plain hE hw hplain h').world
  induction h with
  | start =>
    obtain ⟨owed, rest, hrest⟩ := hrun
    have htracked := rejecting_tracks.reaches hE hw hknown h₀
    obtain ⟨committed, hfollows, hheld⟩ := htracked.running hrest rfl trivial
    exact ⟨owed, rest, committed, hrest, hfollows, fun hc => ⟨hheld hc,
      fun x hx => absurd hx List.not_mem_nil⟩⟩
  | @step steps m m' h hs ih =>
    obtain ⟨owed, rest, committed, hrest, hfollows, hclean⟩ :=
      ih (fun x hx => hruns x (List.mem_cons_of_mem _ hx)) (hruns _ List.mem_cons_self)
    obtain ⟨owed', rest', hrest'⟩ := hrun
    cases hs with
    | outside ho =>
      refine ⟨owed, rest, committed, hrest, hfollows, fun hc => ?_⟩
      obtain ⟨hheld, hspotless⟩ := hclean hc
      exact ⟨(hE ho).held.trans hheld, hspotless.cons fun hne => absurd rfl hne⟩
    | ticks time =>
      refine ⟨owed, rest, committed, hrest, hfollows, fun hc => ?_⟩
      obtain ⟨hheld, hspotless⟩ := hclean hc
      exact ⟨hheld, hspotless.cons fun hne => absurd rfl hne⟩
    | @answers v v' waiting agent owed₁ q next answer hm =>
      cases hrest
      have hanswer := World.plain_of_answered (hknown (h₀.trans h.reaches)) hm
      refine ⟨_, _, committed || q.commits, rfl, hfollows.2 answer hanswer, fun hc => ?_⟩
      obtain ⟨hbefore, hq⟩ := Bool.or_eq_false_iff.1 hc
      obtain ⟨hheld, hspotless⟩ := hclean hbefore
      exact ⟨World.held_of_commits hq hm hheld,
        hspotless.cons fun _ => World.untouched_of_commits hq hm⟩
    | ends he =>
      cases hrest
      cases hrest'
    | begins | drains | resumes | drops => cases hrest
    | waits => cases hrest'

/-- An operation rejects nothing once it has committed. -/
theorem World.Ends.not_committed {α : Type} {w' : World} {rest : Program α} {committed : Bool}
    (h : w.Ends rest (.failed cause) w')
    (hrest : rest.Ensures rejecting (fun _ _ => True) committed) (hcause : cause.Rejects) :
    committed = false := by
  cases h with
  | refused => exact hrest hcause
  | @failed _ q _ _ hm =>
    cases q with
    | call c => exact absurd hcause (not_rejects_of_call hm)
    | reserve servers target => exact hrest.1 ⟨servers, target, rfl⟩
    | lock l shared holder =>
      simp only [meet] at hm
      split at hm <;> cases (Prod.mk.inj hm).1
    | join number =>
      obtain ⟨-, h | ⟨ending, h⟩⟩ := meet_join hm <;> cases h
    | note | unlock | reservations | launch => cases (Prod.mk.inj hm).1

theorem Moment.Trail.untouched (h : Trail E m₀ steps m)
    (hsteps : ∀ x ∈ steps, x.1.world.Untouched x.2.world) : m₀.world.Untouched m.world := by
  induction h with
  | start => exact .refl _
  | step _ _ ih =>
    have hbefore := ih fun x hx => hsteps x (List.mem_cons_of_mem _ hx)
    exact hbefore.trans (hsteps _ List.mem_cons_self)

/-- **Rejections.**  From any moment at which an operation runs, be it that it was just called or
that it just has a lock for which it had to wait, to its end without giving way: if it ends with an
invalid argument, something not found, an invalid state or a conflict, then on every step of its own
it has touched nothing, neither the registry, the cluster, its logs nor the reservations.  So these
are exactly what they were, if nothing outside has touched them. -/
theorem rejected_untouched (hE : E.Spares) (hw : w.Fresh) (hplain : w.Plain)
    (h₀ : Reaches E (.still w) m₀) (h : Trail E m₀ steps m) (hruns : ∀ x ∈ steps, x.1.Runs o)
    (hends : m.EndsWith o cause m') (hcause : cause.Rejects) :
    Spotless ((m, m') :: steps) ∧
      ((∀ x ∈ steps, x.2.running = x.1.running → x.1.world.Untouched x.2.world) →
        m₀.world.Untouched m'.world) := by
  have hspotless : Spotless ((m, m') :: steps) ∧ m.world.Untouched m'.world := by
    cases hends with
    | @ends v v' waiting owed rest he =>
      obtain ⟨_, _, committed, hrest, hfollows, hclean⟩ :=
        h.spotless hE hw hplain h₀ hruns ⟨owed, rest, rfl⟩
      cases hrest
      obtain ⟨hheld, hsteps⟩ := hclean (he.not_committed hfollows hcause)
      have hend : v.Untouched (close v' waiting (.operation o) (.failed cause)).world :=
        he.untouched.trans ((World.untouched_letGo (he.alike.held.trans hheld)).trans
          (o.untouched_conclude _ _))
      exact ⟨hsteps.cons fun _ => hend, hend⟩
  refine ⟨hspotless.1, fun houtside => (h.untouched fun x hx => ?_).trans hspotless.2⟩
  by_cases hown : x.2.running = x.1.running
  · exact houtside x hx hown
  · exact hspotless.1 x (List.mem_cons_of_mem _ hx) hown

/-! ### A set of tables with one offending table -/

/-- A run that fails is a trail on which nothing but its own steps happens. -/
theorem Moment.exists_trail (waiting : List Activity) {w' : World} {p : Program o.Answer} :
    ∀ (owed : Set Region) (w : World), World.run p w = (.failed cause, w') → ∃ steps m,
      Trail E ⟨w, some ⟨.operation o, owed, p⟩, waiting⟩ steps m ∧
      (∀ x ∈ steps, x.1.Runs o ∧ x.2.running ≠ x.1.running) ∧
      m.EndsWith o cause (close w' waiting (.operation o) (.failed cause)) := by
  induction p with
  | done a => exact fun owed w h => by cases h
  | fail cause' =>
    rintro owed w ⟨⟩
    exact ⟨[], _, .start, fun x hx => absurd hx List.not_mem_nil, .ends .refused⟩
  | ask q next ih =>
    intro owed w hrun
    rcases hm : w.meet q with ⟨reply, v⟩
    rw [World.run, hm] at hrun
    cases reply with
    | answered answer =>
      obtain ⟨steps, m, htrail, hruns, hends⟩ := ih answer (q.owed answer owed) v hrun
      refine ⟨_, m, htrail.head (.answers hm), fun x hx => ?_, hends⟩
      rcases List.mem_append.1 hx with hx | hx
      · exact hruns x hx
      · rw [List.mem_singleton] at hx
        subst hx
        have hne : (⟨.operation o, q.owed answer owed, next answer⟩ : Activity) ≠
            ⟨.operation o, owed, .ask q next⟩ := @Activity.next_ne (.operation o) _ _ q next answer
        exact ⟨⟨_, _, rfl⟩, fun h => hne (Option.some.inj h)⟩
    | failed cause' =>
      cases hrun
      exact ⟨[], _, .start, fun x hx => absurd hx List.not_mem_nil, .ends (.failed hm)⟩
    | _ => cases hrun

/-- A table is pinned to the group `default`. -/
def World.pinned : World :=
  ((start {} .pair).operate (.moveTables {⟨"default", "t2"⟩} (some defaultGroup))).2

/-- One of two tables is there already, so the other one is not moved, either. -/
theorem rejected_untouched_pinned : ∃ x : World, World.pinned.operate
    (.moveTables {⟨"default", "t1"⟩, ⟨"default", "t2"⟩} (some defaultGroup)) =
      (.failed (.refused (.tableAlreadyThere ⟨"default", "t2"⟩ defaultGroup)), x) ∧
    World.pinned.Untouched x := by
  have hreach : Moment.Reaches .secluded (.still (.start {} .pair)) (.still .pinned) :=
    reaches_operate _ _ trivial fun _ _ => trivial
  obtain ⟨w', hrun⟩ : ∃ w', World.run (Operation.moveTables {⟨"default", "t1"⟩, ⟨"default", "t2"⟩}
      (some defaultGroup)).program World.pinned =
        (.failed (.refused (.tableAlreadyThere ⟨"default", "t2"⟩ defaultGroup)), w') := ⟨_, rfl⟩
  obtain ⟨steps, m, htrail, hruns, hends⟩ :=
    exists_trail (E := .secluded) [] ∅ World.pinned hrun
  have huntouched := (rejected_untouched Setting.spares_secluded
    (World.fresh_start {} fun hk => atHome_pair.partitioned.named hk) (fun _ _ _ h => by cases h)
    (hreach.tail (.begins trivial)) htrail (fun x hx => (hruns x hx).1) hends
    (Error.rejects_iff.2 ⟨_, rfl⟩)).2 fun x hx hsame => absurd hsame (hruns x hx).2
  exact ⟨w'.letGo, (World.operate_eq (by simp) _).trans (World.perform_of_failed hrun), huntouched⟩

end ServerGroups
