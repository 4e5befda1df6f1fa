/-
ServerGroups/Proofs/Guarded.lean

Every change of the registry, at whatever moment of whatever schedule, is
warranted when it is made.

`guarded` is the discipline of asking only for warranted changes; what rests is
a registry whose groups are stored under their names.  It is lawful because
every program is sound, and because nothing but a call touches the registry:
`Moment.Step.registry` says that a step either leaves the registry alone or is
the answer to a warranted call.  `Registry.invariant` is what follows for a
property of registries that warranted changes keep.
-/
import ServerGroups.Proofs.Operations
import ServerGroups.Proofs.Requests
import ServerGroups.Proofs.Schedule.Discipline

namespace ServerGroups

/-- What happens outside does not change the registry. -/
def Setting.SparesRegistry (E : Setting) : Prop :=
  ∀ {w w' : World}, E.outside w w' → w'.site.registry = w.site.registry

/-- What happens outside does not change which regions are listed. -/
def Setting.SparesListing (E : Setting) : Prop :=
  ∀ {w w' : World}, E.outside w w' → w'.site.cluster.regions = w.site.cluster.regions

/-- Anything may be called, given up, and happen outside, except for a change of the registry or of
the regions listed. -/
def Setting.sparing : Setting where
  called _ := True
  abandoned _ := True
  outside w w' := w'.site.registry = w.site.registry ∧
    w'.site.cluster.regions = w.site.cluster.regions

theorem Setting.sparing_registry : Setting.sparing.SparesRegistry := fun h => h.1

theorem Setting.sparing_listing : Setting.sparing.SparesListing := fun h => h.2

/-- Only warranted changes are asked for. -/
def guarded : Discipline where
  calm _ w := w.site.registry.Named
  given _ _ := True
  safe q v := ∀ c, q = .call c → v.world.site.registry.Warranted c
  closed _ _ v := v.world.site.registry.Named

variable {E : Setting} {w w' : World} {m m' : Moment}

/-! ### What does not touch the services -/

theorem Setting.SparesRegistry.drifts (hE : E.SparesRegistry) (h : E.Drifts w w') :
    w'.site.registry = w.site.registry := by
  induction h with
  | refl => rfl
  | outside _ ho ih => exact (hE ho).trans ih
  | ticks _ time ih => exact ih

theorem Operation.site_conclude (o : Operation) (ended : Outcome o.Answer) (w : World) :
    (o.conclude (ended, w)).2.site = w.site := by
  cases o with
  | forgetTable t => cases ended <;> rfl
  | _ => rfl

theorem World.site_passed (w : World) (number : Nat) (m : Move)
    (ended : Progress (List ServerAddress)) : (w.passed number m ended).site = w.site := by
  cases ended <;> rfl

theorem World.site_finished (w : World) (number : Nat) (m : Move) (ended : Progress Unit) :
    (w.finished number m ended).site = w.site := by
  cases ended <;> rfl

theorem Moment.site_close (w : World) (waiting : List Activity) (a : Agent)
    (ended : Progress a.Result) : (close w waiting a ended).world.site = w.site := by
  cases a with
  | operation o => exact o.site_conclude ended.outcome w.letGo
  | pass number m =>
    cases ended with
    | returned busy => cases busy <;> rfl
    | _ => exact World.site_passed ..
  | finish number m => exact World.site_finished ..

/-- A program that ends where it stands leaves the services as they are. -/
theorem World.Ends.site {α : Type} {rest : Program α} {ended : Progress α}
    (h : w.Ends rest ended w') : w'.site = w.site := by
  cases h with
  | returned => rfl
  | refused => rfl
  | failed h => exact site_of_not_answered h fun _ => by simp
  | crashed h => exact site_of_not_answered h fun _ => by simp

/-! ### The discipline -/

/-- A request that is answered serves the registry if it is a call, and else leaves it alone. -/
theorem World.serves_of_answered {c : Call} {answer : c.Answer}
    (h : w.meet (.call c) = (.answered answer, w')) :
    w.site.registry.Serves c answer w'.site.registry := by
  obtain ⟨ha, hs⟩ := answered_call h
  exact ⟨w.site, rfl, ha, by rw [hs]⟩

/-- A program that asks only for warranted changes of the registry keeps to the discipline, since
whatever a world answers to a call is what its registry may answer. -/
theorem guarded_keeps (hE : E.SparesRegistry) {a : Agent} {post : a.Result → Registry → Prop}
    {p : Program a.Result} : ∀ {r : Registry} {v : View}, v.world.site.registry = r → r.Named →
      p.Ensures Registry.rule post r → guarded.Keeps E a p v := by
  induction p with
  | done result =>
    rintro r v rfl hn -
    exact hn
  | fail cause =>
    rintro r v rfl hn -
    exact hn
  | ask q next ih =>
    rintro r v rfl hn h
    refine ⟨fun _ => hn, fun v' hv _ => ?_⟩
    -- the registry after a wait is any whose groups are stored under their names
    have hr : v'.world.site.registry = v.world.site.registry ∨
        (q.pauses ∧ v'.world.site.registry.Named) := by
      have hm := hv.2
      by_cases hq : q.pauses = true
      · rw [if_pos hq] at hm
        exact .inr ⟨hq, hm⟩
      · rw [if_neg hq] at hm
        exact .inl (hE.drifts hm.2)
    have hn' : v'.world.site.registry.Named := by
      rcases hr with hr | hr
      · rw [hr]
        exact hn
      · exact hr.2
    refine ⟨fun c hc => ?_, fun answer w hw => ?_, fun cause w hw => ?_, fun w hw => ?_⟩
    · subst hc
      rcases hr with hr | ⟨hq, -⟩
      · rw [hr]
        exact h.1
      · cases hq
    · cases q with
      | call c =>
        have hs := World.serves_of_answered hw
        have hreg : v'.world.site.registry = v.world.site.registry := by
          rcases hr with hr | ⟨hq, -⟩
          · exact hr
          · cases hq
        exact ih answer rfl (hs.named hn') (h.2 answer _ (hreg ▸ hs))
      | _ =>
        have hw' : w.site = v'.world.site := World.site_of_no_call hw fun c => by simp
        refine ih answer (r := w.site.registry) rfl ?_ (h answer _ ?_)
        · rw [hw']
          exact hn'
        · rw [hw']
          exact hr
    · show w.site.registry.Named
      rw [World.site_of_not_answered hw fun _ => by simp]
      exact hn'
    · show w.site.registry.Named
      rw [World.site_of_not_answered hw fun _ => by simp]
      exact hn'

theorem guarded_lawful (hE : E.SparesRegistry) : guarded.Lawful E where
  calm_outside h ho := by
    show Registry.Named _
    rw [hE ho]
    exact h
  calm_ticks h := h
  closed_outside h ho := by
    show Registry.Named _
    rw [hE ho]
    exact h
  closed_ticks h := h
  operation _ h := guarded_keeps hE rfl h (Operation.sound _ _ h)
  pass _ _ h := guarded_keeps hE rfl h (Coordinator.sound_drainPass _ _ _ h)
  finish h := guarded_keeps hE rfl h (Coordinator.sound_finishMove _ _ h)
  concluded {o ended v} h := by
    show Registry.Named _
    rw [o.site_conclude ended.outcome v.world.letGo]
    exact h
  passed {number m ended v} _ h := by
    show Registry.Named _
    rw [v.world.site_passed number m ended]
    exact h
  finished {number m ended v} h := by
    show Registry.Named _
    rw [v.world.site_finished number m ended]
    exact h
  abandoned _ h := h

/-- From groups that are stored under their names, every change of the registry is warranted when
it is asked for. -/
theorem guarded_holds (hE : E.SparesRegistry) (hn : w.site.registry.Named)
    (h : Moment.Reaches E (.still w) m) : guarded.Holds E m :=
  (guarded_lawful hE).holds hn (fun _ _ _ _ _ _ _ => trivial) h

/-! ### Steps and schedules -/

/-- A step is the answer to a call of the running activity. -/
def Moment.Answers (m : Moment) (c : Call) (m' : Moment) : Prop :=
  ∃ agent owed next answer, m.running = some ⟨agent, owed, .ask (.call c) next⟩ ∧
    m.world.meet (.call c) = (.answered answer, m'.world)

/-- A step answers a call, or happens outside, or leaves the services alone. -/
theorem Moment.Step.site (hs : m.Step E m') :
    (∃ c, m.Answers c m') ∨ E.outside m.world m'.world ∨ m'.world.site = m.world.site := by
  cases hs with
  | outside ho => exact .inr (.inl ho)
  | @answers w w' waiting agent owed q next answer h =>
    cases q with
    | call c => exact .inl ⟨c, agent, owed, next, answer, rfl, h⟩
    | _ => exact .inr (.inr (World.site_of_no_call h fun c => by simp))
  | @ends w w' waiting agent owed rest ended he =>
    refine .inr (.inr ?_)
    rw [Moment.site_close, he.site]
  | ticks | begins | drains | waits | resumes | drops => exact .inr (.inr rfl)

/-- A step leaves the registry alone, or answers a warranted call. -/
theorem Moment.Step.registry (hE : E.SparesRegistry) (h : guarded.Holds E m) (hs : m.Step E m') :
    m'.world.site.registry = m.world.site.registry ∨
      ∃ c answer, m.Answers c m' ∧ m.world.site.registry.Warranted c ∧
        m.world.site.registry.Serves c answer m'.world.site.registry := by
  rcases hs.site with ⟨c, hc⟩ | ho | hsite
  · obtain ⟨agent, owed, next, answer, hrun, hmeet⟩ := id hc
    refine .inr ⟨c, answer, hc, ?_, World.serves_of_answered hmeet⟩
    obtain ⟨w, running, waiting⟩ := m
    obtain rfl : running = _ := hrun
    exact h.safe trivial c rfl
  · exact .inl (hE ho)
  · exact .inl (by rw [hsite])

/-- What warranted changes keep holds of the registry at every moment. -/
theorem Registry.invariant (hE : E.SparesRegistry) {P : Registry → Prop}
    (hP : ∀ {r r' : Registry} {c : Call} {answer : c.Answer}, r.Named → r.Warranted c →
      r.Serves c answer r' → P r → P r')
    (hn : w.site.registry.Named) (hw : P w.site.registry) (h : Moment.Reaches E (.still w) m) :
    P m.world.site.registry := by
  have hboth : m.world.site.registry.Named ∧ P m.world.site.registry := by
    induction h with
    | refl => exact ⟨hn, hw⟩
    | @tail m₁ m₂ h₁ hs ih =>
      rcases hs.registry hE (guarded_holds hE hn h₁) with heq | ⟨c, answer, -, hc, hserves⟩
      · rw [heq]
        exact ih
      · exact ⟨hserves.named ih.1, hP ih.1 hc hserves ih.2⟩
  exact hboth.2

end ServerGroups
