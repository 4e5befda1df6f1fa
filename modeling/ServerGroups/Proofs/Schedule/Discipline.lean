/-
ServerGroups/Proofs/Schedule/Discipline.lean

Proving what holds at every moment from what each program ensures on its own.

A `Discipline` names a condition on the worlds at rest, `calm`, which every
activity may rely on when it starts and whenever it goes on after a wait, and
which it restores before it waits and when it ends.  In between it runs alone,
but what is outside may change before each of its requests, and each request
has to be `safe` when it is met.  What another discipline has shown of the
requests that are made may be taken as `given`.

`Lawful.holds` is the soundness theorem: if every program of the coordinator
ensures the discipline, and giving up, ending and finishing keep worlds calm,
then at every moment that can be reached the running activity, and every one
that waits, still ensures it.

Design.  The condition is told from outside of an activity, so it is indexed
by what all activities together have yet to unassign; an activity knows its
own share, and of the others' only that it does not change while it runs.
-/
import ServerGroups.Proofs.Ensures
import ServerGroups.Proofs.Schedule.Basic

namespace ServerGroups

/-- A world as one activity sees it. -/
structure View where
  world : World
  /-- What the activity has yet to unassign. -/
  owed : Set Region
  /-- What the others have yet to unassign. -/
  others : Set Region

/-- What may happen while an activity is between two requests. -/
inductive Setting.Drifts (E : Setting) : World → World → Prop
  | refl (w) : Drifts E w w
  | outside {w w' w''} (h : Drifts E w w') (ho : E.outside w' w'') : Drifts E w w''
  | ticks {w w'} (h : Drifts E w w') (time : Nat) : Drifts E w (w'.advance time)

theorem Setting.Drifts.trans {E : Setting} {w w' w'' : World} (h : E.Drifts w w')
    (h' : E.Drifts w' w'') : E.Drifts w w'' := by
  induction h' with
  | refl => exact h
  | outside _ ho ih => exact .outside ih ho
  | ticks _ time ih => exact .ticks ih time

/-- What activities keep to. -/
structure Discipline where
  /-- What holds while nothing runs, for what the waiting operations have yet to unassign. -/
  calm : Set Region → World → Prop
  /-- What is known of a request already when it is met. -/
  given : Request → View → Prop
  /-- What holds when a request is met. -/
  safe : Request → View → Prop
  /-- What holds when an agent's program has ended. -/
  closed : (a : Agent) → Progress a.Result → View → Prop

namespace Discipline

variable {D : Discipline} {E : Setting}

/-! ### Keeping to a discipline -/

/-- The situation in which a request is met: after a wait any calm one, and otherwise the one in
which it was made, but for what has happened outside. -/
def Meets (D : Discipline) (E : Setting) (q : Request) (v v' : View) : Prop :=
  v'.owed = v.owed ∧
    if q.pauses then D.calm (v'.others ∪ v'.owed) v'.world
    else v'.others = v.others ∧ E.Drifts v.world v'.world

/-- The rule that an agent's requests follow. -/
def rule (D : Discipline) (E : Setting) (a : Agent) : Rule View where
  ask q post v :=
    (q.pauses → D.calm (v.others ∪ v.owed) v.world) ∧
    ∀ v', D.Meets E q v v' → D.given q v' → D.safe q v' ∧
      (∀ answer w, v'.world.meet q = (.answered answer, w) →
        post answer ⟨w, q.owed answer v'.owed, v'.others⟩) ∧
      (∀ cause w, v'.world.meet q = (.failed cause, w) →
        D.closed a (.failed cause) ⟨w, v'.owed, v'.others⟩) ∧
      (∀ w, v'.world.meet q = (.crashed, w) → D.closed a .crashed ⟨w, v'.owed, v'.others⟩)
  fail cause v := D.closed a (.failed cause) v

theorem rule_monotone {a : Agent} : (D.rule E a).Monotone := by
  intro q post post' v h hask
  refine ⟨hask.1, fun v' hv hg => ?_⟩
  obtain ⟨hsafe, hanswered, hfailed, hcrashed⟩ := hask.2 v' hv hg
  exact ⟨hsafe, fun answer w hw => h _ _ (hanswered answer w hw), hfailed, hcrashed⟩

/-- An agent keeps to the discipline with what is left of its program. -/
def Keeps (D : Discipline) (E : Setting) (a : Agent) (rest : Program a.Result) (v : View) : Prop :=
  rest.Ensures (D.rule E a) (fun result => D.closed a (.returned result)) v

/-- An activity that waits goes on from every calm world. -/
def Parked (D : Discipline) (E : Setting) (a : Activity) : Prop :=
  ∀ w others, D.calm (others ∪ a.owed) w → D.Keeps E a.agent a.rest ⟨w, a.owed, others⟩

/-- What the discipline takes as given of the next request is so. -/
def Given (D : Discipline) (m : Moment) : Prop :=
  ∀ a owed q next, m.running = some ⟨a, owed, .ask q next⟩ →
    D.given q ⟨m.world, owed, Activity.debts m.waiting⟩

/-- What a discipline needs of the programs and of the steps between them. -/
structure Lawful (D : Discipline) (E : Setting) : Prop where
  calm_outside : ∀ {owed w w'}, D.calm owed w → E.outside w w' → D.calm owed w'
  calm_ticks : ∀ {owed w time}, D.calm owed w → D.calm owed (w.advance time)
  closed_outside : ∀ {a ended v w'}, D.closed a ended v → E.outside v.world w' →
    D.closed a ended { v with world := w' }
  closed_ticks : ∀ {a ended v time}, D.closed a ended v →
    D.closed a ended { v with world := v.world.advance time }
  operation : ∀ {o w others}, E.called o → D.calm others w →
    D.Keeps E (.operation o) o.program ⟨w, ∅, others⟩
  pass : ∀ {number m w others}, w.moves[number]? = some m → m.ending = none →
    D.calm others w → D.Keeps E (.pass number m.drain) (Coordinator.drainPass w.config m.drain)
      ⟨w.setMove number m.drain, ∅, others⟩
  finish : ∀ {number m v}, D.closed (.pass number m) (.returned []) v →
    D.Keeps E (.finish number m.settle) (Coordinator.finishMove m.settle)
      ⟨v.world.setMove number m.settle, ∅, v.others⟩
  concluded : ∀ {o ended v}, D.closed (.operation o) ended v →
    D.calm v.others (o.conclude (ended.outcome, v.world.letGo)).2
  passed : ∀ {number m ended v}, ended ≠ .returned [] → D.closed (.pass number m) ended v →
    D.calm v.others (v.world.passed number m ended)
  finished : ∀ {number m ended v}, D.closed (.finish number m) ended v →
    D.calm v.others (v.world.finished number m ended)
  abandoned : ∀ {activity w others}, E.abandoned activity →
    D.calm (others ∪ activity.owed) w → D.calm others w.letGo

/-- What holds at a moment if everyone keeps to a discipline. -/
structure Holds (D : Discipline) (E : Setting) (m : Moment) : Prop where
  calm : m.running = none → D.calm (Activity.debts m.waiting) m.world
  parked : ∀ a ∈ m.waiting, D.Parked E a
  running : ∀ a, m.running = some a →
    D.Keeps E a.agent a.rest ⟨m.world, a.owed, Activity.debts m.waiting⟩

/-! ### What one step keeps -/

theorem Holds.rest {w : World} {waiting : List Activity} (hp : ∀ a ∈ waiting, D.Parked E a)
    (hc : D.calm (Activity.debts waiting) w) : D.Holds E ⟨w, none, waiting⟩ :=
  ⟨fun _ => hc, hp, fun _ h => by cases h⟩

theorem Holds.run {w : World} {waiting : List Activity} {a : Activity}
    (hp : ∀ a ∈ waiting, D.Parked E a)
    (hk : D.Keeps E a.agent a.rest ⟨w, a.owed, Activity.debts waiting⟩) :
    D.Holds E ⟨w, some a, waiting⟩ := by
  refine ⟨fun h => (by cases h), hp, fun b hb => ?_⟩
  obtain rfl := Option.some.inj hb
  exact hk

/-- What an activity still ensures is not spoilt by what happens outside. -/
theorem Keeps.drift {a : Agent} {rest : Program a.Result} {v : View}
    {w' : World} (h : D.Keeps E a rest v) (hw : E.Drifts v.world w')
    (hcalm : ∀ owed, D.calm owed v.world → D.calm owed w')
    (hclosed : ∀ ended, D.closed a ended v → D.closed a ended { v with world := w' }) :
    D.Keeps E a rest { v with world := w' } := by
  cases rest with
  | done result => exact hclosed _ h
  | fail cause => exact hclosed _ h
  | ask q next =>
    refine ⟨fun hq => hcalm _ (h.1 hq), fun v' hv hg => h.2 v' ⟨hv.1, ?_⟩ hg⟩
    have hm := hv.2
    by_cases hq : q.pauses = true
    · rw [if_pos hq] at hm ⊢
      exact hm
    · rw [if_neg hq] at hm ⊢
      exact ⟨hm.1, hw.trans hm.2⟩

/-- What happens outside keeps everyone to the discipline. -/
theorem Holds.drift {w w' : World} {running : Option Activity}
    {waiting : List Activity} (h : D.Holds E ⟨w, running, waiting⟩) (hw : E.Drifts w w')
    (hcalm : ∀ owed, D.calm owed w → D.calm owed w')
    (hclosed : ∀ a ended owed others, D.closed a ended ⟨w, owed, others⟩ →
      D.closed a ended ⟨w', owed, others⟩) : D.Holds E ⟨w', running, waiting⟩ := by
  refine ⟨fun hr => hcalm _ (h.calm hr), h.parked, fun a ha => ?_⟩
  exact (h.running a ha).drift hw hcalm (fun ended => hclosed _ ended _ _)

/-- The request of a running activity, met at once. -/
theorem Meets.now {q : Request} {v : View}
    (h : q.pauses → D.calm (v.others ∪ v.owed) v.world) : D.Meets E q v v := by
  refine ⟨rfl, ?_⟩
  by_cases hq : q.pauses = true
  · rw [if_pos hq]
    exact h hq
  · rw [if_neg hq]
    exact ⟨rfl, .refl _⟩

/-- A program that ends where it stands is closed. -/
theorem Keeps.closed {a : Agent} {rest : Program a.Result} {ended : Progress a.Result}
    {w w' : World} {owed others : Set Region} (h : D.Keeps E a rest ⟨w, owed, others⟩)
    (hg : ∀ q next, rest = .ask q next → D.given q ⟨w, owed, others⟩)
    (he : w.Ends rest ended w') : D.closed a ended ⟨w', owed, others⟩ := by
  cases he with
  | returned => exact h
  | refused => exact h
  | failed hm => exact (h.2 _ (.now h.1) (hg _ _ rfl)).2.2.1 _ _ hm
  | crashed hm => exact (h.2 _ (.now h.1) (hg _ _ rfl)).2.2.2 _ hm

/-- An activity that has come to a wait goes on from every calm world. -/
theorem Keeps.parked {a : Agent} {q : Request} {next : q.Answer → Program a.Result} {v : View}
    (hq : q.pauses) (h : D.Keeps E a (.ask q next) v) :
    D.Parked E ⟨a, v.owed, .ask q next⟩ := by
  intro w others hcalm
  refine ⟨fun _ => hcalm, fun v' hv hg => h.2 v' ⟨hv.1, ?_⟩ hg⟩
  have hm := hv.2
  rw [if_pos hq] at hm ⊢
  exact hm

/-- The end of an agent's program leaves everyone to the discipline. -/
theorem Lawful.holds_close (hD : D.Lawful E) {waiting : List Activity}
    (hp : ∀ a ∈ waiting, D.Parked E a) : ∀ {a : Agent} {ended : Progress a.Result} {v : View},
    v.others = Activity.debts waiting → D.closed a ended v →
      D.Holds E (.close v.world waiting a ended)
  | .operation o, ended, v, hv, h => .rest hp (hv ▸ hD.concluded h)
  | .pass number m, .returned [], v, hv, h => .run hp (hv ▸ hD.finish h)
  | .pass number m, .returned (s :: busy), v, hv, h => .rest hp (hv ▸ hD.passed (by simp) h)
  | .pass number m, .failed cause, v, hv, h => .rest hp (hv ▸ hD.passed (by simp) h)
  | .pass number m, .crashed, v, hv, h => .rest hp (hv ▸ hD.passed (by simp) h)
  | .pass number m, .waiting rest, v, hv, h => .rest hp (hv ▸ hD.passed (by simp) h)
  | .finish number m, ended, v, hv, h => .rest hp (hv ▸ hD.finished h)

theorem mem_debts_middle {before after : List Activity} {a : Activity} :
    Activity.debts (before ++ a :: after) = Activity.debts (before ++ after) ∪ a.owed := by
  ext r
  simp only [Activity.debts, List.mem_append, List.mem_cons, Set.mem_ofPred_eq, Set.mem_union]
  constructor
  · rintro ⟨b, hb | rfl | hb, hr⟩
    · exact .inl ⟨b, .inl hb, hr⟩
    · exact .inr hr
    · exact .inl ⟨b, .inr hb, hr⟩
  · rintro (⟨b, hb | hb, hr⟩ | hr)
    · exact ⟨b, .inl hb, hr⟩
    · exact ⟨b, .inr (.inr hb), hr⟩
    · exact ⟨a, .inr (.inl rfl), hr⟩

/-- Whatever happens next, everyone still keeps to the discipline. -/
theorem Lawful.step (hD : D.Lawful E) {m m' : Moment} (h : D.Holds E m) (hg : D.Given m)
    (hs : m.Step E m') : D.Holds E m' := by
  cases hs with
  | outside ho =>
    exact h.drift (.outside (.refl _) ho) (fun _ hc => hD.calm_outside hc ho)
      (fun _ _ _ _ hc => hD.closed_outside hc ho)
  | ticks time =>
    exact h.drift (.ticks (.refl _) time) (fun _ hc => hD.calm_ticks hc)
      (fun _ _ _ _ hc => hD.closed_ticks hc)
  | begins ho => exact .run h.parked (hD.operation ho (h.calm rfl))
  | drains hm he => exact .run h.parked (hD.pass hm he (h.calm rfl))
  | answers hm =>
    have hk := h.running _ rfl
    exact .run h.parked ((hk.2 _ (.now hk.1) (hg _ _ _ _ rfl)).2.1 _ _ hm)
  | @ends w w' waiting agent owed rest ended he =>
    have hc := (h.running _ rfl).closed (fun q next (hr : rest = .ask q next) =>
      hg agent owed q next (by rw [hr])) he
    exact hD.holds_close h.parked rfl hc
  | @waits w waiting o owed request next hq =>
    have hk := h.running _ rfl
    refine .rest (fun a ha => ?_) ?_
    · rcases List.mem_cons.1 ha with rfl | ha
      · exact hk.parked hq
      · exact h.parked a ha
    · have hd : Activity.debts (⟨.operation o, owed, .ask request next⟩ :: waiting) =
          Activity.debts waiting ∪ owed := @mem_debts_middle [] waiting _
      rw [hd]
      exact hk.1 hq
  | @resumes w before a after =>
    refine .run (fun b hb => h.parked b ?_) (h.parked a (by simp) w _ ?_)
    · simp only [List.mem_append, List.mem_cons] at hb ⊢
      exact hb.elim .inl fun hb => .inr (.inr hb)
    · rw [← mem_debts_middle]
      exact h.calm rfl
  | @drops w before a after ha =>
    refine .rest (fun b hb => h.parked b ?_) (hD.abandoned ha ?_)
    · simp only [List.mem_append, List.mem_cons] at hb ⊢
      exact hb.elim .inl fun hb => .inr (.inr hb)
    · rw [← mem_debts_middle]
      exact h.calm rfl

/-! ### What every schedule keeps -/

/-- From a calm world, everyone keeps to the discipline at every moment. -/
theorem Lawful.holds (hD : D.Lawful E) {w : World} {m : Moment} (hw : D.calm ∅ w)
    (hg : ∀ m', Moment.Reaches E (.still w) m' → D.Given m')
    (h : Moment.Reaches E (.still w) m) : D.Holds E m := by
  induction h with
  | refl =>
    refine .rest (fun a ha => absurd ha List.not_mem_nil) ?_
    have hd : Activity.debts [] = ∅ := by simp [Activity.debts]
    rw [hd]
    exact hw
  | tail h hs ih => exact hD.step ih (hg _ h) hs

/-- The request of the running activity is safe. -/
theorem Holds.safe {w : World} {waiting : List Activity} {a : Agent} {owed : Set Region}
    {q : Request} {next : q.Answer → Program a.Result}
    (h : D.Holds E ⟨w, some ⟨a, owed, .ask q next⟩, waiting⟩)
    (hg : D.given q ⟨w, owed, Activity.debts waiting⟩) :
    D.safe q ⟨w, owed, Activity.debts waiting⟩ := by
  have hk := h.running _ rfl
  exact (hk.2 _ (.now hk.1) hg).1

end Discipline

end ServerGroups
