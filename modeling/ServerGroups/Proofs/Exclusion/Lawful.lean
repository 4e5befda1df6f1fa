/-
ServerGroups/Proofs/Exclusion/Lawful.lean

At every moment of every schedule everyone has what they should.

`exclusive` is the discipline of being at some stage whenever a request is
made, and at the stage `free` whenever nothing runs.  It is lawful because
every operation leads from `free` to `free`, and because a drain changes
neither the registry nor what anyone has, until it ends.

A reservation that is not the coordinator's own is `Foreign`.  No step of the
coordinator takes a foreign reservation away or claims its server
(`Moment.Step.foreign`).
-/
import ServerGroups.Proofs.Exclusion.Grasp

namespace ServerGroups

open World

/-- What happens outside changes nothing that the coordinator relies on. -/
def Setting.Spares (E : Setting) : Prop := ∀ {w w' : World}, E.outside w w' → w.Spares w'

theorem Setting.Spares.sparesRegistry {E : Setting} (hE : E.Spares) : E.SparesRegistry :=
  fun ho => (hE ho).registry

/-- Anything may be called and given up, and nothing happens outside. -/
def Setting.secluded : Setting := ⟨fun _ => True, fun _ => True, fun _ _ => False⟩

theorem Setting.spares_secluded : Setting.secluded.Spares := False.elim

/-- Every request fits the stage in which it is made, and nobody holds anything at rest but the
drain that runs. -/
def exclusive : Discipline where
  calm _ w := w.At .free
  given q v := ∀ c, q = .call c → v.world.site.registry.Warranted c
  safe q v := ∃ st, v.world.At st ∧ st.Fits q
  closed
    | .operation _, _, v => ∃ st, v.world.At st
    | .pass number m, _, v => v.world.At .free ∧ v.world.Running number m
    | .finish number m, _, v => v.world.At .free ∧ v.world.Running number m

variable {E : Setting} {w w' : World} {m m' : Moment}

/-! ### The discipline -/

theorem Setting.Spares.drifts (hE : E.Spares) (h : E.Drifts w w') : w.Spares w' := by
  induction h with
  | refl => exact .refl _
  | outside _ ho ih => exact ih.trans (hE ho)
  | ticks _ time ih => exact ih.trans (spares_advance _ time)

/-- An operation that leads through the stages keeps to the discipline. -/
theorem exclusive_keeps (hE : E.Spares) {o : Operation} {p : Program (Agent.operation o).Result}
    {post : (Agent.operation o).Result → Stage → Prop} : ∀ {st : Stage} {v : View},
      v.world.At st → p.Ensures Stage.rule post st → exclusive.Keeps E (.operation o) p v := by
  induction p with
  | done result => exact fun {st v} hv _ => ⟨st, hv⟩
  | fail cause => exact fun {st v} hv _ => ⟨st, hv⟩
  | ask q next ih =>
    intro st v hv h
    obtain ⟨hfits, hnext⟩ := h
    have hfree : q.pauses = true → v.world.At .free := by
      intro hq
      rw [← hfits.of_pauses hq]
      exact hv
    refine ⟨hfree, fun v' hmeets hgiven => ?_⟩
    have hv' : v'.world.At st := by
      have hm := hmeets.2
      by_cases hq : q.pauses = true
      · rw [if_pos hq] at hm
        rw [hfits.of_pauses hq]
        exact hm
      · rw [if_neg hq] at hm
        exact (hE.drifts hm.2).at hv
    refine ⟨⟨st, hv', hfits⟩, fun answer w hw => ?_, fun cause w hw => ?_, fun w hw => ?_⟩
    · exact ih answer (hv'.answered hfits hgiven hw) (hnext answer)
    · exact ⟨st, (spares_of_not_answered hw fun _ => by simp).at hv'⟩
    · exact ⟨st, (spares_of_not_answered hw fun _ => by simp).at hv'⟩

/-- A drain that only reads and unassigns keeps to the discipline. -/
theorem exclusive_keeps_quiet (hE : E.Spares) {a : Agent} {number : Nat} {m : Move}
    (ha : ∀ {ended v}, v.world.At .free → v.world.Running number m → exclusive.closed a ended v)
    {p : Program a.Result} : ∀ {v : View}, v.world.At .free → v.world.Running number m →
      p.Quiet → exclusive.Keeps E a p v := by
  induction p with
  | done result => exact fun hv hm _ => ha hv hm
  | fail cause => exact fun _ _ h => h.elim
  | ask q next ih =>
    intro v hv hm h
    obtain ⟨hq, hnext⟩ := h
    have hpauses := Request.not_pauses_of_reads hq
    refine ⟨fun _ => hv, fun v' hmeets _ => ?_⟩
    have hdrift := hmeets.2
    rw [if_neg (by simp [hpauses])] at hdrift
    have hspares := hE.drifts hdrift.2
    have hmet : ∀ {reply : Reply q.Answer} {w : World}, v'.world.meet q = (reply, w) →
        w.At .free ∧ w.Running number m := by
      intro reply w hw
      have hall := hspares.trans (spares_of_reads hq hw)
      exact ⟨hall.at hv, hall.running.2 hm⟩
    refine ⟨⟨.free, hspares.at hv, (Stage.fits_of_reads hq _).1⟩, fun answer w hw => ?_,
      fun cause w hw => ?_, fun w hw => ?_⟩
    · exact ih answer (hmet hw).1 (hmet hw).2 (hnext answer)
    · exact ha (hmet hw).1 (hmet hw).2
    · exact ha (hmet hw).1 (hmet hw).2

theorem Operation.spares_conclude (o : Operation) (ended : Outcome o.Answer) (w : World) :
    w.Spares (o.conclude (ended, w)).2 := by
  cases o with
  | forgetTable t =>
    cases ended with
    | failed cause => exact spares_report w _
    | _ => exact .refl w
  | _ => exact .refl w

theorem closed_spares {a : Agent} {ended : Progress a.Result} {v : View}
    (h : exclusive.closed a ended v) (hw : v.world.Spares w') :
    exclusive.closed a ended { v with world := w' } := by
  cases a with
  | operation o =>
    obtain ⟨st, hst⟩ := h
    exact ⟨st, hw.at hst⟩
  | pass number m => exact ⟨hw.at h.1, hw.running.2 h.2⟩
  | finish number m => exact ⟨hw.at h.1, hw.running.2 h.2⟩

theorem exclusive_lawful (hE : E.Spares) : exclusive.Lawful E where
  calm_outside h ho := (hE ho).at h
  calm_ticks h := (spares_advance _ _).at h
  closed_outside h ho := closed_spares h (hE ho)
  closed_ticks h := closed_spares h (spares_advance _ _)
  operation _ h := exclusive_keeps hE h (Operation.leads _)
  pass {number m w others} hm he h := by
    have hrun : w.Running number m := ⟨hm, he⟩
    exact exclusive_keeps_quiet hE (a := .pass number m.drain) (fun hv hr => ⟨hv, hr⟩)
      (World.At.setMove h hrun rfl rfl) (hrun.setMove he) (Coordinator.quiet_drainPass _ _)
  finish {number m v} h := by
    obtain ⟨hv, hrun⟩ := h
    exact exclusive_keeps_quiet hE (a := .finish number m.settle) (fun hv hr => ⟨hv, hr⟩)
      (hv.setMove hrun rfl rfl) (hrun.setMove hrun.2) (Coordinator.quiet_finishMove _)
  concluded {o ended v} h := by
    obtain ⟨st, hst⟩ := h
    exact (o.spares_conclude ended.outcome _).at hst.letGo
  passed {number m ended v} _ h := by
    obtain ⟨hv, hrun⟩ := h
    cases ended with
    | returned busy => exact hv.setMove hrun rfl rfl
    | failed cause =>
      have hreport := spares_report v.world (.drainFailed m.source m.target cause)
      exact (hreport.at hv).endMove (hreport.running.2 hrun) _
    | crashed => exact hv.endMove hrun _
    | waiting rest => exact hv.endMove hrun _
  finished {number m ended v} h := by
    obtain ⟨hv, hrun⟩ := h
    cases ended with
    | returned result => exact hv.endMove hrun _
    | failed cause => exact hv.endMove hrun _
    | crashed => exact hv.endMove hrun _
    | waiting rest => exact hv.endMove hrun _
  abandoned _ h := World.At.letGo h

/-- Nothing is held in a world where no drain runs and no operation has run. -/
structure World.Fresh (w : World) : Prop where
  named : w.site.registry.Named
  idle : w.Idle
  held : w.held = ∅
  unlocked : ∀ g ∈ w.locks.grants, g.holder ≠ .operation

theorem World.fresh_start (config : Config) {site : Site} (hn : site.registry.Named) :
    (start config site).Fresh where
  named := hn
  idle number m hm := by cases hm.1
  held := rfl
  unlocked g hg := by cases hg

/-- What an operation asks of the registry is warranted. -/
theorem exclusive_given (hg : guarded.Holds E m) : exclusive.Given m := by
  obtain ⟨w, running, waiting⟩ := m
  rintro agent owed q next hrun c rfl
  obtain rfl : running = _ := hrun
  exact hg.safe trivial c rfl

/-- On every run from a fresh world everyone keeps to both disciplines. -/
theorem exclusive_holds (hE : E.Spares) (hw : w.Fresh) (h : Moment.Reaches E (.still w) m) :
    guarded.Holds E m ∧ exclusive.Holds E m := by
  have hg : ∀ {m'}, Moment.Reaches E (.still w) m' → guarded.Holds E m' :=
    fun h' => guarded_holds hE.sparesRegistry (fun hk => hw.named hk) h'
  refine ⟨hg h, (exclusive_lawful hE).holds ?_ (fun _ hm' => exclusive_given (hg hm')) h⟩
  exact hw.idle.at ⟨hw.held, hw.unlocked⟩

/-- What holds where the running activity ends. -/
theorem exclusive_closed {waiting : List Activity} {a : Agent} {owed : Set Region}
    {rest : Program a.Result} {ended : Progress a.Result}
    (hg : guarded.Holds E ⟨w, some ⟨a, owed, rest⟩, waiting⟩)
    (h : exclusive.Holds E ⟨w, some ⟨a, owed, rest⟩, waiting⟩) (he : w.Ends rest ended w') :
    exclusive.closed a ended ⟨w', owed, Activity.debts waiting⟩ :=
  (h.running _ rfl).closed (fun q next (hr : rest = .ask q next) =>
    exclusive_given hg a owed q next (by rw [hr])) he

/-! ### At every moment -/

/-- At every moment the running activity is at some stage. -/
theorem exists_at (hg : guarded.Holds E m) (h : exclusive.Holds E m) :
    ∃ st, m.world.At st := by
  obtain ⟨w, running, waiting⟩ := m
  rcases running with - | ⟨a, owed, rest⟩
  · exact ⟨.free, h.calm rfl⟩
  · have hclosed : ∀ {ended v}, exclusive.closed a ended v → ∃ st, v.world.At st := by
      intro ended v hv
      cases a with
      | operation o => exact hv
      | pass number m => exact ⟨.free, hv.1⟩
      | finish number m => exact ⟨.free, hv.1⟩
    have hkeeps := h.running _ rfl
    cases rest with
    | done result => exact hclosed hkeeps
    | fail cause => exact hclosed hkeeps
    | ask q next =>
      obtain ⟨st, hst, -⟩ := h.safe (exclusive_given hg _ _ _ _ rfl)
      exact ⟨st, hst⟩

/-- While a drain runs, no step changes the registry. -/
theorem Moment.Step.registry_eq (hE : E.Spares) (hg : guarded.Holds E m)
    (h : exclusive.Holds E m) {number : Nat} {x : Move} (hx : m.world.Running number x)
    (hs : m.Step E m') : m'.world.site.registry = m.world.site.registry := by
  rcases hs.registry hE.sparesRegistry hg with heq | ⟨c, answer, hc, hwarranted, hserves⟩
  · exact heq
  · refine hserves.eq_of_reads (Bool.eq_false_iff.2 fun hwrites => ?_)
    obtain ⟨agent, owed, next, -, hrun, -⟩ := hc
    obtain ⟨w, running, waiting⟩ := m
    obtain rfl : running = _ := hrun
    obtain ⟨st, hst, hfits⟩ := h.safe (exclusive_given hg _ _ _ _ rfl)
    exact hst.idle_of_writes hfits hwrites number x hx

/-! ### Reservations of others -/

/-- A server is reserved, and not by the coordinator. -/
def World.Foreign (w : World) (s : ServerAddress) (target : String) : Prop :=
  w.reservations.target? s = some target ∧ ¬ w.Claims s

section Foreign

variable {s : ServerAddress} {target : String} {number : Nat} {x y : Move} {st : Stage}

theorem World.Foreign.mono (h : w.Foreign s target) (hr : w'.reservations = w.reservations)
    (hc : w'.Claims s → w.Claims s) : w'.Foreign s target := by
  refine ⟨?_, fun hs => h.2 (hc hs)⟩
  rw [hr]
  exact h.1

theorem World.Alike.foreign (ha : w.Alike w') (h : w.Foreign s target) :
    w'.Foreign s target := by
  refine h.mono ha.reservations fun hc => ?_
  simpa only [Claims, Running, ha.held, ha.moves] using hc

/-- What is claimed after a move was replaced was claimed before. -/
theorem World.claims_setMove (hx : w.Running number x) (hservers : y.servers = x.servers)
    (h : (w.setMove number y).Claims s) : w.Claims s := by
  rcases h with hs | ⟨k, z, hz, hs⟩
  · exact .inl hs
  · rcases running_setMove hz with ⟨rfl, rfl⟩ | ⟨-, hz⟩
    · exact .inr ⟨k, x, hx, hservers ▸ hs⟩
    · exact .inr ⟨k, z, hz, hs⟩

theorem World.Foreign.setMove (h : w.Foreign s target) (hx : w.Running number x)
    (hservers : y.servers = x.servers) : (w.setMove number y).Foreign s target :=
  h.mono rfl fun hc => claims_setMove hx hservers hc

/-- A drain that ends gives back only its own reservation. -/
theorem World.Foreign.endMove (h : w.Foreign s target) (hx : w.Running number x)
    (hservers : y.servers = x.servers) (ending : Ending) :
    (w.endMove number y ending).Foreign s target := by
  refine ⟨?_, fun hc => h.2 (claims_setMove (y := { y with ending := some ending }) hx hservers hc)⟩
  show (w.reservations.release y.servers).target? s = some target
  rw [Reservations.target?_release, if_neg fun hs => h.2 (.inr ⟨number, x, hx, hservers ▸ hs⟩)]
  exact h.1

/-- An operation that ends gives back only what it has reserved. -/
theorem World.Foreign.letGo (h : w.Foreign s target) : w.letGo.Foreign s target := by
  refine ⟨?_, fun hc => h.2 ?_⟩
  · show (w.reservations.release w.held).target? s = some target
    rw [Reservations.target?_release, if_neg fun hs => h.2 (.inl hs)]
    exact h.1
  · exact hc.elim (fun hs => absurd hs Std.ExtTreeSet.not_mem_empty) .inr

/-- No request takes a server that someone else has reserved. -/
theorem World.At.foreign (hst : w.At st) {q : Request} (hf : st.Fits q) {answer : q.Answer}
    (hm : w.meet q = (.answered answer, w')) (h : w.Foreign s target) : w'.Foreign s target := by
  cases q with
  | call c => exact (alike_call hm).foreign h
  | note n =>
    obtain ⟨-, rfl⟩ := Prod.mk.inj hm
    exact h.mono rfl id
  | lock l shared holder =>
    obtain ⟨rfl, rfl, rfl⟩ := hf
    rcases meet_lock hm with ⟨hr, -⟩ | ⟨-, -, rfl⟩
    · cases hr
    · exact h.mono rfl id
  | unlock l =>
    obtain ⟨-, rfl⟩ := Prod.mk.inj hm
    exact h.mono rfl id
  | reservations =>
    obtain ⟨-, rfl⟩ := Prod.mk.inj hm
    exact h
  | reserve servers goal =>
    rcases meet_reserve hm with ⟨cause, hr, -⟩ | ⟨-, reservations, hr, rfl⟩
    · cases hr
    · rcases Reservations.target?_of_reserve hr s with ⟨-, hnone, -⟩ | ⟨hs, heq⟩
      · cases hnone.symm.trans h.1
      · exact ⟨heq.trans h.1, fun hc => hc.elim hs fun hrun => h.2 (.inr hrun)⟩
  | launch servers source goal =>
    obtain rfl : st = .enrolled servers goal := hf
    obtain ⟨-, rfl⟩ := Prod.mk.inj hm
    obtain ⟨hheld, hlocked, -⟩ := hst.grasped
    refine ⟨h.1, fun hc => h.2 (.inl ?_)⟩
    rcases hc with hs | ⟨k, z, hz, hs⟩
    · exact absurd hs Std.ExtTreeSet.not_mem_empty
    · obtain ⟨-, rfl⟩ := running_launch (hst.idle_of_locked hlocked) hz
      rw [hheld]
      exact hs
  | join k =>
    obtain ⟨rfl, -⟩ := meet_join hm
    exact h

theorem World.Ends.alike {α : Type} {rest : Program α} {ended : Progress α}
    (h : w.Ends rest ended w') : w.Alike w' := by
  cases h with
  | returned => exact .refl _
  | refused => exact .refl _
  | failed h => exact alike_of_not_answered h fun _ => by simp
  | crashed h => exact alike_of_not_answered h fun _ => by simp

/-- No end of an activity gives back what someone else has reserved. -/
theorem World.Foreign.close (h : w.Foreign s target) {waiting : List Activity} {a : Agent}
    {ended : Progress a.Result} {owed others : Set Region}
    (hc : exclusive.closed a ended ⟨w, owed, others⟩) :
    (Moment.close w waiting a ended).world.Foreign s target := by
  cases a with
  | operation o =>
    show (o.conclude (ended.outcome, w.letGo)).2.Foreign s target
    cases o with
    | forgetTable t => cases ended <;> exact h.letGo
    | _ => exact h.letGo
  | pass number x =>
    cases ended with
    | returned busy => cases busy <;> exact h.setMove hc.2 rfl
    | failed cause =>
      have hreport : (w.report (.drainFailed x.source x.target cause)).Foreign s target :=
        h.mono rfl id
      exact hreport.endMove (x := x) (y := { x with phase := .failed }) hc.2 rfl _
    | crashed => exact h.endMove hc.2 rfl _
    | waiting rest => exact h.endMove hc.2 rfl _
  | finish number x => cases ended <;> exact h.endMove hc.2 rfl _

/-- A step of the coordinator takes nobody else's reservation away, and claims no server that
someone else has reserved. -/
theorem Moment.Step.foreign {E' : Setting} (hg : guarded.Holds E m) (h : exclusive.Holds E m)
    (hs : m.Step E' m') :
    E'.outside m.world m'.world ∨
      ∀ s target, m.world.Foreign s target → m'.world.Foreign s target := by
  cases hs with
  | outside ho => exact .inl ho
  | ticks time => exact .inr fun s target hf => hf.mono rfl id
  | begins | waits | resumes => exact .inr fun s target hf => hf
  | drains hm he => exact .inr fun s target hf => hf.setMove ⟨hm, he⟩ rfl
  | answers hm =>
    obtain ⟨st, hst, hfits⟩ := h.safe (exclusive_given hg _ _ _ _ rfl)
    exact .inr fun s target hf => hst.foreign hfits hm hf
  | @ends w w' waiting agent owed rest ended he =>
    have hclosed := exclusive_closed hg h he
    exact .inr fun s target hf => (he.alike.foreign hf).close hclosed
  | drops => exact .inr fun s target hf => hf.letGo

end Foreign

end ServerGroups
