/-
ServerGroups/Proofs/Runs/TableMove.lean

What a move of tables comes to.

A move has two halves.  First the registry pins the tables to the target, all
of them at once and under the membership lock (`World.Repins`), if nothing
speaks against it (`Registry.Movable`).  Then the regions listed for the tables
are asked to be unassigned, table by table and each under the lock of its
table.

Where no service fails and the locks are free a move returns exactly if nothing
speaks against it, and it asks for every region that is listed.
-/
import ServerGroups.Proofs.Collections
import ServerGroups.Proofs.Runs.Holdings
import ServerGroups.Proofs.Runs.Requests

namespace ServerGroups

open Program

/-- Nothing speaks against a move of tables: its target, if there is one, has servers, and none of
the tables is pinned to it already. -/
structure Registry.Movable (r : Registry) (tables : TableSet) (target : Option String) : Prop where
  staffed : ∀ name, target = some name → ∃ g, r.groups[name]? = some g ∧ g.servers.size ≠ 0
  elsewhere : ∀ t ∈ tables, ∀ k, r.groupOfTable? t = some k → some k ≠ target

theorem Registry.Movable.moveTables {r : Registry} {tables : TableSet} {target : Option String}
    (h : r.Movable tables target) : ∃ r', r.moveTables tables target = .ok r' := by
  cases target with
  | none => exact ⟨_, rfl⟩
  | some name =>
    obtain ⟨g, hg, -⟩ := h.staffed name rfl
    exact ⟨_, Registry.moveTables_some_eq_ok.2
      ⟨Std.ExtTreeMap.mem_iff_isSome_getElem?.2 (by rw [hg]; rfl), rfl⟩⟩

namespace World

variable {v w w' x : World} {tables : TableSet} {target : Option String}

/-- The registry has moved tables, against which nothing spoke. -/
structure Repins (tables : TableSet) (target : Option String) (w x : World) : Prop
    extends w.Alike x where
  movable : w.site.registry.Movable tables target
  change : w.site.registry.moveTables tables target = .ok x.site.registry
  cluster : x.site.cluster = w.site.cluster
  working : w.Working → x.Working
  healthy : w.Healthy → x.Healthy
  unassigned : x.history.unassigned = w.history.unassigned
  now : x.now = w.now

theorem Repins.trans_same (h : w.Repins tables target w') (h' : w'.Same x) :
    w.Repins tables target x where
  config := h'.config.trans h.config
  reservations := h'.reservations.trans h.reservations
  locks := h'.locks.trans h.locks
  held := h'.held.trans h.held
  moves := h'.moves.trans h.moves
  movable := h.movable
  change := by
    rw [h'.registry]
    exact h.change
  cluster := h'.cluster.trans h.cluster
  working hw := h'.working (h.working hw)
  healthy hw := h'.healthy (h.healthy hw)
  unassigned := by
    rw [h'.unassigned, ← h.unassigned]
    simp
  now := h'.now.trans h.now

/-- The answered change of the registry, after looks only. -/
theorem repins_of_answered {answer : Unit} (hm : w.site.registry.Movable tables target)
    (hw' : w.Same w') (h : w'.meet (.call (.moveTables tables target)) = (.answered answer, x)) :
    w.Repins tables target x := by
  have hwrites := writes_of_answered rfl h
  exact
    { config := hwrites.config.trans hw'.config
      reservations := hwrites.reservations.trans hw'.reservations
      locks := hwrites.locks.trans hw'.locks
      held := hwrites.held.trans hw'.held
      moves := hwrites.moves.trans hw'.moves
      movable := hm
      change := Registry.Serves.moveTables ⟨_, hw'.registry, (answered_call h).1,
        congrArg Site.registry (answered_call h).2.symm⟩
      cluster := hwrites.cluster.trans hw'.cluster
      working := fun hw => hwrites.working (hw'.working hw)
      healthy := fun hw => hwrites.healthy (hw'.healthy hw)
      unassigned := by
        rw [hwrites.unassigned, hw'.unassigned]
        simp
      now := hwrites.now.trans hw'.now }

/-- What is asked for under a lock is asked for, once the lock has been given back. -/
theorem Asks.released {rs : List Region} {l : Lock} (hfree : w.locks.isFree l false = true)
    (h : (w.granted l).Asks rs x) : w.Asks rs (x.released l) :=
  { h with
    poses := ⟨h.poses.snapshots, h.poses.script⟩
    locks := by
      show x.locks.release l .operation = w.locks
      rw [h.locks]
      exact Locks.release_grant hfree }

/-- The registry's change under the membership lock, once the lock has been given back. -/
theorem Repins.released {l : Lock} (hfree : w.locks.isFree l false = true)
    (h : (w.granted l).Repins tables target x) : w.Repins tables target (x.released l) :=
  { h with
    locks := by
      show x.locks.release l .operation = w.locks
      rw [h.locks]
      exact Locks.release_grant hfree
    working := fun hw => (h.working (hw.granted l)).released l
    healthy := fun hw => (h.healthy (hw.granted l)).released l }

end World

/-! ### The first half -/

namespace Terms

open Coordinator World

variable {T : Terms} {w : World} {tables : TableSet} {target : Option String} {t : TableName}

theorem ensures_checkTarget {name : String} (hT : T.Allows w) {post : Unit → World → Prop}
    (hstop : ∀ cause x, (∀ g, w.site.registry.groups[name]? = some g → g.servers.size = 0) →
      w.Same x → T.stops cause x)
    (h : ∀ g x, w.Same x → w.site.registry.groups[name]? = some g → g.servers.size ≠ 0 →
      post () x) :
    (checkTarget name).Ensures T.rule post w := by
  unfold checkTarget
  rw [ensures_bind]
  refine ensures_look hT w.site.registry.groups[name]? rfl (fun _ => rfl) fun x hx => ?_
  rcases hg : w.site.registry.groups[name]? with - | g
  · exact hstop _ x (fun g hg' => absurd (hg.symm.trans hg') (by simp)) hx
  · dsimp only
    rw [Program.ensures_refuseIf]
    refine ⟨fun hempty => hstop _ x (fun g' hg' => ?_) hx, fun hne => h g x hx hg hne⟩
    rwa [← Option.some.inj (hg.symm.trans hg')]

theorem ensures_checkTable (hT : T.Allows w) {post : Unit → World → Prop}
    (hstop : ∀ k x, w.site.registry.groupOfTable? t = some k → some k = target → w.Same x →
      T.stops (some (.refused (.tableAlreadyThere t k))) x)
    (h : ∀ x, w.Same x → (∀ k, w.site.registry.groupOfTable? t = some k → some k ≠ target) →
      post () x) :
    (checkTable target t).Ensures T.rule post w := by
  unfold checkTable
  rw [ensures_bind]
  refine ensures_look hT (w.site.registry.groupOfTable? t) rfl (fun _ => rfl) fun x hx => ?_
  rcases hk : w.site.registry.groupOfTable? t with - | k
  · exact h x hx fun k hk' => absurd (hk.symm.trans hk') (by simp)
  · dsimp only
    rw [Program.ensures_refuseIf]
    refine ⟨fun heq => hstop k x hk heq hx, fun hne => h x hx fun k' hk' => ?_⟩
    rwa [← Option.some.inj (hk.symm.trans hk')]

/-- All tables are looked up before the registry moves the first one. -/
theorem ensures_checkTables (hT : T.Allows w)
    (hstop : ∀ cause x, ¬ w.site.registry.Movable tables target → w.Same x → T.stops cause x)
    {post : Unit → World → Prop}
    (h : ∀ x, w.Same x → (∀ t ∈ tables, ∀ k, w.site.registry.groupOfTable? t = some k →
      some k ≠ target) → post () x) :
    (tables.toList.forM (checkTable target)).Ensures T.rule post w := by
  have hloop : (tables.toList.forM (checkTable target)).Ensures T.rule
      (fun _ y => w.Same y ∧ ∀ t ∈ tables.toList, ∀ k, w.site.registry.groupOfTable? t = some k →
        some k ≠ target) w := by
    refine ensures_forM rule_monotone w.Same _ (fun t ht y hy => ?_) (.refl w)
    refine ensures_checkTable (hT.same hy) (fun k x hk heq hx => ?_) fun x hx hne => ?_
    · rw [hy.registry] at hk
      exact hstop _ x (fun hm => hm.elsewhere t (Std.ExtTreeSet.mem_toList.1 ht) k hk heq)
        (hy.same_trans hx)
    · rw [hy.registry] at hne
      exact ⟨hy.same_trans hx, hne⟩
  refine hloop.mono rule_monotone ?_
  rintro - x ⟨hx, helsewhere⟩
  exact h x hx fun t ht => helsewhere t (Std.ExtTreeSet.mem_toList.2 ht)

/-- The registry moves tables, unless something speaks against it. -/
theorem ensures_repin (hT : T.Allows w)
    (hstop : ∀ cause x, ¬ w.site.registry.Movable tables target → w.Same x → T.stops cause x)
    (hT' : ∀ x, w.Repins tables target x → T.Allows x) {post : Unit → World → Prop}
    (h : ∀ x, w.Repins tables target x → post () x) :
    (repin tables target).Ensures T.rule post w := by
  unfold repin
  rw [ensures_bind]
  refine ensures_hook hT fun w₁ h₁ => ?_
  -- what is left to do once the target has been looked at
  have hrest : ∀ y, w.Same y → (∀ name, target = some name →
      ∃ g, w.site.registry.groups[name]? = some g ∧ g.servers.size ≠ 0) →
      (do
        tables.toList.forM (checkTable target)
        call (.moveTables tables target)
        note (.tablesMoved tables.size target)
        hook (.postMoveTables tables target)).Ensures T.rule post y := by
    intro y hy hstaffed
    rw [ensures_bind]
    refine ensures_checkTables (hT.same hy) (fun cause x hnot hx => ?_) fun w₂ h₂ helsewhere => ?_
    · rw [hy.registry] at hnot
      exact hstop cause x hnot (hy.same_trans hx)
    rw [hy.registry] at helsewhere
    have h₀₂ := hy.same_trans h₂
    have hmovable : w.site.registry.Movable tables target := ⟨hstaffed, helsewhere⟩
    rw [ensures_bind]
    refine ensures_call (hT.same h₀₂) (fun _ => ?_) fun answer w₃ hm => ?_
    · obtain ⟨r', hr'⟩ := hmovable.moveTables
      exact ⟨(), by simp only [Site.serve, h₀₂.registry, hr']⟩
    have hrepins := repins_of_answered hmovable h₀₂ hm
    rw [ensures_bind]
    refine ensures_note fun w₄ h₄ => ?_
    have hrepins₄ := hrepins.trans_same h₄
    exact ensures_hook (hT' w₄ hrepins₄) fun w₅ h₅ => h w₅ (hrepins₄.trans_same h₅)
  cases target with
  | none => exact hrest w₁ h₁ fun name hname => by cases hname
  | some name =>
    rw [ensures_bind]
    refine ensures_checkTarget (hT.same h₁) (fun cause x hempty hx => ?_) fun g x hx hg hne => ?_
    · rw [h₁.registry] at hempty
      refine hstop cause x (fun hm => ?_) (h₁.same_trans hx)
      obtain ⟨g, hg, hne⟩ := hm.staffed name rfl
      exact hne (hempty g hg)
    · rw [h₁.registry] at hg
      refine hrest x (h₁.same_trans hx) fun name' hname => ⟨g, ?_, hne⟩
      rwa [← Option.some.inj hname]

/-- The first half of a move, where the membership lock is free and nothing fails. -/
theorem ensures_holding_repin (hs : T.strict) (hw : w.Working)
    (hmembership : w.locks.isFree .membership false = true)
    (hstop : ∀ cause x, ¬ w.site.registry.Movable tables target →
      (w.granted .membership).Same x → T.stops cause x)
    {post : Unit → World → Prop} (h : ∀ x, w.Repins tables target x → post () x) :
    (holding .membership (repin tables target)).Ensures T.rule post w := by
  refine ensures_holding (fun _ => hmembership) (absurd hs) fun v hv _ => ?_
  obtain rfl := hv.eq hs
  have hgranted := hw.granted .membership
  exact ensures_repin (allows_of_strict hs hgranted.toObliging) hstop
    (fun x hx => allows_of_strict hs (hx.working hgranted).toObliging)
    fun x hx => h _ (hx.released hmembership)

/-! ### The second half -/

/-- The regions listed for a table are asked to be unassigned, under the lock of the table. -/
theorem ensures_unassignTable (hT : T.Allows w)
    (hfree : T.strict → w.locks.isFree (.table t) false = true)
    (hwait : ¬ T.strict → ∀ x, w.Same x → T.waits (.lock (.table t) false .operation) x)
    (hbears : ∀ v, (w.Same v ∨ ¬ T.strict ∧ T.waits (.lock (.table t) false .operation) v) →
      T.Bears (v.granted (.table t)) (v.site.cluster.regionsOf t))
    {post : Unit → World → Prop}
    (h : ∀ v x, (w.Same v ∨ ¬ T.strict ∧ T.waits (.lock (.table t) false .operation) v) →
      v.Asks (v.site.cluster.regionsOf t) x → post () x) :
    (unassignTable t).Ensures T.rule post w := by
  unfold unassignTable
  rw [ensures_bind]
  refine ensures_look hT () rfl (fun _ => rfl) fun w₁ h₁ => ?_
  refine ensures_holding (fun hs => by rw [h₁.locks]; exact hfree hs)
    (fun hs _ => hwait hs w₁ h₁) fun v hv hisFree => ?_
  have hv' : w.Same v ∨ ¬ T.strict ∧ T.waits (.lock (.table t) false .operation) v := by
    rcases hv with rfl | hv
    · exact .inl h₁
    · exact .inr hv
  rw [ensures_bind]
  refine ensures_note fun w₂ h₂ => ?_
  have hT₂ := (hbears v hv').same h₂
  rw [ensures_bind]
  refine ensures_look hT₂.allows (v.site.cluster.regionsOf t) (by
    simp only [Site.serve, h₂.cluster]
    rfl) (fun _ => rfl) fun w₃ h₃ => ?_
  have h₂₃ := h₂.same_trans h₃
  rw [ensures_bind]
  refine ensures_note fun w₄ h₄ => ?_
  have h₂₄ := h₂₃.same_trans h₄
  refine ensures_unassigns ((hbears v hv').same h₂₄) fun w₅ h₅ => ?_
  exact h v _ hv' ((h₂₄.same_trans h₅).released hisFree)

/-- Where nothing fails and the locks are free every region listed for the tables is asked for. -/
theorem ensures_unassignTables (hs : T.strict) {post : Unit → World → Prop} :
    ∀ {tables : List TableName} {w : World}, w.Working →
      (∀ t ∈ tables, w.locks.isFree (.table t) false = true) →
      (∀ x, w.Asks (tables.flatMap w.site.cluster.regionsOf) x → post () x) →
        (tables.forM unassignTable).Ensures T.rule post w
  | [], w, _, _, h => h w (.refl w)
  | t :: tables, w, hw, hfree, h => by
    change (unassignTable t >>= fun _ => tables.forM unassignTable).Ensures T.rule post w
    have hsame : ∀ {v}, (w.Same v ∨ ¬ T.strict ∧ T.waits (.lock (.table t) false .operation) v) →
        w.Same v := fun hv => hv.resolve_right fun hv' => hv'.1 hs
    rw [ensures_bind]
    refine ensures_unassignTable (allows_of_strict hs hw.toObliging) (fun _ => hfree t (by simp))
      (absurd hs) (fun v hv => ⟨fun _ => ((hsame hv).working hw).failing, fun rs x _ hx =>
        allows_of_strict hs (hx.working (((hsame hv).working hw).granted _)).toObliging⟩)
      fun v x hv hx => ?_
    have hasks : w.Asks (w.site.cluster.regionsOf t) x := by
      have hregions : v.site.cluster = w.site.cluster := (hsame hv).cluster
      rw [hregions] at hx
      exact (hsame hv).same_trans hx
    have hlisted : x.site.cluster.regionsOf = w.site.cluster.regionsOf := by
      rw [hasks.cluster, Cluster.regionsOf_requests]
    refine ensures_unassignTables hs (hasks.working hw) (fun t' ht' => ?_) fun y hy => h y ?_
    · rw [hasks.locks]
      exact hfree t' (List.mem_cons_of_mem _ ht')
    · rw [hlisted] at hy
      exact hasks.trans hy

/-- Where nothing fails and the locks are free, tables are moved unless something speaks against
it. -/
theorem ensures_moveTables (hs : T.strict) (hw : w.Working) (hne : tables.size ≠ 0)
    (hmembership : w.locks.isFree .membership false = true)
    (hfree : ∀ t ∈ tables, w.locks.isFree (.table t) false = true)
    (hstop : ∀ cause x, ¬ w.site.registry.Movable tables target →
      (w.granted .membership).Same x → T.stops cause x) {post : Unit → World → Prop}
    (h : ∀ v x, w.Repins tables target v →
      v.Asks (tables.toList.flatMap w.site.cluster.regionsOf) x → post () x) :
    (moveTables tables target).Ensures T.rule post w := by
  unfold moveTables
  rw [if_neg hne, ensures_bind]
  refine ensures_holding_repin hs hw hmembership hstop fun v hv => ?_
  refine ensures_unassignTables hs (hv.working hw) (fun t ht => ?_) fun x hx => ?_
  · rw [hv.locks]
    exact hfree t (Std.ExtTreeSet.mem_toList.1 ht)
  · rw [hv.cluster] at hx
    exact h v x hv hx

end Terms

end ServerGroups
