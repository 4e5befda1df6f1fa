/-
ServerGroups/Proofs/Balance.lean

A balance evens the tables of its group out, and does nothing else.

    balancePlan_eq           the plan is made of one plan for each table in question
    balanced_of_places       a world is balanced once this plan has been applied
    balancePlan_eq_nil       there is nothing to plan for a group that is balanced
    balance_evens_out        both for the operation, called twice

A table in question is one that the group pins, or one that is in use and
untracked if the group is `default`.  The others that the group owns have no
region that is assigned, so they are even as well.
-/
import ServerGroups.Proofs.Balance.Plans
import ServerGroups.Proofs.Membership
import ServerGroups.Proofs.Runs.Holdings

namespace ServerGroups

namespace World

open Coordinator Cluster

variable {w w' : World} {g : Group} {p : Placement} {r : Region} {t : TableName} {name : String}

/-! ### The tables of a group -/

theorem nodup_balancedTables : (w.balancedTables g).Nodup :=
  (nodup_toList _).filter _

theorem mem_balancedTables (hg : w.site.registry.groups[g.name]? = some g) :
    t ∈ w.balancedTables g ↔ (t ∈ g.tables ∨ t ∈ tablesInUse w.site.cluster.assignments
      w.site.cluster.transitions) ∧ w.site.registry.Owns g.name t := by
  unfold balancedTables
  rw [List.mem_filter, Registry.ownedBy_iff hg]
  simp

/-- A table that a group owns and that is not in question is not in use, so no region of it is
assigned. -/
theorem unassigned_of_not_mem (hg : w.site.registry.groups[g.name]? = some g)
    (ht : w.site.registry.Owns g.name t) (hnot : t ∉ w.balancedTables g) (r : Region)
    (hr : r.table = t) : w.site.cluster.assignments[r]? = none := by
  refine Option.eq_none_iff_forall_ne_some.2 fun s hs => hnot ?_
  have huse := table_mem_tablesInUse (w := w) (.inl hs)
  rw [hr] at huse
  exact (mem_balancedTables hg).2 ⟨.inr huse, ht⟩

/-- A group may balance: none of its tables is in transition, and no server is being recovered. -/
structure Steady (w : World) (name : String) : Prop where
  transitions : ∀ (key : String) (x : RegionTransition),
    w.site.cluster.transitions[key]? = some x → ¬ w.site.registry.Owns name x.region.table
  recovering : w.site.cluster.recovering = false

/-- The servers of a group that are online. -/
def onlineServers (w : World) (g : Group) : ServerSet := g.servers ∩ w.site.cluster.online

/-- A balance finds out whether its group may balance by the tables that it knows of. -/
theorem steady_iff (hg : w.site.registry.groups[g.name]? = some g) : w.Steady g.name ↔
    ¬ ((w.site.cluster.transitions.toList.filter fun x =>
      x.2.region.table ∈ w.balancedTables g) ≠ [] ∨ w.site.cluster.recovering = true) := by
  constructor
  · rintro hw (hmoving | hrecovering)
    · obtain ⟨x, hx⟩ := List.exists_mem_of_ne_nil _ hmoving
      obtain ⟨hx, htable⟩ := List.mem_filter.1 hx
      exact hw.transitions x.1 x.2 (Std.ExtTreeMap.mem_toList_iff_getElem?_eq_some.1 hx)
        ((mem_balancedTables hg).1 (of_decide_eq_true htable)).2
    · exact absurd hw.recovering (by simp [hrecovering])
  · refine fun h => ⟨fun key x hx howns => h (.inl ?_), by simpa using fun hr => h (.inr hr)⟩
    -- a table with a region in transition is in use, even if no region of it is assigned
    have huse := table_mem_tablesInUse (w := w) (.inr ⟨key, x, hx, rfl, rfl⟩)
    exact List.ne_nil_of_mem (List.mem_filter.2
      ⟨Std.ExtTreeMap.mem_toList_iff_getElem?_eq_some.2 hx,
        decide_eq_true ((mem_balancedTables hg).2 ⟨.inr huse, howns⟩)⟩)

theorem balancePlan_eq (hg : w.site.registry.groups[g.name]? = some g) (hw : w.Steady g.name) :
    w.balancePlan g = (w.balancedTables g).flatMap
      (movesOf (w.onlineServers g) w.site.cluster.assignments) := by
  rw [balancePlan, if_neg ((steady_iff hg).1 hw), flatMap_snapshots, onlineServers]

/-! ### What a balance does -/

/-- A region of a table that a group owns, on one of its online servers. -/
def Concerns (w : World) (g : Group) (r : Region) : Prop :=
  w.site.registry.Owns g.name r.table ∧
    ∃ s ∈ w.onlineServers g, w.site.cluster.assignments[r]? = some s

/-- Every table of a group has been evened out over the group's online servers, and nothing else has
happened to the registry and the cluster. -/
structure Balanced (w : World) (g : Group) (w' : World) : Prop where
  even : ∀ t, w.site.registry.Owns g.name t →
    w'.site.cluster.EvenOver (w.onlineServers g) t
  stay : ∀ r, w.Concerns g r →
    ∃ s ∈ w.onlineServers g, w'.site.cluster.assignments[r]? = some s
  others : ∀ r, ¬ w.Concerns g r →
    w'.site.cluster.assignments[r]? = w.site.cluster.assignments[r]?
  assigned : ∀ r, r ∈ w'.site.cluster.assignments ↔ r ∈ w.site.cluster.assignments
  cluster : w'.site.cluster =
    { w.site.cluster with assignments := w'.site.cluster.assignments }
  registry : w'.site.registry = w.site.registry

section Planned

variable (hg : w.site.registry.groups[g.name]? = some g) (hw : w.Steady g.name)

include hg hw

/-- What is planned concerns the group. -/
theorem concerns_of_mem_balancePlan (hp : p ∈ w.balancePlan g) :
    w.Concerns g p.region ∧ p.destination ∈ w.onlineServers g := by
  rw [balancePlan_eq hg hw] at hp
  obtain ⟨t, ht, hmove⟩ := List.mem_flatMap.1 hp
  obtain ⟨hdestination, rfl, hassigned⟩ := within_movesOf hmove
  exact ⟨⟨((mem_balancedTables hg).1 ht).2, hassigned⟩, hdestination⟩

theorem assignments_of_not_concerns (hr : ¬ w.Concerns g r) :
    (w.site.cluster.places (w.balancePlan g)).assignments[r]? = w.site.cluster.assignments[r]? :=
  assignments_places_of_forall_ne fun _ hp heq =>
    hr (heq ▸ (concerns_of_mem_balancePlan hg hw hp).1)

theorem exists_assignments_of_concerns (hr : w.Concerns g r) : ∃ s ∈ w.onlineServers g,
    (w.site.cluster.places (w.balancePlan g)).assignments[r]? = some s := by
  by_cases hmoved : ∃ p ∈ w.balancePlan g, p.region = r
  · obtain ⟨p, hp, rfl⟩ := hmoved
    obtain ⟨q, hq, hassigned⟩ := exists_assignments_places hp
    exact ⟨q.destination, (concerns_of_mem_balancePlan hg hw hq).2, hassigned⟩
  · obtain ⟨s, hs, hassigned⟩ := hr.2
    have hkept := assignments_places_of_forall_ne (c := w.site.cluster)
      fun p hp heq => hmoved ⟨p, hp, heq⟩
    exact ⟨s, hs, hkept.trans hassigned⟩

theorem evenOver_of_owns (ht : w.site.registry.Owns g.name t) :
    (w.site.cluster.places (w.balancePlan g)).EvenOver (w.onlineServers g) t := by
  by_cases hmem : t ∈ w.balancedTables g
  · rw [balancePlan_eq hg hw]
    exact evenOver_places nodup_balancedTables hmem
  · refine evenOver_of_unassigned fun r hr => ?_
    have hnone := unassigned_of_not_mem hg ht hmem r hr
    refine (assignments_of_not_concerns hg hw fun hconcerns => ?_).trans hnone
    obtain ⟨s, -, hs⟩ := hconcerns.2
    rw [hnone] at hs
    cases hs

/-- A world is balanced once the plan for it has been applied. -/
theorem balanced_of_places
    (hcluster : w'.site.cluster = w.site.cluster.places (w.balancePlan g))
    (hregistry : w'.site.registry = w.site.registry) : w.Balanced g w' where
  even t ht := by
    rw [hcluster]
    exact evenOver_of_owns hg hw ht
  stay r hr := by
    rw [hcluster]
    exact exists_assignments_of_concerns hg hw hr
  others r hr := by
    rw [hcluster]
    exact assignments_of_not_concerns hg hw hr
  assigned r := by
    rw [hcluster, Std.ExtTreeMap.mem_iff_isSome_getElem?, Std.ExtTreeMap.mem_iff_isSome_getElem?]
    by_cases hr : w.Concerns g r
    · obtain ⟨s', -, hs'⟩ := exists_assignments_of_concerns hg hw hr
      obtain ⟨-, s, -, hs⟩ := hr
      rw [hs, hs', Option.isSome_some, Option.isSome_some]
    · rw [assignments_of_not_concerns hg hw hr]
  cluster := by
    rw [hcluster]
    exact places_eq w.site.cluster (w.balancePlan g)
  registry := hregistry

end Planned

/-- There is nothing left to do for a group that has been balanced. -/
theorem Balanced.balancePlan_eq_nil (h : w.Balanced g w')
    (hg : w.site.registry.groups[g.name]? = some g) : w'.balancePlan g = [] := by
  unfold balancePlan
  split
  · rfl
  · rw [flatMap_snapshots]
    refine List.flatMap_eq_nil_iff.2 fun t ht => movesOf_eq_nil ?_
    have howns := ((mem_balancedTables (by rw [h.registry]; exact hg)).1 ht).2
    rw [h.registry] at howns
    have heven := h.even t howns
    rw [onlineServers] at heven
    rwa [h.cluster]

/-! ### The operation -/

/-- A balance returns; it has asked about the tables of its group, and applied what was proposed. -/
theorem operate_balances (hw : w.Obliging) (hn : w.site.registry.Named)
    (hg : w.site.registry.groups[name]? = some g)
    (hlock : w.locks.isFree .placement false = true) {plan : List Placement}
    (hplan : w.site.proposes (w.balanceAsks g) = plan) :
    ∃ x, w.operate (.balance name) = (.returned !plan.isEmpty, x) ∧
      x.site.cluster = w.site.cluster.places plan ∧ x.site.registry = w.site.registry ∧
      x.history.placed = w.history.placed ++ plan.toArray ∧ w.Poses (w.balanceAsks g) x ∧
      (w.Healthy → x.Healthy) ∧ x.locks.isFree .placement false = true := by
  have hensures : (balance name).Ensures (Terms.answered fun _ _ => False).rule
      (fun ran x => ran = !plan.isEmpty ∧ ∃ y, (w.granted .placement).Balances (w.balanceAsks g)
        plan y ∧ x = y.released .placement) w := by
    refine Terms.ensures_balance_strict trivial hw hn hlock (fun x hnone _ => ?_)
      fun g' x hg' hx => ?_
    · rw [hg] at hnone
      cases hnone
    · obtain rfl := Option.some.inj (hg.symm.trans hg')
      rw [hplan] at hx ⊢
      exact ⟨rfl, x, hx, rfl⟩
  obtain ⟨ran, x, hperform, rfl, y, hy, rfl⟩ := Terms.perform_of_returns hensures
  refine ⟨_, (operate_eq (by simp) w).trans hperform, hy.cluster, hy.registry, hy.placed,
    ⟨hy.poses.snapshots, hy.poses.script⟩, fun hhealthy => ?_, ?_⟩
  · have hreleased := (hy.toStays.healthy (hhealthy.granted _)).released .placement
    exact ⟨hreleased.toReliable, hreleased.faults⟩
  · refine Locks.isFree_releaseAll ?_ _
    show (y.locks.release .placement .operation).isFree .placement false = true
    rw [hy.locks, granted, Locks.release_grant hlock]
    exact hlock

/-- If the balancer makes its own plans, the plan of the group has been applied. -/
theorem operate_balance (hw : w.Healthy) (hn : w.site.registry.Named)
    (hg : w.site.registry.groups[name]? = some g)
    (hlock : w.locks.isFree .placement false = true) :
    ∃ x, w.operate (.balance name) = (.returned (!(w.balancePlan g).isEmpty), x) ∧
      x.site.cluster = w.site.cluster.places (w.balancePlan g) ∧
      x.site.registry = w.site.registry ∧
      x.history.placed = w.history.placed ++ (w.balancePlan g).toArray ∧
      x.Healthy ∧ x.locks.isFree .placement false = true := by
  obtain ⟨x, hx, hcluster, hregistry, hplaced, -, hhealthy, hfree⟩ :=
    operate_balances hw.obliging hn hg hlock (proposes_balanceAsks hw.script)
  exact ⟨x, hx, hcluster, hregistry, hplaced, hhealthy hw, hfree⟩

/-- **Balancing.**  Where no service fails and nobody has the lock of placements, and while no region
of the group's tables is in transition and no dead server is being recovered, a balance returns, and
answers whether it has placed anything.  Then every table that the group owns is even over those of
the group's servers that are online, and nothing else is different.  If it is called once more it
answers that there was nothing to do, and places nothing. -/
theorem balance_evens_out (hw : w.Healthy) (hr : w.site.registry.Partitioned)
    (hg : w.site.registry.groups[name]? = some g)
    (hlock : w.locks.isFree .placement false = true) (hsteady : w.Steady name) :
    ∃ ran x y, w.operate (.balance name) = (.returned ran, x) ∧
      (ran = true ↔ x.history.placed ≠ w.history.placed) ∧ w.Balanced g x ∧
      x.operate (.balance name) = (.returned false, y) ∧
      y.history.placed = x.history.placed ∧ y.site.cluster = x.site.cluster := by
  obtain rfl : g.name = name := hr.named hg
  obtain ⟨x, hx, hcluster, hregistry, hplaced, hhealthy, hfree⟩ :=
    operate_balance hw hr.named hg hlock
  have hran : (!(w.balancePlan g).isEmpty) = true ↔ x.history.placed ≠ w.history.placed := by
    rw [hplaced]
    simp
  have hbalanced := balanced_of_places hg hsteady hcluster hregistry
  -- the second call starts from what the first one has left, where nothing is planned
  obtain ⟨y, hy, hcluster', -, hplaced', -, -⟩ := operate_balance (w := x) (g := g) hhealthy
    (by rw [hregistry]; exact hr.named) (by rw [hregistry]; exact hg) hfree
  have hnil := hbalanced.balancePlan_eq_nil hg
  rw [hnil] at hy hcluster' hplaced'
  exact ⟨_, x, y, hx, hran, hbalanced, hy, by simpa using hplaced', hcluster'⟩

/-! ### Three regions on one of two servers -/

/-- Two servers in the group `default`, and three regions of a table, all on the first server. -/
def lopsided : World :=
  .start {} ((Change.spread ⟨"default", "t1"⟩ ⟨"rs1", 1⟩ 3 "r").foldl Site.change
    (.ofServers {⟨"rs1", 1⟩, ⟨"rs2", 1⟩} .absent))

/-- The group `default` owns the table, so the regions are spread over its two servers, and then
there is nothing left to do. -/
theorem balance_evens_out_lopsided :
    ∃ ran x y, lopsided.operate (.balance defaultGroup) = (.returned ran, x) ∧
      x.site.cluster.load ⟨"default", "t1"⟩ ⟨"rs1", 1⟩ ≤
        x.site.cluster.load ⟨"default", "t1"⟩ ⟨"rs2", 1⟩ + 1 ∧
      x.site.cluster.load ⟨"default", "t1"⟩ ⟨"rs2", 1⟩ ≤
        x.site.cluster.load ⟨"default", "t1"⟩ ⟨"rs1", 1⟩ + 1 ∧
      x.operate (.balance defaultGroup) = (.returned false, y) ∧
      y.history.placed = x.history.placed := by
  have hsteady : lopsided.Steady defaultGroup :=
    ⟨fun key x hx => by
      have hnone : (∅ : Std.ExtTreeMap String RegionTransition)[key]? = some x := hx
      simp at hnone, rfl⟩
  obtain ⟨ran, x, y, hx, -, hbalanced, hy, hplaced, -⟩ := balance_evens_out (w := lopsided)
    (g := ⟨defaultGroup, {⟨"rs1", 1⟩, ⟨"rs2", 1⟩}, ∅⟩)
    ⟨⟨rfl, fun _ h => (by cases h), rfl⟩, rfl⟩ (Registry.divides_iff.1 Registry.divides_ofServers).1
    (by decide +kernel) rfl hsteady
  have heven := hbalanced.even ⟨"default", "t1"⟩
    (.inr ⟨rfl, Registry.groupOfTable?_eq_none.1 (by decide +kernel)⟩)
  exact ⟨ran, x, y, hx, heven _ (by decide +kernel) _ (by decide +kernel),
    heven _ (by decide +kernel) _ (by decide +kernel), hy, hplaced⟩

end World

end ServerGroups
