/-
ServerGroups/Proofs/Balance/Tables.lean

The tables of a group do not interfere when the group is balanced.

The plan for a group is one sequence, made of all assignments at once.  What it
does to the regions of one table is the plan for one snapshot, which shows that
table alone (`filter_balancePlan`), and the snapshot depends on nothing but the
servers that are online and the assignments of the table's own regions
(`snapshot_congr`).  So two balances whose clusters agree on these place the
regions of the table alike, whatever else differs (`balance_tables_apart`).
-/
import ServerGroups.Proofs.Balance

namespace ServerGroups

/-! ### The snapshot of a table -/

/-- There is no plan for a snapshot without a region. -/
theorem Snapshot.plan?_eq_none_of_empty {s : Snapshot}
    (h : ∀ (server : ServerAddress) (regions : List Region),
      s[server]? = some regions → regions = []) : s.plan? = none := by
  have hempty : ∀ x ∈ s.toList, x.2 = [] := fun x hx =>
    h x.1 x.2 (Std.ExtTreeMap.mem_toList_iff_getElem?_eq_some.1 hx)
  unfold plan?
  rw [if_pos]
  rw [moves_eq]
  exact Loads.moves_eq_nil (Loads.even_of_empty hempty)

namespace Coordinator

variable {c c' : Cluster} {servers : ServerSet} {t t' : TableName} {tables : List TableName}
variable {s : ServerAddress}

/-- A snapshot has the regions of the table on each of the servers, and no other server. -/
theorem getElem?_snapshot : (snapshot servers c.assignments t)[s]? =
    if s ∈ servers then some ((c.regionsOn s).filter fun r => r.table = t) else none := by
  have hkey : s ∈ snapshot servers c.assignments t ↔ s ∈ servers := by
    have hserver : s ∈ Loads.servers (snapshot servers c.assignments t).toList ↔ s ∈ servers :=
      mem_servers_snapshot
    rwa [Loads.servers, Std.ExtTreeMap.map_fst_toList_eq_keys, Std.ExtTreeMap.mem_keys] at hserver
  split
  · next hs =>
    have hsome := Std.ExtTreeMap.mem_iff_isSome_getElem?.1 (hkey.2 hs)
    obtain ⟨regions, hregions⟩ := Option.isSome_iff_exists.1 hsome
    rw [hregions, (getElem?_ofList_map hregions).2, Cluster.regionsOn, List.filter_map,
      List.filter_filter]
    simp
  · next hs => exact Std.ExtTreeMap.getElem?_eq_none (mt hkey.1 hs)

/-- The regions of a table on a server depend on the assignments of the table's regions alone. -/
theorem filter_regionsOn_congr
    (h : ∀ r : Region, r.table = t → c'.assignments[r]? = c.assignments[r]?) :
    ((c'.regionsOn s).filter fun r => r.table = t) =
      (c.regionsOn s).filter fun r => r.table = t := by
  have hown : c'.assignments.filter (fun r _ => r.table = t) =
      c.assignments.filter fun r _ => r.table = t := by
    refine Std.ExtTreeMap.ext_getElem? fun r => ?_
    simp only [Std.ExtTreeMap.getElem?_filter']
    by_cases hr : r.table = t
    · rw [h r hr]
    · simp [hr]
  have hlists := congrArg Std.ExtTreeMap.toList hown
  simp only [Std.ExtTreeMap.toList_filter] at hlists
  have hside : ∀ x : Cluster, ((x.regionsOn s).filter fun r => r.table = t) =
      ((x.assignments.toList.filter fun a => a.1.table = t).filter
        fun a => a.2 = s).map Prod.fst := fun x => by
    rw [Cluster.regionsOn, List.filter_map, List.filter_filter, List.filter_filter]
    simp only [Function.comp_apply, Bool.and_comm]
  rw [hside, hside, hlists]

theorem snapshot_congr
    (h : ∀ r : Region, r.table = t → c'.assignments[r]? = c.assignments[r]?) :
    snapshot servers c'.assignments t = snapshot servers c.assignments t := by
  refine Std.ExtTreeMap.ext_getElem? fun s => ?_
  rw [getElem?_snapshot, getElem?_snapshot, filter_regionsOn_congr h]

/-! ### The part of a plan that concerns one table -/

theorem filter_movesOf : (movesOf servers c.assignments t').filter (fun p => p.region.table = t) =
    if t' = t then movesOf servers c.assignments t else [] := by
  have htable : ∀ p ∈ movesOf servers c.assignments t', p.region.table = t' :=
    fun p hp => (within_movesOf hp).2.1
  split
  · next heq =>
    subst heq
    exact List.filter_eq_self.2 fun p hp => decide_eq_true (htable p hp)
  · next hne =>
    refine List.filter_eq_nil_iff.2 fun p hp ht => hne ?_
    rw [← htable p hp]
    exact of_decide_eq_true ht

/-- What the plans for several tables do to one of them is the plan for this one. -/
theorem filter_flatMap_movesOf (hn : tables.Nodup) :
    (tables.flatMap (movesOf servers c.assignments)).filter (fun p => p.region.table = t) =
      if t ∈ tables then movesOf servers c.assignments t else [] := by
  induction tables with
  | nil => rfl
  | cons t' tables ih =>
    obtain ⟨hnot, hrest⟩ := List.nodup_cons.1 hn
    rw [List.flatMap_cons, List.filter_append, filter_movesOf, ih hrest]
    by_cases heq : t' = t
    · -- the table is not planned once more further on
      subst heq
      simp [hnot]
    · simp [heq, Ne.symm heq]

end Coordinator

namespace World

open Coordinator Cluster

variable {w w' : World} {g : Group} {t : TableName} {name : String}

/-- The plan for a group does to the regions of a table what the plan for the table's own snapshot
says. -/
theorem filter_balancePlan (hg : w.site.registry.groups[g.name]? = some g)
    (hw : w.Steady g.name) (ht : w.site.registry.Owns g.name t) :
    (w.balancePlan g).filter (fun p => p.region.table = t) =
      (snapshot (w.onlineServers g) w.site.cluster.assignments t).plan?.getD [] := by
  rw [balancePlan_eq hg hw, filter_flatMap_movesOf nodup_balancedTables, Snapshot.plan?_getD]
  split
  · rfl
  · next hunused =>
    -- an owned table that is not in question has no region that is assigned
    have hnone := unassigned_of_not_mem hg ht hunused
    exact (movesOf_eq_nil (evenOver_of_unassigned hnone)).symm

/-! ### Two balances -/

/-- A balance of a group returns, and has applied these placements, in this order. -/
def BalancesBy (w : World) (name : String) (plan : List Placement) : Prop :=
  ∃ ran x, w.operate (.balance name) = (.returned ran, x) ∧
    x.history.placed = w.history.placed ++ plan.toArray

/-- **Tables do not interfere.**  Take a table that a group owns, and two worlds with one registry
whose clusters agree on the servers that are online and on where the regions of the table are
assigned; other assignments may differ at will.  Where no service fails and nobody has the lock of
placements, while no region of the group's tables is in transition and no dead server is being
recovered, a balance of the group applies to the regions of the table the same placements in both
worlds.  They are the plan for the snapshot that maps each of the group's online servers to the
regions of the table on it, and there are none if the snapshot holds no region. -/
theorem balance_tables_apart (hw : w.Healthy) (hw' : w'.Healthy)
    (hn : w.site.registry.Named) (hregistry : w'.site.registry = w.site.registry)
    (hg : w.site.registry.groups[name]? = some g) (ht : w.site.registry.Owns name t)
    (hlock : w.locks.isFree .placement false = true)
    (hlock' : w'.locks.isFree .placement false = true)
    (hsteady : w.Steady name) (hsteady' : w'.Steady name)
    (honline : w'.site.cluster.online = w.site.cluster.online)
    (hsame : ∀ r : Region, r.table = t →
      w'.site.cluster.assignments[r]? = w.site.cluster.assignments[r]?) :
    ∃ (plan plan' : List Placement) (shown : Snapshot),
      w.BalancesBy name plan ∧ w'.BalancesBy name plan' ∧
      plan.filter (fun p => p.region.table = t) = shown.plan?.getD [] ∧
      plan'.filter (fun p => p.region.table = t) = shown.plan?.getD [] ∧
      (∀ s, shown[s]? = if s ∈ w.onlineServers g then
        some ((w.site.cluster.regionsOn s).filter fun r => r.table = t) else none) ∧
      ((∀ (s : ServerAddress) (regions : List Region), shown[s]? = some regions → regions = []) →
        shown.plan? = none) := by
  obtain rfl : g.name = name := hn hg
  have hg' : w'.site.registry.groups[g.name]? = some g := by rw [hregistry]; exact hg
  obtain ⟨x, hx, -, -, hplaced, -⟩ := operate_balance hw hn hg hlock
  obtain ⟨x', hx', -, -, hplaced', -⟩ :=
    operate_balance hw' (by rw [hregistry]; exact hn) hg' hlock'
  refine ⟨w.balancePlan g, w'.balancePlan g,
    snapshot (w.onlineServers g) w.site.cluster.assignments t,
    ⟨_, x, hx, hplaced⟩, ⟨_, x', hx', hplaced'⟩, filter_balancePlan hg hsteady ht, ?_,
    fun s => getElem?_snapshot, Snapshot.plan?_eq_none_of_empty⟩
  have hplan' := filter_balancePlan hg' hsteady' (by rw [hregistry]; exact ht)
  rw [hplan', snapshot_congr hsame, onlineServers, honline, onlineServers]

/-- The world of `lopsided` with two regions of a table more, on the other server. -/
def crowded : World :=
  .start {} ((Change.spread ⟨"default", "t0"⟩ ⟨"rs2", 1⟩ 2 "q").foldl Site.change lopsided.site)

theorem assignments_crowded {r : Region} (hr : r.table = ⟨"default", "t1"⟩) :
    crowded.site.cluster.assignments[r]? = lopsided.site.cluster.assignments[r]? := by
  have hother : ∀ i : Nat, (⟨⟨"default", "t0"⟩, "q" ++ i.repr⟩ : Region) ≠ r := by
    rintro i rfl
    have hspace : (⟨"default", "t0"⟩ : TableName) = ⟨"default", "t1"⟩ := hr
    exact absurd hspace (by decide)
  show ((lopsided.site.cluster.assignments.insert _ _).insert _ _)[r]? = _
  rw [Std.ExtTreeMap.getElem?_insert, Std.ExtTreeMap.getElem?_insert]
  simp [hother]

/-- Whether or not the second table has regions, a balance of the group `default` does the same to
the regions of the first. -/
theorem balance_tables_apart_crowded :
    ∃ plan plan' : List Placement, lopsided.BalancesBy defaultGroup plan ∧
      crowded.BalancesBy defaultGroup plan' ∧
      plan.filter (fun p => p.region.table = ⟨"default", "t1"⟩) =
        plan'.filter (fun p => p.region.table = ⟨"default", "t1"⟩) := by
  have hhealthy : lopsided.Healthy := ⟨⟨rfl, fun _ h => (by cases h), rfl⟩, rfl⟩
  have hhealthy' : crowded.Healthy := ⟨⟨rfl, fun _ h => (by cases h), rfl⟩, rfl⟩
  have hsteady : ∀ {w : World}, w.site.cluster.transitions = ∅ →
      w.site.cluster.recovering = false → w.Steady defaultGroup := fun hnone hrecovering =>
    ⟨fun key x hx => by rw [hnone] at hx; simp at hx, hrecovering⟩
  obtain ⟨plan, plan', shown, hplan, hplan', hown, hown', -⟩ :=
    balance_tables_apart hhealthy hhealthy'
      (g := ⟨defaultGroup, {⟨"rs1", 1⟩, ⟨"rs2", 1⟩}, ∅⟩) (t := ⟨"default", "t1"⟩)
      (Registry.divides_iff.1 Registry.divides_ofServers).1.named rfl (by decide +kernel)
      (.inr ⟨rfl, Registry.groupOfTable?_eq_none.1 (by decide +kernel)⟩) rfl rfl
      (hsteady rfl rfl) (hsteady rfl rfl) rfl fun _ => assignments_crowded
  exact ⟨plan, plan', hplan, hplan', hown.trans hown'.symm⟩

end World

end ServerGroups
