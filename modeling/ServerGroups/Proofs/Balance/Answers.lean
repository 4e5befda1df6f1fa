/-
ServerGroups/Proofs/Balance/Answers.lean

The answer of a balance, whatever the balancer proposes.

    balanceAsks_of_not_steady   a group that may not balance: the balancer is not asked
    balanceAsks_of_steady       else it is asked once for each table of the group that has a
                                region on one of the group's online servers, in table order
    balance_truthful            all that it proposes is applied, and the answer of the
                                operation says whether this was anything

The plans need not be those of the balancer.  What is laid down for it may place
regions that do not exist on servers that do not either, and is applied as it is.
Nor do regions in transition stop a balance if the group does not own their
tables; a table that no group pins belongs to `default` here, even if it has no
other region.
-/
import ServerGroups.Proofs.Balance

namespace ServerGroups.World

open Coordinator Cluster

variable {w : World} {g : Group} {t : TableName} {name : String}

/-! ### What the balancer is asked about -/

/-- The balancer is not asked for a group that may not balance. -/
theorem balanceAsks_of_not_steady (hg : w.site.registry.groups[g.name]? = some g)
    (hw : ¬ w.Steady g.name) : w.balanceAsks g = [] := by
  rw [balanceAsks, if_pos]
  exact not_not.1 (mt (steady_iff hg).2 hw)

/-- The tables of a group with a region on one of the group's online servers, in order. -/
def spreadTables (w : World) (g : Group) : List TableName :=
  (w.balancedTables g).filter fun t =>
    (snapshot (w.onlineServers g) w.site.cluster.assignments t).toList.any fun load =>
      !load.2.isEmpty

theorem mem_spreadTables (hg : w.site.registry.groups[g.name]? = some g) :
    t ∈ w.spreadTables g ↔ w.site.registry.Owns g.name t ∧ ∃ r : Region, r.table = t ∧
      ∃ s ∈ w.onlineServers g, w.site.cluster.assignments[r]? = some s := by
  have hshown : Loads.Mirrors (snapshot (w.onlineServers g) w.site.cluster.assignments t).toList t
      w.site.cluster := mirrors_snapshot
  rw [spreadTables, List.mem_filter, mem_balancedTables hg, List.any_eq_true]
  constructor
  · rintro ⟨⟨-, howns⟩, x, hx, hregions⟩
    obtain ⟨r, hr⟩ := List.exists_mem_of_ne_nil x.2 (by simpa using hregions)
    obtain ⟨htable, hassigned⟩ := (hshown.mem_iff x hx r).1 hr
    exact ⟨howns, r, htable, x.1, mem_servers_snapshot.1 (List.mem_map_of_mem hx), hassigned⟩
  · rintro ⟨howns, r, rfl, s, hs, hassigned⟩
    obtain ⟨x, hx, rfl⟩ := List.mem_map.1 (mem_servers_snapshot.2 hs)
    refine ⟨⟨.inr (table_mem_tablesInUse (.inl hassigned)), howns⟩, x, hx, ?_⟩
    have hr := (hshown.mem_iff x hx r).2 ⟨rfl, hassigned⟩
    simpa using List.ne_nil_of_mem hr

theorem sorted_spreadTables (w : World) (g : Group) :
    (w.spreadTables g).Pairwise fun t t' => compare t t' = .lt :=
  (Std.ExtTreeSet.ordered_toList.filter _).filter _

/-- The balancer is asked about each table on its own. -/
theorem balanceAsks_of_steady (hg : w.site.registry.groups[g.name]? = some g)
    (hw : w.Steady g.name) : w.balanceAsks g =
      (w.spreadTables g).map (snapshot (w.onlineServers g) w.site.cluster.assignments) := by
  rw [balanceAsks, if_neg ((steady_iff hg).1 hw), snapshots, List.filter_map, List.map_map]
  rfl

/-! ### The operation -/

/-- **The answer of a balance.**  Take a group and any plans that the balancer may propose; let no
call meet a fault, no hook fail and nobody have the lock of placements.  Then a balance of the group
returns.  It has applied, in this order, what the balancer proposed for the snapshots that it was
asked about, and nothing else has happened to the cluster; the answer is whether this was any
placement.  While a region of a table that the group owns is in transition, or dead servers are
being recovered, the answer is that nothing was placed, and the balancer is not asked; else it is
asked about the tables that the group owns, in table order, as far as a region of them is on one of
the group's online servers. -/
theorem balance_truthful (hw : w.Obliging) (hn : w.site.registry.Named)
    (hg : w.site.registry.groups[name]? = some g)
    (hlock : w.locks.isFree .placement false = true) :
    ∃ (ran : Bool) (x : World) (asked : List Snapshot) (plan : List Placement),
      w.operate (.balance name) = (.returned ran, x) ∧
      w.Poses asked x ∧ plan = w.site.proposes asked ∧
      x.site.cluster = w.site.cluster.places plan ∧
      x.history.placed = w.history.placed ++ plan.toArray ∧
      (ran = true ↔ plan ≠ []) ∧
      (ran = false → x.site.cluster = w.site.cluster) ∧
      (¬ w.Steady name → ran = false ∧ asked = []) ∧
      (w.Steady name → ∃ tables : List TableName,
        tables.Pairwise (fun t t' => compare t t' = .lt) ∧
        (∀ t, t ∈ tables ↔ w.site.registry.Owns name t ∧ ∃ r : Region, r.table = t ∧
          ∃ s ∈ w.onlineServers g, w.site.cluster.assignments[r]? = some s) ∧
        asked = tables.map (snapshot (w.onlineServers g) w.site.cluster.assignments)) := by
  obtain rfl : g.name = name := hn hg
  obtain ⟨x, hx, hcluster, -, hplaced, hposes, -⟩ := operate_balances hw hn hg hlock rfl
  refine ⟨_, x, _, _, hx, hposes, rfl, hcluster, hplaced, by simp, fun hran => ?_,
    fun hsteady => ?_, fun hsteady => ⟨w.spreadTables g, sorted_spreadTables w g,
      fun t => mem_spreadTables hg, balanceAsks_of_steady hg hsteady⟩⟩
  · have hnone : w.site.proposes (w.balanceAsks g) = [] := by simpa using hran
    rw [hcluster, hnone, places_nil]
  · rw [balanceAsks_of_not_steady hg hsteady]
    exact ⟨rfl, rfl⟩

/-- A placement of a region that there is not on a server that there is not. -/
def stray : Placement := ⟨⟨⟨"default", "t9"⟩, "x"⟩, none, ⟨"rs9", 9⟩⟩

/-- The world of `lopsided`, where the answer of the balancer is laid down. -/
def dictated : World := .start {} { lopsided.site with script := [some [stray]] }

/-- The group has one table to ask about, and what is answered is applied. -/
theorem balance_truthful_dictated : ∃ x, dictated.operate (.balance defaultGroup) =
    (.returned true, x) ∧ x.history.placed = #[stray] := by
  have hgroup : dictated.site.registry.groups[defaultGroup]? =
      some ⟨defaultGroup, {⟨"rs1", 1⟩, ⟨"rs2", 1⟩}, ∅⟩ := by decide +kernel
  obtain ⟨ran, x, asked, plan, hx, -, hplan, -, hplaced, hran, -, -, hasked⟩ :=
    balance_truthful (w := dictated) ⟨fun _ h => (by cases h), rfl⟩
      (Registry.divides_iff.1 Registry.divides_ofServers).1.named hgroup rfl
  obtain ⟨tables, hsorted, hmem, rfl⟩ := hasked ⟨fun key x hx => by
    have hnone : (∅ : Std.ExtTreeMap String RegionTransition)[key]? = some x := hx
    simp at hnone, rfl⟩
  have htable : ∀ t ∈ tables, t = ⟨"default", "t1"⟩ := fun t ht => by
    obtain ⟨-, r, rfl, s, -, hassigned⟩ := (hmem t).1 ht
    have hall : ∀ a ∈ dictated.site.cluster.assignments.toList, a.1.table = ⟨"default", "t1"⟩ := by
      decide +kernel
    exact hall (r, s) (Std.ExtTreeMap.mem_toList_iff_getElem?_eq_some.2 hassigned)
  have hthere : (⟨"default", "t1"⟩ : TableName) ∈ tables :=
    (hmem _).2 ⟨.inr ⟨rfl, Registry.groupOfTable?_eq_none.1 (by decide +kernel)⟩,
      ⟨⟨"default", "t1"⟩, "r0"⟩, rfl, ⟨"rs1", 1⟩, by decide +kernel, by decide +kernel⟩
  have hone : tables.length = 1 := by
    match tables, hsorted, htable, hthere with
    | [_], _, _, _ => rfl
    | t :: t' :: _, hsorted, htable, _ =>
      have hlt := List.rel_of_pairwise_cons hsorted List.mem_cons_self
      rw [htable t (by simp), htable t' (by simp)] at hlt
      exact absurd hlt (by decide)
  have hanswer : plan = [stray] := by
    rw [hplan, Site.proposes, Site.answers_of_length_le (by rw [List.length_map, hone]; rfl),
      List.length_map, hone]
    rfl
  obtain rfl : ran = true := hran.2 (by simp [hanswer])
  refine ⟨x, hx, ?_⟩
  rw [hplaced, hanswer]
  rfl

end ServerGroups.World
