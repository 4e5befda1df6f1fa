/-
ServerGroups/Proofs/Balance/Plans.lean

What the plans of the balancer make of a cluster.

The balancer plans on loads, and what it plans is applied to a cluster
afterwards.  Loads mirror a table of a cluster (`Loads.Mirrors`) if each is
of exactly those regions of the table that are assigned to its server.  A
snapshot does, for the cluster that it was taken of; and

    loads ---- next? ----> after
      |                      |
    mirror                 mirror
      |                      |
      c ---- place p ---> c.place p

so the loads after all moves are those in the cluster after all placements.
Placements of other tables do not count.  So the plans for several tables, made
for one cluster and applied one after the other, even each of these tables out
(`evenOver_places`).
-/
import ServerGroups.Proofs.Balance.Loads
import ServerGroups.Proofs.Runs.Balance

namespace ServerGroups

namespace Cluster

variable {c c' : Cluster} {p : Placement} {plan : List Placement}
variable {r : Region} {s : ServerAddress} {t : TableName} {servers : ServerSet}

/-! ### Loads in a cluster -/

/-- How many regions of a table are assigned to a server. -/
def load (c : Cluster) (t : TableName) (s : ServerAddress) : Nat :=
  (c.regionsOn s).countP fun r => r.table = t

/-- None of some servers has two regions of a table more than another. -/
def EvenOver (c : Cluster) (servers : ServerSet) (t : TableName) : Prop :=
  ∀ s ∈ servers, ∀ s' ∈ servers, c.load t s ≤ c.load t s' + 1

theorem mem_regionsOn : r ∈ c.regionsOn s ↔ c.assignments[r]? = some s := by
  simp [regionsOn]

theorem nodup_regionsOn : (c.regionsOn s).Nodup := by
  refine List.Nodup.sublist (List.filter_sublist.map Prod.fst) ?_
  rw [Std.ExtTreeMap.map_fst_toList_eq_keys]
  exact Std.ExtTreeMap.nodup_keys

/-- A table none of whose regions is assigned is even. -/
theorem evenOver_of_unassigned (h : ∀ r : Region, r.table = t → c.assignments[r]? = none) :
    c.EvenOver servers t := by
  intro s _ s' _
  have hzero : c.load t s = 0 := List.countP_eq_zero.2 fun r hr ht => by
    rw [mem_regionsOn, h r (of_decide_eq_true ht)] at hr
    cases hr
  rw [hzero]
  exact Nat.zero_le _

/-! ### Placements -/

theorem assignments_place : (c.place p).assignments[r]? =
    if p.region = r then some p.destination else c.assignments[r]? := by
  simp [place, Std.ExtTreeMap.getElem?_insert]

/-- What is not placed stays where it is. -/
theorem assignments_places_of_forall_ne : ∀ {plan : List Placement} {c : Cluster},
    (∀ p ∈ plan, p.region ≠ r) → (c.places plan).assignments[r]? = c.assignments[r]?
  | [], _, _ => rfl
  | p :: plan, c, h => by
    have hrest : ((c.place p).places plan).assignments[r]? = (c.place p).assignments[r]? :=
      assignments_places_of_forall_ne fun q hq => h q (List.mem_cons_of_mem _ hq)
    exact hrest.trans (by rw [assignments_place, if_neg (h p List.mem_cons_self)])

/-- What is placed ends where one of its placements puts it. -/
theorem exists_assignments_places : ∀ {plan : List Placement} {c : Cluster} {p : Placement},
    p ∈ plan → ∃ q ∈ plan, (c.places plan).assignments[p.region]? = some q.destination
  | q :: plan, c, p, hp => by
    by_cases hlater : ∃ q ∈ plan, q.region = p.region
    · obtain ⟨q', hq', hregion⟩ := hlater
      obtain ⟨q'', hq'', hplaced⟩ := exists_assignments_places (c := c.place q) hq'
      rw [hregion] at hplaced
      exact ⟨q'', List.mem_cons_of_mem _ hq'', hplaced⟩
    · have hlast : ∀ q ∈ plan, q.region ≠ p.region := fun q hq hregion =>
        hlater ⟨q, hq, hregion⟩
      obtain rfl : p = q := (List.mem_cons.1 hp).resolve_right fun hp => hlast p hp rfl
      have hrest : ((c.place p).places plan).assignments[p.region]? =
        (c.place p).assignments[p.region]? := assignments_places_of_forall_ne hlast
      exact ⟨p, hp, hrest.trans (by rw [assignments_place, if_pos rfl])⟩

end Cluster

namespace Loads

open Cluster

variable {loads after : Loads} {c c' : Cluster} {p : Placement} {plan : List Placement}
variable {t : TableName} {servers : ServerSet} {x : ServerAddress × List Region}

/-! ### Loads that mirror a cluster -/

/-- Each load is of the regions of a table that are assigned to its server in a cluster. -/
structure Mirrors (loads : Loads) (t : TableName) (c : Cluster) : Prop where
  servers : loads.servers.Nodup
  nodup : ∀ x ∈ loads, x.2.Nodup
  mem_iff : ∀ x ∈ loads, ∀ r, r ∈ x.2 ↔ r.table = t ∧ c.assignments[r]? = some x.1

namespace Mirrors

theorem congr (h : loads.Mirrors t c)
    (hsame : ∀ r : Region, r.table = t → c'.assignments[r]? = c.assignments[r]?) : loads.Mirrors t c' where
  servers := h.servers
  nodup := h.nodup
  mem_iff x hx r := (h.mem_iff x hx r).trans (and_congr_right fun ht => by rw [hsame r ht])

/-- Placements of other tables make no difference. -/
theorem places (h : loads.Mirrors t c) (hplan : ∀ p ∈ plan, p.region.table ≠ t) :
    loads.Mirrors t (c.places plan) :=
  h.congr fun r hr => assignments_places_of_forall_ne fun p hp hregion =>
    hplan p hp (by rw [hregion, hr])

theorem load_eq (h : loads.Mirrors t c) (hx : x ∈ loads) : c.load t x.1 = x.2.length := by
  have hperm : ((c.regionsOn x.1).filter fun r => r.table = t).Perm x.2 := by
    refine (List.perm_ext_iff_of_nodup (nodup_regionsOn.filter _) (h.nodup x hx)).2 fun r => ?_
    rw [List.mem_filter, mem_regionsOn, h.mem_iff x hx, decide_eq_true_iff, and_comm]
  rw [Cluster.load, List.countP_eq_length_filter, hperm.length_eq]

theorem evenOver_iff (h : loads.Mirrors t c) (hservers : ∀ s, s ∈ loads.servers ↔ s ∈ servers) :
    c.EvenOver servers t ↔ loads.Even := by
  constructor
  · intro heven x hx y hy
    rw [← h.load_eq hx, ← h.load_eq hy]
    exact heven x.1 ((hservers _).1 (List.mem_map_of_mem hx)) y.1
      ((hservers _).1 (List.mem_map_of_mem hy))
  · intro heven s hs s' hs'
    obtain ⟨x, hx, rfl⟩ := List.mem_map.1 ((hservers s).2 hs)
    obtain ⟨y, hy, rfl⟩ := List.mem_map.1 ((hservers s').2 hs')
    rw [h.load_eq hx, h.load_eq hy]
    exact heven x hx y hy

/-- The last region of a load is nowhere else in the loads. -/
theorem getLast (h : loads.Mirrors t c) (hx : x ∈ loads) {r : Region} (hr : x.2.getLast? = some r) :
    r.table = t ∧ r ∉ x.2.dropLast ∧ ∀ y ∈ loads, y.1 ≠ x.1 → r ∉ y.2 := by
  obtain ⟨htable, hassigned⟩ := (h.mem_iff x hx r).1 (List.mem_of_getLast? hr)
  refine ⟨htable, ?_, fun y hy hserver hmem => ?_⟩
  · have hnodup := h.nodup x hx
    rw [← List.dropLast_append_getLast? r hr, List.nodup_append] at hnodup
    exact fun hmem => hnodup.2.2 r hmem r List.mem_cons_self rfl
  · have hassigned' := ((h.mem_iff y hy r).1 hmem).2
    exact hserver (Option.some.inj (hassigned'.symm.trans hassigned))

/-- The loads after a move are those in the cluster after its placement. -/
theorem next? (h : loads.Mirrors t c) (hn : loads.next? = some (p, after)) :
    after.Mirrors t (c.place p) := by
  obtain ⟨most, hmost, least, hleast, r, hr, huneven, rfl, rfl, -⟩ := next?_eq_some hn
  obtain ⟨htable, hdistinct, helsewhere⟩ := h.getLast hmost hr
  have hlast : most.2.dropLast ++ [r] = most.2 := List.dropLast_append_getLast? r hr
  have hne : least.1 ≠ most.1 := fun heq => by
    rw [eq_of_server h.servers hleast hmost heq] at huneven
    omega
  have hafter : ∀ z ∈ loads.shift most.1 least.1 r, z = (most.1, most.2.dropLast) ∨
      z = (least.1, least.2 ++ [r]) ∨ (z ∈ loads ∧ z.1 ≠ most.1 ∧ z.1 ≠ least.1) :=
    fun z hz => of_mem_shift h.servers hmost hleast hz
  refine ⟨by rw [servers_shift]; exact h.servers, fun z hz => ?_, fun z hz r' => ?_⟩
  · rcases hafter z hz with rfl | rfl | ⟨hz, -, -⟩
    · exact (h.nodup most hmost).sublist (List.dropLast_sublist _)
    · refine List.nodup_append.2 ⟨h.nodup least hleast, List.nodup_singleton r, ?_⟩
      rintro r' hr' _ hr'' rfl
      rw [List.mem_singleton.1 hr''] at hr'
      exact helsewhere least hleast hne hr'
    · exact h.nodup z hz
  · rw [assignments_place]
    by_cases hr' : r = r'
    · subst hr'
      rcases hafter z hz with rfl | rfl | ⟨hz, hsource, hdestination⟩
      · simp [hdistinct, hne]
      · simp [htable]
      · simp [helsewhere z hz hsource, Ne.symm hdestination]
    · -- where another region is has not changed
      rw [if_neg hr']
      rcases hafter z hz with rfl | rfl | ⟨hz, -, -⟩
      · have hmem := h.mem_iff most hmost r'
        rw [← hlast] at hmem
        simpa [Ne.symm hr'] using hmem
      · simpa [Ne.symm hr'] using h.mem_iff least hleast r'
      · exact h.mem_iff z hz r'

/-- All moves together leave the cluster with even loads. -/
theorem moves : ∀ {fuel : Nat} {loads : Loads} {c : Cluster}, loads.Mirrors t c →
    loads.unevenness ≤ fuel → ∃ after : Loads, after.Mirrors t (c.places (loads.moves fuel)) ∧
      after.servers = loads.servers ∧ after.Even
  | fuel, loads, c, h, hfuel => by
    rcases hn : loads.next? with - | ⟨p, next⟩
    · have heven := next?_eq_none.1 hn
      refine ⟨loads, ?_, rfl, heven⟩
      rw [moves_eq_nil heven]
      exact h
    · -- there is fuel left, for the move lowers the unevenness
      have hlower := unevenness_next? h.servers hn
      have hservers : next.servers = loads.servers := by
        obtain ⟨_, -, _, -, _, -, -, -, rfl, -⟩ := next?_eq_some hn
        exact servers_shift
      cases fuel with
      | zero => omega
      | succ fuel =>
        have hbound : next.unevenness ≤ fuel := by omega
        obtain ⟨after, hafter, hsame, heven⟩ := (h.next? hn).moves hbound
        refine ⟨after, ?_, hsame.trans hservers, heven⟩
        rw [Loads.moves, hn]
        exact hafter

/-- What is moved is of the table, from one of the servers to another of them. -/
theorem within (h : loads.Mirrors t c) (hservers : ∀ s, s ∈ loads.servers → s ∈ servers) :
    loads.Within (· ∈ servers)
      (fun r => r.table = t ∧ ∃ s ∈ servers, c.assignments[r]? = some s) := by
  intro x hx
  have hserver : x.1 ∈ servers := hservers _ (List.mem_map_of_mem hx)
  refine ⟨hserver, fun r hr => ?_⟩
  obtain ⟨htable, hassigned⟩ := (h.mem_iff x hx r).1 hr
  exact ⟨htable, x.1, hserver, hassigned⟩

end Mirrors

end Loads

/-! ### Snapshots -/

/-- Even a snapshot of fewer than two servers is planned as any other. -/
theorem Snapshot.moves_eq (s : Snapshot) :
    s.moves = Loads.moves (Loads.unevenness s.toList) s.toList := by
  unfold Snapshot.moves
  split
  · next hsize =>
    have hlength : s.toList.length ≤ 1 := by
      rw [Std.ExtTreeMap.length_toList]
      omega
    exact (Loads.moves_eq_nil (Loads.even_of_length_le_one hlength)).symm
  · rfl

theorem Snapshot.plan?_getD (s : Snapshot) : s.plan?.getD [] = s.moves := by
  unfold plan?
  split
  · next h => exact h.symm
  · rfl

namespace Coordinator

open Loads

variable {c c' : Cluster} {p : Placement} {servers : ServerSet}
variable {assignments : Std.ExtTreeMap Region ServerAddress}
variable {t : TableName} {tables : List TableName} {s : ServerAddress}

theorem mem_servers_snapshot :
    s ∈ Loads.servers (snapshot servers assignments t).toList ↔ s ∈ servers := by
  unfold Loads.servers snapshot
  rw [Std.ExtTreeMap.map_fst_toList_eq_keys, Std.ExtTreeMap.mem_keys, Std.ExtTreeMap.mem_ofList,
    List.map_map, List.contains_iff_mem]
  simp [Function.comp_def]

/-- A snapshot shows the cluster it is taken of. -/
theorem mirrors_snapshot :
    Loads.Mirrors (snapshot servers c.assignments t).toList t c := by
  have hshown : ∀ x ∈ (snapshot servers c.assignments t).toList,
      x.2 = (c.regionsOn x.1).filter fun r => r.table = t := fun x hx => by
    have hget := Std.ExtTreeMap.mem_toList_iff_getElem?_eq_some.1 hx
    rw [(getElem?_ofList_map hget).2, Cluster.regionsOn, List.filter_map, List.filter_filter]
    simp
  refine ⟨?_, fun x hx => ?_, fun x hx r => ?_⟩
  · unfold Loads.servers
    rw [Std.ExtTreeMap.map_fst_toList_eq_keys]
    exact Std.ExtTreeMap.nodup_keys
  · rw [hshown x hx]
    exact Cluster.nodup_regionsOn.filter _
  · rw [hshown x hx, List.mem_filter, Cluster.mem_regionsOn, decide_eq_true_iff, and_comm]

/-- The moves planned for a table in a cluster. -/
def movesOf (servers : ServerSet) (assignments : Std.ExtTreeMap Region ServerAddress)
    (t : TableName) : List Placement :=
  (snapshot servers assignments t).moves

theorem movesOf_eq : movesOf servers assignments t =
    Loads.moves (Loads.unevenness (snapshot servers assignments t).toList)
      (snapshot servers assignments t).toList :=
  Snapshot.moves_eq _

theorem within_movesOf (hp : p ∈ movesOf servers c.assignments t) : p.destination ∈ servers ∧
    p.region.table = t ∧ ∃ s ∈ servers, c.assignments[p.region]? = some s := by
  rw [movesOf_eq] at hp
  exact (mirrors_snapshot.within fun s => mem_servers_snapshot.1).moves _ p hp

/-- Nothing is moved of a table that is even already. -/
theorem movesOf_eq_nil (h : c.EvenOver servers t) : movesOf servers c.assignments t = [] := by
  rw [movesOf_eq]
  exact moves_eq_nil ((mirrors_snapshot.evenOver_iff fun s => mem_servers_snapshot).1 h)

/-- To leave out tables without a region on the servers changes nothing of the plan. -/
theorem flatMap_snapshots : (snapshots servers assignments tables).flatMap
    (fun x => x.2.plan?.getD []) = tables.flatMap (movesOf servers assignments) := by
  unfold snapshots
  induction tables with
  | nil => rfl
  | cons t tables ih =>
    rw [List.map_cons, List.filter_cons, List.flatMap_cons]
    split
    · rw [List.flatMap_cons, ih, Snapshot.plan?_getD, movesOf]
    · next hnone =>
      have hempty : ∀ x ∈ (snapshot servers assignments t).toList, x.2 = [] := by
        simpa using hnone
      have hmoves : movesOf servers assignments t = [] := by
        rw [movesOf_eq]
        exact moves_eq_nil (even_of_empty hempty)
      rw [ih, hmoves, List.nil_append]

theorem table_of_mem_flatMap (hp : p ∈ tables.flatMap (movesOf servers c.assignments)) :
    p.region.table ∈ tables := by
  obtain ⟨t, ht, hmove⟩ := List.mem_flatMap.1 hp
  rw [(within_movesOf hmove).2.1]
  exact ht

/-- The plans for some tables, applied one after the other, even each of them out. -/
theorem evenOver_places (hn : tables.Nodup) (ht : t ∈ tables) :
    (c.places (tables.flatMap (movesOf servers c.assignments))).EvenOver servers t := by
  -- the plans before and behind that of the table do not move its regions
  obtain ⟨before, behind, rfl⟩ := List.append_of_mem ht
  obtain ⟨-, hbehind, hbefore⟩ := List.nodup_append.1 hn
  have hother : ∀ {others : List TableName}, t ∉ others →
      ∀ p ∈ others.flatMap (movesOf servers c.assignments), p.region.table ≠ t :=
    fun hnot p hp heq => hnot (heq ▸ table_of_mem_flatMap hp)
  have hshown : Loads.Mirrors (snapshot servers c.assignments t).toList t
      (c.places (before.flatMap (movesOf servers c.assignments))) :=
    mirrors_snapshot.places (hother fun hmem => hbefore t hmem t List.mem_cons_self rfl)
  obtain ⟨after, hafter, hservers, heven⟩ := hshown.moves le_rfl
  rw [← movesOf_eq] at hafter
  rw [List.flatMap_append, List.flatMap_cons, Cluster.places_append, Cluster.places_append]
  refine ((hafter.places (hother (List.nodup_cons.1 hbehind).1)).evenOver_iff fun s => ?_).2 heven
  rw [hservers, mem_servers_snapshot]

end Coordinator

end ServerGroups
