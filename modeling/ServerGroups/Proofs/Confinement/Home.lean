/-
ServerGroups/Proofs/Confinement/Home.lean

Where the regions of a table belong, and where they are.

A table is owned by the group that pins it, or by `default` if no group does,
and the servers of its owner host it.  A region is on a server if it is
assigned to it or in transition on it.

A change of the registry moves the home of regions only where it has to:
adding and removing a group never does, moving servers does for the regions on
these servers, and moving tables does for the regions of these tables.
-/
import ServerGroups.Coordinator.Drain
import ServerGroups.Proofs.Registry

namespace ServerGroups

namespace Registry

variable {r r' : Registry} {j k name source target : String} {s : ServerAddress} {t : TableName}
variable {servers moved : ServerSet} {tables : TableSet}

/-! ### Owners and hosts -/

/-- A group owns a table: it pins the table, or it is `default` and no group pins it. -/
def Owns (r : Registry) (k : String) (t : TableName) : Prop :=
  r.Pins k t ∨ (k = defaultGroup ∧ ∀ j, ¬ r.Pins j t)

/-- A server belongs to a group that owns a table. -/
def Hosts (r : Registry) (s : ServerAddress) (t : TableName) : Prop :=
  ∃ k, r.Owns k t ∧ r.HasServer k s

/-- The owner of a table is the group that the registry finds for it, or else `default`. -/
theorem Partitioned.owns_iff (hr : r.Partitioned) :
    r.Owns k t ↔ (r.groupOfTable? t).getD defaultGroup = k := by
  rcases hfind : r.groupOfTable? t with - | j
  · have hnone := groupOfTable?_eq_none.1 hfind
    constructor
    · rintro (hpins | ⟨hk, -⟩)
      · exact absurd hpins (hnone k)
      · exact hk.symm
    · intro hk
      exact .inr ⟨hk.symm, hnone⟩
  · have hj := hr.groupOfTable?_eq_some.1 hfind
    constructor
    · rintro (hpins | ⟨-, hnone⟩)
      · exact hr.table hj hpins
      · exact absurd hj (hnone j)
    · intro hk
      exact .inl (hk ▸ hj)

/-- A table that no group pins is owned by `default` alone. -/
theorem not_owns_of_untracked (h : r.groupOfTable? t = none) (hk : k ≠ defaultGroup) :
    ¬ r.Owns k t := by
  rintro (hpins | ⟨hdefault, -⟩)
  · exact groupOfTable?_eq_none.1 h k hpins
  · exact hk hdefault

theorem owns_congr (h : ∀ k, r'.Pins k t ↔ r.Pins k t) : r'.Owns k t ↔ r.Owns k t := by
  simp only [Owns, h]

/-! ### Changes -/

theorem hosts_addGroup (h : r.addGroup name = .ok r') : r'.Hosts s t ↔ r.Hosts s t := by
  simp only [Hosts, owns_congr fun _ => pins_addGroup h, hasServer_addGroup h]

/-- Removing a group without members changes the home of no region. -/
theorem hosts_removeGroup (h : r.removeGroup name = .ok r') (hs : ∀ s, ¬ r.HasServer name s)
    (ht : ∀ t, ¬ r.Pins name t) : r'.Hosts s t ↔ r.Hosts s t := by
  have hpins : ∀ k, r'.Pins k t ↔ r.Pins k t := by
    intro k
    rw [pins_removeGroup h, and_iff_right_of_imp]
    rintro hk rfl
    exact ht t hk
  have hservers : ∀ k, r'.HasServer k s ↔ r.HasServer k s := by
    intro k
    rw [hasServer_removeGroup h, and_iff_right_of_imp]
    rintro hk rfl
    exact hs s hk
  simp only [Hosts, owns_congr hpins, hservers]

/-- A move of servers leaves the other servers where they were. -/
theorem hosts_moveServers (h : r.moveServers servers source target = .ok (moved, r'))
    (hs : s ∉ servers) (hhosts : r.Hosts s t) : r'.Hosts s t := by
  obtain ⟨k, howns, hk⟩ := hhosts
  refine ⟨k, (owns_congr fun _ => pins_moveServers h).2 howns, ?_⟩
  exact (hasServer_moveServers h).2 (.inr ⟨hk, fun hleft => hs hleft.2⟩)

/-- A move of tables leaves the other tables where they were. -/
theorem hosts_moveTables {goal : Option String} (h : r.moveTables tables goal = .ok r')
    (ht : t ∉ tables) : r'.Hosts s t ↔ r.Hosts s t := by
  have hpins : ∀ k, r'.Pins k t ↔ r.Pins k t := by
    intro k
    rw [pins_moveTables h]
    constructor
    · rintro (⟨-, hmem⟩ | ⟨hk, -⟩)
      · exact absurd hmem ht
      · exact hk
    · exact fun hk => .inr ⟨hk, ht⟩
  simp only [Hosts, owns_congr hpins, hasServer_moveTables h]

end Registry

namespace Cluster

variable {c c' : Cluster} {r : Region} {s : ServerAddress}

/-! ### Where a region is -/

/-- A region is assigned to a server, or in transition on it. -/
def On (c : Cluster) (r : Region) (s : ServerAddress) : Prop :=
  c.assignments[r]? = some s ∨
    ∃ (name : String) (x : RegionTransition), c.transitions[name]? = some x ∧ x.region = r ∧
      x.server = s

/-- How many requests to unassign a region are still ignored. -/
def pinned (c : Cluster) (r : Region) : Nat := c.pins[r]?.getD 0

/-- What a request to unassign a region makes of a cluster: nothing appears, and the region is gone
unless it is pinned. -/
theorem unassign_eq_ok {ignored : Bool} (h : c.unassign r = .ok (ignored, c')) :
    c'.regions = c.regions ∧ c'.failing = c.failing ∧
      (∀ (x : Region) (s : ServerAddress), c'.assignments[x]? = some s →
        c.assignments[x]? = some s) ∧
      (∀ (name : String) (x : RegionTransition), c'.transitions[name]? = some x →
        c.transitions[name]? = some x) ∧
      (∀ x, c.pinned x = 0 → c'.pinned x = 0) ∧
      (c.pinned r = 0 → c'.assignments[r]? = none ∧ c'.transitions[r.encodedName]? = none) := by
  unfold unassign at h
  split at h
  · cases h
  · split at h
    · next n hn =>
      obtain ⟨-, rfl⟩ := Prod.mk.inj (Except.ok.inj h)
      have hp : c.pinned r = n + 1 := by simp [pinned, hn]
      refine ⟨rfl, rfl, fun _ _ hx => hx, fun _ _ hx => hx, fun x hx => ?_, fun hzero => ?_⟩
      · have hne : r ≠ x := by
          rintro rfl
          omega
        simp only [pinned] at hx ⊢
        rw [Std.ExtTreeMap.getElem?_insert, if_neg (by simpa using hne)]
        exact hx
      · omega
    · obtain ⟨-, rfl⟩ := Prod.mk.inj (Except.ok.inj h)
      refine ⟨rfl, rfl, fun x s hx => ?_, fun name x hx => ?_, fun _ hx => hx, fun _ => ?_⟩
      · rw [Std.ExtTreeMap.getElem?_erase] at hx
        split at hx
        · cases hx
        · exact hx
      · rw [Std.ExtTreeMap.getElem?_erase] at hx
        split at hx
        · cases hx
        · exact hx
      · simp

end Cluster

namespace Coordinator

/-- The regions on a server are those that are assigned to it or in transition on it. -/
theorem mem_regionsOnServer {catalog : TableName} {r : Region} {s : ServerAddress}
    {assignments : Std.ExtTreeMap Region ServerAddress}
    {transitions : Std.ExtTreeMap String RegionTransition} :
    r ∈ regionsOnServer catalog s assignments transitions ↔
      assignments[r]? = some s ∨ ∃ (name : String) (x : RegionTransition),
        transitions[name]? = some x ∧ x.region = r ∧ x.server = s := by
  have hassigned : r ∈ (assignments.toList.filter fun a => a.2 = s).map Prod.fst ↔
      assignments[r]? = some s := by
    simp only [List.mem_map, List.mem_filter, decide_eq_true_eq]
    constructor
    · rintro ⟨⟨r', s'⟩, ⟨hmem, rfl⟩, rfl⟩
      exact Std.ExtTreeMap.mem_toList_iff_getElem?_eq_some.1 hmem
    · exact fun h => ⟨(r, s), ⟨Std.ExtTreeMap.mem_toList_iff_getElem?_eq_some.2 h, rfl⟩, rfl⟩
  have hmoving : r ∈ (transitions.toList.filter fun x => x.2.server = s).map (fun x => x.2.region) ↔
      ∃ (name : String) (x : RegionTransition),
        transitions[name]? = some x ∧ x.region = r ∧ x.server = s := by
    simp only [List.mem_map, List.mem_filter, decide_eq_true_eq]
    constructor
    · rintro ⟨⟨name, x⟩, ⟨hmem, hserver⟩, hregion⟩
      exact ⟨name, x, Std.ExtTreeMap.mem_toList_iff_getElem?_eq_some.1 hmem, hregion, hserver⟩
    · rintro ⟨name, x, hx, hregion, hserver⟩
      exact ⟨(name, x), ⟨Std.ExtTreeMap.mem_toList_iff_getElem?_eq_some.2 hx, hserver⟩, hregion⟩
  unfold regionsOnServer
  rw [← hassigned, ← hmoving, ← List.mem_append]
  by_cases hcatalog : r.table = catalog <;>
    simp [hcatalog, Std.ExtTreeSet.mem_toList, Std.ExtTreeSet.mem_ofList]

end Coordinator

end ServerGroups
