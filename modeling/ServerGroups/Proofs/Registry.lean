/-
ServerGroups/Proofs/Registry.lean

Who belongs where after a change of the registry.

A registry is looked at member by member: `r.HasServer k s` says that the
group stored under `k` has the server `s`, and `r.Pins k t` that it pins the
table `t`.  Every change is described by what it makes of these two relations
and of the set of names:

    addGroup name        adds a name, no member
    removeGroup name     takes a name away, with its members
    moveServers S a b    s in S leaves a for b
    moveTables X k       t in X leaves every group, and joins k if k is given

`Partitioned` says that names are stored under themselves and that no server
and no table has two groups.  Every change keeps it.
-/
import Mathlib.Tactic
import ServerGroups.Registry

namespace ServerGroups.Registry

variable {r r' : Registry} {j k name source target : String} {s : ServerAddress} {t : TableName}
variable {servers moved : ServerSet} {tables : TableSet}

/-! ### Members -/

/-- The group stored under a name has a server. -/
def HasServer (r : Registry) (k : String) (s : ServerAddress) : Prop :=
  ∃ g, r.groups[k]? = some g ∧ s ∈ g.servers

/-- The group stored under a name pins a table. -/
def Pins (r : Registry) (k : String) (t : TableName) : Prop :=
  ∃ g, r.groups[k]? = some g ∧ t ∈ g.tables

/-- Every group is stored under its own name. -/
def Named (r : Registry) : Prop := ∀ {k : String} {g : Group}, r.groups[k]? = some g → g.name = k

/-- Servers and tables are partitioned over the groups, each of which is stored under its own
name. -/
structure Partitioned (r : Registry) : Prop where
  named : r.Named
  server : ∀ {j k s}, r.HasServer j s → r.HasServer k s → j = k
  table : ∀ {j k t}, r.Pins j t → r.Pins k t → j = k

theorem HasServer.mem (h : r.HasServer k s) : k ∈ r.groups := by
  obtain ⟨g, hg, -⟩ := h
  exact Std.ExtTreeMap.mem_iff_isSome_getElem?.2 (by simp [hg])

/-- Groups that are stored under one name in two registries are the same if their members are. -/
theorem group_eq (hr : r.Named) (hr' : r'.Named) {g g' : Group} (hg : r.groups[k]? = some g)
    (hg' : r'.groups[k]? = some g') (hservers : ∀ s, r'.HasServer k s ↔ r.HasServer k s)
    (htables : ∀ t, r'.Pins k t ↔ r.Pins k t) : g' = g := by
  have hserver : ∀ s, s ∈ g'.servers ↔ s ∈ g.servers := by
    simpa [HasServer, hg, hg'] using hservers
  have htable : ∀ t, t ∈ g'.tables ↔ t ∈ g.tables := by
    simpa [Pins, hg, hg'] using htables
  have hname : g'.name = g.name := (hr' hg').trans (hr hg).symm
  cases g
  cases g'
  simp only [Group.mk.injEq]
  exact ⟨hname, Std.ExtTreeSet.ext_mem hserver, Std.ExtTreeSet.ext_mem htable⟩

/-- A registry is known by its groups and their members. -/
theorem eq_of_members (hr : r.Named) (hr' : r'.Named) (hgroups : ∀ k, k ∈ r'.groups ↔ k ∈ r.groups)
    (hservers : ∀ k s, r'.HasServer k s ↔ r.HasServer k s)
    (htables : ∀ k t, r'.Pins k t ↔ r.Pins k t) : r' = r := by
  suffices h : r'.groups = r.groups by
    cases r
    cases r'
    exact congrArg mk h
  refine Std.ExtTreeMap.ext_getElem? fun k => ?_
  have hk := hgroups k
  rw [Std.ExtTreeMap.mem_iff_isSome_getElem?, Std.ExtTreeMap.mem_iff_isSome_getElem?] at hk
  rcases hg : r.groups[k]? with - | g <;> rcases hg' : r'.groups[k]? with - | g'
  · rfl
  · simp [hg, hg'] at hk
  · simp [hg, hg'] at hk
  · exact congrArg some (group_eq hr hr' hg hg' (hservers k) (htables k))

/-! ### Looking up -/

theorem mem_list {g : Group} : g ∈ r.list ↔ ∃ k : String, r.groups[k]? = some g := by
  simp [list]

theorem groupOfServer?_some (hr : r.Named) {g : Group} (h : r.groupOfServer? s = some g) :
    r.groups[g.name]? = some g ∧ s ∈ g.servers := by
  obtain ⟨k, hk⟩ := mem_list.1 (List.mem_of_find?_eq_some h)
  have hs : s ∈ g.servers := by simpa using List.find?_some h
  have hn : g.name = k := hr hk
  exact ⟨hn ▸ hk, hs⟩

theorem groupOfServer?_eq_none : r.groupOfServer? s = none ↔ ∀ k, ¬ r.HasServer k s := by
  simp only [groupOfServer?, List.find?_eq_none, mem_list, HasServer]
  constructor
  · rintro h k ⟨g, hg, hs⟩
    exact h g ⟨k, hg⟩ (by simpa using hs)
  · rintro h g ⟨k, hg⟩ hs
    exact h k ⟨g, hg, by simpa using hs⟩

theorem groupOfTable?_eq_none : r.groupOfTable? t = none ↔ ∀ k, ¬ r.Pins k t := by
  simp only [groupOfTable?, Option.map_eq_none_iff, List.find?_eq_none, mem_list, Pins]
  constructor
  · rintro h k ⟨g, hg, ht⟩
    exact h g ⟨k, hg⟩ ht
  · rintro h g ⟨k, hg⟩ ht
    exact h k ⟨g, hg, ht⟩

theorem pins_of_groupOfTable? (hr : r.Named) (h : r.groupOfTable? t = some k) : r.Pins k t := by
  simp only [groupOfTable?, Option.map_eq_some_iff] at h
  obtain ⟨g, hg, rfl⟩ := h
  obtain ⟨k, hk⟩ := mem_list.1 (List.mem_of_find?_eq_some hg)
  have ht : t ∈ g.tables := by simpa using List.find?_some hg
  have hn : g.name = k := hr hk
  exact ⟨g, hn ▸ hk, ht⟩

theorem Partitioned.groupOfTable?_eq_some (hr : r.Partitioned) :
    r.groupOfTable? t = some k ↔ r.Pins k t := by
  refine ⟨pins_of_groupOfTable? hr.named, fun h => ?_⟩
  rcases e : r.groupOfTable? t with - | j
  · exact absurd h (groupOfTable?_eq_none.1 e k)
  · rw [hr.table (pins_of_groupOfTable? hr.named e) h]

/-! ### The registry at first -/

theorem getElem?_ofServers (k : String) : (ofServers servers).groups[k]? =
    if defaultGroup = k then some ⟨defaultGroup, servers, ∅⟩ else none := by
  simp [ofServers, Std.ExtTreeMap.getElem?_insert]

theorem of_getElem?_ofServers {g : Group} (h : (ofServers servers).groups[k]? = some g) :
    k = defaultGroup ∧ g = ⟨defaultGroup, servers, ∅⟩ := by
  rw [getElem?_ofServers] at h
  split at h
  · next hk => exact ⟨hk.symm, (Option.some.inj h).symm⟩
  · cases h

theorem named_ofServers : (ofServers servers).Named := by
  intro k g hg
  obtain ⟨rfl, rfl⟩ := of_getElem?_ofServers hg
  rfl

/-! ### Adding a group -/

theorem addGroup_eq_ok : r.addGroup name = .ok r' ↔ name ∉ r.groups ∧ r' = r.put (.empty name) := by
  unfold addGroup
  by_cases h : name ∈ r.groups
  · simp [h]
  · simp only [h, Std.ExtTreeMap.contains_iff_mem, if_false, Except.ok.injEq, not_false_eq_true,
      true_and]
    exact eq_comm

theorem getElem?_addGroup (h : r.addGroup name = .ok r') :
    r'.groups[k]? = if name = k then some (.empty name) else r.groups[k]? := by
  obtain ⟨-, rfl⟩ := addGroup_eq_ok.1 h
  simp [put, Group.empty, Std.ExtTreeMap.getElem?_insert]

theorem hasServer_addGroup (h : r.addGroup name = .ok r') :
    r'.HasServer k s ↔ r.HasServer k s := by
  have hn := (addGroup_eq_ok.1 h).1
  simp only [HasServer, getElem?_addGroup h]
  by_cases e : name = k
  · subst e
    simp [Group.empty, Std.ExtTreeMap.getElem?_eq_none hn]
  · simp [e]

theorem pins_addGroup (h : r.addGroup name = .ok r') : r'.Pins k t ↔ r.Pins k t := by
  have hn := (addGroup_eq_ok.1 h).1
  simp only [Pins, getElem?_addGroup h]
  by_cases e : name = k
  · subst e
    simp [Group.empty, Std.ExtTreeMap.getElem?_eq_none hn]
  · simp [e]

theorem mem_addGroup (h : r.addGroup name = .ok r') :
    k ∈ r'.groups ↔ name = k ∨ k ∈ r.groups := by
  obtain ⟨-, rfl⟩ := addGroup_eq_ok.1 h
  simp [put, Group.empty, Std.ExtTreeMap.mem_insert]

/-- A group is stored under its own name. -/
theorem named_put (hr : r.Named) (g : Group) : (r.put g).Named := by
  intro k g' hg'
  rw [put, Std.ExtTreeMap.getElem?_insert] at hg'
  split at hg'
  · next e => rw [← Option.some.inj hg', Std.LawfulEqOrd.eq_of_compare e]
  · exact hr hg'

theorem named_addGroup (hr : r.Named) (h : r.addGroup name = .ok r') : r'.Named := by
  obtain ⟨-, rfl⟩ := addGroup_eq_ok.1 h
  exact named_put hr _

/-! ### Removing a group -/

theorem removeGroup_eq_ok : r.removeGroup name = .ok r' ↔
    name ≠ defaultGroup ∧ name ∈ r.groups ∧ r' = ⟨r.groups.erase name⟩ := by
  unfold removeGroup
  by_cases hd : name = defaultGroup
  · simp [hd]
  · by_cases h : name ∈ r.groups
    · simp only [hd, h, Std.ExtTreeMap.contains_iff_mem, if_false, if_true, Except.ok.injEq,
        ne_eq, not_false_eq_true, true_and]
      exact eq_comm
    · simp [hd, h]

theorem getElem?_removeGroup (h : r.removeGroup name = .ok r') :
    r'.groups[k]? = if name = k then none else r.groups[k]? := by
  obtain ⟨-, -, rfl⟩ := removeGroup_eq_ok.1 h
  simp [Std.ExtTreeMap.getElem?_erase]

theorem hasServer_removeGroup (h : r.removeGroup name = .ok r') :
    r'.HasServer k s ↔ name ≠ k ∧ r.HasServer k s := by
  simp only [HasServer, getElem?_removeGroup h]
  by_cases e : name = k <;> simp [e]

theorem pins_removeGroup (h : r.removeGroup name = .ok r') :
    r'.Pins k t ↔ name ≠ k ∧ r.Pins k t := by
  simp only [Pins, getElem?_removeGroup h]
  by_cases e : name = k <;> simp [e]

theorem mem_removeGroup (h : r.removeGroup name = .ok r') :
    k ∈ r'.groups ↔ name ≠ k ∧ k ∈ r.groups := by
  obtain ⟨-, -, rfl⟩ := removeGroup_eq_ok.1 h
  simp [Std.ExtTreeMap.mem_erase]

theorem named_removeGroup (hr : r.Named) (h : r.removeGroup name = .ok r') : r'.Named := by
  intro k g hg
  rw [getElem?_removeGroup h] at hg
  split at hg
  · cases hg
  · exact hr hg

/-! ### Moving servers -/

theorem moveServers_eq_ok : r.moveServers servers source target = .ok (moved, r') ↔
    target ∈ r.groups ∧ ∃ g, r.groups[source]? = some g ∧ moved = servers ∩ g.servers ∧
      r' = ⟨(r.groups.modify source fun g => { g with servers := g.servers \ moved }).modify target
        fun g => { g with servers := g.servers ∪ moved }⟩ := by
  unfold moveServers
  rw [← Std.ExtTreeMap.contains_iff_mem]
  rcases r.groups.contains target with - | -
  · simp
  · rcases r.groups[source]? with - | g
    · simp
    · simp only [Bool.not_true, Bool.false_eq_true, if_false, Except.ok.injEq, Prod.mk.injEq,
        Option.some.injEq, exists_eq_left', true_and]
      constructor <;>
        · rintro ⟨rfl, rfl⟩
          exact ⟨rfl, rfl⟩

/-- A group after a move of servers: it has lost those that left it and gained those that joined
it, and is otherwise the same. -/
theorem getElem?_moveServers (h : r.moveServers servers source target = .ok (moved, r')) :
    r'.groups[k]? = (r.groups[k]?).map fun g => { g with
      servers :=
        let left := if source = k then g.servers \ moved else g.servers
        if target = k then left ∪ moved else left } := by
  obtain ⟨-, g, -, -, rfl⟩ := moveServers_eq_ok.1 h
  simp only [Std.ExtTreeMap.getElem?_modify, Std.LawfulEqOrd.compare_eq_iff_eq]
  by_cases hs : source = k <;> by_cases ht : target = k
  · subst hs ht
    rcases r.groups[target]? with - | g <;> simp
  · subst hs
    simp [ht]
  · subst ht
    simp [hs]
  · simp [hs, ht]

theorem hasServer_moveServers (h : r.moveServers servers source target = .ok (moved, r')) :
    r'.HasServer k s ↔ (k = target ∧ s ∈ servers ∧ r.HasServer source s) ∨
      (r.HasServer k s ∧ ¬ (k = source ∧ s ∈ servers)) := by
  obtain ⟨ht, g, hg, rfl, -⟩ := moveServers_eq_ok.1 h
  obtain ⟨gt, hgt⟩ := Option.isSome_iff_exists.1 (Std.ExtTreeMap.mem_iff_isSome_getElem?.1 ht)
  simp only [HasServer, getElem?_moveServers h, hg]
  by_cases hk : source = k
  · subst hk
    by_cases e : target = source
    · subst e
      simp [hg, Std.ExtTreeSet.mem_inter_iff, Std.ExtTreeSet.mem_diff_iff,
        Std.ExtTreeSet.mem_union_iff]
      tauto
    · simp [hg, e, Ne.symm e, Std.ExtTreeSet.mem_inter_iff, Std.ExtTreeSet.mem_diff_iff]
      tauto
  · by_cases e : target = k
    · subst e
      simp [hgt, hk, Ne.symm hk, Std.ExtTreeSet.mem_inter_iff, Std.ExtTreeSet.mem_union_iff]
      tauto
    · simp [hk, Ne.symm hk, e, Ne.symm e]

theorem pins_moveServers (h : r.moveServers servers source target = .ok (moved, r')) :
    r'.Pins k t ↔ r.Pins k t := by
  simp only [Pins, getElem?_moveServers h]
  rcases r.groups[k]? with - | g <;> simp

theorem mem_moveServers (h : r.moveServers servers source target = .ok (moved, r')) :
    k ∈ r'.groups ↔ k ∈ r.groups := by
  obtain ⟨-, g, -, -, rfl⟩ := moveServers_eq_ok.1 h
  simp [Std.ExtTreeMap.mem_modify]

theorem named_moveServers (hr : r.Named)
    (h : r.moveServers servers source target = .ok (moved, r')) : r'.Named := by
  intro k g hg
  rw [getElem?_moveServers h] at hg
  obtain ⟨g₀, hg₀, rfl⟩ := Option.map_eq_some_iff.1 hg
  have hn : g₀.name = k := hr hg₀
  exact hn

/-! ### Moving tables -/

theorem getElem?_unpin :
    (r.unpin tables).groups[k]? =
      (r.groups[k]?).map fun g => { g with tables := g.tables \ tables } := by
  simp [unpin]

theorem moveTables_some_eq_ok : r.moveTables tables (some name) = .ok r' ↔
    name ∈ r.groups ∧
      r' = ⟨(r.unpin tables).groups.modify name fun g => { g with tables := g.tables ∪ tables }⟩ := by
  unfold moveTables
  by_cases h : name ∈ r.groups
  · simp only [h, Std.ExtTreeMap.contains_iff_mem, if_true, Except.ok.injEq, true_and]
    exact eq_comm
  · simp [h]

/-- A group after a move of tables: it has lost them, and gained them if it is the target. -/
theorem getElem?_moveTables {goal : Option String} (h : r.moveTables tables goal = .ok r') :
    r'.groups[k]? = (r.groups[k]?).map fun g => { g with
      tables := if goal = some k then (g.tables \ tables) ∪ tables else g.tables \ tables } := by
  cases goal with
  | none =>
    obtain rfl : r.unpin tables = r' := by simpa [moveTables] using h
    simp [getElem?_unpin]
  | some name =>
    obtain ⟨-, rfl⟩ := moveTables_some_eq_ok.1 h
    simp only [Std.ExtTreeMap.getElem?_modify, Std.LawfulEqOrd.compare_eq_iff_eq, getElem?_unpin]
    by_cases e : name = k
    · subst e
      rcases r.groups[name]? with - | g <;> simp
    · simp [e]

theorem mem_moveTables {goal : Option String} (h : r.moveTables tables goal = .ok r') :
    k ∈ r'.groups ↔ k ∈ r.groups := by
  simp only [Std.ExtTreeMap.mem_iff_isSome_getElem?, getElem?_moveTables h, Option.isSome_map]

theorem pins_moveTables {goal : Option String} (h : r.moveTables tables goal = .ok r') :
    r'.Pins k t ↔ (goal = some k ∧ t ∈ tables) ∨ (r.Pins k t ∧ t ∉ tables) := by
  simp only [Pins, getElem?_moveTables h]
  by_cases e : goal = some k
  · subst e
    have hk := (moveTables_some_eq_ok.1 h).1
    obtain ⟨g, hg⟩ := Option.isSome_iff_exists.1 (Std.ExtTreeMap.mem_iff_isSome_getElem?.1 hk)
    simp [hg, Std.ExtTreeSet.mem_union_iff, Std.ExtTreeSet.mem_diff_iff]
    tauto
  · rcases r.groups[k]? with - | g <;> simp [e, Std.ExtTreeSet.mem_diff_iff]

theorem hasServer_moveTables {goal : Option String} (h : r.moveTables tables goal = .ok r') :
    r'.HasServer k s ↔ r.HasServer k s := by
  simp only [HasServer, getElem?_moveTables h]
  rcases r.groups[k]? with - | g <;> simp

theorem named_moveTables {goal : Option String} (hr : r.Named)
    (h : r.moveTables tables goal = .ok r') : r'.Named := by
  intro k g hg
  rw [getElem?_moveTables h] at hg
  obtain ⟨g₀, hg₀, rfl⟩ := Option.map_eq_some_iff.1 hg
  have hn : g₀.name = k := hr hg₀
  exact hn

/-! ### Partition -/

theorem Partitioned.addGroup (hr : r.Partitioned) (h : r.addGroup name = .ok r') :
    r'.Partitioned where
  named := named_addGroup hr.named h
  server hj hk := hr.server ((hasServer_addGroup h).1 hj) ((hasServer_addGroup h).1 hk)
  table hj hk := hr.table ((pins_addGroup h).1 hj) ((pins_addGroup h).1 hk)

theorem Partitioned.removeGroup (hr : r.Partitioned) (h : r.removeGroup name = .ok r') :
    r'.Partitioned where
  named := named_removeGroup hr.named h
  server hj hk := hr.server ((hasServer_removeGroup h).1 hj).2 ((hasServer_removeGroup h).1 hk).2
  table hj hk := hr.table ((pins_removeGroup h).1 hj).2 ((pins_removeGroup h).1 hk).2

theorem Partitioned.moveServers (hr : r.Partitioned)
    (h : r.moveServers servers source target = .ok (moved, r')) : r'.Partitioned where
  named := named_moveServers hr.named h
  server hj hk := by
    rcases (hasServer_moveServers h).1 hj with ⟨rfl, hs, hj⟩ | ⟨hj, hjs⟩ <;>
      rcases (hasServer_moveServers h).1 hk with ⟨rfl, hs', hk⟩ | ⟨hk, hks⟩
    · rfl
    · exact absurd ⟨hr.server hk hj, hs⟩ hks
    · exact absurd ⟨hr.server hj hk, hs'⟩ hjs
    · exact hr.server hj hk
  table hj hk := hr.table ((pins_moveServers h).1 hj) ((pins_moveServers h).1 hk)

theorem Partitioned.moveTables (hr : r.Partitioned) {goal : Option String}
    (h : r.moveTables tables goal = .ok r') : r'.Partitioned where
  named := named_moveTables hr.named h
  server hj hk := hr.server ((hasServer_moveTables h).1 hj) ((hasServer_moveTables h).1 hk)
  table hj hk := by
    rcases (pins_moveTables h).1 hj with ⟨hj, ht⟩ | ⟨hj, hjt⟩ <;>
      rcases (pins_moveTables h).1 hk with ⟨hk, ht'⟩ | ⟨hk, hkt⟩
    · exact Option.some.inj (hj.symm.trans hk)
    · exact absurd ht hkt
    · exact absurd ht' hjt
    · exact hr.table hj hk

end ServerGroups.Registry
