/-
ServerGroups/Proofs/Membership.lean

Who belongs where, at every moment.

Two properties of the registry hold whatever is asked of the coordinator, in
whatever order, with whatever failures and crashes of the services and hooks,
and whatever waits in between:

  * the servers that the coordinator started with stay divided among the
    groups: none is lost, none has two groups, and no other server comes in
    (`membership_divides`);
  * a group that pins tables has a server (`pinning_groups_staffed`).

Neither holds of every change that the registry accepts; both are kept by the
warranted ones.
-/
import ServerGroups.Proofs.Guarded
import ServerGroups.Proofs.Schedule.Performance

namespace ServerGroups

namespace Registry

variable {r r' : Registry} {c : Call} {answer : c.Answer} {servers : ServerSet}

/-! ### The servers are divided among the groups -/

/-- Some servers are divided among the groups of a registry, and tables have one group at most. -/
structure Divides (r : Registry) (servers : ServerSet) : Prop where
  named : ∀ (k : String) (g : Group), r.groups[k]? = some g → g.name = k
  default : defaultGroup ∈ r.groups
  one : ∀ s ∈ servers, ∃! k, r.HasServer k s
  only : ∀ k s, r.HasServer k s → s ∈ servers
  table : ∀ j k t, r.Pins j t → r.Pins k t → j = k

/-- In other words: the registry is partitioned, and its servers are the given ones. -/
theorem divides_iff : r.Divides servers ↔ r.Partitioned ∧ defaultGroup ∈ r.groups ∧
    ∀ s, s ∈ servers ↔ ∃ k, r.HasServer k s := by
  constructor
  · intro h
    refine ⟨⟨fun hg => h.named _ _ hg, fun {j k s} hj hk => ?_, fun hj hk => h.table _ _ _ hj hk⟩,
      h.default, fun s => ⟨fun hs => (h.one s hs).exists, fun ⟨k, hk⟩ => h.only k s hk⟩⟩
    exact (h.one s (h.only j s hj)).unique hj hk
  · rintro ⟨hp, hd, hs⟩
    refine ⟨fun k g hg => hp.named hg, hd, fun s hmem => ?_, fun k s hk => (hs s).2 ⟨k, hk⟩,
      fun j k t hj hk => hp.table hj hk⟩
    obtain ⟨k, hk⟩ := (hs s).1 hmem
    exact ⟨k, hk, fun j hj => hp.server hj hk⟩

theorem divides_ofServers : (ofServers servers).Divides servers := by
  refine ⟨fun k g hg => named_ofServers hg, ?_, fun s hs => ?_, ?_, ?_⟩
  · rw [Std.ExtTreeMap.mem_iff_isSome_getElem?, getElem?_ofServers, if_pos rfl]
    rfl
  · refine ⟨defaultGroup, ⟨_, by rw [getElem?_ofServers, if_pos rfl], hs⟩, ?_⟩
    rintro k ⟨g, hg, -⟩
    exact (of_getElem?_ofServers hg).1
  · rintro k s ⟨g, hg, hs⟩
    obtain ⟨-, rfl⟩ := of_getElem?_ofServers hg
    exact hs
  · rintro j k t ⟨g, hg, -⟩ ⟨g', hg', -⟩
    rw [(of_getElem?_ofServers hg).1, (of_getElem?_ofServers hg').1]

/-- No warranted change loses a server, or takes `default` away: what is removed has no members,
and what leaves a group joins another one. -/
theorem Divides.serves (h : r.Divides servers) (hc : r.Warranted c) (hs : r.Serves c answer r') :
    r'.Divides servers := by
  rw [divides_iff] at h ⊢
  obtain ⟨hp, hd, hmem⟩ := h
  rcases hs.cases with ⟨-, rfl⟩ | ⟨name, rfl, h⟩ | ⟨name, rfl, h⟩ |
    ⟨moving, source, target, moved, rfl, h⟩ | ⟨tables, goal, rfl, h⟩
  · exact ⟨hp, hd, hmem⟩
  · refine ⟨hp.addGroup h, (mem_addGroup h).2 (.inr hd), fun s => ?_⟩
    simp only [hasServer_addGroup h]
    exact hmem s
  · obtain ⟨hname, -, hempty, -⟩ := hc
    refine ⟨hp.removeGroup h, (mem_removeGroup h).2 ⟨hname, hd⟩, fun s => ?_⟩
    rw [hmem s]
    constructor
    · rintro ⟨k, hk⟩
      refine ⟨k, (hasServer_removeGroup h).2 ⟨?_, hk⟩⟩
      rintro rfl
      exact hempty s hk
    · rintro ⟨k, hk⟩
      exact ⟨k, ((hasServer_removeGroup h).1 hk).2⟩
  · refine ⟨hp.moveServers h, (mem_moveServers h).2 hd, fun s => ?_⟩
    rw [hmem s]
    constructor
    · rintro ⟨k, hk⟩
      by_cases hleft : k = source ∧ s ∈ moving
      · obtain ⟨rfl, hmoving⟩ := hleft
        exact ⟨target, (hasServer_moveServers h).2 (.inl ⟨rfl, hmoving, hk⟩)⟩
      · exact ⟨k, (hasServer_moveServers h).2 (.inr ⟨hk, hleft⟩)⟩
    · rintro ⟨k, hk⟩
      rcases (hasServer_moveServers h).1 hk with ⟨-, -, hk⟩ | ⟨hk, -⟩
      · exact ⟨source, hk⟩
      · exact ⟨k, hk⟩
  · refine ⟨hp.moveTables h, (mem_moveTables h).2 hd, fun s => ?_⟩
    simp only [hasServer_moveTables h]
    exact hmem s

/-! ### Groups that pin tables have servers -/

/-- Every group that pins a table has a server. -/
def Staffed (r : Registry) : Prop := ∀ k t, r.Pins k t → ∃ s, r.HasServer k s

/-- No warranted change leaves pinned tables without a server: a source that pins tables keeps a
server, and a target has one before it is given tables. -/
theorem Staffed.serves (h : r.Staffed) (hc : r.Warranted c) (hs : r.Serves c answer r') :
    r'.Staffed := by
  intro k t ht
  rcases hs.cases with ⟨-, rfl⟩ | ⟨name, rfl, hr⟩ | ⟨name, rfl, hr⟩ |
    ⟨moving, source, target, moved, rfl, hr⟩ | ⟨tables, goal, rfl, hr⟩
  · exact h k t ht
  · obtain ⟨s, hs⟩ := h k t ((pins_addGroup hr).1 ht)
    exact ⟨s, (hasServer_addGroup hr).2 hs⟩
  · obtain ⟨hne, ht⟩ := (pins_removeGroup hr).1 ht
    obtain ⟨s, hs⟩ := h k t ht
    exact ⟨s, (hasServer_removeGroup hr).2 ⟨hne, hs⟩⟩
  · obtain ⟨-, -, -, -, hstay⟩ := hc
    have ht := (pins_moveServers hr).1 ht
    by_cases hk : k = source
    · subst hk
      obtain ⟨s, hs, hleft⟩ := hstay t ht
      exact ⟨s, (hasServer_moveServers hr).2 (.inr ⟨hs, fun h => hleft h.2⟩)⟩
    · obtain ⟨s, hs⟩ := h k t ht
      exact ⟨s, (hasServer_moveServers hr).2 (.inr ⟨hs, fun h => hk h.1⟩)⟩
  · rcases (pins_moveTables hr).1 ht with ⟨rfl, -⟩ | ⟨ht, -⟩
    · obtain ⟨s, hs⟩ := hc
      exact ⟨s, (hasServer_moveTables hr).2 hs⟩
    · obtain ⟨s, hs⟩ := h k t ht
      exact ⟨s, (hasServer_moveTables hr).2 hs⟩

end Registry

/-! ### At every moment -/

/-- **Membership is a partition.**  From a registry in which the group `default` holds some
servers, in every registry that is ever reached these servers are divided among the groups:
whatever operations are called, whatever waits or is given up, and whatever happens outside of the
registry. -/
theorem membership_divides {E : Setting} (hE : E.SparesRegistry) {w : World} {m : Moment}
    {servers : ServerSet} (hw : w.site.registry = .ofServers servers)
    (h : Moment.Reaches E (.still w) m) : m.world.site.registry.Divides servers := by
  have hd : w.site.registry.Divides servers := by
    rw [hw]
    exact Registry.divides_ofServers
  exact Registry.invariant hE (P := fun r => r.Divides servers)
    (fun _ hc hs hr => hr.serves hc hs) (fun hg => hd.named _ _ hg) hd h

theorem membership_divides_after_move :
    ((((World.start {} (.ofServers {⟨"rs1", 1⟩, ⟨"rs2", 1⟩} .absent)).operate
      (.addGroup "a")).2.operate (.startMove {⟨"rs2", 1⟩} "a")).2).site.registry.Divides
        {⟨"rs1", 1⟩, ⟨"rs2", 1⟩} := by
  have hadd := Moment.reaches_operate Setting.sparing [] (o := .addGroup "a")
    (w := .start {} (.ofServers {⟨"rs1", 1⟩, ⟨"rs2", 1⟩} .absent)) trivial fun _ _ => trivial
  have hmove := Moment.reaches_operate Setting.sparing [] (o := .startMove {⟨"rs2", 1⟩} "a")
    (w := ((World.start {} (.ofServers {⟨"rs1", 1⟩, ⟨"rs2", 1⟩} .absent)).operate
      (.addGroup "a")).2) trivial fun _ _ => trivial
  exact membership_divides Setting.sparing_registry (by rfl) (hadd.trans hmove)

/-- **A group with pinned tables is never without servers**, if at first none is and the groups are
partitioned. -/
theorem pinning_groups_staffed {E : Setting} (hE : E.SparesRegistry) {w : World} {m : Moment}
    (hp : w.site.registry.Partitioned) (hs : w.site.registry.Staffed)
    (h : Moment.Reaches E (.still w) m) : m.world.site.registry.Staffed :=
  Registry.invariant hE (fun _ hc hserves hr => hr.serves hc hserves) hp.named hs h

theorem pinning_groups_staffed_after_move :
    (((World.start {} (.ofServers {⟨"rs1", 1⟩} .absent)).operate
      (.moveTables {⟨"ns", "t"⟩} (some "default"))).2).site.registry.Staffed := by
  have hd : (Registry.ofServers {⟨"rs1", 1⟩}).Divides {⟨"rs1", 1⟩} := Registry.divides_ofServers
  have hs : (Registry.ofServers {⟨"rs1", 1⟩}).Staffed := by
    rintro k t ⟨g, hg, ht⟩
    obtain ⟨-, rfl⟩ := Registry.of_getElem?_ofServers hg
    exact absurd ht Std.ExtTreeSet.not_mem_empty
  have hmove := Moment.reaches_operate Setting.sparing []
    (o := .moveTables {⟨"ns", "t"⟩} (some "default"))
    (w := .start {} (.ofServers {⟨"rs1", 1⟩} .absent)) trivial fun _ _ => trivial
  exact pinning_groups_staffed Setting.sparing_registry (Registry.divides_iff.1 hd).1 hs hmove

end ServerGroups
