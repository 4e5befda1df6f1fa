/-
ServerGroups/Proofs/DefaultGroup.lean

When the group `default` is left without servers although it owns tables.

The group `default` owns every table that no group pins, but the check before
a move of servers counts the tables that its source pins, and the check before
a move of tables looks at the servers of a target that is given.  So two
changes can leave regions of untracked tables to a group without servers:

  * a move of all servers out of `default`, while a listed region belongs to a
    table that no group pins;
  * a move of tables to no group, or the clean-up after a table, while
    `default` has no servers and a region of such a table is listed.

`default_served_iff` says that these are all: on every run the group `default`
has a server whenever it owns a listed region, exactly if no step of the run
makes one of these changes.
-/
import ServerGroups.Change
import ServerGroups.Proofs.Guarded
import ServerGroups.Proofs.Schedule.Performance

namespace ServerGroups

open Registry

/-- A region is listed under some table. -/
def Cluster.Lists (c : Cluster) (r : Region) : Prop := ∃ t, r ∈ c.regionsOf t

namespace World

/-- A listed region belongs to a table that no group pins, which the group `default` owns. -/
def DefaultOwns (w : World) : Prop :=
  ∃ r, w.site.cluster.Lists r ∧ ∀ k, ¬ w.site.registry.Pins k r.table

/-- If the group `default` owns a listed region, it has a server. -/
def DefaultServed (w : World) : Prop :=
  w.DefaultOwns → ∃ s, w.site.registry.HasServer defaultGroup s

/-- A call leaves regions to a group `default` without servers: it takes its last servers away
while it owns a region, or hands it a region when it has none. -/
def Strands (w : World) : Call → Prop
  | .moveServers servers source _ => source = defaultGroup ∧ w.DefaultOwns ∧
      ∀ s, w.site.registry.HasServer defaultGroup s → s ∈ servers
  | .moveTables tables none => (∃ r, w.site.cluster.Lists r ∧ r.table ∈ tables) ∧
      ∀ s, ¬ w.site.registry.HasServer defaultGroup s
  | _ => False

variable {w w' : World} {c : Call} {answer : c.Answer}

/-! ### One call -/

/-- No call changes which regions are listed. -/
theorem regions_serve (site : Site) (c : Call) :
    (site.serve c).site.cluster.regions = site.cluster.regions := by
  cases c with
  | unassign r =>
    simp only [Site.serve, Cluster.unassign]
    split
    · next h =>
      split at h
      · cases h
      · split at h <;>
          · obtain ⟨-, rfl⟩ := Prod.mk.inj (Except.ok.inj h)
            rfl
    · rfl
  | plan snapshot =>
    simp only [Site.serve, Site.plan]
    split <;> rfl
  | _ =>
    simp only [Site.serve, Site.look]
    try split
    all_goals rfl

theorem lists_congr (h : w'.site.cluster.regions = w.site.cluster.regions) (r : Region) :
    w'.site.cluster.Lists r ↔ w.site.cluster.Lists r := by
  simp only [Cluster.Lists, Cluster.regionsOf, h]

/-- Nothing changes for the group `default` if no member and no listing does. -/
theorem defaultServed_congr
    (hl : ∀ r, w'.site.cluster.Lists r ↔ w.site.cluster.Lists r)
    (hp : ∀ k t, w'.site.registry.Pins k t ↔ w.site.registry.Pins k t)
    (hs : ∀ s, w'.site.registry.HasServer defaultGroup s ↔
      w.site.registry.HasServer defaultGroup s) :
    w'.DefaultServed ↔ w.DefaultServed := by
  simp only [DefaultServed, DefaultOwns, hl, hp, hs]

theorem not_strands_of_reads (hc : c.writes = false) : ¬ w.Strands c := by
  cases c <;> first | exact id | cases hc

/-- A warranted call leaves the group `default` served, exactly if it does not strand a region. -/
theorem defaultServed_iff_not_strands (hc : w.site.registry.Warranted c)
    (hs : w.site.registry.Serves c answer w'.site.registry)
    (hl : ∀ r, w'.site.cluster.Lists r ↔ w.site.cluster.Lists r) (h : w.DefaultServed) :
    w'.DefaultServed ↔ ¬ w.Strands c := by
  rcases hs.cases with ⟨hreads, hr⟩ | ⟨name, rfl, hr⟩ | ⟨name, rfl, hr⟩ |
    ⟨servers, source, target, moved, rfl, hr⟩ | ⟨tables, goal, rfl, hr⟩
  · rw [defaultServed_congr hl (fun _ _ => by rw [hr]) fun _ => by rw [hr]]
    exact ⟨fun _ => not_strands_of_reads hreads, fun _ => h⟩
  · rw [defaultServed_congr hl (fun _ _ => pins_addGroup hr) fun _ => hasServer_addGroup hr]
    exact ⟨fun _ hstrands => hstrands, fun _ => h⟩
  · -- what is removed is not `default` and pins nothing
    obtain ⟨hname, -, -, hpins⟩ := hc
    rw [defaultServed_congr hl (fun k t => ?_) fun s => ?_]
    · exact ⟨fun _ hstrands => hstrands, fun _ => h⟩
    · rw [pins_removeGroup hr, and_iff_right_of_imp]
      rintro ht rfl
      exact hpins t ht
    · rw [hasServer_removeGroup hr, and_iff_right hname]
  · obtain ⟨hne, -, -, -, -⟩ := hc
    have hown : w'.DefaultOwns ↔ w.DefaultOwns := by
      simp only [DefaultOwns, hl, pins_moveServers hr]
    constructor
    · rintro h' ⟨rfl, howns, hall⟩
      obtain ⟨s, hs⟩ := h' (hown.2 howns)
      rcases (hasServer_moveServers hr).1 hs with ⟨htarget, -, -⟩ | ⟨hs, hstays⟩
      · exact hne htarget
      · exact hstays ⟨rfl, hall s hs⟩
    · intro hstrands howns
      obtain ⟨s, hs⟩ := h (hown.1 howns)
      by_cases hsource : source = defaultGroup
      · by_contra hnone
        refine hstrands ⟨hsource, hown.1 howns, fun s hs => ?_⟩
        by_contra hstays
        exact hnone ⟨s, (hasServer_moveServers hr).2 (.inr ⟨hs, fun hleft => hstays hleft.2⟩)⟩
      · exact ⟨s, (hasServer_moveServers hr).2 (.inr ⟨hs, fun hleft => hsource hleft.1.symm⟩)⟩
  · cases goal with
    | some name =>
      refine ⟨fun _ hstrands => hstrands, ?_⟩
      rintro - ⟨r, hlists, hr'⟩
      have hold : w.DefaultOwns := by
        refine ⟨r, (hl r).1 hlists, fun k hk => ?_⟩
        by_cases ht : r.table ∈ tables
        · exact hr' name ((pins_moveTables hr).2 (.inl ⟨rfl, ht⟩))
        · exact hr' k ((pins_moveTables hr).2 (.inr ⟨hk, ht⟩))
      obtain ⟨s, hs⟩ := h hold
      exact ⟨s, (hasServer_moveTables hr).2 hs⟩
    | none =>
      constructor
      · rintro h' ⟨⟨r, hlists, ht⟩, hnone⟩
        have hown : w'.DefaultOwns := by
          refine ⟨r, (hl r).2 hlists, fun k hk => ?_⟩
          rcases (pins_moveTables hr).1 hk with ⟨hgoal, -⟩ | ⟨-, hk⟩
          · cases hgoal
          · exact hk ht
        obtain ⟨s, hs⟩ := h' hown
        exact hnone s ((hasServer_moveTables hr).1 hs)
      · rintro hstrands ⟨r, hlists, hr'⟩
        simp only [hasServer_moveTables hr]
        by_cases ht : r.table ∈ tables
        · by_contra hnone
          exact hstrands ⟨⟨r, (hl r).1 hlists, ht⟩, fun s hs => hnone ⟨s, hs⟩⟩
        · refine h ⟨r, (hl r).1 hlists, fun k hk => ?_⟩
          exact hr' k ((pins_moveTables hr).2 (.inr ⟨hk, ht⟩))

end World

/-! ### Every run -/

section Runs

variable {E : Setting} {m m' : Moment}

/-- A step of a run makes no change that strands a region. -/
def Moment.Spares (m m' : Moment) : Prop := ∀ c, m.Answers c m' → ¬ m.world.Strands c

/-- After a step from a moment at which the group `default` is served it still is, exactly if the
step strands no region. -/
theorem Moment.Step.defaultServed_iff (hE : E.SparesRegistry) (hL : E.SparesListing)
    (h : guarded.Holds E m) (hs : m.Step E m') (hm : m.world.DefaultServed) :
    m'.world.DefaultServed ↔ m.Spares m' := by
  have hregions : m'.world.site.cluster.regions = m.world.site.cluster.regions := by
    rcases hs.site with ⟨c, agent, owed, next, answer, -, hmeet⟩ | ho | hsite
    · rw [(World.answered_call hmeet).2, World.regions_serve]
    · exact hL ho
    · rw [hsite]
  have hl := World.lists_congr hregions
  constructor
  · intro hm' c hc
    obtain ⟨agent, owed, next, answer, hrun, hmeet⟩ := hc
    obtain ⟨w, running, waiting⟩ := m
    obtain rfl : running = _ := hrun
    have hserves := World.serves_of_answered hmeet
    exact (World.defaultServed_iff_not_strands (h.safe trivial c rfl) hserves hl hm).1 hm'
  · intro hspares
    rcases hs.registry hE h with hsame | ⟨c, answer, hanswers, hc, hserves⟩
    · rw [World.defaultServed_congr hl (fun _ _ => by rw [hsame]) fun _ => by rw [hsame]]
      exact hm
    · exact (World.defaultServed_iff_not_strands hc hserves hl hm).2 (hspares c hanswers)

/-- On a run from a moment at which the group `default` is served. -/
theorem defaultServed_run (hE : E.SparesRegistry) (hL : E.SparesListing) {run : List Moment} :
    ∀ {m : Moment}, guarded.Holds E m → m.world.DefaultServed →
      (m :: run).IsChain (Moment.Step E) →
      ((∀ m' ∈ m :: run, m'.world.DefaultServed) ↔ (m :: run).IsChain Moment.Spares) := by
  induction run with
  | nil =>
    intro m _ hm _
    refine ⟨fun _ => .singleton m, fun _ m' hm' => ?_⟩
    obtain rfl := List.mem_singleton.1 hm'
    exact hm
  | cons m₁ run ih =>
    intro m h hm hrun
    obtain ⟨hs, hrest⟩ := List.isChain_cons_cons.1 hrun
    have hstep := hs.defaultServed_iff hE hL h hm
    rw [List.isChain_cons_cons, ← hstep]
    constructor
    · intro hall
      have hm₁ : m₁.world.DefaultServed := hall m₁ (by simp)
      have hD := (guarded_lawful hE).step h (fun _ _ _ _ _ => trivial) hs
      exact ⟨hm₁, (ih hD hm₁ hrest).1 fun m' hm' => hall m' (List.mem_cons_of_mem _ hm')⟩
    · rintro ⟨hm₁, hchain⟩ m' hm'
      rcases List.mem_cons.1 hm' with rfl | hm'
      · exact hm
      · have hD := (guarded_lawful hE).step h (fun _ _ _ _ _ => trivial) hs
        exact (ih hD hm₁ hrest).2 hchain m' hm'

end Runs

/-- A coordinator whose only server, in the group `default`, holds the only region, of a table that
no group pins. -/
def World.single : World :=
  .start {} ((Site.ofServers {⟨"rs1", 1⟩} .absent).change
    (.region ⟨⟨"default", "t1"⟩, "r1"⟩ (some ⟨"rs1", 1⟩)))

/-- The server has been moved to a new group, which nothing refuses. -/
def World.stranded : World :=
  ((World.single.operate (.addGroup "a")).2.operate (.moveServers {⟨"rs1", 1⟩} "a")).2

theorem hasServer_single : World.single.site.registry.HasServer defaultGroup ⟨"rs1", 1⟩ :=
  ⟨⟨defaultGroup, {⟨"rs1", 1⟩}, ∅⟩, by decide +kernel, by decide +kernel⟩

theorem reaches_stranded :
    Moment.Reaches .sparing (.still World.single) (.still World.stranded) :=
  (Moment.reaches_operate _ _ trivial fun _ _ => trivial).trans
    (Moment.reaches_operate _ _ trivial fun _ _ => trivial)

theorem not_defaultServed_stranded : ¬ World.stranded.DefaultServed := by
  have hempty : World.stranded.site.registry.groups[defaultGroup]? =
      some ⟨defaultGroup, ∅, ∅⟩ := by decide +kernel
  have howns : World.stranded.DefaultOwns := by
    refine ⟨⟨⟨"default", "t1"⟩, "r1"⟩, ⟨⟨"default", "t1"⟩, by decide +kernel⟩, ?_⟩
    exact groupOfTable?_eq_none.1 (by decide +kernel)
  intro h
  obtain ⟨s, g, hg, hs⟩ := h howns
  rw [hempty] at hg
  rw [← Option.some.inj hg] at hs
  exact Std.ExtTreeSet.not_mem_empty hs

/-- **When the group `default` has a server while it owns a region.**  On every run from a world in
which it has one, at every moment, exactly if no step of the run strands a region: takes the last
servers of `default` while a listed region is of an untracked table, or unpins the table of a
listed region while `default` has no server. -/
theorem default_served_iff {E : Setting} (hE : E.SparesRegistry) (hL : E.SparesListing)
    {w : World} {run : List Moment} (hn : w.site.registry.Named)
    (hw : ∃ s, w.site.registry.HasServer defaultGroup s)
    (hrun : (Moment.still w :: run).IsChain (Moment.Step E)) :
    (∀ m ∈ Moment.still w :: run, m.world.DefaultServed) ↔
      (Moment.still w :: run).IsChain Moment.Spares :=
  defaultServed_run hE hL (guarded_holds hE hn .refl) (fun _ => hw) hrun

/-- The run on which the only server is moved out of `default` has a step that strands a region. -/
theorem default_served_iff_stranded : ∃ run : List Moment,
    (Moment.still World.single :: run).IsChain (Moment.Step .sparing) ∧
      ¬ (Moment.still World.single :: run).IsChain Moment.Spares := by
  obtain ⟨run, hrun, hlast⟩ := List.exists_isChain_cons_of_relationReflTransGen reaches_stranded
  refine ⟨run, hrun, fun hspares => not_defaultServed_stranded ?_⟩
  have hall := (default_served_iff Setting.sparing_registry Setting.sparing_listing
    named_ofServers ⟨_, hasServer_single⟩ hrun).2 hspares
  have hmem := hall _ (List.getLast_mem (List.cons_ne_nil _ _))
  rw [hlast] at hmem
  exact hmem

/-- Without failures, and from a world in which the group `default` has a server, it is left
without one while it owns a region. -/
theorem default_group_left_without_servers :
    (∃ s, World.single.site.registry.HasServer defaultGroup s) ∧
      Moment.Reaches .sparing (.still World.single) (.still World.stranded) ∧
        ¬ World.stranded.DefaultServed :=
  ⟨⟨_, hasServer_single⟩, reaches_stranded, not_defaultServed_stranded⟩

end ServerGroups
