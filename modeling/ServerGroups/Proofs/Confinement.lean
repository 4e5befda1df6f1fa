/-
ServerGroups/Proofs/Confinement.lean

Regions stay on the servers of their groups.

At every moment a region that is on a server, assigned or in transition, is at
home there: the server belongs to the group that owns its table.  There are
two exceptions:

  * the server is on the move: it belongs to another group already, and what
    it had is yet to be drained;
  * the table has been moved, and the operation that has moved it is yet to
    unassign the region.

So while no move of tables is between its change of the registry and its last
request to unassign, only the first one is left (`regions_confined`).

Nothing of this needs a lock on regions.  The pipeline may assign regions
whenever it likes, as long as it assigns them at home, and groups may be
balanced between any two passes of a drain.
-/
import ServerGroups.Change
import ServerGroups.Proofs.Confinement.Drain
import ServerGroups.Proofs.Confinement.Operations
import ServerGroups.Proofs.Membership
import ServerGroups.Proofs.Schedule.Performance

namespace ServerGroups

open World

variable {E : Setting} {free : TableName → Prop} {a : Agent} {ended : Progress a.Result}
variable {v v' : View}

/-! ### The end of an activity -/

/-- What holds at the end of an activity is not spoilt while the world settles. -/
theorem Rested.settles (h : Rested free a ended v) (hv : v.Settles v') :
    Rested free a ended v' := by
  cases a with
  | operation o => exact hv.ready h
  | pass number m =>
    cases ended with
    | returned busy =>
      obtain ⟨hready, hm, hsub, hclear⟩ := h
      refine ⟨hv.ready hready, hv.world.running.2 hm, hsub, fun s hs hnot r hr => ?_⟩
      rw [hv.world.registry]
      rcases hv.world.on hr with hold | ⟨hhome, -⟩
      · exact hclear s hs hnot r hold
      · exact hhome
    | _ => exact h.elim
  | finish number m =>
    cases ended with
    | returned result =>
      obtain ⟨hready, hm, hp⟩ := h
      exact ⟨hv.ready hready, hv.world.running.2 hm, hp⟩
    | _ => exact h.elim

theorem Rested.ready (h : Rested free a ended v) : v.Ready free := by
  cases a with
  | operation o => exact h
  | pass number m =>
    cases ended with
    | returned busy => exact h.1
    | _ => exact h.elim
  | finish number m =>
    cases ended with
    | returned result => exact h.1
    | _ => exact h.elim

/-- What becomes of an operation that has ended changes nothing that matters here. -/
theorem Operation.settles_conclude (o : Operation) (ended : Outcome o.Answer) (w : World) :
    w.Settles (o.conclude (ended, w)).2 := by
  cases o with
  | forgetTable t =>
    cases ended with
    | failed cause => exact settles_report w _
    | _ => exact .refl w
  | _ => exact .refl w

/-! ### The discipline is lawful -/

/-- Every program of the coordinator keeps to the discipline, if no region is pinned of a table
that an operation names, and no operation that still owes regions is given up. -/
theorem confining_lawful (hE : E.Pipelined)
    (hcalled : ∀ o, E.called o → ∀ t, o.Names t → free t)
    (habandoned : ∀ activity, E.abandoned activity → activity.owed = ∅) :
    (confining free).Lawful E where
  calm_outside h ho := (hE ho).settles.calm h
  calm_ticks h := (settles_advance _ _).calm h
  closed_outside h ho := Rested.settles h ⟨(hE ho).settles, rfl, rfl⟩
  closed_ticks h := Rested.settles h ⟨settles_advance _ _, rfl, rfl⟩
  operation {o w others} ho h := Operation.orderly hE (hcalled o ho) o ⟨w, ∅, others⟩ ⟨rfl, h⟩
  pass {number m w others} hm he h := by
    have hrun : w.Running number m := ⟨hm, he⟩
    refine keeps_drainPass hE ⟨rfl, ?_⟩ (hrun.setMove he)
    exact h.setMove hrun rfl rfl he (fun _ hs => hs) fun _ hs hnot => absurd hs hnot
  finish {number m v} h := by
    obtain ⟨hready, hm, -, hclear⟩ := h
    -- the last pass calls no server busy, so every one of them is clear
    refine keeps_finishMove hE ⟨rfl, ?_⟩ (hm.setMove hm.2) rfl
    refine hready.calm.setMove hm rfl rfl hm.2 (fun s hs => absurd hs List.not_mem_nil) ?_
    exact fun s hs _ => hclear s hs List.not_mem_nil
  concluded {o ended v} h := (o.settles_conclude ended.outcome _).calm h.calm.letGo
  passed {number m ended v} hne h := by
    cases ended with
    | returned busy =>
      obtain ⟨hready, hm, hsub, hclear⟩ := h
      exact hready.calm.setMove hm rfl rfl hm.2 hsub hclear
    | _ => exact h.elim
  finished {number m ended v} h := by
    cases ended with
    | returned result =>
      obtain ⟨hready, hm, hp⟩ := h
      exact hready.calm.endMove hm hp .completed
    | _ => exact h.elim
  abandoned {activity w others} ha h := by
    have hcalm : w.Calm free (others ∪ activity.owed) := h
    rw [habandoned activity ha, Set.union_empty] at hcalm
    exact hcalm.letGo

theorem Setting.Pipelined.sparesRegistry (hE : E.Pipelined) : E.SparesRegistry :=
  fun ho => (hE ho).settles.registry

/-! ### At every moment -/

/-- A region is owed by an activity that has moved its table and is yet to unassign it. -/
def Moment.Owes (m : Moment) (r : Region) : Prop := ∃ a ∈ m.activities, r ∈ a.owed

/-- If everyone keeps to the discipline, every region is at home, or owed, or on a server that is
on the move. -/
theorem confined_of_holds {m : Moment} (hg : guarded.Holds E m) (h : (confining free).Holds E m)
    {r : Region} {s : ServerAddress} (hr : m.world.site.cluster.On r s) :
    m.world.site.registry.Hosts s r.table ∨ m.Owes r ∨ m.world.Moving s := by
  obtain ⟨w, running, waiting⟩ := m
  have hdebts : ∀ {x : Region}, x ∈ Activity.debts waiting →
      Moment.Owes ⟨w, running, waiting⟩ x := by
    rintro x ⟨b, hb, hx⟩
    exact ⟨b, List.mem_append_right _ hb, hx⟩
  rcases running with - | ⟨a, owed, rest⟩
  · have hcalm : w.Calm free (Activity.debts waiting) := h.calm rfl
    rcases hcalm.confined r s hr with hhome | howed | hmoving
    · exact .inl hhome
    · exact .inr (.inl (hdebts howed))
    · exact .inr (.inr hmoving)
  · -- an activity that has ended is at rest, and the next request of another one is safe
    have hconfined : w.Confined (Activity.debts waiting ∪ owed) := by
      have hkeeps := h.running _ rfl
      cases rest with
      | done result => exact (Rested.ready hkeeps).fine.confined
      | fail cause => exact (Rested.ready hkeeps).fine.confined
      | ask q next => exact h.safe fun c hc => hg.safe trivial c hc
    rcases hconfined r s hr with hhome | (hwaiting | howed) | hmoving
    · exact .inl hhome
    · exact .inr (.inl (hdebts hwaiting))
    · exact .inr (.inl ⟨_, List.mem_append_left _ (List.mem_singleton_self _), howed⟩)
    · exact .inr (.inr hmoving)

/-! ### Runs -/

/-- Every region of a site is listed and at home, on a server of the group that owns its table. -/
structure Site.AtHome (site : Site) : Prop where
  partitioned : site.registry.Partitioned
  listed : ∀ r s, site.cluster.On r s → r ∈ site.cluster.regionsOf r.table
  keyed : ∀ (name : String) (x : RegionTransition), site.cluster.transitions[name]? = some x →
    x.region.encodedName = name
  home : ∀ r s, site.cluster.On r s → site.registry.Hosts s r.table

/-- Any operation may be called that names no table of which a region is pinned; an operation is
not given up while it owes regions; and the pipeline assigns regions at home. -/
def Setting.pipeline (c : Cluster) : Setting where
  called o := ∀ t, o.Names t → ∀ r : Region, r.table = t → c.pinned r = 0
  abandoned activity := activity.owed = ∅
  outside := Assigns

section Runs

variable {config : Config} {site : Site} {m : Moment}

/-- On every run from a site whose regions are all at home, everyone keeps to the discipline. -/
theorem confining_holds (hsite : site.AtHome) (hreliable : site.Reliable)
    (h : Moment.Reaches (.pipeline site.cluster) (.still (.start config site)) m) :
    guarded.Holds (.pipeline site.cluster) m ∧
      (confining fun t => ∀ r : Region, r.table = t → site.cluster.pinned r = 0).Holds
        (.pipeline site.cluster) m := by
  have hE : (Setting.pipeline site.cluster).Pipelined := fun ho => ho
  have hg : ∀ {m'}, Moment.Reaches (.pipeline site.cluster) (.still (.start config site)) m' →
      guarded.Holds (.pipeline site.cluster) m' :=
    fun h' => guarded_holds hE.sparesRegistry (fun hg => hsite.partitioned.named hg) h'
  have hidle : (World.start config site).Idle := by
    rintro number move ⟨hm, -⟩
    cases hm
  have hstart : (World.start config site).Calm
      (fun t => ∀ r : Region, r.table = t → site.cluster.pinned r = 0) ∅ := by
    refine ⟨⟨hsite.partitioned, hsite.listed, hsite.keyed, rfl, hreliable.failing,
      hreliable.script, hreliable.willing, fun r hfree => hfree r rfl⟩, rfl,
      fun number move hm => absurd hm (hidle number move),
      fun number _ move _ hm _ => absurd hm (hidle number move),
      fun r s hr => .inl (hsite.home r s hr)⟩
  refine ⟨hg h, (confining_lawful hE (fun o ho => ho) fun _ ha => ha).holds hstart ?_ h⟩
  -- what an operation asks of the registry is warranted, as is known of every run
  rintro ⟨w, running, waiting⟩ hm' agent owed q next hrun c rfl
  obtain rfl : running = _ := hrun
  exact (hg hm').safe trivial c rfl

/-- When an operation comes to its end it owes no region: of each region that it owed it has asked
to be unassigned, but for those that are not listed. -/
theorem owes_nothing_at_end (hsite : site.AtHome) (hreliable : site.Reliable)
    (h : Moment.Reaches (.pipeline site.cluster) (.still (.start config site)) m)
    {a : Activity} (hrun : m.running = some a) (hend : ∀ q next, a.rest ≠ .ask q next) :
    a.owed = ∅ := by
  have hkeeps := (confining_holds hsite hreliable h).2.running a hrun
  obtain ⟨agent, owed, rest⟩ := a
  cases rest with
  | done result => exact (Rested.ready hkeeps).owed
  | fail cause => exact (Rested.ready hkeeps).owed
  | ask q next => exact absurd rfl (hend q next)

/-- **Confinement.**  From a site whose regions are all at home, whatever operations are called in
whatever order: a region that is assigned or in transition is on a server of the group that owns
its table, or on a server that is on the move, unless an operation has moved its table and is yet
to unassign it. -/
theorem regions_confined (hsite : site.AtHome) (hreliable : site.Reliable)
    (h : Moment.Reaches (.pipeline site.cluster) (.still (.start config site)) m)
    {r : Region} {s : ServerAddress} (hr : m.world.site.cluster.On r s)
    (hpaid : ∀ a ∈ m.activities, r ∉ a.owed) :
    m.world.site.registry.Hosts s r.table ∨ m.world.Moving s := by
  obtain ⟨hg, hholds⟩ := confining_holds hsite hreliable h
  rcases confined_of_holds hg hholds hr with hhome | ⟨activity, ha, howed⟩ | hmoving
  · exact .inl hhome
  · exact absurd howed (hpaid activity ha)
  · exact .inr hmoving

end Runs

/-! ### A move under way -/

/-- Two servers in the group `default`, and a region on the first one. -/
def Site.pair : Site :=
  (Site.ofServers {⟨"rs1", 1⟩, ⟨"rs2", 1⟩} .absent).change
    (.region ⟨⟨"default", "t1"⟩, "r1"⟩ (some ⟨"rs1", 1⟩))

/-- The two servers, and besides `default` a group without members. -/
def World.paired : World := ((start {} .pair).operate (.addGroup "a")).2

/-- The first server has been moved to a new group, and is not drained yet. -/
def World.leaving : World :=
  (((World.start {} .pair).operate (.addGroup "a")).2.operate (.startMove {⟨"rs1", 1⟩} "a")).2

theorem on_pair {r : Region} {s : ServerAddress} (h : Site.pair.cluster.On r s) :
    r = ⟨⟨"default", "t1"⟩, "r1"⟩ ∧ s = ⟨"rs1", 1⟩ := by
  rcases h with h | ⟨name, x, hx, -⟩
  · have hassigned : ((∅ : Std.ExtTreeMap Region ServerAddress).insert
        ⟨⟨"default", "t1"⟩, "r1"⟩ ⟨"rs1", 1⟩)[r]? = some s := h
    rw [Std.ExtTreeMap.getElem?_insert] at hassigned
    split at hassigned
    · next heq =>
      exact ⟨(Std.LawfulEqOrd.eq_of_compare heq).symm, (Option.some.inj hassigned).symm⟩
    · simp at hassigned
  · have hnone : (∅ : Std.ExtTreeMap String RegionTransition)[name]? = some x := hx
    simp at hnone

theorem atHome_pair : Site.pair.AtHome where
  partitioned := (Registry.divides_iff.1 Registry.divides_ofServers).1
  listed r s h := by
    obtain ⟨rfl, rfl⟩ := on_pair h
    decide +kernel
  keyed name x hx := by
    have hnone : (∅ : Std.ExtTreeMap String RegionTransition)[name]? = some x := hx
    simp at hnone
  home r s h := by
    obtain ⟨rfl, rfl⟩ := on_pair h
    refine ⟨defaultGroup, .inr ⟨rfl, Registry.groupOfTable?_eq_none.1 (by decide +kernel)⟩, ?_⟩
    exact ⟨⟨defaultGroup, {⟨"rs1", 1⟩, ⟨"rs2", 1⟩}, ∅⟩, by decide +kernel, by decide +kernel⟩

theorem World.partitioned_paired : paired.site.registry.Partitioned := by
  have hadd : Site.pair.registry.addGroup "a" = .ok paired.site.registry := by rfl
  exact atHome_pair.partitioned.addGroup hadd

theorem reliable_pair : Site.pair.Reliable := ⟨rfl, fun _ h => (by cases h), rfl⟩

/-- An operation that comes to an end is not given up. -/
theorem reaches_returned {c : Cluster} {w : World} {o : Operation} (result : o.Answer)
    (ho : (Setting.pipeline c).called o) (h : (w.operate o).1 = .returned result) :
    Moment.Reaches (.pipeline c) (.still w) (.still (w.operate o).2) := by
  refine Moment.reaches_operate _ _ ho fun hgivenUp => ?_
  rw [h] at hgivenUp
  cases hgivenUp

theorem reaches_leaving :
    Moment.Reaches (.pipeline Site.pair.cluster) (.still (.start {} .pair)) (.still .leaving) := by
  have hadd : Moment.Reaches (.pipeline Site.pair.cluster) (.still (.start {} .pair))
      (.still ((World.start {} .pair).operate (.addGroup "a")).2) :=
    reaches_returned () (fun t ht => ht.elim) (by rfl)
  exact hadd.trans (reaches_returned (some 0) (fun t ht => ht.elim) (by rfl))

/-- The table is untracked, so it is the group `default` that owns it, with the other server. -/
theorem not_hosts_leaving :
    ¬ World.leaving.site.registry.Hosts ⟨"rs1", 1⟩ ⟨"default", "t1"⟩ := by
  rintro ⟨k, howns, hk⟩
  have hfind : World.leaving.site.registry.groupOfTable? ⟨"default", "t1"⟩ = none := by
    decide +kernel
  rcases howns with hpins | ⟨rfl, -⟩
  · exact Registry.groupOfTable?_eq_none.1 hfind k hpins
  · obtain ⟨g, hg, hs⟩ := hk
    have hdefault : World.leaving.site.registry.groups[defaultGroup]? =
        some ⟨defaultGroup, {⟨"rs2", 1⟩}, ∅⟩ := by decide +kernel
    obtain rfl := Option.some.inj (hdefault.symm.trans hg)
    revert hs
    decide +kernel

/-- The region is still on the server that leaves, and the server is on the move. -/
theorem regions_confined_leaving : World.leaving.Moving ⟨"rs1", 1⟩ := by
  have hr : World.leaving.site.cluster.On ⟨⟨"default", "t1"⟩, "r1"⟩ ⟨"rs1", 1⟩ :=
    .inl (by decide +kernel)
  have hconfined := regions_confined atHome_pair reliable_pair reaches_leaving hr
    fun a ha => absurd ha List.not_mem_nil
  exact hconfined.resolve_left not_hosts_leaving

end ServerGroups
