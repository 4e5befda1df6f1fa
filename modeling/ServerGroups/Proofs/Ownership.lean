/-
ServerGroups/Proofs/Ownership.lean

Every table has one owner.

Whoever asks whether a group owns a table gets the same answer, whatever other
tables are asked about with it: the group that pins the table owns it, or
`default` if no group does (`World.finds_iff`).  In a registry that is ever
reached no table is pinned by two groups, and `default` is there, so just one
group is found to own it.

Balances and drains ask in this way, for the tables of the regions that they
come upon.

    owns_of_offers     a balance shows the balancer no tables but those of its group
    owns_of_keeps      a settled move leaves no tables on its servers but those of the target

So neither two balances nor two moves for different groups share a table, and
what a move leaves on its servers is what a balance of the target would place
there.
-/
import ServerGroups.Proofs.Balance.Answers
import ServerGroups.Proofs.Drains.Frame
import ServerGroups.Proofs.Ownership.Shown

namespace ServerGroups

open Program

/-- A run that is answered throughout and cannot stop short returns. -/
theorem Terms.run_returns {α : Type} {p : Program α} {post : α → World → Prop} {w : World}
    (h : p.Ensures (answered fun _ _ => False).rule post w) :
    ∃ a x, World.run p w = (.returned a, x) ∧ post a x := by
  have hends := run_ends h
  rcases hrun : World.run p w with ⟨progress, x⟩
  rw [hrun] at hends
  cases progress with
  | returned a => exact ⟨a, x, rfl, hends⟩
  | failed cause => exact hends.elim
  | crashed => exact hends.elim
  | waiting rest => exact absurd trivial hends.1

namespace World

variable {w w' : World} {g : Group} {candidates : List TableName} {t : TableName} {name : String}
variable {servers : ServerSet} {target : String} {handle : Option Nat} {r : Region}
variable {s : ServerAddress} {turns : List (Turn Empty)}

/-! ### Asking for owned tables -/

/-- A group is found to own one of some candidates. -/
def Finds (w : World) (g : Group) (candidates : List TableName) (t : TableName) : Prop :=
  ∃ tables x, run (Coordinator.owned g candidates) w = (.returned tables, x) ∧ t ∈ tables

theorem run_owned (hw : w.Obliging) (g : Group) (candidates : List TableName) :
    ∃ x, run (Coordinator.owned g candidates) w =
      (.returned ((Std.ExtTreeSet.ofList candidates).toList.filter (w.site.registry.ownedBy g)),
        x) := by
  have hensures : (Coordinator.owned g candidates).Ensures (Terms.answered fun _ _ => False).rule
      (fun tables _ => tables =
        (Std.ExtTreeSet.ofList candidates).toList.filter (w.site.registry.ownedBy g)) w :=
    Terms.ensures_owned (Terms.allows_of_strict trivial hw) fun _ _ => rfl
  obtain ⟨tables, x, hrun, rfl⟩ := Terms.run_returns hensures
  exact ⟨x, hrun⟩

/-- A group is found to own the candidates that it owns, whichever others there are. -/
theorem finds_iff (hw : w.Obliging) (hg : w.site.registry.groups[g.name]? = some g) :
    w.Finds g candidates t ↔ t ∈ candidates ∧ w.site.registry.Owns g.name t := by
  obtain ⟨x, hrun⟩ := run_owned hw g candidates
  have hmem : t ∈ (Std.ExtTreeSet.ofList candidates).toList.filter (w.site.registry.ownedBy g) ↔
      t ∈ candidates ∧ w.site.registry.Owns g.name t := by
    rw [List.mem_filter, Registry.ownedBy_iff hg]
    simp
  rw [← hmem]
  constructor
  · rintro ⟨tables, y, hrun', ht⟩
    rw [hrun] at hrun'
    obtain ⟨htables, -⟩ := Prod.mk.inj hrun'
    rw [Progress.returned.inj htables]
    exact ht
  · exact fun ht => ⟨_, x, hrun, ht⟩

/-! ### Balances -/

/-- A balance of a group shows the balancer a region of a table. -/
def Offers (w : World) (name : String) (t : TableName) : Prop :=
  ∃ asked : List Snapshot, (w.operate (.balance name)).2.site.snapshots =
    w.site.snapshots ++ asked.toArray ∧ ∃ s ∈ asked, s.Shows t

/-- A balance of a group places a region of a table. -/
def Places (w : World) (name : String) (t : TableName) : Prop :=
  ∃ plan : List Placement, (w.operate (.balance name)).2.history.placed =
    w.history.placed ++ plan.toArray ∧ ∃ p ∈ plan, p.region.table = t

theorem owns_of_offers (hn : w.site.registry.Named) (h : w.Offers name t) :
    w.site.registry.Owns name t := by
  obtain ⟨asked, hasked, s, hs, ht⟩ := h
  obtain ⟨asked', hasked', hshown⟩ := (heeds_operate hn name).shown
  obtain rfl : asked = asked' :=
    List.toArray_inj ((Array.append_right_inj _).1 (hasked.symm.trans hasked'))
  exact hshown s hs t ht

theorem owns_of_places (hn : w.site.registry.Named) (hw : w.site.script = [])
    (h : w.Places name t) : w.site.registry.Owns name t := by
  obtain ⟨plan, hplan, p, hp, rfl⟩ := h
  obtain ⟨plan', hplan', hplaced⟩ := (heeds_operate hn name).placed
  obtain rfl : plan = plan' :=
    List.toArray_inj ((Array.append_right_inj _).1 (hplan.symm.trans hplan'))
  exact hplaced hw p hp

theorem shows_snapshot {online : ServerSet} (hs : s ∈ online)
    (hr : w.site.cluster.assignments[r]? = some s) :
    (Coordinator.snapshot online w.site.cluster.assignments r.table).Shows r.table := by
  have hload : (Coordinator.snapshot online w.site.cluster.assignments r.table)[s]? =
      some ((w.site.cluster.regionsOn s).filter fun x => x.table = r.table) := by
    rw [Coordinator.getElem?_snapshot, if_pos hs]
  refine ⟨_, Std.ExtTreeMap.mem_toList_iff_getElem?_eq_some.2 hload, r, ?_, rfl⟩
  simp only [List.mem_filter, decide_true, and_true]
  exact List.mem_map.2 ⟨(r, s), by simpa using hr, rfl⟩

/-- A balance of a group that may balance shows the balancer every region that is on one of the
group's online servers and belongs to the group. -/
theorem offers_of_owns (hw : w.Obliging) (hn : w.site.registry.Named)
    (hg : w.site.registry.groups[name]? = some g)
    (hlock : w.locks.isFree .placement false = true) (hsteady : w.Steady name)
    (hs : s ∈ w.onlineServers g) (hr : w.site.cluster.assignments[r]? = some s)
    (howns : w.site.registry.Owns name r.table) : w.Offers name r.table := by
  obtain rfl : g.name = name := hn hg
  obtain ⟨x, hx, -, -, -, hposes, -⟩ := operate_balances hw hn hg hlock rfl
  refine ⟨w.balanceAsks g, by rw [hx]; exact hposes.snapshots, ?_⟩
  rw [balanceAsks_of_steady hg hsteady]
  have htable : r.table ∈ w.spreadTables g := (mem_spreadTables hg).2 ⟨howns, r, rfl, s, hs, hr⟩
  exact ⟨_, List.mem_map_of_mem htable, shows_snapshot hs hr⟩

/-! ### Moves of servers -/

/-- Turns in which nothing happens around a drain are turns in which nothing changes from outside. -/
theorem exists_after_changed (w : World) (handle : Option Nat) (turns : List (Turn Empty)) :
    ∃ turns' : List (Turn Change), (∀ c, .around c ∉ turns') ∧
      w.after alone handle turns = w.after changed handle turns' := by
  induction turns generalizing w with
  | nil => exact ⟨[], by simp, rfl⟩
  | cons t turns ih =>
    cases t with
    | around what => exact what.elim
    | tick time =>
      obtain ⟨turns', hnone, hafter⟩ := ih (w.advance time)
      exact ⟨.tick time :: turns', by simpa using hnone, hafter⟩
    | pass =>
      obtain ⟨turns', hnone, hafter⟩ := ih (w.nextPass handle)
      exact ⟨.pass :: turns', by simpa using hnone, hafter⟩

theorem registry_after_alone (w : World) (handle : Option Nat) (turns : List (Turn Empty)) :
    (w.after alone handle turns).site.registry = w.site.registry := by
  obtain ⟨turns', hnone, hafter⟩ := w.exists_after_changed handle turns
  rw [hafter]
  exact registry_after fun g => hnone (.stored g)

/-- What the start of a move of some servers makes of the registry. -/
theorem registry_of_startMove (hr : w.site.registry.Partitioned)
    (h : w.operate (.startMove servers target) = (.returned handle, w')) (hs : s ∈ servers) :
    w'.site.registry.Partitioned ∧ w'.site.registry.HasServer target s ∧
      ∀ k t, w'.site.registry.Owns k t ↔ w.site.registry.Owns k t := by
  have hcases := startMove_cases (J := fun v => v.site.registry = w.site.registry)
    (fun v hv => by rw [hv]; exact hr.named) (fun _ _ hv => hv)
    (fun v v' number m hv hv' => hv'.services.1.trans hv) rfl h
  rcases hcases with ⟨-, hempty⟩ | ⟨v, source, x, hv, hx, -, rfl⟩
  · rw [← Std.ExtTreeSet.mem_toList, hempty] at hs
    exact absurd hs List.not_mem_nil
  · obtain ⟨moved, hmoved⟩ := hx.change
    refine ⟨hx.partitioned (by rw [hv]; exact hr), hx.hasServer s hs, fun k t => ?_⟩
    rw [← hv]
    exact Registry.owns_congr fun _ => Registry.pins_moveServers hmoved

/-- A settled move has left nothing astray on its servers. -/
theorem clear_of_settled (hn : w.site.registry.Named)
    (h : w.operate (.startMove servers target) = (.returned handle, w'))
    (hsettled : Scenario.phaseOf (w'.after alone handle turns) handle = .settled)
    (hs : s ∈ servers) (r : Region) : ¬ (w'.after alone handle turns).Astray target r s := by
  obtain ⟨turns', hnone, hafter⟩ := w'.exists_after_changed handle turns
  rw [hafter] at hsettled ⊢
  rcases watched_of_startMove hn h with ⟨-, hempty⟩ | ⟨number, rfl, hnamed, hgroup, hwatched⟩
  · rw [← Std.ExtTreeSet.mem_toList, hempty] at hs
    exact absurd hs List.not_mem_nil
  obtain ⟨m, hm, -, hpending, hservers⟩ := hwatched.after hnamed hgroup fun g => hnone (.stored g)
  have hphase : m.phase = .settled := by simpa [Scenario.phaseOf, hm] using hsettled
  obtain ⟨before, rest, rfl, hclear⟩ := (hservers s hs).resolve_left fun hs' => by
    rw [hpending hphase] at hs'
    exact List.not_mem_nil hs'
  rintro ⟨hon, howns⟩
  have hbefore : ∀ c, .around c ∉ before := fun c hc => hnone c (List.mem_append_left _ hc)
  -- the region was not on the server when the pass looked, and nothing has brought it there since
  have hnot : ¬ (w'.after changed (some number) before).site.cluster.On r s := by
    refine fun hon' => hclear r ⟨hon', ?_⟩
    rw [registry_after fun g => hbefore (.stored g)]
    rwa [registry_after fun g => hnone (.stored g)] at howns
  -- in turns in which nothing comes from outside, no region comes to the server
  rw [after_append] at hon
  obtain ⟨kept, c, rest', heq, -⟩ := came_around hnot hon
  refine hnone c (List.mem_append_right _ ?_)
  rw [heq]
  simp

/-- A move of servers keeps a table in place: once the move is settled, a region of the table is on
one of the servers. -/
def Keeps (w : World) (servers : ServerSet) (target : String) (t : TableName) : Prop :=
  ∃ handle w' turns, w.operate (.startMove servers target) = (.returned handle, w') ∧
    Scenario.phaseOf (w'.after alone handle turns) handle = .settled ∧
    ∃ r : Region, r.table = t ∧ ∃ s ∈ servers, (w'.after alone handle turns).site.cluster.On r s

theorem owns_of_keeps (hr : w.site.registry.Partitioned) (h : w.Keeps servers target t) :
    w.site.registry.Owns target t := by
  obtain ⟨handle, w', turns, hstart, hsettled, r, rfl, s, hs, hon⟩ := h
  obtain ⟨-, -, howns⟩ := registry_of_startMove hr hstart hs
  by_contra hnot
  refine clear_of_settled hr.named hstart hsettled hs r ⟨hon, fun howns' => hnot ?_⟩
  rw [registry_after_alone] at howns'
  exact (howns _ _).1 howns'

/-- From the start of a move on, the regions that belong to the target stay where they are
assigned. -/
theorem assignments_after_startMove (hn : w.site.registry.Named)
    (h : w.operate (.startMove servers target) = (.returned handle, w'))
    (howns : w'.site.registry.Owns target r.table) (turns : List (Turn Empty)) :
    (w'.after alone handle turns).site.cluster.assignments[r]? =
      w'.site.cluster.assignments[r]? := by
  rcases launches_of_startMove hn h with ⟨rfl, -⟩ | ⟨v, source, x, hv, hx, rfl, rfl⟩
  · rw [after_none]
  · refine Leaves.after turns (fun m hm => ?_) (hx.named hv)
    obtain rfl := Option.some.inj (hx.getElem?_moves.symm.trans hm.1)
    exact ⟨hx.mem_groups, .inl howns⟩

/-- What a settled move has left assigned to one of its servers is what was assigned to it before
and a balance of the target would show to the balancer. -/
theorem assigned_iff_offers (hr : w.site.registry.Partitioned)
    (h : w.operate (.startMove servers target) = (.returned handle, w'))
    (hsettled : Scenario.phaseOf (w'.after alone handle turns) handle = .settled)
    (hw : (w'.after alone handle turns).Obliging)
    (hlock : (w'.after alone handle turns).locks.isFree .placement false = true)
    (hsteady : (w'.after alone handle turns).Steady target) (hs : s ∈ servers)
    (honline : s ∈ (w'.after alone handle turns).site.cluster.online) :
    (w'.after alone handle turns).site.cluster.assignments[r]? = some s ↔
      w'.site.cluster.assignments[r]? = some s ∧
        (w'.after alone handle turns).Offers target r.table := by
  obtain ⟨hpartitioned, ⟨g, hg, hmember⟩, -⟩ := registry_of_startMove hr h hs
  have hregistry := registry_after_alone w' handle turns
  have hstays : w'.site.registry.Owns target r.table → _ := fun howns =>
    assignments_after_startMove hr.named h howns turns
  have hclear := clear_of_settled hr.named h hsettled hs r
  have hname : g.name = target := hpartitioned.named hg
  -- from here on only the registry and the assignments at the end matter, not the turns
  generalize w'.after alone handle turns = x at *
  rw [← hregistry] at hg hpartitioned hstays
  have hserver : s ∈ x.onlineServers g := Std.ExtTreeSet.mem_inter_iff.2 ⟨hmember, honline⟩
  constructor
  · intro hassigned
    have howns : x.site.registry.Owns target r.table := by
      by_contra hnot
      exact hclear ⟨.inl hassigned, hnot⟩
    exact ⟨(hstays howns).symm.trans hassigned,
      offers_of_owns hw hpartitioned.named hg hlock hsteady hserver hassigned howns⟩
  · rintro ⟨hassigned, hoffers⟩
    exact (hstays (owns_of_offers hpartitioned.named hoffers)).trans hassigned

end World

/-! ### In every registry that is reached -/

namespace Registry

/-- Every table has one owner, whoever asks. -/
structure SoleOwners (r : Registry) : Prop where
  /-- Just one group is found to own a candidate. -/
  found : ∀ w : World, w.site.registry = r → w.Obliging → ∀ candidates : List TableName,
    (∀ g ∈ r.list, ∃ tables x,
      World.run (Coordinator.owned g candidates) w = (.returned tables, x)) ∧
    ∀ t ∈ candidates, ∃! g, g ∈ r.list ∧ w.Finds g candidates t
  /-- Balances of two groups show the balancer different tables, and place regions of different
  ones, however they end. -/
  balances : ∀ w w' : World, w.site.registry = r → w'.site.registry = r →
    ∀ name name', name ≠ name' → ∀ t, ¬ (w.Offers name t ∧ w'.Offers name' t) ∧
      (w.site.script = [] → w'.site.script = [] → ¬ (w.Places name t ∧ w'.Places name' t))
  /-- Moves of servers to two groups keep different tables in place. -/
  moves : ∀ w w' : World, w.site.registry = r → w'.site.registry = r →
    ∀ (servers servers' : ServerSet) (target target' : String), target ≠ target' →
      ∀ t, ¬ (w.Keeps servers target t ∧ w'.Keeps servers' target' t)
  /-- What a settled move has left on its servers is what a balance of the target would place
  there. -/
  drains : ∀ w : World, w.site.registry = r → ∀ servers target handle w' turns,
    w.operate (.startMove servers target) = (.returned handle, w') →
    ∀ x, w'.after World.alone handle turns = x → Scenario.phaseOf x handle = .settled →
      x.Obliging → x.locks.isFree .placement false = true → x.Steady target →
      ∀ s ∈ servers, s ∈ x.site.cluster.online → ∀ region : Region,
        x.site.cluster.assignments[region]? = some s ↔
          w'.site.cluster.assignments[region]? = some s ∧ x.Offers target region.table

variable {r : Registry}

theorem Partitioned.owns_unique (hr : r.Partitioned) {j k : String} {t : TableName}
    (hj : r.Owns j t) (hk : r.Owns k t) : j = k :=
  (hr.owns_iff.1 hj).symm.trans (hr.owns_iff.1 hk)

/-- One of the groups owns a table. -/
theorem Partitioned.exists_owner (hr : r.Partitioned) (hd : defaultGroup ∈ r.groups)
    (t : TableName) : ∃ g : Group, r.groups[g.name]? = some g ∧ r.Owns g.name t := by
  have hmem : (r.groupOfTable? t).getD defaultGroup ∈ r.groups := by
    rcases hfind : r.groupOfTable? t with - | k
    · exact hd
    · obtain ⟨g, hg, -⟩ := hr.groupOfTable?_eq_some.1 hfind
      exact Std.ExtTreeMap.mem_iff_isSome_getElem?.2 (by simp [hg])
  obtain ⟨g, hg⟩ := Option.isSome_iff_exists.1 (Std.ExtTreeMap.mem_iff_isSome_getElem?.1 hmem)
  have hname : g.name = (r.groupOfTable? t).getD defaultGroup := hr.named hg
  rw [← hname] at hg
  exact ⟨g, hg, hr.owns_iff.2 hname.symm⟩

theorem Partitioned.mem_list (hr : r.Partitioned) {g : Group} :
    g ∈ r.list ↔ r.groups[g.name]? = some g := by
  rw [Registry.mem_list]
  constructor
  · rintro ⟨k, hk⟩
    rwa [show g.name = k from hr.named hk]
  · exact fun hg => ⟨_, hg⟩

theorem Partitioned.soleOwners (hr : r.Partitioned) (hd : defaultGroup ∈ r.groups) :
    r.SoleOwners where
  found w hregistry hw candidates := by
    subst hregistry
    refine ⟨fun g _ => ?_, fun t ht => ?_⟩
    · obtain ⟨x, hrun⟩ := World.run_owned hw g candidates
      exact ⟨_, x, hrun⟩
    · obtain ⟨g, hg, howns⟩ := hr.exists_owner hd t
      refine ⟨g, ⟨hr.mem_list.2 hg, (World.finds_iff hw hg).2 ⟨ht, howns⟩⟩, ?_⟩
      rintro g' ⟨hmem, hfinds⟩
      have hg' := hr.mem_list.1 hmem
      have hname := hr.owns_unique ((World.finds_iff hw hg').1 hfinds).2 howns
      rw [hname] at hg'
      exact Option.some.inj (hg'.symm.trans hg)
  balances w w' h h' name name' hne t := by
    have hn : w.site.registry.Named := h ▸ hr.named
    have hn' : w'.site.registry.Named := h' ▸ hr.named
    refine ⟨fun ⟨ht, ht'⟩ => hne ?_, fun hs hs' ⟨ht, ht'⟩ => hne ?_⟩
    · have howns := World.owns_of_offers hn ht
      have howns' := World.owns_of_offers hn' ht'
      rw [h] at howns
      rw [h'] at howns'
      exact hr.owns_unique howns howns'
    · have howns := World.owns_of_places hn hs ht
      have howns' := World.owns_of_places hn' hs' ht'
      rw [h] at howns
      rw [h'] at howns'
      exact hr.owns_unique howns howns'
  moves w w' h h' servers servers' target target' hne t := by
    rintro ⟨ht, ht'⟩
    have howns := World.owns_of_keeps (h ▸ hr) ht
    have howns' := World.owns_of_keeps (h' ▸ hr) ht'
    rw [h] at howns
    rw [h'] at howns'
    exact hne (hr.owns_unique howns howns')
  drains w h servers target handle w' turns hstart x hx hsettled hw hlock hsteady s hs honline
      region := by
    subst hx
    exact World.assigned_iff_offers (h ▸ hr) hstart hsettled hw hlock hsteady hs honline

end Registry

/-- **Every table has one owner.**  In every registry that is ever reached from one in which the
group `default` holds some servers: of any tables that somebody asks about each is found to be owned
by just one of the groups, whichever other ones are asked about.  So balances of two groups never
show the balancer the same table, or place regions of it, and moves of servers to two groups never
leave regions of one table on their servers.  What a settled move has left on its servers, of what
was assigned to them when it started, is what a balance of its target would place there. -/
theorem tables_have_one_owner {E : Setting} (hE : E.SparesRegistry) {w : World} {m : Moment}
    {servers : ServerSet} (hw : w.site.registry = .ofServers servers)
    (h : Moment.Reaches E (.still w) m) : m.world.site.registry.SoleOwners := by
  have hd : w.site.registry.Divides servers := by
    rw [hw]
    exact Registry.divides_ofServers
  have hdivides : m.world.site.registry.Divides servers :=
    Registry.invariant hE (P := fun r => r.Divides servers)
      (fun _ hc hs hr => hr.serves hc hs) (fun hg => hd.named _ _ hg) hd h
  exact (Registry.divides_iff.1 hdivides).1.soleOwners hdivides.default

/-- Of the two groups that there are, just one is found to own the table. -/
theorem tables_have_one_owner_staffed : ∃! g, g ∈ World.staffed.site.registry.list ∧
    World.staffed.Finds g [⟨"default", "t1"⟩, ⟨"default", "t2"⟩] ⟨"default", "t1"⟩ := by
  have hadd := Moment.reaches_operate Setting.sparing [] (o := .addGroup "a")
    (w := .start {} ((Site.ofServers {⟨"rs1", 1⟩, ⟨"rs2", 1⟩, ⟨"rs3", 1⟩} .absent).change
      (.region ⟨⟨"default", "t1"⟩, "r1"⟩ (some ⟨"rs1", 1⟩)))) trivial fun _ _ => trivial
  have hsole : World.staffed.site.registry.SoleOwners :=
    tables_have_one_owner Setting.sparing_registry (by rfl) hadd
  have hobliging : World.staffed.Obliging := ⟨fun _ h => (by cases h), by rfl⟩
  obtain ⟨-, hone⟩ := hsole.found World.staffed rfl hobliging
    [⟨"default", "t1"⟩, ⟨"default", "t2"⟩]
  exact hone _ List.mem_cons_self

end ServerGroups
