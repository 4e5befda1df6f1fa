/-
ServerGroups/Proofs/Moves/Tables.lean

Which moves of tables are accepted, and what they come to.

A move of tables is looked into table by table before the registry changes all
of them at once, and the regions are asked for afterwards, when the membership
lock has been given back.  What comes out is a property of the world in which
the move is asked for:

    Registry.Accepts         the target, if there is one, has servers and none of the tables
    World.Rehomes            both halves have been completed
    moveTables_returned_iff  the move returns just if it is accepted, and has been completed then

Design.  What the registry and the cluster are like in the end follows from the
change and from the requests to unassign (`Runs/TableMove`).  Under which locks
these are made follows from the record of the run, taken apart along the program
(`Runs/Record`): the first half of the move asks for no region, and the second
one asks under one lock after the other.
-/
import ServerGroups.Proofs.Drains.Termination
import ServerGroups.Proofs.Runs.Record
import ServerGroups.Proofs.Runs.TableMove

namespace ServerGroups

open Program Coordinator

/-- The target of a move of tables, if there is one, is a group with a server that pins none of the
tables. -/
def Registry.Accepts (r : Registry) (tables : TableSet) (target : Option String) : Prop :=
  ∀ name, target = some name →
    ∃ g, r.groups[name]? = some g ∧ g.servers.size ≠ 0 ∧ ∀ t ∈ tables, t ∉ g.tables

/-- Where a table is pinned to one group at most, the first group that pins it tells whether the
target does. -/
theorem Registry.movable_iff {r : Registry} {tables : TableSet} {target : Option String}
    (hn : r.Named) (hpins : ∀ {j k t}, r.Pins j t → r.Pins k t → j = k) :
    r.Movable tables target ↔ r.Accepts tables target := by
  constructor
  · rintro h name rfl
    obtain ⟨g, hg, hne⟩ := h.staffed name rfl
    refine ⟨g, hg, hne, fun t ht hpinned => ?_⟩
    rcases hk : r.groupOfTable? t with - | k
    · exact Registry.groupOfTable?_eq_none.1 hk name ⟨g, hg, hpinned⟩
    · have hname := hpins (Registry.pins_of_groupOfTable? hn hk) ⟨g, hg, hpinned⟩
      exact h.elsewhere t ht k hk (congrArg some hname)
  · refine fun h => ⟨fun name hname => ?_, fun t ht k hk heq => ?_⟩
    · obtain ⟨g, hg, hne, -⟩ := h name hname
      exact ⟨g, hg, hne⟩
    · obtain ⟨g, hg, -, hnone⟩ := h k heq.symm
      obtain ⟨g', hg', hpinned⟩ := Registry.pins_of_groupOfTable? hn hk
      obtain rfl := Option.some.inj (hg.symm.trans hg')
      exact hnone t ht hpinned

namespace World

variable {w x : World} {tables : TableSet} {target : Option String} {t : TableName}

/-! ### The requests to unassign -/

theorem asksNone_holding_repin :
    (holding .membership (repin tables target)).AsksNone :=
  Only.holding rfl rfl (only_repin (fun _ => Request.region?_of_looks) rfl)

/-- The regions listed for a table are asked for in order, while its lock is held. -/
theorem yields_unassignTable (hw : w.Working) (hfree : w.locks.isFree (.table t) false = true) :
    Yields (unassignTable t) w ((w.site.cluster.regionsOf t).map fun r =>
      (w.locks.grant ⟨.table t, false, .operation⟩, r)) fun _ x =>
        w.Asks (w.site.cluster.regionsOf t) x := by
  unfold unassignTable
  refine yields_look hw.toObliging () rfl rfl (fun _ => rfl) fun w₁ h₁ => ?_
  have hcluster : w₁.site.cluster = w.site.cluster := h₁.cluster
  rw [← h₁.locks, ← hcluster]
  have hfree₁ : w₁.locks.isFree (.table t) false = true := by rw [h₁.locks]; exact hfree
  refine yields_holding hfree₁ (yields_note fun w₂ h₂ => ?_)
  have hworking₂ := h₂.working ((h₁.working hw).granted _)
  refine yields_look hworking₂.toObliging (w₁.site.cluster.regionsOf t)
    (by simp only [Site.serve, h₂.cluster]; rfl) rfl (fun _ => rfl) fun w₃ h₃ => ?_
  refine yields_note fun w₄ h₄ => ?_
  have h₂₄ := (h₂.same_trans h₃).same_trans h₄
  have hlocks : w₄.locks = w₁.locks.grant ⟨.table t, false, .operation⟩ := h₂₄.locks
  rw [← hlocks]
  exact (yields_unassigns (h₂₄.working ((h₁.working hw).granted _))).mono fun _ x hx =>
    h₁.same_trans ((h₂₄.same_trans hx).released hfree₁)

/-- Table by table, each under its own lock. -/
theorem yields_unassignTables : ∀ {tables : List TableName} {w : World}, w.Working →
    (∀ t ∈ tables, w.locks.isFree (.table t) false = true) →
    Yields (tables.forM unassignTable) w (tables.flatMap fun t =>
      (w.site.cluster.regionsOf t).map fun r => (w.locks.grant ⟨.table t, false, .operation⟩, r))
      fun _ x => w.Asks (tables.flatMap w.site.cluster.regionsOf) x
  | [], w, _, _ => yields_pure (.refl w)
  | t :: tables, w, hw, hfree => by
    have hfirst := yields_unassignTable hw (hfree t List.mem_cons_self)
    refine hfirst.bind (f := fun _ => tables.forM unassignTable) fun _ x hx => ?_
    have hlisted : x.site.cluster.regionsOf = w.site.cluster.regionsOf := by
      rw [hx.cluster, Cluster.regionsOf_requests]
    have hfree' : ∀ t' ∈ tables, x.locks.isFree (.table t') false = true := fun t' ht' => by
      rw [hx.locks]
      exact hfree t' (List.mem_cons_of_mem t ht')
    have hrest := yields_unassignTables (hx.working hw) hfree'
    rw [hlisted, hx.locks] at hrest
    exact hrest.mono fun _ y hy => hx.trans hy

/-- Where nothing speaks against a move, both halves are completed. -/
theorem yields_moveTables (hw : w.Working) (hne : tables.size ≠ 0)
    (hmembership : w.locks.isFree .membership false = true)
    (hfree : ∀ t ∈ tables, w.locks.isFree (.table t) false = true)
    (hm : w.site.registry.Movable tables target) :
    Yields (moveTables tables target) w (tables.toList.flatMap fun t =>
      (w.site.cluster.regionsOf t).map fun r => (w.locks.grant ⟨.table t, false, .operation⟩, r))
      fun _ x => ∃ v, w.Repins tables target v ∧
        v.Asks (tables.toList.flatMap w.site.cluster.regionsOf) x := by
  unfold moveTables
  rw [if_neg hne]
  have hrepin : (holding .membership (repin tables target)).Ensures
      (Terms.answered fun _ _ => False).rule (fun _ v => w.Repins tables target v) w :=
    Terms.ensures_holding_repin trivial hw hmembership (fun _ _ hnot => absurd hm hnot)
      fun _ hv => hv
  refine yields_bind asksNone_holding_repin hrepin fun _ v hv => ?_
  have hfree' : ∀ t ∈ tables.toList, v.locks.isFree (.table t) false = true := fun t ht => by
    rw [hv.locks]
    exact hfree t (Std.ExtTreeSet.mem_toList.1 ht)
  have hsecond := yields_unassignTables (hv.working hw) hfree'
  rw [hv.cluster, hv.locks] at hsecond
  exact hsecond.mono fun _ x hx => ⟨v, hv, hx⟩

/-- Regions are asked for in the second half only: whatever fails, each of them is asked for when the
registry is already what the move leaves. -/
theorem registry_of_asks {z : World × Request} {r : Region}
    (hz : z ∈ record (moveTables tables target) w) (hr : z.2.region? = some r) :
    z.1.site.registry = (run (moveTables tables target) w).2.site.registry := by
  have hasks : ∀ {p : Program Unit}, p.AsksNone → z ∉ record p w := fun hp hmem => by
    cases hr.symm.trans (of_mem_record hp hmem)
  unfold moveTables at hz ⊢
  split at hz
  · exact absurd hz (hasks (Only.note rfl))
  · next hne =>
    rw [if_neg hne]
    obtain ⟨⟨⟩, v, hrun, hz⟩ := (of_mem_record_bind hz).resolve_left (hasks asksNone_holding_repin)
    obtain ⟨hend, hrecord⟩ := registry_run (p := tables.toList.forM unassignTable) (w := v)
      (F := fun _ => False) (Only.forM (only_unassignTable fun _ hq => hq) _)
    rw [run_bind hrun]
    exact (hrecord z hz).trans hend.symm

/-! ### The operation -/

/-- Tables have been moved to the target, or to no group, and their regions have been asked to be
unassigned. -/
structure Rehomes (tables : TableSet) (target : Option String) (w x : World) : Prop where
  pins : ∀ k t, x.site.registry.Pins k t ↔
    if t ∈ tables then target = some k else w.site.registry.Pins k t
  servers : ∀ k s, x.site.registry.HasServer k s ↔ w.site.registry.HasServer k s
  unassigned : x.history.unassigned = w.history.unassigned ++
    ((tables.toList.flatMap w.site.cluster.regionsOf).map fun r => (w.now, r)).toArray
  gone : ∀ t ∈ tables, ∀ r ∈ w.site.cluster.regionsOf t, w.site.cluster.pinned r = 0 →
    ∀ s, ¬ x.site.cluster.On r s

theorem rehomes_of_asks (hk : w.site.cluster.Keyed) {v : World} (hv : w.Repins tables target v)
    (hx : v.Asks (tables.toList.flatMap w.site.cluster.regionsOf) x) :
    w.Rehomes tables target x where
  pins k t := by
    rw [hx.registry, Registry.pins_moveTables hv.change]
    by_cases ht : t ∈ tables <;> simp [ht]
  servers k s := by rw [hx.registry, Registry.hasServer_moveTables hv.change]
  unassigned := by rw [hx.unassigned, hv.unassigned, hv.now]
  gone t ht r hr hpin s hon := by
    rw [hx.cluster, hv.cluster] at hon
    have hasked : r ∈ tables.toList.flatMap w.site.cluster.regionsOf :=
      List.mem_flatMap.2 ⟨t, Std.ExtTreeSet.mem_toList.2 ht, hr⟩
    have hlt := Cluster.pinned_requests_lt hk hasked hon
    omega

/-- A move of tables against which something speaks does not return, and nothing changes. -/
theorem operate_moveTables_refused (hw : w.Working) (hne : tables.size ≠ 0)
    (hmembership : w.locks.isFree .membership false = true)
    (hfree : ∀ t ∈ tables, w.locks.isFree (.table t) false = true)
    (hm : ¬ w.site.registry.Movable tables target) : ∃ outcome x,
      w.operate (.moveTables tables target) = (outcome, x) ∧ outcome ≠ .returned () ∧
      x.site.registry = w.site.registry ∧ x.site.cluster = w.site.cluster ∧
      x.history.unassigned = w.history.unassigned := by
  have hmove : (moveTables tables target).Ensures
      (Terms.answered fun _ x => (w.granted .membership).Same x).rule (fun _ _ => False) w :=
    Terms.ensures_moveTables trivial hw hne hmembership hfree (fun _ _ _ hx => hx)
      fun v _ hv _ => hm hv.movable
  have hends := Terms.perform_of_strict (T := Terms.answered _) trivial hmove
  have hsame : ∀ {x : World}, (w.granted .membership).Same x →
      x.letGo.site.registry = w.site.registry ∧ x.letGo.site.cluster = w.site.cluster ∧
        x.letGo.history.unassigned = w.history.unassigned :=
    fun hx => ⟨hx.registry, hx.cluster, by simpa [granted, letGo] using hx.unassigned⟩
  rw [operate_eq (by simp)]
  rcases hperform : w.perform (moveTables tables target) with ⟨outcome, x⟩
  rw [hperform] at hends
  refine ⟨outcome, x, hperform, ?_⟩
  cases outcome with
  | returned answer =>
    obtain ⟨_, hfalse, -⟩ := hends
    exact hfalse.elim
  | failed cause =>
    obtain ⟨v, hv, rfl⟩ := hends
    exact ⟨by simp, hsame hv⟩
  | crashed =>
    obtain ⟨v, hv, rfl⟩ := hends
    exact ⟨by simp, hsame hv⟩
  | givenUp => exact absurd trivial hends.1

/-- **Moves of tables are accepted just if they are legal, and are completed then.**  Let each
table be pinned to one group at most, let no service fail, and let the membership lock and the locks
of the tables be free.  A move of some tables returns just if there is no target, or the target is a
group with a server that pins none of the tables.  Then each of the tables is pinned to the target
only, or to no group if there is none; other pins are the same, and so are the servers of every
group.  The regions listed for the tables have been asked to be unassigned, table by table and in
the order in which they are listed, each while the lock of the table was held alone and that of
membership was not; and none of them is assigned or in transition that was not pinned before.  A
move that does not return leaves the registry and the cluster as they were. -/
theorem moveTables_returned_iff (hw : w.Working) (hn : w.site.registry.Named)
    (hpins : ∀ {j k t}, w.site.registry.Pins j t → w.site.registry.Pins k t → j = k)
    (hk : w.site.cluster.Keyed) (hne : tables.size ≠ 0)
    (hmembership : w.locks.isFree .membership false = true)
    (hfree : ∀ t ∈ tables, w.locks.isFree (.table t) false = true) (target : Option String) :
    ((w.operate (.moveTables tables target)).1 = .returned () ↔
        w.site.registry.Accepts tables target) ∧
      (w.site.registry.Accepts tables target →
        w.Rehomes tables target (w.operate (.moveTables tables target)).2 ∧
        unassignments (moveTables tables target) w = (tables.toList.flatMap fun t =>
          (w.site.cluster.regionsOf t).map fun r =>
            (w.locks.grant ⟨.table t, false, .operation⟩, r)) ∧
        ∀ t ∈ tables, (w.locks.grant ⟨.table t, false, .operation⟩).isFree .membership false) ∧
      (¬ w.site.registry.Accepts tables target →
        (w.operate (.moveTables tables target)).2.site.registry = w.site.registry ∧
        (w.operate (.moveTables tables target)).2.site.cluster = w.site.cluster ∧
        (w.operate (.moveTables tables target)).2.history.unassigned = w.history.unassigned) := by
  rw [← Registry.movable_iff hn hpins]
  by_cases hm : w.site.registry.Movable tables target
  · obtain ⟨⟨⟩, x, hrun, hlog, v, hv, hx⟩ := yields_moveTables hw hne hmembership hfree hm
    have hoperate : w.operate (.moveTables tables target) = (.returned (), x.letGo) :=
      (operate_eq (by simp) w).trans (perform_of_returned hrun)
    have hrehomes := rehomes_of_asks hk hv hx
    rw [hoperate]
    refine ⟨⟨fun _ => hm, fun _ => rfl⟩, fun _ => ⟨⟨hrehomes.pins, hrehomes.servers,
      hrehomes.unassigned, hrehomes.gone⟩, hlog, fun t ht => ?_⟩, absurd hm⟩
    refine Locks.isFree_iff.2 fun g hg => ?_
    rcases List.mem_cons.1 hg with rfl | hg
    · simp
    · exact Locks.isFree_iff.1 hmembership g hg
  · obtain ⟨outcome, x, hoperate, houtcome, hsame⟩ :=
      operate_moveTables_refused hw hne hmembership hfree hm
    rw [hoperate]
    exact ⟨⟨fun h => absurd h houtcome, fun h => absurd h hm⟩, fun h => absurd h hm, fun _ => hsame⟩

/-- An untracked table moves to `default`, which has servers, and its region is on no server then;
it does not move to the other group, which has none. -/
theorem moveTables_returned_iff_paired :
    (paired.operate (.moveTables {⟨"default", "t1"⟩} (some defaultGroup))).1 = .returned () ∧
      (∀ s, ¬ (paired.operate
        (.moveTables {⟨"default", "t1"⟩} (some defaultGroup))).2.site.cluster.On
          ⟨⟨"default", "t1"⟩, "r1"⟩ s) ∧
      (paired.operate (.moveTables {⟨"default", "t1"⟩} (some "a"))).1 ≠ .returned () := by
  have hne : ({⟨"default", "t1"⟩} : TableSet).size ≠ 0 := by decide +kernel
  have hmoves := moveTables_returned_iff healthy_paired.working partitioned_paired.named
    partitioned_paired.table keyed_paired hne rfl fun _ _ => rfl
  obtain ⟨hreturned, hdone, -⟩ := hmoves (some defaultGroup)
  have haccepts : paired.site.registry.Accepts {⟨"default", "t1"⟩} (some defaultGroup) := by
    intro name hname
    rw [← Option.some.inj hname]
    refine ⟨⟨defaultGroup, {⟨"rs1", 1⟩, ⟨"rs2", 1⟩}, ∅⟩, by decide +kernel, by decide +kernel, ?_⟩
    simp
  refine ⟨hreturned.2 haccepts, (hdone haccepts).1.gone ⟨"default", "t1"⟩ (by decide +kernel) _
    (by decide +kernel) (by decide +kernel), fun h => ?_⟩
  -- the other group is there, but has no servers
  obtain ⟨g, hg, hservers, -⟩ := (hmoves (some "a")).1.1 h "a" rfl
  have hempty : paired.site.registry.groups["a"]? = some (Group.empty "a") := by decide +kernel
  obtain rfl := Option.some.inj (hempty.symm.trans hg)
  exact hservers rfl

end World

end ServerGroups
