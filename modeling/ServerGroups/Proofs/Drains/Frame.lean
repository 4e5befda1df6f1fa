/-
ServerGroups/Proofs/Drains/Frame.lean

What a drain does to the cluster, and what it leaves alone.

A pass asks for the regions that are astray on a pending server, for each of
them and for nothing else, and a server stays pending if one was astray on it.
So a drain leaves two kinds of regions where they are assigned: those whose
table the target owns, and those that are on none of the servers.

Design.  What a drain leaves alone is told by a property of the world between
its passes (`World.Leaves`), which a pass keeps: no region comes onto a server
by it, no server becomes pending again, and the registry stays the same.  None
of this needs the services to work, since a pass that fails has asked for the
first few of the same regions.
-/
import ServerGroups.Proofs.Drains.Settled

namespace ServerGroups

namespace World

variable {w w' : World} {number : Nat} {m : Move} {handle : Option Nat} {r : Region}
variable {servers : ServerSet} {target : String}

/-- Nothing happens around a drain. -/
def alone (_ : World) (what : Empty) : World := what.elim

/-! ### One pass -/

/-- Where nothing fails a pass asks for the regions that are astray on its pending servers, and
these servers stay pending. -/
theorem Swept.exact (h : w.Swept number m w') (hn : w.site.registry.Named)
    (hm : w.Running number m) (ht : m.target ∈ w.site.registry.groups) (hw : w.Healthy) :
    ∃ (rs : List Region) (m' : Move), w'.history.unassigned =
        w.history.unassigned ++ (rs.map fun r => (w.now, r)).toArray ∧
      (∀ r, r ∈ rs ↔ ∃ s ∈ m.pending, w.Astray m.target r s) ∧
      w'.moves[number]? = some m' ∧
      ∀ s, s ∈ m'.pending ↔ s ∈ m.pending ∧ ∃ r, w.Astray m.target r s := by
  obtain ⟨rs, -, hall, -, hlog⟩ := h.requests
  obtain rfl := hall hw
  obtain ⟨m', hm', -, -, hbusy | ⟨hfailing, -⟩⟩ := h.move hm
  · refine ⟨w.asked m, m', hlog, fun r => mem_asked hn ht, hm', fun s => ?_⟩
    rw [hbusy]
    exact mem_busy hn ht
  · exact absurd hw hfailing

/-! ### What is left alone -/

/-- A drain has nothing to do with a region: its target owns the table, or the region is on no
server that is pending. -/
def Leaves (w : World) (number : Nat) (r : Region) : Prop :=
  ∀ m, w.Running number m → m.target ∈ w.site.registry.groups ∧
    (w.site.registry.Owns m.target r.table ∨ ∀ s ∈ m.pending, ¬ w.site.cluster.On r s)

/-- A pass does not ask for a region that it has nothing to do with. -/
theorem Leaves.notMem_asked (h : w.Leaves number r) (hn : w.site.registry.Named)
    (hm : w.Running number m) : r ∉ w.asked m := by
  obtain ⟨ht, hleaves⟩ := h m hm
  intro hasked
  -- what is asked for is astray on a pending server
  obtain ⟨s, hs, hon, howns⟩ := (mem_asked hn ht).1 hasked
  rcases hleaves with hown | hoff
  · exact howns hown
  · exact hoff s hs hon

/-- The next pass leaves the region where it is assigned, and has nothing to do with it either. -/
theorem Leaves.nextPass (h : w.Leaves number r) (hn : w.site.registry.Named) :
    (w.nextPass (some number)).Leaves number r ∧
      (w.nextPass (some number)).site.cluster.assignments[r]? =
        w.site.cluster.assignments[r]? := by
  rcases w.nextPass_cases (some number) with ⟨-, hover⟩ | ⟨k, m, hk, hm, hswept⟩
  · rw [hover]
    exact ⟨h, rfl⟩
  obtain rfl := Option.some.inj hk
  obtain ⟨rs, hpart, -, hcluster, -⟩ := hswept.requests
  have hregistry := hswept.services.1
  refine ⟨fun m' hm' => ?_, ?_⟩
  · -- the move is the same one, and no server has become pending
    obtain ⟨m'', hm'', htarget, -, hpending⟩ := hswept.move hm
    obtain rfl := Option.some.inj (hm''.symm.trans hm'.1)
    have hsub : ∀ s ∈ m''.pending, s ∈ m.pending := by
      rcases hpending with hbusy | ⟨-, hsame, -⟩
      · rw [hbusy]
        exact fun s hs => List.mem_of_mem_filter hs
      · rw [hsame]
        exact fun s hs => hs
    obtain ⟨ht, hleaves⟩ := h m hm
    rw [hregistry, htarget, hcluster]
    exact ⟨ht, hleaves.imp_right fun hoff s hs hon =>
      hoff s (hsub s hs) (Cluster.on_requests hon)⟩
  · rw [hcluster]
    exact Cluster.assignments_requests_of_notMem fun hr =>
      h.notMem_asked hn hm (hpart.subset hr)

/-- However many passes a drain makes, a region that it has nothing to do with stays where it is
assigned. -/
theorem Leaves.after (turns : List (Turn Empty)) : ∀ {w : World}, w.Leaves number r →
    w.site.registry.Named →
      (w.after alone (some number) turns).site.cluster.assignments[r]? =
        w.site.cluster.assignments[r]? := by
  induction turns with
  | nil => exact fun _ _ => rfl
  | cons t turns ih =>
    intro w h hn
    cases t with
    | around what => exact what.elim
    | tick time => exact ih (w := w.advance time) h hn
    | pass =>
      obtain ⟨hnext, hsame⟩ := h.nextPass hn
      have hnamed : (w.nextPass (some number)).site.registry.Named := by
        rw [registry_nextPass]
        exact hn
      exact (ih hnext hnamed).trans hsame

/-- A move of no servers has no passes. -/
theorem after_none (turns : List (Turn Empty)) :
    ∀ w : World, (w.after alone none turns).site = w.site := by
  induction turns with
  | nil => exact fun _ => rfl
  | cons t turns ih =>
    intro w
    cases t with
    | around what => exact what.elim
    | tick time => exact ih (w.advance time)
    | pass => exact ih w

/-- **A drain touches what it must and nothing else.**  Where nothing fails a pass asks for exactly
the regions that are on a pending server, assigned to it or in transition, and whose table the
target does not own; and a server stays pending if and only if there was such a region on it.  So
from the start of a move on, however many passes its drain makes, a region stays where it is
assigned if the target owns its table or if it is on none of the servers. -/
theorem drain_touches_strays (hn : w.site.registry.Named) :
    (∀ number m, w.Running number m → m.target ∈ w.site.registry.groups → w.Healthy →
      ∃ (rs : List Region) (m' : Move), (w.pass number m).history.unassigned =
          w.history.unassigned ++ (rs.map fun r => (w.now, r)).toArray ∧
        (∀ r, r ∈ rs ↔ ∃ s ∈ m.pending, w.Astray m.target r s) ∧
        (w.pass number m).moves[number]? = some m' ∧
        ∀ s, s ∈ m'.pending ↔ s ∈ m.pending ∧ ∃ r, w.Astray m.target r s) ∧
    ∀ (servers : ServerSet) (target : String) (handle : Option Nat) (w' : World),
      w.operate (.startMove servers target) = (.returned handle, w') →
      ∀ (turns : List (Turn Empty)) (r : Region), (w'.site.registry.Owns target r.table ∨
          ∀ s ∈ servers, ¬ w'.site.cluster.On r s) →
        (w'.after alone handle turns).site.cluster.assignments[r]? =
          w'.site.cluster.assignments[r]? := by
  refine ⟨fun number m hm ht hw => (w.swept_pass number m).exact hn hm ht hw, ?_⟩
  intro servers target handle w' h turns r hr
  rcases launches_of_startMove hn h with ⟨rfl, -⟩ | ⟨v, source, x, hv, hx, rfl, rfl⟩
  · rw [after_none]
  · refine Leaves.after turns (fun m hm => ?_) (hx.named hv)
    obtain rfl := Option.some.inj (hx.getElem?_moves.symm.trans hm.1)
    exact ⟨hx.mem_groups, hr.imp_right fun hoff s hs => hoff s (Std.ExtTreeSet.mem_toList.1 hs)⟩

/-! ### A region that stays -/

/-- Three servers in the group `default`, two regions of one table on the first and on the third of
them, and a group without members. -/
def spread : World := staffed.changed (.region ⟨⟨"default", "t1"⟩, "r2"⟩ (some ⟨"rs3", 1⟩))

/-- The first two servers have been moved to the new group, and are not drained yet. -/
def spreading : World := (spread.operate (.startMove {⟨"rs1", 1⟩, ⟨"rs2", 1⟩} "a")).2

theorem operate_spread :
    spread.operate (.startMove {⟨"rs1", 1⟩, ⟨"rs2", 1⟩} "a") = (.returned (some 0), spreading) := by
  rfl

theorem named_spreading : spreading.site.registry.Named :=
  named_of_startMove (w := spread) partitioned_staffed.named operate_spread

theorem astray_spreading :
    spreading.Astray "a" ⟨⟨"default", "t1"⟩, "r1"⟩ ⟨"rs1", 1⟩ := by
  have huntracked : spreading.site.registry.groupOfTable? ⟨"default", "t1"⟩ = none := by
    decide +kernel
  exact ⟨.inl (by decide +kernel), Registry.not_owns_of_untracked huntracked (by decide)⟩

theorem off_spreading : ∀ s ∈ ({⟨"rs1", 1⟩, ⟨"rs2", 1⟩} : ServerSet),
    ¬ spreading.site.cluster.On ⟨⟨"default", "t1"⟩, "r2"⟩ s := by
  rintro s hs (hassigned | ⟨name, x, hx, -⟩)
  · have hthird : spreading.site.cluster.assignments[(⟨⟨"default", "t1"⟩, "r2"⟩ : Region)]? =
        some ⟨"rs3", 1⟩ := by decide +kernel
    obtain rfl := Option.some.inj (hthird.symm.trans hassigned)
    exact absurd hs (by decide +kernel)
  · have hnone : spreading.site.cluster.transitions = ∅ := by rfl
    rw [hnone] at hx
    simp at hx

/-- The first pass asks for the region on the first server, which stays pending; the region on the
third one is assigned to it after two passes. -/
theorem drain_touches_strays_spreading :
    (∃ (m : Move) (rs : List Region) (m' : Move), spreading.Running 0 m ∧
      (spreading.pass 0 m).history.unassigned = (rs.map fun r => (0, r)).toArray ∧
      (⟨⟨"default", "t1"⟩, "r1"⟩ : Region) ∈ rs ∧
      (spreading.pass 0 m).moves[0]? = some m' ∧ (⟨"rs1", 1⟩ : ServerAddress) ∈ m'.pending) ∧
    (spreading.after alone (some 0) [.pass, .pass]).site.cluster.assignments[
      (⟨⟨"default", "t1"⟩, "r2"⟩ : Region)]? = some ⟨"rs3", 1⟩ := by
  constructor
  · obtain ⟨hpass, -⟩ := drain_touches_strays named_spreading
    have hm : spreading.Running 0 (Move.start spread.config {⟨"rs1", 1⟩, ⟨"rs2", 1⟩} "default" "a"
        spread.now) := ⟨by rfl, rfl⟩
    have hhealthy : spreading.Healthy := ⟨⟨by rfl, fun _ h => (by cases h), by rfl⟩, by rfl⟩
    have hpending : (⟨"rs1", 1⟩ : ServerAddress) ∈
        ({⟨"rs1", 1⟩, ⟨"rs2", 1⟩} : ServerSet).toList := by decide +kernel
    obtain ⟨rs, m', hlog, hrs, hm', hpending'⟩ := hpass 0 _ hm (by decide +kernel) hhealthy
    have hempty : spreading.history.unassigned = #[] := by rfl
    rw [hempty, Array.empty_append] at hlog
    exact ⟨_, rs, m', hm, hlog, (hrs _).2 ⟨_, hpending, astray_spreading⟩, hm',
      (hpending' _).2 ⟨hpending, _, astray_spreading⟩⟩
  · obtain ⟨-, hframe⟩ := drain_touches_strays (w := spread) partitioned_staffed.named
    have hspread := hframe _ _ _ _ operate_spread
    have hstays := hspread [.pass, .pass] (⟨⟨"default", "t1"⟩, "r2"⟩ : Region)
    rw [hstays (.inr off_spreading)]
    decide +kernel

end World

end ServerGroups
