/-
ServerGroups/Proofs/Ownership/Shown.lean

What a balance shows the balancer and what it places, however it ends.

A balance asks for the tables that its group owns, and shows the balancer no
other ones; so if the balancer makes its own plans, no region of another table
is placed.  This holds of every run of the operation: it may have to wait for
the lock while drains go on, and it may fail or crash at any call.

Design.  What the runs from one world keep is a property of the worlds that
they come to (`World.Heeds`).  It is also what is known at the wait for the
lock, and what is left where a run stops short.
-/
import ServerGroups.Proofs.Balance.Tables

namespace ServerGroups

open Program Coordinator

/-- A snapshot shows a region of a table. -/
def Snapshot.Shows (s : Snapshot) (t : TableName) : Prop :=
  ∃ load ∈ s.toList, ∃ r ∈ load.2, r.table = t

namespace World

variable {w x y : World} {S : TableName → Prop} {number : Nat} {m : Move}
variable {asked : List Snapshot} {plan : List Placement} {name : String}

/-- Since some world the balancer has been shown regions of some tables only, and if it makes its
own plans, only regions of these tables have been placed. -/
structure Heeds (S : TableName → Prop) (w x : World) : Prop where
  registry : x.site.registry = w.site.registry
  script : w.site.script = [] → x.site.script = []
  shown : ∃ asked : List Snapshot, x.site.snapshots = w.site.snapshots ++ asked.toArray ∧
    ∀ s ∈ asked, ∀ t, s.Shows t → S t
  placed : ∃ plan : List Placement, x.history.placed = w.history.placed ++ plan.toArray ∧
    (w.site.script = [] → ∀ p ∈ plan, S p.region.table)

namespace Heeds

theorem refl (w : World) : w.Heeds S w :=
  ⟨rfl, id, ⟨[], by simp, by simp⟩, ⟨[], by simp, by simp⟩⟩

/-- Showing no more than these tables, and placing no more than regions of them. -/
theorem balances (h : w.Heeds S x) (hx : x.Balances asked plan y)
    (hasked : ∀ s ∈ asked, ∀ t, s.Shows t → S t)
    (hplan : w.site.script = [] → ∀ p ∈ plan, S p.region.table) : w.Heeds S y := by
  obtain ⟨shown, hshown, hS⟩ := h.shown
  obtain ⟨placed, hplaced, hS'⟩ := h.placed
  refine ⟨hx.registry.trans h.registry, fun hw => ?_,
    ⟨shown ++ asked, by rw [hx.poses.snapshots, hshown]; simp, fun s hs => ?_⟩,
    ⟨placed ++ plan, by rw [hx.placed, hplaced]; simp, fun hw p hp => ?_⟩⟩
  · rw [hx.poses.script, h.script hw, List.drop_nil]
  · rcases List.mem_append.1 hs with hs | hs
    · exact hS s hs
    · exact hasked s hs
  · rcases List.mem_append.1 hp with hp | hp
    · exact hS' hw p hp
    · exact hplan hw p hp

theorem asks {rs : List Region} (h : w.Heeds S x) (hx : x.Asks rs y) : w.Heeds S y where
  registry := hx.registry.trans h.registry
  script hw := by rw [hx.poses.script, h.script hw, List.drop_nil]
  shown := by simpa [hx.poses.snapshots] using h.shown
  placed := by
    rw [hx.placed]
    exact h.placed

/-- Neither moves nor locks matter. -/
theorem congr (h : w.Heeds S x) (hsite : y.site = x.site) (hhistory : y.history = x.history) :
    w.Heeds S y := by
  refine ⟨?_, ?_, ?_, ?_⟩
  · rw [hsite]
    exact h.registry
  · rw [hsite]
    exact h.script
  · rw [hsite]
    exact h.shown
  · rw [hhistory]
    exact h.placed

/-- A pass of a drain shows nothing to the balancer, and places nothing. -/
theorem pass (h : w.Heeds S x) (number : Nat) (m : Move) : w.Heeds S (x.pass number m) := by
  have hasks : ∀ {rs m' y}, (x.setMove number m').Asks rs y → w.Heeds S y := fun hy =>
    (h.congr (y := x.setMove number _) rfl rfl).asks hy
  have hswept := x.swept_pass number m
  generalize x.pass number m = y at hswept
  cases hswept with
  | goesOn asks => exact (hasks asks).congr rfl rfl
  | settles same => exact (hasks same).congr rfl rfl
  | fails asks => exact (hasks asks).congr rfl rfl
  | crashes asks => exact (hasks asks).congr rfl rfl

end Heeds

/-- The terms of a run from some world that heeds some tables all along. -/
def heeding (S : TableName → Prop) (w : World) : Terms where
  strict := False
  waits _ := w.Heeds S
  stops _ := w.Heeds S

theorem allows_heeding (h : w.Heeds S x) : (heeding S w).Allows x :=
  ⟨False.elim, fun _ _ _ hx => h.asks hx⟩

theorem stable_heeding : (heeding S w).Stable :=
  ⟨fun h _ => h.congr rfl rfl, fun {_ _ number m} h _ _ => h.pass number m⟩

/-! ### What a balance may do -/

/-- What a balance asks keeps to the tables that the group owns. -/
theorem owns_of_asked {g : Group} (hg : w.site.registry.groups[g.name]? = some g) :
    ∀ s ∈ w.balanceAsks g, ∀ t, s.Shows t → w.site.registry.Owns g.name t := by
  rintro s hs t ⟨load, hload, r, hr, rfl⟩
  unfold balanceAsks at hs
  split at hs
  · cases hs
  · obtain ⟨x, hx, rfl⟩ := List.mem_map.1 hs
    have htable := ((Coordinator.within_snapshots x hx load hload).2 r hr).1
    exact (Registry.ownedBy_iff hg).1 (List.mem_filter.1 htable).2

/-- The first questions of a balance and the first of its placements keep to the tables that the
group owns. -/
theorem Heeds.balanced {v : World} {g : Group} (h : w.Heeds (w.site.registry.Owns g.name) v)
    (hg : v.site.registry.groups[g.name]? = some g) (hasked : asked <+: v.balanceAsks g)
    (hplan : plan <+: v.site.proposes (v.balanceAsks g))
    (hx : (v.granted .placement).Balances asked plan x) :
    w.Heeds (w.site.registry.Owns g.name) x := by
  have hgranted : w.Heeds (w.site.registry.Owns g.name) (v.granted .placement) := h.congr rfl rfl
  rw [← h.registry] at hgranted ⊢
  refine hgranted.balances hx (fun s hs => owns_of_asked hg s (hasked.subset hs)) fun hw p hp => ?_
  -- a balancer of its own plans only with what it was shown, which the group owns
  have hproposed := hplan.subset hp
  rw [proposes_balanceAsks (h.script hw)] at hproposed
  exact (balancePlan_home hg hproposed).2

/-- A balance heeds the tables that its group owns. -/
theorem heeds_balance (hn : w.site.registry.Named) (name : String) :
    (Coordinator.balance name).Ensures (heeding (w.site.registry.Owns name) w).rule
      (fun _ y => w.Heeds (w.site.registry.Owns name) y) w := by
  -- where a balance gets the lock, it has heeded the tables while it waited
  have hfound : ∀ v, (heeding (w.site.registry.Owns name) w).Found
      (.lock .placement false .operation) w v → w.Heeds (w.site.registry.Owns name) v := by
    rintro v (rfl | ⟨-, hv⟩)
    · exact .refl v
    · exact hv
  have hnamed : ∀ v, (heeding (w.site.registry.Owns name) w).Found
      (.lock .placement false .operation) w v → v.site.registry.Named := fun v hv => by
    rw [(hfound v hv).registry]
    exact hn
  refine Terms.ensures_balance False.elim (fun _ _ => .refl w) hnamed (fun v hv => ⟨?_, ?_⟩)
    (fun v x hv _ hx => ?_) fun v g x hv hg hx => ?_
  · exact allows_heeding ((hfound v hv).congr rfl rfl)
  · intro g hg asked plan x hasked hplan hx
    obtain rfl : g.name = name := hnamed v hv hg
    exact allows_heeding ((hfound v hv).balanced hg hasked hplan hx)
  · exact ((hfound v hv).congr (y := v.granted .placement) rfl rfl).asks hx
  · obtain rfl : g.name = name := hnamed v hv hg
    exact ((hfound v hv).balanced hg List.prefix_rfl List.prefix_rfl hx).congr rfl rfl

/-- **However a balance ends**, the balancer has been shown no tables but those that the group owns,
and has placed no regions but theirs if it makes its own plans. -/
theorem heeds_operate (hn : w.site.registry.Named) (name : String) :
    w.Heeds (w.site.registry.Owns name) (w.operate (.balance name)).2 := by
  have hends := Terms.operate_concludes (o := .balance name) stable_heeding (by simp)
    (heeds_balance hn name)
  rcases hoperate : w.operate (.balance name) with ⟨outcome, x⟩
  rw [hoperate] at hends
  cases outcome with
  | givenUp =>
    obtain ⟨-, q, y, hy, rfl⟩ := hends
    exact Heeds.congr hy rfl rfl
  | _ =>
    obtain ⟨y, hy, rfl⟩ := hends
    exact Heeds.congr hy rfl rfl

end World

end ServerGroups
