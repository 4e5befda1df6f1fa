/-
ServerGroups/Proofs/Confinement/Balance.lean

Balancing keeps regions at home.

The balancer moves no region but those it was shown, and to no server but
those it was shown.  A group's balance shows it the regions that are assigned
of tables that the group owns, and servers of the group.  So every placement
is of a listed region, to a server of the group that owns its table.
-/
import ServerGroups.Proofs.Collections
import ServerGroups.Proofs.Confinement.Orderly

namespace ServerGroups

/-! ### Plans -/

namespace Loads

variable {S : ServerAddress → Prop} {R : Region → Prop} {loads after : Loads} {p : Placement}

/-- Loads of some servers only, with some regions only. -/
def Within (S : ServerAddress → Prop) (R : Region → Prop) (loads : Loads) : Prop :=
  ∀ x ∈ loads, S x.1 ∧ ∀ r ∈ x.2, R r

theorem busiest?_mem {x : ServerAddress × List Region} (h : loads.busiest? = some x) :
    x ∈ loads := by
  cases loads with
  | nil => cases h
  | cons first rest =>
    have hmem := foldl_pick_mem
      (fun best x : ServerAddress × List Region => best.2.length < x.2.length) rest first
    rw [← Option.some.inj h]
    exact hmem

theorem idlest?_mem {x : ServerAddress × List Region} (h : loads.idlest? = some x) :
    x ∈ loads := by
  cases loads with
  | nil => cases h
  | cons first rest =>
    have hmem := foldl_pick_mem
      (fun best x : ServerAddress × List Region => x.2.length < best.2.length) rest first
    rw [← Option.some.inj h]
    exact hmem

theorem Within.shift (h : loads.Within S R) {source destination : ServerAddress} {r : Region}
    (hr : R r) : (loads.shift source destination r).Within S R := by
  intro x hx
  obtain ⟨y, hy, rfl⟩ := List.mem_map.1 hx
  obtain ⟨hserver, hregions⟩ := h y hy
  split
  · exact ⟨hserver, fun r' hr' => hregions r' (List.dropLast_subset y.2 hr')⟩
  · split
    · refine ⟨hserver, fun r' hr' => ?_⟩
      rcases List.mem_append.1 hr' with hr' | hr'
      · exact hregions r' hr'
      · rw [List.mem_singleton.1 hr']
        exact hr
    · exact ⟨hserver, hregions⟩

/-- The next move is of one of these regions to one of these servers, and so is every later one. -/
theorem Within.next? (h : loads.Within S R) (hn : loads.next? = some (p, after)) :
    (S p.destination ∧ R p.region) ∧ after.Within S R := by
  unfold Loads.next? at hn
  split at hn
  · next most least hmost hleast =>
    split at hn
    · cases hn
    · split at hn
      · next r hr =>
        obtain ⟨rfl, rfl⟩ := Prod.mk.inj (Option.some.inj hn)
        have hregion : R r := (h most (busiest?_mem hmost)).2 r (List.mem_of_getLast? hr)
        exact ⟨⟨(h least (idlest?_mem hleast)).1, hregion⟩, h.shift hregion⟩
      · cases hn
  · cases hn

theorem Within.moves : ∀ (fuel : Nat) {loads : Loads}, loads.Within S R →
    ∀ p ∈ Loads.moves fuel loads, S p.destination ∧ R p.region
  | 0, _, _, p, hp => absurd hp List.not_mem_nil
  | fuel + 1, loads, h, p, hp => by
    unfold Loads.moves at hp
    split at hp
    · cases hp
    · next move after hn =>
      obtain ⟨hmove, hafter⟩ := h.next? hn
      rcases List.mem_cons.1 hp with rfl | hp
      · exact hmove
      · exact hafter.moves fuel p hp

end Loads

/-- A plan for a snapshot moves only what is in it, and only to where it tells of. -/
theorem Snapshot.plan?_within {S : ServerAddress → Prop} {R : Region → Prop} {s : Snapshot}
    (h : Loads.Within S R s.toList) {plan : List Placement} (hplan : s.plan? = some plan) :
    ∀ p ∈ plan, S p.destination ∧ R p.region := by
  unfold plan? at hplan
  split at hplan
  · cases hplan
  · obtain rfl := Option.some.inj hplan
    intro p hp
    unfold Snapshot.moves at hp
    split at hp
    · cases hp
    · exact h.moves _ p hp

namespace World

/-- A placement of a listed region on a server of the group that owns its table. -/
def Homely (w : World) (p : Placement) : Prop :=
  w.site.registry.Hosts p.destination p.region.table ∧
    p.region ∈ w.site.cluster.regionsOf p.region.table

theorem Homely.settles {w w' : World} {p : Placement} (hp : w.Homely p) (h : w.Settles w') :
    w'.Homely p := by
  unfold Homely
  rw [h.registry, h.regionsOf]
  exact hp

end World

namespace Coordinator

/-! ### What the balancer is shown -/

variable {servers : ServerSet} {assignments : Std.ExtTreeMap Region ServerAddress}

/-- A snapshot of a table tells of the given servers, and of assigned regions of the table. -/
theorem within_snapshot (t : TableName) : Loads.Within (· ∈ servers)
    (fun r => r.table = t ∧ ∃ s, assignments[r]? = some s)
    (snapshot servers assignments t).toList := by
  rintro ⟨s, regions⟩ hx
  have hget := Std.ExtTreeMap.mem_toList_iff_getElem?_eq_some.1 hx
  obtain ⟨hs, rfl⟩ := getElem?_ofList_map hget
  refine ⟨hs, fun r hr => ?_⟩
  obtain ⟨⟨r', s'⟩, hmem, rfl⟩ := List.mem_map.1 hr
  obtain ⟨hassigned, hboth⟩ := List.mem_filter.1 hmem
  have htable : r'.table = t ∧ s' = s := by simpa using hboth
  exact ⟨htable.1, s', Std.ExtTreeMap.mem_toList_iff_getElem?_eq_some.1 hassigned⟩

theorem within_snapshots {tables : List TableName} : ∀ x ∈ snapshots servers assignments tables,
    Loads.Within (· ∈ servers) (fun r => r.table ∈ tables ∧ ∃ s, assignments[r]? = some s)
      x.2.toList := by
  intro x hx
  obtain ⟨t, ht, rfl⟩ := List.mem_map.1 (List.mem_filter.1 hx).1
  intro load hload
  obtain ⟨hserver, hregions⟩ := within_snapshot t load hload
  refine ⟨hserver, fun r hr => ?_⟩
  obtain ⟨rfl, hassigned⟩ := hregions r hr
  exact ⟨ht, hassigned⟩

/-! ### Balancing -/

open Program World

section Balance

variable {E : Setting} (hE : E.Pipelined) {free : TableName → Prop} {a : Agent} {v : View}

include hE

theorem ensures_place {p : Placement} {post : Unit → View → Prop} (hv : v.Fine free)
    (hp : v.world.Homely p) (h : ∀ v', v.Settles v' → post () v') :
    (call (.place p)).Ensures ((confining free).rule E a) post v := by
  refine ensures_served hE hv (fun _ _ _ => ⟨(), rfl⟩) fun w _ w' hw _ hm hfaults => ?_
  obtain ⟨hhome, hlisted⟩ := hp.settles hw
  have hw' : w.Settles w' :=
    settles_assign (alike_call hm) (answered_call hm).2 (fun _ => hfaults) hhome hlisted
  exact h ⟨w', v.owed, v.others⟩ ⟨hw.trans hw', rfl, rfl⟩

/-- The plan for some tables consists of the plans that the balancer makes for each. -/
theorem ensures_planTables {S : ServerAddress → Prop} {R : Region → Prop} :
    ∀ {list : List (TableName × Snapshot)} {v : View}, v.Fine free →
    (∀ x ∈ list, Loads.Within S R x.2.toList) →
    (planTables list).Ensures ((confining free).rule E a)
      (fun plan v' => v.Settles v' ∧ ∀ p ∈ plan, S p.destination ∧ R p.region) v
  | [], v, _, _ => ⟨.refl v, fun p hp => absurd hp List.not_mem_nil⟩
  | (t, s) :: rest, v, hv, hlist => by
    have hrest : ∀ x ∈ rest, Loads.Within S R x.2.toList := fun x hx => hlist x (by simp [hx])
    unfold planTables
    rw [ensures_bind]
    refine ensures_quiet hE rfl hv fun w answer w' hw hw' hm => ?_
    have hv₁ : v.Settles ⟨w', v.owed, v.others⟩ := ⟨hw.trans hw', rfl, rfl⟩
    have hanswer : answer = s.plan? := by
      have ha : (w.site.plan s).answer = .ok answer := (answered_call hm).1
      simp only [Site.plan, hw.script hv.sane.script] at ha
      exact (Except.ok.inj ha).symm
    rcases answer with - | moves
    · refine (ensures_planTables (hv₁.fine hv) hrest).mono Discipline.rule_monotone ?_
      rintro plan v₂ ⟨hv₂, hplan⟩
      exact ⟨hv₁.trans hv₂, hplan⟩
    · show Program.Ensures _ _ (note _ >>= _) _
      rw [ensures_bind]
      refine ensures_settled_note hE (hv₁.fine hv) fun v₂ hv₂ => ?_
      rw [ensures_bind]
      have hv₀₂ := hv₁.trans hv₂
      refine (ensures_planTables (hv₀₂.fine hv) hrest).mono Discipline.rule_monotone ?_
      rintro others v₃ ⟨hv₃, hothers⟩
      refine ⟨hv₀₂.trans hv₃, fun p hp => ?_⟩
      rcases List.mem_append.1 hp with hp | hp
      · exact Snapshot.plan?_within (hlist (t, s) (by simp)) hanswer.symm p hp
      · exact hothers p hp

theorem ensures_applyPlan {group : String} {plan : List Placement} (hv : v.Fine free)
    (hplan : ∀ p ∈ plan, v.world.Homely p) :
    (applyPlan group plan).Ensures ((confining free).rule E a) (fun _ v' => v.Settles v') v := by
  unfold applyPlan
  rw [ensures_bind]
  refine ensures_settled_note hE hv fun v₁ hv₁ => ?_
  rw [ensures_bind]
  have hloop : (plan.forM fun p => do note (.balanceMove p); call (.place p)).Ensures
      ((confining free).rule E a) (fun _ v' => v.Settles v' ∧ ∀ p ∈ plan, True) v₁ := by
    refine ensures_forM Discipline.rule_monotone v.Settles (fun _ => True) (fun p hp v₂ hv₂ => ?_) hv₁
    rw [ensures_bind]
    refine ensures_settled_note hE (hv₂.fine hv) fun v₃ hv₃ => ?_
    have hv₀₃ := hv₂.trans hv₃
    refine ensures_place hE (hv₀₃.fine hv) ((hplan p hp).settles hv₀₃.world) fun v₄ hv₄ => ?_
    exact ⟨hv₀₃.trans hv₄, trivial⟩
  refine hloop.mono Discipline.rule_monotone ?_
  rintro - v₂ ⟨hv₂, -⟩
  exact ensures_settled_note hE (hv₂.fine hv) fun v₃ hv₃ => hv₂.trans hv₃

/-- The balance of a group's tables lets the world settle. -/
theorem ensures_balanceTables {g : Group} {name : String} {tables : List TableName}
    {assignments : Std.ExtTreeMap Region ServerAddress} (hv : v.Fine free)
    (hg : v.world.site.registry.groups[g.name]? = some g)
    (hsub : ∀ t ∈ tables, v.world.site.registry.Owns g.name t)
    (hlisted : ∀ (r : Region) (s : ServerAddress), assignments[r]? = some s →
      r ∈ v.world.site.cluster.regionsOf r.table) :
    (balanceTables g name tables assignments).Ensures ((confining free).rule E a)
      (fun _ v' => v.Settles v') v := by
  unfold balanceTables
  rw [ensures_bind]
  refine ensures_look hE rfl hv (fun _ => rfl) (fun _ => rfl) fun online v₁ hv₁ _ => ?_
  rw [ensures_bind]
  refine (ensures_planTables hE (hv₁.fine hv) within_snapshots).mono Discipline.rule_monotone ?_
  rintro plan v₂ ⟨hv₂, hplan⟩
  have hv₀₂ := hv₁.trans hv₂
  have hhomely : ∀ p ∈ plan, v.world.Homely p := by
    intro p hp
    obtain ⟨hserver, htable, s, hassigned⟩ := hplan p hp
    have hmember : p.destination ∈ g.servers := (Std.ExtTreeSet.mem_inter_iff.1 hserver).1
    exact ⟨⟨g.name, hsub _ htable, g, hg, hmember⟩, hlisted p.region s hassigned⟩
  have hend : ∀ (ran : Bool) (v₃ : View), v.Settles v₃ →
      (hook (.postBalance name ran) >>= fun _ => pure ran : Program Bool).Ensures
        ((confining free).rule E a) (fun _ v' => v.Settles v') v₃ := by
    intro ran v₃ hv₃
    rw [ensures_bind]
    exact ensures_settled_hook hE (hv₃.fine hv) fun v₄ hv₄ => hv₃.trans hv₄
  dsimp only
  split
  · rw [ensures_bind]
    refine (ensures_applyPlan hE (hv₀₂.fine hv)
      fun p hp => (hhomely p hp).settles hv₀₂.world).mono Discipline.rule_monotone ?_
    intro _ v₃ hv₃
    exact hend _ v₃ (hv₀₂.trans hv₃)
  · exact hend _ v₂ hv₀₂

theorem orderly_balance (name : String) : Orderly E free (balance name) := by
  refine Orderly.holding hE fun o v hv => ?_
  have hready : ∀ {v' : View}, v.Settles v' → v'.Ready free := fun hv' => hv'.ready hv
  rw [ensures_bind]
  refine ensures_settled_hook hE hv.fine fun v₁ hv₁ => ?_
  rw [ensures_bind]
  refine ensures_look hE rfl (hready hv₁).fine (fun _ => rfl) (fun _ => rfl) fun answer v₂ hv₂ ha => ?_
  have hv₀₂ := hv₁.trans hv₂
  rcases answer with - | g
  · exact hready hv₀₂
  have hgroup : v₂.world.site.registry.groups[name]? = some g := Except.ok.inj ha
  have hname : g.name = name := (hready hv₀₂).fine.sane.partitioned.named hgroup
  rw [← hname] at hgroup
  dsimp only
  rw [ensures_bind]
  refine ensures_look hE rfl (hready hv₀₂).fine (fun _ => rfl) (fun _ => rfl)
    fun assignments v₃ hv₃ hassigned => ?_
  have hv₀₃ := hv₀₂.trans hv₃
  rw [ensures_bind]
  refine ensures_look hE rfl (hready hv₀₃).fine (fun _ => rfl) (fun _ => rfl)
    fun transitions v₄ hv₄ _ => ?_
  have hv₀₄ := hv₀₃.trans hv₄
  have hgroup₄ : v₄.world.site.registry.groups[g.name]? = some g := by
    rw [(hv₃.trans hv₄).world.registry]
    exact hgroup
  rw [ensures_bind]
  refine (ensures_ownedAmong hE hgroup₄ (hready hv₀₄).fine).mono Discipline.rule_monotone ?_
  rintro tables v₅ ⟨hv₅, hsub⟩
  have hv₀₅ := hv₀₄.trans hv₅
  split
  · rw [ensures_bind]
    exact ensures_settled_note hE (hready hv₀₅).fine fun v₆ hv₆ => hready (hv₀₅.trans hv₆)
  · rw [ensures_bind]
    refine ensures_look hE rfl (hready hv₀₅).fine (fun _ => rfl) (fun _ => rfl)
      fun recovering v₆ hv₆ _ => ?_
    have hv₀₆ := hv₀₅.trans hv₆
    have hv₄₆ := hv₅.trans hv₆
    split
    · rw [ensures_bind]
      exact ensures_settled_note hE (hready hv₀₆).fine fun v₇ hv₇ => hready (hv₀₆.trans hv₇)
    · -- what was assigned when the group looked was listed, and still is
      have hlisted : ∀ (r : Region) (s : ServerAddress), assignments[r]? = some s →
          r ∈ v₆.world.site.cluster.regionsOf r.table := by
        intro r s hr
        have hnow : v₃.world.site.cluster.assignments = assignments := Except.ok.inj hassigned
        rw [(hv₄.trans hv₄₆).world.regionsOf]
        exact (hready hv₀₃).fine.sane.listed r s (.inl (hnow ▸ hr))
      refine (ensures_balanceTables hE (hready hv₀₆).fine ?_ ?_ hlisted).mono
        Discipline.rule_monotone fun _ v₇ hv₇ => hready (hv₀₆.trans hv₇)
      · rw [hv₄₆.world.registry]
        exact hgroup₄
      · rw [hv₄₆.world.registry]
        exact hsub

end Balance

end Coordinator

end ServerGroups
