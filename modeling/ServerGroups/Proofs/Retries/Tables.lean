/-
ServerGroups/Proofs/Retries/Tables.lean

A failed move of tables, and the same move once more.

The registry changes at once, in the first half of a move.  So a move that
fails after that leaves all of its tables pinned to the target
(`World.HalfDone`), whichever regions it has come to, and the same move once
more is refused because of the first table.

The regions that are left can be asked for all the same: the tables are moved
to no group first, which nothing speaks against, and then to the target again.
Both moves return and ask for every region that is listed, once the registry has
changed (`retried_tables_refused`).

Design.  A failed move may stop anywhere, with locks still in hand, so about
the membership lock it is only known that nobody else has it; what is in hand is
given back when the operation ends.
-/
import ServerGroups.Proofs.Moves.Tables

namespace ServerGroups

open Program

namespace World

variable {u v w w' x : World} {tables : TableSet} {target : String} {cause : Error}
variable {t : TableName}

/-! ### What a failed move leaves -/

/-- The registry has moved tables to a group with servers, and nobody but the operation has the
membership lock. -/
structure HalfDone (tables : TableSet) (target : String) (w x : World) : Prop where
  nonempty : tables.size ≠ 0
  movable : w.site.registry.Movable tables (some target)
  change : w.site.registry.moveTables tables (some target) = .ok x.site.registry
  only : x.locks.Only .membership .operation

namespace HalfDone

theorem of_locks (h : w.HalfDone tables target x) (hr : w'.site.registry = x.site.registry)
    (hl : w'.locks.Only .membership .operation) : w.HalfDone tables target w' :=
  ⟨h.nonempty, h.movable, by rw [hr]; exact h.change, hl⟩

theorem asks {rs : List Region} (h : w.HalfDone tables target x) (hx : x.Asks rs w') :
    w.HalfDone tables target w' :=
  h.of_locks hx.registry (by rw [hx.locks]; exact h.only)

theorem granted (h : w.HalfDone tables target x) (l : Lock) :
    w.HalfDone tables target (x.granted l) := by
  refine h.of_locks rfl fun g hg hlock => ?_
  rcases List.mem_cons.1 hg with rfl | hg
  · rfl
  · exact h.only g hg hlock

theorem pass (h : w.HalfDone tables target x) {k : Nat} {m : Move} (hx : x.Swept k m w') :
    w.HalfDone tables target w' := by
  obtain ⟨_, _, _, _, _, hheld⟩ := hx.coordinator
  refine h.of_locks hx.services.1 ?_
  rcases hheld with ⟨-, hlocks, -⟩ | ⟨-, hlocks, -⟩ <;> rw [hlocks]
  · exact h.only
  · exact h.only.releaseAll _

end HalfDone

/-! ### The first call -/

/-- A move of tables that starts in a world may fail before or after the registry has changed;
nothing is asked of the services. -/
def repinning (w : World) (tables : TableSet) (target : String) : Terms where
  strict := False
  waits
    | .lock (.table _) _ _, x => w.HalfDone tables target x
    | _, x => x.site.registry = w.site.registry
  stops _ x := x.site.registry = w.site.registry ∨ w.HalfDone tables target x

theorem stable_repinning (w : World) (tables : TableSet) (target : String) :
    (w.repinning tables target).Stable where
  advance {q x} hx time := by
    cases q with
    | lock l shared holder =>
      cases l with
      | table t =>
        have hdone : w.HalfDone tables target x := hx
        exact hdone.of_locks rfl hdone.only
      | _ => exact hx
    | _ => exact hx
  pass {q x k m} hx hm he := by
    have hsame : x.site.registry = w.site.registry →
        (x.pass k m).site.registry = w.site.registry :=
      fun hr => (x.swept_pass k m).services.1.trans hr
    cases q with
    | lock l shared holder =>
      cases l with
      | table t => exact HalfDone.pass hx (x.swept_pass k m)
      | _ => exact hsame hx
    | _ => exact hsame hx

theorem HalfDone.allows (h : w.HalfDone tables target x) : (w.repinning tables target).Allows x :=
  ⟨False.elim, fun _ _ _ hy => .inr (h.asks hy)⟩

/-- The second half of the move keeps what the first half has done. -/
theorem HalfDone.ensures_unassignTable (h : w.HalfDone tables target x) (t : TableName) :
    (Coordinator.unassignTable t).Ensures (w.repinning tables target).rule
      (fun _ y => w.HalfDone tables target y ∧ True) x := by
  have hfound : ∀ v, (x.Same v ∨ ¬ (w.repinning tables target).strict ∧
      (w.repinning tables target).waits (.lock (.table t) false .operation) v) →
        w.HalfDone tables target v := by
    rintro v (hv | ⟨-, hv⟩)
    · exact h.asks hv
    · exact hv
  exact Terms.ensures_unassignTable h.allows False.elim (fun _ y hy => h.asks hy)
    (fun v hv => ⟨False.elim, fun _ _ _ hy => (((hfound v hv).granted _).asks hy).allows⟩)
    fun v y hv hy => ⟨(hfound v hv).asks hy, trivial⟩

/-- A move of tables that fails has not changed the registry, or leaves its tables in the target
group and holds nothing. -/
theorem halfDone_of_failed
    (h : w.operate (.moveTables tables (some target)) = (.failed cause, w')) :
    w'.site.registry = w.site.registry ∨
      (w.HalfDone tables target w' ∧ w'.locks.isFree .membership false = true) := by
  have hmove : (Coordinator.moveTables tables (some target)).Ensures
      (w.repinning tables target).rule (fun _ _ => True) w := by
    unfold Coordinator.moveTables
    split
    · exact Terms.ensures_note fun _ _ => trivial
    · next hne =>
      rw [ensures_bind]
      refine Terms.ensures_holding False.elim (fun _ _ => rfl) fun v hv hisFree => ?_
      have hregistry : v.site.registry = w.site.registry := by
        rcases hv with rfl | ⟨-, hv⟩
        · rfl
        · exact hv
      have hdone : ∀ y, (v.granted .membership).Repins tables (some target) y →
          w.HalfDone tables target y := by
        intro y hy
        have hmovable := hy.movable
        have hchange := hy.change
        rw [show (v.granted .membership).site.registry = w.site.registry from hregistry]
          at hmovable hchange
        refine ⟨hne, hmovable, hchange, fun g hg hlock => ?_⟩
        rw [hy.locks] at hg
        rcases List.mem_cons.1 hg with rfl | hg
        · rfl
        · exact absurd hlock (Locks.isFree_iff.1 hisFree g hg)
      have hallows : (w.repinning tables target).Allows (v.granted .membership) :=
        ⟨False.elim, fun _ _ _ hy => .inl (hy.registry.trans hregistry)⟩
      refine Terms.ensures_repin hallows (fun cause y _ hy => ?_) (fun y hy => (hdone y hy).allows)
        fun y hy => ?_
      · exact Or.inl (hy.registry.trans hregistry)
      · have hreleased : w.HalfDone tables target (y.released .membership) :=
          (hdone y hy).of_locks rfl fun g hg => (hdone y hy).only g (List.mem_of_mem_filter hg)
        exact (ensures_forM Terms.rule_monotone _ _
          (fun t _ z hz => hz.ensures_unassignTable t) hreleased).mono Terms.rule_monotone
            fun _ _ _ => trivial
  have hends := Terms.operate_concludes (o := .moveTables tables (some target))
    (w.stable_repinning tables target) (by simp) hmove
  rw [h] at hends
  obtain ⟨x, hx | hx, rfl⟩ := hends
  · exact .inl hx
  · exact .inr ⟨hx.of_locks rfl (hx.only.releaseAll _), hx.only.isFree_releaseAll⟩

/-! ### The second call -/

theorem HalfDone.pins_iff (h : w.HalfDone tables target x) (ht : t ∈ tables) {k : String} :
    x.site.registry.Pins k t ↔ k = target := by
  rw [Registry.pins_moveTables h.change]
  simp [ht, eq_comm]

theorem HalfDone.groupOfTable? (h : w.HalfDone tables target x) (hn : w.site.registry.Named)
    (ht : t ∈ tables) : x.site.registry.groupOfTable? t = some target := by
  rcases hk : x.site.registry.groupOfTable? t with - | k
  · exact absurd ((h.pins_iff ht).2 rfl) (Registry.groupOfTable?_eq_none.1 hk target)
  · have hpins := Registry.pins_of_groupOfTable? (Registry.named_moveTables hn h.change) hk
    rw [(h.pins_iff ht).1 hpins]

/-- The target group has kept its servers. -/
theorem HalfDone.staffed (h : w.HalfDone tables target x) :
    ∃ g, x.site.registry.groups[target]? = some g ∧ g.servers.size ≠ 0 := by
  obtain ⟨g, hg, hne⟩ := h.movable.staffed target rfl
  rw [Registry.getElem?_moveTables h.change, hg]
  exact ⟨_, rfl, hne⟩

/-- Tables that are in the target group already are not moved. -/
theorem ensures_moveTables_refused {T : Terms} (hs : T.strict) (hw : w.Healthy)
    (hfree : w.locks.isFree .membership false = true) {rest : List TableName}
    (htables : tables.toList = t :: rest)
    (hstaffed : ∃ g, w.site.registry.groups[target]? = some g ∧ g.servers.size ≠ 0)
    (ht : w.site.registry.groupOfTable? t = some target)
    (hstop : ∀ x, (w.granted .membership).Same x →
      T.stops (some (.refused (.tableAlreadyThere t target))) x) :
    (Coordinator.moveTables tables (some target)).Ensures T.rule (fun _ _ => False) w := by
  have hne : tables.size ≠ 0 := by
    rw [← Std.ExtTreeSet.length_toList, htables]
    simp
  unfold Coordinator.moveTables
  rw [if_neg hne, ensures_bind]
  refine Terms.ensures_holding (fun _ => hfree) (absurd hs) fun v hv _ => ?_
  obtain rfl := hv.eq hs
  have hT : T.Allows (v.granted .membership) := Terms.allows_of_strict hs (hw.granted _).obliging
  unfold Coordinator.repin
  rw [ensures_bind]
  refine Terms.ensures_hook hT fun w₁ h₁ => ?_
  rw [ensures_bind]
  obtain ⟨g, hg, hservers⟩ := hstaffed
  refine Terms.ensures_checkTarget (hT.same h₁) (fun cause x hempty _ => ?_)
    fun g' w₂ h₂ _ _ => ?_
  · rw [h₁.registry] at hempty
    exact absurd (hempty g hg) hservers
  have h₀₂ := h₁.same_trans h₂
  have ht₂ : w₂.site.registry.groupOfTable? t = some target := by
    rw [h₀₂.registry]
    exact ht
  rw [ensures_bind, htables]
  change (Coordinator.checkTable (some target) t >>= fun _ => rest.forM _).Ensures T.rule _ w₂
  rw [ensures_bind]
  refine Terms.ensures_checkTable (hT.same h₀₂) (fun k x hk _ hx => ?_) fun x _ hne => ?_
  · rw [Option.some.inj (hk.symm.trans ht₂)]
    exact hstop x (h₀₂.same_trans hx)
  · exact absurd rfl (hne target ht₂)

/-- What a move of tables has left half done it does not take up again. -/
theorem HalfDone.refused (h : w.HalfDone tables target x) (hn : w.site.registry.Named)
    (hx : x.Healthy) (hfree : x.locks.isFree .membership false = true) :
    ∃ t x', tables.toList.head? = some t ∧ x.operate (.moveTables tables (some target)) =
        (.failed (.refused (.tableAlreadyThere t target)), x') ∧
      x'.site.registry = x.site.registry ∧ x'.site.cluster = x.site.cluster ∧
      x'.history.unassigned = x.history.unassigned := by
  obtain ⟨t, ht⟩ := exists_mem_of_size_ne_zero h.nonempty
  rcases htables : tables.toList with - | ⟨t, rest⟩
  · rw [← Std.ExtTreeSet.mem_toList, htables] at ht
    exact absurd ht List.not_mem_nil
  · have hfirst : t ∈ tables := by
      rw [← Std.ExtTreeSet.mem_toList, htables]
      exact List.mem_cons_self
    obtain ⟨y, hperform, hy⟩ := Terms.perform_of_fails (ensures_moveTables_refused
      (T := Terms.answered _) trivial hx hfree htables h.staffed (h.groupOfTable? hn hfirst)
      fun y hy => ⟨rfl, hy⟩)
    refine ⟨t, y.letGo, rfl, (operate_eq (by simp) x).trans hperform, hy.registry, hy.cluster, ?_⟩
    show y.history.unassigned = _
    rw [hy.unassigned]
    simp [World.granted]

/-! ### To no group, and then to the target again -/

/-- Where nothing fails and the locks are free, the tables are moved to no group, and then to the
target again; by the time a region is asked for the registry has changed. -/
theorem HalfDone.moved_again (h : w.HalfDone tables target x) (hn : w.site.registry.Named)
    (hx : x.Healthy) (hmembership : x.locks.isFree .membership false = true)
    (hfree : ∀ t ∈ tables, x.locks.isFree (.table t) false = true) :
    ∃ u y, x.operate (.moveTables tables none) = (.returned (), u) ∧
      u.operate (.moveTables tables (some target)) = (.returned (), y) ∧
      (∀ t ∈ tables, ∀ k, y.site.registry.Pins k t ↔ k = target) ∧
      y.history.unassigned = u.history.unassigned ++
        ((tables.toList.flatMap x.site.cluster.regionsOf).map fun r => (u.now, r)).toArray ∧
      ∀ z ∈ record (Coordinator.moveTables tables (some target)) u, ∀ r, z.2.region? = some r →
        z.1.site.registry = y.site.registry := by
  have hanywhere : x.site.registry.Movable tables none :=
    ⟨fun _ hname => (by cases hname), fun _ _ _ _ => by simp⟩
  obtain ⟨⟨⟩, u, hnone, -, v₁, hrepins, hasks⟩ := yields_moveTables hx.working h.nonempty
    hmembership hfree hanywhere
  have hchange : x.site.registry.moveTables tables none = .ok u.site.registry := by
    rw [hasks.registry]
    exact hrepins.change
  have hlocks : u.locks = x.locks := hasks.locks.trans hrepins.locks
  have hhealthy : u.letGo.Healthy := by
    have hu := hasks.healthy (hrepins.healthy hx)
    exact ⟨hu.toReliable, hu.faults⟩
  have hmovable : u.letGo.site.registry.Movable tables (some target) := by
    constructor
    · rintro name hname
      obtain rfl := Option.some.inj hname
      obtain ⟨g, hg, hne⟩ := h.staffed
      show ∃ g, u.site.registry.groups[target]? = some g ∧ _
      rw [Registry.getElem?_moveTables hchange, hg]
      exact ⟨_, rfl, hne⟩
    · -- no group pins the tables any more
      intro t ht k hk
      have hnamed : u.site.registry.Named :=
        Registry.named_moveTables (Registry.named_moveTables hn h.change) hchange
      have hpins := (Registry.pins_moveTables hchange).1 (Registry.pins_of_groupOfTable? hnamed hk)
      simp [ht] at hpins
  obtain ⟨⟨⟩, y, hsome, -, v₂, hrepins', hasks'⟩ := yields_moveTables hhealthy.working h.nonempty
    (Locks.isFree_releaseAll (by rw [hlocks]; exact hmembership) _)
    (fun t ht => Locks.isFree_releaseAll (by rw [hlocks]; exact hfree t ht) _) hmovable
  have hlisted : u.letGo.site.cluster.regionsOf = x.site.cluster.regionsOf := by
    show u.site.cluster.regionsOf = _
    rw [hasks.cluster, hrepins.cluster, Cluster.regionsOf_requests]
  refine ⟨u.letGo, y.letGo, (operate_eq (by simp) x).trans (perform_of_returned hnone),
    (operate_eq (by simp) u.letGo).trans (perform_of_returned hsome), fun t ht k => ?_, ?_,
    fun z hz r hr => ?_⟩
  · have hchange' : u.letGo.site.registry.moveTables tables (some target) =
        .ok y.letGo.site.registry := by
      show _ = Except.ok y.site.registry
      rw [hasks'.registry]
      exact hrepins'.change
    rw [Registry.pins_moveTables hchange']
    simp [ht, eq_comm]
  · show y.history.unassigned = _
    rw [hasks'.unassigned, hrepins'.unassigned, hrepins'.now, hlisted]
  · rw [registry_of_asks hz hr, hsome]
    rfl

/-- **A failed move of tables cannot be taken up again by calling it once more.**  If a move of
tables fails after the registry has changed, all of its tables are pinned to the target.  When the
services work again the same move is refused because of the first table, and changes nothing.  If
the locks of the tables are free, the tables can be moved to no group, and then to the target again,
which asks for every region that is listed for one of them; by then the registry is already what
this last call leaves. -/
theorem retried_tables_refused (hn : w.site.registry.Named)
    (h : w.operate (.moveTables tables (some target)) = (.failed cause, w'))
    (hchanged : w'.site.registry ≠ w.site.registry) (hv : w'.Heals v) :
    (∀ t ∈ tables, ∀ k, v.site.registry.Pins k t ↔ k = target) ∧
      (∃ t v', tables.toList.head? = some t ∧ v.operate (.moveTables tables (some target)) =
          (.failed (.refused (.tableAlreadyThere t target)), v') ∧
        v'.site.registry = v.site.registry ∧ v'.site.cluster = v.site.cluster ∧
        v'.history.unassigned = v.history.unassigned) ∧
      ((∀ t ∈ tables, v.locks.isFree (.table t) false = true) →
        ∃ u x, v.operate (.moveTables tables none) = (.returned (), u) ∧
          u.operate (.moveTables tables (some target)) = (.returned (), x) ∧
          (∀ t ∈ tables, ∀ k, x.site.registry.Pins k t ↔ k = target) ∧
          x.history.unassigned = u.history.unassigned ++
            ((tables.toList.flatMap v.site.cluster.regionsOf).map fun r => (u.now, r)).toArray ∧
          ∀ z ∈ record (Coordinator.moveTables tables (some target)) u, ∀ r,
            z.2.region? = some r → z.1.site.registry = x.site.registry) := by
  obtain ⟨hleft, hfree⟩ := (halfDone_of_failed h).resolve_left hchanged
  have hdone : w.HalfDone tables target v :=
    hleft.of_locks hv.registry (by rw [hv.locks]; exact hleft.only)
  have hmembership : v.locks.isFree .membership false = true := by
    rw [hv.locks]
    exact hfree
  exact ⟨fun t ht k => hdone.pins_iff ht, hdone.refused hn hv.healthy hmembership,
    hdone.moved_again hn hv.healthy hmembership⟩

/-! ### A table whose only region is not unassigned -/

/-- Each of two servers is in a group of its own, and a region of an untracked table is on the one
in `default`; the next request to unassign a region fails. -/
def stumbling : World :=
  { start {} ((Site.pair.change (.stored ⟨defaultGroup, {⟨"rs1", 1⟩}, ∅⟩)).change
      (.stored ⟨"a", {⟨"rs2", 1⟩}, ∅⟩)) with
    faults := [⟨"cluster.unassign", 0, 1, .fails (.unavailable "lost")⟩] }

/-- The table has been moved to the other group, but the request to unassign its region failed. -/
def stumbled : World :=
  (stumbling.operate (.moveTables {⟨"default", "t1"⟩} (some "a"))).2

/-- The services work again. -/
def recovered : World := { stumbled with faults := [] }

theorem operate_stumbling : stumbling.operate (.moveTables {⟨"default", "t1"⟩} (some "a")) =
    (.failed (.unavailable (.unavailable "lost")), stumbled) :=
  Prod.ext (Outcome.eq_failed (by decide +kernel)) rfl

theorem heals_recovered : stumbled.Heals recovered :=
  ⟨⟨rfl, rfl, rfl, rfl, rfl⟩, rfl, by rfl, ⟨by rfl, fun _ h => (by cases h), by rfl⟩, rfl⟩

theorem named_stumbling : stumbling.site.registry.Named :=
  Registry.named_put (Registry.named_put Registry.named_ofServers _) _

/-- The table is in the other group after the first call, the second call is refused, and two more
moves ask for the region. -/
theorem retried_tables_refused_recovered :
    recovered.site.registry.Pins "a" ⟨"default", "t1"⟩ ∧
      (∃ t v, recovered.operate (.moveTables {⟨"default", "t1"⟩} (some "a")) =
        (.failed (.refused (.tableAlreadyThere t "a")), v)) ∧
      ∃ u x, recovered.operate (.moveTables {⟨"default", "t1"⟩} none) = (.returned (), u) ∧
        u.operate (.moveTables {⟨"default", "t1"⟩} (some "a")) = (.returned (), x) ∧
        x.history.unassigned = u.history.unassigned.push (u.now, ⟨⟨"default", "t1"⟩, "r1"⟩) := by
  have hchanged : stumbled.site.registry ≠ stumbling.site.registry := by decide +kernel
  obtain ⟨hpins, ⟨t, v, -, hrefused, -⟩, hagain⟩ := retried_tables_refused (w := stumbling)
    named_stumbling operate_stumbling hchanged heals_recovered
  have hfree : ∀ t ∈ ({⟨"default", "t1"⟩} : TableSet),
      recovered.locks.isFree (.table t) false = true := fun t _ => by rfl
  obtain ⟨u, x, hnone, hsome, -, hunassigned, -⟩ := hagain hfree
  have hlisted : (({⟨"default", "t1"⟩} : TableSet).toList.flatMap
      recovered.site.cluster.regionsOf) = [⟨⟨"default", "t1"⟩, "r1"⟩] := by decide +kernel
  rw [hlisted] at hunassigned
  exact ⟨(hpins _ (by decide +kernel) _).2 rfl, ⟨t, v, hrefused⟩, u, x, hnone, hsome, hunassigned⟩

/-- The first call has changed the registry and fails; when the services work again the second call
is refused, and no request to unassign the region has been made. -/
theorem failed_tables_not_completed :
    stumbling.operate (.moveTables {⟨"default", "t1"⟩} (some "a")) =
        (.failed (.unavailable (.unavailable "lost")), stumbled) ∧
      stumbled.site.registry ≠ stumbling.site.registry ∧ stumbled.Heals recovered ∧
      (recovered.operate (.moveTables {⟨"default", "t1"⟩} (some "a"))).1 =
        .failed (.refused (.tableAlreadyThere ⟨"default", "t1"⟩ "a")) ∧
      (recovered.operate (.moveTables {⟨"default", "t1"⟩} (some "a"))).2.history.unassigned = #[] :=
  ⟨operate_stumbling, by decide +kernel, heals_recovered, Outcome.eq_failed (by decide +kernel),
    by decide +kernel⟩

end World

end ServerGroups
