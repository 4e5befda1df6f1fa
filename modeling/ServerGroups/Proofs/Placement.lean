/-
ServerGroups/Proofs/Placement.lean

Placing tables and forgetting them.

A table that is about to be created is placed in the group that its namespace
names, and one that has been dropped is forgotten: both look a group up first,
and then move the table if they have to.  `w.Allots t group x` says what is then
different, that `t` is pinned to `group` and to no other one, or to none:

    prepareTable t    places t in the group of its namespace
    forgetTable t     places t in no group

What has been placed stays where it is when it is placed there again, and only
calls that look are made.  So each of the two is idempotent, and for a table
that is pinned nowhere they undo each other (`tables_placed_and_forgotten`):
a registry is known by its groups and their members, and of these `Allots` tells
all.

The two look under the membership lock and move under it once more.  Nothing
else is under way between the two here, so what the look has found is what the
checks of the move find.
-/
import ServerGroups.Proofs.Removal
import ServerGroups.Proofs.Runs.Lookups
import ServerGroups.Proofs.Runs.TableMove

namespace ServerGroups

open Program Coordinator

/-- The group in which tables of a namespace are placed. -/
def Namespace.home (n : Namespace) : String := n.group?.getD defaultGroup

/-! ### What becomes of a table -/

namespace World

variable {w b v x : World} {t : TableName} {group : Option String}

/-- A table is pinned to a group and to no other one, or to none, and who else belongs where is the
same.  The cluster is the same as well, or all regions listed for the table were asked to be
unassigned. -/
structure Allots (t : TableName) (group : Option String) (w x : World) : Prop
    extends w.Alike x where
  pins : ∀ k t', x.site.registry.Pins k t' ↔
    if t' = t then group = some k else w.site.registry.Pins k t'
  servers : ∀ k s, x.site.registry.HasServer k s ↔ w.site.registry.HasServer k s
  groups : ∀ k, k ∈ x.site.registry.groups ↔ k ∈ w.site.registry.groups
  named : w.site.registry.Named → x.site.registry.Named
  namespaces : x.site.namespaces = w.site.namespaces
  cluster : x.site.cluster = w.site.cluster ∨
    x.site.cluster = w.site.cluster.requests (w.site.cluster.regionsOf t)
  working : w.Working → x.Working

/-- What has been given back is not there to be given back again. -/
theorem letGo_letGo (w : World) : w.letGo.letGo = w.letGo := by
  have hlocks : (w.locks.releaseAll .operation).releaseAll .operation =
      w.locks.releaseAll .operation :=
    Locks.releaseAll_eq fun g hg => by simpa using (List.mem_filter.1 hg).2
  show ({ w.letGo with locks := _, reservations := _, held := _ } : World) = w.letGo
  simp only [letGo, hlocks]
  rfl

theorem Alike.letGo (h : w.Alike x) : w.letGo.Alike x.letGo where
  config := h.config
  reservations := by
    show x.reservations.release x.held = w.reservations.release w.held
    rw [h.reservations, h.held]
  locks := congrArg (Locks.releaseAll · .operation) h.locks
  held := rfl
  moves := h.moves

theorem Allots.letGo (h : w.Allots t group x) : w.letGo.Allots t group x.letGo :=
  ⟨h.toAlike.letGo, h.pins, h.servers, h.groups, h.named, h.namespaces, h.cluster,
    fun hw =>
      have hx := h.working ⟨⟨hw.willing, hw.faults⟩, hw.failing⟩
      ⟨⟨hx.willing, hx.faults⟩, hx.failing⟩⟩

/-- A table that is placed already is where it should be. -/
theorem Allots.of_pinned (hs : w.Same x) (hns : x.site.namespaces = w.site.namespaces)
    (hpins : ∀ k, w.site.registry.Pins k t ↔ group = some k) : w.Allots t group x where
  toAlike := hs.toAlike
  pins k t' := by
    rw [hs.registry]
    split
    · next h => rw [h, hpins]
    · rfl
  servers k s := by rw [hs.registry]
  groups k := by rw [hs.registry]
  named hn := by rwa [hs.registry]
  namespaces := hns
  cluster := .inl hs.cluster
  working := hs.working

/-- A move places the table that it moves. -/
theorem Allots.of_move (hs : w.Same b) (hv : b.Repins {t} group v)
    (hx : v.Asks (({t} : TableSet).toList.flatMap b.site.cluster.regionsOf) x)
    (hns : x.site.namespaces = w.site.namespaces) : w.Allots t group x := by
  have hchange : w.site.registry.moveTables {t} group = .ok x.site.registry := by
    rw [hx.registry, ← hs.registry]
    exact hv.change
  have hcluster : b.site.cluster = w.site.cluster := hs.cluster
  exact
    { config := hx.config.trans (hv.config.trans hs.config)
      reservations := hx.reservations.trans (hv.reservations.trans hs.reservations)
      locks := hx.locks.trans (hv.locks.trans hs.locks)
      held := hx.held.trans (hv.held.trans hs.held)
      moves := hx.moves.trans (hv.moves.trans hs.moves)
      pins := fun k t' => by
        rw [Registry.pins_moveTables hchange, mem_singleton_iff]
        split <;> simp_all
      servers := fun k s => Registry.hasServer_moveTables hchange
      groups := fun k => Registry.mem_moveTables hchange
      named := fun hn => Registry.named_moveTables hn hchange
      namespaces := hns
      cluster := by
        rw [hx.cluster, hv.cluster, hcluster, toList_singleton, List.flatMap_singleton]
        exact .inr rfl
      working := fun hw => hx.working (hv.working (hs.working hw)) }

/-- Nothing fails, the locks that a table needs are free, and groups are stored under their own
names. -/
structure Ready (t : TableName) (w : World) : Prop extends w.Working where
  named : w.site.registry.Named
  membership : w.locks.isFree .membership false = true
  table : w.locks.isFree (.table t) false = true

theorem Ready.letGo (h : w.Ready t) : w.letGo.Ready t :=
  ⟨⟨⟨h.willing, h.faults⟩, h.failing⟩, h.named, Locks.isFree_releaseAll h.membership _,
    Locks.isFree_releaseAll h.table _⟩

theorem Ready.consulted (h : w.Ready t) (calls : List Call) : (w.consulted calls).Ready t :=
  ⟨⟨⟨h.willing, h.faults⟩, h.failing⟩, h.named, h.membership, h.table⟩

theorem Ready.allots (h : w.Ready t) (hx : w.Allots t group x) : x.Ready t where
  toWorking := hx.working h.toWorking
  named := hx.named h.named
  membership := by
    rw [hx.locks]
    exact h.membership
  table := by
    rw [hx.locks]
    exact h.table

end World

/-! ### Placing a table -/

namespace Terms

open World

variable {T : Terms} {w : World} {t : TableName}

/-- A move of a single table takes the lock of this table only. -/
theorem ensures_moveTable {group : Option String} {b : World} (hs : T.strict)
    (hwait : ∀ q v, ¬ T.waits q v) (hb : w.Same b) (hw : w.Ready t)
    (hns : b.site.namespaces = w.site.namespaces)
    (hstop : ∀ cause x, ¬ w.site.registry.Movable {t} group → T.stops cause x)
    {post : Unit → World → Prop} (h : ∀ x, w.Allots t group x → post () x) :
    (moveTables {t} group).Ensures T.rule post b := by
  refine ensures_minding hwait hns (ensures_moveTables hs (hb.working hw.toWorking)
    (size_singleton_ne_zero t) ?_ (fun t' ht' => ?_) (fun cause x hnot _ => hstop cause x ?_)
    fun v x hv hx hkept => ?_)
  · rw [hb.locks]
    exact hw.membership
  · rw [hb.locks, mem_singleton_iff.1 ht']
    exact hw.table
  · rwa [← hb.registry]
  · exact h x (.of_move hb hv hx hkept)

/-- A table is prepared: it is looked for in the group that its namespace names, and moved there if
it is not pinned to it. -/
theorem ensures_prepareTable (hs : T.strict) (hwait : ∀ q v, ¬ T.waits q v) (hw : w.Ready t)
    {post : Unit → World → Prop}
    (hstop : ∀ cause x, (∀ n, w.site.namespaces[t.space]? = some n →
      ¬ w.site.registry.Pins n.home t) → T.stops cause x)
    (hpinned : ∀ n, w.site.namespaces[t.space]? = some n → w.site.registry.Pins n.home t →
      post () (w.consulted [.namespaceOf t.space, .group n.home]))
    (hmoved : ∀ n x, w.site.namespaces[t.space]? = some n → ¬ w.site.registry.Pins n.home t →
      w.Allots t (some n.home) x → post () x) :
    (prepareTable t).Ensures T.rule post w := by
  unfold prepareTable
  rw [ensures_bind]
  refine ensures_consult (a := w.site.namespaces[t.space]?) hw.faults (by simp) rfl
    (fun _ => rfl) ?_
  rcases hspace : w.site.namespaces[t.space]? with - | n
  · exact hstop _ _ fun n hn => by rw [hspace] at hn; cases hn
  dsimp only
  rw [ensures_bind]
  refine ensures_getGroup hs hw.faults hw.membership ?_
  rw [consulted_consulted]
  -- from here on the program may stop only if the table is not pinned where it should be
  have hstop' : ¬ w.site.registry.Pins n.home t → ∀ cause x, T.stops cause x := by
    intro hnot cause x
    refine hstop cause x fun n' hn' => ?_
    rwa [← Option.some.inj (hspace.symm.trans hn')]
  rcases hg : (w.consulted [.namespaceOf t.space]).site.registry.groups[n.group?.getD defaultGroup]?
    with - | g
  · refine hstop' ?_ _ _
    rintro ⟨g, hg', -⟩
    cases hg.symm.trans hg'
  dsimp only
  split
  · next hcontains => exact hpinned n hspace ⟨g, hg, by simpa using hcontains⟩
  · next hcontains =>
    have hnot : ¬ w.site.registry.Pins n.home t := by
      rintro ⟨g', hg', ht⟩
      obtain rfl := Option.some.inj (hg.symm.trans hg')
      exact hcontains (by simpa using ht)
    rw [ensures_bind]
    refine ensures_minding hwait rfl (ensures_note fun b hb hns => ?_)
    exact ensures_moveTable hs hwait ((w.same_consulted _).trans_same hb) hw hns
      (fun cause x _ => hstop' hnot cause x) fun x hx => hmoved n x hspace hnot hx

/-- A table is forgotten: it is looked for in all groups, and unpinned if one of them pins it. -/
theorem ensures_forgetTable (hs : T.strict) (hwait : ∀ q v, ¬ T.waits q v) (hw : w.Ready t)
    {post : Unit → World → Prop}
    (hnone : (∀ k, ¬ w.site.registry.Pins k t) → post () (w.consulted [.groupOfTable t]))
    (hmoved : ∀ k x, w.site.registry.Pins k t → w.Allots t none x → post () x) :
    (forgetTable t).Ensures T.rule post w := by
  unfold forgetTable
  rw [ensures_bind]
  refine ensures_getGroupOfTable hs hw.faults hw.named hw.membership hnone fun k g hg ht => ?_
  dsimp only
  rw [ensures_bind]
  have hmovable : w.site.registry.Movable {t} none := ⟨nofun, fun _ _ _ _ => nofun⟩
  refine ensures_minding hwait rfl (ensures_note fun b hb hns => ?_)
  exact ensures_moveTable hs hwait ((w.same_consulted _).trans_same hb) hw hns
    (fun cause x hnot => absurd hmovable hnot) fun x hx => hmoved k x ⟨g, hg, ht⟩ hx

end Terms

namespace World

/-! ### What the two come to -/

variable {w x : World} {t : TableName} {n : Namespace}

/-- What has been prepared is in the group of its namespace, moved or not. -/
theorem Ready.prepareTable (h : w.Ready t)
    (hpins : ∀ {j k}, w.site.registry.Pins j t → w.site.registry.Pins k t → j = k)
    (hreturned : (w.operate (.prepareTable t)).1 = .returned ()) :
    ∃ n, w.site.namespaces[t.space]? = some n ∧
      w.letGo.Allots t (some n.home) (w.operate (.prepareTable t)).2 ∧
      (w.operate (.prepareTable t)).2.letGo = (w.operate (.prepareTable t)).2 := by
  have hprepare : (Coordinator.prepareTable t).Ensures (Terms.answered fun _ _ => True).rule
      (fun _ x => ∃ n, w.site.namespaces[t.space]? = some n ∧ w.Allots t (some n.home) x) w := by
    refine Terms.ensures_prepareTable trivial (fun _ _ => id) h (fun _ _ _ => trivial)
      (fun n hn hpinned => ⟨n, hn, ?_⟩) fun n x hn _ hx => ⟨n, hn, hx⟩
    refine .of_pinned (w.same_consulted _) rfl fun k => ⟨fun hk => ?_, fun hk => ?_⟩
    · rw [hpins hk hpinned]
    · rwa [← Option.some.inj hk]
  have hends := Terms.perform_of_strict (T := Terms.answered _) trivial hprepare
  -- the terms allow that it stops, which it has not
  rw [operate_eq (by simp)] at hreturned ⊢
  change (Terms.answered _).Concludes _ (w.perform (Operation.prepareTable t).program) at hends
  rcases hperform : w.perform (Operation.prepareTable t).program with ⟨outcome, x⟩
  rw [hperform] at hends hreturned
  obtain rfl : outcome = .returned () := hreturned
  obtain ⟨y, ⟨n, hn, hy⟩, rfl⟩ := hends
  exact ⟨n, hn, hy.letGo, letGo_letGo y⟩

/-- What is pinned where it should be is prepared by looking. -/
theorem Ready.prepareTable_pinned (h : w.Ready t) (hn : w.site.namespaces[t.space]? = some n)
    (hpinned : w.site.registry.Pins n.home t) :
    w.operate (.prepareTable t) = (.returned (),
      w.letGo.consulted [.namespaceOf t.space, .group n.home]) := by
  have hprepare : (Coordinator.prepareTable t).Ensures (Terms.answered fun _ _ => False).rule
      (fun _ x => x = w.consulted [.namespaceOf t.space, .group n.home]) w := by
    refine Terms.ensures_prepareTable trivial (fun _ _ => id) h
      (fun _ _ hnot => hnot n hn hpinned) (fun n' hn' _ => ?_) fun n' x hn' hnot _ => ?_
    · rw [Option.some.inj (hn.symm.trans hn')]
    · rw [← Option.some.inj (hn.symm.trans hn')] at hnot
      exact absurd hpinned hnot
  obtain ⟨⟨⟩, x, hperform, rfl⟩ := Terms.perform_of_returns hprepare
  exact (operate_eq (by simp) w).trans hperform

/-- What is pinned nowhere is forgotten by looking. -/
theorem Ready.forgetTable_unpinned (h : w.Ready t) (hnone : ∀ k, ¬ w.site.registry.Pins k t) :
    w.operate (.forgetTable t) = (.returned (), w.letGo.consulted [.groupOfTable t]) := by
  have hforget : (Coordinator.forgetTable t).Ensures (Terms.answered fun _ _ => False).rule
      (fun _ x => x = w.consulted [.groupOfTable t]) w :=
    Terms.ensures_forgetTable trivial (fun _ _ => id) h (fun _ => rfl) fun k x hk _ =>
      absurd hk (hnone k)
  obtain ⟨⟨⟩, x, hperform, rfl⟩ := Terms.perform_of_returns hforget
  exact congrArg (Operation.conclude (.forgetTable t)) hperform

/-- A table that is forgotten is pinned to no group, and to forget it again is to look only. -/
structure Forgets (t : TableName) (w x : World) : Prop where
  returned : w.operate (.forgetTable t) = (.returned (), x)
  allots : w.letGo.Allots t none x
  again : x.operate (.forgetTable t) = (.returned (), x.consulted [.groupOfTable t])

theorem Ready.forgets (h : w.Ready t) : ∃ x, w.Forgets t x := by
  have hforget : (Coordinator.forgetTable t).Ensures (Terms.answered fun _ _ => False).rule
      (fun _ x => w.Allots t none x) w := by
    refine Terms.ensures_forgetTable trivial (fun _ _ => id) h (fun hnone => ?_) fun k x _ hx => hx
    exact .of_pinned (w.same_consulted _) rfl fun k => ⟨fun hk => absurd hk (hnone k), nofun⟩
  obtain ⟨⟨⟩, y, hperform, hy⟩ := Terms.perform_of_returns hforget
  refine ⟨y.letGo, congrArg (Operation.conclude (.forgetTable t)) hperform, hy.letGo, ?_⟩
  -- the table is pinned nowhere now, so the second time there is nothing to move
  have hnone : ∀ k, ¬ y.letGo.site.registry.Pins k t := by
    intro k hk
    have hgroup := (hy.letGo.pins k t).1 hk
    rw [if_pos rfl] at hgroup
    cases hgroup
  have hagain := ((h.allots hy).letGo).forgetTable_unpinned hnone
  rwa [letGo_letGo] at hagain

/-- A table that was pinned nowhere is pinned nowhere again, once it has been placed and
forgotten. -/
theorem Allots.registry_eq {group : Option String} {b y : World} (hn : w.site.registry.Named)
    (hx : w.Allots t group x) (hy : b.Allots t none y)
    (hsame : b.site.registry = x.site.registry) (hnone : ∀ k, ¬ w.site.registry.Pins k t) :
    y.site.registry = w.site.registry := by
  have hnamed : b.site.registry.Named := by
    rw [hsame]
    exact hx.named hn
  refine Registry.eq_of_members hn (hy.named hnamed) (fun k => ?_) (fun k s => ?_) fun k t' => ?_
  · rw [hy.groups, hsame, hx.groups]
  · rw [hy.servers, hsame, hx.servers]
  · rw [hy.pins, hsame, hx.pins]
    split
    · next heq => simp [heq, hnone k]
    · rfl

end World

/-- **Placing a table and forgetting it are idempotent, and undo each other.**  Where nothing fails
and the locks are free, and no two groups pin the table: if preparing the table returns, its
namespace exists, and the table is pinned to the group that the namespace names, or to `default` if
it names none; all else about groups is the same (an operation that ends gives back what it holds,
so `w.letGo` stands for the world before).  To prepare it again returns, and only looks.  Whether it
was prepared once or twice, to forget it then leaves it pinned to no group, and again all else about
groups as it is; to forget it again only looks.  If no group pinned the table at first, the registry
is then what it was. -/
theorem tables_placed_and_forgotten {w : World} {t : TableName} (hw : w.Ready t)
    (hpins : ∀ {j k}, w.site.registry.Pins j t → w.site.registry.Pins k t → j = k)
    (hreturned : (w.operate (.prepareTable t)).1 = .returned ()) :
    ∃ n x, w.site.namespaces[t.space]? = some n ∧
      w.operate (.prepareTable t) = (.returned (), x) ∧
      w.letGo.Allots t (some n.home) x ∧
      x.operate (.prepareTable t) = (.returned (),
        x.consulted [.namespaceOf t.space, .group n.home]) ∧
      ∀ v, v = x ∨ v = (x.operate (.prepareTable t)).2 →
        ∃ y, v.Forgets t y ∧
          ((∀ k, ¬ w.site.registry.Pins k t) → y.site.registry = w.site.registry) := by
  obtain ⟨n, hn, hx, hrest⟩ := hw.prepareTable hpins hreturned
  rcases hprepare : w.operate (.prepareTable t) with ⟨outcome, x⟩
  rw [hprepare] at hreturned hx hrest
  obtain rfl : outcome = .returned () := hreturned
  dsimp only at hx hrest
  -- placing leaves a world in which the table can be placed again, and forgotten
  have hready : x.Ready t := hw.letGo.allots hx
  have hnamespaces : x.site.namespaces[t.space]? = some n := by
    rw [hx.namespaces]
    exact hn
  have hpinned : x.site.registry.Pins n.home t := by
    rw [hx.pins, if_pos rfl]
  have hagain := hready.prepareTable_pinned hnamespaces hpinned
  rw [hrest] at hagain
  have hforgets : ∀ calls, ∃ y, (x.consulted calls).Forgets t y ∧
      ((∀ k, ¬ w.site.registry.Pins k t) → y.site.registry = w.site.registry) := by
    intro calls
    obtain ⟨y, hy⟩ := (hready.consulted calls).forgets
    exact ⟨y, hy, World.Allots.registry_eq (w := w.letGo) hw.named hx hy.allots rfl⟩
  refine ⟨n, x, hn, rfl, hx, hagain, ?_⟩
  rintro v (rfl | rfl)
  · exact hforgets []
  · rw [hagain]
    exact hforgets _

/-- A table of the namespace `sales`, which names the group `a`, has a region on a server of
`default`. -/
def World.selling : World :=
  .start {} (({ Site.pair with
    registry := (Registry.ofServers {⟨"rs1", 1⟩}).put ⟨"a", {⟨"rs2", 1⟩}, ∅⟩
    namespaces := Namespaces.put ∅ ((Namespace.empty "sales").withGroup "a") } : Site).change
      (.region ⟨⟨"sales", "orders"⟩, "r1"⟩ (some ⟨"rs1", 1⟩)))

theorem World.ready_selling : World.selling.Ready ⟨"sales", "orders"⟩ where
  willing _ h := by cases h
  faults := rfl
  failing := rfl
  named := Registry.named_put Registry.named_ofServers _
  membership := rfl
  table := rfl

/-- The table is pinned to the group that the namespace names, and the registry is then what it
was. -/
theorem tables_placed_and_forgotten_selling :
    World.selling.Ready ⟨"sales", "orders"⟩ ∧
      ∃ x y, World.selling.operate (.prepareTable ⟨"sales", "orders"⟩) = (.returned (), x) ∧
        x.site.registry.Pins "a" ⟨"sales", "orders"⟩ ∧
        x.operate (.forgetTable ⟨"sales", "orders"⟩) = (.returned (), y) ∧
        y.site.registry = World.selling.site.registry := by
  have hnone : ∀ k, ¬ World.selling.site.registry.Pins k ⟨"sales", "orders"⟩ :=
    Registry.groupOfTable?_eq_none.1 (by decide +kernel)
  obtain ⟨n, x, hn, hprepare, hx, -, hforget⟩ := tables_placed_and_forgotten World.ready_selling
    (fun hj _ => absurd hj (hnone _)) (by rfl)
  obtain ⟨y, hy, hregistry⟩ := hforget x (.inl rfl)
  have hnamed : World.selling.site.namespaces["sales"]? =
      some ((Namespace.empty "sales").withGroup "a") := by decide +kernel
  obtain rfl := Option.some.inj (hn.symm.trans hnamed)
  refine ⟨World.ready_selling, x, y, hprepare, (hx.pins _ _).2 ?_, hy.returned, hregistry hnone⟩
  rw [if_pos rfl]
  decide +kernel

end ServerGroups
