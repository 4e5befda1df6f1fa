/-
ServerGroups/Proofs/Drains/Termination.lean

A drain ends, and leaves its servers clear.

A pass asks for every region that is astray on a pending server.  Each of them
then leaves, or its pin loses one.  So after `n` passes

  * a region that is astray on a moved server is on a pending one, and
  * its pin has `n` less than it may have had at first.

With `P` the largest pin of these regions when the drain starts, none is left
after `P + 1` passes, and the pass after that finds the servers clear and is
the last one.

Groups may be balanced between the passes.  What a balance does is `Even`: it
places regions at home only, so it brings no region astray to a moved server,
and no pin grows.
-/
import ServerGroups.Proofs.Confinement
import ServerGroups.Proofs.Drains.Turns
import ServerGroups.Proofs.Runs.Balance

namespace ServerGroups

namespace World

variable {w w' w'' x : World} {handle : Option Nat} {number n P : Nat} {m : Move}
variable {servers : ServerSet} {target : String} {r : Region} {s : ServerAddress}

/-! ### What may happen between two passes -/

/-- No move and no group has changed, no region has come to a server but at home, and no pin has
grown. -/
structure Even (w w' : World) : Prop where
  moves : w'.moves = w.moves
  registry : w'.site.registry = w.site.registry
  healthy : w.Healthy → w'.Healthy
  keyed : w.site.cluster.Keyed → w'.site.cluster.Keyed
  on : ∀ r s, w'.site.cluster.On r s → w.site.cluster.On r s ∨ w.site.registry.Hosts s r.table
  pinned : ∀ r, w'.site.cluster.pinned r ≤ w.site.cluster.pinned r

namespace Even

theorem of_site (hm : w'.moves = w.moves) (hs : w'.site = w.site) (hf : w'.faults = w.faults) :
    w.Even w' where
  moves := hm
  registry := by rw [hs]
  healthy hw := ⟨by rw [hs]; exact hw.toReliable, hf.trans hw.faults⟩
  keyed hk := by rw [hs]; exact hk
  on r s hr := .inl (by rwa [hs] at hr)
  pinned r := by rw [hs]

theorem refl (w : World) : w.Even w := of_site rfl rfl rfl

theorem trans (h : w.Even w') (h' : w'.Even w'') : w.Even w'' where
  moves := h'.moves.trans h.moves
  registry := h'.registry.trans h.registry
  healthy hw := h'.healthy (h.healthy hw)
  keyed hk := h'.keyed (h.keyed hk)
  on r s hr := by
    rcases h'.on r s hr with hold | hhome
    · exact h.on r s hold
    · rw [h.registry] at hhome
      exact .inr hhome
  pinned r := (h'.pinned r).trans (h.pinned r)

end Even

/-- Placements at home are even. -/
theorem Applies.even {plan : List Placement} (h : w.Applies plan w')
    (hhome : ∀ p ∈ plan, w.site.registry.Hosts p.destination p.region.table) : w.Even w' where
  moves := h.moves
  registry := h.registry
  healthy := h.toStays.healthy
  keyed hk := by
    rw [h.cluster, Cluster.places_eq]
    exact hk
  on r s hr := by
    rw [h.cluster, Cluster.places_eq] at hr
    rcases hr with hr | hr
    · rcases Cluster.assignments_places hr with hold | ⟨p, hp, rfl, rfl⟩
      · exact .inl (.inl hold)
      · exact .inr (hhome p hp)
    · exact .inl (.inr hr)
  pinned r := by
    rw [h.cluster, Cluster.places_eq]
    exact le_rfl

/-- A group is balanced, from the beginning to the end; nothing happens while the lock that keeps
other placements away is taken. -/
def balanced (w : World) (name : String) : World := (run (Coordinator.balance name) w).2.letGo

theorem even_letGo (w : World) : w.Even w.letGo := .of_site rfl rfl rfl

/-- Where nothing fails, the balance of a group is even. -/
theorem even_balanced (name : String) (hw : w.Healthy) (hn : w.site.registry.Named) :
    w.Even (w.balanced name) := by
  refine Even.trans ?_ (even_letGo _)
  by_cases hlock : w.locks.isFree .placement false = true
  · have hgranted : w.Even (w.granted .placement) := .of_site rfl rfl rfl
    have hbalance : (Coordinator.balance name).Ensures
        (Terms.answered fun _ x => w.Even x).rule (fun _ x => w.Even x) w := by
      refine Terms.ensures_balance_strict trivial hw.obliging hn hlock (fun x _ hx => ?_)
        fun g x hg hx => ?_
      · exact hgranted.trans (hx.applies.even fun p hp => absurd hp List.not_mem_nil)
      · have hname : g.name = name := hn hg
        rw [proposes_balanceAsks hw.script] at hx
        refine (hgranted.trans (hx.toApplies.even fun p hp => ?_)).trans (.of_site rfl rfl rfl)
        obtain ⟨hmember, howns⟩ := balancePlan_home (by rw [hname]; exact hg) hp
        exact ⟨g.name, howns, hmember⟩
    have hends := Terms.run_ends hbalance
    rcases hrun : run (Coordinator.balance name) w with ⟨progress, x⟩
    rw [hrun] at hends
    cases progress with
    | waiting rest => exact absurd trivial hends.1
    | _ => exact hends
  · have hmeet : w.meet (.lock .placement false .operation) = (.waiting, w) := by
      simp only [meet, hlock, Bool.false_eq_true, if_false]
    have hrun : (run (Coordinator.balance name) w).2 = w := by
      show (run (.ask (.lock .placement false .operation) _) w).2 = w
      rw [run, hmeet]
    rw [hrun]
    exact .refl w

/-! ### The largest pin -/

/-- The largest pin of the regions that are astray on some servers; zero if there are none. -/
def largestPin (w : World) (servers : ServerSet) (target : String) : Nat :=
  ((servers.toList.flatMap (w.strays target)).map w.site.cluster.pinned).foldr max 0

theorem le_foldr_max {l : List Nat} (h : n ∈ l) : n ≤ l.foldr max 0 := by
  induction l with
  | nil => exact absurd h List.not_mem_nil
  | cons k l ih =>
    rcases List.mem_cons.1 h with rfl | h
    · exact le_max_left _ _
    · exact (ih h).trans (le_max_right _ _)

theorem pinned_le_largestPin (hn : w.site.registry.Named) (ht : target ∈ w.site.registry.groups)
    (hs : s ∈ servers) (h : w.Astray target r s) :
    w.site.cluster.pinned r ≤ w.largestPin servers target :=
  le_foldr_max (List.mem_map_of_mem (List.mem_flatMap.2
    ⟨s, Std.ExtTreeSet.mem_toList.2 hs, (mem_strays hn ht).2 h⟩))

/-! ### Drains under way, and drains that are over -/

/-- Some servers are those of a group, and of no other. -/
structure Enlisted (w : World) (servers : ServerSet) (target : String) : Prop where
  healthy : w.Healthy
  partitioned : w.site.registry.Partitioned
  group : target ∈ w.site.registry.groups
  members : ∀ s ∈ servers, w.site.registry.HasServer target s

theorem Enlisted.even (h : w.Enlisted servers target) (he : w.Even w') :
    w'.Enlisted servers target := by
  obtain ⟨hhealthy, hpartitioned, hgroup, hmembers⟩ := h
  rw [← he.registry] at hpartitioned hgroup hmembers
  exact ⟨he.healthy hhealthy, hpartitioned, hgroup, hmembers⟩

/-- A region that is astray on an enlisted server was so before. -/
theorem Enlisted.astray (h : w.Enlisted servers target) (he : w.Even w') (hs : s ∈ servers)
    (hr : w'.Astray target r s) : w.Astray target r s := by
  obtain ⟨hon, howns⟩ := hr
  rw [he.registry] at howns
  rcases he.on r s hon with hold | ⟨k, hk, hmember⟩
  · exact ⟨hold, howns⟩
  · -- at home it would be on a server of the owner of its table, which is the target
    obtain rfl := h.partitioned.server hmember (h.members s hs)
    exact absurd hk howns

/-- A drain is under way after `n` passes; the pins of what is astray are bounded by `P - n`. -/
structure Draining (P n number : Nat) (m : Move) (servers : ServerSet) (target : String)
    (w : World) : Prop extends w.Enlisted servers target where
  keyed : w.site.cluster.Keyed
  running : w.Running number m
  moved : m.target = target
  passes : m.passes = n
  pending : ∀ s ∈ m.pending, s ∈ servers
  bound : n ≤ P + 1
  astray : ∀ r s, s ∈ servers → w.Astray target r s → s ∈ m.pending ∧ n + w.site.cluster.pinned r ≤ P

/-- A drain is over after at most `P + 2` passes, and nothing is astray. -/
structure Drained (P number : Nat) (servers : ServerSet) (target : String) (w : World) : Prop
    extends w.Enlisted servers target where
  completed : ∃ m, w.moves[number]? = some m ∧ m.ending = some .completed ∧ m.phase = .settled ∧
    m.passes ≤ P + 2
  clear : ∀ r s, s ∈ servers → ¬ w.Astray target r s

theorem Draining.even (h : w.Draining P n number m servers target) (he : w.Even w') :
    w'.Draining P n number m servers target where
  toEnlisted := h.toEnlisted.even he
  keyed := he.keyed h.keyed
  running := by
    unfold Running
    rw [he.moves]
    exact h.running
  moved := h.moved
  passes := h.passes
  pending := h.pending
  bound := h.bound
  astray r s hs hr := by
    obtain ⟨hpending, hpin⟩ := h.astray r s hs (h.toEnlisted.astray he hs hr)
    have hle := he.pinned r
    exact ⟨hpending, by omega⟩

theorem Drained.even (h : w.Drained P number servers target) (he : w.Even w') :
    w'.Drained P number servers target where
  toEnlisted := h.toEnlisted.even he
  completed := by
    rw [he.moves]
    exact h.completed
  clear r s hs hr := h.clear r s hs (h.toEnlisted.astray he hs hr)

/-- Before the first pass the bound may be taken from the world itself. -/
theorem Draining.restart (h : w.Draining P 0 number m servers target) :
    w.Draining (w.largestPin servers target) 0 number m servers target :=
  { h with
    bound := Nat.zero_le _
    astray := fun r s hs hr => ⟨(h.astray r s hs hr).1, by
      rw [Nat.zero_add]
      exact pinned_le_largestPin h.partitioned.named h.group hs hr⟩ }

theorem Draining.mem_busy (h : w.Draining P n number m servers target) :
    s ∈ w.busy m ↔ s ∈ m.pending ∧ ∃ r, w.Astray target r s := by
  have hmem := World.mem_busy (s := s) (m := m) h.partitioned.named (by rw [h.moved]; exact h.group)
  rwa [h.moved] at hmem

/-- What is astray after a pass was so before. -/
theorem Draining.astray_before {rs : List Region} {m' : Move}
    (hx : (w.setMove number m').Asks rs x) (hr : x.Astray target r s) : w.Astray target r s := by
  obtain ⟨hon, howns⟩ := hr
  rw [hx.registry] at howns
  exact ⟨hx.on hon, howns⟩

theorem Draining.enlisted (h : w.Draining P n number m servers target)
    (hw' : w.Swept number m w') : w'.Enlisted servers target := by
  obtain ⟨hregistry, -, hhealthy⟩ := hw'.services
  refine ⟨hhealthy h.healthy, ?_, ?_, ?_⟩ <;> rw [hregistry]
  · exact h.partitioned
  · exact h.group
  · exact h.members

/-- After a pass that found strays every region that is astray has lost one of its pin. -/
theorem Draining.goesOn (h : w.Draining P n number m servers target)
    (asks : (w.setMove number m.drain).Asks (w.asked m) x) (busy : w.busy m ≠ []) :
    ∃ m', (x.passed number m.drain (.returned (w.busy m))).Draining P (n + 1) number m' servers
      target := by
  refine ⟨{ m.drain with
      pending := w.busy m
      passes := m.passes + 1
      wake := x.now + m.interval.waitMilliseconds
      interval := x.config.nextInterval m.interval },
    h.enlisted (.goesOn asks busy), ?_, ?_, h.moved, ?_, fun s hs => ?_, ?_, fun r s hs hr => ?_⟩
  · show x.site.cluster.Keyed
    rw [asks.cluster]
    exact Cluster.Keyed.requests h.keyed _
  · have hdrain : (w.setMove number m.drain).Running number m.drain :=
      h.running.setMove h.running.2
    exact (asks.running.2 hdrain).setMove h.running.2
  · exact congrArg (· + 1) h.passes
  · exact h.pending s (h.mem_busy.1 hs).1
  · -- what was astray before the pass still had a pin, or none was needed
    obtain ⟨s, hs⟩ := List.exists_mem_of_ne_nil _ busy
    obtain ⟨hpending, r, hr⟩ := h.mem_busy.1 hs
    have hpin := (h.astray r s (h.pending s hpending) hr).2
    omega
  · have hbefore : w.Astray target r s := astray_before asks hr
    obtain ⟨hpending, hpin⟩ := h.astray r s hs hbefore
    refine ⟨h.mem_busy.2 ⟨hpending, r, hbefore⟩, ?_⟩
    have hasked : r ∈ w.asked m := by
      refine (mem_asked h.partitioned.named (by rw [h.moved]; exact h.group)).2 ⟨s, hpending, ?_⟩
      rw [h.moved]
      exact hbefore
    have hcluster : x.site.cluster = w.site.cluster.requests (w.asked m) := asks.cluster
    have hlt := Cluster.pinned_requests_lt h.keyed hasked (hcluster ▸ hr.1)
    show n + 1 + x.site.cluster.pinned r ≤ P
    rw [hcluster]
    omega

/-- After a pass that found no strays nothing is astray. -/
theorem Draining.settles (h : w.Draining P n number m servers target) {ending : Ending}
    (same : (w.setMove number m.drain.settle).Same x) (idle : w.busy m = [])
    (completed : w.Healthy → ending = .completed) :
    (x.endMove number m.drain.settle ending).Drained P number servers target := by
  refine ⟨h.enlisted (.settles same idle completed),
    ⟨{ m.drain.settle with ending := some ending }, ?_, ?_, rfl, ?_⟩, fun r s hs hr => ?_⟩
  · have hsettle : (w.setMove number m.drain.settle).Running number m.drain.settle :=
      h.running.setMove h.running.2
    have hrunning := same.running.2 hsettle
    obtain ⟨hlt, -⟩ := Array.getElem?_eq_some_iff.1 hrunning.1
    show (x.moves.setIfInBounds number _)[number]? = _
    rw [Array.getElem?_setIfInBounds_self_of_lt hlt]
  · rw [completed h.healthy]
  · show m.passes + 1 ≤ P + 2
    rw [h.passes]
    exact Nat.succ_le_succ h.bound
  · have hbefore : w.Astray target r s := astray_before same hr
    have hbusy := h.mem_busy.2 ⟨(h.astray r s hs hbefore).1, r, hbefore⟩
    rw [idle] at hbusy
    exact absurd hbusy List.not_mem_nil

/-- After a pass a drain is under way with one pass more, or over. -/
theorem Draining.pass (h : w.Draining P n number m servers target) (hw' : w.Swept number m w') :
    (∃ m', w'.Draining P (n + 1) number m' servers target) ∨
      w'.Drained P number servers target := by
  cases hw' with
  | goesOn asks busy => exact .inl (h.goesOn asks busy)
  | settles same idle completed => exact .inr (h.settles same idle completed)
  | fails asks unhealthy => exact absurd h.healthy unhealthy
  | crashes asks unhealthy => exact absurd h.healthy unhealthy

/-! ### Turns -/

/-- Between two passes only even things happen. -/
theorem Enlisted.even_turn (h : w.Enlisted servers target) {t : Turn String} (ht : t ≠ .pass) :
    w.Even (w.turn balanced handle t) := by
  cases t with
  | around name => exact even_balanced name h.healthy h.partitioned.named
  | tick time => exact .of_site rfl rfl rfl
  | pass => exact absurd rfl ht

theorem Drained.over (h : w.Drained P number servers target) : w.Over (some number) := by
  intro k m hk hm
  obtain rfl := Option.some.inj hk
  obtain ⟨m', hm', he, -⟩ := h.completed
  obtain rfl := Option.some.inj (hm.symm.trans hm')
  simp [he]

theorem Drained.turn (h : w.Drained P number servers target) (t : Turn String) :
    (w.turn balanced (some number) t).Drained P number servers target := by
  by_cases ht : t = .pass
  · subst ht
    show (w.nextPass (some number)).Drained P number servers target
    rw [nextPass_of_over h.over]
    exact h
  · exact h.even (h.toEnlisted.even_turn ht)

/-- Turns without a pass leave a drain as it is. -/
theorem Draining.after_balances {turns : List (Turn String)} : ∀ {w : World},
    w.Draining P n number m servers target → .pass ∉ turns →
      (w.after balanced (some number) turns).Draining P n number m servers target := by
  induction turns with
  | nil => exact fun h _ => h
  | cons t turns ih =>
    intro w h hpass
    rw [List.mem_cons, not_or] at hpass
    exact ih (h.even (h.toEnlisted.even_turn (Ne.symm hpass.1))) hpass.2

theorem Drained.after {turns : List (Turn String)} : ∀ {w : World},
    w.Drained P number servers target →
      (w.after balanced (some number) turns).Drained P number servers target := by
  induction turns with
  | nil => exact fun h => h
  | cons t turns ih => exact fun h => ih (h.turn t)

/-- Whatever the turns, a drain is under way after as many passes as there were, or over. -/
theorem Draining.after {turns : List (Turn String)} : ∀ {w : World} {n : Nat} {m : Move},
    w.Draining P n number m servers target →
      (∃ m', (w.after balanced (some number) turns).Draining P
        (n + turns.count .pass) number m' servers target) ∨
      (w.after balanced (some number) turns).Drained P number servers
        target := by
  induction turns with
  | nil => exact fun h => .inl ⟨_, h⟩
  | cons t turns ih =>
    intro w n m h
    by_cases ht : t = .pass
    · subst ht
      rw [List.count_cons_self,
        show n + (turns.count .pass + 1) = n + 1 + turns.count .pass by omega]
      have hpass : w.Swept number m (w.nextPass (some number)) := by
        rw [nextPass_of_running h.running]
        exact swept_pass w number m
      rcases h.pass hpass with ⟨m', h'⟩ | h'
      · exact ih h'
      · exact .inr h'.after
    · rw [List.count_cons_of_ne ht]
      exact ih (h.even (h.toEnlisted.even_turn ht))

/-! ### From the start to the end -/

/-- Nothing fails, and the registry and the cluster are in order. -/
structure Orderly (w : World) : Prop extends w.Healthy where
  partitioned : w.site.registry.Partitioned
  keyed : w.site.cluster.Keyed

theorem Orderly.swept (h : w.Orderly) (hw' : w.Swept number m w') : w'.Orderly := by
  obtain ⟨hregistry, ⟨rs, hcluster⟩, hhealthy⟩ := hw'.services
  refine ⟨hhealthy h.toHealthy, ?_, ?_⟩
  · rw [hregistry]
    exact h.partitioned
  · rw [hcluster]
    exact Cluster.Keyed.requests h.keyed rs

/-- The drain of a move that has been started is under way, if the move has servers. -/
theorem draining_of_startMove (hw : w.Orderly)
    (h : w.operate (.startMove servers target) = (.returned handle, w')) :
    (handle = none ∧ servers.toList = []) ∨
      ∃ number m P, handle = some number ∧ w'.Draining P 0 number m servers target := by
  rcases startMove_cases (J := Orderly) (fun v hv => hv.partitioned.named)
    (fun v time hv => ⟨⟨hv.toReliable, hv.faults⟩, hv.partitioned, hv.keyed⟩)
    (fun v v' number m hv hv' => hv.swept hv') hw h with hnone | ⟨v, source, x, hv, hx, rfl, rfl⟩
  · exact .inl hnone
  · refine .inr ⟨v.moves.size, Move.start v.config servers source target v.now,
      x.largestPin servers target, rfl, Draining.even ?_ (even_letGo x)⟩
    have hpartitioned := hx.partitioned hv.partitioned
    refine ⟨⟨hx.healthy hv.toHealthy, hpartitioned, hx.mem_groups, hx.hasServer⟩, ?_,
      ⟨hx.getElem?_moves, rfl⟩, rfl, rfl, fun s hs => Std.ExtTreeSet.mem_toList.1 hs,
      Nat.zero_le _, fun r s hs hr => ⟨Std.ExtTreeSet.mem_toList.2 hs, ?_⟩⟩
    · rw [hx.cluster]
      exact hv.keyed
    · rw [Nat.zero_add]
      exact pinned_le_largestPin hpartitioned.named hx.mem_groups hs hr

theorem Enlisted.only (h : w.Enlisted servers target) : ∀ s ∈ servers,
    w.site.registry.HasServer target s ∧ ∀ k, w.site.registry.HasServer k s → k = target :=
  fun s hs => ⟨h.members s hs, fun _ hk => h.partitioned.server hk (h.members s hs)⟩

theorem Draining.not_over (h : w.Draining P n number m servers target) : ¬ w.Over (some number) :=
  fun hover => hover number m rfl h.running.1 h.running.2

theorem Draining.passesOf (h : w.Draining P n number m servers target) :
    w.passesOf (some number) = n := by
  simp [World.passesOf, h.running.1, h.passes]

theorem Drained.passesOf_le (h : w.Drained P number servers target) :
    w.passesOf (some number) ≤ P + 2 := by
  obtain ⟨m, hm, -, -, hpasses⟩ := h.completed
  simp [World.passesOf, hm, hpasses]

theorem Drained.phaseOf (h : w.Drained P number servers target) :
    Scenario.phaseOf w (some number) = .settled := by
  obtain ⟨m, hm, -, hphase, -⟩ := h.completed
  simp [Scenario.phaseOf, hm, hphase]

theorem Drained.await (h : w.Drained P number servers target) :
    (w.await (some number)).1 = .returned () := by
  obtain ⟨m, hm, he, -⟩ := h.completed
  rw [await_of_completed hm he]

/-- **Drains end.**  Where nothing fails, and whatever groups are balanced between the passes: a
move of servers takes at most two passes more than the largest pin of the regions that are astray
on its servers when its drain starts; then the wait for it returns, its servers belong to its
target and to no other group, and nothing is astray on them. -/
theorem drain_settles (hw : w.Healthy) (hp : w.site.registry.Partitioned)
    (hk : w.site.cluster.Keyed)
    (h : w.operate (.startMove servers target) = (.returned handle, w'))
    {before : List (Turn String)} (hbefore : .pass ∉ before) (turns : List (Turn String)) :
    let started := w'.after balanced handle before
    let P := started.largestPin servers target
    let now := started.after balanced handle turns
    now.passesOf handle ≤ P + 2 ∧
      (P + 2 ≤ turns.count .pass → now.Over handle) ∧
      (∀ s ∈ servers, now.site.registry.HasServer target s ∧
        ∀ k, now.site.registry.HasServer k s → k = target) ∧
      (now.Over handle → Scenario.phaseOf now handle = .settled ∧
        (now.await handle).1 = .returned () ∧
        ∀ s ∈ servers, ∀ r, ¬ now.Astray target r s) := by
  intro started P now
  rcases draining_of_startMove ⟨hw, hp, hk⟩ h with ⟨rfl, hempty⟩ | ⟨number, m, P₀, rfl, hdraining⟩
  · have hnone : ∀ s, s ∉ servers := fun s hs => by
      rw [← Std.ExtTreeSet.mem_toList, hempty] at hs
      exact List.not_mem_nil hs
    refine ⟨Nat.zero_le _, fun _ number m hnumber => ?_, fun s hs => absurd hs (hnone s),
      fun _ => ⟨rfl, rfl, fun s hs => absurd hs (hnone s)⟩⟩
    cases hnumber
  · obtain ⟨m', hstarted⟩ : ∃ m', started.Draining P 0 number m' servers target := by
      have hbalanced := hdraining.after_balances hbefore
      exact ⟨m, hbalanced.restart⟩
    have hend : (∃ m'', now.Draining P (0 + turns.count .pass) number m'' servers target) ∨
        now.Drained P number servers target := hstarted.after
    rcases hend with ⟨m'', hnow⟩ | hnow
    · have hcount := hnow.bound
      refine ⟨?_, fun hmany => ?_, hnow.toEnlisted.only, fun hover => absurd hover hnow.not_over⟩
      · rw [hnow.passesOf]
        omega
      · omega
    · refine ⟨hnow.passesOf_le, fun _ => hnow.over, hnow.toEnlisted.only, fun _ => ?_⟩
      exact ⟨hnow.phaseOf, hnow.await, fun s hs r => hnow.clear r s hs⟩

theorem healthy_paired : paired.Healthy := ⟨⟨rfl, fun _ h => (by cases h), rfl⟩, rfl⟩

theorem keyed_paired : paired.site.cluster.Keyed :=
  Site.keyed_change (Cluster.keyed_ofServers _) (.region ⟨⟨"default", "t1"⟩, "r1"⟩ _)

/-- The first server moves to the new group, and `default` is balanced between the passes: the
region on the server is not pinned, so the second pass is the last one. -/
theorem drain_settles_leaving :
    let now := leaving.after balanced (some 0) [.pass, .around defaultGroup, .pass]
    now.passesOf (some 0) ≤ 2 ∧ now.Over (some 0) ∧
      now.site.registry.HasServer "a" ⟨"rs1", 1⟩ ∧
      Scenario.phaseOf now (some 0) = .settled ∧ (now.await (some 0)).1 = .returned () ∧
      ∀ r, ¬ now.Astray "a" r ⟨"rs1", 1⟩ := by
  intro now
  have hstarted : paired.operate (.startMove {⟨"rs1", 1⟩} "a") = (.returned (some 0), leaving) := by
    rfl
  have hmem : (⟨"rs1", 1⟩ : ServerAddress) ∈ ({⟨"rs1", 1⟩} : ServerSet) := by decide +kernel
  have hbefore : (.pass : Turn String) ∉ [] := List.not_mem_nil
  obtain ⟨hpasses, hover, hmembers, hclear⟩ := drain_settles healthy_paired partitioned_paired
    keyed_paired hstarted hbefore [.pass, .around defaultGroup, .pass]
  have hnone : (leaving.after balanced (some 0) []).largestPin {⟨"rs1", 1⟩} "a" = 0 := by
    decide +kernel
  rw [hnone] at hpasses hover
  have hdone := hover (by decide)
  obtain ⟨hphase, hawait, hastray⟩ := hclear hdone
  exact ⟨hpasses, hdone, (hmembers _ hmem).1, hphase, hawait, hastray _ hmem⟩

end World

end ServerGroups
