/-
ServerGroups/Proofs/Runs/ServerMove.lean

What the start of a move of servers comes to.

A move is looked into under the membership lock: until the registry is asked
to move the servers, at most they have been reserved (`World.Checks`).  It is
refused only if there is no group that the servers may leave for the target
(`World.Forbids`).  If the start returns, there is one (`World.Admits`), the
registry has moved all of the servers from it to the target, and a drain has
started, which holds the lock and the reservation (`World.Launches`).

Design.  All of these speak of the world in which the lock was free, so they
hold whatever the operation had to wait for.  Each check has a lemma that tells
what passing it says and what being refused by it says; that a service failed
is said once for all of them, by `Terms.Allows`.
-/
import ServerGroups.Proofs.Collections
import ServerGroups.Proofs.Runs.Requests

namespace ServerGroups

open Program

namespace World

variable {w w' x : World} {servers : ServerSet} {source target : String}

/-! ### Legal moves -/

/-- Some servers may leave a group for a target: nobody is moving them, they all belong to the group
and the target is another one, servers that leave `default` are online, and a group that pins tables
keeps a server. -/
structure Admits (w : World) (servers : ServerSet) (source : Group) (target : String) : Prop where
  unreserved : ∀ s ∈ servers, w.reservations.target? s = none
  name : target ≠ ""
  there : target ∈ w.site.registry.groups
  stored : w.site.registry.groups[source.name]? = some source
  differ : source.name ≠ target
  members : ∀ s ∈ servers, s ∈ source.servers
  online : source.name = defaultGroup → ∀ s ∈ servers, s ∈ w.site.cluster.online
  staffed : servers = source.servers → source.tables = ∅

/-- Where members are partitioned, there is no group that some servers may leave for a target. -/
def Forbids (w : World) (servers : ServerSet) (target : String) : Prop :=
  w.site.registry.Partitioned → ∀ g, ¬ w.Admits servers g target

theorem Admits.congr {g : Group} (h : w.Admits servers g target)
    (hregistry : w'.site.registry = w.site.registry)
    (honline : w'.site.cluster.online = w.site.cluster.online)
    (hreservations : w'.reservations = w.reservations) : w'.Admits servers g target where
  unreserved := by
    rw [hreservations]
    exact h.unreserved
  name := h.name
  there := by
    rw [hregistry]
    exact h.there
  stored := by
    rw [hregistry]
    exact h.stored
  differ := h.differ
  members := h.members
  online := by
    rw [honline]
    exact h.online
  staffed := h.staffed

theorem admits_granted {l : Lock} {g : Group} :
    (w.granted l).Admits servers g target ↔ w.Admits servers g target :=
  ⟨fun h => h.congr (by rfl) (by rfl) (by rfl), fun h => h.congr (by rfl) (by rfl) (by rfl)⟩

theorem forbids_granted {l : Lock} :
    (w.granted l).Forbids servers target ↔ w.Forbids servers target :=
  imp_congr_right fun _ => forall_congr' fun _ => not_congr admits_granted

theorem Asks.admits (h : w.Same x) {g : Group} :
    x.Admits servers g target ↔ w.Admits servers g target := by
  have honline : x.site.cluster.online = w.site.cluster.online := by
    rw [h.cluster]
    rfl
  exact ⟨fun hx => hx.congr h.registry.symm honline.symm h.reservations.symm,
    fun hw => hw.congr h.registry honline h.reservations⟩

theorem Asks.forbids (h : w.Same x) : x.Forbids servers target ↔ w.Forbids servers target := by
  simp only [Forbids, h.admits, h.registry]

theorem Admits.conflict?_eq_none {g : Group} (h : w.Admits servers g target) :
    w.reservations.conflict? servers = none :=
  Reservations.conflict?_eq_none.2 h.unreserved

/-- The group that servers may leave is the one that any of them is found in. -/
theorem Admits.source_eq {g g' : Group} {s : ServerAddress} (h : w.Admits servers g target)
    (hp : w.site.registry.Partitioned) (hs : s ∈ servers)
    (hg' : w.site.registry.groups[g'.name]? = some g') (hs' : s ∈ g'.servers) : g = g' := by
  have hname : g.name = g'.name := hp.server ⟨g, h.stored, h.members s hs⟩ ⟨g', hg', hs'⟩
  exact Option.some.inj (h.stored.symm.trans (hname ▸ hg'))

/-! ### The start of a move -/

/-- A move has been looked into: at most its servers have been reserved. -/
structure Checks (servers : ServerSet) (target : String) (w x : World) : Prop where
  registry : x.site.registry = w.site.registry
  cluster : x.site.cluster = w.site.cluster
  moves : x.moves = w.moves
  locks : x.locks = w.locks
  reserved : (x.reservations = w.reservations ∧ x.held = w.held) ∨
    (w.reservations.reserve servers target = .ok x.reservations ∧ x.held = servers)

theorem Asks.checks (h : w.Same x) : w.Checks servers target x :=
  ⟨h.registry, h.cluster, h.moves, h.locks, .inl ⟨h.reservations, h.held⟩⟩

/-- Servers have been reserved and moved from one group to another. -/
structure Enrolls (servers : ServerSet) (source target : String) (w x : World) : Prop where
  name : target ≠ ""
  differ : source ≠ target
  members : ∀ s ∈ servers, w.site.registry.HasServer source s
  change : ∃ moved, w.site.registry.moveServers servers source target = .ok (moved, x.site.registry)
  cluster : x.site.cluster = w.site.cluster
  healthy : w.Healthy → x.Healthy
  config : x.config = w.config
  moves : x.moves = w.moves
  locks : x.locks = w.locks
  reserved : w.reservations.reserve servers target = .ok x.reservations
  held : x.held = servers
  now : x.now = w.now

theorem Enrolls.trans_same (h : w.Enrolls servers source target w') (h' : w'.Same x) :
    w.Enrolls servers source target x where
  name := h.name
  differ := h.differ
  members := h.members
  change := by
    rw [h'.registry]
    exact h.change
  cluster := h'.cluster.trans h.cluster
  healthy hw := h'.healthy (h.healthy hw)
  config := h'.config.trans h.config
  moves := h'.moves.trans h.moves
  locks := h'.locks.trans h.locks
  reserved := by
    rw [h'.reservations]
    exact h.reserved
  held := h'.held.trans h.held
  now := h'.now.trans h.now

/-- The answered change of the registry, after looks and the reservation. -/
theorem enrolls_of_answered {reservations : Reservations} {moved : ServerSet} {g : Group}
    (hg : w.Admits servers g target) (hw' : w.Same w')
    (hr : w.reservations.reserve servers target = .ok reservations)
    (h : ({ w' with reservations, held := servers } : World).meet
      (.call (.moveServers servers g.name target)) = (.answered moved, x)) :
    w.Enrolls servers g.name target x := by
  have hwrites := writes_of_answered rfl h
  exact
    { name := hg.name
      differ := hg.differ
      members := fun s hs => ⟨g, hg.stored, hg.members s hs⟩
      change := ⟨moved, Registry.Serves.moveServers ⟨_, hw'.registry, (answered_call h).1,
        congrArg Site.registry (answered_call h).2.symm⟩⟩
      cluster := hwrites.cluster.trans hw'.cluster
      healthy := fun hw =>
        hwrites.healthy ⟨(hw'.healthy hw).toReliable, (hw'.healthy hw).faults⟩
      config := hwrites.config.trans hw'.config
      moves := hwrites.moves.trans hw'.moves
      locks := hwrites.locks.trans hw'.locks
      reserved := by
        rw [hwrites.reservations]
        exact hr
      held := hwrites.held
      now := hwrites.now.trans hw'.now }

/-- A move has been started by an operation that found the membership lock free. -/
structure Launches (servers : ServerSet) (source target : String) (w x : World) : Prop where
  nonempty : servers.toList ≠ []
  free : w.locks.isFree .membership false = true
  name : target ≠ ""
  differ : source ≠ target
  members : ∀ s ∈ servers, w.site.registry.HasServer source s
  change : ∃ moved, w.site.registry.moveServers servers source target = .ok (moved, x.site.registry)
  cluster : x.site.cluster = w.site.cluster
  healthy : w.Healthy → x.Healthy
  moves : x.moves = w.moves.push (Move.start w.config servers source target w.now)
  locks : x.locks = (w.granted .membership).locks.handOver .membership .operation (.move w.moves.size)
  reserved : w.reservations.reserve servers target = .ok x.reservations
  held : x.held = ∅

theorem Launches.hasServer (h : w.Launches servers source target x) :
    ∀ s ∈ servers, x.site.registry.HasServer target s := by
  intro s hs
  obtain ⟨moved, hmoved⟩ := h.change
  exact (Registry.hasServer_moveServers hmoved).2 (.inl ⟨rfl, hs, h.members s hs⟩)

theorem Launches.mem_groups (h : w.Launches servers source target x) :
    target ∈ x.site.registry.groups := by
  obtain ⟨moved, hmoved⟩ := h.change
  exact (Registry.mem_moveServers hmoved).2 (Registry.moveServers_eq_ok.1 hmoved).1

theorem Launches.partitioned (h : w.Launches servers source target x)
    (hw : w.site.registry.Partitioned) : x.site.registry.Partitioned := by
  obtain ⟨moved, hmoved⟩ := h.change
  exact hw.moveServers hmoved

theorem Launches.named (h : w.Launches servers source target x) (hw : w.site.registry.Named) :
    x.site.registry.Named := by
  obtain ⟨moved, hmoved⟩ := h.change
  exact Registry.named_moveServers hw hmoved

theorem Launches.getElem?_moves (h : w.Launches servers source target x) :
    x.moves[w.moves.size]? = some (Move.start w.config servers source target w.now) := by
  rw [h.moves]
  exact Array.getElem?_push_size

end World

/-! ### Programs -/

namespace Coordinator

variable {servers : ServerSet} {target : String} {first : ServerAddress}

/-- Starts a move of servers one of which is given, and whose group is taken as the source. -/
def startMoveBy (first : ServerAddress) (servers : ServerSet) (target : String) :
    Program (Option Nat) := do
  let reserved ← ask .reservations done
  match Reservations.conflict? reserved servers with
  | some cause => refuse cause
  | none =>
    ask (.lock .membership false .operation) done
    let (source, goal) ← changeMembership first servers target
    let number ← ask (.launch servers source.name goal.name) done
    pure (some number)

theorem startMove_eq_nil (h : servers.toList = []) : startMove servers target = (do
    note .noServersToMove
    pure none) := by
  unfold startMove
  rw [h]

theorem startMove_eq_startMoveBy {rest : List ServerAddress} (h : servers.toList = first :: rest) :
    startMove servers target = startMoveBy first servers target := by
  unfold startMove
  rw [h]
  rfl

end Coordinator

namespace Terms

open Coordinator World

variable {T : Terms} {w : World} {servers : ServerSet} {target : String}

/-- The target of a move is looked up, and the move is refused if it has no name or is not there. -/
theorem ensures_targetGroup (hT : T.Allows w) (hn : w.site.registry.Named)
    (hstop : ∀ cause x, target = "" ∨ w.site.registry.groups[target]? = none → w.Same x →
      T.stops (some (.refused cause)) x)
    {post : Group → World → Prop}
    (h : ∀ g x, w.Same x → target ≠ "" → g.name = target →
      w.site.registry.groups[target]? = some g → post g x) :
    (targetGroup target).Ensures T.rule post w := by
  unfold targetGroup
  rw [ensures_bind, Program.ensures_refuseIf]
  refine ⟨fun hempty => hstop _ w (.inl hempty) (.refl w), fun hname => ?_⟩
  rw [ensures_bind]
  refine ensures_look hT _ rfl (fun _ => rfl) fun x hx => ?_
  rcases hg : w.site.registry.group? target with - | g
  · exact hstop _ x (.inr hg) hx
  · exact h g x hx hname (hn hg) hg

/-- The group of a server is looked up, and the move is refused if there is none. -/
theorem ensures_groupOf {s : ServerAddress} (hT : T.Allows w) (hn : w.site.registry.Named)
    (hstop : ∀ cause x, w.site.registry.groupOfServer? s = none → w.Same x →
      T.stops (some (.refused cause)) x)
    {post : Group → World → Prop}
    (h : ∀ g x, w.Same x → w.site.registry.groups[g.name]? = some g → s ∈ g.servers → post g x) :
    (groupOf s).Ensures T.rule post w := by
  unfold groupOf
  rw [ensures_bind]
  refine ensures_look hT _ rfl (fun _ => rfl) fun x hx => ?_
  rcases hg : w.site.registry.groupOfServer? s with - | g
  · exact hstop _ x hg hx
  · obtain ⟨hg', hs⟩ := Registry.groupOfServer?_some hn hg
    exact h g x hx hg' hs

/-- Servers that leave `default` are online, or the move is refused. -/
theorem ensures_checkOnline {source : Group} (hT : T.Allows w)
    (hstop : ∀ cause x, source.name = defaultGroup →
      (∃ s ∈ servers, s ∉ w.site.cluster.online) → w.Same x → T.stops (some (.refused cause)) x)
    {post : Unit → World → Prop}
    (h : ∀ x, w.Same x → (source.name = defaultGroup → ∀ s ∈ servers, s ∈ w.site.cluster.online) →
      post () x) :
    (checkOnline source servers).Ensures T.rule post w := by
  unfold checkOnline
  split
  · next hdefault =>
    have hname : source.name = defaultGroup := by simpa [Group.isDefault] using hdefault
    rw [ensures_bind]
    refine ensures_look hT _ rfl (fun _ => rfl) fun x hx => ?_
    split
    · next s hfind =>
      have hs := Std.ExtTreeSet.mem_toList.1 (List.mem_of_find?_eq_some hfind)
      have hoffline := List.find?_some hfind
      refine hstop _ x hname ⟨s, hs, fun honline => ?_⟩ hx
      rw [Std.ExtTreeSet.contains_iff_mem.2 honline] at hoffline
      cases hoffline
    · next hfind =>
      refine h x hx fun _ s hs => ?_
      simpa using List.find?_eq_none.1 hfind s (Std.ExtTreeSet.mem_toList.2 hs)
  · next hdefault =>
    exact h w (.refl w) fun hname => absurd (by simpa [Group.isDefault] using hname) hdefault

/-- A server belongs to the source of its move, or the move is refused. -/
theorem ensures_checkSource {source : Group} {s : ServerAddress} (hT : T.Allows w)
    (hn : w.site.registry.Named)
    (hstop : ∀ cause x, (w.site.registry.Partitioned →
      ¬ w.site.registry.HasServer source.name s) → w.Same x → T.stops (some (.refused cause)) x)
    {post : Unit → World → Prop}
    (h : ∀ x, w.Same x → w.site.registry.HasServer source.name s → post () x) :
    (checkSource source s).Ensures T.rule post w := by
  unfold checkSource
  rw [ensures_bind]
  refine ensures_groupOf hT hn (fun cause x hnone hx => hstop cause x (fun _ => ?_) hx)
    fun g x hx hg hs => ?_
  · exact Registry.groupOfServer?_eq_none.1 hnone source.name
  rw [Program.ensures_refuseIf]
  refine ⟨fun hname => hstop _ x (fun hp hmember => ?_) hx, fun hname => h x hx ?_⟩
  · exact hname (hp.server ⟨g, hg, hs⟩ hmember)
  · rw [not_not] at hname
    exact ⟨g, hname ▸ hg, hs⟩

/-- Every server belongs to the source of their move, or the move is refused. -/
theorem ensures_checkSources {source : Group} (hT : T.Allows w) (hn : w.site.registry.Named)
    (hstop : ∀ cause x, (w.site.registry.Partitioned →
      ∃ s ∈ servers, ¬ w.site.registry.HasServer source.name s) → w.Same x →
        T.stops (some (.refused cause)) x)
    {post : Unit → World → Prop}
    (h : ∀ x, w.Same x → (∀ s ∈ servers, w.site.registry.HasServer source.name s) → post () x) :
    (servers.toList.forM (checkSource source)).Ensures T.rule post w := by
  have hloop : (servers.toList.forM (checkSource source)).Ensures T.rule (fun _ x => w.Same x ∧
      ∀ s ∈ servers.toList, w.site.registry.HasServer source.name s) w := by
    refine ensures_forM rule_monotone w.Same _ (fun s hs x hx => ?_) (.refl w)
    have hregistry := hx.registry
    refine ensures_checkSource (hT.same hx) (by rw [hregistry]; exact hn)
      (fun cause y hnot hy => ?_) fun y hy hmember => ?_
    · rw [hregistry] at hnot
      exact hstop cause y (fun hp => ⟨s, Std.ExtTreeSet.mem_toList.1 hs, hnot hp⟩)
        (hx.same_trans hy)
    · rw [hregistry] at hmember
      exact ⟨hx.same_trans hy, hmember⟩
  refine hloop.mono rule_monotone ?_
  rintro - x ⟨hx, hmembers⟩
  exact h x hx fun s hs => hmembers s (Std.ExtTreeSet.mem_toList.2 hs)

/-- A move finds out its target and its source before it does anything else. -/
theorem ensures_source {α : Type} (hT : T.Allows w) (hn : w.site.registry.Named)
    {first : ServerAddress} {rest : Group → Group → Program α}
    (hstop : ∀ cause x, target = "" ∨ w.site.registry.groups[target]? = none ∨
      w.site.registry.groupOfServer? first = none → w.Same x → T.stops (some (.refused cause)) x)
    {post : α → World → Prop}
    (h : ∀ source goal x, w.Same x → target ≠ "" → goal.name = target →
      w.site.registry.groups[target]? = some goal →
      w.site.registry.groups[source.name]? = some source → first ∈ source.servers →
        (rest source goal).Ensures T.rule post x) :
    (do
      hook (.preMoveServers servers target)
      let goal ← targetGroup target
      let source ← groupOf first
      rest source goal).Ensures T.rule post w := by
  have hnamed : ∀ {y}, w.Same y → y.site.registry.Named := fun hy => by
    rw [hy.registry]
    exact hn
  rw [ensures_bind]
  refine ensures_hook hT fun w₁ h₁ => ?_
  rw [ensures_bind]
  refine ensures_targetGroup (hT.same h₁) (hnamed h₁) (fun cause x hmissing hx => ?_)
    fun goal w₂ h₂ hname hgoal htarget => ?_
  · rw [h₁.registry] at hmissing
    exact hstop cause x (hmissing.imp_right .inl) (h₁.same_trans hx)
  have h₀₂ := h₁.same_trans h₂
  rw [ensures_bind]
  refine ensures_groupOf (hT.same h₀₂) (hnamed h₀₂) (fun cause x hnone hx => ?_)
    fun source w₃ h₃ hsource hfirst => ?_
  · rw [h₀₂.registry] at hnone
    exact hstop cause x (.inr (.inr hnone)) (h₀₂.same_trans hx)
  rw [h₁.registry] at htarget
  rw [h₀₂.registry] at hsource
  exact h source goal w₃ (h₀₂.same_trans h₃) hname hgoal htarget hsource hfirst

/-- What is checked once the target and the source of a move are known: only a move that is
forbidden is refused, and one that passes is legal unless some of its servers are reserved. -/
theorem ensures_checks {α : Type} (hT : T.Allows w) (hn : w.site.registry.Named)
    (hrefuse : ∀ cause x, w.Forbids servers target → w.Same x → T.stops (some (.refused cause)) x)
    {first : ServerAddress} (hfirst : first ∈ servers) {source goal : Group} (hname : target ≠ "")
    (hgoal : goal.name = target) (hmem : target ∈ w.site.registry.groups)
    (hsource : w.site.registry.groups[source.name]? = some source)
    (hmember : first ∈ source.servers) {rest : Program α} {post : α → World → Prop}
    (h : ∀ x, w.Same x →
      (w.reservations.conflict? servers = none → w.Admits servers source target) →
        rest.Ensures T.rule post x) :
    (do
      refuseIf (source.name = goal.name) (.sameGroup target)
      checkOnline source servers
      servers.toList.forM (checkSource source)
      refuseIf (source.servers.size ≤ servers.size ∧ source.tables.size ≠ 0)
        (.tablesWithoutServers source.name)
      rest).Ensures T.rule post w := by
  -- whichever server is looked at first, its group is the only one that the servers may leave
  have hforbids : ¬ w.Admits servers source target → w.Forbids servers target :=
    fun hnot hp g hg => hnot (hg.source_eq hp hfirst hsource hmember ▸ hg)
  rw [ensures_bind]
  refine Program.ensures_refuseIf.2 ⟨fun heq => ?_, fun hdiffer => ?_⟩
  · exact hrefuse _ w (hforbids fun hg => hg.differ (heq.trans hgoal)) (.refl w)
  rw [hgoal] at hdiffer
  rw [ensures_bind]
  refine ensures_checkOnline hT (fun cause x hdefault hoffline hx => ?_) fun w₁ h₁ honline => ?_
  · obtain ⟨s, hs, hoff⟩ := hoffline
    exact hrefuse cause x (hforbids fun hg => hoff (hg.online hdefault s hs)) hx
  have hregistry := h₁.registry
  rw [ensures_bind]
  refine ensures_checkSources (hT.same h₁) (by rw [hregistry]; exact hn)
    (fun cause x hstranger hx => ?_) fun w₂ h₂ hmembers => ?_
  · rw [hregistry] at hstranger
    refine hrefuse cause x (fun hp => hforbids (fun hg => ?_) hp) (h₁.same_trans hx)
    obtain ⟨s, hs, hnot⟩ := hstranger hp
    exact hnot ⟨source, hsource, hg.members s hs⟩
  rw [hregistry] at hmembers
  have h₀₂ := h₁.same_trans h₂
  have hsub : ∀ s ∈ servers, s ∈ source.servers := by
    intro s hs
    obtain ⟨g, hg, hmem⟩ := hmembers s hs
    rwa [← Option.some.inj (hsource.symm.trans hg)] at hmem
  rw [ensures_bind]
  refine Program.ensures_refuseIf.2 ⟨fun hpinning => ?_, fun hpinning => h w₂ h₀₂ fun hfree => ?_⟩
  · refine hrefuse _ w₂ (hforbids fun hg => ?_) h₀₂
    have hall : servers = source.servers := eq_of_subset_of_size_le hsub hpinning.1
    exact hpinning.2 (Std.ExtTreeSet.eq_empty_iff_size_eq_zero.1 (hg.staffed hall))
  · refine ⟨Reservations.conflict?_eq_none.1 hfree, hname, hmem, hsource, hdiffer, hsub, honline,
      fun hall => ?_⟩
    rw [not_and, not_not, hall] at hpinning
    exact Std.ExtTreeSet.eq_empty_iff_size_eq_zero.2 (hpinning le_rfl)

/-- Servers that may leave their group are reserved, and the registry moves them. -/
theorem ensures_enroll (hT : T.strict → w.Healthy) {source goal : Group}
    (hgoal : goal.name = target) {x : World} (hx : w.Same x)
    (hlegal : w.reservations.conflict? servers = none → w.Admits servers source target)
    (hconflict : ∀ cause, w.reservations.conflict? servers = some cause →
      T.stops (some (.refused cause)) x)
    (hfail : ¬ T.strict → ∀ cause x, w.Checks servers target x → T.stops cause x)
    (hfree : T.strict → w.reservations.conflict? servers = none)
    {post : Group × Group → World → Prop}
    (h : ∀ y, w.Admits servers source target → w.Enrolls servers source.name target y →
      post (source, goal) y) :
    (do
      ask (.reserve servers goal.name) done
      let moved ← call (.moveServers servers source.name goal.name)
      note (.serversMoved moved.size source.name goal.name)
      pure (source, goal)).Ensures T.rule post x := by
  rw [ensures_bind, hgoal]
  rw [← hx.reservations] at hconflict
  refine ensures_reserve hconflict (fun hs => by rw [hx.reservations]; exact hfree hs)
    fun reservations hr => ?_
  rw [hx.reservations] at hr
  have hadmits := hlegal (Reservations.conflict?_of_reserve hr)
  rw [ensures_bind]
  -- from here on the servers are reserved
  have hallows : T.Allows { x with reservations, held := servers } := by
    refine ⟨fun hs => ?_, fun hs cause y hy => hfail hs cause y ⟨hy.registry.trans hx.registry,
      hy.cluster.trans hx.cluster, hy.moves.trans hx.moves, hy.locks.trans hx.locks,
      .inr ⟨by rw [hy.reservations]; exact hr, hy.held⟩⟩⟩
    have hhealthy := hx.healthy (hT hs)
    exact ⟨hhealthy.willing, hhealthy.faults⟩
  refine ensures_call hallows (fun _ => ?_) fun moved y hm => ?_
  · obtain ⟨result, hok⟩ : ∃ x, w.site.registry.moveServers servers source.name target = .ok x :=
      ⟨_, Registry.moveServers_eq_ok.2 ⟨hadmits.there, source, hadmits.stored, rfl, rfl⟩⟩
    exact ⟨result.1, by simp only [Site.serve, hx.registry, hok]⟩
  · have henrolls := enrolls_of_answered hadmits hx hr hm
    rw [ensures_bind]
    exact ensures_note fun z hz => h z hadmits (henrolls.trans_same hz)

/-- A move is refused before anything is reserved and only if it is forbidden; the registry moves
the servers only if they may leave their group. -/
theorem ensures_changeMembership (hT : T.strict → w.Healthy) (hn : w.site.registry.Named)
    (hrefuse : ∀ cause x, w.Forbids servers target → w.Same x → T.stops (some (.refused cause)) x)
    (hfail : ¬ T.strict → ∀ cause x, w.Checks servers target x → T.stops cause x)
    (hfree : T.strict → w.reservations.conflict? servers = none) {first : ServerAddress}
    (hfirst : first ∈ servers) {post : Group × Group → World → Prop}
    (h : ∀ source goal x, goal.name = target → w.Admits servers source target →
      w.Enrolls servers source.name target x → post (source, goal) x) :
    (changeMembership first servers target).Ensures T.rule post w := by
  have hallows : T.Allows w :=
    ⟨fun hs => (hT hs).obliging, fun hs cause x hx => hfail hs cause x hx.checks⟩
  refine ensures_source hallows hn (fun cause x hmissing => hrefuse cause x fun _ g hg => ?_)
    fun source goal w₁ h₁ hname hgoal htarget hsource hmember => ?_
  · rcases hmissing with hempty | hnone | hnone
    · exact hg.name hempty
    · have hthere := hg.there
      rw [Std.ExtTreeMap.mem_iff_isSome_getElem?, hnone] at hthere
      cases hthere
    · exact Registry.groupOfServer?_eq_none.1 hnone g.name ⟨g, hg.stored, hg.members first hfirst⟩
  have hmem : target ∈ w.site.registry.groups := by
    rw [Std.ExtTreeMap.mem_iff_isSome_getElem?, htarget]
    rfl
  rw [← h₁.registry] at hmem hsource hn
  refine ensures_checks (hallows.same h₁) hn
    (fun cause x hforbids hx => hrefuse cause x (h₁.forbids.1 hforbids) (h₁.same_trans hx))
    hfirst hname hgoal hmem hsource hmember fun w₂ h₂ hlegal => ?_
  rw [h₁.admits, h₁.reservations] at hlegal
  have h₀₂ := h₁.same_trans h₂
  refine ensures_enroll hT hgoal h₀₂ hlegal (fun cause hconflict => ?_) hfail hfree
    fun x hadmits hx => h source goal x hgoal hadmits hx
  refine hrefuse cause w₂ (fun _ g hg => ?_) h₀₂
  rw [hg.conflict?_eq_none] at hconflict
  cases hconflict

/-! ### Starting a move -/

/-- Where the membership lock is had that is asked for in a world: it is free there. -/
structure Takes (T : Terms) (w v : World) : Prop where
  found : T.Found (.lock .membership false .operation) w v
  free : v.locks.isFree .membership false = true

theorem Takes.eq {v : World} (h : T.Takes w v) (hs : T.strict) : v = w := h.found.eq hs

section Start

variable (hT : T.strict → w.Healthy)
  (hwait : ¬ T.strict → w.locks.isFree .membership false = false →
    T.waits (.lock .membership false .operation) w)
  (hlock : T.strict → w.locks.isFree .membership false = true)
  (hn : ∀ v, T.Takes w v → v.site.registry.Named)
  (hreserved : ∀ cause, w.reservations.conflict? servers = some cause →
    T.stops (some (.refused cause)) w)
  (hrefuse : ∀ cause v x, T.Takes w v → v.Forbids servers target →
    (v.granted .membership).Same x → T.stops (some (.refused cause)) x)
  (hfail : ¬ T.strict → ∀ cause v x, T.Takes w v →
    (v.granted .membership).Checks servers target x → T.stops cause x)
  {post : Option Nat → World → Prop}
  (h : ∀ v source x, T.Takes w v → v.Admits servers source target →
    v.Launches servers source.name target x → post (some v.moves.size) x)

include hT hwait hlock hn hreserved hrefuse hfail h

/-- Whichever of the servers is looked at first: a move that is started has been launched from a
world in which the membership lock was free and the servers might leave their group. -/
theorem ensures_startMoveBy {first : ServerAddress} (hfirst : first ∈ servers) :
    (startMoveBy first servers target).Ensures T.rule post w := by
  unfold startMoveBy
  rw [ensures_bind]
  refine ensures_reservations ?_
  rcases hfree : Reservations.conflict? w.reservations servers with - | cause
  swap
  · exact hreserved cause hfree
  dsimp only
  rw [ensures_bind]
  refine ensures_lock hlock hwait fun v hfound hisFree => ?_
  have hv : T.Takes w v := ⟨hfound, hisFree⟩
  rw [ensures_bind]
  have hhealthy : T.strict → (v.granted .membership).Healthy := by
    intro hs
    obtain rfl := hv.eq hs
    exact (hT hs).granted _
  refine ensures_changeMembership hhealthy (hn v hv)
    (fun cause x hforbids => hrefuse cause v x hv (forbids_granted.1 hforbids))
    (fun hs cause x => hfail hs cause v x hv) (fun hs => ?_) hfirst
    fun source goal x hgoal hadmits hx => ?_
  · obtain rfl := hv.eq hs
    exact hfree
  dsimp only
  rw [ensures_bind]
  refine ensures_launch ?_
  rw [ensures_pure, hgoal, hx.moves]
  have hnonempty : servers.toList ≠ [] :=
    List.ne_nil_of_mem (Std.ExtTreeSet.mem_toList.2 hfirst)
  refine h v source _ hv (admits_granted.1 hadmits) ⟨hnonempty, hisFree, hx.name, hx.differ,
    hx.members, hx.change, hx.cluster, fun hw => ?_, ?_, ?_, hx.reserved, rfl⟩
  · have hx' := hx.healthy (hw.granted _)
    exact ⟨hx'.toReliable, hx'.faults⟩
  · show x.moves.push _ = v.moves.push _
    rw [hx.moves, hx.config, hx.now]
    rfl
  · show x.locks.handOver _ _ _ = _
    rw [hx.locks, hx.moves]
    rfl

/-- The start of a move; there is none if there are no servers. -/
theorem ensures_startMove (hnone : ∀ x, servers.toList = [] → w.Same x → post none x) :
    (startMove servers target).Ensures T.rule post w := by
  rcases hservers : servers.toList with - | ⟨first, rest⟩
  · rw [startMove_eq_nil hservers, ensures_bind]
    exact ensures_note fun x hx => hnone x hservers hx
  · rw [startMove_eq_startMoveBy hservers]
    refine ensures_startMoveBy hT hwait hlock hn hreserved hrefuse hfail h ?_
    rw [← Std.ExtTreeSet.mem_toList, hservers]
    exact List.mem_cons_self

end Start

end Terms

end ServerGroups
