/-
ServerGroups/Proofs/Operations.lean

Every change that the coordinator asks of the registry is warranted.

One lemma for each program, from the smallest up.  Only four of them change
the registry, and each does so in one place: `addGroup`, `removeGroup`,
`changeMembership` and `repin`.  There the lemma follows the program and keeps
what its checks have found out; everywhere else the program is put together
from sound parts.
-/
import ServerGroups.Proofs.Collections
import ServerGroups.Proofs.Commands
import ServerGroups.Proofs.Warranted

namespace ServerGroups.Coordinator

open Program Registry

variable {r : Registry}

/-! ### Groups -/

theorem sound_addGroup (name : String) : Sound (addGroup name) := by
  refine (sound_hook _).bind fun _ => sound_refuseIf.bind fun _ => Sound.bind ?_ fun _ =>
    (sound_note _).bind fun _ => sound_hook _
  refine Sound.holding fun r hr => ?_
  rw [ensures_bind]
  refine ensures_read rfl fun existing he => ?_
  rw [ensures_bind]
  refine ensures_refuseIf fun hnone => ⟨?_, fun answer r' h => h.named hr⟩
  rw [he.group, ← Std.ExtTreeMap.mem_iff_isSome_getElem?] at hnone
  exact hnone

/-- A sound program in front keeps what is known of the registry if it changes nothing. -/
theorem ensures_refuseIfReferenced {post : Unit → Registry → Prop} (name : String)
    (hp : post () r) : ∀ namespaces : List Namespace,
      (refuseIfReferenced name namespaces).Ensures Registry.rule post r
  | [] => hp
  | n :: rest => by
    unfold refuseIfReferenced
    split
    · trivial
    · exact ensures_refuseIfReferenced name hp rest

theorem sound_removeGroup (name : String) : Sound (removeGroup name) := by
  refine Sound.holding fun r hr => ?_
  rw [ensures_bind]
  refine ensures_hook _ ?_
  rw [ensures_bind]
  refine ensures_read rfl fun answer ha => ?_
  have hg := ha.group
  rcases answer with - | g
  · trivial
  have hgroup : r.groups[name]? = some g := hg.symm
  have hname : g.name = name := hr hgroup
  dsimp only
  rw [ensures_bind]
  refine ensures_refuseIf fun hdefault => ?_
  rw [ensures_bind]
  refine ensures_refuseIf fun htables => ?_
  rw [ensures_bind]
  refine ensures_refuseIf fun hservers => ?_
  rw [ensures_bind]
  refine ensures_read rfl fun namespaces _ => ?_
  rw [ensures_bind]
  refine ensures_refuseIfReferenced name ?_ namespaces
  rw [ensures_bind]
  refine ⟨⟨?_, ?_, ?_, ?_⟩, fun _ r' h => ?_⟩
  · rintro rfl
    exact hdefault (by simp [Group.isDefault, hname])
  · exact Std.ExtTreeMap.mem_iff_isSome_getElem?.2 (by simp [hgroup])
  · rintro s ⟨g', hg', hs⟩
    obtain rfl := Option.some.inj (hgroup.symm.trans hg')
    exact not_mem_of_size_eq_zero (not_not.1 hservers) s hs
  · rintro t ⟨g', hg', ht⟩
    obtain rfl := Option.some.inj (hgroup.symm.trans hg')
    exact not_mem_of_size_eq_zero (not_not.1 htables) t ht
  · exact ((sound_note _).bind fun _ => sound_hook _) r' (h.named hr)

/-! ### Looking up -/

theorem sound_getGroup (name : String) : Sound (getGroup name) := (sound_read rfl).holding

theorem sound_getGroupOfServer (s : ServerAddress) : Sound (getGroupOfServer s) :=
  (sound_read rfl).holding

theorem sound_listGroups : Sound listGroups := (sound_read rfl).holding

theorem sound_getGroupOfTable (t : TableName) : Sound (getGroupOfTable t) := by
  refine Sound.holding ((sound_read rfl).bind fun answer => ?_)
  rcases answer with - | name
  · exact sound_pure _
  · exact sound_read rfl

/-! ### Moving servers -/

theorem ensures_targetGroup {target : String} {post : Group → Registry → Prop} (hr : r.Named)
    (h : ∀ g, g.name = target → r.groups[target]? = some g → post g r) :
    (targetGroup target).Ensures Registry.rule post r := by
  unfold targetGroup
  rw [ensures_bind]
  refine ensures_refuseIf fun _ => ?_
  rw [ensures_bind]
  refine ensures_read rfl fun answer ha => ?_
  rcases answer with - | g
  · trivial
  · exact h g (hr ha.group.symm) ha.group.symm

theorem ensures_groupOf {s : ServerAddress} {post : Group → Registry → Prop} (hr : r.Named)
    (h : ∀ g, r.groups[g.name]? = some g → s ∈ g.servers → post g r) :
    (groupOf s).Ensures Registry.rule post r := by
  unfold groupOf
  rw [ensures_bind]
  refine ensures_read rfl fun answer ha => ?_
  rcases answer with - | g
  · trivial
  · obtain ⟨hg, hs⟩ := groupOfServer?_some hr ha.groupOfServer.symm
    exact h g hg hs

theorem ensures_checkOnline {source : Group} {servers : ServerSet}
    {post : Unit → Registry → Prop} (hp : post () r) :
    (checkOnline source servers).Ensures Registry.rule post r := by
  unfold checkOnline
  split
  · rw [ensures_bind]
    refine ensures_read rfl fun online _ => ?_
    split
    · trivial
    · exact hp
  · exact hp

theorem ensures_checkSource {source : Group} {s : ServerAddress}
    {post : Unit → Registry → Prop} (hr : r.Named)
    (h : r.HasServer source.name s → post () r) :
    (checkSource source s).Ensures Registry.rule post r := by
  unfold checkSource
  rw [ensures_bind]
  refine ensures_groupOf hr fun g hg hs => ensures_refuseIf fun hname => h ?_
  rw [not_not] at hname
  exact ⟨g, hname ▸ hg, hs⟩

/-- Every server has been found in the source group, and not all of a source that pins tables are
moved: the sizes say so, since the moved servers are among those of the source. -/
theorem sound_changeMembership (first : ServerAddress) (servers : ServerSet) (target : String) :
    Sound (changeMembership first servers target) := by
  intro r hr
  unfold changeMembership
  rw [ensures_bind]
  refine ensures_hook _ ?_
  rw [ensures_bind]
  refine ensures_targetGroup hr fun goal hgoal hgoal' => ?_
  rw [ensures_bind]
  refine ensures_groupOf hr fun source hsource _ => ?_
  rw [ensures_bind]
  refine ensures_refuseIf fun hne => ?_
  rw [ensures_bind]
  refine ensures_checkOnline ?_
  rw [ensures_bind]
  have hloop : (servers.toList.forM (checkSource source)).Ensures Registry.rule
      (fun _ r' => r' = r ∧ ∀ s ∈ servers.toList, r.HasServer source.name s) r := by
    refine ensures_forM rule_monotone (fun r' => r' = r) _ (fun s _ r' hr' => ?_) rfl
    subst hr'
    exact ensures_checkSource hr fun hs => ⟨rfl, hs⟩
  refine hloop.mono rule_monotone ?_
  rintro _ r' ⟨rfl, hmembers⟩
  rw [ensures_bind]
  refine ensures_refuseIf fun hsize => ?_
  rw [ensures_bind, ensures_ask]
  rintro _ r'' (rfl | ⟨h, -⟩)
  swap
  · cases h
  rw [ensures_done, ensures_bind]
  refine ⟨⟨hne, ?_, ?_, ?_, ?_⟩, fun moved r₁ h => ?_⟩
  · exact Std.ExtTreeMap.mem_iff_isSome_getElem?.2 (by simp [hsource])
  · rw [hgoal]
    exact Std.ExtTreeMap.mem_iff_isSome_getElem?.2 (by simp [hgoal'])
  · exact fun s hs => hmembers s (Std.ExtTreeSet.mem_toList.2 hs)
  · rintro t ⟨g, hg, ht⟩
    obtain rfl := Option.some.inj (hsource.symm.trans hg)
    by_contra hall
    refine hsize ⟨size_le_of_subset fun s hs => ?_, fun hzero => not_mem_of_size_eq_zero hzero t ht⟩
    by_contra hs'
    exact hall ⟨s, ⟨source, hsource, hs⟩, hs'⟩
  · exact ((sound_note _).bind fun _ => sound_pure _) r₁ (h.named hr)

theorem sound_startMove (servers : ServerSet) (target : String) :
    Sound (startMove servers target) := by
  unfold startMove
  split
  · exact (sound_note _).bind fun _ => sound_pure _
  · refine Sound.bind (sound_ask (by simp) fun _ => sound_pure _) fun reserved => ?_
    split
    · exact sound_fail _
    · refine Sound.bind (sound_ask (by simp) fun _ => sound_pure _) fun _ => ?_
      refine (sound_changeMembership _ servers target).bind fun groups => ?_
      exact Sound.bind (sound_ask (by simp) fun _ => sound_pure _) fun _ => sound_pure _

theorem sound_awaitMove (number : Nat) : Sound (awaitMove number) := by
  refine Sound.bind (sound_ask (by simp) fun _ => sound_pure _) fun ending => ?_
  rcases ending with - | cause | -
  · exact sound_pure ()
  · exact sound_fail cause
  · exact (sound_note _).bind fun _ => sound_fail _

theorem sound_moveServers (servers : ServerSet) (target : String) :
    Sound (moveServers servers target) := by
  refine (sound_startMove servers target).bind fun number => ?_
  rcases number with - | number
  · exact sound_pure ()
  · exact sound_awaitMove number

/-! ### Moving tables -/

theorem ensures_checkTarget {target : String} {post : Unit → Registry → Prop}
    (h : (∃ s, r.HasServer target s) → post () r) :
    (checkTarget target).Ensures Registry.rule post r := by
  unfold checkTarget
  rw [ensures_bind]
  refine ensures_read rfl fun answer ha => ?_
  rcases answer with - | g
  · trivial
  refine ensures_refuseIf fun hsize => h ?_
  obtain ⟨s, hs⟩ := exists_mem_of_size_ne_zero hsize
  exact ⟨s, g, ha.group.symm, hs⟩

theorem ensures_checkTable {goal : Option String} {t : TableName}
    {post : Unit → Registry → Prop} (hp : post () r) :
    (checkTable goal t).Ensures Registry.rule post r := by
  unfold checkTable
  rw [ensures_bind]
  refine ensures_read rfl fun answer _ => ?_
  rcases answer with - | source
  · exact hp
  · exact ensures_refuseIf fun _ => hp

theorem sound_repin (tables : TableSet) (goal : Option String) : Sound (repin tables goal) := by
  intro r hr
  have hrest : r.Warranted (.moveTables tables goal) →
      (tables.toList.forM (checkTable goal) >>= fun _ => call (.moveTables tables goal) >>=
        fun _ => note (.tablesMoved tables.size goal) >>= fun _ =>
          hook (.postMoveTables tables goal)).Ensures Registry.rule (fun _ r' => r'.Named) r := by
    intro hw
    rw [ensures_bind]
    have hloop : (tables.toList.forM (checkTable goal)).Ensures Registry.rule
        (fun _ r' => r' = r ∧ ∀ t ∈ tables.toList, True) r :=
      ensures_forM rule_monotone (fun r' => r' = r) (fun _ => True)
        (fun t _ r' hr' => ensures_checkTable ⟨hr', trivial⟩) rfl
    refine hloop.mono rule_monotone ?_
    rintro _ r' ⟨rfl, -⟩
    rw [ensures_bind]
    refine ⟨hw, fun _ r₁ h => ?_⟩
    exact ((sound_note _).bind fun _ => sound_hook _) r₁ (h.named hr)
  unfold repin
  rw [ensures_bind]
  refine ensures_hook _ ?_
  rcases goal with - | name
  · exact hrest trivial
  · rw [ensures_bind]
    exact ensures_checkTarget hrest

theorem sound_unassignTable (t : TableName) : Sound (unassignTable t) := by
  refine (sound_read rfl).bind fun _ => Sound.holding ?_
  refine (sound_note _).bind fun _ => (sound_read rfl).bind fun regions => ?_
  exact (sound_note _).bind fun _ => sound_forM (fun _ => sound_read rfl) regions

theorem sound_moveTables (tables : TableSet) (goal : Option String) :
    Sound (moveTables tables goal) := by
  unfold moveTables
  split
  · exact sound_note _
  · exact (sound_repin tables goal).holding.bind fun _ => sound_forM sound_unassignTable _

theorem sound_prepareTable (t : TableName) : Sound (prepareTable t) := by
  refine (sound_read rfl).bind fun answer => ?_
  rcases answer with - | n
  · exact sound_fail _
  refine (sound_getGroup _).bind fun answer => ?_
  rcases answer with - | g
  · exact sound_fail _
  dsimp only
  split
  · exact sound_pure ()
  · exact (sound_note _).bind fun _ => sound_moveTables _ _

theorem sound_forgetTable (t : TableName) : Sound (forgetTable t) := by
  refine (sound_getGroupOfTable t).bind fun answer => ?_
  rcases answer with - | g
  · exact sound_pure ()
  · exact (sound_note _).bind fun _ => sound_moveTables _ _

/-! ### Ownership, balancing and draining -/

theorem sound_owns (g : Group) (t : TableName) : Sound (owns g t) := by
  unfold owns
  split
  · exact sound_pure _
  · split
    · exact (sound_read rfl).bind fun _ => sound_pure _
    · exact sound_pure _

theorem sound_ownedAmong (g : Group) : ∀ tables : List TableName, Sound (ownedAmong g tables)
  | [] => sound_pure _
  | t :: tables => (sound_owns g t).bind fun _ =>
    (sound_ownedAmong g tables).bind fun _ => sound_pure _

theorem sound_planTables : ∀ snapshots : List (TableName × Snapshot), Sound (planTables snapshots)
  | [] => sound_pure _
  | (t, s) :: rest => by
    refine (sound_read rfl).bind fun answer => ?_
    rcases answer with - | moves
    · exact sound_planTables rest
    · exact (sound_note _).bind fun _ => (sound_planTables rest).bind fun _ => sound_pure _

theorem sound_applyPlan (group : String) (plan : List Placement) : Sound (applyPlan group plan) := by
  refine (sound_note _).bind fun _ => Sound.bind ?_ fun _ => sound_note _
  exact sound_forM (fun p => (sound_note _).bind fun _ => sound_read rfl) plan

theorem sound_balanceTables (g : Group) (name : String) (tables : List TableName)
    (assignments : Std.ExtTreeMap Region ServerAddress) :
    Sound (balanceTables g name tables assignments) := by
  refine (sound_read rfl).bind fun online => (sound_planTables _).bind fun plan => ?_
  dsimp only
  split
  · exact (sound_applyPlan name plan).bind fun _ => (sound_hook _).bind fun _ => sound_pure _
  · exact (sound_hook _).bind fun _ => sound_pure _

theorem sound_balance (name : String) : Sound (balance name) := by
  refine Sound.holding ((sound_hook _).bind fun _ => (sound_read rfl).bind fun answer => ?_)
  rcases answer with - | g
  · exact sound_fail _
  refine (sound_read rfl).bind fun assignments => (sound_read rfl).bind fun transitions => ?_
  refine (sound_ownedAmong g _).bind fun tables => ?_
  dsimp only
  split
  · exact (sound_note _).bind fun _ => sound_pure _
  · refine (sound_read rfl).bind fun recovering => ?_
    split
    · exact (sound_note _).bind fun _ => sound_pure _
    · exact sound_balanceTables g name tables assignments

theorem sound_drainServer (m : Move) (regions : List Region) (kept : List TableName)
    (s : ServerAddress) : Sound (drainServer m regions kept s) := by
  refine (sound_note _).bind fun _ => Sound.bind (sound_forM (fun _ => sound_read rfl) _) fun _ => ?_
  split
  · exact (sound_note _).bind fun _ => sound_pure _
  · exact sound_pure _

theorem sound_drainServers (m : Move) (regionsOn : ServerAddress → List Region)
    (kept : List TableName) : ∀ pending : List ServerAddress,
      Sound (drainServers m regionsOn kept pending)
  | [] => sound_pure _
  | s :: rest => (sound_drainServer m (regionsOn s) kept s).bind fun _ =>
    (sound_drainServers m regionsOn kept rest).bind fun _ => sound_pure _

theorem sound_drainPass (c : Config) (m : Move) : Sound (drainPass c m) := by
  refine (sound_read rfl).bind fun assignments => (sound_read rfl).bind fun transitions => ?_
  refine (sound_read rfl).bind fun answer => ?_
  rcases answer with - | g
  · exact sound_drainServers m _ _ _
  · exact (sound_ownedAmong g _).bind fun _ => sound_drainServers m _ _ _

theorem sound_finishMove (m : Move) : Sound (finishMove m) :=
  (sound_hook _).bind fun _ => sound_note _

end ServerGroups.Coordinator

namespace ServerGroups

open Program Registry Coordinator

/-! ### Commands and operations -/

/-- Every change that an operation asks of the registry is warranted. -/
theorem Operation.sound (o : Operation) : Sound o.program := by
  refine o.program_of (motive := fun {_} p => Sound p)
    sound_pure (fun _ => sound_fail _) (fun _ h => h.bind fun _ => sound_pure _)
    (fun n h => (sound_note n).bind fun _ => h) fun o _ ho => ?_
  cases o with
  | getGroup name => exact sound_getGroup name
  | getGroupOfServer s => exact sound_getGroupOfServer s
  | getGroupOfTable t => exact sound_getGroupOfTable t
  | listGroups => exact sound_listGroups
  | addGroup name => exact sound_addGroup name
  | removeGroup name => exact sound_removeGroup name
  | moveServers servers target => exact sound_moveServers servers target
  | startMove servers target => exact sound_startMove servers target
  | awaitMove number => exact sound_awaitMove number
  | moveTables tables target => exact sound_moveTables tables target
  | prepareTable t => exact sound_prepareTable t
  | forgetTable t => exact sound_forgetTable t
  | balance name => exact sound_balance name
  | execute c => exact absurd rfl (ho c)

end ServerGroups
