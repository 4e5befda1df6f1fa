/-
ServerGroups/Proofs/Confinement/Operations.lean

Every operation is orderly.

One lemma for each program, from the smallest up.  Adding and removing a group
moves no region's home.  A move of servers takes its regions from home; it is
followed from the reservation of the servers to the start of their drain.
Balances and moves of tables have theories of their own.

What an operation has checked matters little here: that its change of the
registry is warranted is known, and says what was checked.
-/
import ServerGroups.Proofs.Commands
import ServerGroups.Proofs.Confinement.Balance
import ServerGroups.Proofs.Confinement.TableMove

namespace ServerGroups

open Program World

/-- An operation moves the servers that it has reserved, and owes no region. -/
structure View.Handing (free : TableName → Prop) (servers : ServerSet) (target : String)
    (v : View) : Prop where
  owed : v.owed = ∅
  world : v.world.Handing free v.others servers target

namespace View

variable {free : TableName → Prop} {servers : ServerSet} {target : String} {v v' : View}

theorem Handing.fine (h : v.Handing free servers target) : v.Fine free := by
  refine ⟨h.world.sane, ?_⟩
  rw [h.owed, Set.union_empty]
  exact h.world.confined

theorem Settles.handing (h : v.Settles v') (hv : v.Handing free servers target) :
    v'.Handing free servers target := by
  refine ⟨h.owed.trans hv.owed, ?_⟩
  rw [h.others]
  exact h.world.handing hv.world

end View

namespace Coordinator

section Programs

variable {E : Setting} (hE : E.Pipelined) {free : TableName → Prop}

include hE

/-! ### Looking up -/

theorem orderly_getGroup (name : String) : Orderly E free (getGroup name) :=
  .holding hE (looks_call hE rfl).orderly

theorem orderly_getGroupOfServer (s : ServerAddress) : Orderly E free (getGroupOfServer s) :=
  .holding hE (looks_call hE rfl).orderly

theorem orderly_listGroups : Orderly E free listGroups :=
  .holding hE (looks_call hE rfl).orderly

theorem orderly_getGroupOfTable (t : TableName) : Orderly E free (getGroupOfTable t) := by
  refine .holding hE (Looks.orderly ((looks_call hE rfl).bind fun answer => ?_))
  rcases answer with - | name
  · exact looks_pure _
  · exact looks_call hE rfl

/-! ### Groups -/

theorem ensures_addGroup {o : Operation} {name : String} {v : View} {post : Unit → View → Prop}
    (hv : v.Alone free) (h : ∀ v', v'.Ready free → post () v') :
    (call (.addGroup name)).Ensures ((confining free).rule E (.operation o)) post v := by
  refine ensures_rewrite hE rfl hv (fun _ => rfl) (fun _ hserves hp => ?_) fun _ => h
  refine ⟨hp.addGroup hserves.addGroup, fun s t hhosts => ?_⟩
  exact (Registry.hosts_addGroup hserves.addGroup).2 hhosts

theorem ensures_removeGroup {o : Operation} {name : String} {v : View}
    {post : Unit → View → Prop} (hv : v.Alone free) (h : ∀ v', v'.Ready free → post () v') :
    (call (.removeGroup name)).Ensures ((confining free).rule E (.operation o)) post v := by
  refine ensures_rewrite hE rfl hv (fun _ => rfl) (fun hwarranted hserves hp => ?_) fun _ => h
  obtain ⟨-, -, hservers, htables⟩ := hwarranted
  refine ⟨hp.removeGroup hserves.removeGroup, fun s t hhosts => ?_⟩
  exact (Registry.hosts_removeGroup hserves.removeGroup hservers htables).2 hhosts

theorem orderly_addGroup (name : String) : Orderly E free (addGroup name) := by
  refine (looks_hook hE _).orderly.bind fun _ => looks_refuseIf.orderly.bind fun _ =>
    Orderly.bind (fun o v hv => ?_) fun _ =>
      (looks_note hE _).orderly.bind fun _ => (looks_hook hE _).orderly
  refine ensures_alone hE hv fun v₁ hv₁ => ?_
  refine (looks_call hE rfl).andThen hv₁ fun existing v₂ hv₂ => ?_
  refine looks_refuseIf.andThen hv₂ fun _ v₃ hv₃ => ?_
  refine ensures_addGroup hE hv₃ fun v₄ hv₄ => ⟨hv₄.steady, fun v₅ howed₅ hsteady₅ => ?_⟩
  exact hv₄.of_steady howed₅ hsteady₅

theorem orderly_removeGroup (name : String) : Orderly E free (removeGroup name) := by
  intro o v hv
  refine ensures_alone hE hv fun v₁ hv₁ => ?_
  refine (looks_hook hE _).andThen hv₁ fun _ v₂ hv₂ => ?_
  refine (looks_call hE rfl).andThen hv₂ fun answer v₃ hv₃ => ?_
  rcases answer with - | g
  · exact hv₃.ready
  refine looks_refuseIf.andThen hv₃ fun _ v₄ hv₄ => ?_
  refine looks_refuseIf.andThen hv₄ fun _ v₅ hv₅ => ?_
  refine looks_refuseIf.andThen hv₅ fun _ v₆ hv₆ => ?_
  refine (looks_call hE rfl).andThen hv₆ fun namespaces v₇ hv₇ => ?_
  refine (looks_checking hE (checking_refuseIfReferenced name namespaces)).andThen hv₇
    fun _ v₈ hv₈ => ?_
  rw [ensures_bind]
  -- a warranted removal is of a group without members, which is nobody's home
  refine ensures_removeGroup hE hv₈ fun v₉ hv₉ => ?_
  have hrest : Looks E free (do note (.groupRemoved name); hook (.postRemoveGroup name)) :=
    (looks_note hE _).bind fun _ => looks_hook hE _
  refine (hrest.orderly o v₉ hv₉).mono Discipline.rule_monotone fun _ v₁₀ hv₁₀ => ?_
  exact ⟨hv₁₀.steady, fun v₁₁ howed₁₁ hsteady₁₁ => hv₁₀.of_steady howed₁₁ hsteady₁₁⟩

/-! ### Moving servers -/

/-- After the reservation of its servers a move is under way. -/
theorem ensures_reserve {o : Operation} {servers : ServerSet} {target : String} {v : View}
    {post : Unit → View → Prop} (hv : v.Alone free)
    (h : ∀ v', v'.Handing free servers target → post () v') :
    (ask (.reserve servers target) done).Ensures ((confining free).rule E (.operation o)) post
      v := by
  refine ensures_met hE rfl hv.ready.fine fun v₁ hsettles _ => ?_
  have hv₁ := hsettles.alone hv
  refine ⟨fun answer w hm => ?_, fun cause w hm => ?_, fun w hm => ?_⟩
  · rcases meet_reserve hm with ⟨_, hr, -⟩ | ⟨-, reservations, hr, rfl⟩
    · cases hr
    · exact h ⟨_, v₁.owed, v₁.others⟩
        ⟨hv₁.ready.owed, hv₁.ready.calm.reserve hv₁.idle hv₁.granted hr⟩
  · rcases meet_reserve hm with ⟨_, -, rfl⟩ | ⟨hr, -⟩
    · exact hv₁.ready
    · cases hr
  · rcases meet_reserve hm with ⟨_, hr, -⟩ | ⟨hr, -⟩ <;> cases hr

/-- After the change of the registry the servers of a move belong to the target. -/
theorem ensures_moveServers {o : Operation} {servers : ServerSet} {source target : String}
    {v : View} {post : ServerSet → View → Prop} (hv : v.Handing free servers target)
    (h : ∀ moved v', v'.Handing free servers target →
      (∀ s ∈ servers, v'.world.site.registry.HasServer target s) → post moved v') :
    (call (.moveServers servers source target)).Ensures
      ((confining free).rule E (.operation o)) post v := by
  refine ensures_write hE rfl hv.fine fun w moved w' hw hw' hwarranted hserves => ?_
  have hmove := hserves.moveServers
  have hhanding := hw.handing hv.world
  have hmembers : ∀ s ∈ servers, w'.site.registry.HasServer target s := by
    intro s hs
    obtain ⟨-, -, -, hsource, -⟩ := hwarranted
    exact (Registry.hasServer_moveServers hmove).2 (.inl ⟨rfl, hs, hsource s hs⟩)
  refine h moved ⟨w', v.owed, v.others⟩ ⟨hv.owed, ?_⟩ hmembers
  refine hhanding.rewrites hw' (hhanding.sane.partitioned.moveServers hmove) ?_ hmembers
  intro s t hs hhosts
  exact Registry.hosts_moveServers hmove hs hhosts

/-- When the drain has taken over, the operation owes nothing and the world is calm. -/
theorem ensures_launch {o : Operation} {servers : ServerSet} {source target : String} {v : View}
    {post : Nat → View → Prop} (hv : v.Handing free servers target)
    (hmembers : ∀ s ∈ servers, v.world.site.registry.HasServer target s)
    (h : ∀ number v', v'.Ready free → post number v') :
    (ask (.launch servers source target) done).Ensures
      ((confining free).rule E (.operation o)) post v := by
  refine ensures_met hE rfl hv.fine fun v₁ hsettles _ => ?_
  have hv₁ := hsettles.handing hv
  refine ⟨fun answer w hm => ?_, fun cause w hm => ?_, fun w hm => ?_⟩
  · obtain ⟨-, rfl⟩ := Prod.mk.inj hm
    refine h answer ⟨_, v₁.owed, v₁.others⟩ ⟨hv₁.owed, hv₁.world.launch ?_⟩
    rw [hsettles.world.registry]
    exact hmembers
  · cases (Prod.mk.inj hm).1
  · cases (Prod.mk.inj hm).1

/-- A change of membership reserves the servers, makes them members of the target, and leaves it
to the drain to see to their regions. -/
theorem ensures_changeMembership {o : Operation} {first : ServerAddress} {servers : ServerSet}
    {target : String} {v : View} (hv : v.Alone free) :
    (changeMembership first servers target).Ensures ((confining free).rule E (.operation o))
      (fun groups v' => v'.Handing free servers groups.2.name ∧
        ∀ s ∈ servers, v'.world.site.registry.HasServer groups.2.name s) v := by
  -- the checks move nothing
  refine (looks_hook hE _).andThen hv fun _ v₁ hv₁ => ?_
  refine (looks_checking hE (checking_targetGroup target)).andThen hv₁ fun goal v₂ hv₂ => ?_
  refine (looks_checking hE (checking_groupOf first)).andThen hv₂ fun source v₃ hv₃ => ?_
  refine looks_refuseIf.andThen hv₃ fun _ v₄ hv₄ => ?_
  refine (looks_checking hE (checking_checkOnline source servers)).andThen hv₄ fun _ v₅ hv₅ => ?_
  refine (looks_checking hE (Only.forM (checking_checkSource source) _)).andThen hv₅
    fun _ v₆ hv₆ => ?_
  refine looks_refuseIf.andThen hv₆ fun _ v₇ hv₇ => ?_
  rw [ensures_bind]
  -- from here on nothing is refused, so the servers do not stay reserved without a drain
  refine ensures_reserve hE hv₇ fun v₈ hv₈ => ?_
  rw [ensures_bind]
  refine ensures_moveServers hE hv₈ fun moved v₉ hv₉ hmembers => ?_
  rw [ensures_bind]
  refine ensures_settled_note hE hv₉.fine fun v₁₀ hv₁₀ => ⟨hv₁₀.handing hv₉, ?_⟩
  rw [hv₁₀.world.registry]
  exact hmembers

theorem orderly_startMove (servers : ServerSet) (target : String) :
    Orderly E free (startMove servers target) := by
  unfold startMove
  split
  · exact ((looks_note hE _).bind fun _ => looks_pure none).orderly
  · refine (looks_quiet hE rfl).orderly.bind fun reserved => ?_
    split
    · exact orderly_fail _
    · intro o v hv
      rw [ensures_bind]
      refine ensures_lock hv.steady fun v₁ howed₁ hsteady₁ hg hidle => ?_
      have hv₁ : v₁.Alone free := ⟨hv.of_steady howed₁ hsteady₁, hidle rfl, hg⟩
      rw [ensures_bind]
      refine (ensures_changeMembership hE hv₁).mono Discipline.rule_monotone ?_
      rintro ⟨source, goal⟩ v₂ ⟨hv₂, hmembers⟩
      -- the lock is not given back here: the drain takes it over
      exact ensures_launch hE hv₂ hmembers fun _ v₃ hv₃ => hv₃

theorem orderly_awaitMove (number : Nat) : Orderly E free (awaitMove number) := by
  refine (orderly_join number).bind fun ending => ?_
  rcases ending with - | cause | -
  · exact orderly_pure ()
  · exact orderly_fail cause
  · exact (looks_note hE _).orderly.bind fun _ => orderly_fail _

theorem orderly_moveServers (servers : ServerSet) (target : String) :
    Orderly E free (moveServers servers target) := by
  refine (orderly_startMove hE servers target).bind fun number => ?_
  rcases number with - | number
  · exact orderly_pure ()
  · exact orderly_awaitMove hE number

/-! ### Placing and forgetting tables -/

omit hE in
theorem free_singleton {t : TableName} (hfree : free t) : ∀ x ∈ ({t} : TableSet), free x := by
  intro x hx
  obtain rfl : t = x := by simpa using hx
  exact hfree

theorem orderly_prepareTable {t : TableName} (hfree : free t) :
    Orderly E free (prepareTable t) := by
  refine (looks_call hE rfl).orderly.bind fun answer => ?_
  rcases answer with - | n
  · exact orderly_fail _
  refine (orderly_getGroup hE _).bind fun answer => ?_
  rcases answer with - | g
  · exact orderly_fail _
  dsimp only
  split
  · exact orderly_pure ()
  · exact (looks_note hE _).orderly.bind fun _ => orderly_moveTables hE _ (free_singleton hfree)

theorem orderly_forgetTable {t : TableName} (hfree : free t) :
    Orderly E free (forgetTable t) := by
  refine (orderly_getGroupOfTable hE t).bind fun answer => ?_
  rcases answer with - | g
  · exact orderly_pure ()
  · exact (looks_note hE _).orderly.bind fun _ => orderly_moveTables hE _ (free_singleton hfree)

end Programs

end Coordinator

/-! ### Commands and operations -/

open Coordinator

/-- The tables whose regions a command may move to another group. -/
def Command.Names : Command → TableName → Prop
  | .moveTables (some tables) _, t => t ∈ tables
  | _, _ => False

/-- The tables whose regions an operation may move to another group. -/
def Operation.Names : Operation → TableName → Prop
  | .moveTables tables _, t => t ∈ tables
  | .prepareTable table, t | .forgetTable table, t => t = table
  | .execute c, t => c.Names t
  | _, _ => False

variable {E : Setting} {free : TableName → Prop}

/-- What an operation does in the end names no other tables. -/
theorem Operation.names_of_core {o o' : Operation} (h : o.core? = some o') {t : TableName}
    (ht : o'.Names t) : o.Names t := by
  cases o with
  | execute c =>
    cases c with
    | moveServers servers target =>
      rcases servers with - | servers
      · cases h
      rcases target with - | target
      · cases h
      simp only [core?, Command.operation?, Option.ite_none_left_eq_some] at h
      obtain rfl := Option.some.inj h.2
      exact ht.elim
    | moveTables tables target =>
      rcases tables with - | tables
      · cases h
      · obtain rfl := Option.some.inj h
        exact ht
    | _ =>
      obtain rfl := Option.some.inj h
      exact ht.elim
  | _ =>
    obtain rfl := Option.some.inj h
    exact ht

/-- Every operation is orderly, if no region of the tables that it names is pinned. -/
theorem Operation.orderly (hE : E.Pipelined) {o : Operation} (hfree : ∀ t, o.Names t → free t) :
    Orderly E free o.program := by
  refine o.program_of (motive := fun {_} p => Orderly E free p)
    orderly_pure (fun _ => orderly_fail _) (fun _ h => h.bind fun _ => orderly_pure _)
    (fun n h => (looks_note hE n).orderly.bind fun _ => h) fun o' hcore ho => ?_
  replace hfree : ∀ t, o'.Names t → free t := fun t ht => hfree t (Operation.names_of_core hcore ht)
  cases o' with
  | getGroup name => exact orderly_getGroup hE name
  | getGroupOfServer s => exact orderly_getGroupOfServer hE s
  | getGroupOfTable t => exact orderly_getGroupOfTable hE t
  | listGroups => exact orderly_listGroups hE
  | addGroup name => exact orderly_addGroup hE name
  | removeGroup name => exact orderly_removeGroup hE name
  | moveServers servers target => exact orderly_moveServers hE servers target
  | startMove servers target => exact orderly_startMove hE servers target
  | awaitMove number => exact orderly_awaitMove hE number
  | moveTables tables target => exact orderly_moveTables hE target hfree
  | prepareTable t => exact orderly_prepareTable hE (hfree t rfl)
  | forgetTable t => exact orderly_forgetTable hE (hfree t rfl)
  | balance name => exact orderly_balance hE name
  | execute c => exact absurd rfl (ho c)

end ServerGroups
