/-
ServerGroups/Proofs/Confinement/Calm.lean

The invariant that keeps regions on the servers of their groups.

`w.Confined owed` is what is wanted: a region is at home, or an operation that
has moved its table still owes it, or it is on a server that is on the move.
It does not keep itself, so `w.Calm free owed` adds what makes it: which
regions are listed, that nothing fails, which regions can be unassigned at
once, and that a drain that runs has all it needs.

    reserved    its servers are in transition to its target
    members     they belong to the target already
    granted     the drain holds the membership lock, so no other move starts
    pending     what is astray is on a server that it has yet to drain

`Settles` is what happens most of the time: nothing changes in the registry
or the coordinator's own part of the world, regions only leave, and what is
assigned is assigned at home.  It is a preorder, and a calm world stays calm.

Design.  The tables whose regions ignore no request to unassign them are a
parameter, `free`; the others may be pinned, and are waited for.
-/
import ServerGroups.Proofs.Confinement.Home
import ServerGroups.Proofs.Requests
import ServerGroups.World.Clock

namespace ServerGroups

namespace World

variable {free : TableName → Prop} {owed owed' : Set Region} {w w' w'' : World}

/-! ### Confinement -/

/-- A drain runs. -/
def Running (w : World) (number : Nat) (m : Move) : Prop :=
  w.moves[number]? = some m ∧ m.ending = none

/-- A server is on the move: it belongs already to the group that it is reserved for, and its drain
has yet to drain it or to be started. -/
def Moving (w : World) (s : ServerAddress) : Prop :=
  ∃ target, w.reservations.target? s = some target ∧ w.site.registry.HasServer target s ∧
    (s ∈ w.held ∨ ∃ number m, w.Running number m ∧ m.target = target ∧ s ∈ m.pending)

/-- Every region is at home, or owed, or on a server that is on the move. -/
def Confined (owed : Set Region) (w : World) : Prop :=
  ∀ r s, w.site.cluster.On r s → w.site.registry.Hosts s r.table ∨ r ∈ owed ∨ w.Moving s

/-! ### Calm worlds -/

/-- The services are in order, and none of them fails. -/
structure Sane (free : TableName → Prop) (w : World) : Prop where
  partitioned : w.site.registry.Partitioned
  listed : ∀ r s, w.site.cluster.On r s → r ∈ w.site.cluster.regionsOf r.table
  keyed : ∀ (name : String) (x : RegionTransition), w.site.cluster.transitions[name]? = some x →
    x.region.encodedName = name
  faults : w.faults = []
  failing : w.site.cluster.failing = false
  script : w.site.script = []
  willing : w.site.observer.Willing
  unpinned : ∀ r : Region, free r.table → w.site.cluster.pinned r = 0

theorem Sane.congr (h : w.Sane free) (hs : w'.site = w.site) (hf : w'.faults = w.faults) :
    w'.Sane free := by
  obtain ⟨hpartitioned, hlisted, hkeyed, hfaults, hfailing, hscript, hwilling, hunpinned⟩ := h
  rw [← hs] at hpartitioned hlisted hkeyed hfailing hscript hwilling hunpinned
  exact ⟨hpartitioned, hlisted, hkeyed, hf.trans hfaults, hfailing, hscript, hwilling, hunpinned⟩

/-- The drain of a move has what it needs. -/
structure Underway (w : World) (number : Nat) (m : Move) : Prop where
  granted : ⟨.membership, false, .move number⟩ ∈ w.locks.grants
  reserved : ∀ s ∈ m.servers, w.reservations.target? s = some m.target
  members : ∀ s ∈ m.servers, w.site.registry.HasServer m.target s
  pending : ∀ s ∈ m.pending, s ∈ m.servers

/-- Every region is at home, or owed, or on a server that a drain has yet to drain. -/
def Covered (owed : Set Region) (w : World) : Prop :=
  ∀ r s, w.site.cluster.On r s → w.site.registry.Hosts s r.table ∨ r ∈ owed ∨
    ∃ number m, w.Running number m ∧ s ∈ m.pending

/-- What holds while nothing runs. -/
structure Calm (free : TableName → Prop) (owed : Set Region) (w : World) : Prop where
  sane : w.Sane free
  held : w.held = ∅
  underway : ∀ number m, w.Running number m → w.Underway number m
  one : ∀ number number' m m', w.Running number m → w.Running number' m' → number = number'
  covered : w.Covered owed

theorem Calm.confined (h : w.Calm free owed) : w.Confined owed := by
  intro r s hr
  rcases h.covered r s hr with hhome | howed | ⟨number, m, hm, hs⟩
  · exact .inl hhome
  · exact .inr (.inl howed)
  · have hmove := h.underway number m hm
    have hmem := hmove.pending s hs
    exact .inr (.inr ⟨m.target, hmove.reserved s hmem, hmove.members s hmem,
      .inr ⟨number, m, hm, rfl, hs⟩⟩)

theorem Calm.mono (h : w.Calm free owed)
    (hsub : ∀ r s, w.site.cluster.On r s → r ∈ owed → r ∈ owed') : w.Calm free owed' := by
  refine ⟨h.sane, h.held, h.underway, h.one, fun r s hr => ?_⟩
  rcases h.covered r s hr with hhome | howed | hmove
  · exact .inl hhome
  · exact .inr (.inl (hsub r s hr howed))
  · exact .inr (.inr hmove)

/-! ### Settling -/

/-- What happens while nothing is moved: regions leave, or are assigned at home. -/
structure Settles (w w' : World) : Prop extends w.Alike w' where
  registry : w'.site.registry = w.site.registry
  regions : w'.site.cluster.regions = w.site.cluster.regions
  faults : w.faults = [] → w'.faults = []
  failing : w'.site.cluster.failing = w.site.cluster.failing
  script : w.site.script = [] → w'.site.script = []
  willing : w.site.observer.Willing → w'.site.observer.Willing
  assignments : ∀ (r : Region) (s : ServerAddress), w'.site.cluster.assignments[r]? = some s →
    w.site.cluster.assignments[r]? = some s ∨
      (w.site.registry.Hosts s r.table ∧ r ∈ w.site.cluster.regionsOf r.table)
  transitions : ∀ (name : String) (x : RegionTransition),
    w'.site.cluster.transitions[name]? = some x → w.site.cluster.transitions[name]? = some x
  pinned : ∀ r, w.site.cluster.pinned r = 0 → w'.site.cluster.pinned r = 0

namespace Settles

/-- A world settles if nothing happens to the registry and the cluster. -/
theorem of_cluster (ha : w.Alike w') (hf : w.faults = [] → w'.faults = [])
    (hr : w'.site.registry = w.site.registry) (hc : w'.site.cluster = w.site.cluster)
    (hscript : w.site.script = [] → w'.site.script = [])
    (hwilling : w.site.observer.Willing → w'.site.observer.Willing) : w.Settles w' := by
  refine ⟨ha, hr, ?_, hf, ?_, hscript, hwilling, ?_, ?_, ?_⟩
  all_goals rw [hc]
  · exact fun r s hr => .inl hr
  · exact fun _ _ hx => hx
  · exact fun _ hr => hr

theorem of_site (ha : w.Alike w') (hf : w.faults = [] → w'.faults = [])
    (hs : w'.site = w.site) : w.Settles w' := by
  apply of_cluster ha hf
  all_goals rw [hs]
  · exact id
  · exact id

theorem refl (w : World) : w.Settles w := of_site (.refl w) id rfl

theorem regionsOf (h : w.Settles w') (t : TableName) :
    w'.site.cluster.regionsOf t = w.site.cluster.regionsOf t := by
  simp only [Cluster.regionsOf, h.regions]

theorem trans (h : w.Settles w') (h' : w'.Settles w'') : w.Settles w'' where
  config := h'.config.trans h.config
  reservations := h'.reservations.trans h.reservations
  locks := h'.locks.trans h.locks
  held := h'.held.trans h.held
  moves := h'.moves.trans h.moves
  registry := h'.registry.trans h.registry
  regions := h'.regions.trans h.regions
  faults hw := h'.faults (h.faults hw)
  failing := h'.failing.trans h.failing
  script hw := h'.script (h.script hw)
  willing hw := h'.willing (h.willing hw)
  assignments r s hr := by
    rcases h'.assignments r s hr with hold | ⟨hhome, hlisted⟩
    · exact h.assignments r s hold
    · rw [h.registry] at hhome
      rw [h.regionsOf] at hlisted
      exact .inr ⟨hhome, hlisted⟩
  transitions name x hx := h.transitions name x (h'.transitions name x hx)
  pinned r hr := h'.pinned r (h.pinned r hr)

/-- A region that is on a server was there before, or is at home and listed. -/
theorem on (h : w.Settles w') {r : Region} {s : ServerAddress} (hr : w'.site.cluster.On r s) :
    w.site.cluster.On r s ∨
      (w.site.registry.Hosts s r.table ∧ r ∈ w.site.cluster.regionsOf r.table) := by
  rcases hr with hr | ⟨name, x, hx, hregion, hserver⟩
  · rcases h.assignments r s hr with hold | hhome
    · exact .inl (.inl hold)
    · exact .inr hhome
  · exact .inl (.inr ⟨name, x, h.transitions name x hx, hregion, hserver⟩)

theorem running (h : w.Settles w') {number : Nat} {m : Move} :
    w'.Running number m ↔ w.Running number m := by
  simp only [Running, h.moves]

theorem sane (h : w.Settles w') (hw : w.Sane free) : w'.Sane free where
  partitioned := by
    rw [h.registry]
    exact hw.partitioned
  listed r s hr := by
    rw [h.regionsOf]
    rcases h.on hr with hold | ⟨-, hlisted⟩
    · exact hw.listed r s hold
    · exact hlisted
  keyed name x hx := hw.keyed name x (h.transitions name x hx)
  faults := h.faults hw.faults
  failing := h.failing.trans hw.failing
  script := h.script hw.script
  willing := h.willing hw.willing
  unpinned r hr := h.pinned r (hw.unpinned r hr)

theorem moving (h : w.Settles w') {s : ServerAddress} : w'.Moving s ↔ w.Moving s := by
  simp only [Moving, h.reservations, h.registry, h.held, h.running]

theorem confined (h : w.Settles w') (hw : w.Confined owed) : w'.Confined owed := by
  intro r s hr
  rw [h.registry, h.moving]
  rcases h.on hr with hold | ⟨hhome, -⟩
  · exact hw r s hold
  · exact .inl hhome

theorem calm (h : w.Settles w') (hw : w.Calm free owed) : w'.Calm free owed where
  sane := h.sane hw.sane
  held := h.held.trans hw.held
  underway number m hm := by
    have hmove := hw.underway number m (h.running.1 hm)
    refine ⟨?_, fun s hs => ?_, fun s hs => ?_, hmove.pending⟩
    · rw [h.locks]
      exact hmove.granted
    · rw [h.reservations]
      exact hmove.reserved s hs
    · rw [h.registry]
      exact hmove.members s hs
  one number number' m m' hm hm' := hw.one number number' m m' (h.running.1 hm) (h.running.1 hm')
  covered r s hr := by
    rw [h.registry]
    simp only [h.running]
    rcases h.on hr with hold | ⟨hhome, -⟩
    · exact hw.covered r s hold
    · exact .inl hhome

end Settles

/-- An assignment of a listed region to a server of the group that owns its table. -/
theorem settles_assign {r : Region} {s : ServerAddress} (ha : w.Alike w')
    (hs : w'.site = { w.site with cluster := w.site.cluster.assign r s })
    (hf : w.faults = [] → w'.faults = []) (hhome : w.site.registry.Hosts s r.table)
    (hlisted : r ∈ w.site.cluster.regionsOf r.table) : w.Settles w' := by
  have hassigned : ∀ (r' : Region) (s' : ServerAddress),
      (w.site.cluster.assign r s).assignments[r']? = some s' →
        w.site.cluster.assignments[r']? = some s' ∨
          (w.site.registry.Hosts s' r'.table ∧ r' ∈ w.site.cluster.regionsOf r'.table) := by
    intro r' s' hr
    simp only [Cluster.assign, Std.ExtTreeMap.getElem?_insert,
      Std.LawfulEqOrd.compare_eq_iff_eq] at hr
    split at hr
    · next heq =>
      subst heq
      rw [← Option.some.inj hr]
      exact .inr ⟨hhome, hlisted⟩
    · exact .inl hr
  -- nothing else of the services is touched
  refine ⟨ha, ?_, ?_, hf, ?_, ?_, ?_, ?_, ?_, ?_⟩
  all_goals rw [hs]
  · rfl
  · rfl
  · exact id
  · exact id
  · exact hassigned
  · exact fun _ _ hx => hx
  · exact fun _ hr => hr

/-- The pipeline assigns a listed region to a server of the group that owns its table. -/
def Assigns (w w' : World) : Prop :=
  ∃ r s, r ∈ w.site.cluster.regionsOf r.table ∧ w.site.registry.Hosts s r.table ∧
    w' = { w with site := { w.site with cluster := w.site.cluster.assign r s } }

theorem Assigns.settles (h : w.Assigns w') : w.Settles w' := by
  obtain ⟨r, s, hlisted, hhosts, rfl⟩ := h
  exact settles_assign ⟨rfl, rfl, rfl, rfl, rfl⟩ rfl id hhosts hlisted

theorem settles_advance (w : World) (time : Nat) : w.Settles (w.advance time) :=
  .of_site ⟨rfl, rfl, rfl, rfl, rfl⟩ id rfl

theorem settles_report (w : World) (n : Notice) : w.Settles (w.report n) :=
  .of_site ⟨rfl, rfl, rfl, rfl, rfl⟩ id rfl

/-! ### Locks and moves -/

/-- A calm world stays calm if no drain loses its lock. -/
theorem Calm.withLocks (h : w.Calm free owed) {locks : Locks}
    (hlocks : ∀ number, ⟨.membership, false, .move number⟩ ∈ w.locks.grants →
      ⟨.membership, false, .move number⟩ ∈ locks.grants) :
    { w with locks := locks }.Calm free owed where
  sane := h.sane.congr rfl rfl
  held := h.held
  underway number m hm := by
    have hmove := h.underway number m hm
    exact ⟨hlocks number hmove.granted, hmove.reserved, hmove.members, hmove.pending⟩
  one := h.one
  covered := h.covered

theorem Calm.grant (h : w.Calm free owed) (lock : Lock) (shared : Bool) :
    { w with locks := w.locks.grant ⟨lock, shared, .operation⟩ }.Calm free owed :=
  h.withLocks fun _ hg => List.mem_cons_of_mem _ hg

theorem Calm.release (h : w.Calm free owed) (lock : Lock) :
    { w with locks := w.locks.release lock .operation }.Calm free owed := by
  refine h.withLocks fun number hg => ?_
  simp only [Locks.release, List.mem_filter]
  exact ⟨hg, by simp⟩

theorem Calm.letGo (h : w.Calm free owed) : w.letGo.Calm free owed := by
  have hnone : w.reservations.release w.held = w.reservations := by
    rw [h.held]
    rfl
  have heq : w.letGo = { w with locks := w.locks.releaseAll .operation } := by
    simp only [World.letGo, hnone, ← h.held]
  rw [heq]
  refine h.withLocks fun number hg => ?_
  simp only [Locks.releaseAll, List.mem_filter]
  exact ⟨hg, by simp⟩

/-- No drain runs. -/
def Idle (w : World) : Prop := ∀ number m, ¬ w.Running number m

theorem Settles.idle (h : w.Settles w') (hw : w.Idle) : w'.Idle :=
  fun number m hm => hw number m (h.running.1 hm)

/-- While the membership lock is free no drain runs. -/
theorem Calm.idle_of_isFree (h : w.Calm free owed) (hfree : w.locks.isFree .membership false) :
    w.Idle := by
  intro number m hm
  have hg := (h.underway number m hm).granted
  have := List.all_eq_true.1 hfree _ hg
  simp at this

end World

end ServerGroups
