/-
ServerGroups/Proofs/Confinement/Moves.lean

The life of a move of servers, from the reservation to the end of its drain.

    reserve       the servers are held by the operation, for the target
    moveServers   they belong to the target; their regions are astray
    launch        the drain takes the lock and the reservation over
    passes        servers that are clear are not pending any more
    end           none is pending, and everything is given back

Before the first of these and after `launch` the world is calm.  In between it
is `Handing`: no drain runs, since the operation holds the membership lock,
and what is astray is on the servers that are held.
-/
import ServerGroups.Proofs.Collections
import ServerGroups.Proofs.Confinement.Calm

namespace ServerGroups

/-- What has been reserved is reserved for the target. -/
theorem Reservations.target?_reserve {r r' : Reservations} {servers : ServerSet} {target : String}
    {s : ServerAddress} (h : r.reserve servers target = .ok r') (hs : s ∈ servers) :
    r'.target? s = some target := by
  unfold reserve at h
  split at h
  · cases h
  · obtain rfl := Except.ok.inj h
    exact getElem?_foldl_insert target _ _ s (Std.ExtTreeSet.mem_toList.2 hs)

namespace World

variable {free : TableName → Prop} {owed owed' : Set Region} {w w' : World}
variable {servers : ServerSet} {source target : String} {number : Nat} {m m' : Move}

/-! ### Changes of the registry -/

/-- Nothing but the registry is different. -/
structure Rewrites (w w' : World) : Prop extends w.Alike w' where
  site : w'.site = { w.site with registry := w'.site.registry }
  faults : w'.faults = []

theorem Rewrites.cluster (h : w.Rewrites w') : w'.site.cluster = w.site.cluster := by
  rw [h.site]

theorem Rewrites.running (h : w.Rewrites w') : w'.Running number m ↔ w.Running number m := by
  simp only [Running, h.moves]

theorem Rewrites.sane (h : w.Rewrites w') (hw : w.Sane free)
    (hp : w'.site.registry.Partitioned) : w'.Sane free where
  partitioned := hp
  listed := by
    rw [h.cluster]
    exact hw.listed
  keyed := by
    rw [h.cluster]
    exact hw.keyed
  faults := h.faults
  failing := by
    rw [h.cluster]
    exact hw.failing
  script := by
    rw [h.site]
    exact hw.script
  willing := by
    rw [h.site]
    exact hw.willing
  unpinned := by
    rw [h.cluster]
    exact hw.unpinned

/-- While no drain runs, a calm world stays calm if every region that loses its home is owed. -/
theorem Rewrites.calm (h : w.Rewrites w') (hw : w.Calm free owed) (hidle : w.Idle)
    (hp : w'.site.registry.Partitioned)
    (hhome : ∀ r s, w.site.cluster.On r s → w.site.registry.Hosts s r.table →
      w'.site.registry.Hosts s r.table ∨ r ∈ owed')
    (howed : ∀ r ∈ owed, r ∈ owed') : w'.Calm free owed' where
  sane := h.sane hw.sane hp
  held := h.held.trans hw.held
  underway number m hm := absurd (h.running.1 hm) (hidle number m)
  one number _ m _ hm _ := absurd (h.running.1 hm) (hidle number m)
  covered r s hr := by
    rw [h.cluster] at hr
    rcases hw.covered r s hr with hhosts | hdebt | ⟨number, m, hm, -⟩
    · rcases hhome r s hr hhosts with hhosts | hdebt
      · exact .inl hhosts
      · exact .inr (.inl hdebt)
    · exact .inr (.inl (howed r hdebt))
    · exact absurd hm (hidle number m)

/-! ### Between the reservation and the drain -/

/-- An operation that holds the membership lock moves the servers that it has reserved. -/
structure Handing (free : TableName → Prop) (owed : Set Region) (servers : ServerSet)
    (target : String) (w : World) : Prop where
  sane : w.Sane free
  idle : w.Idle
  granted : ⟨.membership, false, .operation⟩ ∈ w.locks.grants
  held : w.held = servers
  reserved : ∀ s ∈ servers, w.reservations.target? s = some target
  covered : ∀ r s, w.site.cluster.On r s → w.site.registry.Hosts s r.table ∨ r ∈ owed ∨
    (s ∈ servers ∧ w.site.registry.HasServer target s)

theorem Handing.confined (h : w.Handing free owed servers target) : w.Confined owed := by
  intro r s hr
  rcases h.covered r s hr with hhome | howed | ⟨hs, hmember⟩
  · exact .inl hhome
  · exact .inr (.inl howed)
  · refine .inr (.inr ⟨target, h.reserved s hs, hmember, .inl ?_⟩)
    rw [h.held]
    exact hs

theorem Settles.handing (h : w.Settles w') (hw : w.Handing free owed servers target) :
    w'.Handing free owed servers target where
  sane := h.sane hw.sane
  idle := h.idle hw.idle
  granted := by
    rw [h.locks]
    exact hw.granted
  held := h.held.trans hw.held
  reserved := by
    rw [h.reservations]
    exact hw.reserved
  covered r s hr := by
    rw [h.registry]
    rcases h.on hr with hold | ⟨hhome, -⟩
    · exact hw.covered r s hold
    · exact .inl hhome

/-- The servers are reserved. -/
theorem Calm.reserve (h : w.Calm free owed) (hidle : w.Idle)
    (hg : ⟨.membership, false, .operation⟩ ∈ w.locks.grants) {reservations : Reservations}
    (hr : w.reservations.reserve servers target = .ok reservations) :
    { w with reservations, held := servers }.Handing free owed servers target where
  sane := h.sane.congr rfl rfl
  idle := hidle
  granted := hg
  held := rfl
  reserved _ hs := Reservations.target?_reserve hr hs
  covered r s hon := by
    rcases h.covered r s hon with hhome | howed | ⟨number, m, hm, -⟩
    · exact .inl hhome
    · exact .inr (.inl howed)
    · exact absurd hm (hidle number m)

/-- The servers have changed their group: what was at home on another server still is. -/
theorem Handing.rewrites (h : w.Handing free owed servers target) (hw : w.Rewrites w')
    (hp : w'.site.registry.Partitioned)
    (hhome : ∀ s t, s ∉ servers → w.site.registry.Hosts s t → w'.site.registry.Hosts s t)
    (hmembers : ∀ s ∈ servers, w'.site.registry.HasServer target s) :
    w'.Handing free owed servers target where
  sane := hw.sane h.sane hp
  idle number m hm := h.idle number m (hw.running.1 hm)
  granted := by
    rw [hw.locks]
    exact h.granted
  held := hw.held.trans h.held
  reserved := by
    rw [hw.reservations]
    exact h.reserved
  covered r s hr := by
    rw [hw.cluster] at hr
    -- a region on a server that has moved may have lost its home, but no other one has
    by_cases hs : s ∈ servers
    · exact .inr (.inr ⟨hs, hmembers s hs⟩)
    · rcases h.covered r s hr with hhosts | howed | ⟨hs', -⟩
      · exact .inl (hhome s r.table hs hhosts)
      · exact .inr (.inl howed)
      · exact absurd hs' hs

/-- The only drain that runs after a launch is the new one. -/
theorem running_launch (hidle : w.Idle)
    (h : (w.launch servers source target).Running number m) :
    number = w.moves.size ∧ m = Move.start w.config servers source target w.now := by
  obtain ⟨hm, he⟩ := h
  have hpush : (w.moves.push (Move.start w.config servers source target w.now))[number]? =
      some m := hm
  rw [Array.getElem?_push] at hpush
  split at hpush
  · next heq => exact ⟨heq, (Option.some.inj hpush).symm⟩
  · exact absurd ⟨hpush, he⟩ (hidle number m)

/-- The drain takes over, and has all it needs. -/
theorem Handing.launch (h : w.Handing free owed servers target)
    (hmembers : ∀ s ∈ servers, w.site.registry.HasServer target s) :
    (w.launch servers source target).Calm free owed where
  sane := h.sane.congr rfl rfl
  held := rfl
  underway number m hm := by
    obtain ⟨rfl, rfl⟩ := running_launch h.idle hm
    refine ⟨List.mem_map.2 ⟨_, h.granted, by simp⟩, h.reserved, hmembers, fun s hs => ?_⟩
    exact Std.ExtTreeSet.mem_toList.1 hs
  one number number' m m' hm hm' := by
    rw [(running_launch h.idle hm).1, (running_launch h.idle hm').1]
  covered r s hr := by
    rcases h.covered r s hr with hhome | howed | ⟨hs, -⟩
    · exact .inl hhome
    · exact .inr (.inl howed)
    · -- what was astray on a held server is on a pending one now
      refine .inr (.inr ⟨w.moves.size, Move.start w.config servers source target w.now, ?_, ?_⟩)
      · exact ⟨Array.getElem?_push_size, rfl⟩
      · exact Std.ExtTreeSet.mem_toList.2 hs

/-! ### Passes -/

theorem Running.setMove (hm : w.Running number m) (he : m'.ending = none) :
    (w.setMove number m').Running number m' := by
  obtain ⟨hlt, -⟩ := Array.getElem?_eq_some_iff.1 hm.1
  refine ⟨?_, he⟩
  show (w.moves.setIfInBounds number m')[number]? = some m'
  rw [Array.getElem?_setIfInBounds_self_of_lt hlt]

/-- A drain that runs after a move was replaced is the new one's, or ran before. -/
theorem running_setMove {k : Nat} {x : Move} (h : (w.setMove number m').Running k x) :
    (k = number ∧ x = m') ∨ (k ≠ number ∧ w.Running k x) := by
  obtain ⟨hx, he⟩ := h
  have hset : (w.moves.setIfInBounds number m')[k]? = some x := hx
  rw [Array.getElem?_setIfInBounds] at hset
  split at hset
  · next heq =>
    split at hset
    · exact .inl ⟨heq.symm, (Option.some.inj hset).symm⟩
    · cases hset
  · next hne => exact .inr ⟨fun heq => hne heq.symm, hset, he⟩

/-- A move may be replaced by one that differs in what has been done: a server that is not pending
any more has only regions at home. -/
theorem Calm.setMove (h : w.Calm free owed) (hm : w.Running number m)
    (hservers : m'.servers = m.servers) (htarget : m'.target = m.target)
    (hending : m'.ending = none) (hpending : ∀ s ∈ m'.pending, s ∈ m.pending)
    (hclear : ∀ s ∈ m.pending, s ∉ m'.pending → ∀ r, w.site.cluster.On r s →
      w.site.registry.Hosts s r.table) : (w.setMove number m').Calm free owed where
  sane := h.sane.congr rfl rfl
  held := h.held
  underway k x hx := by
    rcases running_setMove hx with ⟨rfl, rfl⟩ | ⟨-, hx⟩
    · have hmove := h.underway k m hm
      refine ⟨hmove.granted, ?_, ?_, fun s hs => ?_⟩
      · rw [hservers, htarget]
        exact hmove.reserved
      · rw [hservers, htarget]
        exact hmove.members
      · rw [hservers]
        exact hmove.pending s (hpending s hs)
    · have hmove := h.underway k x hx
      exact ⟨hmove.granted, hmove.reserved, hmove.members, hmove.pending⟩
  one k k' x x' hx hx' := by
    -- every drain that runs now ran before under the same number
    have hold : ∀ {j : Nat} {y : Move}, (w.setMove number m').Running j y →
        ∃ z, w.Running j z := by
      intro j y hy
      rcases running_setMove hy with ⟨rfl, -⟩ | ⟨-, hy⟩
      · exact ⟨m, hm⟩
      · exact ⟨y, hy⟩
    obtain ⟨z, hz⟩ := hold hx
    obtain ⟨z', hz'⟩ := hold hx'
    exact h.one k k' z z' hz hz'
  covered r s hr := by
    rcases h.covered r s hr with hhome | howed | ⟨k, x, hx, hs⟩
    · exact .inl hhome
    · exact .inr (.inl howed)
    · -- the drain that had the server pending is this one, as no other runs
      obtain rfl := h.one k number x m hx hm
      obtain rfl := Option.some.inj (hx.1.symm.trans hm.1)
      by_cases hs' : s ∈ m'.pending
      · exact .inr (.inr ⟨k, m', hm.setMove hending, hs'⟩)
      · exact .inl (hclear s hs hs' r hr)

/-- A drain may end when no server is pending. -/
theorem Calm.endMove (h : w.Calm free owed) (hm : w.Running number m) (hp : m.pending = [])
    (ending : Ending) : (w.endMove number m ending).Calm free owed := by
  -- the only drain that ran is the one that ends
  have hidle : (w.endMove number m ending).Idle := by
    intro k x hx
    rcases running_setMove hx with ⟨rfl, rfl⟩ | ⟨hne, hx⟩
    · cases hx.2
    · exact hne (h.one k number x m hx hm)
  refine ⟨h.sane.congr rfl rfl, h.held, fun k x hx => absurd hx (hidle k x),
    fun k _ x _ hx _ => absurd hx (hidle k x), fun r s hr => ?_⟩
  rcases h.covered r s hr with hhome | howed | ⟨k, x, hx, hs⟩
  · exact .inl hhome
  · exact .inr (.inl howed)
  · obtain rfl := h.one k number x m hx hm
    obtain rfl := Option.some.inj (hx.1.symm.trans hm.1)
    rw [hp] at hs
    exact absurd hs List.not_mem_nil

end World

end ServerGroups
