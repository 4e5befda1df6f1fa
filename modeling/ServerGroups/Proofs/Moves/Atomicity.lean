/-
ServerGroups/Proofs/Moves/Atomicity.lean

A move of servers is started as a whole or not at all.

Any of the calls that the start of a move makes may fail, and the servers are
reserved before the registry is written.  If it fails, then everything is as it
was where the membership lock was had:

    the registry    the write comes last, and a write that fails changes nothing
    the cluster     is only looked at
    reservations    those of the move are given back, and there were none of
                    its servers before
    the lock        is given back, and nobody had it before

Only a move whose servers are reserved is refused without asking for the lock,
and then nothing at all has happened.

Design.  While the lock is waited for, drains of other moves may make passes
and end (`World.Elapses`).  What they do is none of the move's doing, so the
world to compare with is the one in which the lock is had; it is the one of the
call if the lock is free there.
-/
import ServerGroups.Proofs.Exclusion.Grasp
import ServerGroups.Proofs.Retries.Servers

namespace ServerGroups

/-- What has been reserved and is given back was never reserved. -/
theorem Reservations.release_reserve {r r' : Reservations} {servers : ServerSet} {target : String}
    (h : r.reserve servers target = .ok r') : r'.release servers = r := by
  have htarget : ∀ s, (r'.release servers).target? s = r.target? s := by
    intro s
    rw [target?_release]
    rcases target?_of_reserve h s with ⟨hs, hnone, -⟩ | ⟨hs, hsame⟩
    · rw [if_pos hs, hnone]
    · rw [if_neg hs, hsame]
  obtain ⟨targets⟩ := r
  exact congrArg Reservations.mk (Std.ExtTreeMap.ext_getElem? htarget)

namespace World

variable {v w x : World} {servers : ServerSet} {target : String}

/-! ### While a lock is waited for -/

/-- Time passes, and drains make passes. -/
inductive Elapses (w : World) : World → Prop
  | refl : w.Elapses w
  | advance {v : World} (time : Nat) : w.Elapses v → w.Elapses (v.advance time)
  | pass {v : World} {number : Nat} {m : Move} : w.Elapses v → v.Running number m →
    w.Elapses (v.pass number m)

namespace Elapses

/-- No drain changes the registry. -/
theorem registry (h : w.Elapses v) : v.site.registry = w.site.registry := by
  induction h with
  | refl => rfl
  | advance time h ih => exact ih
  | @pass v number m h hm ih => exact (v.swept_pass number m).services.1.trans ih

/-- A drain has nothing of the operation's. -/
theorem grasps (h : w.Elapses v) (hw : w.Grasps .free) : v.Grasps .free := by
  induction h with
  | refl => exact hw
  | advance time h ih => exact ih
  | @pass v number m h hm ih =>
    obtain ⟨hheld, hgrants⟩ := ih
    -- a drain that ends gives locks back, so there are at most fewer of them
    obtain ⟨m', -, -, -, hheld', hlocks⟩ := (v.swept_pass number m).coordinator
    refine ⟨hheld'.trans hheld, fun g hg => hgrants g ?_⟩
    rcases hlocks with ⟨-, hlocks, -⟩ | ⟨-, hlocks, -⟩ <;> rw [hlocks] at hg
    · exact hg
    · exact List.mem_of_mem_filter hg

end Elapses

/-! ### What is left of a move that is not started -/

/-- The registry, the cluster and what the coordinator keeps are the same. -/
structure Restores (w x : World) : Prop where
  registry : x.site.registry = w.site.registry
  cluster : x.site.cluster = w.site.cluster
  reservations : x.reservations = w.reservations
  locks : x.locks = w.locks
  moves : x.moves = w.moves

/-- However far a move has been looked into under the membership lock: what it has taken is given
back. -/
theorem Checks.restores (h : (v.granted .membership).Checks servers target x)
    (hv : v.Grasps .free) : v.Restores x.letGo where
  registry := h.registry
  cluster := h.cluster
  reservations := by
    show x.reservations.release x.held = v.reservations
    rcases h.reserved with ⟨hreservations, hheld⟩ | ⟨hreserve, hheld⟩
    · have hnone : x.held = ∅ := hheld.trans hv.1
      rw [hreservations, hnone]
      rfl
    · rw [hheld, Reservations.release_reserve hreserve]
      rfl
  locks := by
    show x.locks.releaseAll .operation = v.locks
    rw [h.locks]
    exact Locks.releaseAll_grant hv.2 .membership
  moves := h.moves

/-- A move is waited for, has stopped before it took the membership lock, or stops under it. -/
def starting (w : World) (servers : ServerSet) (target : String) : Terms where
  strict := False
  waits _ v := w.Elapses v ∧ w.locks.isFree .membership false = false
  stops _ x := (x = w ∧ ∃ s ∈ servers, w.reservations.target? s ≠ none) ∨
    ∃ v, w.Elapses v ∧ (w.locks.isFree .membership false = true → v = w) ∧
      v.locks.isFree .membership false = true ∧
      (v.granted .membership).Checks servers target x

theorem stable_starting (w : World) (servers : ServerSet) (target : String) :
    (w.starting servers target).Stable where
  advance hv time := ⟨.advance time hv.1, hv.2⟩
  pass hv hm he := ⟨.pass hv.1 ⟨hm, he⟩, hv.2⟩

/-- The lock is had at the call, if it is free there, and else after a wait. -/
theorem takes_starting (hv : (w.starting servers target).Takes w v) :
    w.Elapses v ∧ (w.locks.isFree .membership false = true → v = w) := by
  rcases hv.found with rfl | ⟨-, hv, hlocked⟩
  · exact ⟨.refl, fun _ => rfl⟩
  · exact ⟨hv, fun hfree => absurd hfree (by rw [hlocked]; simp)⟩

/-- A move of servers is started, or stops, as its terms say. -/
theorem concludes_startMove (hn : w.site.registry.Named) (servers : ServerSet)
    (target : String) :
    (w.starting servers target).Concludes
      (fun handle x => (handle = none ∧ servers.toList = []) ∨ ∃ v source, w.Elapses v ∧
        (w.locks.isFree .membership false = true → v = w) ∧ v.Launches servers source target x)
      (w.operate (.startMove servers target)) := by
  refine Terms.operate_concludes (o := .startMove servers target)
    (w.stable_starting servers target) (by simp) ?_
  refine Terms.ensures_startMove (T := w.starting servers target) False.elim
    (fun _ hlocked => ⟨.refl, hlocked⟩) False.elim (fun v hv => ?_)
    (fun cause hconflict => .inl ⟨rfl, ?_⟩) (fun cause v x hv _ hx => ?_)
    (fun _ cause v x hv hx => ?_) (fun v source x hv _ hx => ?_)
    fun x hempty _ => .inl ⟨rfl, hempty⟩
  · rw [(takes_starting hv).1.registry]
    exact hn
  · by_contra hnone
    push Not at hnone
    rw [Reservations.conflict?_eq_none.2 hnone] at hconflict
    cases hconflict
  · exact .inr ⟨v, (takes_starting hv).1, (takes_starting hv).2, hv.free, hx.checks⟩
  · exact .inr ⟨v, (takes_starting hv).1, (takes_starting hv).2, hv.free, hx⟩
  · exact .inr ⟨v, source.name, (takes_starting hv).1, (takes_starting hv).2, hx⟩

/-! ### All or nothing -/

/-- A move that has not been started has left everything as it was where it had the lock. -/
theorem restores_of_stops {cause : Option Error} (hrest : w.Grasps .free)
    (h : (w.starting servers target).stops cause x) :
    ∃ v, w.Elapses v ∧ (w.locks.isFree .membership false = true → v = w) ∧ v.Restores x.letGo ∧
      (x.letGo.locks.isFree .membership false = true ∨
        x.letGo = w ∧ ∃ s ∈ servers, w.reservations.target? s ≠ none) := by
  rcases h with ⟨rfl, hreserved⟩ | ⟨v, hv, hfree, hisFree, hx⟩
  · have hsame := letGo_eq hrest
    rw [hsame]
    exact ⟨x, .refl, fun _ => rfl, ⟨rfl, rfl, rfl, rfl, rfl⟩, .inr ⟨rfl, hreserved⟩⟩
  · have hrestores := hx.restores (hv.grasps hrest)
    refine ⟨v, hv, hfree, hrestores, .inl ?_⟩
    rw [hrestores.locks]
    exact hisFree

/-- A move that has been started has moved and reserved every one of its servers. -/
theorem Launches.started {source : String} (h : v.Launches servers source target x) :
    source ≠ target ∧ ∀ s ∈ servers, v.site.registry.HasServer source s ∧
      x.letGo.site.registry.HasServer target s ∧ ¬ x.letGo.site.registry.HasServer source s ∧
      x.letGo.reservations.target? s = some target := by
  obtain ⟨moved, hmoved⟩ := h.change
  refine ⟨h.differ, fun s hs => ⟨h.members s hs, h.hasServer s hs, fun hleft => ?_, ?_⟩⟩
  · rcases (Registry.hasServer_moveServers hmoved).1 hleft with ⟨heq, -⟩ | ⟨-, hnot⟩
    · exact h.differ heq
    · exact hnot ⟨rfl, hs⟩
  · show (x.reservations.release x.held).target? s = some target
    rw [h.held, Reservations.target?_release, if_neg Std.ExtTreeSet.not_mem_empty]
    exact Reservations.target?_reserve h.reserved hs

/-- **A move of servers is started as a whole or not at all.**  Whatever calls fail: if the start of
a move fails or crashes, then the registry, the cluster, the reservations and the locks are as they
were where the membership lock was had, which is at the call if the lock is free there, and it is
free again.  Only if a server is reserved already is the move refused at once, and then the world is
the one of the call.  If the start of a move of some servers returns, then all of them have moved
to the target and are reserved for it. -/
theorem startMove_all_or_nothing (hn : w.site.registry.Named) (hrest : w.Grasps .free)
    (servers : ServerSet) (target : String) :
    (∀ outcome x, w.operate (.startMove servers target) = (outcome, x) →
      (outcome = .crashed ∨ ∃ cause, outcome = .failed cause) →
      ∃ v, w.Elapses v ∧ (w.locks.isFree .membership false = true → v = w) ∧ v.Restores x ∧
        (x.locks.isFree .membership false = true ∨
          x = w ∧ ∃ s ∈ servers, w.reservations.target? s ≠ none)) ∧
    ∀ handle x, w.operate (.startMove servers target) = (.returned handle, x) →
      servers.toList ≠ [] → ∃ source, source ≠ target ∧ ∀ s ∈ servers,
        w.site.registry.HasServer source s ∧ x.site.registry.HasServer target s ∧
          ¬ x.site.registry.HasServer source s ∧ x.reservations.target? s = some target := by
  have hends := concludes_startMove hn servers target
  refine ⟨fun outcome x h hstopped => ?_, fun handle x h hne => ?_⟩ <;> rw [h] at hends
  · rcases hstopped with rfl | ⟨cause, rfl⟩
    · obtain ⟨y, hy, rfl⟩ := hends
      exact restores_of_stops hrest hy
    · obtain ⟨y, hy, rfl⟩ := hends
      exact restores_of_stops hrest hy
  · obtain ⟨y, ⟨-, hempty⟩ | ⟨v, source, hv, -, hy⟩, rfl⟩ := hends
    · exact absurd hempty hne
    · rw [← hv.registry]
      exact ⟨source, hy.started⟩

/-! ### A write of the registry that is lost -/

/-- Two servers in the group `default` and a group without members; the next write of the registry
that moves servers fails. -/
def unwritable : World :=
  { paired with faults := [⟨"registry.move_servers", 0, 1, .fails (.unavailable "lost")⟩] }

theorem grasps_unwritable : unwritable.Grasps .free :=
  ⟨rfl, fun _ hg => absurd hg List.not_mem_nil⟩

/-- The first call has reserved the server when the write is lost, and leaves nothing; the second
one moves it. -/
theorem startMove_all_or_nothing_unwritable :
    let lost := (unwritable.operate (.startMove {⟨"rs1", 1⟩} "a")).2
    unwritable.Restores lost ∧ lost.locks.isFree .membership false = true ∧
      (lost.operate (.startMove {⟨"rs1", 1⟩} "a")).2.site.registry.HasServer "a" ⟨"rs1", 1⟩ := by
  intro lost
  have hfailed : unwritable.operate (.startMove {⟨"rs1", 1⟩} "a") =
      (.failed (.unavailable (.unavailable "lost")), lost) :=
    Prod.ext (Outcome.eq_failed (by decide +kernel)) rfl
  have hnamed : unwritable.site.registry.Named := partitioned_paired.named
  obtain ⟨hnothing, -⟩ := startMove_all_or_nothing (w := unwritable) hnamed grasps_unwritable
    {⟨"rs1", 1⟩} "a"
  obtain ⟨v, -, hsame, hrestores, hfree⟩ := hnothing _ _ hfailed (.inr ⟨_, rfl⟩)
  obtain rfl := hsame (by decide)
  have hunreserved : ∀ s, unwritable.reservations.target? s = none := fun s => by rfl
  have hfree' := hfree.resolve_right fun ⟨_, s, _, hs⟩ => hs (hunreserved s)
  have hlost : lost.site.registry.Named := by
    rw [hrestores.registry]
    exact hnamed
  have hrest : lost.Grasps .free := by
    refine ⟨by rfl, ?_⟩
    rw [hrestores.locks]
    exact grasps_unwritable.2
  obtain ⟨-, hall⟩ := startMove_all_or_nothing (w := lost) hlost hrest {⟨"rs1", 1⟩} "a"
  obtain ⟨source, -, hmoved⟩ := hall (some 0) _ (by rfl) (by decide +kernel)
  exact ⟨hrestores, hfree', (hmoved ⟨"rs1", 1⟩ (by decide +kernel)).2.1⟩

end World

end ServerGroups
