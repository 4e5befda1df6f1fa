/-
ServerGroups/Proofs/Retries/Servers.lean

A failed move of servers, and the same move once more.

A move that fails before the registry was asked leaves the registry as it was.
One that fails later does so with its drain: then the servers belong to the
target, and the lock and the reservation have been given back
(`World.LeftOff`).  So nothing stands in the way of the same move once more,
but it is refused all the same, since the servers are in the target group
already; what is astray on them stays there (`retried_move_refused`).

Design.  While the move waits for its drain, other drains may come to an end.
They give back what they hold and change no group, so what is known at the wait
(`World.Engaged`) is about the registry, the move's own record, and who may
have the membership lock.
-/
import ServerGroups.Proofs.Confinement
import ServerGroups.Proofs.Runs.Drain
import ServerGroups.Proofs.Runs.Holdings
import ServerGroups.Proofs.Runs.ServerMove

namespace ServerGroups

open Program

/-- Some servers belong to a group that a move can name, and to no other. -/
structure Registry.Enrolled (r : Registry) (servers : ServerSet) (target : String) : Prop where
  partitioned : r.Partitioned
  nonempty : servers.toList ≠ []
  name : target ≠ ""
  members : ∀ s ∈ servers, r.HasServer target s

namespace World

variable {v w w' x : World} {number : Nat} {servers : ServerSet} {source target : String}
variable {cause : Error}

/-! ### What a failed move leaves -/

/-- A move has changed the membership of its servers, and holds nothing. -/
structure LeftOff (servers : ServerSet) (target : String) (w : World) : Prop where
  enrolled : w.site.registry.Enrolled servers target
  free : w.locks.isFree .membership false = true
  unreserved : w.reservations.conflict? servers = none

/-- A move has changed the membership of its servers.  While its drain runs nobody else has the
membership lock; when it has ended nothing is held any more. -/
structure Engaged (number : Nat) (servers : ServerSet) (target : String) (w : World) : Prop where
  enrolled : w.site.registry.Enrolled servers target
  move : ∃ m, w.moves[number]? = some m ∧ m.servers = servers ∧
    (m.ending = none → w.locks.Only .membership (.move number)) ∧
    (m.ending ≠ none → w.LeftOff servers target)

theorem LeftOff.letGo (h : w.LeftOff servers target) : w.letGo.LeftOff servers target :=
  ⟨h.enrolled, Locks.isFree_releaseAll h.free _, Reservations.conflict?_release h.unreserved _⟩

theorem LeftOff.heals (h : w.LeftOff servers target) (hv : w.Heals v) :
    v.LeftOff servers target := by
  obtain ⟨henrolled, hfree, hunreserved⟩ := h
  rw [← hv.registry] at henrolled
  rw [← hv.locks] at hfree
  rw [← hv.reservations] at hunreserved
  exact ⟨henrolled, hfree, hunreserved⟩

theorem Launches.engaged (h : w.Launches servers source target x)
    (hw : w.site.registry.Partitioned) : x.Engaged w.moves.size servers target where
  enrolled := ⟨h.partitioned hw, h.nonempty, h.name, h.hasServer⟩
  move := by
    refine ⟨_, h.getElem?_moves, rfl, fun _ => ?_, fun hne => absurd rfl hne⟩
    rw [h.locks]
    exact Locks.only_handOver h.free _

theorem Engaged.advance (h : w.Engaged number servers target) (time : Nat) :
    (w.advance time).Engaged number servers target := by
  obtain ⟨henrolled, m, hm, hservers, hrunning, hended⟩ := h
  exact ⟨henrolled, m, hm, hservers, hrunning, fun he => ⟨henrolled, (hended he).2, (hended he).3⟩⟩

/-- The pass of another drain gives back, if anything, what is not the move's. -/
theorem Engaged.pass_of_ne (h : w.Engaged number servers target) {k : Nat} {m : Move}
    (hne : k ≠ number) (hw' : w.Swept k m w') : w'.Engaged number servers target := by
  obtain ⟨henrolled, m₀, hm₀, hservers, hrunning, hended⟩ := h
  obtain ⟨m', hmoves, -, -, -, hheld⟩ := hw'.coordinator
  have henrolled' : w'.site.registry.Enrolled servers target := by
    rw [hw'.services.1]
    exact henrolled
  refine ⟨henrolled', m₀, ?_, hservers, ?_⟩
  · rw [hmoves, Array.getElem?_setIfInBounds_ne hne]
    exact hm₀
  · rcases hheld with ⟨-, hlocks, hreservations⟩ | ⟨-, hlocks, hreservations⟩
    · exact ⟨fun he => by rw [hlocks]; exact hrunning he, fun he => ⟨henrolled',
        by rw [hlocks]; exact (hended he).free,
        by rw [hreservations]; exact (hended he).unreserved⟩⟩
    · exact ⟨fun he => by rw [hlocks]; exact (hrunning he).releaseAll _, fun he => ⟨henrolled',
        by rw [hlocks]; exact Locks.isFree_releaseAll (hended he).free _,
        by rw [hreservations]; exact Reservations.conflict?_release (hended he).unreserved _⟩⟩

/-- The last pass of the move's own drain gives everything back. -/
theorem Engaged.pass_self (h : w.Engaged number servers target) {m : Move}
    (hm : w.Running number m) (hw' : w.Swept number m w') : w'.Engaged number servers target := by
  obtain ⟨henrolled, m₀, hm₀, hservers, hrunning, -⟩ := h
  obtain rfl := Option.some.inj (hm.1.symm.trans hm₀)
  obtain ⟨m', hmoves, hservers', -, -, hheld⟩ := hw'.coordinator
  have henrolled' : w'.site.registry.Enrolled servers target := by
    rw [hw'.services.1]
    exact henrolled
  obtain ⟨hlt, -⟩ := Array.getElem?_eq_some_iff.1 hm.1
  refine ⟨henrolled', m', ?_, hservers'.trans hservers, ?_⟩
  · rw [hmoves]
    exact Array.getElem?_setIfInBounds_self_of_lt hlt
  · rcases hheld with ⟨he, hlocks, -⟩ | ⟨he, hlocks, hreservations⟩
    · refine ⟨fun _ => by rw [hlocks]; exact hrunning hm.2, fun hne => absurd (he.trans hm.2) hne⟩
    · refine ⟨fun hnone => absurd hnone he, fun _ => ⟨henrolled', ?_, ?_⟩⟩
      · rw [hlocks]
        exact (hrunning hm.2).isFree_releaseAll
      · rw [hreservations, hservers]
        exact Reservations.conflict?_release_self

theorem Engaged.pass (h : w.Engaged number servers target) {k : Nat} {m : Move}
    (hm : w.Running k m) : (w.pass k m).Engaged number servers target := by
  by_cases hk : k = number
  · subst hk
    exact h.pass_self hm (w.swept_pass k m)
  · exact h.pass_of_ne hk (w.swept_pass k m)

/-! ### The first call -/

/-- A move of servers that starts in a world may fail before or after it has changed the
membership; nothing is asked of the services. -/
def changing (w : World) (servers : ServerSet) (target : String) : Terms where
  strict := False
  waits
    | .join number, x => x.Engaged number servers target
    | _, x => x.site.registry = w.site.registry
  stops _ x := x.site.registry = w.site.registry ∨ x.LeftOff servers target

theorem stable_changing (w : World) (servers : ServerSet) (target : String) :
    (w.changing servers target).Stable where
  advance {q x} hx time := by
    cases q with
    | join number => exact Engaged.advance hx time
    | _ => exact hx
  pass {q x k m} hx hm he := by
    have hsame : x.site.registry = w.site.registry →
        (x.pass k m).site.registry = w.site.registry :=
      fun hr => (x.swept_pass k m).services.1.trans hr
    cases q with
    | join number => exact Engaged.pass hx ⟨hm, he⟩
    | _ => exact hsame hx

/-- Whoever waits for the drain learns how it ended, when nothing is held any more. -/
theorem ensures_awaitMove (hx : x.Engaged number servers target) :
    (Coordinator.awaitMove number).Ensures (w.changing servers target).rule
      (fun _ _ => True) x := by
  unfold Coordinator.awaitMove
  rw [ensures_bind]
  refine Terms.ensures_join (fun _ _ => ⟨id, hx⟩) fun y ending hy hended => ?_
  have hengaged : y.Engaged number servers target := by
    rcases hy with rfl | ⟨-, hy⟩
    · exact hx
    · exact hy
  obtain ⟨-, m, hm, -, -, hleft⟩ := hengaged
  have hy' : y.LeftOff servers target := hleft (by simp [hended m hm])
  cases ending with
  | completed => trivial
  | failed cause => exact .inr hy'
  | crashed => exact ⟨False.elim, .inr ⟨hy'.enrolled, hy'.free, hy'.unreserved⟩⟩

/-- A move that fails has not changed the registry, or leaves its servers in the target group and
holds nothing. -/
theorem leftOff_of_failed (hp : w.site.registry.Partitioned)
    (h : w.operate (.moveServers servers target) = (.failed cause, w')) :
    w'.site.registry = w.site.registry ∨ w'.LeftOff servers target := by
  have hfound : ∀ v, (w.changing servers target).Found (.lock .membership false .operation) w v →
      v.site.registry = w.site.registry := by
    rintro v (rfl | ⟨-, hv⟩)
    · rfl
    · exact hv
  have hmove : (Coordinator.moveServers servers target).Ensures
      (w.changing servers target).rule (fun _ _ => True) w := by
    unfold Coordinator.moveServers
    rw [ensures_bind]
    refine Terms.ensures_startMove False.elim (fun _ _ => rfl) False.elim (fun v hv => ?_)
      (fun _ _ => Or.inl rfl) (fun cause v x hv _ hx => ?_) (fun _ cause v x hv hx => ?_)
      (fun v source x hv _ hx => ?_) fun x _ _ => trivial
    · rw [hfound v hv.found]
      exact hp.named
    · exact Or.inl (hx.registry.trans (hfound v hv.found))
    · exact Or.inl (hx.registry.trans (hfound v hv.found))
    · have hpartitioned : v.site.registry.Partitioned := by
        rw [hfound v hv.found]
        exact hp
      exact ensures_awaitMove (hx.engaged hpartitioned)
  have hends := Terms.operate_concludes (o := .moveServers servers target)
    (w.stable_changing servers target) (by simp) hmove
  rw [h] at hends
  obtain ⟨x, hx | hx, rfl⟩ := hends
  · exact .inl hx
  · exact .inr hx.letGo

/-! ### The second call -/

/-- The move of servers that are in the target group already. -/
theorem LeftOff.ensures_moveServers (h : w.LeftOff servers target) {T : Terms} (hs : T.strict)
    (hw : w.Healthy)
    (hstop : ∀ x, (w.granted .membership).Same x →
      T.stops (some (.refused (.sameGroup target))) x) :
    (Coordinator.moveServers servers target).Ensures T.rule (fun _ _ => False) w := by
  obtain ⟨⟨hp, hnonempty, hname, hmembers⟩, hfree, hunreserved⟩ := h
  unfold Coordinator.moveServers Coordinator.startMove
  split
  · next hempty => exact absurd hempty hnonempty
  · next first rest hservers =>
    have hfirst : w.site.registry.HasServer target first := by
      refine hmembers first (Std.ExtTreeSet.mem_toList.1 ?_)
      rw [hservers]
      exact List.mem_cons_self
    rw [ensures_bind, ensures_bind]
    refine Terms.ensures_reservations ?_
    rw [hunreserved]
    dsimp only
    rw [ensures_bind]
    refine Terms.ensures_lock (fun _ => hfree) (absurd hs) fun v hv _ => ?_
    obtain rfl := hv.eq hs
    have hT : T.Allows (v.granted .membership) := Terms.allows_of_strict hs (hw.granted _).obliging
    rw [ensures_bind]
    refine Terms.ensures_source hT hp.named (fun cause x hmissing _ => ?_)
      fun source goal x hx _ hgoal _ hsource hmember => ?_
    · -- the target has a name and is there, and the server is in it
      rcases hmissing with hempty | hnone | hnone
      · exact absurd hempty hname
      · obtain ⟨g, hg, -⟩ := hfirst
        exact absurd (hg.symm.trans hnone) (by simp)
      · exact absurd hfirst (Registry.groupOfServer?_eq_none.1 hnone target)
    · rw [ensures_bind, Program.ensures_refuseIf]
      refine ⟨fun _ => hstop x hx, fun hne => absurd ?_ hne⟩
      rw [hgoal]
      exact hp.server ⟨source, hsource, hmember⟩ hfirst

/-- What a move has left off it does not take up again. -/
theorem LeftOff.refused (h : w.LeftOff servers target) (hw : w.Healthy) :
    ∃ w', w.operate (.moveServers servers target) =
        (.failed (.refused (.sameGroup target)), w') ∧
      w'.site.registry = w.site.registry ∧ w'.site.cluster = w.site.cluster ∧
      w'.history.unassigned = w.history.unassigned := by
  obtain ⟨x, hperform, hx⟩ := Terms.perform_of_fails
    (h.ensures_moveServers (T := Terms.answered _) trivial hw fun x hx => ⟨rfl, hx⟩)
  refine ⟨x.letGo, (operate_eq (by simp) w).trans hperform, hx.registry, hx.cluster, ?_⟩
  show x.history.unassigned = _
  rw [hx.unassigned]
  simp [granted]

/-- **A failed move cannot be taken up again by calling it once more.**  If a move of servers fails
after it has changed their membership, then the same move is refused when the services work again:
the servers are in the target group already.  It changes nothing, so a region that was astray on
one of the servers still is. -/
theorem retried_move_refused (hp : w.site.registry.Partitioned)
    (h : w.operate (.moveServers servers target) = (.failed cause, w'))
    (hchanged : w'.site.registry ≠ w.site.registry) (hv : w'.Heals v) :
    ∃ v', v.operate (.moveServers servers target) =
        (.failed (.refused (.sameGroup target)), v') ∧
      v'.site.registry = v.site.registry ∧ v'.site.cluster = v.site.cluster ∧
      v'.history.unassigned = v.history.unassigned ∧
      (∀ s ∈ servers, v'.site.registry.HasServer target s) ∧
      ∀ s ∈ servers, ∀ r, w'.Astray target r s → v'.Astray target r s := by
  have hleft := ((leftOff_of_failed hp h).resolve_left hchanged).heals hv
  obtain ⟨v', hrefused, hregistry, hcluster, hunassigned⟩ := hleft.refused hv.healthy
  refine ⟨v', hrefused, hregistry, hcluster, hunassigned, fun s hs => ?_, fun s hs r hr => ?_⟩
  · rw [hregistry]
    exact hleft.enrolled.members s hs
  · obtain ⟨hon, howns⟩ := hr
    rw [← hv.registry] at howns
    refine ⟨?_, by rw [hregistry]; exact howns⟩
    rw [hcluster]
    exact hv.on.2 hon

/-! ### A move whose first request to unassign a region is lost -/

/-- Two servers in the group `default`, a region on the first one, and a group without members; the
next request to unassign a region fails. -/
def faltering : World :=
  { paired with faults := [⟨"cluster.unassign", 0, 1, .fails (.unavailable "lost")⟩] }

/-- The first server has been moved to the other group, but its drain has failed. -/
def faltered : World := (faltering.operate (.moveServers {⟨"rs1", 1⟩} "a")).2

/-- The services work again. -/
def mended : World := { faltered with faults := [] }

theorem operate_faltering : faltering.operate (.moveServers {⟨"rs1", 1⟩} "a") =
    (.failed (.unavailable (.unavailable "lost")), faltered) :=
  Prod.ext (Outcome.eq_failed (by decide +kernel)) rfl

theorem heals_mended : faltered.Heals mended :=
  ⟨⟨rfl, rfl, rfl, rfl, rfl⟩, rfl, by rfl, ⟨by rfl, fun _ h => (by cases h), by rfl⟩, rfl⟩

theorem astray_faltered :
    faltered.Astray "a" ⟨⟨"default", "t1"⟩, "r1"⟩ ⟨"rs1", 1⟩ := by
  have huntracked : faltered.site.registry.groupOfTable? ⟨"default", "t1"⟩ = none := by
    decide +kernel
  exact ⟨.inl (by decide +kernel), Registry.not_owns_of_untracked huntracked (by decide)⟩

/-- The region that the first call left on the server is there after the second one. -/
theorem retried_move_refused_mended : ∃ v, mended.operate (.moveServers {⟨"rs1", 1⟩} "a") =
    (.failed (.refused (.sameGroup "a")), v) ∧
      v.Astray "a" ⟨⟨"default", "t1"⟩, "r1"⟩ ⟨"rs1", 1⟩ := by
  have hchanged : faltered.site.registry ≠ faltering.site.registry := by decide +kernel
  obtain ⟨v, hrefused, -, -, -, -, hastray⟩ :=
    retried_move_refused (w := faltering) partitioned_paired operate_faltering hchanged heals_mended
  exact ⟨v, hrefused, hastray _ (by decide +kernel) _ astray_faltered⟩

/-- The first call has moved the server and fails; when the services work again the second call is
refused, and the region is still on the server. -/
theorem failed_move_not_completed :
    faltering.operate (.moveServers {⟨"rs1", 1⟩} "a") =
        (.failed (.unavailable (.unavailable "lost")), faltered) ∧
      faltered.Heals mended ∧
      (mended.operate (.moveServers {⟨"rs1", 1⟩} "a")).1 = .failed (.refused (.sameGroup "a")) ∧
      (mended.operate (.moveServers {⟨"rs1", 1⟩} "a")).2.site.cluster.assignments[
        (⟨⟨"default", "t1"⟩, "r1"⟩ : Region)]? = some ⟨"rs1", 1⟩ :=
  ⟨operate_faltering, heals_mended, Outcome.eq_failed (by decide +kernel), by decide +kernel⟩

end World

end ServerGroups
