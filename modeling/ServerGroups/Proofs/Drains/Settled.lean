/-
ServerGroups/Proofs/Drains/Settled.lean

What a settled move says of its servers.

A pass looks at the pending servers only, and a server on which it finds
nothing astray is not looked at again.  So while the cluster goes on changing,
every server of a move is pending or was clear just before some pass
(`World.Watched`), and when the move is settled each of them was clear at a
pass of its own.

This is less than all of them being clear at once: what the cluster brings to a
server after the pass that dropped it stays there (`settled_with_strays`).
Nothing else does, since a pass brings no region anywhere.

Design.  Nothing is asked of the services, which may fail, or of the changes of
the cluster, which may be any.  Only the groups are not stored anew from
outside, so that a region is astray or not for the same tables throughout.
-/
import ServerGroups.Proofs.Drains.Turns
import ServerGroups.Proofs.Membership

namespace ServerGroups

namespace World

variable {v w w' : World} {handle : Option Nat} {number : Nat} {m : Move}
variable {servers : ServerSet} {target : String} {r : Region} {s : ServerAddress}
variable {t : Turn Change} {turns : List (Turn Change)}

/-- The services change from outside. -/
def changed (w : World) (c : Change) : World := { w with site := w.site.change c }

/-! ### The registry, and the regions on a server -/

theorem registry_nextPass (w : World) (handle : Option Nat) :
    (w.nextPass handle).site.registry = w.site.registry := by
  rcases w.nextPass_cases handle with ⟨-, h⟩ | ⟨number, m, -, -, h⟩
  · rw [h]
  · exact h.services.1

theorem on_nextPass (h : (w.nextPass handle).site.cluster.On r s) : w.site.cluster.On r s := by
  rcases w.nextPass_cases handle with ⟨-, heq⟩ | ⟨number, m, -, -, hswept⟩
  · rwa [heq] at h
  · obtain ⟨-, ⟨rs, hcluster⟩, -⟩ := hswept.services
    rw [hcluster] at h
    exact Cluster.on_requests h

theorem registry_turn (h : ∀ g, t ≠ .around (.stored g)) :
    (w.turn changed handle t).site.registry = w.site.registry := by
  cases t with
  | around c =>
    cases c with
    | stored g => exact absurd rfl (h g)
    | _ => rfl
  | tick time => rfl
  | pass => exact w.registry_nextPass handle

theorem registry_after : ∀ {turns : List (Turn Change)} {w : World},
    (∀ g, .around (.stored g) ∉ turns) →
      (w.after changed handle turns).site.registry = w.site.registry
  | [], _, _ => rfl
  | t :: turns, w, h => by
    have hturns : ∀ g, .around (.stored g) ∉ turns := fun g hg => h g (List.mem_cons_of_mem _ hg)
    exact (registry_after hturns).trans
      (registry_turn fun g hg => h g (hg ▸ List.mem_cons_self))

/-- A region that was not on a server and is there after some turns was brought by one of the
changes from outside. -/
theorem came_around : ∀ {turns : List (Turn Change)} {w : World}, ¬ w.site.cluster.On r s →
    (w.after changed handle turns).site.cluster.On r s →
      ∃ kept c rest, turns = kept ++ .around c :: rest ∧
        ¬ (w.after changed handle kept).site.cluster.On r s ∧
        ((w.after changed handle kept).changed c).site.cluster.On r s
  | [], _, hnot, h => absurd h hnot
  | t :: turns, w, hnot, h => by
    by_cases hon : (w.turn changed handle t).site.cluster.On r s
    · cases t with
      | around c => exact ⟨[], c, turns, rfl, hnot, hon⟩
      | tick time => exact absurd hon hnot
      | pass => exact absurd (on_nextPass hon) hnot
    · obtain ⟨kept, c, rest, rfl, hkept, hcame⟩ := came_around hon h
      exact ⟨t :: kept, c, rest, rfl, hkept, hcame⟩

/-! ### Servers that are watched -/

/-- A pass that is one of some turns finds nothing astray on a server. -/
def FoundClear (v : World) (handle : Option Nat) (target : String) (s : ServerAddress)
    (turns : List (Turn Change)) : Prop :=
  ∃ before after, turns = before ++ .pass :: after ∧
    ∀ r, ¬ (v.after changed handle before).Astray target r s

/-- When some turns have been played every server of a move is pending, or a pass has found it
clear; a settled move has no pending servers. -/
def Watched (v : World) (number : Nat) (servers : ServerSet) (target : String)
    (turns : List (Turn Change)) : Prop :=
  ∃ m, (v.after changed (some number) turns).moves[number]? = some m ∧ m.target = target ∧
    (m.phase = .settled → m.pending = []) ∧
    ∀ s ∈ servers, s ∈ m.pending ∨ v.FoundClear (some number) target s turns

theorem FoundClear.snoc (h : v.FoundClear handle target s turns) (t : Turn Change) :
    v.FoundClear handle target s (turns ++ [t]) := by
  obtain ⟨before, after, rfl, hclear⟩ := h
  exact ⟨before, after ++ [t], by simp, hclear⟩

/-- A turn that leaves the move as it is does not end the watch. -/
theorem Watched.snoc_of_moves (h : v.Watched number servers target turns)
    (ht : (v.after changed (some number) (turns ++ [t])).moves =
      (v.after changed (some number) turns).moves) :
    v.Watched number servers target (turns ++ [t]) := by
  obtain ⟨m, hm, htarget, hsettled, hservers⟩ := h
  exact ⟨m, by rw [ht]; exact hm, htarget, hsettled,
    fun s hs => (hservers s hs).imp_right fun hclear => hclear.snoc t⟩

theorem Watched.snoc_pass (h : v.Watched number servers target turns)
    (hn : (v.after changed (some number) turns).site.registry.Named)
    (hgroup : target ∈ (v.after changed (some number) turns).site.registry.groups) :
    v.Watched number servers target (turns ++ [.pass]) := by
  have hlast : v.after changed (some number) (turns ++ [.pass]) =
      (v.after changed (some number) turns).nextPass (some number) := after_append
  rcases (v.after changed (some number) turns).nextPass_cases (some number) with
    ⟨-, hover⟩ | ⟨k, m', hk, hrunning, hswept⟩
  · exact h.snoc_of_moves (by rw [hlast, hover])
  · obtain rfl := Option.some.inj hk
    obtain ⟨m, hm, rfl, -, hservers⟩ := h
    obtain rfl := Option.some.inj (hrunning.1.symm.trans hm)
    obtain ⟨m'', hm'', htarget, hsettled, hpending⟩ := hswept.move hrunning
    refine ⟨m'', by rw [hlast]; exact hm'', htarget, hsettled, fun s hs => ?_⟩
    rcases hservers s hs with hs | hclear
    · rcases hpending with hbusy | ⟨-, hsame, -⟩
      · -- a pending server that is dropped had no strays
        refine (Decidable.em (s ∈ m''.pending)).imp_right fun hidle =>
          ⟨turns, [], rfl, fun r hr => ?_⟩
        rw [hbusy] at hidle
        exact hidle ((mem_busy hn hgroup).2 ⟨hs, r, hr⟩)
      · rw [hsame]
        exact .inl hs
    · exact .inr (hclear.snoc .pass)

/-- Whatever happens around the passes, every server of the move is watched. -/
theorem Watched.after (h : v.Watched number servers target []) (hn : v.site.registry.Named)
    (hgroup : target ∈ v.site.registry.groups) (hstored : ∀ g, .around (.stored g) ∉ turns) :
    v.Watched number servers target turns := by
  induction turns using List.reverseRecOn with
  | nil => exact h
  | append_singleton turns t ih =>
    have hbefore : ∀ g, .around (.stored g) ∉ turns :=
      fun g hg => hstored g (List.mem_append_left _ hg)
    cases t with
    | around c => exact (ih hbefore).snoc_of_moves (by rw [after_append]; rfl)
    | tick time => exact (ih hbefore).snoc_of_moves (by rw [after_append]; rfl)
    | pass =>
      refine (ih hbefore).snoc_pass ?_ ?_ <;> rw [registry_after hbefore]
      · exact hn
      · exact hgroup

/-! ### Settled moves -/

/-- The servers of a move that has just started are watched. -/
theorem watched_of_startMove (hn : w.site.registry.Named)
    (h : w.operate (.startMove servers target) = (.returned handle, w')) :
    (handle = none ∧ servers.toList = []) ∨ ∃ number, handle = some number ∧
      w'.site.registry.Named ∧ target ∈ w'.site.registry.groups ∧
      w'.Watched number servers target [] := by
  rcases launches_of_startMove hn h with hnone | ⟨v, source, x, hv, hx, rfl, rfl⟩
  · exact .inl hnone
  · refine .inr ⟨v.moves.size, rfl, hx.named hv, hx.mem_groups, _, hx.getElem?_moves, rfl,
      fun hphase => (by cases hphase), fun s hs => .inl (Std.ExtTreeSet.mem_toList.2 hs)⟩

theorem named_of_startMove (hn : w.site.registry.Named)
    (h : w.operate (.startMove servers target) = (.returned (some number), w')) :
    w'.site.registry.Named := by
  rcases watched_of_startMove hn h with ⟨hnone, -⟩ | ⟨-, -, hnamed, -⟩
  · cases hnone
  · exact hnamed

/-- **What a settled move says.**  Whatever the cluster does between the passes: each server of a
settled move was clear at one of the passes, and a region that is astray on it now has been brought
there since by a change from outside. -/
theorem settled_servers_found_clear (hn : w.site.registry.Named)
    (h : w.operate (.startMove servers target) = (.returned handle, w'))
    (hstored : ∀ g, .around (.stored g) ∉ turns)
    (hsettled : Scenario.phaseOf (w'.after changed handle turns) handle = .settled) :
    ∀ s ∈ servers, ∃ before after, turns = before ++ .pass :: after ∧
      (∀ r, ¬ (w'.after changed handle before).Astray target r s) ∧
      ∀ r, (w'.after changed handle turns).Astray target r s →
        ∃ kept c rest, after = kept ++ .around c :: rest ∧
          ¬ (w'.after changed handle (before ++ .pass :: kept)).site.cluster.On r s ∧
          ((w'.after changed handle (before ++ .pass :: kept)).changed c).site.cluster.On r s := by
  intro s hs
  rcases watched_of_startMove hn h with ⟨-, hempty⟩ | ⟨number, rfl, hnamed, hgroup, hwatched⟩
  · rw [← Std.ExtTreeSet.mem_toList, hempty] at hs
    exact absurd hs List.not_mem_nil
  · obtain ⟨m, hm, -, hpending, hservers⟩ := hwatched.after hnamed hgroup hstored
    have hphase : m.phase = .settled := by simpa [Scenario.phaseOf, hm] using hsettled
    obtain ⟨before, after, rfl, hclear⟩ := (hservers s hs).resolve_left fun hs' => by
      rw [hpending hphase] at hs'
      exact List.not_mem_nil hs'
    refine ⟨before, after, rfl, hclear, fun r ⟨hon, howns⟩ => ?_⟩
    have hbefore : ∀ g, .around (.stored g) ∉ before :=
      fun g hg => hstored g (List.mem_append_left _ hg)
    -- it was not on the server when the pass looked, since the registry is the same
    have hnot : ¬ (w'.after changed (some number) before).site.cluster.On r s := by
      refine fun hon' => hclear r ⟨hon', ?_⟩
      rw [registry_after hbefore]
      rwa [registry_after hstored] at howns
    have hpass : ∀ rest, w'.after changed (some number) (before ++ .pass :: rest) =
        ((w'.after changed (some number) before).nextPass (some number)).after changed
          (some number) rest := fun rest => after_append
    rw [hpass] at hon
    obtain ⟨kept, c, rest, rfl, hkept, hcame⟩ :=
      came_around (fun hon' => hnot (on_nextPass hon')) hon
    refine ⟨kept, c, rest, rfl, ?_, ?_⟩ <;> rw [hpass]
    · exact hkept
    · exact hcame

/-! ### A server that is looked at too early -/

/-- Three servers in the group `default`, a region on the first one, and a group without members. -/
def staffed : World :=
  ((start {} ((Site.ofServers {⟨"rs1", 1⟩, ⟨"rs2", 1⟩, ⟨"rs3", 1⟩} .absent).change
    (.region ⟨⟨"default", "t1"⟩, "r1"⟩ (some ⟨"rs1", 1⟩)))).operate (.addGroup "a")).2

theorem partitioned_staffed : staffed.site.registry.Partitioned := by
  have hadd : (Registry.ofServers {⟨"rs1", 1⟩, ⟨"rs2", 1⟩, ⟨"rs3", 1⟩}).addGroup "a" =
      .ok staffed.site.registry := by rfl
  exact (Registry.divides_iff.1 Registry.divides_ofServers).1.addGroup hadd

/-- Two of the servers have been moved to the new group, and are not drained yet. -/
def departing : World := (staffed.operate (.startMove {⟨"rs1", 1⟩, ⟨"rs2", 1⟩} "a")).2

/-- Between the two passes of the drain the region is assigned to the second server, on which the
first pass has found nothing. -/
def crossing : List (Turn Change) :=
  [.pass, .around (.assigned ⟨⟨"default", "t1"⟩, "r1"⟩ ⟨"rs2", 1⟩), .pass]

theorem operate_staffed :
    staffed.operate (.startMove {⟨"rs1", 1⟩, ⟨"rs2", 1⟩} "a") = (.returned (some 0), departing) := by
  rfl

theorem phaseOf_crossing :
    Scenario.phaseOf (departing.after changed (some 0) crossing) (some 0) = .settled := by rfl

theorem astray_crossing : (departing.after changed (some 0) crossing).Astray "a"
    ⟨⟨"default", "t1"⟩, "r1"⟩ ⟨"rs2", 1⟩ := by
  have huntracked : (departing.after changed (some 0) crossing).site.registry.groupOfTable?
      ⟨"default", "t1"⟩ = none := by decide +kernel
  exact ⟨.inl (by decide +kernel), Registry.not_owns_of_untracked huntracked (by decide)⟩

/-- A pass found the second server clear, and the region was brought there after it. -/
theorem settled_servers_found_clear_crossing : ∃ before kept c rest,
    crossing = before ++ .pass :: (kept ++ .around c :: rest) ∧
      (∀ r, ¬ (departing.after changed (some 0) before).Astray "a" r ⟨"rs2", 1⟩) ∧
      ((departing.after changed (some 0) (before ++ .pass :: kept)).changed c).site.cluster.On
        ⟨⟨"default", "t1"⟩, "r1"⟩ ⟨"rs2", 1⟩ := by
  have hstored : ∀ g, .around (.stored g) ∉ crossing := by simp [crossing]
  obtain ⟨before, after, hcrossing, hclear, hcame⟩ := settled_servers_found_clear
    partitioned_staffed.named operate_staffed hstored phaseOf_crossing ⟨"rs2", 1⟩
    (by decide +kernel)
  obtain ⟨kept, c, rest, rfl, -, hon⟩ := hcame _ astray_crossing
  exact ⟨before, kept, c, rest, hcrossing, hclear, hon⟩

/-- The second pass settles the move, while a region of a table of `default` is on a server of the
new group. -/
theorem settled_with_strays :
    staffed.operate (.startMove {⟨"rs1", 1⟩, ⟨"rs2", 1⟩} "a") = (.returned (some 0), departing) ∧
      Scenario.phaseOf (departing.after changed (some 0) (crossing.take 2)) (some 0) = .draining ∧
      Scenario.phaseOf (departing.after changed (some 0) crossing) (some 0) = .settled ∧
      (departing.after changed (some 0) crossing).Astray "a"
        ⟨⟨"default", "t1"⟩, "r1"⟩ ⟨"rs2", 1⟩ :=
  ⟨operate_staffed, by rfl, phaseOf_crossing, astray_crossing⟩

end World

end ServerGroups
