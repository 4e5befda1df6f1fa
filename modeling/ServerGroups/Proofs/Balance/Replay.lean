/-
ServerGroups/Proofs/Balance/Replay.lean

The plan of the balancer, replayed on the snapshot that it was made for.

A plan says where each of its regions is taken from and where it is brought.
What this comes to is told without the balancer: `loads.Carries p after` says
that a placement takes its region off one server and brings it to another one,
and `loads.Replays plan after` that the placements of a plan do so one after
the other.

    Replays.regions      no region is lost, and none is gained
    replays_moves        the moves of the balancer can be replayed, and end with even loads
    plan_replays         both for the plan of a snapshot, which there is just if it is needed

Design.  Loads are replayed up to order.  The balancer takes the last region of
a load, and which of several occurrences of a region a placement takes makes no
difference, so neither the order of the regions nor that of the servers is part
of what a replay says.
-/
import ServerGroups.Proofs.Balance.Plans

namespace ServerGroups

namespace Loads

variable {loads next after : Loads} {p : Placement} {plan : List Placement}

/-! ### Replaying placements -/

/-- The regions on all servers. -/
def regions (loads : Loads) : List Region := loads.flatMap Prod.snd

/-- A placement takes its region off its source and brings it to another server. -/
inductive Carries (loads : Loads) : Placement → Loads → Prop
  | mk {source destination : ServerAddress} {r : Region} {before behind held : List Region}
      {others after : Loads} (hne : destination ≠ source)
      (hbefore : loads.Perm
        ((source, before ++ r :: behind) :: (destination, held) :: others))
      (hafter : after.Perm ((source, before ++ behind) :: (destination, held ++ [r]) :: others)) :
      Carries loads ⟨r, some source, destination⟩ after

/-- The placements of a plan carry their regions one after the other. -/
inductive Replays : Loads → List Placement → Loads → Prop
  | nil (loads : Loads) : Replays loads [] loads
  | cons {loads next after : Loads} {p : Placement} {plan : List Placement}
      (hcarries : loads.Carries p next) (hrest : Replays next plan after) :
      Replays loads (p :: plan) after

/-- The servers stay the same. -/
theorem Carries.servers (h : loads.Carries p after) : after.servers.Perm loads.servers := by
  cases h with
  | mk hne hbefore hafter => exact (hafter.map Prod.fst).trans (hbefore.map Prod.fst).symm

/-- The region is on another server, and nothing else has changed. -/
theorem Carries.regions (h : loads.Carries p after) : after.regions.Perm loads.regions := by
  cases h with
  | @mk source destination r before behind held others after hne hbefore hafter =>
    refine (hafter.flatMap_right Prod.snd).trans
      (List.Perm.trans ?_ (hbefore.flatMap_right Prod.snd).symm)
    refine List.perm_iff_count.2 fun x => ?_
    simp only [List.flatMap_cons, List.count_append, List.count_cons, List.count_nil]
    omega

theorem Replays.servers (h : loads.Replays plan after) : after.servers.Perm loads.servers := by
  induction h with
  | nil => exact .refl _
  | cons hcarries _ ih => exact ih.trans hcarries.servers

theorem Replays.regions (h : loads.Replays plan after) : after.regions.Perm loads.regions := by
  induction h with
  | nil => exact .refl _
  | cons hcarries _ ih => exact ih.trans hcarries.regions

/-! ### The moves of the balancer -/

/-- The next move carries the last region of a server with the most to one with the fewest. -/
theorem carries_next? (hn : loads.servers.Nodup) (h : loads.next? = some (p, after)) :
    loads.Carries p after := by
  obtain ⟨most, hmost, least, hleast, r, hr, huneven, rfl, rfl, -⟩ := next?_eq_some h
  have hne : least ≠ most := fun heq => by
    rw [heq] at huneven
    omega
  have hservers : least.1 ≠ most.1 := fun heq => hne (eq_of_server hn hleast hmost heq)
  obtain ⟨others, hothers⟩ := perm_pair hmost hleast hne
  have hbefore : loads.Perm
      ((most.1, most.2.dropLast ++ r :: []) :: (least.1, least.2) :: others) := by
    rw [List.dropLast_append_getLast? r hr]
    exact hothers
  have hafter := shift_perm (r := r) hn hothers
  rw [← List.append_nil most.2.dropLast] at hafter
  exact .mk hservers hbefore hafter

theorem nodup_next? (hn : loads.servers.Nodup) (h : loads.next? = some (p, after)) :
    after.servers.Nodup :=
  (carries_next? hn h).servers.nodup_iff.2 hn

/-- The moves can be replayed one after the other, and leave even loads. -/
theorem replays_moves : ∀ {fuel : Nat} {loads : Loads}, loads.servers.Nodup →
    loads.unevenness ≤ fuel → ∃ after : Loads, loads.Replays (loads.moves fuel) after ∧ after.Even
  | fuel, loads, hn, hfuel => by
    rcases hnext : loads.next? with - | ⟨p, next⟩
    · have heven := next?_eq_none.1 hnext
      rw [moves_eq_nil heven]
      exact ⟨loads, .nil loads, heven⟩
    · have hcarries := carries_next? hn hnext
      have hlower := unevenness_next? hn hnext
      cases fuel with
      | zero => omega
      | succ fuel =>
        have hbound : next.unevenness ≤ fuel := by omega
        obtain ⟨after, hafter, heven⟩ := replays_moves (nodup_next? hn hnext) hbound
        refine ⟨after, ?_, heven⟩
        rw [moves, hnext]
        exact .cons hcarries hafter

end Loads

/-! ### The plan of a snapshot -/

namespace Snapshot

open Loads

theorem nodup_servers (s : Snapshot) : (Loads.servers s.toList).Nodup := by
  unfold Loads.servers
  rw [Std.ExtTreeMap.map_fst_toList_eq_keys]
  exact Std.ExtTreeMap.nodup_keys

theorem even_of_size_lt_two {s : Snapshot} (h : s.size < 2) : Loads.Even s.toList := by
  refine even_of_length_le_one ?_
  rw [Std.ExtTreeMap.length_toList]
  omega

/-- The moves for a snapshot can be replayed on it, and leave even loads. -/
theorem replays (s : Snapshot) : ∃ after : Loads, Loads.Replays s.toList s.moves after ∧
    after.Even := by
  rw [moves_eq]
  exact replays_moves s.nodup_servers le_rfl

/-- There is something to move just if the loads are not even. -/
theorem moves_eq_nil_iff {s : Snapshot} : s.moves = [] ↔ Loads.Even s.toList := by
  constructor
  · intro h
    obtain ⟨after, hafter, heven⟩ := s.replays
    rw [h] at hafter
    cases hafter with
    | nil => exact heven
  · intro h
    rw [moves_eq]
    exact Loads.moves_eq_nil h

/-- **Plans can be carried out, and even the loads out.**  There is no plan for a snapshot just if
it has fewer than two servers or none of them has two regions more than another.  Else there is a
plan with at least one placement.  Replayed on the snapshot, each placement takes a region that is
by then on its source to another of the servers; in the end no server has two regions more than
another, and there are the same regions as before, each as often as before. -/
theorem plan_replays (s : Snapshot) :
    (s.plan? = none ↔ s.size < 2 ∨ Loads.Even s.toList) ∧
      ∀ plan, s.plan? = some plan → plan ≠ [] ∧ ∃ after : Loads,
        Loads.Replays s.toList plan after ∧ after.Even ∧
          after.servers.Perm (Loads.servers s.toList) ∧
          after.regions.Perm (Loads.regions s.toList) := by
  unfold plan?
  split
  · next h =>
    refine ⟨⟨fun _ => .inr (moves_eq_nil_iff.1 h), fun _ => rfl⟩, fun plan hplan => ?_⟩
    cases hplan
  · next h =>
    refine ⟨⟨fun hplan => (by cases hplan), ?_⟩, ?_⟩
    · rintro (hsize | heven)
      · exact absurd (moves_eq_nil_iff.2 (even_of_size_lt_two hsize)) h
      · exact absurd (moves_eq_nil_iff.2 heven) h
    · rintro plan ⟨⟩
      obtain ⟨after, hafter, heven⟩ := s.replays
      exact ⟨h, after, hafter, heven, hafter.servers, hafter.regions⟩

/-- A server with three regions, two of them the same, and one with none. -/
def doubled : Snapshot :=
  let region := Region.mk ⟨"default", "t"⟩
  ((∅ : Snapshot).insert ⟨"rs1", 1⟩ [region "r0", region "r0", region "r1"]).insert ⟨"rs2", 1⟩ []

/-- One of the regions is moved, and the one that is there twice is there twice in the end. -/
theorem plan_replays_doubled : ∃ plan after, doubled.plan? = some plan ∧ plan.length = 1 ∧
    Loads.Replays doubled.toList plan after ∧ after.Even ∧
      after.regions.count ⟨⟨"default", "t"⟩, "r0"⟩ = 2 := by
  have hplan : doubled.plan? =
      some [⟨⟨⟨"default", "t"⟩, "r1"⟩, some ⟨"rs1", 1⟩, ⟨"rs2", 1⟩⟩] := by decide +kernel
  obtain ⟨-, after, hafter, heven, -, hregions⟩ := (plan_replays doubled).2 _ hplan
  refine ⟨_, after, hplan, rfl, hafter, heven, ?_⟩
  rw [hregions.count_eq]
  decide +kernel

end Snapshot

end ServerGroups
