/-
ServerGroups/Proofs/Moves/Admission.lean

Which moves of servers are started.

A move of servers is looked into check by check, on what several calls answer
one after the other, and the group that it starts from is the one of whichever
server is looked at first.  What comes out is a property of the world in which
the move is asked for: it is started if there is a group that the servers may
leave for the target (`World.Admits`), and refused if there is none.

Design.  The group is determined by every one of the servers, since servers are
partitioned over the groups.  So what is proved of the start of a move by one
of its servers (`World.Decides`) holds of its start by any other, and the two
leave the same registry.
-/
import ServerGroups.Proofs.Drains.Termination
import ServerGroups.Proofs.Runs.ServerMove

namespace ServerGroups

open Coordinator

/-! ### What a started move makes of the registry -/

/-- Servers have moved from one group to another, and the registry is otherwise the same. -/
def Registry.Transfers (r : Registry) (servers : ServerSet) (source target : String)
    (r' : Registry) : Prop :=
  ∀ k : String, r'.groups[k]? = (r.groups[k]?).map fun g => { g with
    servers :=
      if k = source then g.servers \ servers
      else if k = target then g.servers ∪ servers
      else g.servers }

theorem Registry.Transfers.unique {r r' r'' : Registry} {servers : ServerSet}
    {source target : String} (h : r.Transfers servers source target r')
    (h' : r.Transfers servers source target r'') : r' = r'' := by
  obtain ⟨groups⟩ := r'
  obtain ⟨groups'⟩ := r''
  exact congrArg Registry.mk (Std.ExtTreeMap.ext_getElem? fun k => (h k).trans (h' k).symm)

namespace World

variable {w x : World} {servers : ServerSet} {target : String} {first : ServerAddress} {g : Group}

/-- All of the servers move, since the group has all of them. -/
theorem Admits.transfers (h : w.Admits servers g target) {moved : ServerSet} {r : Registry}
    (hr : w.site.registry.moveServers servers g.name target = .ok (moved, r)) :
    w.site.registry.Transfers servers g.name target r := by
  obtain ⟨-, g', hg', hmoved, -⟩ := Registry.moveServers_eq_ok.1 hr
  obtain rfl := Option.some.inj (h.stored.symm.trans hg')
  obtain rfl : moved = servers := by
    rw [hmoved]
    refine Std.ExtTreeSet.ext_mem fun s => ?_
    rw [Std.ExtTreeSet.mem_inter_iff]
    exact and_iff_left_of_imp (h.members s)
  intro k
  rw [Registry.getElem?_moveServers hr]
  -- no group both loses servers and gains them
  by_cases hsource : g.name = k
  · have htarget : target ≠ k := fun heq => h.differ (hsource.trans heq.symm)
    simp only [hsource, htarget, if_true, if_false]
  · simp only [hsource, Ne.symm hsource, if_false, @eq_comm _ k target]

/-! ### The decision -/

/-- How the start of a move ends where nothing fails: it is started if there is a group that the
servers may leave, and it is refused and changes nothing if there is none. -/
inductive Decides (w : World) (servers : ServerSet) (target : String) :
    Outcome (Option Nat) × World → Prop
  | accepts {g : Group} {x : World} (admits : w.Admits servers g target)
      (transfers : w.site.registry.Transfers servers g.name target x.site.registry) :
      w.Decides servers target (.returned (some w.moves.size), x)
  | refuses {cause : Refusal} {x : World} (forbids : ∀ g, ¬ w.Admits servers g target)
      (registry : x.site.registry = w.site.registry) :
      w.Decides servers target (.failed (.refused cause), x)

/-- The decision does not depend on the server that is looked at first. -/
theorem decides_startMoveBy (hp : w.site.registry.Partitioned) (hw : w.Healthy)
    (hfree : w.locks.isFree .membership false = true) (hfirst : first ∈ servers)
    (target : String) :
    w.Decides servers target (w.perform (startMoveBy first servers target)) := by
  let T := Terms.answered fun cause x => (∃ reason, cause = some (.refused reason)) ∧
    w.Forbids servers target ∧ x.site.registry = w.site.registry
  have hensures : (startMoveBy first servers target).Ensures T.rule (fun handle x =>
      handle = some w.moves.size ∧ ∃ g, w.Admits servers g target ∧
        w.site.registry.Transfers servers g.name target x.site.registry) w := by
    -- every request is answered, so the lock is had in the world of the call
    refine Terms.ensures_startMoveBy (T := T) (fun _ => hw) (absurd trivial) (fun _ => hfree)
      (fun v hv => ?_) (fun cause hconflict => ⟨⟨cause, rfl⟩, fun _ g hg => ?_, rfl⟩)
      (fun cause v x hv hforbids hx => ?_) (absurd trivial) (fun v source x hv hadmits hx => ?_)
      hfirst
    · obtain rfl := hv.eq trivial
      exact hp.named
    · rw [hg.conflict?_eq_none] at hconflict
      cases hconflict
    · obtain rfl := hv.eq trivial
      exact ⟨⟨cause, rfl⟩, hforbids, hx.registry⟩
    · obtain rfl := hv.eq trivial
      obtain ⟨moved, hmoved⟩ := hx.change
      exact ⟨rfl, source, hadmits, hadmits.transfers hmoved⟩
  have hends := Terms.perform_of_strict (T := T) trivial hensures
  rcases hperform : w.perform (startMoveBy first servers target) with ⟨outcome, x⟩
  rw [hperform] at hends
  cases outcome with
  | returned handle =>
    obtain ⟨y, ⟨rfl, g, hadmits, htransfers⟩, rfl⟩ := hends
    exact .accepts hadmits htransfers
  | failed cause =>
    obtain ⟨y, ⟨⟨reason, hreason⟩, hforbids, hregistry⟩, rfl⟩ := hends
    obtain rfl := Option.some.inj hreason
    exact .refuses (hforbids hp) hregistry
  | crashed =>
    obtain ⟨y, ⟨⟨reason, hreason⟩, -⟩, -⟩ := hends
    cases hreason
  | givenUp => exact absurd trivial hends.1

namespace Decides

variable {ended ended' : Outcome (Option Nat) × World}

theorem returned_iff (h : w.Decides servers target ended) :
    (∃ handle, ended.1 = .returned handle) ↔ ∃ g, w.Admits servers g target := by
  cases h with
  | accepts admits => exact ⟨fun _ => ⟨_, admits⟩, fun _ => ⟨_, rfl⟩⟩
  | refuses forbids => exact ⟨fun ⟨_, h⟩ => (by cases h), fun ⟨g, hg⟩ => absurd hg (forbids g)⟩

/-- What a started move makes of the registry. -/
theorem transfers (h : w.Decides servers target ended) (hp : w.site.registry.Partitioned)
    (hfirst : first ∈ servers) (hg : w.Admits servers g target) :
    w.site.registry.Transfers servers g.name target ended.2.site.registry := by
  cases h with
  | accepts admits transfers =>
    -- one server is enough to tell that both are the same group
    obtain rfl := hg.source_eq hp hfirst admits.stored (admits.members first hfirst)
    exact transfers
  | refuses forbids => exact absurd hg (forbids g)

theorem registry_eq (h : w.Decides servers target ended) (h' : w.Decides servers target ended')
    (hp : w.site.registry.Partitioned) (hfirst : first ∈ servers) :
    ended.2.site.registry = ended'.2.site.registry := by
  by_cases hg : ∃ g, w.Admits servers g target
  · obtain ⟨g, hg⟩ := hg
    exact (h.transfers hp hfirst hg).unique (h'.transfers hp hfirst hg)
  · rw [not_exists] at hg
    cases h with
    | accepts admits => exact absurd admits (hg _)
    | refuses _ registry =>
      cases h' with
      | accepts admits => exact absurd admits (hg _)
      | refuses _ registry' => exact registry.trans registry'.symm

end Decides

/-- **A move of servers is started exactly if it is legal.**  Where nothing fails and the membership
lock is free: a move of some servers is started if and only if there is a group that they may leave
for the target.  The registry then differs only in that this group has lost the servers and the
target has gained them.  The server that is looked at first makes no difference. -/
theorem startMove_returned_iff (hp : w.site.registry.Partitioned) (hw : w.Healthy)
    (hfree : w.locks.isFree .membership false = true) (hne : servers.toList ≠ [])
    (target : String) :
    ((∃ handle, (w.operate (.startMove servers target)).1 = .returned handle) ↔
        ∃ g, w.Admits servers g target) ∧
      (∀ g, w.Admits servers g target → w.site.registry.Transfers servers g.name target
        (w.operate (.startMove servers target)).2.site.registry) ∧
      ∀ first ∈ servers,
        ((∃ handle, (w.perform (startMoveBy first servers target)).1 = .returned handle) ↔
          ∃ g, w.Admits servers g target) ∧
        (w.perform (startMoveBy first servers target)).2.site.registry =
          (w.operate (.startMove servers target)).2.site.registry := by
  obtain ⟨first, rest, hservers⟩ := List.exists_cons_of_ne_nil hne
  have hfirst : first ∈ servers := by
    rw [← Std.ExtTreeSet.mem_toList, hservers]
    exact List.mem_cons_self
  have hstart : w.operate (.startMove servers target) =
      w.perform (startMoveBy first servers target) := by
    rw [operate_eq (by simp)]
    exact congrArg w.perform (startMove_eq_startMoveBy hservers)
  have hdecides := decides_startMoveBy hp hw hfree hfirst target
  rw [hstart]
  refine ⟨hdecides.returned_iff, fun g hg => hdecides.transfers hp hfirst hg, fun s hs => ?_⟩
  have hdecides' := decides_startMoveBy hp hw hfree hs target
  exact ⟨hdecides'.returned_iff, hdecides'.registry_eq hdecides hp hfirst⟩

/-- One of two servers may leave `default` for the group that is there, and not for one that is
not. -/
theorem startMove_returned_iff_paired :
    (∃ g, paired.Admits {⟨"rs1", 1⟩} g "a" ∧
      paired.site.registry.Transfers {⟨"rs1", 1⟩} g.name "a" leaving.site.registry) ∧
    ∀ g, ¬ paired.Admits {⟨"rs1", 1⟩} g "b" := by
  have hfree : paired.locks.isFree .membership false = true := by decide
  have hne : ({⟨"rs1", 1⟩} : ServerSet).toList ≠ [] := by decide +kernel
  obtain ⟨haccepted, htransfers, -⟩ := startMove_returned_iff partitioned_paired
    healthy_paired hfree hne "a"
  obtain ⟨hrefused, -⟩ := startMove_returned_iff partitioned_paired healthy_paired hfree hne "b"
  obtain ⟨g, hg⟩ := haccepted.1 ⟨some 0, by rfl⟩
  refine ⟨⟨g, hg, htransfers g hg⟩, fun g hg => ?_⟩
  obtain ⟨handle, hhandle⟩ := hrefused.2 ⟨g, hg⟩
  have hcause : (paired.operate (.startMove {⟨"rs1", 1⟩} "b")).1.cause? =
      some (.refused (.noSuchGroup "b")) := by decide +kernel
  rw [hhandle] at hcause
  cases hcause

end World

end ServerGroups
