/-
ServerGroups/Proofs/Confinement/Drain.lean

What a pass of a drain has done for a server that it does not look at again.

A pass looks at the assignments and the transitions once, and then unassigns
server by server what the target of the move does not own.  On a server where
there was nothing to unassign, every region that it saw is of a table that the
target owns; since the server belongs to the target, these regions are at
home.  What has come since then was assigned at home too.
-/
import ServerGroups.Proofs.Confinement.Rule

namespace ServerGroups

open Program World Coordinator

variable {E : Setting} (hE : E.Pipelined) {free : TableName → Prop} {a : Agent} {v : View}

/-! ### The regions on a server -/

/-- What is on a server after the assignments and the transitions have been looked at was seen, or
has been assigned at home since. -/
theorem hosts_or_seen {w₁ w₂ w₃ : World} (h₁₂ : w₁.Settles w₂) (h₂₃ : w₂.Settles w₃) {r : Region}
    {s : ServerAddress} (hr : w₃.site.cluster.On r s) (catalog : TableName) :
    w₁.site.registry.Hosts s r.table ∨ r ∈ regionsOnServer catalog s w₁.site.cluster.assignments
      w₂.site.cluster.transitions := by
  rcases h₂₃.on hr with (hassigned | hmoving) | ⟨hhome, -⟩
  · rcases h₁₂.assignments r s hassigned with hold | ⟨hhome, -⟩
    · exact .inr (mem_regionsOnServer.2 (.inl hold))
    · exact .inl hhome
  · exact .inr (mem_regionsOnServer.2 (.inr hmoving))
  · rw [h₁₂.registry] at hhome
    exact .inl hhome

/-! ### Draining -/

section Passes

include hE

/-- Requests to unassign regions let an activity settle that owes none. -/
theorem ensures_unassign {r : Region} {post : Unit → View → Prop} (hv : v.Ready free)
    (h : ∀ v', v.Settles v' → post () v') :
    (call (.unassign r)).Ensures ((confining free).rule E a) post v := by
  refine ensures_settled hE rfl hv.fine (fun _ => ?_) fun _ => h
  rw [hv.owed]
  exact Set.empty_sdiff _

/-- A server that is not called busy had only regions of kept tables. -/
theorem ensures_drainServers {m : Move} {regionsOn : ServerAddress → List Region}
    {kept : List TableName} {pending : List ServerAddress} (hv : v.Ready free) :
    (drainServers m regionsOn kept pending).Ensures ((confining free).rule E a)
      (fun busy v' => v.Settles v' ∧ (∀ s ∈ busy, s ∈ pending) ∧
        ∀ s ∈ pending, s ∉ busy → ∀ r ∈ regionsOn s, r.table ∈ kept) v :=
  loop_drainServers Discipline.rule_monotone v.Settles
    (fun _ _ hv₁ => ensures_settled_note hE (hv₁.ready hv).fine fun _ => hv₁.trans)
    (fun _ _ hv₁ => ensures_unassign hE (hv₁.ready hv) fun _ => hv₁.trans) pending (.refl v)

/-- A pass keeps to the discipline: a server that is no longer pending is clear. -/
theorem keeps_drainPass {number : Nat} {m : Move} {c : Config} (hv : v.Ready free)
    (hm : v.world.Running number m) :
    (confining free).Keeps E (.pass number m) (drainPass c m) v := by
  have hfine := hv.fine
  unfold Discipline.Keeps drainPass
  rw [ensures_bind]
  refine ensures_look hE rfl hfine (fun _ => rfl) (fun _ => rfl) fun assignments v₁ hv₁ ha => ?_
  have hassign : v₁.world.site.cluster.assignments = assignments := Except.ok.inj ha
  rw [ensures_bind]
  refine ensures_look hE rfl (hv₁.fine hfine) (fun _ => rfl) (fun _ => rfl)
    fun transitions v₂ hv₂ ht => ?_
  have htrans : v₂.world.site.cluster.transitions = transitions := Except.ok.inj ht
  rw [ensures_bind]
  refine ensures_look hE rfl ((hv₁.trans hv₂).fine hfine) (fun _ => rfl) (fun _ => rfl)
    fun answer v₃ hv₃ hg => ?_
  have hgroup : v₃.world.site.registry.groups[m.target]? = answer := Except.ok.inj hg
  have hv₀₃ := (hv₁.trans hv₂).trans hv₃
  -- the target owns every table that is kept
  have hdrain : ∀ (kept : List TableName) (v₄ : View), v.Settles v₄ → v₂.Settles v₄ →
      (∀ t ∈ kept, v.world.site.registry.Owns m.target t) →
      (drainServers m (fun s => regionsOnServer c.metaTable s assignments transitions) kept
        m.pending).Ensures ((confining free).rule E (.pass number m))
        (fun busy => Rested free (.pass number m) (.returned busy)) v₄ := by
    intro kept v₄ hv₄ hv₂₄ hkept
    refine (ensures_drainServers hE (hv₄.ready hv)).mono
      Discipline.rule_monotone ?_
    rintro busy v₅ ⟨hv₅, hsub, hclear⟩
    have hv₀₅ := hv₄.trans hv₅
    refine ⟨hv₀₅.ready hv, hv₀₅.world.running.2 hm, hsub, fun s hs hnot r hr => ?_⟩
    rw [hv₀₅.world.registry]
    have hmove := hv.calm.underway number m hm
    have hmember := hmove.members s (hmove.pending s hs)
    -- what the pass has seen is of a kept table, and what is new is at home
    have hseen := hosts_or_seen hv₂.world (hv₂₄.trans hv₅).world hr c.metaTable
    rw [hv₁.world.registry, hassign, htrans] at hseen
    rcases hseen with hhome | hregion
    · exact hhome
    · exact ⟨m.target, hkept _ (hclear s hs hnot r hregion), hmember⟩
  rcases answer with - | g
  · exact hdrain [] v₃ hv₀₃ hv₃ fun t ht => absurd ht List.not_mem_nil
  · have hname : g.name = m.target := hv₀₃.world.sane hfine.sane |>.partitioned.named hgroup
    have hg' : v₃.world.site.registry.groups[g.name]? = some g := by
      rw [hname]
      exact hgroup
    show Program.Ensures _ _ (owned g _ >>= _) _
    rw [ensures_bind]
    refine (ensures_ownedAmong hE hg' (hv₀₃.fine hfine)).mono Discipline.rule_monotone ?_
    rintro kept v₄ ⟨hv₄, hkept⟩
    rw [hv₀₃.world.registry, hname] at hkept
    exact hdrain kept v₄ (hv₀₃.trans hv₄) (hv₃.trans hv₄) hkept

/-- What follows the last pass lets the world settle. -/
theorem keeps_finishMove {number : Nat} {m : Move} (hv : v.Ready free)
    (hm : v.world.Running number m) (hp : m.pending = []) :
    (confining free).Keeps E (.finish number m) (finishMove m) v := by
  unfold Discipline.Keeps finishMove
  rw [ensures_bind]
  refine ensures_settled_hook hE hv.fine fun v₁ hv₁ => ?_
  refine ensures_settled_note hE (hv₁.ready hv).fine fun v₂ hv₂ => ?_
  have hv₀₂ := hv₁.trans hv₂
  exact ⟨hv₀₂.ready hv, hv₀₂.world.running.2 hm, hp⟩

end Passes

end ServerGroups
