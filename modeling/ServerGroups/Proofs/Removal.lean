/-
ServerGroups/Proofs/Removal.lean

Which groups can be removed.

A group is removed exactly if nothing needs it (`World.Unneeded`): it is not
`default`, it has no server and no pinned table, and no namespace names it.
The checks look at the services one after the other, under the membership lock,
so that nothing comes between them and the removal.

    removeGroup_removes   an unneeded group goes, and nothing else changes
    removeGroup_refuses   any other one stays, and so does everything else

What is named by a namespace is never unneeded, so it stays for good
(`Removal/Sparing`).
-/
import ServerGroups.Proofs.Collections
import ServerGroups.Proofs.Drains.Termination
import ServerGroups.Proofs.Removal.Sparing
import ServerGroups.Proofs.Runs.Requests

namespace ServerGroups

open Program Coordinator

namespace World

variable {w x : World} {name : String} {g : Group}

/-- There is a group of a name, and nothing needs it. -/
structure Unneeded (w : World) (name : String) : Prop where
  stored : name ∈ w.site.registry.groups
  differ : name ≠ defaultGroup
  tables : ∀ t, ¬ w.site.registry.Pins name t
  servers : ∀ s, ¬ w.site.registry.HasServer name s
  unnamed : ¬ w.site.namespaces.Names name

/-- What the checks find out of the group that is stored under the name. -/
theorem unneeded_iff (hn : w.site.registry.Named) (hg : w.site.registry.groups[name]? = some g) :
    w.Unneeded name ↔ ¬ g.isDefault = true ∧ g.tables.size = 0 ∧ g.servers.size = 0 ∧
      ¬ w.site.namespaces.Names name := by
  have hname : g.name = name := hn hg
  have hdefault : ¬ g.isDefault = true ↔ name ≠ defaultGroup := by
    simp [Group.isDefault, hname]
  constructor
  · intro h
    refine ⟨hdefault.2 h.differ, ?_, ?_, h.unnamed⟩
    · by_contra hne
      obtain ⟨t, ht⟩ := exists_mem_of_size_ne_zero hne
      exact h.tables t ⟨g, hg, ht⟩
    · by_contra hne
      obtain ⟨s, hs⟩ := exists_mem_of_size_ne_zero hne
      exact h.servers s ⟨g, hg, hs⟩
  · rintro ⟨hdiffer, htables, hservers, hunnamed⟩
    refine ⟨Std.ExtTreeMap.mem_iff_isSome_getElem?.2 (by rw [hg]; rfl), hdefault.1 hdiffer, ?_, ?_,
      hunnamed⟩
    · rintro t ⟨g', hg', ht⟩
      obtain rfl := Option.some.inj (hg.symm.trans hg')
      exact not_mem_of_size_eq_zero htables t ht
    · rintro s ⟨g', hg', hs⟩
      obtain rfl := Option.some.inj (hg.symm.trans hg')
      exact not_mem_of_size_eq_zero hservers s hs

/-- The group of a name is gone, and no other one is different. -/
structure Removes (name : String) (w x : World) : Prop where
  groups : ∀ k : String, x.site.registry.groups[k]? =
    if name = k then none else w.site.registry.groups[k]?
  cluster : x.site.cluster = w.site.cluster

theorem Writes.obliging (h : w.Writes x) (hw : w.Obliging) : x.Obliging where
  willing := by
    rw [h.site]
    exact hw.willing
  faults := h.faults hw.faults

theorem removes_of_answered {answer : Unit}
    (h : w.meet (.call (.removeGroup name)) = (.answered answer, x)) : w.Removes name x :=
  ⟨fun _ => Registry.getElem?_removeGroup (serves_of_answered h).removeGroup,
    (writes_of_answered rfl h).cluster⟩

theorem Removes.same_trans {y : World} (h : w.Same x) (h' : x.Removes name y) :
    w.Removes name y where
  groups k := by rw [h'.groups, h.registry]
  cluster := h'.cluster.trans h.cluster

theorem Removes.trans_same {y : World} (h : w.Removes name x) (h' : x.Same y) :
    w.Removes name y where
  groups k := by rw [h'.registry, h.groups]
  cluster := h'.cluster.trans h.cluster

end World

/-! ### The checks -/

namespace Terms

open World

variable {T : Terms} {α : Type} {name : String}

/-- While nothing waits, whatever a program does leaves the namespaces as they are. -/
theorem ensures_minding (hT : ∀ q v, ¬ T.waits q v) {s : Namespaces} {post : α → World → Prop}
    {p : Program α} : ∀ {w : World}, w.site.namespaces = s →
      p.Ensures T.rule (fun a x => x.site.namespaces = s → post a x) w →
        p.Ensures T.rule post w := by
  induction p with
  | done a => exact fun hw h => h hw
  | fail cause => exact fun _ h => h
  | ask q next ih =>
    rintro w hw ⟨hstrict, hafter⟩
    refine ⟨hstrict, ?_⟩
    rcases hm : w.meet q with ⟨reply, w'⟩
    rw [hm] at hafter
    cases reply with
    | answered a => exact ih a ((World.namespaces_of_meet hm).trans hw) hafter
    -- at a wait the namespaces could change
    | waiting => exact absurd hafter.1 (hT q w')
    | _ => exact hafter

/-- What is left to do once a group has passed the checks. -/
theorem ensures_erase (hs : T.strict) {w : World} (hw : w.Obliging)
    (hstored : name ∈ w.site.registry.groups) (hdiffer : name ≠ defaultGroup)
    {post : Unit → World → Prop} (h : ∀ x, w.Removes name x → post () x) :
    (do
      call (.removeGroup name)
      note (.groupRemoved name)
      hook (.postRemoveGroup name)).Ensures T.rule post w := by
  rw [ensures_bind]
  refine ensures_call (allows_of_strict hs hw) (fun _ => ?_) fun answer w₁ hm => ?_
  · have hok := Registry.removeGroup_eq_ok.2 ⟨hdiffer, hstored, rfl⟩
    exact ⟨(), by simp only [Site.serve, hok]⟩
  have hobliging := (writes_of_answered rfl hm).obliging hw
  rw [ensures_bind]
  refine ensures_note fun w₂ h₂ => ?_
  refine ensures_hook (allows_of_strict hs (h₂.obliging hobliging)) fun w₃ h₃ => ?_
  exact h w₃ ((removes_of_answered hm).trans_same (h₂.same_trans h₃))

/-- A removal is refused where something needs the group. -/
def needing (w : World) (name : String) : Terms :=
  answered fun cause x => (∃ reason, cause = some (.refused reason)) ∧ ¬ w.Unneeded name ∧
    (w.granted .membership).Same x

/-- The removal of a group is refused if something needs it, and is else made. -/
theorem ensures_removeGroup {w : World} (hw : w.Obliging) (hn : w.site.registry.Named)
    (hfree : w.locks.isFree .membership false = true) :
    (removeGroup name).Ensures (needing w name).rule
      (fun _ x => w.Unneeded name ∧ w.Removes name x) w := by
  have hwait : ∀ q v, ¬ (needing w name).waits q v := fun _ _ h => h
  refine ensures_holding (T := needing w name) (fun _ => hfree) (absurd trivial) fun v hv _ => ?_
  obtain rfl := hv.eq trivial
  have hgranted := hw.granted .membership
  rw [ensures_bind]
  refine ensures_minding hwait rfl (ensures_hook (allows_of_strict trivial hgranted)
    fun w₁ h₁ hs₁ => ?_)
  rw [ensures_bind]
  refine ensures_minding hwait hs₁ (ensures_look (allows_of_strict trivial (h₁.obliging hgranted))
    v.site.registry.groups[name]? (by simp only [Site.serve, h₁.registry]; rfl) (fun _ => rfl)
    fun w₂ h₂ hs₂ => ?_)
  have h₀₂ := h₁.same_trans h₂
  rcases hg : v.site.registry.groups[name]? with - | g
  · -- there is no group of the name
    refine ⟨⟨_, rfl⟩, fun hunneeded => ?_, h₀₂⟩
    have hstored := Std.ExtTreeMap.mem_iff_isSome_getElem?.1 hunneeded.stored
    rw [hg] at hstored
    cases hstored
  have hiff := unneeded_iff hn hg
  -- each check that refuses finds one of the things that an unneeded group is not
  dsimp only
  rw [ensures_bind, ensures_refuseIf]
  refine ⟨fun hdefault => ⟨⟨_, rfl⟩, fun h => (hiff.1 h).1 hdefault, h₀₂⟩, fun hdefault => ?_⟩
  rw [ensures_bind, ensures_refuseIf]
  refine ⟨fun htables => ⟨⟨_, rfl⟩, fun h => htables (hiff.1 h).2.1, h₀₂⟩, fun htables => ?_⟩
  rw [ensures_bind, ensures_refuseIf]
  refine ⟨fun hservers => ⟨⟨_, rfl⟩, fun h => hservers (hiff.1 h).2.2.1, h₀₂⟩, fun hservers => ?_⟩
  rw [ensures_bind]
  refine ensures_look (allows_of_strict trivial (h₀₂.obliging hgranted))
    (w₂.site.namespaces.toList.map Prod.snd) rfl (fun _ => rfl) fun w₃ h₃ => ?_
  have h₀₃ := h₀₂.same_trans h₃
  -- the namespaces are those of the start: nothing has waited since
  rw [hs₂]
  show (refuseIfReferenced name (v.site.namespaces.toList.map Prod.snd) >>= _).Ensures _ _ _
  rcases refuseIfReferenced_eq name (v.site.namespaces.toList.map Prod.snd) with
    ⟨hnames, cause, hrefuse⟩ | ⟨hnone, hpure⟩
  · rw [hrefuse]
    exact ⟨⟨cause, rfl⟩, fun h => h.unnamed (Namespaces.names_iff.2 hnames), h₀₃⟩
  rw [hpure]
  have hunnamed : ¬ v.site.namespaces.Names name := by
    intro hnames
    obtain ⟨n, hmem, hgroup⟩ := Namespaces.names_iff.1 hnames
    exact hnone n hmem hgroup
  have hunneeded : v.Unneeded name :=
    hiff.2 ⟨hdefault, not_not.1 htables, not_not.1 hservers, hunnamed⟩
  refine ensures_erase trivial (h₀₃.obliging hgranted) ?_ hunneeded.differ fun x hx => ?_
  · rw [h₀₃.registry]
    exact hunneeded.stored
  · have hremoves := Removes.same_trans h₀₃ hx
    exact ⟨hunneeded, hremoves.groups, hremoves.cluster⟩

end Terms

namespace World

variable {w : World} {name : String}

/-- How the removal of a group ends where nothing fails. -/
inductive Disposes (w : World) (name : String) : Outcome Unit × World → Prop
  | removed {x : World} (unneeded : w.Unneeded name) (removes : w.Removes name x) :
      w.Disposes name (.returned (), x)
  | refused {cause : Refusal} {x : World} (needed : ¬ w.Unneeded name)
      (registry : x.site.registry = w.site.registry) (cluster : x.site.cluster = w.site.cluster) :
      w.Disposes name (.failed (.refused cause), x)

theorem disposes_removeGroup (hw : w.Obliging) (hn : w.site.registry.Named)
    (hfree : w.locks.isFree .membership false = true) (name : String) :
    w.Disposes name (w.operate (.removeGroup name)) := by
  have hends := Terms.perform_of_strict (T := Terms.needing w name) trivial
    (Terms.ensures_removeGroup hw hn hfree)
  rw [operate_eq (by simp)]
  change (Terms.needing w name).Concludes _ (w.perform (Operation.removeGroup name).program) at hends
  rcases hperform : w.perform (Operation.removeGroup name).program with ⟨outcome, x⟩
  rw [hperform] at hends
  cases outcome with
  | returned answer =>
    obtain ⟨y, ⟨hunneeded, hremoves⟩, rfl⟩ := hends
    exact .removed hunneeded ⟨hremoves.groups, hremoves.cluster⟩
  | failed cause =>
    obtain ⟨y, ⟨⟨reason, hreason⟩, hneeded, hy⟩, rfl⟩ := hends
    obtain rfl := Option.some.inj hreason
    exact .refused hneeded hy.registry hy.cluster
  | crashed =>
    obtain ⟨y, ⟨⟨reason, hreason⟩, -⟩, -⟩ := hends
    cases hreason
  | givenUp => exact absurd trivial hends.1

end World

/-- Outside, anything may change but the registry and the namespaces. -/
def Setting.undisturbed : Setting where
  called _ := True
  abandoned _ := True
  outside w w' := w'.site.registry = w.site.registry ∧ w'.site.namespaces = w.site.namespaces

/-- **A group is removed exactly if nothing needs it.**  Where no call and no hook fails and the
membership lock is free: the removal of a group returns just if there is a group of that name, it is
not `default`, it has no pinned table and no server, and no namespace names it.  Then this group is
gone and every other one is the same; and if the removal does not return, nothing has changed.
Whatever operations are called from there on, whatever waits, fails or is given up, as long as the
namespaces do not change, a group that one of them names is still there at every moment after one
at which it was. -/
theorem unneeded_groups_removed {E : Setting} (hE : E.SparesRegistry) (hN : E.SparesNamespaces)
    {w : World} (hn : w.site.registry.Named) (name : String) :
    (w.Obliging → w.locks.isFree .membership false = true →
      ((w.operate (.removeGroup name)).1 = .returned () ↔ w.Unneeded name) ∧
      (w.Unneeded name → w.Removes name (w.operate (.removeGroup name)).2) ∧
      (¬ w.Unneeded name →
        (w.operate (.removeGroup name)).2.site.registry = w.site.registry ∧
        (w.operate (.removeGroup name)).2.site.cluster = w.site.cluster)) ∧
    ∀ m m', Moment.Reaches E (.still w) m → Moment.Reaches E m m' →
      w.site.namespaces.Names name → name ∈ m.world.site.registry.groups →
        name ∈ m'.world.site.registry.groups := by
  refine ⟨fun hw hfree => ?_, fun m m' h h' hname hmem => ?_⟩
  · have hdisposes := World.disposes_removeGroup hw hn hfree name
    rcases hoperate : w.operate (.removeGroup name) with ⟨outcome, x⟩
    rw [hoperate] at hdisposes
    cases hdisposes with
    | removed unneeded removes =>
      exact ⟨⟨fun _ => unneeded, fun _ => rfl⟩, fun _ => removes, absurd unneeded⟩
    | refused needed registry cluster =>
      exact ⟨⟨fun h => (by cases h), fun h => absurd h needed⟩, fun h => absurd h needed,
        fun _ => ⟨registry, cluster⟩⟩
  · exact Moment.Reaches.keeps_named hE hN h h' hname hmem

namespace World

/-- Two groups without members, one of which the namespace `sales` names. -/
def claimed : World :=
  .start {} { Site.ofServers {⟨"rs1", 1⟩} .absent with
    registry := ((Registry.ofServers {⟨"rs1", 1⟩}).put (.empty "a")).put (.empty "b")
    namespaces := Namespaces.put ∅ ((Namespace.empty "sales").withGroup "b") }

theorem named_claimed : claimed.site.registry.Named :=
  Registry.named_put (Registry.named_put Registry.named_ofServers _) _

theorem obliging_claimed : claimed.Obliging where
  willing _ h := by cases h
  faults := rfl

end World

/-- The group that no namespace names can be removed, and the other one cannot; it is still there
when the first one is gone. -/
theorem unneeded_groups_removed_claimed :
    (World.claimed.operate (.removeGroup "a")).2.site.registry.groups["a"]? = none ∧
      (World.claimed.operate (.removeGroup "b")).1 ≠ .returned () ∧
      "b" ∈ (World.claimed.operate (.removeGroup "a")).2.site.registry.groups := by
  have hE : Setting.undisturbed.SparesRegistry := fun h => h.1
  have hN : Setting.undisturbed.SparesNamespaces := fun h => h.2
  have hnames : World.claimed.site.namespaces.Names "b" :=
    ⟨"sales", (Namespace.empty "sales").withGroup "b", by decide +kernel, by decide +kernel⟩
  obtain ⟨ha, -⟩ := unneeded_groups_removed hE hN World.named_claimed "a"
  obtain ⟨hb, hstays⟩ := unneeded_groups_removed hE hN World.named_claimed "b"
  obtain ⟨hreturned, hremoved, -⟩ := ha World.obliging_claimed (by decide)
  have hunneeded := hreturned.1 (by rfl)
  refine ⟨?_, ?_, ?_⟩
  · rw [(hremoved hunneeded).groups]
    rfl
  · intro hreturned
    exact ((hb World.obliging_claimed (by decide)).1.1 hreturned).unnamed hnames
  · have hsteps := Moment.reaches_operate Setting.undisturbed [] (o := .removeGroup "a")
      (w := World.claimed) trivial fun _ _ => trivial
    exact hstays _ _ .refl hsteps hnames (by decide +kernel)

end ServerGroups
