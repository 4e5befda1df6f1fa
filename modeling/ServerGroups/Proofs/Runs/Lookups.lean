/-
ServerGroups/Proofs/Runs/Lookups.lean

Calls that look, and do nothing else.

A call that looks is answered, and leaves behind only that it has been made
(`World.consulted`).  A group is looked up under the membership lock, which is
given back, so that the whole world after a lookup is known, and not only how
it compares with the one before.
-/
import ServerGroups.Proofs.Runs.Requests

namespace ServerGroups

open Program Coordinator

namespace World

variable {w : World} {c : Call}

/-- Some calls have been made, and nothing else is different. -/
def consulted (w : World) (calls : List Call) : World :=
  { w with history := { w.history with calls := w.history.calls ++ calls.toArray } }

theorem consulted_consulted (w : World) (calls calls' : List Call) :
    (w.consulted calls).consulted calls' = w.consulted (calls ++ calls') := by
  simp [consulted]

theorem same_consulted (w : World) (calls : List Call) : w.Same (w.consulted calls) :=
  ⟨⟨⟨rfl, rfl, rfl, rfl, rfl⟩, rfl, rfl, id, id, id, rfl⟩, poses_of_site rfl rfl, rfl,
    by simp [consulted], rfl⟩

/-- A call that looks is answered, and leaves nothing behind but itself. -/
theorem meet_look {a : c.Answer} (hw : w.faults = []) (hc : ∀ k, c ≠ .hook k)
    (ha : w.site.serve c = w.site.look a) (hu : ∀ v : World, v.remember c = v) :
    w.meet (.call c) = (.answered a, w.consulted [c]) := by
  have hmake : w.make c = (.answered a, w.consulted [c]) := by
    unfold make serve
    simp only [hw, Fault.meet, ha, Site.look, List.foldl_nil, hu, Except.isOk, Except.toBool,
      if_true]
    simp [consulted, hw]
  -- a hook is not called at all where nobody observes
  cases c with
  | hook k => exact absurd rfl (hc k)
  | _ => exact hmake

theorem consulted_released {l : Lock} (hfree : w.locks.isFree l false = true) (calls : List Call) :
    ((w.granted l).consulted calls).released l = w.consulted calls := by
  have hlocks := Locks.release_grant hfree
  show ({ w.consulted calls with locks := _ } : World) = w.consulted calls
  simp only [consulted, granted, hlocks]

end World

namespace Terms

open World

variable {T : Terms} {w : World} {t : TableName}

theorem ensures_consult {c : Call} {post : c.Answer → World → Prop} {a : c.Answer}
    (hw : w.faults = []) (hc : ∀ k, c ≠ .hook k) (ha : w.site.serve c = w.site.look a)
    (hu : ∀ v : World, v.remember c = v) (h : post a (w.consulted [c])) :
    (call c).Ensures T.rule post w := by
  refine ⟨fun _ => ⟨a, by rw [meet_look hw hc ha hu]⟩, ?_⟩
  rw [meet_look hw hc ha hu]
  exact h

/-- A group is looked up under the membership lock. -/
theorem ensures_getGroup {name : String} {post : Option Group → World → Prop} (hs : T.strict)
    (hw : w.faults = []) (hfree : w.locks.isFree .membership false = true)
    (h : post w.site.registry.groups[name]? (w.consulted [.group name])) :
    (getGroup name).Ensures T.rule post w := by
  refine ensures_holding (fun _ => hfree) (absurd hs) fun v hv _ => ?_
  -- the lock was free, so nothing has happened before it was granted
  obtain rfl := hv.eq hs
  refine ensures_consult (a := v.site.registry.groups[name]?) hw (by simp) rfl (fun _ => rfl) ?_
  rw [consulted_released hfree]
  exact h

/-- The group of a table is looked up under the membership lock, if there is one. -/
theorem ensures_getGroupOfTable {post : Option Group → World → Prop} (hs : T.strict)
    (hw : w.faults = []) (hn : w.site.registry.Named)
    (hfree : w.locks.isFree .membership false = true)
    (hnone : (∀ k, ¬ w.site.registry.Pins k t) → post none (w.consulted [.groupOfTable t]))
    (hsome : ∀ k g, w.site.registry.groups[k]? = some g → t ∈ g.tables →
      post (some g) (w.consulted [.groupOfTable t, .group k])) :
    (getGroupOfTable t).Ensures T.rule post w := by
  refine ensures_holding (fun _ => hfree) (absurd hs) fun v hv _ => ?_
  obtain rfl := hv.eq hs
  rw [ensures_bind]
  refine ensures_consult (a := v.site.registry.groupOfTable? t) hw (by simp) rfl (fun _ => rfl) ?_
  rcases hk : v.site.registry.groupOfTable? t with - | k
  · rw [ensures_pure, consulted_released hfree]
    exact hnone (Registry.groupOfTable?_eq_none.1 hk)
  · obtain ⟨g, hg, ht⟩ := Registry.pins_of_groupOfTable? hn hk
    dsimp only
    refine ensures_consult (a := v.site.registry.groups[k]?) hw (by simp) rfl (fun _ => rfl) ?_
    rw [consulted_consulted, consulted_released hfree, hg]
    exact hsome k g hg ht

end Terms

end ServerGroups
