/-
ServerGroups/Proofs/Runs/Cluster.lean

What requests to unassign regions make of a cluster.

A request that does not fail either lowers the pin of its region by one, or
takes the region off every server.  Nothing else changes, so after any number
of requests

  * a region is on a server only if it was there before;
  * no pin has grown;
  * a region that was asked for and is still on some server has a lower pin.

The last one is what lets a drain end.  It needs the cluster to be `Keyed`: a
region in transition is recorded under its own encoded name, so a request
finds it.
-/
import ServerGroups.Change
import ServerGroups.Proofs.Confinement.Home

namespace ServerGroups

namespace Cluster

variable {c c' : Cluster} {r x : Region} {s : ServerAddress} {rs : List Region}

/-- Every region in transition is recorded under its own encoded name. -/
def Keyed (c : Cluster) : Prop := ∀ (name : String) (x : RegionTransition),
  c.transitions[name]? = some x → x.region.encodedName = name

theorem keyed_ofServers (servers : ServerSet) : (ofServers servers).Keyed := by
  intro name x hx
  have hnone : (∅ : Std.ExtTreeMap String RegionTransition)[name]? = some x := hx
  simp at hnone

theorem Keyed.setTransition (h : c.Keyed) (r : Region) (s : ServerAddress)
    (state : TransitionState) : (c.setTransition r s state).Keyed := by
  intro name x hx
  simp only [Cluster.setTransition, Std.ExtTreeMap.getElem?_insert,
    Std.LawfulEqOrd.compare_eq_iff_eq] at hx
  split at hx
  · next hname =>
    obtain rfl := Option.some.inj hx
    exact hname
  · exact h name x hx

theorem Keyed.clearTransition (h : c.Keyed) (r : Region) : (c.clearTransition r).Keyed := by
  intro name x hx
  simp only [Cluster.clearTransition, Std.ExtTreeMap.getElem?_erase] at hx
  split at hx
  · cases hx
  · exact h name x hx

/-! ### One request -/

/-- The cluster after a request to unassign a region. -/
def request (c : Cluster) (r : Region) : Cluster :=
  match c.pins[r]? with
  | some (n + 1) => { c with pins := c.pins.insert r n }
  | _ => { c with
      assignments := c.assignments.erase r
      transitions := c.transitions.erase r.encodedName }

theorem request_eq (c : Cluster) (r : Region) :
    (∃ n, c.pins[r]? = some (n + 1) ∧ c.request r = { c with pins := c.pins.insert r n }) ∨
      (c.pinned r = 0 ∧ c.request r = { c with
        assignments := c.assignments.erase r
        transitions := c.transitions.erase r.encodedName }) := by
  unfold request pinned
  rcases c.pins[r]? with - | - | n
  · exact .inr ⟨rfl, rfl⟩
  · exact .inr ⟨rfl, rfl⟩
  · exact .inl ⟨n, rfl, rfl⟩

theorem unassign_of_not_failing (h : c.failing = false) (r : Region) :
    ∃ ignored, c.unassign r = .ok (ignored, c.request r) := by
  unfold unassign request
  rw [h]
  rcases c.pins[r]? with - | - | n <;> exact ⟨_, rfl⟩

theorem unassign_eq_ok_request {ignored : Bool} (h : c.unassign r = .ok (ignored, c')) :
    c' = c.request r := by
  have hfailing : c.failing = false := by
    by_contra hne
    simp [unassign, eq_true_of_ne_false hne] at h
  obtain ⟨ignored', h'⟩ := unassign_of_not_failing hfailing r
  rw [h'] at h
  exact (Prod.mk.inj (Except.ok.inj h)).2.symm

/-- Nothing but pins, assignments and transitions is different. -/
theorem request_same (c : Cluster) (r : Region) :
    (c.request r).online = c.online ∧ (c.request r).recovering = c.recovering ∧
      (c.request r).regions = c.regions ∧ (c.request r).failing = c.failing := by
  rcases c.request_eq r with ⟨n, -, h⟩ | ⟨-, h⟩ <;> rw [h] <;> exact ⟨rfl, rfl, rfl, rfl⟩

theorem transitions_request {name : String} {x : RegionTransition}
    (h : (c.request r).transitions[name]? = some x) : c.transitions[name]? = some x := by
  rcases c.request_eq r with ⟨n, -, heq⟩ | ⟨-, heq⟩ <;> rw [heq] at h
  · exact h
  · rw [Std.ExtTreeMap.getElem?_erase] at h
    split at h
    · cases h
    · exact h

theorem on_request (h : (c.request r).On x s) : c.On x s := by
  rcases h with h | ⟨name, y, hy, hregion, hserver⟩
  · refine .inl ?_
    rcases c.request_eq r with ⟨n, -, heq⟩ | ⟨-, heq⟩ <;> rw [heq] at h
    · exact h
    · rw [Std.ExtTreeMap.getElem?_erase] at h
      split at h
      · cases h
      · exact h
  · exact .inr ⟨name, y, transitions_request hy, hregion, hserver⟩

/-- A request leaves the other regions where they are assigned. -/
theorem assignments_request_of_ne (h : r ≠ x) :
    (c.request r).assignments[x]? = c.assignments[x]? := by
  rcases c.request_eq r with ⟨n, -, heq⟩ | ⟨-, heq⟩ <;> rw [heq]
  rw [Std.ExtTreeMap.getElem?_erase, if_neg fun hx => h (Std.LawfulEqOrd.eq_of_compare hx)]

theorem Keyed.request (h : c.Keyed) (r : Region) : (c.request r).Keyed :=
  fun name x hx => h name x (transitions_request hx)

theorem pinned_request_le (c : Cluster) (r x : Region) : (c.request r).pinned x ≤ c.pinned x := by
  rcases c.request_eq r with ⟨n, hn, heq⟩ | ⟨-, heq⟩ <;> rw [heq]
  · simp only [pinned, Std.ExtTreeMap.getElem?_insert, Std.LawfulEqOrd.compare_eq_iff_eq]
    split
    · next heq =>
      subst heq
      simp [hn]
    · exact le_rfl
  · exact le_rfl

/-- A region that a request does not take off its server loses one of its pin. -/
theorem pinned_request_lt (hk : c.Keyed) (h : (c.request r).On r s) :
    (c.request r).pinned r < c.pinned r := by
  rcases c.request_eq r with ⟨n, hn, heq⟩ | ⟨-, heq⟩
  · rw [heq]
    simp [pinned, hn]
  · rw [heq] at h
    rcases h with h | ⟨name, y, hy, rfl, -⟩
    · simp at h
    · have hname := hk.request y.region name y (by rw [heq]; exact hy)
      subst hname
      simp at hy

/-! ### Any number of requests -/

/-- The cluster after requests to unassign some regions, one after the other. -/
def requests (c : Cluster) (rs : List Region) : Cluster := rs.foldl request c

@[simp] theorem requests_nil (c : Cluster) : c.requests [] = c := rfl

theorem requests_append (c : Cluster) (rs rs' : List Region) :
    c.requests (rs ++ rs') = (c.requests rs).requests rs' :=
  List.foldl_append

theorem requests_same (c : Cluster) (rs : List Region) :
    (c.requests rs).online = c.online ∧ (c.requests rs).recovering = c.recovering ∧
      (c.requests rs).regions = c.regions ∧ (c.requests rs).failing = c.failing := by
  induction rs generalizing c with
  | nil => exact ⟨rfl, rfl, rfl, rfl⟩
  | cons r rs ih =>
    obtain ⟨ho, hr, hl, hf⟩ := ih (c.request r)
    obtain ⟨ho', hr', hl', hf'⟩ := c.request_same r
    exact ⟨ho.trans ho', hr.trans hr', hl.trans hl', hf.trans hf'⟩

/-- Requests do not change what is listed for a table. -/
theorem regionsOf_requests (c : Cluster) (rs : List Region) :
    (c.requests rs).regionsOf = c.regionsOf := by
  funext t
  simp only [regionsOf, (requests_same c rs).2.2.1]

theorem on_requests : ∀ {c : Cluster} {rs : List Region}, (c.requests rs).On x s → c.On x s
  | _, [], h => h
  | _, _ :: _, h => on_request (on_requests h)

/-- A region that is not asked for stays assigned where it is. -/
theorem assignments_requests_of_notMem : ∀ {c : Cluster} {rs : List Region}, x ∉ rs →
    (c.requests rs).assignments[x]? = c.assignments[x]?
  | _, [], _ => rfl
  | c, r :: rs, h => by
    rw [List.mem_cons, not_or] at h
    exact (assignments_requests_of_notMem h.2).trans (assignments_request_of_ne (Ne.symm h.1))

theorem Keyed.requests : ∀ {c : Cluster}, c.Keyed → ∀ rs : List Region, (c.requests rs).Keyed
  | _, h, [] => h
  | _, h, r :: rs => (h.request r).requests rs

theorem pinned_requests_le (x : Region) : ∀ (c : Cluster) (rs : List Region),
    (c.requests rs).pinned x ≤ c.pinned x
  | _, [] => le_rfl
  | c, r :: rs => (pinned_requests_le x (c.request r) rs).trans (c.pinned_request_le r x)

/-- A region that was asked for and is still on a server has lost some of its pin. -/
theorem pinned_requests_lt : ∀ {c : Cluster} {rs : List Region}, c.Keyed → r ∈ rs →
    (c.requests rs).On r s → (c.requests rs).pinned r < c.pinned r
  | c, r' :: rs, hk, hr, h => by
    by_cases heq : r = r'
    · subst heq
      have hone := pinned_request_lt hk (on_requests h)
      exact (pinned_requests_le r (c.request r) rs).trans_lt hone
    · have hrs : r ∈ rs := (List.mem_cons.1 hr).resolve_left heq
      exact (pinned_requests_lt (hk.request r') hrs h).trans_le (c.pinned_request_le r' r)

end Cluster

/-- Whatever happens to the services from outside, the cluster stays keyed. -/
theorem Site.keyed_change {site : Site} (h : site.cluster.Keyed) (c : Change) :
    (site.change c).cluster.Keyed := by
  cases c with
  | moving r s state => exact h.setTransition r s state
  | moved r => exact h.clearTransition r
  | region r s => cases s <;> exact h
  | _ => exact h

end ServerGroups
