/-
ServerGroups/Proofs/Runs/Holdings.lean

Locks and reservations: what is left of them when something is given back.

To give back never takes anything: a lock that is free stays free, and a server
that is not reserved stays so.  A lock that one holder alone has is free once
this holder has given everything back.
-/
import ServerGroups.Proofs.Collections
import ServerGroups.Locks
import ServerGroups.Reservations

namespace ServerGroups

/-! ### Locks -/

namespace Locks

variable {l : Locks} {lock : Lock} {holder taker : Holder}

theorem isFree_iff : l.isFree lock false = true ↔ ∀ g ∈ l.grants, g.lock ≠ lock := by
  simp [isFree]

theorem isFree_releaseAll (h : l.isFree lock false = true) (holder : Holder) :
    (l.releaseAll holder).isFree lock false = true :=
  isFree_iff.2 fun g hg => isFree_iff.1 h g (List.mem_of_mem_filter hg)

/-- A free lock that is granted and given back is as it was. -/
theorem release_grant (h : l.isFree lock false = true) :
    (l.grant ⟨lock, false, .operation⟩).release lock .operation = l := by
  obtain ⟨grants⟩ := l
  simp only [grant, release, mk.injEq]
  rw [List.filter_cons_of_neg (by simp), List.filter_eq_self]
  intro g hg
  simp [isFree_iff.1 h g hg]

/-- A holder that has no lock gives none back. -/
theorem releaseAll_eq (h : ∀ g ∈ l.grants, g.holder ≠ holder) : l.releaseAll holder = l :=
  congrArg mk (List.filter_eq_self.2 fun g hg => by simpa using h g hg)

/-- A lock that is granted to an operation that has none is given back with everything. -/
theorem releaseAll_grant (h : ∀ g ∈ l.grants, g.holder ≠ .operation) (lock : Lock) :
    (l.grant ⟨lock, false, .operation⟩).releaseAll .operation = l := by
  refine Eq.trans ?_ (releaseAll_eq h)
  simp only [grant, releaseAll]
  rw [List.filter_cons_of_neg (by simp)]

/-- Nobody but one holder has a lock. -/
def Only (l : Locks) (lock : Lock) (holder : Holder) : Prop :=
  ∀ g ∈ l.grants, g.lock = lock → g.holder = holder

theorem Only.releaseAll (h : l.Only lock holder) (other : Holder) :
    (l.releaseAll other).Only lock holder :=
  fun g hg => h g (List.mem_of_mem_filter hg)

theorem Only.isFree_releaseAll (h : l.Only lock holder) :
    (l.releaseAll holder).isFree lock false = true := by
  refine isFree_iff.2 fun g hg hlock => ?_
  rw [Locks.releaseAll, List.mem_filter] at hg
  simpa [h g hg.1 hlock] using hg.2

/-- A free lock that is granted and handed over belongs to the taker alone. -/
theorem only_handOver (h : l.isFree lock false = true) (taker : Holder) :
    ((l.grant ⟨lock, false, .operation⟩).handOver lock .operation taker).Only lock taker := by
  intro g hg hlock
  simp only [grant, handOver, List.mem_map, List.mem_cons] at hg
  obtain ⟨x, rfl | hx, rfl⟩ := hg
  · simp
  · rw [if_neg fun hboth => isFree_iff.1 h x hx hboth.1] at hlock
    exact absurd hlock (isFree_iff.1 h x hx)

end Locks

/-! ### Reservations -/

namespace Reservations

variable {r : Reservations} {servers others : ServerSet} {s : ServerAddress}

theorem conflict?_eq_none : r.conflict? servers = .none ↔ ∀ s ∈ servers, r.target? s = .none := by
  simp [conflict?]

theorem reserve_eq_error {target : String} {cause : Refusal} :
    r.reserve servers target = .error cause ↔ r.conflict? servers = some cause := by
  unfold reserve
  rcases r.conflict? servers with - | cause' <;> simp

theorem conflict?_of_reserve {r' : Reservations} {target : String}
    (h : r.reserve servers target = .ok r') : r.conflict? servers = .none := by
  unfold reserve at h
  split at h
  · cases h
  · next hnone => exact hnone

theorem target?_release : (r.release servers).target? s =
    if s ∈ servers then .none else r.target? s := by
  simp only [target?, release, getElem?_foldl_erase, Std.ExtTreeSet.mem_toList]

theorem conflict?_release_self : (r.release servers).conflict? servers = .none :=
  conflict?_eq_none.2 fun s hs => by rw [target?_release, if_pos hs]

theorem conflict?_release (h : r.conflict? servers = .none) (others : ServerSet) :
    (r.release others).conflict? servers = .none := by
  refine conflict?_eq_none.2 fun s hs => ?_
  rw [target?_release]
  split
  · rfl
  · exact conflict?_eq_none.1 h s hs

end Reservations

end ServerGroups
