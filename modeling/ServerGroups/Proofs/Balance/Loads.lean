/-
ServerGroups/Proofs/Balance/Loads.lean

The moves of the balancer even the loads out.

A move is from a server with the most regions to one with the fewest, of which
the first has at least two more, so it lowers the sum of the squares of the
loads.  There is no move left only if the loads are `Even`: no server has two
regions more than another.  So `unevenness` moves are enough, and `moves`, which
takes this many for fuel, ends with even loads.

Design.  A move concerns two servers only.  As every server has one load, the
loads are these two and the others, in some order (`perm_pair`), and what a
move makes of a sum over the loads is seen on these two.
-/
import ServerGroups.Proofs.Confinement.Balance

namespace ServerGroups.Loads

variable {loads after : Loads} {p : Placement} {x y most least : ServerAddress × List Region}
variable {source destination : ServerAddress} {r : Region}

/-! ### Servers -/

/-- The servers, in order. -/
def servers (loads : Loads) : List ServerAddress := loads.map Prod.fst

@[simp] theorem servers_shift : (loads.shift source destination r).servers = loads.servers := by
  unfold servers shift
  rw [List.map_map]
  refine List.map_congr_left fun x _ => ?_
  simp only [Function.comp_apply]
  split
  · rfl
  · split <;> rfl

/-- Every server has one load. -/
theorem eq_of_server (hn : loads.servers.Nodup) (hx : x ∈ loads) (hy : y ∈ loads)
    (h : x.1 = y.1) : x = y :=
  List.inj_on_of_nodup_map hn hx hy h

/-- A load after a move is one of the two that it changes, or was there before. -/
theorem of_mem_shift (hn : loads.servers.Nodup) (hx : x ∈ loads) (hy : y ∈ loads)
    {z : ServerAddress × List Region} (hz : z ∈ loads.shift x.1 y.1 r) :
    z = (x.1, x.2.dropLast) ∨ z = (y.1, y.2 ++ [r]) ∨ (z ∈ loads ∧ z.1 ≠ x.1 ∧ z.1 ≠ y.1) := by
  obtain ⟨z, hmem, rfl⟩ := List.mem_map.1 hz
  split
  · next h =>
    rw [eq_of_server hn hmem hx h]
    exact .inl rfl
  · next hsource =>
    split
    · next h =>
      rw [eq_of_server hn hmem hy h]
      exact .inr (.inl rfl)
    · next hdestination => exact .inr (.inr ⟨hmem, hsource, hdestination⟩)

/-! ### The next move -/

/-- No server has two regions more than another. -/
def Even (loads : Loads) : Prop :=
  ∀ x ∈ loads, ∀ y ∈ loads, x.2.length ≤ y.2.length + 1

theorem length_le_busiest? (h : loads.busiest? = some most) (hx : x ∈ loads) :
    x.2.length ≤ most.2.length := by
  cases loads with
  | nil => cases hx
  | cons first rest =>
    have hmax := foldl_pick_max
      (fun best x : ServerAddress × List Region => best.2.length < x.2.length)
      (fun _ _ h => Nat.lt_asymm h) (fun _ _ _ h h' => Nat.not_lt.2
        ((Nat.not_lt.1 h').trans (Nat.not_lt.1 h))) rest first x hx
    rw [← Option.some.inj h]
    exact Nat.not_lt.1 hmax

theorem idlest?_le_length (h : loads.idlest? = some least) (hx : x ∈ loads) :
    least.2.length ≤ x.2.length := by
  cases loads with
  | nil => cases hx
  | cons first rest =>
    have hmin := foldl_pick_max
      (fun best x : ServerAddress × List Region => x.2.length < best.2.length)
      (fun _ _ h => Nat.lt_asymm h) (fun _ _ _ h h' => Nat.not_lt.2
        ((Nat.not_lt.1 h).trans (Nat.not_lt.1 h'))) rest first x hx
    rw [← Option.some.inj h]
    exact Nat.not_lt.1 hmin

/-- A move takes the last region of a server with the most regions, and brings it to one with the
fewest, which has at least two less. -/
theorem next?_eq_some (h : loads.next? = some (p, after)) : ∃ most ∈ loads, ∃ least ∈ loads, ∃ r,
    most.2.getLast? = some r ∧ least.2.length + 2 ≤ most.2.length ∧
      p = ⟨r, some most.1, least.1⟩ ∧ after = loads.shift most.1 least.1 r ∧
      ∀ x ∈ loads, least.2.length ≤ x.2.length ∧ x.2.length ≤ most.2.length := by
  unfold next? at h
  split at h
  · next most least hmost hleast =>
    split at h
    · cases h
    · next huneven =>
      split at h
      · next r hr =>
        obtain ⟨rfl, rfl⟩ := Prod.mk.inj (Option.some.inj h)
        exact ⟨most, busiest?_mem hmost, least, idlest?_mem hleast, r, hr, by omega, rfl, rfl,
          fun x hx => ⟨idlest?_le_length hleast hx, length_le_busiest? hmost hx⟩⟩
      · cases h
  · cases h

/-- There is nothing to move just where the loads are even. -/
theorem next?_eq_none : loads.next? = none ↔ loads.Even := by
  constructor
  · intro h x hx y hy
    obtain ⟨first, rest, rfl⟩ := List.exists_cons_of_ne_nil (List.ne_nil_of_mem hx)
    obtain ⟨most, hmost⟩ : ∃ most, busiest? (first :: rest) = some most := ⟨_, rfl⟩
    obtain ⟨least, hleast⟩ : ∃ least, idlest? (first :: rest) = some least := ⟨_, rfl⟩
    have hx' := length_le_busiest? hmost hx
    have hy' := idlest?_le_length hleast hy
    simp only [next?, hmost, hleast] at h
    split at h
    · omega
    · split at h
      · cases h
      · next hlast =>
        have hempty : most.2.length = 0 := by simpa using hlast
        omega
  · intro h
    rcases hn : loads.next? with - | ⟨p, after⟩
    · rfl
    · obtain ⟨most, hmost, least, hleast, r, -, huneven, -⟩ := next?_eq_some hn
      have hle := h most hmost least hleast
      omega

theorem moves_eq_nil (h : loads.Even) : ∀ {fuel : Nat}, loads.moves fuel = []
  | 0 => rfl
  | fuel + 1 => by rw [moves, next?_eq_none.2 h]

/-- Loads without regions are even. -/
theorem even_of_empty (h : ∀ x ∈ loads, x.2 = []) : loads.Even := by
  intro x hx y _
  rw [h x hx]
  exact Nat.zero_le _

theorem even_of_length_le_one (h : loads.length ≤ 1) : loads.Even := by
  match loads, h with
  | [], _ => exact fun x hx => absurd hx List.not_mem_nil
  | [x], _ =>
    intro y hy z hz
    rw [List.mem_singleton.1 hy, List.mem_singleton.1 hz]
    exact Nat.le_succ _

/-! ### What a move lowers -/

/-- The loads of two servers, and the others. -/
theorem perm_pair (hx : x ∈ loads) (hy : y ∈ loads) (hne : y ≠ x) :
    ∃ others, loads.Perm (x :: y :: others) :=
  ⟨_, (List.perm_cons_erase hx).trans
    ((List.perm_cons_erase ((List.mem_erase_of_ne hne).2 hy)).cons x)⟩

theorem shift_of_notMem (hs : source ∉ loads.servers) (hd : destination ∉ loads.servers) :
    loads.shift source destination r = loads := by
  refine (List.map_congr_left fun x hx => ?_).trans (List.map_id loads)
  have hx' : x.1 ∈ loads.servers := List.mem_map_of_mem hx
  have hsource : x.1 ≠ source := fun h => hs (h ▸ hx')
  have hdestination : x.1 ≠ destination := fun h => hd (h ▸ hx')
  rw [if_neg hsource, if_neg hdestination, id]

/-- A move changes two loads. -/
theorem shift_perm (hn : loads.servers.Nodup) {others : Loads}
    (h : loads.Perm (x :: y :: others)) : (loads.shift x.1 y.1 r).Perm
      ((x.1, x.2.dropLast) :: (y.1, y.2 ++ [r]) :: others) := by
  have hservers : (servers (x :: y :: others)).Nodup := (h.map Prod.fst).nodup_iff.1 hn
  simp only [servers, List.map_cons, List.nodup_cons, List.mem_cons, not_or] at hservers
  obtain ⟨⟨hne, hx⟩, hy, -⟩ := hservers
  refine (h.map _).trans (List.Perm.of_eq ?_)
  rw [List.map_cons, List.map_cons, if_pos rfl, if_neg (Ne.symm hne), if_pos rfl]
  exact congrArg _ (congrArg _ (shift_of_notMem hx hy))

theorem unevenness_perm {others : Loads} (h : loads.Perm others) :
    loads.unevenness = others.unevenness := by
  unfold unevenness
  exact h.foldr_eq' (fun x _ y _ n => by omega) 0

/-- Every move lowers the sum of the squares. -/
theorem unevenness_next? (hn : loads.servers.Nodup) (h : loads.next? = some (p, after)) :
    after.unevenness < loads.unevenness := by
  obtain ⟨most, hmost, least, hleast, r, -, huneven, -, rfl, -⟩ := next?_eq_some h
  have hne : least ≠ most := fun heq => by
    rw [heq] at huneven
    omega
  obtain ⟨others, hothers⟩ := perm_pair hmost hleast hne
  rw [unevenness_perm hothers, unevenness_perm (shift_perm hn hothers)]
  simp only [unevenness, List.foldr_cons, List.length_dropLast, List.length_append,
    List.length_singleton]
  -- with `k + 2` regions between them, the sum goes down by `2 * (k + 1)`
  obtain ⟨k, hk⟩ := Nat.exists_eq_add_of_le huneven
  rw [hk, show least.2.length + 2 + k - 1 = least.2.length + 1 + k by omega]
  nlinarith

end ServerGroups.Loads
