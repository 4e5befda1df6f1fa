/-
ServerGroups/Proofs/Balance/Shortest.lean

No plan evens loads out with fewer placements than that of the balancer.

With `q` regions for each server, rounded down, loads are even just if every
server has `q` or `q + 1` of them.  So every region that a server has beyond
`q + 1` has to leave it (`excess`), and every one that it has less than `q` has
to come (`deficit`).  A placement makes each of the two smaller by at most one,
so no plan is shorter than the larger of them (`distance`):

    distance_le_length   a plan that leaves even loads has as many placements at least
    length_moves         the moves of the balancer are exactly as many
    moves_apart          none of them brings a region to a server that another one takes from

The moves are so few since a server that was brought a region never gives one,
and the other way around.  The fewest regions of a server never get fewer.  So
one that had the fewest, and got one more, is never again two above another
(`Low`); and one that had the most is never again two below another (`High`).

Design.  What a move preserves is told of a server by its name, since the list
of the loads has another load for it after a move.
-/
import ServerGroups.Proofs.Balance.Replay

namespace ServerGroups

namespace Loads

variable {loads next after : Loads} {p p' : Placement} {plan : List Placement}
variable {x y : ServerAddress × List Region} {f g : Nat → Nat} {q n fuel : Nat}
variable {server : ServerAddress}

/-! ### Sums over the servers -/

/-- The sum over all servers of what a function makes of the number of their regions. -/
def sumOf (f : Nat → Nat) (loads : Loads) : Nat := (loads.map fun x => f x.2.length).sum

/-- How many regions there are for each server, rounded down. -/
def share (loads : Loads) : Nat := loads.regions.length / loads.length

/-- How many regions the servers have beyond `q + 1`. -/
def excess (q : Nat) (loads : Loads) : Nat := loads.sumOf fun n => n - (q + 1)

/-- How many regions the servers have less than `q`. -/
def deficit (q : Nat) (loads : Loads) : Nat := loads.sumOf fun n => q - n

/-- The larger one of the two. -/
def distance (q : Nat) (loads : Loads) : Nat := max (loads.excess q) (loads.deficit q)

theorem sumOf_perm {others : Loads} (h : loads.Perm others) : loads.sumOf f = others.sumOf f :=
  (h.map _).sum_eq

theorem sumOf_cons (x : ServerAddress × List Region) (loads : Loads) :
    sumOf f (x :: loads) = f x.2.length + loads.sumOf f := rfl

theorem sumOf_eq_zero (h : ∀ x ∈ loads, f x.2.length = 0) : loads.sumOf f = 0 := by
  refine List.sum_eq_zero fun n hn => ?_
  obtain ⟨x, hx, rfl⟩ := List.mem_map.1 hn
  exact h x hx

theorem length_regions : loads.regions.length = loads.sumOf id := List.length_flatMap

/-- A placement changes two terms of every sum. -/
theorem Carries.sums (h : loads.Carries p after) : ∃ (m n : Nat) (others : Loads), ∀ f,
    loads.sumOf f = f (m + 1) + (f n + others.sumOf f) ∧
      after.sumOf f = f m + (f (n + 1) + others.sumOf f) := by
  cases h with
  | @mk source destination r before behind held others after hne hbefore hafter =>
    refine ⟨(before ++ behind).length, held.length, others, fun f => ⟨?_, ?_⟩⟩
    · rw [sumOf_perm hbefore, sumOf_cons, sumOf_cons]
      simp only [List.length_append, List.length_cons, Nat.add_assoc]
    · rw [sumOf_perm hafter, sumOf_cons, sumOf_cons]
      simp only [List.length_append, List.length_singleton]

/-! ### The share of a server -/

theorem Carries.share (h : loads.Carries p after) : after.share = loads.share := by
  have hservers := h.servers.length_eq
  simp only [Loads.servers, List.length_map] at hservers
  rw [Loads.share, Loads.share, h.regions.length_eq, hservers]

/-- If every server has `n` regions, so many are the share of each. -/
theorem le_share (hx : x ∈ loads) (h : ∀ z ∈ loads, n ≤ z.2.length) : n ≤ loads.share := by
  have hsum := List.card_nsmul_le_sum (loads.map fun x => x.2.length) n fun m hm => by
    obtain ⟨z, hz, rfl⟩ := List.mem_map.1 hm
    exact h z hz
  rw [List.length_map, smul_eq_mul, Nat.mul_comm] at hsum
  rw [share, length_regions]
  exact (Nat.le_div_iff_mul_le (List.length_pos_of_mem hx)).2 hsum

/-- If no server has more than `n` regions, and one has less, the share is less. -/
theorem share_lt (hx : x ∈ loads) (hlt : x.2.length < n) (h : ∀ z ∈ loads, z.2.length ≤ n) :
    loads.share < n := by
  have hsum := List.sum_lt_sum (l := loads) (fun z => z.2.length) (fun _ => n) h ⟨x, hx, hlt⟩
  rw [List.map_const', List.sum_replicate, smul_eq_mul] at hsum
  rw [share, length_regions]
  exact Nat.div_lt_of_lt_mul hsum

/-- There is nothing left to do where the loads are even. -/
theorem Even.distance (h : loads.Even) : loads.distance loads.share = 0 := by
  have hexcess : loads.excess loads.share = 0 := sumOf_eq_zero fun x hx => by
    by_contra hne
    have hle : loads.share + 1 ≤ loads.share := le_share hx fun z hz => by
      have := h x hx z hz
      omega
    omega
  have hdeficit : loads.deficit loads.share = 0 := sumOf_eq_zero fun x hx => by
    by_contra hne
    have hlt : loads.share < loads.share := share_lt hx (by omega) fun z hz => by
      have := h z hz x hx
      omega
    omega
  rw [Loads.distance, hexcess, hdeficit, Nat.max_self]

/-! ### No plan is shorter -/

/-- A placement brings loads nearer to even ones by one at most. -/
theorem Carries.distance_le (h : loads.Carries p after) :
    loads.distance q ≤ after.distance q + 1 := by
  obtain ⟨m, n, others, hsums⟩ := h.sums
  have hexcess := hsums fun n => n - (q + 1)
  have hdeficit := hsums fun n => q - n
  simp only [distance, excess, deficit]
  omega

/-- A plan that leaves even loads has at least one placement for each region that has to go. -/
theorem distance_le_length (h : loads.Replays plan after) (heven : after.Even) :
    loads.distance loads.share ≤ plan.length := by
  induction h with
  | nil loads => exact heven.distance.le
  | @cons loads next after p plan hcarries _ ih =>
    have hnext := ih heven
    have hle := hcarries.distance_le (q := loads.share)
    rw [hcarries.share] at hnext
    rw [List.length_cons]
    omega

/-! ### The moves of the balancer -/

/-- Each move is one that has to be made. -/
theorem distance_next? (hn : loads.servers.Nodup) (h : loads.next? = some (p, after)) :
    after.distance loads.share + 1 = loads.distance loads.share := by
  obtain ⟨most, hmost, least, hleast, r, -, huneven, -, rfl, hbetween⟩ := next?_eq_some h
  have hne : least ≠ most := fun heq => by
    rw [heq] at huneven
    omega
  obtain ⟨others, hothers⟩ := perm_pair hmost hleast hne
  have hafter := shift_perm (r := r) hn hothers
  have hlow : least.2.length ≤ loads.share := le_share hleast fun z hz => (hbetween z hz).1
  have hhigh : loads.share < most.2.length :=
    share_lt hleast (by omega) fun z hz => (hbetween z hz).2
  -- the other servers lack nothing if the fewest are enough, and have nothing to give if the most
  -- are not too many
  have hdeficit : least.2.length = loads.share → loads.deficit loads.share = 0 := fun heq =>
    sumOf_eq_zero fun z hz => by
      have := (hbetween z hz).1
      omega
  have hexcess : most.2.length = loads.share + 1 → loads.excess loads.share = 0 := fun heq =>
    sumOf_eq_zero fun z hz => by
      have := (hbetween z hz).2
      omega
  simp only [deficit, excess, sumOf_perm hothers, sumOf_cons] at hdeficit hexcess
  simp only [distance, excess, deficit, sumOf_perm hothers, sumOf_perm hafter, sumOf_cons,
    List.length_dropLast, List.length_append, List.length_singleton]
  omega

/-- There are just as many moves as have to be made. -/
theorem length_moves : ∀ {fuel : Nat} {loads : Loads}, loads.servers.Nodup →
    loads.unevenness ≤ fuel → (loads.moves fuel).length = loads.distance loads.share
  | fuel, loads, hn, hfuel => by
    rcases hnext : loads.next? with - | ⟨p, next⟩
    · have heven := next?_eq_none.1 hnext
      rw [moves_eq_nil heven, heven.distance, List.length_nil]
    · have hcarries := carries_next? hn hnext
      have hlower := unevenness_next? hn hnext
      cases fuel with
      | zero => omega
      | succ fuel =>
        have hbound : next.unevenness ≤ fuel := by omega
        have hrest := length_moves (nodup_next? hn hnext) hbound
        rw [moves, hnext, List.length_cons, hrest, hcarries.share]
        exact distance_next? hn hnext

/-! ### Servers that give, and servers that are given to -/

/-- A server does not have two regions more than another. -/
def Low (loads : Loads) (server : ServerAddress) : Prop :=
  ∀ x ∈ loads, x.1 = server → ∀ z ∈ loads, x.2.length ≤ z.2.length + 1

/-- No server has two regions more than this one. -/
def High (loads : Loads) (server : ServerAddress) : Prop :=
  ∀ x ∈ loads, x.1 = server → ∀ z ∈ loads, z.2.length ≤ x.2.length + 1

/-- The loads after a move, compared to the most and the fewest regions before it. -/
theorem length_shift {most least : ServerAddress × List Region} {r : Region}
    (hn : loads.servers.Nodup) (hmost : most ∈ loads) (hleast : least ∈ loads)
    (huneven : least.2.length + 2 ≤ most.2.length)
    (hbetween : ∀ x ∈ loads, least.2.length ≤ x.2.length ∧ x.2.length ≤ most.2.length)
    {z : ServerAddress × List Region} (hz : z ∈ loads.shift most.1 least.1 r) :
    (least.2.length ≤ z.2.length ∧ z.2.length ≤ most.2.length) ∧
      ((z.1 = most.1 ∧ z.2.length + 1 = most.2.length) ∨
        (z.1 = least.1 ∧ z.2.length = least.2.length + 1) ∨
        (z ∈ loads ∧ z.1 ≠ most.1 ∧ z.1 ≠ least.1)) := by
  obtain rfl | rfl | hz := of_mem_shift hn hmost hleast hz
  · rw [List.length_dropLast]
    exact ⟨by omega, .inl ⟨rfl, by omega⟩⟩
  · rw [List.length_append, List.length_singleton]
    exact ⟨by omega, .inr (.inl ⟨rfl, rfl⟩)⟩
  · exact ⟨hbetween z hz.1, .inr (.inr hz)⟩

/-- A server that is low stays low. -/
theorem low_next? (hn : loads.servers.Nodup) (h : loads.Low server)
    (hnext : loads.next? = some (p, after)) : after.Low server := by
  obtain ⟨most, hmost, least, hleast, r, -, huneven, -, rfl, hbetween⟩ := next?_eq_some hnext
  have hload := fun {z} => length_shift (z := z) (r := r) hn hmost hleast huneven hbetween
  rintro x hx rfl z hz
  have hz' := (hload hz).1
  obtain ⟨hx', -⟩ | ⟨-, hx'⟩ | ⟨hx', -⟩ := (hload hx).2
  · have hmost' := h most hmost hx'.symm least hleast
    omega
  · omega
  · have hbounds := hbetween x hx'
    have hleast' := h x hx' rfl least hleast
    obtain ⟨-, hz''⟩ | ⟨-, hz''⟩ | ⟨hz'', -⟩ := (hload hz).2
    · omega
    · omega
    · exact h x hx' rfl z hz''

/-- A server that is high stays high. -/
theorem high_next? (hn : loads.servers.Nodup) (h : loads.High server)
    (hnext : loads.next? = some (p, after)) : after.High server := by
  obtain ⟨most, hmost, least, hleast, r, -, huneven, -, rfl, hbetween⟩ := next?_eq_some hnext
  have hload := fun {z} => length_shift (z := z) (r := r) hn hmost hleast huneven hbetween
  rintro x hx rfl z hz
  have hz' := (hload hz).1
  obtain ⟨-, hx'⟩ | ⟨hx', -⟩ | ⟨hx', -⟩ := (hload hx).2
  · omega
  · have hleast' := h least hleast hx'.symm most hmost
    omega
  · have hbounds := hbetween x hx'
    have hmost' := h x hx' rfl most hmost
    obtain ⟨-, hz''⟩ | ⟨-, hz''⟩ | ⟨hz'', -⟩ := (hload hz).2
    · omega
    · omega
    · exact h x hx' rfl z hz''

/-- A move takes from a server that was not low, which is high then, and brings to one that was not
high, which is low then. -/
theorem roles_next? (hn : loads.servers.Nodup) (h : loads.next? = some (p, after)) :
    ∃ source, p.source = some source ∧ source ≠ p.destination ∧
      (¬ loads.Low source ∧ after.High source) ∧
      (¬ loads.High p.destination ∧ after.Low p.destination) := by
  obtain ⟨most, hmost, least, hleast, r, -, huneven, rfl, rfl, hbetween⟩ := next?_eq_some h
  have hload := fun {z} => length_shift (z := z) (r := r) hn hmost hleast huneven hbetween
  have hne : most.1 ≠ least.1 := fun heq => by
    rw [eq_of_server hn hmost hleast heq] at huneven
    omega
  refine ⟨most.1, rfl, hne, ⟨fun hlow => ?_, ?_⟩, ⟨fun hhigh => ?_, ?_⟩⟩
  · have := hlow most hmost rfl least hleast
    omega
  · intro x hx hserver z hz
    have hz' := (hload hz).1
    obtain ⟨-, hx'⟩ | ⟨hx', -⟩ | ⟨-, hx', -⟩ := (hload hx).2
    · omega
    · exact absurd (hserver.symm.trans hx') hne
    · exact absurd hserver hx'
  · have := hhigh least hleast rfl most hmost
    omega
  · intro x hx hserver z hz
    have hz' := (hload hz).1
    obtain ⟨hx', -⟩ | ⟨-, hx'⟩ | ⟨-, -, hx'⟩ := (hload hx).2
    · exact absurd (hx'.symm.trans hserver) hne
    · omega
    · exact absurd hserver hx'

/-- What holds of the loads and is preserved by every move holds when a move of theirs is made. -/
theorem exists_of_mem_moves {P : Loads → Prop}
    (hstep : ∀ {loads after : Loads} {p}, loads.servers.Nodup → P loads →
      loads.next? = some (p, after) → P after) :
    ∀ {fuel : Nat} {loads : Loads}, loads.servers.Nodup → P loads → p ∈ loads.moves fuel →
      ∃ loads after : Loads, loads.servers.Nodup ∧ P loads ∧ loads.next? = some (p, after)
  | 0, _, _, _, hp => absurd hp List.not_mem_nil
  | fuel + 1, loads, hn, h, hp => by
    rw [moves] at hp
    split at hp
    · exact absurd hp List.not_mem_nil
    · next first after hnext =>
      obtain rfl | hp := List.mem_cons.1 hp
      · exact ⟨loads, after, hn, h, hnext⟩
      · exact exists_of_mem_moves hstep (nodup_next? hn hnext) (hstep hn h hnext) hp

/-- A server that is low is never the source of a move. -/
theorem Low.not_source (hn : loads.servers.Nodup) (h : loads.Low server)
    (hp : p ∈ loads.moves fuel) : p.source ≠ some server := by
  obtain ⟨loads, after, hn, h, hnext⟩ :=
    exists_of_mem_moves (P := fun loads => loads.Low server) low_next? hn h hp
  obtain ⟨source, hsource, -, ⟨hlow, -⟩, -⟩ := roles_next? hn hnext
  rw [hsource]
  exact fun heq => hlow (Option.some.inj heq ▸ h)

/-- A server that is high is never the destination of a move. -/
theorem High.not_destination (hn : loads.servers.Nodup) (h : loads.High server)
    (hp : p ∈ loads.moves fuel) : p.destination ≠ server := by
  obtain ⟨loads, after, hn, h, hnext⟩ :=
    exists_of_mem_moves (P := fun loads => loads.High server) high_next? hn h hp
  obtain ⟨_, -, -, -, hhigh, -⟩ := roles_next? hn hnext
  exact fun heq => hhigh (heq ▸ h)

/-- No server is the source of one move and the destination of another. -/
theorem moves_apart : ∀ {fuel : Nat} {loads : Loads}, loads.servers.Nodup →
    p ∈ loads.moves fuel → p' ∈ loads.moves fuel → p.source ≠ some p'.destination
  | 0, _, _, hp, _ => absurd hp List.not_mem_nil
  | fuel + 1, loads, hn, hp, hp' => by
    rw [moves] at hp hp'
    split at hp
    · exact absurd hp List.not_mem_nil
    · next first after hnext =>
      rw [hnext] at hp'
      have hn' := nodup_next? hn hnext
      obtain ⟨source, hsource, hne, ⟨-, hhigh⟩, -, hlow⟩ := roles_next? hn hnext
      rcases List.mem_cons.1 hp with rfl | hlater
      · rw [hsource]
        rcases List.mem_cons.1 hp' with rfl | hlater'
        · exact fun heq => hne (Option.some.inj heq)
        · exact fun heq => hhigh.not_destination hn' hlater' (Option.some.inj heq).symm
      · rcases List.mem_cons.1 hp' with rfl | hlater'
        · exact hlow.not_source hn' hlater
        · exact moves_apart hn' hlater hlater'

/-! ### The regions that leave a server -/

/-- The regions that a plan takes from a server, in order. -/
def takenFrom (server : ServerAddress) (plan : List Placement) : List Region :=
  (plan.filter fun p => p.source = some server).map Placement.region

theorem takenFrom_eq_nil (h : ∀ p ∈ plan, p.source ≠ some server) : takenFrom server plan = [] := by
  rw [takenFrom, List.filter_eq_nil_iff.2 fun p hp => by simpa using h p hp, List.map_nil]

/-- The moves take the last regions of a server, from the last one on, so none of them twice. -/
theorem takenFrom_moves : ∀ {fuel : Nat} {loads : Loads} {x : ServerAddress × List Region},
    loads.servers.Nodup → x ∈ loads → (takenFrom x.1 (loads.moves fuel)).reverse <:+ x.2
  | 0, _, _, _, _ => List.nil_suffix
  | fuel + 1, loads, x, hn, hx => by
    rw [moves]
    split
    · exact List.nil_suffix
    · next p after hnext =>
      have hn' := nodup_next? hn hnext
      obtain ⟨_, -, -, -, -, hlow⟩ := roles_next? hn hnext
      obtain ⟨most, hmost, least, -, r, hr, -, rfl, rfl, -⟩ := next?_eq_some hnext
      have hload := List.mem_map_of_mem (f := fun x : ServerAddress × List Region =>
        if x.1 = most.1 then (x.1, x.2.dropLast)
        else if x.1 = least.1 then (x.1, x.2 ++ [r]) else x) hx
      by_cases hsource : x.1 = most.1
      · obtain rfl := eq_of_server hn hx hmost hsource
        rw [if_pos rfl] at hload
        obtain ⟨front, hfront⟩ : (takenFrom x.1 (moves fuel _)).reverse <:+ x.2.dropLast :=
          takenFrom_moves hn' hload
        refine ⟨front, ?_⟩
        rw [takenFrom, List.filter_cons_of_pos (by simp), List.map_cons, List.reverse_cons,
          ← List.append_assoc]
        exact (congrArg (· ++ [r]) hfront).trans (List.dropLast_append_getLast? r hr)
      · rw [if_neg hsource] at hload
        rw [takenFrom, List.filter_cons_of_neg (by simpa using Ne.symm hsource)]
        by_cases hdestination : x.1 = least.1
        · rw [← takenFrom, takenFrom_eq_nil fun p hp => hdestination ▸ hlow.not_source hn' hp]
          exact List.nil_suffix
        · rw [if_neg hdestination] at hload
          exact takenFrom_moves hn' hload

end Loads

/-! ### The plan of a snapshot -/

namespace Snapshot

/-- **No plan is shorter.**  No server is the source of one placement of a plan and the destination
of another, and the regions that leave a server are the last ones that it had at first, each taken
once.  With `q` regions for each server, rounded down, a plan has as many placements as there are
regions beyond `q + 1` on the servers, or as they lack up to `q`, whichever are more.  Every plan
that leaves no server with two regions more than another has at least as many. -/
theorem plan_shortest (s : Snapshot) :
    (∀ p ∈ s.plan?.getD [], ∀ p' ∈ s.plan?.getD [], p.source ≠ some p'.destination) ∧
      (∀ x ∈ s.toList, (Loads.takenFrom x.1 (s.plan?.getD [])).reverse <:+ x.2) ∧
      (s.plan?.getD []).length = max (Loads.excess (Loads.share s.toList) s.toList)
        (Loads.deficit (Loads.share s.toList) s.toList) ∧
      IsLeast {n | ∃ plan after, Loads.Replays s.toList plan after ∧ after.Even ∧ plan.length = n}
        (s.plan?.getD []).length := by
  rw [plan?_getD]
  have hlength : s.moves.length = Loads.distance (Loads.share s.toList) s.toList := by
    rw [moves_eq]
    exact Loads.length_moves s.nodup_servers le_rfl
  refine ⟨fun p hp p' hp' => ?_, fun x hx => ?_, hlength, ?_, ?_⟩
  · rw [moves_eq] at hp hp'
    exact Loads.moves_apart s.nodup_servers hp hp'
  · rw [moves_eq]
    exact Loads.takenFrom_moves s.nodup_servers hx
  · obtain ⟨after, hafter, heven⟩ := s.replays
    exact ⟨s.moves, after, hafter, heven, rfl⟩
  · rintro n ⟨plan, after, hafter, heven, rfl⟩
    rw [hlength]
    exact Loads.distance_le_length hafter heven

end Snapshot

end ServerGroups
