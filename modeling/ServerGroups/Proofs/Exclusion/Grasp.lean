/-
ServerGroups/Proofs/Exclusion/Grasp.lean

What the stage of the running activity says of the world, and that every
request keeps it.

`w.At st` says who has what: the drain that runs, if one does, has the
membership lock alone, and its servers are reserved for its target and belong
to it; and the running operation has what its stage says, and nothing else.
Both cannot have the membership lock, so no drain runs while an operation
changes the registry.

What happens outside may change everything that the coordinator does not rely
on (`Spares`): the services but the registry, the locks but those of the
coordinator, and the reservations of other servers.
-/
import ServerGroups.Proofs.Confinement.Orderly
import ServerGroups.Proofs.Exclusion.Stages
import ServerGroups.Proofs.Runs.Holdings

namespace ServerGroups

/-! ### Reservations -/

/-- Some servers are reserved for a target, and none of them was before. -/
theorem Reservations.target?_of_reserve {r r' : Reservations} {servers : ServerSet}
    {target : String} (h : r.reserve servers target = .ok r') (s : ServerAddress) :
    (s ∈ servers ∧ r.target? s = .none ∧ r'.target? s = some target) ∨
      (s ∉ servers ∧ r'.target? s = r.target? s) := by
  by_cases hs : s ∈ servers
  · exact .inl ⟨hs, conflict?_eq_none.1 (conflict?_of_reserve h) s hs, target?_reserve h hs⟩
  · refine .inr ⟨hs, ?_⟩
    unfold reserve at h
    split at h
    · cases h
    · obtain rfl := Except.ok.inj h
      exact getElem?_foldl_insert_of_notMem fun hmem => hs (Std.ExtTreeSet.mem_toList.1 hmem)

/-! ### Who has what -/

/-- A lock that matters to the coordinator: the membership lock, or one that it has. -/
def Grant.Matters (g : Grant) : Prop :=
  g.lock = .membership ∨ g.holder = .operation ∨ ∃ number, g.holder = .move number

namespace World

variable {w w' : World} {st : Stage} {number : Nat} {m m' : Move} {s : ServerAddress}
variable {servers : ServerSet} {source target : String}

/-- The drain of a move has the membership lock alone, and its servers are reserved for its target
and belong to it. -/
structure Engages (w : World) (number : Nat) (m : Move) : Prop where
  granted : ⟨.membership, false, .move number⟩ ∈ w.locks.grants
  only : w.locks.Only .membership (.move number)
  reserved : ∀ s ∈ m.servers, w.reservations.target? s = some m.target
  members : ∀ s ∈ m.servers, w.site.registry.HasServer m.target s

/-- The running operation has a lock and no other one, and nobody else has the membership lock if
it is that. -/
structure Locked (w : World) (l : Lock) : Prop where
  granted : ⟨l, false, .operation⟩ ∈ w.locks.grants
  sole : ∀ g ∈ w.locks.grants, g.holder = .operation → g.lock = l
  only : l = .membership → w.locks.Only .membership .operation

/-- What a stage says of the running operation. -/
def Grasps (w : World) : Stage → Prop
  | .free => w.held = ∅ ∧ ∀ g ∈ w.locks.grants, g.holder ≠ .operation
  | .holding l => w.held = ∅ ∧ w.Locked l
  | .reserved servers target => w.held = servers ∧ w.Locked .membership ∧
    ∀ s ∈ servers, w.reservations.target? s = some target
  | .enrolled servers target => w.held = servers ∧ w.Locked .membership ∧
    (∀ s ∈ servers, w.reservations.target? s = some target) ∧
    ∀ s ∈ servers, w.site.registry.HasServer target s

/-- What holds at a stage of the running activity. -/
structure At (w : World) (st : Stage) : Prop where
  engaged : ∀ number m, w.Running number m → w.Engages number m
  grasped : w.Grasps st

/-- The coordinator has a server reserved, for the running operation or for a drain. -/
def Claims (w : World) (s : ServerAddress) : Prop :=
  s ∈ w.held ∨ ∃ number m, w.Running number m ∧ s ∈ m.servers

/-- Nothing changes that the coordinator relies on. -/
structure Spares (w w' : World) : Prop where
  registry : w'.site.registry = w.site.registry
  moves : w'.moves = w.moves
  held : w'.held = w.held
  grants : ∀ g : Grant, g.Matters → (g ∈ w'.locks.grants ↔ g ∈ w.locks.grants)
  reservations : ∀ s, w.Claims s → w'.reservations.target? s = w.reservations.target? s

/-! ### What does not matter -/

theorem Spares.refl (w : World) : w.Spares w := ⟨rfl, rfl, rfl, fun _ _ => .rfl, fun _ _ => rfl⟩

theorem Spares.running (h : w.Spares w') : w'.Running number m ↔ w.Running number m := by
  simp only [Running, h.moves]

theorem Spares.claims (h : w.Spares w') : w'.Claims s ↔ w.Claims s := by
  simp only [Claims, h.held, h.running]

theorem Spares.trans {w'' : World} (h : w.Spares w') (h' : w'.Spares w'') : w.Spares w'' where
  registry := h'.registry.trans h.registry
  moves := h'.moves.trans h.moves
  held := h'.held.trans h.held
  grants g hg := (h'.grants g hg).trans (h.grants g hg)
  reservations s hs := (h'.reservations s (h.claims.2 hs)).trans (h.reservations s hs)

theorem Alike.spares (ha : w.Alike w') (hr : w'.site.registry = w.site.registry) :
    w.Spares w' := by
  refine ⟨hr, ha.moves, ha.held, fun g _ => ?_, fun s _ => ?_⟩
  · rw [ha.locks]
  · rw [ha.reservations]

theorem spares_advance (w : World) (time : Nat) : w.Spares (w.advance time) :=
  Alike.spares ⟨rfl, rfl, rfl, rfl, rfl⟩ rfl

theorem spares_report (w : World) (n : Notice) : w.Spares (w.report n) :=
  Alike.spares ⟨rfl, rfl, rfl, rfl, rfl⟩ rfl

theorem Spares.only (h : w.Spares w') {holder : Holder} (ho : w.locks.Only .membership holder) :
    w'.locks.Only .membership holder :=
  fun g hg hl => ho g ((h.grants g (.inl hl)).1 hg) hl

theorem Spares.locked (h : w.Spares w') {l : Lock} (hl : w.Locked l) : w'.Locked l where
  granted := (h.grants _ (.inr (.inl rfl))).2 hl.granted
  sole g hg ho := hl.sole g ((h.grants g (.inr (.inl ho))).1 hg) ho
  only hm := h.only (hl.only hm)

theorem Spares.grasps (h : w.Spares w') (hst : w.Grasps st) : w'.Grasps st := by
  have hreserved : ∀ s ∈ w.held, w'.reservations.target? s = w.reservations.target? s :=
    fun s hs => h.reservations s (.inl hs)
  cases st with
  | free => exact ⟨h.held.trans hst.1, fun g hg ho =>
      hst.2 g ((h.grants g (.inr (.inl ho))).1 hg) ho⟩
  | holding l => exact ⟨h.held.trans hst.1, h.locked hst.2⟩
  | reserved servers target =>
    obtain ⟨rfl, hlocked, htarget⟩ := hst
    exact ⟨h.held, h.locked hlocked, fun s hs => (hreserved s hs).trans (htarget s hs)⟩
  | enrolled servers target =>
    obtain ⟨rfl, hlocked, htarget, hmember⟩ := hst
    refine ⟨h.held, h.locked hlocked, fun s hs => (hreserved s hs).trans (htarget s hs), ?_⟩
    rw [h.registry]
    exact hmember

theorem Spares.engages (h : w.Spares w') (hm : w.Running number m) (he : w.Engages number m) :
    w'.Engages number m where
  granted := (h.grants _ (.inl rfl)).2 he.granted
  only := h.only he.only
  reserved s hs := (h.reservations s (.inr ⟨number, m, hm, hs⟩)).trans (he.reserved s hs)
  members := by
    rw [h.registry]
    exact he.members

/-- What is outside leaves everyone what they have. -/
theorem Spares.at (h : w.Spares w') (hw : w.At st) : w'.At st where
  engaged number m hm := h.engages (h.running.1 hm) (hw.engaged number m (h.running.1 hm))
  grasped := h.grasps hw.grasped

/-! ### One at a time -/

/-- At most one drain runs. -/
theorem At.one (h : w.At st) {number' : Nat} (hm : w.Running number m)
    (hm' : w.Running number' m') : number = number' ∧ m = m' := by
  have hholder := (h.engaged number' m' hm').only _ (h.engaged number m hm).granted rfl
  obtain rfl : number = number' := Holder.move.inj hholder
  exact ⟨rfl, Option.some.inj (hm.1.symm.trans hm'.1)⟩

/-- While an operation has the membership lock no drain runs. -/
theorem At.idle_of_locked (h : w.At st) (hl : w.Locked .membership) : w.Idle := by
  intro number m hm
  cases (h.engaged number m hm).only _ hl.granted rfl

/-- While a drain runs nobody changes the registry. -/
theorem At.idle_of_writes (h : w.At st) {c : Call} (hf : st.Fits (.call c))
    (hc : c.writes = true) : w.Idle := by
  rcases hf.of_writes hc with rfl | ⟨servers, target, rfl⟩
  · exact h.idle_of_locked h.grasped.2
  · exact h.idle_of_locked h.grasped.2.1

/-- If no drain runs, a stage is all that there is to say. -/
theorem Idle.at (h : w.Idle) (hst : w.Grasps st) : w.At st :=
  ⟨fun number m hm => absurd hm (h number m), hst⟩

/-! ### Requests -/

/-- An operation that holds nothing takes a lock. -/
theorem At.grant (h : w.At .free) {l : Lock} (hfree : w.locks.isFree l false = true) :
    { w with locks := w.locks.grant ⟨l, false, .operation⟩ }.At (.holding l) where
  engaged number m hm := by
    have hmove := h.engaged number m hm
    refine ⟨List.mem_cons_of_mem _ hmove.granted, fun g hg hl => ?_, hmove.reserved, hmove.members⟩
    rcases List.mem_cons.1 hg with rfl | hg
    · exact absurd (hl : l = .membership).symm (Locks.isFree_iff.1 hfree _ hmove.granted)
    · exact hmove.only g hg hl
  grasped := by
    refine ⟨h.grasped.1, List.mem_cons_self, fun g hg ho => ?_, ?_⟩
    · rcases List.mem_cons.1 hg with rfl | hg
      · rfl
      · exact absurd ho (h.grasped.2 g hg)
    · rintro rfl g hg hl
      rcases List.mem_cons.1 hg with rfl | hg
      · rfl
      · exact absurd hl (Locks.isFree_iff.1 hfree g hg)

/-- Nobody but the running operation loses a lock that it gives back. -/
theorem Engages.withLocks (h : w.Engages number m) {locks : Locks}
    (hgranted : ⟨.membership, false, .move number⟩ ∈ locks.grants)
    (hsub : ∀ g ∈ locks.grants, g ∈ w.locks.grants) :
    { w with locks := locks }.Engages number m :=
  ⟨hgranted, fun g hg => h.only g (hsub g hg), h.reserved, h.members⟩

/-- An operation gives the lock back that it holds. -/
theorem At.release {l : Lock} (h : w.At (.holding l)) :
    { w with locks := w.locks.release l .operation }.At .free where
  engaged number m hm := by
    have hmove := h.engaged number m hm
    refine hmove.withLocks ?_ fun g hg => List.mem_of_mem_filter hg
    exact List.mem_filter.2 ⟨hmove.granted, by simp⟩
  grasped := by
    refine ⟨h.grasped.1, fun g hg ho => ?_⟩
    obtain ⟨hg, hne⟩ := List.mem_filter.1 hg
    simp [h.grasped.2.sole g hg ho, ho] at hne

/-- An operation reserves servers. -/
theorem At.reserve (h : w.At (.holding .membership)) {reservations : Reservations}
    (hr : w.reservations.reserve servers target = .ok reservations) :
    { w with reservations, held := servers }.At (.reserved servers target) := by
  obtain ⟨hgranted, hsole, honly⟩ := h.grasped.2
  refine Idle.at (h.idle_of_locked h.grasped.2) ⟨rfl, ⟨hgranted, hsole, honly⟩, fun s hs => ?_⟩
  exact Reservations.target?_reserve hr hs

/-- The registry moves the servers that have been reserved. -/
theorem At.moveServers (h : w.At (.reserved servers target)) (ha : w.Alike w')
    (hw : w.site.registry.Warranted (.moveServers servers source target))
    {moved : ServerSet} (hs : w.site.registry.Serves (.moveServers servers source target) moved
      w'.site.registry) : w'.At (.enrolled servers target) := by
  obtain ⟨hheld, ⟨hgranted, hsole, honly⟩, hreserved⟩ := h.grasped
  have hidle : w'.Idle := by
    intro number m hm
    rw [Running, ha.moves] at hm
    exact h.idle_of_locked ⟨hgranted, hsole, honly⟩ number m hm
  rw [← ha.locks] at hgranted hsole honly
  rw [← ha.reservations] at hreserved
  refine hidle.at ⟨ha.held.trans hheld, ⟨hgranted, hsole, honly⟩, hreserved, fun s hmem => ?_⟩
  exact (Registry.hasServer_moveServers hs.moveServers).2 (.inl ⟨rfl, hmem, hw.2.2.2.1 s hmem⟩)

/-- A change of the registry under the membership lock. -/
theorem At.writes (h : w.At (.holding .membership)) (ha : w.Alike w') :
    w'.At (.holding .membership) := by
  obtain ⟨hheld, hgranted, hsole, honly⟩ := h.grasped
  have hidle : w'.Idle := by
    intro number m hm
    rw [Running, ha.moves] at hm
    exact h.idle_of_locked ⟨hgranted, hsole, honly⟩ number m hm
  rw [← ha.locks] at hgranted hsole honly
  exact hidle.at ⟨ha.held.trans hheld, hgranted, hsole, honly⟩

/-- The drain takes over what the operation has. -/
theorem At.launch (h : w.At (.enrolled servers target)) :
    (w.launch servers source target).At .free := by
  obtain ⟨hheld, hlocked, hreserved, hmembers⟩ := h.grasped
  refine ⟨fun number m hm => ?_, rfl, fun g hg ho => ?_⟩
  · obtain ⟨rfl, rfl⟩ := running_launch (h.idle_of_locked hlocked) hm
    refine ⟨List.mem_map.2 ⟨_, hlocked.granted, by simp⟩, fun g hg hl => ?_, hreserved, hmembers⟩
    obtain ⟨x, hx, rfl⟩ := List.mem_map.1 hg
    by_cases hboth : x.lock = .membership ∧ x.holder = .operation
    · rw [if_pos hboth]
    · rw [if_neg hboth] at hl
      exact absurd ⟨hl, hlocked.only rfl x hx hl⟩ hboth
  · obtain ⟨x, hx, rfl⟩ := List.mem_map.1 hg
    by_cases hboth : x.lock = .membership ∧ x.holder = .operation
    · rw [if_pos hboth] at ho
      cases ho
    · rw [if_neg hboth] at ho
      exact hboth ⟨hlocked.sole x hx ho, ho⟩

/-- A request that changes neither the registry nor the coordinator. -/
theorem spares_of_reads {q : Request} (hq : q.reads = true) {reply : Reply q.Answer}
    (hm : w.meet q = (reply, w')) : w.Spares w' := by
  cases q with
  | call c =>
    have hc : c.writes = false := by simpa [Request.reads] using hq
    refine (alike_call hm).spares ?_
    cases reply with
    | answered answer => exact (serves_of_answered hm).eq_of_reads hc
    | _ => rw [site_of_not_answered hm fun _ => by simp]
  | note n =>
    obtain ⟨-, rfl⟩ := Prod.mk.inj hm
    exact spares_report w n
  | reservations =>
    obtain ⟨-, rfl⟩ := Prod.mk.inj hm
    exact .refl w
  | _ => cases hq

/-- A request that fits leads to the next stage. -/
theorem At.answered (h : w.At st) {q : Request} (hf : st.Fits q)
    (hw : ∀ c, q = .call c → w.site.registry.Warranted c) {answer : q.Answer}
    (hm : w.meet q = (.answered answer, w')) : w'.At (st.next q) := by
  by_cases hq : q.reads = true
  · rw [(Stage.fits_of_reads hq st).2]
    exact (spares_of_reads hq hm).at h
  · cases q with
    | call c =>
      have ha := alike_call hm
      have hs := serves_of_answered hm
      cases c with
      | moveServers servers source target =>
        obtain rfl : st = .reserved servers target := hf
        exact h.moveServers ha (hw _ rfl) hs
      | addGroup name =>
        obtain rfl : st = .holding .membership := hf rfl
        exact h.writes ha
      | removeGroup name =>
        obtain rfl : st = .holding .membership := hf rfl
        exact h.writes ha
      | moveTables tables goal =>
        obtain rfl : st = .holding .membership := hf rfl
        exact h.writes ha
      | _ => exact absurd rfl hq
    | lock l shared holder =>
      obtain ⟨rfl, rfl, rfl⟩ := hf
      rcases meet_lock hm with ⟨hr, -⟩ | ⟨-, hfree, rfl⟩
      · cases hr
      · exact h.grant hfree
    | unlock l =>
      obtain rfl : st = .holding l := hf
      obtain ⟨-, rfl⟩ := Prod.mk.inj hm
      exact h.release
    | reserve servers target =>
      obtain rfl : st = .holding .membership := hf
      rcases meet_reserve hm with ⟨cause, hr, -⟩ | ⟨-, reservations, hr, rfl⟩
      · cases hr
      · exact h.reserve hr
    | launch servers source target =>
      obtain rfl : st = .enrolled servers target := hf
      obtain ⟨-, rfl⟩ := Prod.mk.inj hm
      exact h.launch
    | join number =>
      obtain rfl : st = .free := hf
      obtain ⟨rfl, -⟩ := meet_join hm
      exact h
    | note => exact absurd rfl hq
    | reservations => exact absurd rfl hq

/-- A request that is not answered leaves the coordinator's own part of the world alone. -/
theorem alike_of_not_answered {q : Request} {reply : Reply q.Answer}
    (hm : w.meet q = (reply, w')) (hr : ∀ answer, reply ≠ .answered answer) : w.Alike w' := by
  cases q with
  | call c => exact alike_call hm
  | lock l shared holder =>
    simp only [meet] at hm
    split at hm
    · obtain ⟨rfl, -⟩ := Prod.mk.inj hm
      exact absurd rfl (hr ())
    · obtain ⟨-, rfl⟩ := Prod.mk.inj hm
      exact .refl w
  | reserve servers target =>
    rcases meet_reserve hm with ⟨cause, -, rfl⟩ | ⟨rfl, -⟩
    · exact .refl _
    · exact absurd rfl (hr ())
  | join number =>
    obtain ⟨rfl, -⟩ := meet_join hm
    exact .refl _
  | _ =>
    obtain ⟨rfl, -⟩ := Prod.mk.inj hm
    exact absurd rfl (hr _)

theorem spares_of_not_answered {q : Request} {reply : Reply q.Answer}
    (hm : w.meet q = (reply, w')) (hr : ∀ answer, reply ≠ .answered answer) : w.Spares w' :=
  (alike_of_not_answered hm hr).spares (by rw [site_of_not_answered hm hr])

/-! ### Ends -/

/-- An operation that has nothing leaves everything as it is when it ends. -/
theorem letGo_eq (h : w.Grasps .free) : w.letGo = w := by
  obtain ⟨hheld, hnone⟩ := h
  have hreservations : w.reservations.release w.held = w.reservations := by
    rw [hheld]
    rfl
  unfold letGo
  rw [Locks.releaseAll_eq hnone, hreservations, ← hheld]

/-- An operation that ends or is given up gives back what it holds. -/
theorem At.letGo (h : w.At st) : w.letGo.At .free := by
  have hnone : ∀ g ∈ w.letGo.locks.grants, g.holder ≠ .operation := by
    intro g hg
    simpa using (List.mem_filter.1 hg).2
  refine ⟨fun number m hm => ?_, rfl, hnone⟩
  have hrun : w.Running number m := hm
  have hmove := h.engaged number m hrun
  refine ⟨List.mem_filter.2 ⟨hmove.granted, by simp⟩, hmove.only.releaseAll _, fun s hs => ?_,
    hmove.members⟩
  -- while a drain runs the operation has reserved nothing
  have hheld : w.held = ∅ := by
    cases st with
    | free => exact h.grasped.1
    | holding l => exact h.grasped.1
    | reserved servers target => exact absurd hrun (h.idle_of_locked h.grasped.2.1 number m)
    | enrolled servers target => exact absurd hrun (h.idle_of_locked h.grasped.2.1 number m)
  show (w.reservations.release w.held).target? s = some m.target
  rw [Reservations.target?_release, hheld, if_neg Std.ExtTreeSet.not_mem_empty]
  exact hmove.reserved s hs

/-- The record of a drain may change in what has been done. -/
theorem At.setMove (h : w.At .free) (hm : w.Running number m) (hservers : m'.servers = m.servers)
    (htarget : m'.target = m.target) : (w.setMove number m').At .free := by
  refine ⟨fun k x hx => ?_, h.grasped⟩
  rcases running_setMove hx with ⟨rfl, rfl⟩ | ⟨-, hx⟩
  · have hmove := h.engaged k m hm
    refine ⟨hmove.granted, hmove.only, ?_, ?_⟩
    · rw [hservers, htarget]
      exact hmove.reserved
    · rw [hservers, htarget]
      exact hmove.members
  · have hmove := h.engaged k x hx
    exact ⟨hmove.granted, hmove.only, hmove.reserved, hmove.members⟩

/-- A drain that ends gives back what it has, and no drain runs any more. -/
theorem At.idle_endMove (h : w.At st) (hm : w.Running number m) (ending : Ending) :
    (w.endMove number m' ending).Idle := by
  intro k x hx
  rcases running_setMove hx with ⟨rfl, rfl⟩ | ⟨hne, hx⟩
  · cases hx.2
  · exact hne (h.one hx hm).1

theorem At.endMove (h : w.At .free) (hm : w.Running number m) (ending : Ending) :
    (w.endMove number m' ending).At .free := by
  refine Idle.at (h.idle_endMove hm ending) ⟨h.grasped.1, fun g hg => ?_⟩
  exact h.grasped.2 g (List.mem_of_mem_filter hg)

end World

end ServerGroups
