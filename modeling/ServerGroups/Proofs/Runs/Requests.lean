/-
ServerGroups/Proofs/Runs/Requests.lean

What single requests do in a run.

Most requests only look, report or ask for a region to be unassigned: after
them the registry and the coordinator's own part of the world are the same,
and the cluster is what the requests to unassign have made of it.  `w.Asks rs w'`
says this for the requests to unassign the regions `rs`, in this order, and
`w.Same w'` for none.  The relation is composed along a program, so the lemma
about a program tells which regions it asks for.

Design.  Terms `T` allow a call in a world `w` if the run may stop there, or if
they are strict and no call meets a fault in `w`; they bear requests to unassign
if they allow a call after any first few of them.  So one lemma about a program
serves runs with and without failures, and tells how far one that fails has
come.
-/
import ServerGroups.Proofs.Confinement.Calm
import ServerGroups.Proofs.Runs.Basic
import ServerGroups.Proofs.Runs.Cluster
import ServerGroups.Proofs.Runs.Holdings
import ServerGroups.Proofs.Warranted

namespace ServerGroups

open Program

namespace World

variable {w w' w'' : World} {rs rs' : List Region} {c : Call} {r : Region}

/-! ### Worlds in which nothing fails -/

/-- No hook fails, and no fault is waiting for a call. -/
structure Obliging (w : World) : Prop where
  willing : w.site.observer.Willing
  faults : w.faults = []

/-- Requests to unassign a region do not fail, either. -/
structure Working (w : World) : Prop extends w.Obliging where
  failing : w.site.cluster.failing = false

/-- No service fails, and no fault is waiting for a call. -/
structure Healthy (w : World) : Prop extends w.site.Reliable where
  faults : w.faults = []

theorem Healthy.working (h : w.Healthy) : w.Working := ⟨⟨h.willing, h.faults⟩, h.failing⟩

theorem Healthy.obliging (h : w.Healthy) : w.Obliging := h.working.toObliging

/-- A lock has been granted to the operation that runs. -/
def granted (w : World) (l : Lock) : World :=
  { w with locks := w.locks.grant ⟨l, false, .operation⟩ }

/-- The operation that runs has given a lock back. -/
def released (w : World) (l : Lock) : World :=
  { w with locks := w.locks.release l .operation }

theorem Obliging.granted (h : w.Obliging) (l : Lock) : (w.granted l).Obliging :=
  ⟨h.willing, h.faults⟩

theorem Working.granted (h : w.Working) (l : Lock) : (w.granted l).Working :=
  ⟨h.toObliging.granted l, h.failing⟩

theorem Healthy.granted (h : w.Healthy) (l : Lock) : (w.granted l).Healthy :=
  ⟨h.toReliable, h.faults⟩

theorem Working.released (h : w.Working) (l : Lock) : (w.released l).Working :=
  ⟨⟨h.willing, h.faults⟩, h.failing⟩

theorem Healthy.released (h : w.Healthy) (l : Lock) : (w.released l).Healthy :=
  ⟨h.toReliable, h.faults⟩

/-! ### What is kept of calls -/

theorem logs_reports (notices : List Notice) (w : World) :
    (notices.foldl report w).now = w.now ∧
      (notices.foldl report w).history.unassigned = w.history.unassigned ∧
      (notices.foldl report w).history.placed = w.history.placed := by
  induction notices generalizing w with
  | nil => exact ⟨rfl, rfl, rfl⟩
  | cons n notices ih => exact ih (w.report n)

theorem logs_serve (c : Call) (w : World) : (w.serve c).2.now = w.now ∧
    (w.serve c).2.history.unassigned =
      (if (w.site.serve c).answer.isOk then w.remember c else w).history.unassigned ∧
    (w.serve c).2.history.placed =
      (if (w.site.serve c).answer.isOk then w.remember c else w).history.placed := by
  obtain ⟨hn, hu, hp⟩ := logs_reports (w.site.serve c).notices
    { w with site := (w.site.serve c).site }
  have hr : ∀ v : World, (v.remember c).now = v.now := fun v => by cases c <;> rfl
  unfold serve
  dsimp only
  split
  · refine ⟨(hr _).trans hn, ?_, ?_⟩ <;> cases c <;> simp only [remember, hn, hu, hp]
  · exact ⟨hn, hu, hp⟩

/-- A call takes no time, and only an answered one is remembered. -/
theorem logs_call {reply : Reply c.Answer} (h : w.meet (.call c) = (reply, w')) :
    w'.now = w.now ∧ ((∃ answer, reply = .answered answer) ∧
        w'.history.unassigned = (w.remember c).history.unassigned ∧
        w'.history.placed = (w.remember c).history.placed ∨
      (∀ answer, reply ≠ .answered answer) ∧ w'.history.unassigned = w.history.unassigned ∧
        w'.history.placed = w.history.placed) := by
  obtain rfl : (w.meet (.call c)).1 = reply := congrArg Prod.fst h
  obtain rfl : (w.meet (.call c)).2 = w' := congrArg Prod.snd h
  have hmake : (w.make c).2.now = w.now ∧ ((∃ answer, (w.make c).1 = .answered answer) ∧
        (w.make c).2.history.unassigned = (w.remember c).history.unassigned ∧
        (w.make c).2.history.placed = (w.remember c).history.placed ∨
      (∀ answer, (w.make c).1 ≠ .answered answer) ∧
        (w.make c).2.history.unassigned = w.history.unassigned ∧
        (w.make c).2.history.placed = w.history.placed) := by
    unfold make
    dsimp only
    split
    · exact ⟨rfl, .inr ⟨fun _ => by simp, rfl, rfl⟩⟩
    · exact ⟨rfl, .inr ⟨fun _ => by simp, rfl, rfl⟩⟩
    · obtain ⟨hn, hu, hp⟩ := logs_serve c { w with
        history := { w.history with calls := w.history.calls.push c }
        faults := (Fault.meet c.name w.faults).2 }
      split
      · next answer w₁ hserve =>
        rw [hserve] at hn hu hp
        have hok : (w.site.serve c).answer = .ok answer := congrArg Prod.fst hserve
        rw [show (w.site.serve c).answer.isOk = true by rw [hok]; rfl, if_pos rfl] at hu hp
        refine ⟨hn, .inl ⟨⟨answer, rfl⟩, hu.trans ?_, hp.trans ?_⟩⟩ <;> cases c <;> rfl
      · next cause w₁ hserve =>
        rw [hserve] at hn hu hp
        have herror : (w.site.serve c).answer = .error cause := congrArg Prod.fst hserve
        rw [show (w.site.serve c).answer.isOk = false by rw [herror]; rfl] at hu hp
        exact ⟨hn, .inr ⟨fun _ => by simp, hu, hp⟩⟩
  cases c with
  | hook hook =>
    simp only [meet, consult]
    split
    · exact hmake
    · exact ⟨rfl, .inl ⟨⟨(), rfl⟩, rfl, rfl⟩⟩
  | _ => exact hmake

/-- An answered call is remembered. -/
theorem logs_answered {answer : c.Answer} (h : w.meet (.call c) = (.answered answer, w')) :
    w'.history.unassigned = (w.remember c).history.unassigned ∧
      w'.history.placed = (w.remember c).history.placed := by
  rcases (logs_call h).2 with ⟨-, hlogs⟩ | ⟨hne, -⟩
  · exact hlogs
  · exact absurd rfl (hne answer)

/-! ### Asking for regions to be unassigned -/

/-- Nothing has happened to the registry, and nothing fails now that did not fail before. -/
structure Stays (w w' : World) : Prop extends w.Alike w' where
  registry : w'.site.registry = w.site.registry
  failing : w'.site.cluster.failing = w.site.cluster.failing
  script : w.site.script = [] → w'.site.script = []
  willing : w.site.observer.Willing → w'.site.observer.Willing
  faults : w.faults = [] → w'.faults = []
  now : w'.now = w.now

namespace Stays

theorem refl (w : World) : w.Stays w := ⟨.refl w, rfl, rfl, id, id, id, rfl⟩

theorem trans (h : w.Stays w') (h' : w'.Stays w'') : w.Stays w'' where
  config := h'.config.trans h.config
  reservations := h'.reservations.trans h.reservations
  locks := h'.locks.trans h.locks
  held := h'.held.trans h.held
  moves := h'.moves.trans h.moves
  registry := h'.registry.trans h.registry
  failing := h'.failing.trans h.failing
  script hw := h'.script (h.script hw)
  willing hw := h'.willing (h.willing hw)
  faults hw := h'.faults (h.faults hw)
  now := h'.now.trans h.now

theorem obliging (h : w.Stays w') (hw : w.Obliging) : w'.Obliging :=
  ⟨h.willing hw.willing, h.faults hw.faults⟩

theorem working (h : w.Stays w') (hw : w.Working) : w'.Working :=
  ⟨h.obliging hw.toObliging, h.failing.trans hw.failing⟩

theorem healthy (h : w.Stays w') (hw : w.Healthy) : w'.Healthy where
  failing := h.failing.trans hw.failing
  willing := h.willing hw.willing
  script := h.script hw.script
  faults := h.faults hw.faults

end Stays

/-- A call after which the registry is the same and nothing fails that did not fail before. -/
theorem stays_of_call {reply : Reply c.Answer} (h : w.meet (.call c) = (reply, w'))
    (hregistry : w'.site.registry = w.site.registry)
    (hfailing : w'.site.cluster.failing = w.site.cluster.failing)
    (hscript : w.site.script = [] → w'.site.script = [])
    (hwilling : w.site.observer.Willing → w'.site.observer.Willing) : w.Stays w' :=
  ⟨alike_call h, hregistry, hfailing, hscript, hwilling, fun hw => (reply_of_no_faults hw h).1,
    (logs_call h).1⟩

/-- The services have ceased to fail, and nothing else is different. -/
structure Heals (w w' : World) : Prop extends w.Alike w' where
  registry : w'.site.registry = w.site.registry
  cluster : w'.site.cluster = { w.site.cluster with failing := false }
  healthy : w'.Healthy

theorem Heals.on (h : w.Heals w') {r : Region} {s : ServerAddress} :
    w'.site.cluster.On r s ↔ w.site.cluster.On r s := by
  rw [h.cluster]
  rfl

/-- The balancer has been asked about some snapshots, in the order given, and has used up as many of
the answers laid down for it. -/
structure Poses (asked : List Snapshot) (w w' : World) : Prop where
  snapshots : w'.site.snapshots = w.site.snapshots ++ asked.toArray
  script : w'.site.script = w.site.script.drop asked.length

theorem Poses.refl (w : World) : w.Poses [] w := ⟨by simp, rfl⟩

theorem Poses.trans {asked asked' : List Snapshot} (h : w.Poses asked w')
    (h' : w'.Poses asked' w'') : w.Poses (asked ++ asked') w'' where
  snapshots := by rw [h'.snapshots, h.snapshots]; simp
  script := by rw [h'.script, h.script, List.drop_drop, List.length_append]

theorem poses_of_site (h : w'.site.snapshots = w.site.snapshots)
    (h' : w'.site.script = w.site.script) : w.Poses [] w' :=
  ⟨by simpa using h, h'⟩

/-- Nothing has happened but that some regions were asked to be unassigned, in the order given. -/
structure Asks (rs : List Region) (w w' : World) : Prop extends w.Stays w' where
  poses : w.Poses [] w'
  cluster : w'.site.cluster = w.site.cluster.requests rs
  unassigned : w'.history.unassigned = w.history.unassigned ++ (rs.map fun r => (w.now, r)).toArray
  placed : w'.history.placed = w.history.placed

/-- Nothing has happened to the registry and the cluster. -/
abbrev Same (w w' : World) : Prop := w.Asks [] w'

namespace Asks

theorem refl (w : World) : w.Same w := ⟨.refl w, .refl w, rfl, by simp, rfl⟩

theorem trans (h : w.Asks rs w') (h' : w'.Asks rs' w'') : w.Asks (rs ++ rs') w'' where
  toStays := h.toStays.trans h'.toStays
  poses := h.poses.trans h'.poses
  cluster := by rw [h'.cluster, h.cluster, Cluster.requests_append]
  unassigned := by rw [h'.unassigned, h.unassigned, h.now]; simp
  placed := h'.placed.trans h.placed

theorem same_trans (h : w.Same w') (h' : w'.Asks rs w'') : w.Asks rs w'' := h.trans h'

theorem trans_same (h : w.Asks rs w') (h' : w'.Same w'') : w.Asks rs w'' := by
  simpa using h.trans h'

theorem obliging (h : w.Asks rs w') (hw : w.Obliging) : w'.Obliging := h.toStays.obliging hw

theorem working (h : w.Asks rs w') (hw : w.Working) : w'.Working := h.toStays.working hw

theorem healthy (h : w.Asks rs w') (hw : w.Healthy) : w'.Healthy := h.toStays.healthy hw

theorem running (h : w.Asks rs w') {number : Nat} {m : Move} :
    w'.Running number m ↔ w.Running number m := by
  simp only [Running, h.moves]

theorem on (h : w.Asks rs w') {r : Region} {s : ServerAddress} (hr : w'.site.cluster.On r s) :
    w.site.cluster.On r s := by
  rw [h.cluster] at hr
  exact Cluster.on_requests hr

end Asks

/-- A call that is not answered changes nothing. -/
theorem same_of_not_answered {reply : Reply c.Answer} (h : w.meet (.call c) = (reply, w'))
    (hr : ∀ answer, reply ≠ .answered answer) : w.Same w' := by
  have hsite := site_of_not_answered h hr
  rcases (logs_call h).2 with ⟨⟨answer, ha⟩, -⟩ | ⟨-, hunassigned, hplaced⟩
  · exact absurd ha (hr answer)
  · refine ⟨stays_of_call h ?_ ?_ ?_ ?_, poses_of_site ?_ ?_, ?_, ?_, hplaced⟩
    all_goals simp [hsite, hunassigned]

/-- A hook changes nothing but what its observer has heard, and a call that looks nothing at
all. -/
theorem same_of_answered {answer : c.Answer} (h : w.meet (.call c) = (.answered answer, w'))
    (hc : (w.site.serve c).site = w.site ∨ ∃ hook, c = .hook hook)
    (hu : ∀ v : World, v.remember c = v) : w.Same w' := by
  obtain ⟨hanswer, hsite⟩ := answered_call h
  obtain ⟨hunassigned, hplaced⟩ := logs_answered h
  rw [hu] at hunassigned hplaced
  rcases hc with hc | ⟨hook, rfl⟩
  · rw [hc] at hsite
    refine ⟨stays_of_call h ?_ ?_ ?_ ?_, poses_of_site ?_ ?_, ?_, ?_, hplaced⟩
    all_goals simp [hsite, hunassigned]
  · simp only [Site.serve] at hsite
    rcases ho : w.site.observer.hear hook with cause | o
    · rw [ho] at hsite
      refine ⟨stays_of_call h ?_ ?_ ?_ ?_, poses_of_site ?_ ?_, ?_, ?_, hplaced⟩
      all_goals simp [hsite, hunassigned]
    · rw [ho] at hsite
      have hwilling : w.site.observer.Willing → w'.site.observer.Willing := by
        intro hw
        obtain ⟨o', ho', hwilling⟩ := hw.hear hook
        rw [ho] at ho'
        rw [hsite, Except.ok.inj ho']
        exact hwilling
      refine ⟨stays_of_call h ?_ ?_ ?_ hwilling, poses_of_site ?_ ?_, ?_, ?_, hplaced⟩
      all_goals simp [hsite, hunassigned]

/-- An answered request to unassign a region asks for it. -/
theorem asks_of_answered {answer : Unit}
    (h : w.meet (.call (.unassign r)) = (.answered answer, w')) : w.Asks [r] w' := by
  obtain ⟨hanswer, hsite⟩ := answered_call h
  obtain ⟨hunassigned, hplaced⟩ := logs_answered h
  simp only [Site.serve] at hsite hanswer
  split at hsite
  · next ignored cluster hun =>
    have hrequest := Cluster.unassign_eq_ok_request hun
    have hfailing := (w.site.cluster.request_same r).2.2.2
    refine ⟨stays_of_call h ?_ ?_ ?_ ?_, poses_of_site ?_ ?_, ?_, ?_, ?_⟩
    all_goals simp [hsite, hunassigned, hplaced, remember, hrequest, Cluster.requests, hfailing]
  · next e hun =>
    rw [hun] at hanswer
    cases hanswer

theorem asks_report (w : World) (n : Notice) : w.Same (w.report n) :=
  ⟨⟨⟨rfl, rfl, rfl, rfl, rfl⟩, rfl, rfl, id, id, id, rfl⟩, poses_of_site rfl rfl, rfl,
    by simp [report], rfl⟩

/-! ### Changes of the registry -/

/-- Nothing has happened but a change of the registry. -/
structure Writes (w w' : World) : Prop extends w.Alike w' where
  site : w'.site = { w.site with registry := w'.site.registry }
  faults : w.faults = [] → w'.faults = []
  now : w'.now = w.now
  unassigned : w'.history.unassigned = w.history.unassigned

theorem writes_of_answered {answer : c.Answer} (hc : c.writes = true)
    (h : w.meet (.call c) = (.answered answer, w')) : w.Writes w' := by
  have hsite := (answered_call h).2
  refine ⟨alike_call h, ?_, fun hw => (reply_of_no_faults hw h).1, (logs_call h).1, ?_⟩
  · rw [hsite]
    exact Registry.site_serve_of_writes hc
  · rw [(logs_answered h).1]
    cases c <;> first | rfl | cases hc

theorem Writes.working (h : w.Writes w') (hw : w.Working) : w'.Working where
  willing := by
    rw [h.site]
    exact hw.willing
  faults := h.faults hw.faults
  failing := by
    rw [h.site]
    exact hw.failing

theorem Writes.healthy (h : w.Writes w') (hw : w.Healthy) : w'.Healthy where
  failing := (h.working hw.working).failing
  willing := (h.working hw.working).willing
  script := by
    rw [h.site]
    exact hw.script
  faults := h.faults hw.faults

theorem Writes.cluster (h : w.Writes w') : w'.site.cluster = w.site.cluster := by rw [h.site]

end World

/-! ### Single requests -/

namespace Terms

open World

variable {T : Terms} {w w' : World} {rs : List Region} {α : Type}

/-- The run may stop at a call, or no call meets a fault. -/
structure Allows (T : Terms) (w : World) : Prop where
  obliging : T.strict → w.Obliging
  stops : ¬ T.strict → ∀ cause w', w.Same w' → T.stops cause w'

/-- Calls are allowed between requests to unassign regions, after the first few of them; where the
run may not stop these do not fail. -/
structure Bears (T : Terms) (w : World) (rs : List Region) : Prop where
  failing : T.strict → w.site.cluster.failing = false
  after : ∀ rs' w', rs' <+: rs → w.Asks rs' w' → T.Allows w'

theorem Allows.same (hT : T.Allows w) (h : w.Same w') : T.Allows w' where
  obliging hs := h.obliging (hT.obliging hs)
  stops hs cause _ h' := hT.stops hs cause _ (h.trans h')

theorem Bears.same (hT : T.Bears w rs) (h : w.Same w') : T.Bears w' rs where
  failing hs := h.failing.trans (hT.failing hs)
  after _ _ hpart h' := hT.after _ _ hpart (h.same_trans h')

theorem Bears.first {rs' : List Region} (hT : T.Bears w (rs ++ rs')) : T.Bears w rs where
  failing := hT.failing
  after _ _ hpart := hT.after _ _ (hpart.trans (List.prefix_append rs rs'))

theorem Bears.rest {rs' : List Region} (hT : T.Bears w (rs ++ rs')) (h : w.Asks rs w') :
    T.Bears w' rs' where
  failing hs := h.failing.trans (hT.failing hs)
  after _ _ hpart h' := hT.after _ _ ((List.prefix_append_right_inj rs).2 hpart) (h.trans h')

theorem Bears.allows (hT : T.Bears w rs) : T.Allows w := hT.after [] w List.nil_prefix (.refl w)

theorem allows_of_strict (hs : T.strict) (hw : w.Obliging) : T.Allows w :=
  ⟨fun _ => hw, fun h => absurd hs h⟩

/-- A call is answered, or the run stops. -/
theorem ensures_call (hT : T.Allows w) {c : Call} {post : c.Answer → World → Prop}
    (hok : T.strict → ∃ answer, (w.site.serve c).answer = .ok answer)
    (h : ∀ answer w', w.meet (.call c) = (.answered answer, w') → post answer w') :
    (call c).Ensures T.rule post w := by
  rcases hm : w.meet (.call c) with ⟨reply, w'⟩
  refine ⟨fun hs => ?_, ?_⟩
  · obtain ⟨answer, ha⟩ := hok hs
    exact ⟨answer, (reply_of_no_faults (hT.obliging hs).faults rfl).2 answer ha⟩
  · rw [hm]
    -- a strict run is answered, and another one may stop
    have hstop : (∀ answer, reply ≠ .answered answer) → ∀ cause, T.stops cause w' := by
      intro hne cause
      refine hT.stops (fun hs => ?_) cause w' (same_of_not_answered hm hne)
      obtain ⟨answer, ha⟩ := hok hs
      exact hne answer ((reply_of_no_faults (hT.obliging hs).faults hm).2 answer ha)
    cases reply with
    | answered answer => exact h answer w' hm
    | failed cause => exact hstop (by simp) _
    | crashed => exact hstop (by simp) _
    | waiting => cases (pauses_of_waiting hm).1

theorem ensures_look (hT : T.Allows w) {c : Call} {post : c.Answer → World → Prop} (x : c.Answer)
    (hc : w.site.serve c = w.site.look x) (hu : ∀ v : World, v.remember c = v)
    (h : ∀ w', w.Same w' → post x w') : (call c).Ensures T.rule post w := by
  refine ensures_call hT (fun _ => ⟨x, by rw [hc]; rfl⟩) fun answer w' hm => ?_
  have hanswer := (answered_call hm).1
  rw [hc] at hanswer
  rw [← Except.ok.inj hanswer]
  exact h w' (same_of_answered hm (.inl (by rw [hc]; rfl)) hu)

theorem ensures_hook (hT : T.Allows w) {k : Hook} {post : Unit → World → Prop}
    (h : ∀ w', w.Same w' → post () w') : (hook k).Ensures T.rule post w := by
  refine ensures_call hT (fun hs => ?_) fun answer w' hm =>
    h w' (same_of_answered hm (.inr ⟨k, rfl⟩) fun _ => rfl)
  obtain ⟨o, ho, -⟩ := (hT.obliging hs).willing.hear k
  exact ⟨(), by simp only [Site.serve, ho]⟩

theorem ensures_unassign {r : Region} (hT : T.Bears w [r]) {post : Unit → World → Prop}
    (h : ∀ w', w.Asks [r] w' → post () w') : (call (.unassign r)).Ensures T.rule post w := by
  refine ensures_call hT.allows (fun hs => ?_) fun answer w' hm => h w' (asks_of_answered hm)
  obtain ⟨ignored, hun⟩ := Cluster.unassign_of_not_failing (hT.failing hs) r
  exact ⟨(), by simp only [Site.serve, hun]⟩

theorem ensures_note {n : Notice} {post : Unit → World → Prop}
    (h : ∀ w', w.Same w' → post () w') : (note n).Ensures T.rule post w :=
  ⟨fun _ => ⟨(), rfl⟩, h _ (asks_report w n)⟩

/-- Requests to unassign regions, one after the other. -/
theorem ensures_unassigns {post : Unit → World → Prop} : ∀ {rs : List Region} {w : World},
    T.Bears w rs → (∀ w', w.Asks rs w' → post () w') →
      (rs.forM fun r => call (.unassign r)).Ensures T.rule post w
  | [], w, _, h => h w (.refl w)
  | r :: rs, w, hT, h => by
    change (call (.unassign r) >>= fun _ => rs.forM fun r => call (.unassign r)).Ensures
      T.rule post w
    rw [ensures_bind]
    rw [← List.singleton_append] at hT
    refine ensures_unassign hT.first fun w₁ h₁ => ?_
    exact ensures_unassigns (hT.rest h₁) fun w₂ h₂ => h w₂ (h₁.trans h₂)

/-! ### Locks and reservations -/

/-- Where a request is met that is made in a world: there, or where a wait for it ends. -/
def Found (T : Terms) (q : Request) (w v : World) : Prop := v = w ∨ (¬ T.strict ∧ T.waits q v)

theorem Found.eq {q : Request} {v : World} (h : T.Found q w v) (hs : T.strict) : v = w :=
  h.resolve_right fun hw => hw.1 hs

/-- A lock is taken when it is free, at once or after a wait. -/
theorem ensures_lock {l : Lock} {post : Unit → World → Prop}
    (hfree : T.strict → w.locks.isFree l false = true)
    (hwait : ¬ T.strict → w.locks.isFree l false = false → T.waits (.lock l false .operation) w)
    (h : ∀ v, T.Found (.lock l false .operation) w v → v.locks.isFree l false = true →
      post () (v.granted l)) :
    (ask (.lock l false .operation) done).Ensures T.rule post w := by
  have hgrant : ∀ v : World, v.locks.isFree l false = true →
      v.meet (.lock l false .operation) = (.answered (), v.granted l) :=
    fun v hv => by simp only [meet, hv, if_true, granted]
  by_cases hw : w.locks.isFree l false = true
  · refine ⟨fun _ => ⟨(), by rw [hgrant w hw]⟩, ?_⟩
    rw [hgrant w hw]
    exact h w (.inl rfl) hw
  · have hs : ¬ T.strict := fun hs => hw (hfree hs)
    have hm : w.meet (.lock l false .operation) = (.waiting, w) := by
      simp only [meet, hw, Bool.false_eq_true, if_false]
    refine ⟨fun hs' => absurd hs' hs, ?_⟩
    rw [hm]
    refine ⟨hwait hs (Bool.eq_false_iff.2 hw), fun v hv a v' hv' => ?_⟩
    by_cases hfree' : v.locks.isFree l false = true
    · rw [hgrant v hfree'] at hv'
      obtain ⟨-, rfl⟩ := Prod.mk.inj hv'
      exact h v (.inr ⟨hs, hv⟩) hfree'
    · simp only [meet, hfree', Bool.false_eq_true, if_false] at hv'
      cases (Prod.mk.inj hv').1

/-- A lock is held while a program runs, and given back if it returns. -/
theorem ensures_holding {l : Lock} {body : Program α} {post : α → World → Prop}
    (hfree : T.strict → w.locks.isFree l false = true)
    (hwait : ¬ T.strict → w.locks.isFree l false = false → T.waits (.lock l false .operation) w)
    (h : ∀ v, T.Found (.lock l false .operation) w v → v.locks.isFree l false = true →
      body.Ensures T.rule (fun a x => post a (x.released l)) (v.granted l)) :
    (holding l body).Ensures T.rule post w := by
  rw [Program.ensures_holding]
  refine ensures_lock hfree hwait fun v hv hisFree => ?_
  exact (h v hv hisFree).mono rule_monotone fun a x hx => ⟨fun _ => ⟨(), rfl⟩, hx⟩

theorem ensures_reservations {post : Reservations → World → Prop} (h : post w.reservations w) :
    (ask .reservations done).Ensures T.rule post w :=
  ⟨fun _ => ⟨_, rfl⟩, h⟩

/-- The end of a drain is told when there is one, at once or after a wait. -/
theorem ensures_join {number : Nat} {post : Ending → World → Prop}
    (hwait : ∀ m, w.Running number m → ¬ T.strict ∧ T.waits (.join number) w)
    (h : ∀ v ending, T.Found (.join number) w v → (∀ m, v.moves[number]? = some m →
      m.ending = some ending) → post ending v) :
    (ask (.join number) done).Ensures T.rule post w := by
  have hanswer : ∀ v, T.Found (.join number) w v → ∀ ending v',
      v.meet (.join number) = (.answered ending, v') → post ending v' := by
    intro v hv ending v' hv'
    rcases hm : v.moves[number]? with - | m
    · simp only [meet, hm] at hv'
      obtain ⟨-, rfl⟩ := Prod.mk.inj hv'
      exact h v ending hv fun m hm' => by simp [hm] at hm'
    · simp only [meet, hm] at hv'
      split at hv'
      · next ending' he =>
        obtain ⟨hending, rfl⟩ := Prod.mk.inj hv'
        obtain rfl := Reply.answered.inj hending
        refine h v ending' hv fun m' hm' => ?_
        rw [← Option.some.inj (hm.symm.trans hm'), he]
      · cases (Prod.mk.inj hv').1
  rcases hmeet : w.meet (.join number) with ⟨reply, w'⟩
  rcases reply_of_pauses (q := .join number) rfl hmeet with rfl | ⟨ending, rfl⟩
  · obtain rfl := (pauses_of_waiting hmeet).2
    -- the drain is still running
    obtain ⟨m, hm⟩ : ∃ m, w'.Running number m := by
      simp only [meet] at hmeet
      split at hmeet
      · next m hm =>
        split at hmeet
        · cases (Prod.mk.inj hmeet).1
        · next he => exact ⟨m, hm, he⟩
      · cases (Prod.mk.inj hmeet).1
    obtain ⟨hs, hwaits⟩ := hwait m hm
    refine ⟨fun hs' => absurd hs' hs, ?_⟩
    rw [hmeet]
    exact ⟨hwaits, fun v hv => hanswer v (.inr ⟨hs, hv⟩)⟩
  · refine ⟨fun _ => ⟨ending, by rw [hmeet]⟩, ?_⟩
    rw [hmeet]
    exact hanswer w (.inl rfl) ending w' hmeet

theorem ensures_launch {servers : ServerSet} {source target : String} {post : Nat → World → Prop}
    (h : post w.moves.size (w.launch servers source target)) :
    (ask (.launch servers source target) done).Ensures T.rule post w :=
  ⟨fun _ => ⟨_, rfl⟩, h⟩

/-- Servers are reserved, or the move is refused. -/
theorem ensures_reserve {servers : ServerSet} {target : String} {post : Unit → World → Prop}
    (hstop : ∀ cause, w.reservations.conflict? servers = some cause →
      T.stops (some (.refused cause)) w)
    (hfree : T.strict → w.reservations.conflict? servers = none)
    (h : ∀ reservations, w.reservations.reserve servers target = .ok reservations →
      post () { w with reservations, held := servers }) :
    (ask (.reserve servers target) done).Ensures T.rule post w := by
  rw [ensures_ask]
  show (_ → ∃ a, (w.meet _).1 = _) ∧ T.After _ (w.meet _).1 (w.meet _).2
  rcases hreserve : w.reservations.reserve servers target with cause | reservations
  · have hconflict := Reservations.reserve_eq_error.1 hreserve
    simp only [meet, hreserve]
    refine ⟨fun hs => ?_, hstop cause hconflict⟩
    rw [hfree hs] at hconflict
    cases hconflict
  · rw [show w.meet (.reserve servers target) =
      (.answered (), { w with reservations, held := servers }) by simp only [meet, hreserve]]
    exact ⟨fun _ => ⟨(), rfl⟩, h _ hreserve⟩

/-! ### Runs that stop only if a service fails -/

/-- The run is answered throughout if nothing fails, and may else stop in some worlds. -/
def unlessFailing (w : World) (stop : World → Prop) : Terms where
  strict := w.Healthy
  waits _ _ := False
  stops _ x := ¬ w.Healthy ∧ stop x

theorem allows_unlessFailing (w : World) : (unlessFailing w w.Same).Allows w :=
  ⟨Healthy.obliging, fun hw _ _ h => ⟨hw, h⟩⟩

theorem bears_unlessFailing (w : World) (rs : List Region) :
    (unlessFailing w fun x => ∃ rs', rs' <+: rs ∧ w.Asks rs' x).Bears w rs :=
  ⟨fun hw => hw.failing, fun rs' _ hpart h => ⟨fun hw => (h.healthy hw).obliging,
    fun hw _ _ h' => ⟨hw, rs', hpart, h.trans_same h'⟩⟩⟩

/-- A program that never waits returns, if nothing fails. -/
theorem run_unlessFailing {p : Program α} (hp : Straight p) {post : α → World → Prop}
    {stop : World → Prop} (h : p.Ensures (unlessFailing w stop).rule post w) :
    (∃ a x, World.run p w = (.returned a, x) ∧ post a x) ∨
      (¬ w.Healthy ∧ ∃ x, stop x ∧
        ((∃ cause, World.run p w = (.failed cause, x)) ∨ World.run p w = (.crashed, x))) := by
  have hends := run_ends h
  rcases hrun : World.run p w with ⟨progress, x⟩
  rw [hrun] at hends
  cases progress with
  | returned a => exact .inl ⟨a, x, rfl, hends⟩
  | failed cause => exact .inr ⟨hends.1, x, hends.2, .inl ⟨cause, rfl⟩⟩
  | crashed => exact .inr ⟨hends.1, x, hends.2, .inr rfl⟩
  | waiting rest => exact absurd (congrArg Prod.fst hrun) (World.run_ne_waiting hp w)

end Terms

end ServerGroups
