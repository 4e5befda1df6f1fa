/-
ServerGroups/Proofs/Requests.lean

What the meeting of one request makes of a world.

A call reaches the services or it does not: if it is answered, the site has
served it, and if it is not, the site is as it was.  Either way the
coordinator's own part of the world stays the same.  Every other request
leaves the site alone.
-/
import Mathlib.Tactic
import ServerGroups.World.Passes

namespace ServerGroups

/-! ### Services that do not fail -/

/-- An observer that refuses no hook. -/
def Observer.Willing (o : Observer) : Prop := ∀ recorder, o = .recording recorder →
  recorder.refuses = none

theorem Observer.Willing.hear {o : Observer} (h : o.Willing) (hook : Hook) :
    ∃ o', o.hear hook = .ok o' ∧ o'.Willing := by
  rcases o with - | - | recorder
  · exact ⟨_, rfl, fun _ he => by cases he⟩
  · exact ⟨_, rfl, fun _ he => by cases he⟩
  · have hnone := h recorder rfl
    refine ⟨.recording { recorder with events := recorder.events.push hook }, ?_, ?_⟩
    · simp [Observer.hear, Recorder.record, hnone, Except.map]
    · intro recorder' he
      cases he
      exact hnone

/-- The services of a site do not fail, and its balancer makes its own plans. -/
structure Site.Reliable (site : Site) : Prop where
  failing : site.cluster.failing = false
  willing : site.observer.Willing
  script : site.script = []

/-! ### Services that answer -/

/-- A call that fails changes no service. -/
theorem Site.site_serve_of_error {site : Site} {c : Call} {cause : ServiceError}
    (h : (site.serve c).answer = .error cause) : (site.serve c).site = site := by
  revert h
  cases c <;> simp only [serve, look, plan] <;> (try split) <;> simp

namespace World

/-- The coordinator's own part of two worlds is the same: everything but the services, the faults,
the clock and the history. -/
structure Alike (w w' : World) : Prop where
  config : w'.config = w.config
  reservations : w'.reservations = w.reservations
  locks : w'.locks = w.locks
  held : w'.held = w.held
  moves : w'.moves = w.moves

variable {w w' : World} {c : Call}

theorem Alike.refl (w : World) : w.Alike w := ⟨rfl, rfl, rfl, rfl, rfl⟩

/-! ### Serving a call -/

theorem reports (notices : List Notice) (w : World) :
    w.Alike (notices.foldl report w) ∧ (notices.foldl report w).site = w.site ∧
      (notices.foldl report w).faults = w.faults := by
  induction notices generalizing w with
  | nil => exact ⟨.refl w, rfl, rfl⟩
  | cons n notices ih =>
    obtain ⟨ha, hs, hf⟩ := ih (w.report n)
    exact ⟨⟨ha.config, ha.reservations, ha.locks, ha.held, ha.moves⟩, hs, hf⟩

theorem remembers (c : Call) (w : World) :
    w.Alike (w.remember c) ∧ (w.remember c).site = w.site ∧ (w.remember c).faults = w.faults := by
  cases c <;> exact ⟨⟨rfl, rfl, rfl, rfl, rfl⟩, rfl, rfl⟩

theorem serves (c : Call) (w : World) :
    w.Alike (w.serve c).2 ∧ (w.serve c).2.site = (w.site.serve c).site ∧
      (w.serve c).2.faults = w.faults := by
  obtain ⟨ha, hs, hf⟩ := reports (w.site.serve c).notices { w with site := (w.site.serve c).site }
  have hw : w.Alike ((w.site.serve c).notices.foldl report
      { w with site := (w.site.serve c).site }) :=
    ⟨ha.config, ha.reservations, ha.locks, ha.held, ha.moves⟩
  unfold serve
  dsimp only
  split
  · obtain ⟨ha', hs', hf'⟩ := remembers c ((w.site.serve c).notices.foldl report
      { w with site := (w.site.serve c).site })
    exact ⟨⟨ha'.config.trans hw.config, ha'.reservations.trans hw.reservations,
      ha'.locks.trans hw.locks, ha'.held.trans hw.held, ha'.moves.trans hw.moves⟩,
      hs'.trans hs, hf'.trans hf⟩
  · exact ⟨hw, hs, hf⟩

/-! ### Making a call -/

/-- What a call may be replied, and what it then has made of the site. -/
inductive Made (w : World) (c : Call) : Reply c.Answer → World → Prop
  | answered {answer : c.Answer} {w' : World} (h : (w.site.serve c).answer = .ok answer)
      (hs : w'.site = (w.site.serve c).site) : Made w c (.answered answer) w'
  | failed {cause : Error} {w' : World} (hs : w'.site = w.site) : Made w c (.failed cause) w'
  | crashed {w' : World} (hs : w'.site = w.site) : Made w c .crashed w'

theorem made_make (w : World) (c : Call) :
    Made w c (w.make c).1 (w.make c).2 ∧ w.Alike (w.make c).2 := by
  unfold make
  dsimp only
  split
  · exact ⟨.crashed rfl, rfl, rfl, rfl, rfl, rfl⟩
  · exact ⟨.failed rfl, rfl, rfl, rfl, rfl, rfl⟩
  · split
    · next answer w' h =>
      obtain ⟨ha, hs, -⟩ := serves c _
      rw [h] at ha hs
      exact ⟨.answered (congrArg Prod.fst h) hs, ha.config, ha.reservations, ha.locks, ha.held,
        ha.moves⟩
    · next cause w' h =>
      obtain ⟨ha, hs, -⟩ := serves c _
      rw [h] at ha hs
      exact ⟨.failed (hs.trans (Site.site_serve_of_error (congrArg Prod.fst h))), ha.config,
        ha.reservations, ha.locks, ha.held, ha.moves⟩

theorem made_meet (w : World) (c : Call) :
    Made w c (w.meet (.call c)).1 (w.meet (.call c)).2 ∧ w.Alike (w.meet (.call c)).2 := by
  cases c with
  | hook h =>
    show Made w _ (w.consult (.hook h)).1 _ ∧ _
    rcases ho : w.site.observer with - | - | recorder <;>
      simp only [meet, consult, ho, Observer.isPresent, if_true, if_false, Bool.false_eq_true]
    · refine ⟨.answered (by simp [Site.serve, ho, Observer.hear]) ?_, .refl w⟩
      simp only [Site.serve, ho, Observer.hear]
      rw [← ho]
    · exact made_make w _
    · exact made_make w _
  | _ => exact made_make w _

theorem answered_call {answer : c.Answer} (h : w.meet (.call c) = (.answered answer, w')) :
    (w.site.serve c).answer = .ok answer ∧ w'.site = (w.site.serve c).site := by
  have hm := (made_meet w c).1
  rw [h] at hm
  cases hm with
  | answered ha hs => exact ⟨ha, hs⟩

theorem alike_call {reply : Reply c.Answer} (h : w.meet (.call c) = (reply, w')) :
    w.Alike w' := by
  have hm := (made_meet w c).2
  rw [h] at hm
  exact hm

/-- Without faults every call reaches the services. -/
theorem reply_of_no_faults (hw : w.faults = []) {reply : Reply c.Answer}
    (h : w.meet (.call c) = (reply, w')) :
    w'.faults = [] ∧ ∀ answer, (w.site.serve c).answer = .ok answer → reply = .answered answer := by
  have hmake : (w.make c).2.faults = [] ∧
      ∀ answer, (w.site.serve c).answer = .ok answer → (w.make c).1 = .answered answer := by
    obtain ⟨-, -, hf⟩ := serves c { w with
      history := { w.history with calls := w.history.calls.push c }, faults := [] }
    unfold make
    simp only [hw, Fault.meet]
    rcases hserve : World.serve { w with
      history := { w.history with calls := w.history.calls.push c }, faults := [] } c with ⟨result, w₁⟩
    rw [hserve] at hf
    have hresult : (w.site.serve c).answer = result := congrArg Prod.fst hserve
    rcases result with cause | answer
    · refine ⟨hf, fun answer ha => ?_⟩
      rw [hresult] at ha
      cases ha
    · refine ⟨hf, fun answer' ha => ?_⟩
      rw [hresult] at ha
      rw [Except.ok.inj ha]
  obtain rfl : (w.meet (.call c)).2 = w' := congrArg Prod.snd h
  obtain rfl : (w.meet (.call c)).1 = reply := congrArg Prod.fst h
  cases c with
  | hook hook =>
    simp only [meet, consult]
    split
    · exact hmake
    · exact ⟨hw, fun _ _ => rfl⟩
  | _ => exact hmake

/-! ### Other requests -/

/-- A request that is no call leaves the services alone. -/
theorem site_of_no_call {q : Request} {reply : Reply q.Answer} (h : w.meet q = (reply, w'))
    (hq : ∀ c, q ≠ .call c) : w'.site = w.site := by
  obtain rfl : (w.meet q).2 = w' := congrArg Prod.snd h
  cases q with
  | call c => exact absurd rfl (hq c)
  | lock lock shared holder =>
    simp only [meet]
    split <;> rfl
  | reserve servers target =>
    simp only [meet]
    split <;> rfl
  | join number =>
    simp only [meet]
    split
    · split <;> rfl
    · rfl
  | _ => rfl

/-- A request that is not answered changes no service. -/
theorem site_of_not_answered {q : Request} {reply : Reply q.Answer}
    (h : w.meet q = (reply, w')) (hr : ∀ answer, reply ≠ .answered answer) : w'.site = w.site := by
  cases q with
  | call c =>
    have hm := (made_meet w c).1
    rw [h] at hm
    cases hm with
    | answered => exact absurd rfl (hr _)
    | failed hs => exact hs
    | crashed hs => exact hs
  | _ => exact site_of_no_call h fun c => by simp

end World

end ServerGroups
