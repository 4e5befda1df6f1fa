/-
ServerGroups/Proofs/Exclusion/Tracking.lean

Following an operation along a schedule.

A rule goes by the answers that a program is given, whatever else happens.  If
every program of an operation follows the rule from the start, and every
answer that a world can give is one that the rule reckons with, then at every
moment what is left of the operation still follows it (`Rule.Tracks.reaches`).

Design.  A rule's own state may be tied to the world while the operation runs,
but not while it waits: nothing of the operation's is left then, so at rest
any state is tied to the world.
-/
import ServerGroups.Proofs.Exclusion.Lawful

namespace ServerGroups

open Program World

variable {σ : Type} {E : Setting} {w : World} {m m' : Moment}

/-- A rule by which some operations can be followed, with what ties its state to the world, where
something is known of all worlds. -/
structure Rule.Tracks (R : Rule σ) (follows : Operation → Prop) (known : World → Prop)
    (tied : σ → World → Prop) : Prop where
  starts : ∀ {o : Operation}, follows o → ∃ x, o.program.Ensures R (fun _ _ => True) x
  rests : ∀ {x : σ} {w : World}, w.At .free → tied x w
  spared : ∀ {x : σ} {w w' : World}, tied x w → w.Spares w' → tied x w'
  answered : ∀ {q : Request} {post : q.Answer → σ → Prop} {x : σ} {w w' : World}
    {answer : q.Answer}, R.ask q post x → known w → tied x w →
      w.meet q = (.answered answer, w') → ∃ y, post answer y ∧ tied y w'

/-- What is left of an operation follows a rule. -/
def Activity.Follows (R : Rule σ) (a : Activity) (x : σ) : Prop :=
  a.rest.Ensures R (fun _ _ => True) x

/-- What is left of every operation of some kind follows a rule. -/
structure Moment.Tracked (R : Rule σ) (follows : Operation → Prop) (tied : σ → World → Prop)
    (m : Moment) : Prop where
  waiting : ∀ {a : Activity} {o : Operation}, a ∈ m.waiting → a.agent = .operation o → follows o →
    ∃ x, a.Follows R x
  running : ∀ {a : Activity} {o : Operation}, m.running = some a → a.agent = .operation o →
    follows o → ∃ x, a.Follows R x ∧ tied x m.world

namespace Rule.Tracks

variable {R : Rule σ} {follows : Operation → Prop} {known : World → Prop} {tied : σ → World → Prop}

/-- What happens around an operation that runs does not keep it from following the rule. -/
theorem moment (hR : R.Tracks follows known tied) {w w' : World} {running : Option Activity}
    {waiting : List Activity} (h : Moment.Tracked R follows tied ⟨w, running, waiting⟩)
    (hw : w.Spares w') : Moment.Tracked R follows tied ⟨w', running, waiting⟩ := by
  refine ⟨h.waiting, fun ha ho hf => ?_⟩
  obtain ⟨x, hx, htied⟩ := h.running ha ho hf
  exact ⟨x, hx, hR.spared htied hw⟩

theorem step (hR : R.Tracks follows known tied) (hE : E.Spares) (hx : exclusive.Holds E m)
    (hknown : known m.world) (h : m.Tracked R follows tied) (hs : m.Step E m') :
    m'.Tracked R follows tied := by
  cases hs with
  | outside ho => exact hR.moment h (hE ho)
  | ticks time => exact hR.moment h (spares_advance _ time)
  | begins ho =>
    refine ⟨h.waiting, ?_⟩
    rintro a o ⟨⟩ ⟨⟩ hf
    obtain ⟨x, hx'⟩ := hR.starts hf
    exact ⟨x, hx', hR.rests (hx.calm rfl)⟩
  | drains => exact ⟨h.waiting, by rintro a o ⟨⟩ ⟨⟩⟩
  | @answers w w' waiting agent owed q next answer hm =>
    refine ⟨h.waiting, ?_⟩
    rintro a o ⟨⟩ ho hf
    obtain ⟨x, hask, htied⟩ := h.running rfl ho hf
    exact hR.answered hask hknown htied hm
  | @ends w w' waiting agent owed rest ended he =>
    cases agent with
    | operation o => exact ⟨h.waiting, by rintro a o ⟨⟩⟩
    | pass number mv =>
      cases ended with
      | returned busy => cases busy <;> exact ⟨h.waiting, by rintro a o ⟨⟩ ⟨⟩⟩
      | _ => exact ⟨h.waiting, by rintro a o ⟨⟩⟩
    | finish number mv => exact ⟨h.waiting, by rintro a o ⟨⟩⟩
  | @waits w waiting o owed q next hq =>
    refine ⟨?_, by rintro a o ⟨⟩⟩
    rintro a o' ha ho hf
    rcases List.mem_cons.1 ha with rfl | ha
    · obtain ⟨x, hx', -⟩ := h.running rfl ho hf
      exact ⟨x, hx'⟩
    · exact h.waiting ha ho hf
  | @resumes w before activity after =>
    have hfree : w.At .free := hx.calm rfl
    refine ⟨fun ha ho hf => h.waiting ?_ ho hf, ?_⟩
    · simp only [List.mem_append, List.mem_cons] at ha ⊢
      exact ha.imp_right .inr
    · rintro a o ⟨⟩ ho hf
      obtain ⟨x, hx'⟩ := h.waiting (by simp) ho hf
      exact ⟨x, hx', hR.rests hfree⟩
  | @drops w before activity after =>
    refine ⟨fun ha ho hf => h.waiting ?_ ho hf, by rintro a o ⟨⟩⟩
    simp only [List.mem_append, List.mem_cons] at ha ⊢
    exact ha.imp_right .inr

/-- At every moment of every schedule, what is left of an operation follows the rule. -/
theorem reaches (hR : R.Tracks follows known tied) (hE : E.Spares) (hw : w.Fresh)
    (hknown : ∀ {m'}, Moment.Reaches E (.still w) m' → known m'.world)
    (h : Moment.Reaches E (.still w) m) : m.Tracked R follows tied := by
  induction h with
  | refl => exact ⟨fun ha => absurd ha List.not_mem_nil, by rintro a o ⟨⟩⟩
  | tail h hs ih => exact hR.step hE (exclusive_holds hE hw h).2 (hknown h) ih hs

end Rule.Tracks

end ServerGroups
