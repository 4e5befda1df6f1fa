/-
ServerGroups/Proofs/Failures/Faultless.lean

The same schedule in a world without faults.

As long as every call is answered, faults change nothing: what happens step by
step can happen just so in the world in which there are none
(`Conduct.Smoothly.faultless`).  So the calls that an operation has made before
the first one that fails are the first calls of a run in which none does.

                 begin w o  ── smooth ──▸  c
                     │                     │
                 faultless             faultless
                     ▾                     ▾
       begin w.faultless o  ── smooth ──▸  c.faultless
-/
import ServerGroups.Proofs.Conduct.Drain

namespace ServerGroups

open Program

/-! ### Worlds -/

/-- The same world, but no call is made to fail any more. -/
def World.faultless (w : World) : World := { w with faults := [] }

namespace World

variable {w w' : World}

theorem faultless_reports (notices : List Notice) (w : World) :
    (notices.foldl report w).faultless = notices.foldl report w.faultless := by
  induction notices generalizing w with
  | nil => rfl
  | cons n notices ih => exact ih (w.report n)

theorem faultless_remember (w : World) (c : Call) :
    (w.remember c).faultless = w.faultless.remember c := by
  cases c <;> rfl

/-- Services know nothing of faults. -/
theorem serve_faultless (w : World) (c : Call) :
    w.faultless.serve c = ((w.serve c).1, (w.serve c).2.faultless) := by
  have hreports :=
    faultless_reports (w.site.serve c).notices { w with site := (w.site.serve c).site }
  unfold serve
  dsimp only
  rw [Prod.mk.injEq]
  refine ⟨rfl, ?_⟩
  rw [apply_ite faultless, faultless_remember, hreports]
  rfl

/-- A call that is answered is answered without faults, too. -/
theorem make_faultless {c : Call} {answer : c.Answer} (h : w.make c = (.answered answer, w')) :
    w.faultless.make c = (.answered answer, w'.faultless) := by
  unfold make at h ⊢
  dsimp only [faultless, Fault.meet] at h ⊢
  rcases hmeet : Fault.meet c.name w.faults with ⟨effect, faults⟩
  rw [hmeet] at h
  rcases effect with - | cause | -
  · -- no fault strikes the call
    have hserve := serve_faultless
      { w with history := { w.history with calls := w.history.calls.push c }, faults := faults } c
    rcases hserved : World.serve
      { w with history := { w.history with calls := w.history.calls.push c }, faults := faults } c
      with ⟨result, w₁⟩
    rw [hserved] at h hserve
    rcases result with cause | answer'
    · cases h
    · cases h
      dsimp only [faultless] at hserve
      rw [hserve]
  · cases h
  · cases h

/-- A request that is no call meets no fault. -/
theorem meet_faultless_of_no_call {q : Request} (hq : ∀ c, q ≠ .call c) (w : World) :
    w.faultless.meet q = ((w.meet q).1, (w.meet q).2.faultless) := by
  cases q with
  | call c => exact absurd rfl (hq c)
  | lock l shared holder =>
    dsimp only [meet, faultless]
    split <;> rfl
  | reserve servers target =>
    dsimp only [meet, faultless]
    split <;> rfl
  | join number =>
    dsimp only [meet, faultless]
    split
    · split <;> rfl
    · rfl
  | note | unlock | reservations | launch => rfl

/-- A request is met alike without faults, if it is no call that fails. -/
theorem meet_faultless {q : Request} {reply : Reply q.Answer} (h : w.meet q = (reply, w'))
    (hq : ∀ c, q = .call c → ∃ answer, reply = .answered answer) :
    w.faultless.meet q = (reply, w'.faultless) := by
  cases q with
  | call c =>
    obtain ⟨answer, rfl⟩ := hq c rfl
    cases c with
    | hook k =>
      dsimp only [meet, consult, faultless] at h ⊢
      split at h
      · next hp =>
        rw [if_pos hp]
        exact make_faultless h
      · next hp =>
        rw [if_neg hp]
        cases h
        rfl
    | _ => exact make_faultless h
  | _ => rw [meet_faultless_of_no_call (by simp), h]

/-- A program that does not end at a call ends alike without faults. -/
theorem Ends.faultless {α : Type} {rest : Program α} {ended : Progress α}
    (h : w.Ends rest ended w') (hrest : ∀ c next, rest ≠ ask (.call c) next) :
    w.faultless.Ends rest ended w'.faultless := by
  have hq : ∀ {q : Request} {next : q.Answer → Program α} {reply : Reply q.Answer},
      rest = ask q next → ∀ c, q = .call c → ∃ answer, reply = .answered answer := by
    rintro q next reply rfl c rfl
    exact absurd rfl (hrest c next)
  cases h with
  | returned => exact .returned
  | refused => exact .refused
  | failed h => exact .failed (meet_faultless h (hq rfl))
  | crashed h => exact .crashed (meet_faultless h (hq rfl))

end World

/-! ### Moments -/

/-- The same moment in a world without faults. -/
def Moment.faultless (m : Moment) : Moment := { m with world := m.world.faultless }

/-- Faults have no part in what happens outside: what may happen may happen just so without. -/
def Setting.Heedless (E : Setting) : Prop := ∀ {w w' : World},
  E.outside w w' → E.outside w.faultless w'.faultless

namespace Moment

variable {E : Setting} {m m' : Moment}

theorem faultless_close {w : World} {waiting : List Activity} {a : Agent}
    {ended : Progress a.Result} :
    (close w waiting a ended).faultless = close w.faultless waiting a ended := by
  cases a with
  | operation o => cases o <;> first | rfl | (cases ended <;> rfl)
  | pass n mv =>
    cases ended with
    | returned busy => cases busy <;> rfl
    | _ => rfl
  | finish n mv => cases ended <;> rfl

/-- No call fails or crashes on a step. -/
def Smooth (m m' : Moment) : Prop := ∀ a c reply, m.Calls a c reply m' →
  ∃ answer, reply = .answered answer

/-- A program does not end at a call on a step on which no call fails or crashes. -/
theorem Smooth.no_call {w w' : World} {waiting : List Activity} {a : Agent} {owed : Set Region}
    {rest : Program a.Result} {ended : Progress a.Result}
    (h : Smooth ⟨w, some ⟨a, owed, rest⟩, waiting⟩ (close w' waiting a ended))
    (he : w.Ends rest ended w') : ∀ c next, rest ≠ ask (.call c) next := by
  rintro c next rfl
  cases he with
  | failed hm =>
    obtain ⟨answer, ha⟩ := h _ _ _ (.failed hm)
    cases ha
  | crashed hm =>
    obtain ⟨answer, ha⟩ := h _ _ _ (.crashed hm)
    cases ha

/-- A request that is answered is no call that fails. -/
theorem answered_of_call {q : Request} {answer : q.Answer} : ∀ c, q = .call c →
    ∃ answer' : q.Answer, Reply.answered answer = .answered answer' := fun _ _ => ⟨answer, rfl⟩

theorem Step.faultless (hE : E.Heedless) (hs : m.Step E m') (h : Smooth m m') :
    m.faultless.Step E m'.faultless := by
  cases hs with
  | outside ho => exact .outside (hE ho)
  | ticks time => exact .ticks time
  | begins ho => exact .begins ho
  | drains hm he => exact .drains hm he
  | answers hm => exact .answers (World.meet_faultless hm answered_of_call)
  | ends he =>
    rw [faultless_close]
    exact .ends (he.faultless (h.no_call he))
  | waits hq => exact .waits hq
  | resumes => exact .resumes
  | drops ha => exact .drops ha

/-- A step without failing calls stays one in a world without faults. -/
theorem Smooth.faultless (hs : m.Step E m') (h : Smooth m m') :
    Smooth m.faultless m'.faultless := by
  intro a c reply hc
  obtain ⟨owed, next, hrun, hreply⟩ := hc.before
  have hne : m'.running ≠ m.running := hc.running_ne
  have hrun' : m.running = some ⟨a, owed, .ask (.call c) next⟩ := hrun
  cases hs with
  | outside | ticks => exact absurd rfl hne
  | begins | drains | resumes | drops => cases hrun'
  | answers hm =>
    cases hrun'
    have hm' := World.meet_faultless hm answered_of_call
    exact ⟨_, hreply.symm.trans (congrArg Prod.fst hm')⟩
  | ends he =>
    cases hrun'
    exact absurd rfl (h.no_call he c next)
  | waits hq =>
    cases hrun'
    cases hq

end Moment

/-! ### The conduct of an operation -/

/-- The same request in a world without faults. -/
def Entry.faultless (x : Entry) : Entry := { x with world := x.world.faultless }

theorem Entry.drain?_faultless (entries : List Entry) :
    drain? (entries.map faultless) = drain? entries := by
  rw [drain?, List.findSome?_map]
  rfl

theorem Agent.own_faultless {a : Agent} {entries : List Entry} :
    a.Own (entries.map Entry.faultless) ↔ a.Own entries := by
  cases a <;> simp only [Own, Entry.drain?_faultless]

namespace Conduct

variable {E : Setting} {o : Operation} {c c' : Conduct o}

/-- The same conduct in a world without faults. -/
def faultless (c : Conduct o) : Conduct o :=
  ⟨c.entries.map Entry.faultless, c.outcome, c.moment.faultless⟩

theorem calls_faultless (c : Conduct o) : c.faultless.calls = c.calls := by
  simp only [calls, faultless, List.filterMap_map]
  rfl

theorem note_faultless {entries : List Entry} {w : World} {a : Agent} {α : Type}
    {rest : Program α} : note (entries.map Entry.faultless) w.faultless a rest =
      (note entries w a rest).map Entry.faultless := by
  cases rest <;> rfl

/-- What an operation comes to does not depend on the world that it leaves. -/
theorem conclude_fst (o : Operation) (outcome : Outcome o.Answer) (w w' : World) :
    (o.conclude (outcome, w)).1 = (o.conclude (outcome, w')).1 := by
  cases o <;> first | rfl | (cases outcome <;> rfl)

theorem Step.faultless (hE : E.Heedless) (hs : c.Step E c')
    (h : Moment.Smooth c.moment c'.moment) : c.faultless.Step E c'.faultless := by
  cases hs with
  | aside hs hm =>
    exact .aside (hs.faultless hE h) (hm.imp_right fun hm a ha => by
      rw [Agent.own_faultless]
      exact hm a ha)
  | answers ha hm =>
    exact .answers (Agent.own_faultless.2 ha) (World.meet_faultless hm Moment.answered_of_call)
  | @ends entries outcome w w' waiting owed rest ended he =>
    have hends := he.faultless (h.no_call he)
    simp only [faultless, ← note_faultless, Moment.faultless_close]
    rw [conclude_fst o ended.outcome w'.letGo w'.faultless.letGo]
    exact .ends hends
  | stops hd ha he =>
    have hends := he.faultless (h.no_call he)
    simp only [faultless, ← note_faultless, Moment.faultless_close]
    exact .stops hd (Agent.own_faultless.2 ha) hends
  | waits hq => exact .waits hq

/-- What may have happened some time later, if no call has failed or crashed. -/
abbrev Smoothly (E : Setting) : Conduct o → Conduct o → Prop :=
  Relation.ReflTransGen fun c c' => c.Step E c' ∧ Moment.Smooth c.moment c'.moment

/-- A request of an operation or of its drain is answered. -/
theorem Smoothly.answers {entries : List Entry} {outcome : Option (Outcome o.Answer)}
    {w w' : World} {waiting : List Activity} {a : Agent} {owed : Set Region} {q : Request}
    {next : q.Answer → Program a.Result} {answer : q.Answer} (ha : a.Own entries)
    (h : w.meet q = (.answered answer, w')) :
    (⟨entries, outcome, ⟨w, some ⟨a, owed, .ask q next⟩, waiting⟩⟩ : Conduct o).Smoothly E
      ⟨⟨a, w, q⟩ :: entries, outcome,
        ⟨w', some ⟨a, q.owed answer owed, next answer⟩, waiting⟩⟩ := by
  refine .single ⟨.answers ha h, fun b c reply hc => ?_⟩
  obtain ⟨owed', next', hrun, hreply⟩ := hc.before
  cases hrun
  rw [h] at hreply
  exact ⟨answer, hreply.symm⟩

theorem Smoothly.reaches (h : c.Smoothly E c') : c.Reaches E c' := by
  induction h with
  | refl => exact .refl
  | tail _ hs ih => exact ih.tail hs.1

/-- As long as no call fails or crashes, the same happens in a world without faults. -/
theorem Smoothly.faultless (hE : E.Heedless) (h : c.Smoothly E c') :
    c.faultless.Smoothly E c'.faultless := by
  induction h with
  | refl => exact .refl
  | tail _ hs ih => exact ih.tail ⟨hs.1.faultless hE hs.2, hs.2.faultless hs.1.moment⟩

end Conduct

end ServerGroups
