/-
ServerGroups/Proofs/Conduct/Tracking.lean

What a program ensures, kept along the conduct of its operation.

A law says which requests an operation may make after those that it has made
before, and what it must have asked for when it returns.  If its program obeys
the law (`noting`), then so does all that the operation has asked for, at every
moment of every schedule (`Conduct.tracked`).  A request is reached only if
those before it were answered, so no more than the latest one can have failed.
-/
import ServerGroups.Proofs.Conduct.Basic
import ServerGroups.Proofs.Runs.Basic

namespace ServerGroups

open Program

/-- Requests with the worlds that they were asked in, the latest first. -/
abbrev Asked := List (World × Request)

/-- A request was answered in the world that it was asked in. -/
def Answered (x : World × Request) : Prop := ∃ answer, (x.1.meet x.2).1 = .answered answer

/-- Which request may be made after others, and what may be returned after them. -/
structure Law (α : Type) where
  next : Asked → Request → Prop
  final : α → Asked → Prop

/-- The requests of a program, each after those before it. -/
def noting (next : Asked → Request → Prop) : Rule Asked where
  ask q post asked := next asked q ∧
    ∀ w answer w', w.meet q = (.answered answer, w') → post answer ((w, q) :: asked)
  fail _ _ := True

/-- Each request was made when it might be, and those before it were answered. -/
def Asked.Lawful (next : Asked → Request → Prop) : Asked → Prop
  | [] => True
  | x :: before => next before x.2 ∧ (∀ y ∈ before, Answered y) ∧ Lawful next before

/-- What the operation itself has asked for. -/
def Entry.asked (entries : List Entry) : Asked :=
  (entries.filter fun x => x.agent.isOperation).map fun x => (x.world, x.request)

variable {E : Setting} {o : Operation} {w : World} {entries : List Entry}

theorem Entry.asked_operation {q : Request} :
    asked (⟨.operation o, w, q⟩ :: entries) = (w, q) :: asked entries := rfl

theorem Entry.asked_drain {a : Agent} {q : Request} (ha : a.isOperation = false) :
    asked (⟨a, w, q⟩ :: entries) = asked entries := by
  simp [asked, ha]

/-- An agent that has ended does not run. -/
theorem Moment.close_running_ne {w : World} {waiting : List Activity} {a : Agent}
    {ended : Progress a.Result} {owed : Set Region} {rest : Program a.Result} :
    (close w waiting a ended).running ≠ some ⟨a, owed, rest⟩ := by
  cases a with
  | operation o => exact fun h => by cases h
  | pass n mv =>
    cases ended with
    | returned busy => cases busy <;> exact fun h => by cases h
    | _ => exact fun h => by cases h
  | finish n mv => exact fun h => by cases h

/-- While what runs stays where it stands, no more than the world changes. -/
theorem Moment.Step.same {m m' : Moment} (hs : m.Step E m') (hrun : m'.running = m.running)
    (hsome : m.running ≠ none) : m'.waiting = m.waiting ∧
      (E.outside m.world m'.world ∨ ∃ time, m'.world = m.world.advance time) := by
  cases hs with
  | outside ho => exact ⟨rfl, .inl ho⟩
  | ticks time => exact ⟨rfl, .inr ⟨time, rfl⟩⟩
  | @answers w w' waiting agent owed q next answer h =>
    exact absurd (Option.some.inj hrun) (Activity.next_ne next answer)
  | ends h => exact absurd hrun close_running_ne
  | waits hq => cases hrun
  | _ => exact absurd rfl hsome

/-- After an agent has ended no operation runs. -/
theorem Moment.isOperation_close {w : World} {waiting : List Activity} {a : Agent}
    {ended : Progress a.Result} :
    ∀ b, (close w waiting a ended).running = some b → b.agent.isOperation = false := by
  intro b hb
  cases a with
  | operation o => cases hb
  | pass n mv =>
    cases ended with
    | returned busy =>
      cases busy with
      | nil =>
        cases hb
        rfl
      | cons s busy => cases hb
    | _ => cases hb
  | finish n mv => cases hb

theorem Moment.waiting_close {w : World} {waiting : List Activity} {a : Agent}
    {ended : Progress a.Result} : (close w waiting a ended).waiting = waiting := by
  cases a with
  | operation o => rfl
  | pass n mv =>
    cases ended with
    | returned busy => cases busy <;> rfl
    | _ => rfl
  | finish n mv => rfl

/-- No operation runs or waits. -/
structure Moment.Rid (m : Moment) : Prop where
  running : ∀ a, m.running = some a → a.agent.isOperation = false
  waiting : m.waiting = []

/-- Where no operation is called, one that is over never comes back. -/
theorem Moment.Step.rid {m m' : Moment} (hE : ∀ o, ¬ E.called o) (h : m.Rid) (hs : m.Step E m') :
    m'.Rid := by
  obtain ⟨hrun, hwait⟩ := h
  cases hs with
  | outside | ticks => exact ⟨hrun, hwait⟩
  | begins ho => exact absurd ho (hE _)
  | drains hm he => exact ⟨by rintro a ⟨⟩; rfl, hwait⟩
  | answers h =>
    have hdrain := hrun _ rfl
    exact ⟨by rintro a ⟨⟩; exact hdrain, hwait⟩
  | ends he => exact ⟨isOperation_close, waiting_close.trans hwait⟩
  | waits hq => cases hrun _ rfl
  | resumes => simp at hwait
  | drops ha => simp at hwait

namespace Conduct

variable {c c' : Conduct o} {L : Law o.Answer}

/-- An operation has obeyed a law so far, and will do so. -/
inductive Tracked (L : Law o.Answer) : Conduct o → Prop
  | runs {entries w owed rest} (hlawful : (Entry.asked entries).Lawful L.next)
      (hanswered : ∀ x ∈ Entry.asked entries, Answered x)
      (hrest : rest.Ensures (noting L.next) L.final (Entry.asked entries)) :
      Tracked L ⟨entries, none, ⟨w, some ⟨.operation o, owed, rest⟩, []⟩⟩
  | waits {entries m owed q next} (hq : q.pauses) (hlawful : (Entry.asked entries).Lawful L.next)
      (hanswered : ∀ x ∈ Entry.asked entries, Answered x)
      (hrest : (ask q next).Ensures (noting L.next) L.final (Entry.asked entries))
      (hrun : ∀ a, m.running = some a → a.agent.isOperation = false)
      (hwait : m.waiting = [⟨.operation o, owed, .ask q next⟩]) : Tracked L ⟨entries, none, m⟩
  | gone {entries outcome m} (hlawful : (Entry.asked entries).Lawful L.next) (hrid : m.Rid)
      (hfinal : (∀ t, o ≠ .forgetTable t) →
        ∀ result, outcome = some (.returned result) → L.final result (Entry.asked entries)) :
      Tracked L ⟨entries, outcome, m⟩

/-- The last request of an operation may have failed. -/
theorem lawful_note {next : Asked → Request → Prop} {entries : List Entry} {w : World}
    {rest : Program o.Answer} {final : o.Answer → Asked → Prop}
    (hlawful : (Entry.asked entries).Lawful next)
    (hanswered : ∀ x ∈ Entry.asked entries, Answered x)
    (hrest : rest.Ensures (noting next) final (Entry.asked entries)) :
    (Entry.asked (note entries w (.operation o) rest)).Lawful next := by
  cases rest with
  | done result => exact hlawful
  | fail cause => exact hlawful
  | ask q next' => exact ⟨hrest.1, hanswered, hlawful⟩

theorem asked_note {entries : List Entry} {w : World} {a : Agent} {α : Type} {rest : Program α}
    (ha : a.isOperation = false) : Entry.asked (note entries w a rest) = Entry.asked entries := by
  cases rest with
  | ask q next => exact Entry.asked_drain ha
  | _ => rfl

/-- What an operation returns, it returns where its program does. -/
theorem final_ends {entries : List Entry} {w w' : World} {rest : Program o.Answer}
    {ended : Progress o.Answer} (hrest : rest.Ensures (noting L.next) L.final (Entry.asked entries))
    (h : w.Ends rest ended w') (ho : ∀ t, o ≠ .forgetTable t) {result : o.Answer}
    (hresult : (o.conclude (ended.outcome, w'.letGo)).1 = .returned result) :
    L.final result (Entry.asked (note entries w (.operation o) rest)) := by
  rw [Operation.conclude_eq ho] at hresult
  cases h with
  | returned =>
    cases hresult
    exact hrest
  | _ => cases hresult

theorem eq_of_singleton {α : Type} {before after : List α} {x y : α}
    (h : before ++ x :: after = [y]) : before = [] ∧ x = y ∧ after = [] := by
  cases before with
  | nil => simpa using h
  | cons b before => simp at h

/-- While the operation waits, or when it is over, everything else keeps to itself. -/
theorem Tracked.aside {entries : List Entry} {outcome : Option (Outcome o.Answer)}
    {m m' : Moment} (hE : E.Follows) (h : Tracked L ⟨entries, outcome, m⟩) (hs : m.Step E m')
    (hm : m'.running = m.running ∨ ∀ a, m.running = some a → ¬ a.agent.Own entries) :
    Tracked L ⟨entries, outcome, m'⟩ := by
  cases h with
  | runs hlawful hanswered hrest =>
    have hsame := hm.resolve_right fun hown => hown _ rfl trivial
    obtain ⟨hwait, -⟩ := hs.same hsame (by simp)
    obtain ⟨w', running, waiting⟩ := m'
    obtain rfl : running = _ := hsame
    obtain rfl : waiting = [] := hwait
    exact .runs hlawful hanswered hrest
  | waits hq hlawful hanswered hrest hrun hwait =>
    cases hs with
    | outside ho => exact .waits hq hlawful hanswered hrest hrun hwait
    | ticks time => exact .waits hq hlawful hanswered hrest hrun hwait
    | begins ho => exact absurd ho (hE.called _)
    | drains hmove he => exact .waits hq hlawful hanswered hrest (by rintro a ⟨⟩; rfl) hwait
    | answers h =>
      have hdrain := hrun _ rfl
      exact .waits hq hlawful hanswered hrest (by rintro a ⟨⟩; exact hdrain) hwait
    | ends h =>
      exact .waits hq hlawful hanswered hrest Moment.isOperation_close
        (Moment.waiting_close.trans hwait)
    | waits => cases hrun _ rfl
    | @resumes w before activity after =>
      -- nothing but the operation waits
      obtain ⟨rfl, rfl, rfl⟩ := eq_of_singleton hwait
      exact .runs hlawful hanswered hrest
    | @drops w before activity after ha =>
      obtain ⟨rfl, rfl, rfl⟩ := eq_of_singleton hwait
      exact .gone hlawful ⟨by rintro a ⟨⟩, rfl⟩ fun _ result h => by cases h
  | gone hlawful hrid hfinal => exact .gone hlawful (hs.rid hE.called hrid) hfinal

/-- What a drain asks for does not count for the law of its operation. -/
theorem Tracked.congr {entries entries' : List Entry} {outcome : Option (Outcome o.Answer)}
    {m : Moment} (h : Tracked L ⟨entries, outcome, m⟩)
    (hsame : Entry.asked entries' = Entry.asked entries) : Tracked L ⟨entries', outcome, m⟩ := by
  cases h with
  | runs hlawful hanswered hrest =>
    rw [← hsame] at hlawful hanswered hrest
    exact .runs hlawful hanswered hrest
  | waits hq hlawful hanswered hrest hrun hwait =>
    rw [← hsame] at hlawful hanswered hrest
    exact .waits hq hlawful hanswered hrest hrun hwait
  | gone hlawful hrid hfinal =>
    rw [← hsame] at hlawful hfinal
    exact .gone hlawful hrid hfinal

theorem Tracked.step (hE : E.Follows) (h : c.Tracked L) (hs : c.Step E c') : c'.Tracked L := by
  have hmoment := hs.moment
  cases hs with
  | aside hs hm => exact h.aside hE hs hm
  | @answers entries outcome w w' waiting agent owed q next answer ha hmeet =>
    cases h with
    | runs hlawful hanswered hrest =>
      have hanswered' : ∀ x ∈ (w, q) :: Entry.asked entries, Answered x :=
        List.forall_mem_cons.2 ⟨⟨answer, congrArg Prod.fst hmeet⟩, hanswered⟩
      have hlawful' : Asked.Lawful L.next ((w, q) :: Entry.asked entries) :=
        ⟨hrest.1, hanswered, hlawful⟩
      rw [← Entry.asked_operation] at hanswered' hlawful'
      exact .runs hlawful' hanswered' (hrest.2 w answer w' hmeet)
    | waits hq hlawful hanswered hrest hrun hwait =>
      have hdrain := hrun _ rfl
      refine Tracked.congr ?_ (Entry.asked_drain hdrain)
      exact .waits hq hlawful hanswered hrest (by rintro a ⟨⟩; exact hdrain) hwait
    | gone hlawful hrid hfinal =>
      refine Tracked.congr ?_ (Entry.asked_drain (hrid.running _ rfl))
      exact .gone hlawful (hmoment.rid hE.called hrid) hfinal
  | @ends entries outcome w w' waiting owed rest ended he =>
    cases h with
    | runs hlawful hanswered hrest =>
      refine .gone (lawful_note hlawful hanswered hrest)
        ⟨Moment.isOperation_close, Moment.waiting_close⟩ fun ho result hresult => ?_
      exact final_ends hrest he ho (Option.some.inj hresult)
    | waits _ _ _ _ hrun => cases hrun _ rfl
    | gone _ hrid => cases hrid.running _ rfl
  | @stops entries outcome w w' waiting agent owed rest ended hd ha he =>
    refine Tracked.congr ?_ (asked_note hd)
    cases h with
    | runs => cases hd
    | waits hq hlawful hanswered hrest hrun hwait =>
      exact .waits hq hlawful hanswered hrest Moment.isOperation_close
        (Moment.waiting_close.trans hwait)
    | gone hlawful hrid hfinal => exact .gone hlawful (hmoment.rid hE.called hrid) hfinal
  | waits hq =>
    cases h with
    | runs hlawful hanswered hrest =>
      exact .waits hq hlawful hanswered hrest (by rintro a ⟨⟩) rfl
    | waits _ _ _ _ hrun => cases hrun _ rfl
    | gone _ hrid => cases hrid.running _ rfl

/-- Whatever may happen next, the operation can be followed through it. -/
theorem Tracked.follows (h : c.Tracked L) {m' : Moment} (hs : c.moment.Step E m') :
    ∃ c' : Conduct o, c.Step E c' ∧ c'.moment = m' := by
  obtain ⟨entries, outcome, m⟩ := c
  cases hs with
  | outside ho => exact ⟨⟨entries, outcome, _⟩, .aside (.outside ho) (.inl rfl), rfl⟩
  | ticks time => exact ⟨⟨entries, outcome, _⟩, .aside (.ticks time) (.inl rfl), rfl⟩
  | begins ho => exact ⟨⟨entries, outcome, _⟩, .aside (.begins ho) (.inr (by rintro a ⟨⟩)), rfl⟩
  | drains hm he =>
    exact ⟨⟨entries, outcome, _⟩, .aside (.drains hm he) (.inr (by rintro a ⟨⟩)), rfl⟩
  | @answers w w' waiting agent owed q next answer hmeet =>
    by_cases hown : agent.Own entries
    · exact ⟨_, .answers hown hmeet, rfl⟩
    · refine ⟨⟨entries, outcome, _⟩, .aside (.answers hmeet) (.inr ?_), rfl⟩
      rintro a ⟨⟩
      exact hown
  | @ends w w' waiting agent owed rest ended he =>
    cases hop : agent.isOperation with
    | true =>
      -- no other operation runs
      cases h with
      | runs => exact ⟨_, .ends he, rfl⟩
      | waits _ _ _ _ hrun => cases (hrun _ rfl).symm.trans hop
      | gone _ hrid => cases (hrid.running _ rfl).symm.trans hop
    | false =>
      by_cases hown : agent.Own entries
      · exact ⟨_, .stops hop hown he, rfl⟩
      · refine ⟨⟨entries, outcome, _⟩, .aside (.ends he) (.inr ?_), rfl⟩
        rintro a ⟨⟩
        exact hown
  | waits hq =>
    cases h with
    | runs => exact ⟨_, .waits hq, rfl⟩
    | waits _ _ _ _ hrun => cases hrun _ rfl
    | gone _ hrid => cases hrid.running _ rfl
  | resumes => exact ⟨⟨entries, outcome, _⟩, .aside .resumes (.inr (by rintro a ⟨⟩)), rfl⟩
  | drops ha => exact ⟨⟨entries, outcome, _⟩, .aside (.drops ha) (.inr (by rintro a ⟨⟩)), rfl⟩

/-- Whatever an operation asks for, its law allows. -/
theorem Tracked.request (h : c.Tracked L) {a : Agent} {owed : Set Region} {q : Request}
    {next : q.Answer → Program a.Result} (hrun : c.moment.running = some ⟨a, owed, .ask q next⟩)
    (ha : a.isOperation = true) : L.next (Entry.asked c.entries) q := by
  cases h with
  | runs hlawful hanswered hrest =>
    cases hrun
    exact hrest.1
  | waits _ _ _ _ hrun' => cases (hrun' _ hrun).symm.trans ha
  | gone _ hrid => cases (hrid.running _ hrun).symm.trans ha

/-- While an operation runs all its requests have been answered. -/
theorem Tracked.answered (h : c.Tracked L) {a : Activity} (hrun : c.moment.running = some a)
    (ha : a.agent.isOperation = true) : ∀ x ∈ Entry.asked c.entries, Answered x := by
  cases h with
  | runs _ hanswered => exact hanswered
  | waits _ _ _ _ hrun' => cases (hrun' _ hrun).symm.trans ha
  | gone _ hrid => cases (hrid.running _ hrun).symm.trans ha

/-- What an operation returns, its law allows. -/
theorem Tracked.returned (h : c.Tracked L) (ho : ∀ t, o ≠ .forgetTable t) {result : o.Answer}
    (hresult : c.outcome = some (.returned result)) : L.final result (Entry.asked c.entries) := by
  cases h with
  | runs => cases hresult
  | waits => cases hresult
  | gone _ _ hfinal => exact hfinal ho result hresult

/-- Nothing but the operation waits. -/
theorem Tracked.waiting (h : c.Tracked L) :
    ∀ a ∈ c.moment.waiting, ∃ o, a.agent = .operation o := by
  cases h with
  | runs => exact fun a ha => absurd ha List.not_mem_nil
  | waits _ _ _ _ _ hwait =>
    intro a ha
    rw [hwait, List.mem_singleton] at ha
    exact ⟨o, by rw [ha]⟩
  | gone _ hrid =>
    intro a ha
    rw [hrid.waiting] at ha
    exact absurd ha List.not_mem_nil

/-- What an operation has asked for is lawful, whatever has become of it. -/
theorem Tracked.lawful (h : c.Tracked L) : (Entry.asked c.entries).Lawful L.next := by
  cases h with
  | runs hlawful => exact hlawful
  | waits _ hlawful => exact hlawful
  | gone hlawful => exact hlawful

/-- An operation whose program obeys a law obeys it in every schedule. -/
theorem tracked (hE : E.Follows) (hp : o.program.Ensures (noting L.next) L.final [])
    (h : (begin w o).Reaches E c) : c.Tracked L := by
  induction h with
  | refl =>
    have hnone : ∀ x ∈ Entry.asked [], Answered x := fun x hx => absurd hx List.not_mem_nil
    exact .runs trivial hnone hp
  | tail _ hs ih => exact ih.step hE hs

end Conduct

end ServerGroups
