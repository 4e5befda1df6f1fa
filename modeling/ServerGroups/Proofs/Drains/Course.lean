/-
ServerGroups/Proofs/Drains/Course.lean

The course of a drain, from the start of its move to its end.

    rests      no pass runs; nothing has been seen yet
    passes     a pass runs; nothing has been seen yet
    finishes   a pass has found every server clear, and the hook follows
    ended      the drain has ended

In each of these it is known what has been seen of the drain on the trail
(`Moment.Seen`), and `Exit` is the table of all ends: what phase and what
ending are left, and what has been seen by then.  Every step keeps to the
course (`Course.step`), and the phases only advance (`Course.advances`).
-/
import ServerGroups.Proofs.Drains.Trail

namespace ServerGroups

open Program

/-! ### What a pass asks for -/

/-- Whether a request asks for a region to be unassigned. -/
def Request.unassigns : Request → Bool
  | .call (.unassign _) => true
  | _ => false

/-- A request that no hook hears, and that changes no more than where regions are. -/
def Request.Sweeps (q : Request) : Prop := q.reads = true ∧ ∀ h, q ≠ .call (.hook h)

/-- The requests of a pass.  What counts is whether any region was asked to be unassigned. -/
def sweeping : Rule Bool where
  ask q post asked := q.Sweeps ∧ ∀ answer, post answer (asked || q.unassigns)
  fail _ _ := False

theorem sweeping_monotone : sweeping.Monotone := fun h hask => ⟨hask.1, fun a => h a _ (hask.2 a)⟩

namespace Coordinator

variable {α β : Type} {asked : Bool}

/-- A request that is not about a region, and what comes after it. -/
theorem sweeping_ask {q : Request} {f : q.Answer → Program β} {post : β → Bool → Prop}
    (hq : q.Sweeps) (hnot : q.unassigns = false)
    (h : ∀ answer, (f answer).Ensures sweeping post asked) :
    (ask q done >>= f).Ensures sweeping post asked := by
  refine ⟨hq, fun answer => ?_⟩
  rw [hnot, Bool.or_false]
  exact h answer

theorem sweeping_unassigns : ∀ (regions : List Region) (asked : Bool),
    (regions.forM fun r => call (.unassign r)).Ensures sweeping
      (fun _ after => after = (asked || !regions.isEmpty)) asked
  | [], asked => by
    show asked = (asked || false)
    simp
  | r :: regions, asked => by
    show (call (.unassign r) >>= fun _ => regions.forM fun r => call (.unassign r)).Ensures sweeping
      (fun _ after => after = (asked || !(r :: regions).isEmpty)) asked
    rw [ensures_bind]
    refine ⟨⟨rfl, by simp⟩, fun _ => ?_⟩
    refine (sweeping_unassigns regions (asked || true)).mono sweeping_monotone ?_
    rintro _ after rfl
    simp

/-- A server is busy if a region on it was asked to be unassigned. -/
theorem sweeping_drainServer (m : Move) (regions : List Region) (kept : List TableName)
    (s : ServerAddress) : (drainServer m regions kept s).Ensures sweeping
      (fun busy after => after = (asked || busy)) asked := by
  unfold drainServer
  refine sweeping_ask ⟨rfl, by simp⟩ rfl fun _ => ?_
  generalize regions.filter (fun r => r.table ∉ kept) = misplaced
  rw [ensures_bind]
  refine (sweeping_unassigns misplaced asked).mono sweeping_monotone ?_
  rintro _ after rfl
  cases misplaced with
  | nil => exact sweeping_ask ⟨rfl, by simp⟩ rfl fun _ => by simp
  | cons r misplaced => simp

theorem sweeping_drainServers (m : Move) (regionsOn : ServerAddress → List Region)
    (kept : List TableName) : ∀ (pending : List ServerAddress) (asked : Bool),
      (drainServers m regionsOn kept pending).Ensures sweeping
        (fun busy after => after = (asked || !busy.isEmpty)) asked
  | [], asked => by
    show asked = (asked || false)
    simp
  | s :: rest, asked => by
    unfold drainServers
    rw [ensures_bind]
    refine (sweeping_drainServer m (regionsOn s) kept s).mono sweeping_monotone ?_
    rintro busy after rfl
    rw [ensures_bind]
    refine (sweeping_drainServers m regionsOn kept rest _).mono sweeping_monotone ?_
    rintro others after rfl
    cases busy <;> simp

/-- A pass returns no server exactly if it has not asked for any region to be unassigned. -/
theorem sweeping_drainPass (c : Config) (m : Move) : (drainPass c m).Ensures sweeping
    (fun busy asked => busy = [] ↔ asked = false) false := by
  have hservers : ∀ regionsOn kept pending, (drainServers m regionsOn kept pending).Ensures sweeping
      (fun busy asked => busy = [] ↔ asked = false) false := by
    intro regionsOn kept pending
    refine (sweeping_drainServers m regionsOn kept pending false).mono sweeping_monotone ?_
    rintro busy asked rfl
    simp
  unfold drainPass
  refine sweeping_ask ⟨rfl, by simp⟩ rfl fun assignments => ?_
  refine sweeping_ask ⟨rfl, by simp⟩ rfl fun transitions => ?_
  refine sweeping_ask ⟨rfl, by simp⟩ rfl fun answer => ?_
  rcases answer with - | g
  · exact hservers _ _ _
  · rw [ensures_bind]
    have howned : (owned g (tablesInUse assignments transitions)).Only
        (fun q => q.Sweeps ∧ q.unassigns = false) fun _ => False :=
      only_ownedAmong (fun t => ⟨⟨rfl, by simp⟩, rfl⟩) g _
    refine (howned.ensures (R := sweeping) (x := false) ?_ fun _ h => h).mono sweeping_monotone ?_
    · rintro q post ⟨hq, hnot⟩ hpost
      refine ⟨hq, fun answer => ?_⟩
      rw [hnot]
      exact hpost answer
    · rintro kept _ rfl
      exact hservers _ _ _

end Coordinator

/-! ### Ends of a drain -/

/-- How a drain can end: the phase and the ending that it leaves, the error of a pass, whether there
was a crash, whether a pass has found every server clear, and the reply to the last hook. -/
inductive Exit : Phase → Ending → Option Error → Prop → Prop → Option (Reply Unit) → Prop
  | failed (cause : Error) : Exit .failed (.failed cause) (some cause) False False none
  | crashed : Exit .draining .crashed none True False none
  | completed : Exit .settled .completed none False True (some (.answered ()))
  | refused (cause : Error) : Exit .settled (.failed cause) none False True (some (.failed cause))
  | broken : Exit .settled .crashed none True True (some .crashed)

/-- One phase may come after another one. -/
inductive Phase.Advances : Phase → Phase → Prop
  | stays (p : Phase) : Advances p p
  | drains : Advances .mutated .draining
  | settles : Advances .draining .settled
  | fails : Advances .draining .failed

/-- The record of a move of some servers to a target. -/
structure World.Records (w : World) (number : Nat) (servers : ServerSet) (target : String)
    (mv : Move) : Prop where
  move : w.moves[number]? = some mv
  servers : mv.servers = servers
  target : mv.target = target

open Moment

/-- How far a drain has come, and what has been seen of it. -/
inductive Course (number : Nat) (servers : ServerSet) (target : String) :
    List (Moment × Moment) → Moment → Prop
  | rests {steps m mv} (hm : m.world.Records number servers target mv) (he : mv.ending = none)
      (hphase : mv.phase = .mutated ∨ mv.phase = .draining)
      (hrun : ∀ a, m.running = some a → ¬ a.agent.Serves number)
      (hseen : Seen number servers target steps none False False none) :
      Course number servers target steps m
  | passes {steps w owed waiting mv asked} {rest : Program (List ServerAddress)}
      (hm : w.Records number servers target mv) (he : mv.ending = none)
      (hphase : mv.phase = .draining)
      (hrest : rest.Ensures sweeping (fun busy asked => busy = [] ↔ asked = false) asked)
      (hasked : Unasked number steps ↔ asked = false)
      (hseen : Seen number servers target steps none False False none) :
      Course number servers target steps ⟨w, some ⟨.pass number mv, owed, rest⟩, waiting⟩
  | finishes {steps w owed waiting mv heard} {rest : Program Unit}
      (hm : w.Records number servers target mv) (he : mv.ending = none)
      (hphase : mv.phase = .settled)
      (hrest : (heard = none ∧ rest = Coordinator.finishMove mv) ∨
        (heard = some (.answered ()) ∧
          (rest = note (.moveDone mv.source mv.target) ∨ rest = done ())))
      (hseen : Seen number servers target steps none False True heard) :
      Course number servers target steps ⟨w, some ⟨.finish number mv, owed, rest⟩, waiting⟩
  | ended {steps m mv ending failure crash clear heard}
      (hm : m.world.Records number servers target mv) (he : mv.ending = some ending)
      (hrun : ∀ a, m.running = some a → ¬ a.agent.Serves number)
      (hexit : Exit mv.phase ending failure crash clear heard)
      (hseen : Seen number servers target steps failure crash clear heard)
      (hleft : ∀ x ∈ steps, CrashesAt number x.1 x.2 →
        ∃ before, x.1.world.moves[number]? = some before ∧ before.phase = mv.phase) :
      Course number servers target steps m

variable {E : Setting} {m m' : Moment} {number : Nat} {servers : ServerSet} {target : String}
variable {steps : List (Moment × Moment)} {mv : Move} {w w' : World} {waiting : List Activity}

/-! ### Steps on which nobody works on the drain -/

theorem Moment.unserved_close {a : Agent} {ended : Progress a.Result} (ha : ¬ a.Serves number) :
    ∀ b, (close w waiting a ended).running = some b → ¬ b.agent.Serves number := by
  intro b hb
  cases a with
  | operation o => cases hb
  | pass n y =>
    cases ended with
    | returned busy =>
      cases busy with
      | nil =>
        cases hb
        exact ha
      | cons s busy => cases hb
    | _ => cases hb
  | finish n y => cases hb

/-- What happens outside leaves the records of moves as they are. -/
def Setting.SparesMoves (E : Setting) : Prop := ∀ {w w' : World} {number : Nat} {mv : Move},
  E.outside w w' → w.moves[number]? = some mv → w'.moves[number]? = some mv

theorem Setting.Spares.sparesMoves (hE : E.Spares) : E.SparesMoves := by
  intro w w' number mv ho hm
  rw [(hE ho).moves]
  exact hm

/-- While nobody works on a drain its record stays, or its next pass begins. -/
theorem Moment.Step.unserved (hE : E.SparesMoves) (hwait : ∀ a ∈ m.waiting, ∃ o, a.agent = .operation o)
    (hm : m.world.moves[number]? = some mv)
    (hrun : ∀ a, m.running = some a → ¬ a.agent.Serves number) (hs : m.Step E m') :
    (m'.world.moves[number]? = some mv ∧ ∀ a, m'.running = some a → ¬ a.agent.Serves number) ∨
      (mv.ending = none ∧ m.running = none ∧ m' = ⟨m.world.setMove number mv.drain,
        some (.ofPass m.world.config number mv.drain), m.waiting⟩) := by
  cases hs with
  | outside ho => exact .inl ⟨hE ho hm, hrun⟩
  | ticks time => exact .inl ⟨hm, hrun⟩
  | begins ho => exact .inl ⟨hm, by rintro a ⟨⟩; exact id⟩
  | @drains w waiting n y hy he =>
    by_cases hn : n = number
    · subst hn
      obtain rfl := Option.some.inj (hy.symm.trans hm)
      exact .inr ⟨he, rfl, rfl⟩
    · refine .inl ⟨?_, by rintro a ⟨⟩; exact hn⟩
      show (w.moves.setIfInBounds n _)[number]? = some mv
      rw [Array.getElem?_setIfInBounds_ne hn]
      exact hm
  | @answers w w' waiting agent owed q next answer h =>
    have hagent : ¬ agent.Serves number := hrun _ rfl
    exact .inl ⟨World.moves_meet h hm, by rintro a ⟨⟩; exact hagent⟩
  | ends he =>
    have hagent := hrun _ rfl
    refine .inl ⟨moves_close hagent ?_, unserved_close hagent⟩
    rw [he.alike.moves]
    exact hm
  | waits hq => exact .inl ⟨hm, by rintro a ⟨⟩⟩
  | @resumes w before activity after =>
    obtain ⟨o, ho⟩ := hwait activity (by simp)
    refine .inl ⟨hm, ?_⟩
    rintro a ⟨⟩
    rw [ho]
    exact id
  | drops ha => exact .inl ⟨hm, by rintro a ⟨⟩⟩

/-! ### Steps of a pass -/

/-- Only a call can fail or crash among the requests of a drain. -/
theorem World.call_of_not_answered {q : Request} (hq : q.reads = true) {reply : Reply q.Answer}
    (hm : w.meet q = (reply, w')) (hr : ∀ answer, reply ≠ .answered answer) :
    ∃ c, q = .call c := by
  cases q with
  | call c => exact ⟨c, rfl⟩
  | note n =>
    obtain ⟨rfl, -⟩ := Prod.mk.inj hm
    exact absurd rfl (hr _)
  | reservations =>
    obtain ⟨rfl, -⟩ := Prod.mk.inj hm
    exact absurd rfl (hr _)
  | _ => cases hq

theorem World.Records.of_moves (h : w.Records number servers target mv)
    (hm : w'.moves[number]? = some mv) : w'.Records number servers target mv :=
  ⟨hm, h.servers, h.target⟩

/-- The record of the drain is replaced. -/
theorem World.Records.setMove (h : w.Records number servers target mv) {y : Move}
    (hservers : y.servers = mv.servers) (htarget : y.target = mv.target) :
    (w.setMove number y).Records number servers target y := by
  obtain ⟨hlt, -⟩ := Array.getElem?_eq_some_iff.1 h.move
  refine ⟨?_, hservers.trans h.servers, htarget.trans h.target⟩
  show (w.moves.setIfInBounds number y)[number]? = some y
  rw [Array.getElem?_setIfInBounds_self_of_lt hlt]

/-- The drain is ended, and its record says how. -/
theorem World.Records.endMove (h : w.Records number servers target mv) (ending : Ending) :
    (w.endMove number mv ending).Records number servers target { mv with ending := some ending } :=
  have hset := h.setMove (y := { mv with ending := some ending }) rfl rfl
  ⟨hset.move, hset.servers, hset.target⟩

/-- A program that is done makes no call. -/
theorem Moment.not_calls_of_done {a b : Agent} {owed : Set Region} {result : b.Result} {c : Call}
    {reply : Reply c.Answer} :
    ¬ (⟨w, some ⟨b, owed, .done result⟩, waiting⟩ : Moment).Calls a c reply m' := by
  intro hc
  obtain ⟨owed', next', hrun, -⟩ := hc.before
  cases hrun

/-- The first crash that is seen of a drain finds it in the phase that it is in. -/
theorem Moment.Seen.phase_of_crash {failure : Option Error} {clear : Prop}
    {heard : Option (Reply Unit)} {phase : Phase}
    (hseen : Seen number servers target steps failure False clear heard)
    (hm : m.world.Records number servers target mv) (hphase : mv.phase = phase) :
    ∀ x ∈ (m, m') :: steps, CrashesAt number x.1 x.2 →
      ∃ before, x.1.world.moves[number]? = some before ∧ before.phase = phase := by
  intro x hx hcrash
  rcases List.mem_cons.1 hx with rfl | hx
  · exact ⟨mv, hm.move, hphase⟩
  · exact (hseen.crashed.1 ⟨x, hx, hcrash⟩).elim

section Serving

variable {owed : Set Region} {asked : Bool}

/-- A pass is replied. -/
theorem Course.passes_answers {q : Request} {next : q.Answer → Program (List ServerAddress)}
    {answer : q.Answer} (hm : w.Records number servers target mv) (he : mv.ending = none)
    (hphase : mv.phase = .draining)
    (hrest : (ask q next).Ensures sweeping (fun busy asked => busy = [] ↔ asked = false) asked)
    (hasked : Unasked number steps ↔ asked = false)
    (hseen : Seen number servers target steps none False False none)
    (h : w.meet q = (.answered answer, w')) :
    Course number servers target
      ((⟨w, some ⟨.pass number mv, owed, .ask q next⟩, waiting⟩,
        ⟨w', some ⟨.pass number mv, q.owed answer owed, next answer⟩, waiting⟩) :: steps)
      ⟨w', some ⟨.pass number mv, q.owed answer owed, next answer⟩, waiting⟩ := by
  obtain ⟨hsweeps, hnext⟩ := hrest
  refine .passes (hm.of_moves (World.moves_meet h hm.move)) he hphase (hnext answer) ?_ ?_
  · rw [unasked_cons (by simp), hasked, Bool.or_eq_false_iff]
    refine and_congr_right fun _ => ?_
    -- the pass asks for a region to be unassigned exactly if that is its request
    constructor
    · intro hnot
      by_contra hq
      cases q with
      | call c =>
        cases c with
        | unassign r => exact hnot ⟨mv, r, .answered answer, .answered h⟩
        | _ => exact hq rfl
      | _ => exact hq rfl
    · rintro hq ⟨mv', r, reply, hc⟩
      obtain ⟨owed', next', hrun, -⟩ := hc.before
      cases hrun
      cases hq
  · refine hseen.same (fun a c reply _ hc => ?_) ?_
    · obtain ⟨owed', next', hrun, hreply⟩ := hc.before
      cases hrun
      refine ⟨⟨answer, ?_⟩, fun k hk => hsweeps.2 k (by rw [hk])⟩
      rw [← hreply, h]
    · rintro ⟨mv', owed', busy, hrun, -⟩
      cases hrun

/-- A pass returns. -/
theorem Course.passes_returns {busy : List ServerAddress}
    (hm : w.Records number servers target mv) (he : mv.ending = none)
    (hphase : mv.phase = .draining) (hbusy : busy = [] ↔ asked = false)
    (hasked : Unasked number steps ↔ asked = false)
    (hseen : Seen number servers target steps none False False none) :
    Course number servers target
      ((⟨w, some ⟨.pass number mv, owed, .done busy⟩, waiting⟩,
        close w waiting (.pass number mv) (.returned busy)) :: steps)
      (close w waiting (.pass number mv) (.returned busy)) := by
  have hreturns : ReturnsAt number ⟨w, some ⟨.pass number mv, owed, .done busy⟩, waiting⟩
      (close w waiting (.pass number mv) (.returned busy)) := ⟨mv, owed, busy, rfl, rfl⟩
  cases busy with
  | nil =>
    refine .finishes (hm.setMove rfl rfl) he rfl (.inl ⟨rfl, rfl⟩) (hseen.cons ?_ ?_ ?_ ?_)
    · exact fun cause => or_iff_right fun ⟨mv', c, hc⟩ => not_calls_of_done hc
    · exact or_iff_right fun ⟨a, c, _, hc⟩ => not_calls_of_done hc
    · exact ⟨fun _ => trivial, fun _ => .inl ⟨hreturns, hasked.2 (hbusy.1 rfl)⟩⟩
    · exact fun reply => or_iff_right fun ⟨a, _, hc⟩ => not_calls_of_done hc
  | cons s busy =>
    refine .rests (hm.setMove rfl rfl) he (.inr hphase) (by rintro a ⟨⟩) (hseen.same ?_ ?_)
    · exact fun a c reply _ hc => absurd hc not_calls_of_done
    · intro _ hunasked
      cases hbusy.2 (hasked.1 hunasked)

/-- A call of a pass fails, and the drain is over. -/
theorem Course.passes_fails {c : Call} {next : c.Answer → Program (List ServerAddress)}
    {cause : Error} (hm : w.Records number servers target mv) (hhook : ∀ k, c ≠ .hook k)
    (hseen : Seen number servers target steps none False False none)
    (h : w.meet (.call c) = (.failed cause, w')) :
    Course number servers target
      ((⟨w, some ⟨.pass number mv, owed, .ask (.call c) next⟩, waiting⟩,
        close w' waiting (.pass number mv) (.failed cause)) :: steps)
      (close w' waiting (.pass number mv) (.failed cause)) := by
  have hmove := (hm.of_moves (World.moves_meet h hm.move)).setMove
    (y := { mv with phase := .failed, ending := some (.failed cause) }) rfl rfl
  have hcalls : (⟨w, some ⟨.pass number mv, owed, .ask (.call c) next⟩, waiting⟩ : Moment).Calls
      (.pass number mv) c (.failed cause) (close w' waiting (.pass number mv) (.failed cause)) :=
    .failed h
  refine .ended ⟨hmove.move, hmove.servers, hmove.target⟩ rfl (by rintro a ⟨⟩) (.failed cause)
    (hseen.replied hcalls (fun cause' => ?_) (by simp) fun reply' => ?_) fun x hx hcrash => ?_
  · simp
  · simp [hhook]
  · rcases List.mem_cons.1 hx with rfl | hx
    · exact absurd (hcalls.crashesAt_iff.1 hcrash).2 (by simp)
    · exact (hseen.crashed.1 ⟨x, hx, hcrash⟩).elim

/-- A call of a pass crashes, and the drain is over. -/
theorem Course.passes_crashes {c : Call} {next : c.Answer → Program (List ServerAddress)}
    (hm : w.Records number servers target mv) (hphase : mv.phase = .draining)
    (hhook : ∀ k, c ≠ .hook k)
    (hseen : Seen number servers target steps none False False none)
    (h : w.meet (.call c) = (.crashed, w')) :
    Course number servers target
      ((⟨w, some ⟨.pass number mv, owed, .ask (.call c) next⟩, waiting⟩,
        close w' waiting (.pass number mv) .crashed) :: steps)
      (close w' waiting (.pass number mv) .crashed) := by
  have hmove := (hm.of_moves (World.moves_meet h hm.move)).endMove .crashed
  have hcalls : (⟨w, some ⟨.pass number mv, owed, .ask (.call c) next⟩, waiting⟩ : Moment).Calls
      (.pass number mv) c .crashed (close w' waiting (.pass number mv) .crashed) := .crashed h
  have hexit : Exit mv.phase .crashed none True False none := hphase ▸ .crashed
  refine .ended hmove rfl (by rintro a ⟨⟩) hexit
    (hseen.replied hcalls (fun cause' => ?_) (by simp [Agent.Serves]) fun reply' => ?_)
    (hseen.phase_of_crash hm rfl)
  · simp
  · simp [hhook]

/-! ### Steps after the last pass -/

theorem Coordinator.finishMove_eq (mv : Move) : finishMove mv =
    ask (.call (.hook (.postMoveServers mv.servers mv.target)))
      fun _ => note (.moveDone mv.source mv.target) := rfl

/-- The hook that follows the last pass, or the report after it, is replied. -/
theorem Course.finishes_answers {heard : Option (Reply Unit)} {q : Request}
    {next : q.Answer → Program Unit} {answer : q.Answer} (hm : w.Records number servers target mv)
    (he : mv.ending = none) (hphase : mv.phase = .settled)
    (hrest : (heard = none ∧ ask q next = Coordinator.finishMove mv) ∨
      (heard = some (.answered ()) ∧
        (ask q next = note (.moveDone mv.source mv.target) ∨ ask q next = done ())))
    (hseen : Seen number servers target steps none False True heard)
    (h : w.meet q = (.answered answer, w')) :
    Course number servers target
      ((⟨w, some ⟨.finish number mv, owed, .ask q next⟩, waiting⟩,
        ⟨w', some ⟨.finish number mv, q.owed answer owed, next answer⟩, waiting⟩) :: steps)
      ⟨w', some ⟨.finish number mv, q.owed answer owed, next answer⟩, waiting⟩ := by
  have hm' := hm.of_moves (World.moves_meet h hm.move)
  rcases hrest with ⟨rfl, hrest⟩ | ⟨rfl, hrest | hrest⟩
  · rw [Coordinator.finishMove_eq] at hrest
    cases hrest
    refine .finishes hm' he hphase (.inr ⟨rfl, .inl rfl⟩) (hseen.replied (.answered h) ?_ ?_ ?_)
    · simp
    · simp
    · intro reply
      simp [Agent.Serves, ← hm.servers, ← hm.target]
  · cases hrest
    refine .finishes hm' he hphase (.inr ⟨rfl, .inr rfl⟩) (hseen.same (fun a c reply _ hc => ?_) ?_)
    · obtain ⟨owed', next', hrun, -⟩ := hc.before
      cases hrun
    · rintro ⟨mv', owed', busy, hrun, -⟩
      cases hrun
  · cases hrest

/-- The hook that follows the last pass fails, and the drain is over. -/
theorem Course.finishes_fails {next : Unit → Program Unit} {cause : Error}
    (hm : w.Records number servers target mv) (hphase : mv.phase = .settled)
    (hseen : Seen number servers target steps none False True none)
    (h : w.meet (.call (.hook (.postMoveServers mv.servers mv.target))) = (.failed cause, w')) :
    Course number servers target
      ((⟨w, some ⟨.finish number mv, owed, .ask (.call (.hook (.postMoveServers mv.servers mv.target)))
          next⟩, waiting⟩, close w' waiting (.finish number mv) (.failed cause)) :: steps)
      (close w' waiting (.finish number mv) (.failed cause)) := by
  have hmove := (hm.of_moves (World.moves_meet h hm.move)).endMove (.failed cause)
  have hexit : Exit mv.phase (.failed cause) none False True (some (.failed cause)) :=
    hphase ▸ .refused cause
  refine .ended hmove rfl (by rintro a ⟨⟩) hexit
    (hseen.replied (.failed h) (fun cause' => ?_) (by simp) fun reply => ?_)
    (hseen.phase_of_crash hm rfl)
  · simp
  · simp [Agent.Serves, ← hm.servers, ← hm.target]

/-- The hook that follows the last pass crashes, and the drain is over. -/
theorem Course.finishes_crashes {next : Unit → Program Unit}
    (hm : w.Records number servers target mv) (hphase : mv.phase = .settled)
    (hseen : Seen number servers target steps none False True none)
    (h : w.meet (.call (.hook (.postMoveServers mv.servers mv.target))) = (.crashed, w')) :
    Course number servers target
      ((⟨w, some ⟨.finish number mv, owed, .ask (.call (.hook (.postMoveServers mv.servers mv.target)))
          next⟩, waiting⟩, close w' waiting (.finish number mv) .crashed) :: steps)
      (close w' waiting (.finish number mv) .crashed) := by
  have hmove := (hm.of_moves (World.moves_meet h hm.move)).endMove .crashed
  have hexit : Exit mv.phase .crashed none True True (some .crashed) := hphase ▸ .broken
  refine .ended hmove rfl (by rintro a ⟨⟩) hexit
    (hseen.replied (.crashed h) (fun cause' => ?_) (by simp [Agent.Serves]) fun reply => ?_)
    (hseen.phase_of_crash hm rfl)
  · simp
  · simp [Agent.Serves, ← hm.servers, ← hm.target]

/-- What follows the last pass is done, and the drain is over. -/
theorem Course.finishes_returns (hm : w.Records number servers target mv)
    (hphase : mv.phase = .settled)
    (hseen : Seen number servers target steps none False True (some (.answered ()))) :
    Course number servers target
      ((⟨w, some ⟨.finish number mv, owed, .done ()⟩, waiting⟩,
        close w waiting (.finish number mv) (.returned ())) :: steps)
      (close w waiting (.finish number mv) (.returned ())) := by
  have hexit : Exit mv.phase .completed none False True (some (.answered ())) :=
    hphase ▸ .completed
  refine .ended (hm.endMove .completed) rfl (by rintro a ⟨⟩) hexit (hseen.same ?_ ?_)
    (hseen.phase_of_crash hm rfl)
  · exact fun a c reply _ hc => absurd hc not_calls_of_done
  · rintro ⟨mv', owed', busy, hrun, -⟩
    cases hrun

/-- The drain is over when what follows the last pass ends. -/
theorem Course.finishes_ends {heard : Option (Reply Unit)} {rest : Program Unit}
    {ended : Progress Unit} (hm : w.Records number servers target mv) (hphase : mv.phase = .settled)
    (hrest : (heard = none ∧ rest = Coordinator.finishMove mv) ∨
      (heard = some (.answered ()) ∧
        (rest = note (.moveDone mv.source mv.target) ∨ rest = done ())))
    (hseen : Seen number servers target steps none False True heard)
    (h : w.Ends rest ended w') :
    Course number servers target
      ((⟨w, some ⟨.finish number mv, owed, rest⟩, waiting⟩,
        close w' waiting (.finish number mv) ended) :: steps)
      (close w' waiting (.finish number mv) ended) := by
  rcases hrest with ⟨rfl, rfl⟩ | ⟨rfl, rfl | rfl⟩
  · rw [Coordinator.finishMove_eq] at h ⊢
    cases h with
    | failed h => exact finishes_fails hm hphase hseen h
    | crashed h => exact finishes_crashes hm hphase hseen h
  · -- a report is always replied
    cases h with
    | failed h => cases (Prod.mk.inj h).1
    | crashed h => cases (Prod.mk.inj h).1
  · cases h
    exact finishes_returns hm hphase hseen

end Serving

/-! ### Every step -/

/-- Every step keeps a drain to its course. -/
theorem Course.step (hE : E.SparesMoves) (hwait : ∀ a ∈ m.waiting, ∃ o, a.agent = .operation o)
    (h : Course number servers target steps m) (hs : m.Step E m') :
    Course number servers target ((m, m') :: steps) m' := by
  cases h with
  | @rests _ mv hm he hphase hrun hseen =>
    have hseen' : Seen number servers target ((m, m') :: steps) none False False none :=
      hseen.unserved hrun
    rcases hs.unserved hE hwait hm.move hrun with ⟨hm', hrun'⟩ | ⟨-, hnone, rfl⟩
    · exact .rests (hm.of_moves hm') he hphase hrun' hseen'
    · refine .passes (hm.setMove rfl rfl) he rfl (Coordinator.sweeping_drainPass _ _) ?_ hseen'
      exact iff_of_true (.begins ⟨hnone, mv.drain, rfl⟩) rfl
  | @ended _ mv ending failure crash clear heard hm he hrun hexit hseen hleft =>
    have hseen' : Seen number servers target ((m, m') :: steps) failure crash clear heard :=
      hseen.unserved hrun
    rcases hs.unserved hE hwait hm.move hrun with ⟨hm', hrun'⟩ | ⟨hnone, -, -⟩
    · refine .ended (hm.of_moves hm') he hrun' hexit hseen' fun x hx hcrash => ?_
      rcases List.mem_cons.1 hx with rfl | hx
      · obtain ⟨a, c, ha, hc⟩ := hcrash
        obtain ⟨owed, next, hr, -⟩ := hc.before
        exact absurd ha (hrun _ hr)
      · exact hleft x hx hcrash
    · cases he.symm.trans hnone
  | @passes w owed waiting mv asked rest hm he hphase hrest hasked hseen =>
    -- what happens outside asks for nothing, so the pass stands where it stood
    have hstays : ∀ {w'}, w'.moves[number]? = some mv → Course number servers target
        ((⟨w, some ⟨.pass number mv, owed, rest⟩, waiting⟩,
          ⟨w', some ⟨.pass number mv, owed, rest⟩, waiting⟩) :: steps)
        ⟨w', some ⟨.pass number mv, owed, rest⟩, waiting⟩ := by
      intro w' hmove
      refine .passes (hm.of_moves hmove) he hphase hrest ?_ (hseen.stays rfl)
      rw [unasked_cons (by simp), hasked]
      refine and_iff_left ?_
      rintro ⟨mv', r, reply, hc⟩
      exact hc.running_ne rfl
    cases hs with
    | outside ho => exact hstays (hE ho hm.move)
    | ticks time => exact hstays hm.move
    | answers h => exact passes_answers hm he hphase hrest hasked hseen h
    | ends hends =>
      cases hends with
      | returned => exact passes_returns hm he hphase hrest hasked hseen
      | refused => exact hrest.elim
      | failed h =>
        obtain ⟨c, rfl⟩ := World.call_of_not_answered hrest.1.1 h fun _ => by simp
        exact passes_fails hm (fun k hk => hrest.1.2 k (by rw [hk])) hseen h
      | crashed h =>
        obtain ⟨c, rfl⟩ := World.call_of_not_answered hrest.1.1 h fun _ => by simp
        exact passes_crashes hm hphase (fun k hk => hrest.1.2 k (by rw [hk])) hseen h
  | @finishes w owed waiting mv heard rest hm he hphase hrest hseen =>
    cases hs with
    | outside ho =>
      exact .finishes (hm.of_moves (hE ho hm.move)) he hphase hrest (hseen.stays rfl)
    | ticks time => exact .finishes (hm.of_moves hm.move) he hphase hrest (hseen.stays rfl)
    | answers h => exact finishes_answers hm he hphase hrest hseen h
    | ends hends => exact finishes_ends hm hphase hrest hseen hends

/-! ### Phases -/

/-- The end of a pass leaves its drain draining, settled or failed. -/
theorem Moment.advances_close_pass {ended : Progress (List ServerAddress)} {mv' : Move}
    (hm : w.moves[number]? = some mv) (hphase : mv.phase = .draining)
    (hm' : (close w waiting (.pass number mv) ended).world.moves[number]? = some mv') :
    Phase.Advances .draining mv'.phase := by
  obtain ⟨hlt, -⟩ := Array.getElem?_eq_some_iff.1 hm
  have hset : ∀ {y : Move}, (w.moves.setIfInBounds number y)[number]? = some mv' → y = mv' := by
    intro y hy
    rw [Array.getElem?_setIfInBounds_self_of_lt hlt] at hy
    exact Option.some.inj hy
  cases ended with
  | returned busy =>
    cases busy with
    | nil =>
      rw [← hset hm']
      exact .settles
    | cons s busy =>
      rw [← hset hm']
      exact hphase ▸ .stays _
  | failed cause =>
    rw [← hset hm']
    exact .fails
  | crashed =>
    rw [← hset hm']
    exact hphase ▸ .stays _
  | waiting rest =>
    rw [← hset hm']
    exact hphase ▸ .stays _

/-- The end of what follows the last pass leaves the phase as it is. -/
theorem Moment.phase_close_finish {ended : Progress Unit} {mv' : Move}
    (hm : w.moves[number]? = some mv)
    (hm' : (close w waiting (.finish number mv) ended).world.moves[number]? = some mv') :
    mv'.phase = mv.phase := by
  obtain ⟨hlt, -⟩ := Array.getElem?_eq_some_iff.1 hm
  cases ended <;>
    rw [← Option.some.inj ((Array.getElem?_setIfInBounds_self_of_lt hlt).symm.trans hm')]

/-- On every step of its course the phase of a drain stays or advances. -/
theorem Course.advances (hE : E.Spares) (hwait : ∀ a ∈ m.waiting, ∃ o, a.agent = .operation o)
    (h : Course number servers target steps m) (hs : m.Step E m') {mv mv' : Move}
    (hm : m.world.moves[number]? = some mv) (hm' : m'.world.moves[number]? = some mv') :
    mv.phase.Advances mv'.phase := by
  have hstays : ∀ {x : Move}, x.phase = mv.phase → m'.world.moves[number]? = some x →
      mv.phase.Advances mv'.phase := by
    intro x hphase hx
    obtain rfl := Option.some.inj (hx.symm.trans hm')
    exact hphase ▸ .stays _
  cases h with
  | @rests _ x hx he hphase hrun hseen =>
    obtain rfl := Option.some.inj (hx.move.symm.trans hm)
    rcases hs.unserved hE.sparesMoves hwait hm hrun with ⟨hsame, -⟩ | ⟨-, -, rfl⟩
    · exact hstays rfl hsame
    · obtain rfl := Option.some.inj ((hx.setMove (y := x.drain) rfl rfl).move.symm.trans hm')
      rcases hphase with hphase | hphase <;> rw [hphase]
      · exact .drains
      · exact .stays _
  | @ended _ x ending failure crash clear heard hx he hrun =>
    obtain rfl := Option.some.inj (hx.move.symm.trans hm)
    rcases hs.unserved hE.sparesMoves hwait hm hrun with ⟨hsame, -⟩ | ⟨hnone, -, -⟩
    · exact hstays rfl hsame
    · cases he.symm.trans hnone
  | @passes w owed waiting x asked rest hx he hphase =>
    obtain rfl := Option.some.inj (hx.move.symm.trans hm)
    cases hs with
    | outside ho => exact hstays rfl ((hE ho).moves ▸ hm)
    | ticks time => exact hstays rfl hm
    | answers h => exact hstays rfl (World.moves_meet h hm)
    | ends hends =>
      rw [hphase]
      exact advances_close_pass (hends.alike.moves ▸ hm) hphase hm'
  | @finishes w owed waiting x heard rest hx =>
    obtain rfl := Option.some.inj (hx.move.symm.trans hm)
    cases hs with
    | outside ho => exact hstays rfl ((hE ho).moves ▸ hm)
    | ticks time => exact hstays rfl hm
    | answers h => exact hstays rfl (World.moves_meet h hm)
    | ends hends => exact hstays (phase_close_finish (hends.alike.moves ▸ hm) hm') hm'

end ServerGroups
