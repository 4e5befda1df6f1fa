/-
ServerGroups/Proofs/Drains/Exits.lean

How the drain of a move can end, and what it leaves.

A drain is followed from the step that launches it (`Moment.StartsAt`) to a
moment at which it has ended, whatever else happens between: other operations,
changes outside, and any failures and crashes of its calls.  Then

    its phase has only advanced                          `Phase.Advances`
    waiting for it comes to what has been seen of it     `Moment.Account`
    its servers have been found clear if it has settled  `Moment.FindsClear`
    it has given back what it held, and nothing else     `Moment.Releases`

(`drain_exits`).

Design.  The servers and the target of the drain are those that the operation
was called for.  That the operation launches no other one is told by a rule of
its own (`naming`), which reckons only with honest answers: a group that is
asked for by name has this name.
-/
import ServerGroups.Proofs.Confinement
import ServerGroups.Proofs.Drains.Survey
import ServerGroups.Proofs.Drains.Turns
import ServerGroups.Proofs.Exclusion.Tracking

namespace ServerGroups

open Program

/-! ### What an operation launches -/

/-- The servers that an operation moves, and their target. -/
def Operation.moves? : Operation → Option (ServerSet × String)
  | startMove servers target | moveServers servers target
  | execute (.moveServers (some servers) (some target)) => some (servers, target)
  | _ => none

/-- A group that is asked for by name has this name. -/
def Request.Honest : (q : Request) → q.Answer → Prop
  | .call (.group name), (answer : Option Group) => ∀ g, answer = some g → g.name = name
  | _, _ => True

/-- Only one move may be launched. -/
def naming (servers : ServerSet) (target : String) : Rule Unit where
  ask q post _ := (∀ launched source goal, q = .launch launched source goal →
      launched = servers ∧ goal = target) ∧
    ∀ answer, q.Honest answer → post answer ()
  fail _ _ := True

section Naming

variable {α β : Type} {servers : ServerSet} {target : String}

theorem naming_monotone : (naming servers target).Monotone :=
  fun h hask => ⟨hask.1, fun a ha => h a () (hask.2 a ha)⟩

/-- A program that launches at most one move, and what is known of its result. -/
def Program.Names (servers : ServerSet) (target : String) (post : α → Prop) (p : Program α) :
    Prop :=
  p.Ensures (naming servers target) (fun result _ => post result) ()

theorem names_bind {p : Program α} {f : α → Program β} {post : α → Prop} {post' : β → Prop}
    (hp : p.Names servers target post) (hf : ∀ a, post a → (f a).Names servers target post') :
    (p >>= f).Names servers target post' := by
  unfold Names
  rw [ensures_bind]
  exact Ensures.mono naming_monotone (fun a _ ha => hf a ha) hp

/-- A request that launches nothing. -/
theorem names_ask {q : Request} (hq : ∀ launched source goal, q ≠ .launch launched source goal) :
    (ask q done).Names servers target q.Honest :=
  ⟨fun launched source goal h => absurd h (hq launched source goal), fun _ ha => ha⟩

theorem names_of_inquiring {p : Program α} (h : p.Inquiring) :
    p.Names servers target fun _ => True := by
  have hsame := h.ensures (R := naming servers target) (x := ()) ?_ fun _ _ => trivial
  · exact Ensures.mono naming_monotone (fun _ _ _ => trivial) hsame
  · rintro q post hq hpost
    refine ⟨?_, fun answer _ => hpost answer⟩
    rintro launched source goal rfl
    cases hq

namespace Coordinator

theorem names_targetGroup (target : String) :
    (targetGroup target).Names servers target fun g => g.name = target := by
  refine names_bind (names_of_inquiring (Only.refuseIf trivial)) fun _ _ => ?_
  refine names_bind (names_ask (by simp)) fun answer hanswer => ?_
  rcases answer with - | g
  · trivial
  · exact hanswer g rfl

theorem names_changeMembership (first : ServerAddress) (servers : ServerSet) (target : String) :
    (changeMembership first servers target).Names servers target
      fun groups => groups.2.name = target := by
  refine names_bind (names_ask (by simp)) fun _ _ => ?_
  refine names_bind (names_targetGroup target) fun goal hgoal => ?_
  refine names_bind (names_of_inquiring (checking_groupOf first).inquiring) fun source _ => ?_
  refine names_bind (names_of_inquiring (Only.refuseIf trivial)) fun _ _ => ?_
  refine names_bind (names_of_inquiring (checking_checkOnline source servers).inquiring)
    fun _ _ => ?_
  refine names_bind (names_of_inquiring (Only.forM (checking_checkSource source) _).inquiring)
    fun _ _ => ?_
  refine names_bind (names_of_inquiring (Only.refuseIf trivial)) fun _ _ => ?_
  refine names_bind (names_ask (by simp)) fun _ _ => ?_
  refine names_bind (names_ask (by simp)) fun moved _ => ?_
  exact names_bind (names_ask (by simp)) fun _ _ => hgoal

theorem names_startMove (servers : ServerSet) (target : String) :
    (startMove servers target).Names servers target fun _ => True := by
  unfold startMove
  split
  · exact names_bind (names_ask (by simp)) fun _ _ => trivial
  · refine names_bind (names_ask (by simp)) fun reserved _ => ?_
    split
    · trivial
    · refine names_bind (names_ask (by simp)) fun _ _ => ?_
      refine names_bind (names_changeMembership _ servers target) fun groups hgoal => ?_
      refine ⟨?_, fun number _ => trivial⟩
      rintro launched source goal ⟨⟩
      exact ⟨rfl, hgoal⟩

theorem names_moveServers (servers : ServerSet) (target : String) :
    (moveServers servers target).Names servers target fun _ => True := by
  refine names_bind (names_startMove servers target) fun number _ => ?_
  rcases number with - | number
  · trivial
  · refine names_bind (names_ask (by simp)) fun ending _ => ?_
    rcases ending with - | cause | -
    · trivial
    · trivial
    · exact names_bind (names_ask (by simp)) fun _ _ => trivial

end Coordinator

/-- An operation launches the move that it was called for, or none. -/
theorem Operation.names {o : Operation} (ho : o.moves? = some (servers, target)) :
    o.program.Names servers target fun _ => True := by
  cases o with
  | startMove servers target =>
    cases ho
    exact Coordinator.names_startMove _ _
  | moveServers servers target =>
    cases ho
    exact Coordinator.names_moveServers _ _
  | execute c =>
    cases c with
    | moveServers servers target =>
      rcases servers with - | servers
      · cases ho
      rcases target with - | target
      · cases ho
      cases ho
      refine names_bind (names_ask (by simp)) fun _ _ => ?_
      simp only [Command.perform]
      split
      · trivial
      · split
        · trivial
        · trivial
        · next heq =>
          cases heq
          exact names_bind (Coordinator.names_moveServers _ _) fun _ _ => trivial
    | _ => cases ho
  | _ => cases ho

end Naming

/-- What a registry answers is honest. -/
theorem World.honest_of_answered {w w' : World} {q : Request} {answer : q.Answer}
    (hn : w.site.registry.Named) (hm : w.meet q = (.answered answer, w')) : q.Honest answer := by
  cases q with
  | call c =>
    cases c with
    | group name =>
      intro g hg
      obtain rfl : answer = some g := hg
      exact hn (serves_of_answered hm).group.symm
    | _ => trivial
  | _ => trivial

theorem naming_tracks (servers : ServerSet) (target : String) :
    (naming servers target).Tracks (fun o => o.moves? = some (servers, target))
      (fun w => w.site.registry.Named) fun _ _ => True where
  starts ho := ⟨(), Operation.names ho⟩
  rests _ := trivial
  spared _ _ := trivial
  answered hask hn _ hm := ⟨(), hask.2 _ (World.honest_of_answered hn hm), trivial⟩

/-! ### The start of a drain -/

/-- A step launches the drain of the move that an operation was called for.  An operation that only
starts a move returns next. -/
inductive Moment.StartsAt (number : Nat) (servers : ServerSet) (target : String) :
    Moment → Moment → Prop
  | launches {w : World} {waiting : List Activity} {o : Operation} {owed : Set Region}
      {launched : ServerSet} {source goal : String} {next : Nat → Program o.Answer}
      (ho : o.moves? = some (servers, target)) (hn : w.moves.size = number) :
      StartsAt number servers target
        ⟨w, some ⟨.operation o, owed, .ask (.launch launched source goal) next⟩, waiting⟩
        ⟨w.launch launched source goal, some ⟨.operation o, owed, next number⟩, waiting⟩

open Moment

variable {E : Setting} {w : World} {m m' m₀ m₁ : Moment} {number : Nat} {servers : ServerSet}
variable {target : String} {steps : List (Moment × Moment)} {mv : Move}

theorem Moment.Reaches.named (hE : E.Spares) (hw : w.Fresh) (h : Reaches E (.still w) m) :
    m.world.site.registry.Named :=
  Registry.invariant hE.sparesRegistry (fun hn _ hs _ => hs.named hn) hw.named hw.named h

theorem Moment.StartsAt.step (h : m.StartsAt number servers target m') : m.Step E m' := by
  cases h with
  | launches ho hn =>
    subst hn
    exact .answers rfl

/-- The drain is that of the servers that the operation was called for, and it has just begun. -/
theorem Moment.StartsAt.started (hE : E.Spares) (hw : w.Fresh) (h₁ : Reaches E (.still w) m₁)
    (h : m₁.StartsAt number servers target m₀) :
    (∀ a, m₀.running = some a → ¬ a.agent.Serves number) ∧ ∃ c source now,
      m₀.world.Records number servers target (Move.start c servers source target now) := by
  have htracked := (naming_tracks servers target).reaches hE hw (fun h' => h'.named hE hw) h₁
  cases h with
  | @launches v waiting o owed launched source goal next ho hn =>
    obtain ⟨⟨⟩, hfollows, -⟩ := htracked.running rfl rfl ho
    obtain ⟨rfl, rfl⟩ := hfollows.1 launched source goal rfl
    subst hn
    exact ⟨by rintro a ⟨⟩; exact id, v.config, source, v.now, Array.getElem?_push_size, rfl, rfl⟩

/-- On a trail from its start a drain keeps to its course. -/
theorem Moment.Trail.course (hE : E.Spares) (h₀ : Reaches E (.still w) m₀)
    (hc : Course number servers target [] m₀) (h : Trail E m₀ steps m) :
    Course number servers target steps m := by
  induction h with
  | start => exact hc
  | @step steps m m' h hs ih =>
    have hreach : Reaches E (.still w) m := h₀.trans h.reaches
    exact ih.step hE.sparesMoves hreach.waiting hs

/-- On a trail from its start every server of a drain is pending or has been found clear. -/
theorem Moment.Trail.surveyed (hE : E.Spares) (hw : w.Fresh) (h₀ : Reaches E (.still w) m₀)
    (hc : Course number servers target [] m₀) {mv₀ : Move}
    (hstart : Surveyed number servers target [] m₀ mv₀) (h : Trail E m₀ steps m) :
    ∃ mv, Surveyed number servers target steps m mv := by
  induction h with
  | start => exact ⟨mv₀, hstart⟩
  | @step steps m m' h hs ih =>
    obtain ⟨mv, hsurveyed⟩ := ih
    have hreach : Reaches E (.still w) m := h₀.trans h.reaches
    exact hsurveyed.step hE hreach.waiting (hreach.named hE hw) (h.course hE h₀ hc) hs

theorem Course.records (h : Course number servers target steps m) :
    ∃ mv, m.world.Records number servers target mv := by
  cases h with
  | rests hm => exact ⟨_, hm⟩
  | passes hm => exact ⟨_, hm⟩
  | finishes hm => exact ⟨_, hm⟩
  | ended hm => exact ⟨_, hm⟩

/-! ### The end of a drain -/

/-- What waiting for a move comes to once its drain has ended. -/
def Ending.verdict : Ending → Outcome Unit
  | completed => .returned ()
  | failed cause => .failed cause
  | crashed => .failed .internal

theorem World.operate_awaitMove {ending : Ending} (hm : w.moves[number]? = some mv)
    (he : mv.ending = some ending) : (w.operate (.awaitMove number)).1 = ending.verdict := by
  have hmeet : w.meet (.join number) = (.answered ending, w) := by
    simp only [meet, hm, he]
  have hrun : ∀ next : Ending → Program Unit,
      run (.ask (.join number) next) w = run (next ending) w := by
    intro next
    rw [run, hmeet]
  rw [operate_eq (by simp)]
  cases ending with
  | completed => exact congrArg Prod.fst (perform_of_returned (hrun _))
  | failed cause => exact congrArg Prod.fst (perform_of_failed (hrun _))
  | crashed => exact congrArg Prod.fst (perform_of_failed (hrun _))

/-- What has been seen of a drain that has ended, and what waiting for its move comes to. -/
structure Moment.Account (number : Nat) (servers : ServerSet) (target : String)
    (steps : List (Moment × Moment)) (mv : Move) (verdict : Outcome Unit) : Prop where
  failed : mv.phase = .failed ↔ ∃ cause, ∃ x ∈ steps, FailsAt number cause x.1 x.2
  failure : ∀ cause, (∃ x ∈ steps, FailsAt number cause x.1 x.2) → verdict = .failed cause ∧
    ∀ reply, ¬ ∃ x ∈ steps, HearsAt number servers target reply x.1 x.2
  settled : mv.phase = .settled ↔ Clears number steps
  heard : Clears number steps → ∃ reply, ∃ x ∈ steps, HearsAt number servers target reply x.1 x.2
  completed : (∃ x ∈ steps, HearsAt number servers target (.answered ()) x.1 x.2) →
    verdict = .returned ()
  refused : ∀ cause, (∃ x ∈ steps, HearsAt number servers target (.failed cause) x.1 x.2) →
    verdict = .failed cause
  crashed : (∃ x ∈ steps, CrashesAt number x.1 x.2) → verdict = .failed .internal
  exhaustive : (∃ cause, ∃ x ∈ steps, FailsAt number cause x.1 x.2) ∨ Clears number steps ∨
    ∃ x ∈ steps, CrashesAt number x.1 x.2
  left : ∀ x ∈ steps, CrashesAt number x.1 x.2 →
    ∃ before, x.1.world.moves[number]? = some before ∧ before.phase = mv.phase

/-- The table of ends gives the account. -/
theorem Exit.account {ending : Ending} {failure : Option Error} {crash clear : Prop}
    {heard : Option (Reply Unit)} (h : Exit mv.phase ending failure crash clear heard)
    (hseen : Seen number servers target steps failure crash clear heard)
    (hleft : ∀ x ∈ steps, CrashesAt number x.1 x.2 →
      ∃ before, x.1.world.moves[number]? = some before ∧ before.phase = mv.phase) :
    Account number servers target steps mv ending.verdict := by
  generalize hphase : mv.phase = phase at h
  refine ⟨?_, ?_, ?_, ?_, ?_, ?_, ?_, ?_, hleft⟩
  all_goals simp only [hphase, hseen.failed, hseen.crashed, hseen.cleared, hseen.heard]
  all_goals cases h <;> simp [Ending.verdict]

/-- A step ends the drain of a move: what the drain held is given back, and nothing else, and its
servers stay where they belong. -/
structure Moment.Releases (number : Nat) (servers : ServerSet) (target : String) (mv : Move)
    (m m' : Moment) : Prop where
  runs : ∃ before, m.world.Running number before
  ended : m'.world.moves[number]? = some mv
  free : m'.world.locks.isFree .membership false = true
  own : ∀ s ∈ servers, m'.world.reservations.target? s = none
  others : ∀ s, s ∉ servers → m'.world.reservations.target? s = m.world.reservations.target? s
  members : ∀ s ∈ servers, m'.world.site.registry.HasServer target s

/-- A drain that ends gives back what it held. -/
theorem World.At.releases {v : World} {x y : Move} {ending : Ending} (h : v.At .free)
    (hx : v.Records number servers target x) (he : x.ending = none) (hv : m.world.Alike v)
    (hy : y.servers = x.servers) (hm' : m'.world = v.endMove number y ending)
    (hm : m'.world.moves[number]? = some mv) : Releases number servers target mv m m' := by
  have hrun : v.Running number x := ⟨hx.move, he⟩
  obtain ⟨-, honly, -, hmembers⟩ := h.engaged number x hrun
  have htarget : ∀ s, m'.world.reservations.target? s =
      if s ∈ servers then none else m.world.reservations.target? s := by
    intro s
    rw [hm', ← hv.reservations, ← hx.servers, ← hy]
    exact Reservations.target?_release
  refine ⟨⟨x, ?_⟩, hm, ?_, fun s hs => ?_, fun s hs => ?_, fun s hs => ?_⟩
  · rw [Running, ← hv.moves]
    exact hrun
  · rw [hm']
    exact honly.isFree_releaseAll
  · rw [htarget, if_pos hs]
  · rw [htarget, if_neg hs]
  · rw [hm', ← hx.target]
    exact hmembers s (hx.servers ▸ hs)

/-- The step on which a drain ends gives back what the drain held. -/
theorem Course.releases (hE : E.Spares) (hg : guarded.Holds E m) (hx : exclusive.Holds E m)
    (hwait : ∀ a ∈ m.waiting, ∃ o, a.agent = .operation o)
    (h : Course number servers target steps m) (hs : m.Step E m')
    (hbefore : ∀ x, m.world.moves[number]? = some x → x.ending = none)
    (hm : m'.world.moves[number]? = some mv) (he : mv.ending ≠ none) :
    Releases number servers target mv m m' := by
  have hgoes : ∀ {x : Move}, x.ending = none → m'.world.moves[number]? ≠ some x := by
    intro x hnone hx
    obtain rfl := Option.some.inj (hx.symm.trans hm)
    exact he hnone
  have hset : ∀ {v : World} {x : Move}, v.Records number servers target x → ∀ {y : Move},
      y.ending = none → m'.world.moves ≠ (v.setMove number y).moves := by
    intro v x hv y hy hmoves
    obtain ⟨hlt, -⟩ := Array.getElem?_eq_some_iff.1 hv.move
    refine hgoes hy ?_
    rw [hmoves]
    exact Array.getElem?_setIfInBounds_self_of_lt hlt
  cases h with
  | @rests _ x hrecord hnone hphase hrun =>
    rcases hs.unserved hE.sparesMoves hwait hrecord.move hrun with ⟨hsame, -⟩ | ⟨-, -, rfl⟩
    · exact absurd hsame (hgoes hnone)
    · exact absurd rfl (hset hrecord (y := x.drain) hnone)
  | @ended _ x ending failure crash clear heard hrecord hending =>
    cases hending.symm.trans (hbefore x hrecord.move)
  | @passes w owed waiting x asked rest hrecord hnone =>
    cases hs with
    | outside ho => exact absurd ((hE ho).moves ▸ hrecord.move) (hgoes hnone)
    | ticks time => exact absurd hrecord.move (hgoes hnone)
    | answers hmeet => exact absurd (World.moves_meet hmeet hrecord.move) (hgoes hnone)
    | @ends w w' _ _ _ _ ended hends =>
      obtain ⟨hfree, -⟩ := exclusive_closed hg hx hends
      have hrecord' : w'.Records number servers target x :=
        hrecord.of_moves (hends.alike.moves ▸ hrecord.move)
      cases ended with
      | returned busy =>
        cases busy with
        | nil => exact absurd rfl (hset hrecord' (y := x.settle) hnone)
        | cons s busy => exact absurd rfl (hset hrecord' hnone)
      | failed cause =>
        have hreport := World.spares_report w' (.drainFailed x.source x.target cause)
        have halike := hends.alike
        exact (hreport.at hfree).releases (y := { x with phase := .failed })
          (hrecord'.of_moves hrecord'.move) hnone
          ⟨halike.config, halike.reservations, halike.locks, halike.held, halike.moves⟩ rfl rfl hm
      | crashed => exact hfree.releases hrecord' hnone hends.alike rfl rfl hm
      | waiting => exact hfree.releases hrecord' hnone hends.alike rfl rfl hm
  | @finishes w owed waiting x heard rest hrecord hnone =>
    cases hs with
    | outside ho => exact absurd ((hE ho).moves ▸ hrecord.move) (hgoes hnone)
    | ticks time => exact absurd hrecord.move (hgoes hnone)
    | answers hmeet => exact absurd (World.moves_meet hmeet hrecord.move) (hgoes hnone)
    | @ends w w' _ _ _ _ ended hends =>
      obtain ⟨hfree, -⟩ := exclusive_closed hg hx hends
      have hrecord' : w'.Records number servers target x :=
        hrecord.of_moves (hends.alike.moves ▸ hrecord.move)
      cases ended <;> exact hfree.releases hrecord' hnone hends.alike rfl rfl hm

/-! ### Exits -/

/-- On a trail from its start a drain that has ended did so on one of the steps. -/
theorem Moment.Trail.releases (hE : E.Spares) (hw : w.Fresh) (h₀ : Reaches E (.still w) m₀)
    (hc : Course number servers target [] m₀)
    (hstart : ∀ x, m₀.world.moves[number]? = some x → x.ending = none) (h : Trail E m₀ steps m) :
    ∀ {mv : Move}, m.world.moves[number]? = some mv → mv.ending ≠ none →
      ∃ x ∈ steps, Releases number servers target mv x.1 x.2 := by
  induction h with
  | start => exact fun hm he => absurd (hstart _ hm) he
  | @step steps m m' h hs ih =>
    intro mv hm he
    have hreach : Reaches E (.still w) m := h₀.trans h.reaches
    have hcourse := h.course hE h₀ hc
    obtain ⟨hg, hx⟩ := exclusive_holds hE hw hreach
    obtain ⟨before, hbefore, -, -⟩ := hcourse.records
    by_cases hnone : before.ending = none
    · have hstep := hcourse.releases hE hg hx hreach.waiting hs (fun x hx' => ?_) hm he
      · exact ⟨(m, m'), List.mem_cons_self, hstep⟩
      · obtain rfl := Option.some.inj (hbefore.symm.trans hx')
        exact hnone
    · -- a drain that has ended stays as it is
      obtain ⟨x, hx', hrelease⟩ := ih hbefore hnone
      have hsame : m'.world.moves[number]? = some before := by
        cases hcourse with
        | ended hrecord hending hrun =>
          rcases hs.unserved hE.sparesMoves hreach.waiting hbefore hrun with ⟨hsame, -⟩ | ⟨hnone', -, -⟩
          · exact hsame
          · exact absurd hnone' hnone
        | rests hrecord he' | passes hrecord he' | finishes hrecord he' =>
          obtain rfl := Option.some.inj (hrecord.move.symm.trans hbefore)
          exact absurd he' hnone
      obtain rfl := Option.some.inj (hsame.symm.trans hm)
      exact ⟨x, List.mem_cons_of_mem _ hx', hrelease⟩

/-- On a trail from its start the phase of a drain only advances. -/
theorem Moment.Trail.advances (hE : E.Spares) (h₀ : Reaches E (.still w) m₀)
    (hc : Course number servers target [] m₀) (h : Trail E m₀ steps m) :
    ∀ x ∈ steps, ∃ y y', x.1.world.moves[number]? = some y ∧ x.2.world.moves[number]? = some y' ∧
      y.phase.Advances y'.phase := by
  induction h with
  | start => exact fun x hx => absurd hx List.not_mem_nil
  | @step steps m m' h hs ih =>
    intro x hx
    rcases List.mem_cons.1 hx with rfl | hx
    · have hcourse := h.course hE h₀ hc
      obtain ⟨y, hy⟩ := hcourse.records
      obtain ⟨y', hy'⟩ := ((h.step hs).course hE h₀ hc).records
      have hreach : Reaches E (.still w) m := h₀.trans h.reaches
      exact ⟨y, y', hy.move, hy'.move, hcourse.advances hE hreach.waiting hs hy.move hy'.move⟩
    · exact ih x hx

/-- What has been seen of a drain that has ended accounts for its end. -/
theorem Course.account (h : Course number servers target steps m)
    (hm : m.world.moves[number]? = some mv) (he : mv.ending ≠ none) :
    Account number servers target steps mv (m.world.operate (.awaitMove number)).1 := by
  cases h with
  | ended hrecord hending hrun hexit hseen hleft =>
    obtain rfl := Option.some.inj (hrecord.move.symm.trans hm)
    rw [World.operate_awaitMove hm hending]
    exact hexit.account hseen hleft
  | rests hrecord he' | passes hrecord he' | finishes hrecord he' =>
    obtain rfl := Option.some.inj (hrecord.move.symm.trans hm)
    exact absurd he' he

/-- **Exits.**  Whatever operations and drains run, and whatever fails or crashes, after a step that
starts the drain of a move: once the drain has ended, its phase has only advanced, from `mutated`;
what waiting for the move comes to is accounted for by what has been seen of the drain; and on one
of the steps the drain has ended and given back all that it held, and nothing else, with its servers
in the group that they were moved to.  If it has settled, each of its servers has been found clear:
a pass has read the assignments and the transitions, and whatever was on the server by then was of a
table that the target owned. -/
theorem drain_exits (hE : E.Spares) (hw : w.Fresh) (h₁ : Reaches E (.still w) m₁)
    (hstart : m₁.StartsAt number servers target m₀) (h : Trail E m₀ steps m)
    (hm : m.world.moves[number]? = some mv) (he : mv.ending ≠ none) :
    (∃ y, m₀.world.moves[number]? = some y ∧ y.phase = .mutated) ∧
    (∀ x ∈ steps, ∃ y y', x.1.world.moves[number]? = some y ∧
      x.2.world.moves[number]? = some y' ∧ y.phase.Advances y'.phase) ∧
    Account number servers target steps mv (m.world.operate (.awaitMove number)).1 ∧
    (mv.phase = .settled → ∀ s ∈ servers, ∃ y, FindsClear number target s steps y) ∧
    ∃ x ∈ steps, Releases number servers target mv x.1 x.2 := by
  obtain ⟨hrun, c, source, now, hrecord⟩ := hstart.started hE hw h₁
  have h₀ : Reaches E (.still w) m₀ := h₁.tail hstart.step
  have hcourse : Course number servers target [] m₀ :=
    .rests hrecord rfl (.inl rfl) hrun (seen_nil ..)
  have hsurveyed : Surveyed number servers target [] m₀ (.start c servers source target now) :=
    ⟨hrecord, nofun, fun s hs => .inl (Std.ExtTreeSet.mem_toList.2 hs),
      fun owed rest hrest => absurd rfl (hrun _ hrest)⟩
  refine ⟨⟨_, hrecord.move, rfl⟩, h.advances hE h₀ hcourse, (h.course hE h₀ hcourse).account hm he,
    fun hsettled s hs => ?_, h.releases hE hw h₀ hcourse (fun x hx => ?_) hm he⟩
  · obtain ⟨y, hy⟩ := h.surveyed hE hw h₀ hcourse hsurveyed
    obtain rfl := Option.some.inj (hy.record.move.symm.trans hm)
    refine (hy.watched s hs).resolve_left fun hpending => ?_
    rw [hy.settled hsettled] at hpending
    exact List.not_mem_nil hpending
  · rw [← Option.some.inj (hrecord.move.symm.trans hx)]
    rfl

/-! ### A drain that fails -/

/-- A run that records a move comes to the request that launches it. -/
theorem Moment.reaches_launch {o : Operation} (waiting : List Activity) {result : o.Answer}
    {w' : World} {p : Program o.Answer} : ∀ (owed : Set Region) (w : World),
      World.run p w = (.returned result, w') → w.moves.size ≤ number →
      number < w'.moves.size → ∃ v owed' launched source goal next,
        Reaches E ⟨w, some ⟨.operation o, owed, p⟩, waiting⟩
          ⟨v, some ⟨.operation o, owed', .ask (.launch launched source goal) next⟩, waiting⟩ ∧
        v.moves.size = number ∧
        World.run (next number) (v.launch launched source goal) = (.returned result, w') := by
  induction p with
  | done a =>
    rintro owed w ⟨⟩ hle hlt
    exact absurd hlt (Nat.not_lt.2 hle)
  | fail cause => exact fun owed w h => (by cases h)
  | ask q next ih =>
    intro owed w hrun hle hlt
    rcases hm : w.meet q with ⟨reply, v⟩
    rw [World.run, hm] at hrun
    cases reply with
    | answered answer =>
      by_cases hq : ∃ launched source goal, q = .launch launched source goal ∧ w.moves.size = number
      · obtain ⟨launched, source, goal, rfl, hsize⟩ := hq
        obtain ⟨hnumber, rfl⟩ := Prod.mk.inj hm
        cases hnumber
        cases hsize
        exact ⟨w, owed, launched, source, goal, next, .refl, rfl, hrun⟩
      · have hle' : v.moves.size ≤ number := by
          by_cases hlaunch : ∃ launched source goal, q = .launch launched source goal
          · obtain ⟨launched, source, goal, rfl⟩ := hlaunch
            obtain ⟨-, rfl⟩ := Prod.mk.inj hm
            have hne : w.moves.size ≠ number := fun h => hq ⟨_, _, _, rfl, h⟩
            show (w.moves.push _).size ≤ number
            rw [Array.size_push]
            omega
          · push Not at hlaunch
            rw [World.moves_of_no_launch hlaunch hm]
            exact hle
        obtain ⟨x, owed', launched, source, goal, next', hreach, hx⟩ :=
          ih answer (q.owed answer owed) v hrun hle' hlt
        exact ⟨x, owed', launched, source, goal, next', hreach.head (.answers hm), hx⟩
    | _ => cases hrun

/-- An operation that has moved servers has come to the start of their drain. -/
theorem Moment.exists_startsAt {v w' : World} {o : Operation} {result : o.Answer}
    (h : Reaches E (.still v) (.still w)) (ho : E.called o)
    (hmoves : o.moves? = some (servers, target))
    (hrun : World.run o.program w = (.returned result, w'))
    (hsize : w'.moves.size = w.moves.size + 1) : ∃ m₁ m₀, Reaches E (.still v) m₁ ∧
      m₁.StartsAt w.moves.size servers target m₀ ∧
      Reaches E m₀ (.still (o.conclude (.returned result, w'.letGo)).2) := by
  obtain ⟨x, owed, launched, source, goal, next, hreach, hx, hrest⟩ :=
    reaches_launch (E := E) [] ∅ w hrun le_rfl (by omega)
  have hbegins : Reaches E (.still v) ⟨w, some (.ofOperation o), []⟩ := h.tail (.begins ho)
  refine ⟨_, _, hbegins.trans hreach, .launches hmoves hx, ?_⟩
  obtain ⟨owed', y, rest, hgoes, hends | ⟨q, next', -, -, hwaits, -⟩⟩ :=
    reaches_run E [] owed (x.launch launched source goal) (a := .operation o)
      (p := next w.moves.size)
  · rw [hrest] at hends
    exact hgoes.tail (.ends hends)
  · rw [hrest] at hwaits
    cases hwaits

theorem Moment.reaches_nextPass (w : World) (handle : Option Nat) :
    Reaches E (.still w) (.still (w.nextPass handle)) := by
  unfold World.nextPass
  split
  · exact .refl
  · split
    · next m hm =>
      split
      · next he => exact reaches_pass E [] hm (by simpa using he)
      · exact .refl
    · exact .refl

/-- Two servers, and a cluster that fails to unassign a region the first time. -/
def World.brittle : World :=
  { World.start {} .pair with
    faults := [⟨"cluster.unassign", 0, 1, .fails (.unavailable "gone")⟩] }

/-- A new group, to which the first server is to be moved. -/
def World.brittlePaired : World := (brittle.operate (.addGroup "a")).2

/-- The move after the first pass of its drain. -/
def World.brokenOff : World :=
  ((brittlePaired.operate (.startMove {⟨"rs1", 1⟩} "a")).2).nextPass (some 0)

theorem World.fresh_brittle : brittle.Fresh := by
  have hfresh := fresh_start {} fun hk => atHome_pair.partitioned.named hk
  exact ⟨hfresh.named, hfresh.idle, hfresh.held, hfresh.unlocked⟩

/-- The drain has failed, waiting for it fails, and one step has given its server back. -/
theorem drain_exits_brokenOff : ∃ mv : Move, World.brokenOff.moves[0]? = some mv ∧
    (∃ cause, (World.brokenOff.operate (.awaitMove 0)).1 = .failed cause) ∧
    ∃ m m' : Moment, Releases 0 {⟨"rs1", 1⟩} "a" mv m m' := by
  have hadd : Reaches .secluded (.still .brittle) (.still .brittlePaired) :=
    reaches_operate _ _ trivial fun _ _ => trivial
  obtain ⟨w', hrun, hsize⟩ : ∃ w', World.run (Operation.startMove {⟨"rs1", 1⟩} "a").program
      World.brittlePaired = (.returned (some 0 : Option Nat), w') ∧
        w'.moves.size = World.brittlePaired.moves.size + 1 := ⟨_, rfl, rfl⟩
  obtain ⟨m₁, m₀, h₁, hstart, h⟩ := exists_startsAt hadd trivial rfl hrun hsize
  have hoperate : World.brittlePaired.operate (.startMove {⟨"rs1", 1⟩} "a") =
      (.returned (some 0), w'.letGo) :=
    (World.operate_eq (by simp) _).trans (World.perform_of_returned hrun)
  have hpass : Reaches .secluded m₀ (.still .brokenOff) := by
    refine h.trans ?_
    have hnext := reaches_nextPass (E := .secluded) w'.letGo (some 0)
    rw [World.brokenOff, hoperate]
    exact hnext
  obtain ⟨steps, htrail⟩ := hpass.trail
  obtain ⟨mv, hm, he, hphase⟩ : ∃ mv, World.brokenOff.moves[0]? = some mv ∧ mv.ending ≠ none ∧
      mv.phase = .failed := ⟨_, rfl, fun he => (by cases he), rfl⟩
  obtain ⟨-, -, haccount, -, x, -, hx⟩ := drain_exits Setting.spares_secluded World.fresh_brittle h₁
    hstart htrail hm he
  obtain ⟨cause, hfails⟩ := haccount.failed.1 hphase
  exact ⟨mv, hm, ⟨cause, (haccount.failure cause hfails).1⟩, x.1, x.2, hx⟩

end ServerGroups
