/-
ServerGroups/Proofs/Conduct/Drain.lean

The drain that an operation launches, along the conduct of the operation.

It keeps to its course (`Course`) from the request that launches it, and what
it tells the observer is what is seen of it on that course: nothing before
every server is drained, and then one hook, with the phase of the move settled
(`Conduct.drained`).  While nobody works on a drain that has ended, nobody
ever will (`Moment.Step.over`).
-/
import ServerGroups.Proofs.Conduct.Monitors

namespace ServerGroups

open Program Moment

/-! ### What a drain tells -/

/-- The hooks that are called for a drain, each with the world it is called in, the latest first. -/
def Entry.told (entries : List Entry) : List (World × Hook) :=
  entries.filterMap fun x => if x.agent.isOperation then none else x.request.hook?.map (x.world, ·)

variable {E : Setting} {o : Operation} {w w' : World} {entries : List Entry} {number : Nat}
variable {servers : ServerSet} {target : String} {steps : List (Moment × Moment)} {m m' : Moment}
variable {a : Agent} {q : Request}

theorem Entry.told_operation (ha : a.isOperation = true) :
    told (⟨a, w, q⟩ :: entries) = told entries := by
  simp [told, ha]

theorem Entry.told_of_no_hook (hq : ∀ h, q ≠ .call (.hook h)) :
    told (⟨a, w, q⟩ :: entries) = told entries := by
  have hnone : q.hook? = none := by
    unfold Request.hook?
    split
    · next h => exact absurd rfl (hq h)
    · rfl
  simp [told, hnone]

theorem Entry.told_hook {h : Hook} (ha : a.isOperation = false) :
    told (⟨a, w, .call (.hook h)⟩ :: entries) = (w, h) :: told entries := by
  simp [told, ha, Request.hook?]

theorem Entry.told_of_operations (h : ∀ x ∈ entries, x.agent.isOperation = true) :
    told entries = [] := by
  simp only [told, List.filterMap_eq_nil_iff]
  intro x hx
  rw [if_pos (h x hx)]

theorem Entry.drain?_cons {x : Entry} (hx : x.launches? = none) :
    drain? (x :: entries) = drain? entries := by
  rw [drain?, List.findSome?_cons, hx]
  rfl

theorem Entry.mem_asked_cons {x : Entry} {y : World × Request} (hy : y ∈ asked entries) :
    y ∈ asked (x :: entries) := by
  cases hop : x.agent.isOperation with
  | true =>
    rw [asked, List.filter_cons_of_pos (by exact hop)]
    exact List.mem_cons_of_mem _ hy
  | false =>
    rw [asked_drain hop]
    exact hy

/-- What a drain has told agrees with what has been seen of it: no hook, or one, called when every
server was drained. -/
structure Tells (number : Nat) (servers : ServerSet) (target : String)
    (steps : List (Moment × Moment)) (told : List (World × Hook)) : Prop where
  silent : (∀ reply, ¬ ∃ x ∈ steps, HearsAt number servers target reply x.1 x.2) → told = []
  heard : ∀ reply, (∃ x ∈ steps, HearsAt number servers target reply x.1 x.2) →
    ∃ w mv, told = [(w, .postMoveServers servers target)] ∧
      (w.meet (.call (.hook (.postMoveServers servers target)))).1 = reply ∧
      w.moves[number]? = some mv ∧ mv.phase = .settled

/-- Nothing is told on a step on which no hook is heard. -/
theorem Tells.same {told : List (World × Hook)} (h : Tells number servers target steps told)
    (hnot : ∀ reply, ¬ HearsAt number servers target reply m m') :
    Tells number servers target ((m, m') :: steps) told where
  silent hsilent := h.silent fun reply hx => hsilent reply <| by
    obtain ⟨x, hx, hhears⟩ := hx
    exact ⟨x, List.mem_cons_of_mem _ hx, hhears⟩
  heard reply hx := by
    rw [List.exists_mem_cons_iff] at hx
    exact h.heard reply (hx.resolve_left (hnot reply))

/-! ### Who works on a drain -/

theorem Agent.own_of_serves (hn : Entry.drain? entries = some number) (ha : a.Serves number) :
    a.Own entries := by
  cases a with
  | operation o => exact ha.elim
  | pass n mv =>
    cases ha
    exact hn
  | finish n mv =>
    cases ha
    exact hn

theorem Agent.serves_of_own (hn : Entry.drain? entries = some number) (ha : a.Own entries)
    (hop : a.isOperation = false) : a.Serves number := by
  cases a with
  | operation o => cases hop
  | pass n mv => exact Option.some.inj (ha.symm.trans hn)
  | finish n mv => exact Option.some.inj (ha.symm.trans hn)

theorem Agent.isOperation_of_serves (ha : a.Serves number) : a.isOperation = false := by
  cases a with
  | operation o => exact ha.elim
  | _ => rfl

/-- Who works on a drain that keeps to its course has the record of its move. -/
theorem Course.serving (h : Course number servers target steps m) {b : Activity}
    (hrun : m.running = some b) (hb : b.agent.Serves number) :
    ∃ mv, m.world.Records number servers target mv ∧
      (b.agent = .pass number mv ∨ b.agent = .finish number mv) := by
  cases h with
  | rests hm he hphase hnot => exact absurd hb (hnot _ hrun)
  | passes hm =>
    cases hrun
    exact ⟨_, hm, .inl rfl⟩
  | finishes hm =>
    cases hrun
    exact ⟨_, hm, .inr rfl⟩
  | ended hm he hnot => exact absurd hb (hnot _ hrun)

/-- A drain calls its hook once every server is drained, and it has not called it before. -/
theorem Course.hook (h : Course number servers target steps m) {k : Hook} {owed : Set Region}
    {next : Unit → Program a.Result} (ha : a.Serves number)
    (hrun : m.running = some ⟨a, owed, .ask (.call (.hook k)) next⟩) :
    k = .postMoveServers servers target ∧
      (∀ reply, ¬ ∃ x ∈ steps, HearsAt number servers target reply x.1 x.2) ∧
      ∃ mv, m.world.moves[number]? = some mv ∧ mv.phase = .settled := by
  cases h with
  | rests hm he hphase hnot => exact absurd ha (hnot _ hrun)
  | passes hm he hphase hrest =>
    cases hrun
    exact absurd rfl (hrest.1.2 k)
  | @finishes w owed waiting mv heard rest hm he hphase hrest hseen =>
    obtain ⟨rfl, rfl⟩ | ⟨-, rfl | rfl⟩ := hrest
    · cases hrun
      refine ⟨by rw [hm.servers, hm.target], fun reply hx => ?_, mv, hm.move, hphase⟩
      cases (hseen.heard reply).1 hx
    · cases hrun
    · cases hrun
  | ended hm he hnot => exact absurd ha (hnot _ hrun)

/-- Who calls, and what, is told from who runs. -/
theorem Moment.Calls.of_running {b : Agent} {k : Call} {reply : Reply k.Answer} {owed : Set Region}
    {next : q.Answer → Program a.Result} (h : m.Calls b k reply m')
    (hrun : m.running = some ⟨a, owed, .ask q next⟩) : b = a ∧ q = .call k := by
  obtain ⟨owed', next', hrun', -⟩ := h.before
  cases hrun.symm.trans hrun'
  exact ⟨rfl, rfl⟩

/-- One more request of the operation or of its drain, and what it tells. -/
theorem Tells.noted {owed : Set Region} {next : q.Answer → Program a.Result}
    (h : Tells number servers target steps (Entry.told entries))
    (hcourse : Course number servers target steps m)
    (hrun : m.running = some ⟨a, owed, .ask q next⟩)
    (ha : a.isOperation = true ∨ a.Serves number)
    (hcalls : ∀ k, q = .call k → ∃ reply, m.Calls a k reply m') :
    Tells number servers target ((m, m') :: steps) (Entry.told (⟨a, m.world, q⟩ :: entries)) := by
  rcases ha with hop | hserves
  · rw [Entry.told_operation hop]
    refine h.same fun reply ⟨b, hb, hc⟩ => ?_
    obtain ⟨rfl, -⟩ := hc.of_running hrun
    cases hop.symm.trans (Agent.isOperation_of_serves hb)
  by_cases hhook : ∃ k, q = .call (.hook k)
  · obtain ⟨k, rfl⟩ := hhook
    obtain ⟨rfl, hnone, mv, hm, hphase⟩ := hcourse.hook hserves hrun
    obtain ⟨reply, hc⟩ := hcalls _ rfl
    rw [Entry.told_hook (Agent.isOperation_of_serves hserves), h.silent hnone]
    refine ⟨fun hno => absurd ⟨_, List.mem_cons_self, a, hserves, hc⟩ (hno reply), ?_⟩
    intro reply' hx
    rw [List.exists_mem_cons_iff] at hx
    obtain ⟨b, hb, hc'⟩ := hx.resolve_right (hnone reply')
    obtain ⟨_, _, -, hreply⟩ := hc'.before
    exact ⟨_, mv, rfl, hreply, hm, hphase⟩
  · push Not at hhook
    rw [Entry.told_of_no_hook hhook]
    exact h.same fun reply ⟨b, hb, hc⟩ => hhook _ (hc.of_running hrun).2

/-- A drain that has ended stays so, and nobody works on it. -/
def Moment.Over (m : Moment) (number : Nat) (ending : Ending) : Prop :=
  (∃ mv, m.world.moves[number]? = some mv ∧ mv.ending = some ending) ∧
    ∀ a, m.running = some a → ¬ a.agent.Serves number

theorem Moment.Step.over {ending : Ending} (hE : E.SparesMoves)
    (hwait : ∀ a ∈ m.waiting, ∃ o, a.agent = .operation o) (hs : m.Step E m')
    (h : m.Over number ending) : m'.Over number ending := by
  obtain ⟨⟨mv, hm, he⟩, hrun⟩ := h
  rcases hs.unserved hE hwait hm hrun with ⟨hm', hrun'⟩ | ⟨hnone, -⟩
  · exact ⟨⟨mv, hm', he⟩, hrun'⟩
  · cases hnone.symm.trans he

/-! ### Along the conduct of an operation -/

namespace Conduct

variable {c c' : Conduct o}

/-- The law of launches, which every operation obeys. -/
abbrev Launching (o : Operation) : Law o.Answer := launching.law fun _ _ => True

theorem launching (hE : E.Follows) (h : (begin w o).Reaches E c) : c.Tracked (Launching o) :=
  Monitor.tracked hE o.awaits_launched h

/-- An operation can be followed through every schedule in which it is called, and only through
these. -/
theorem reaches_iff (hE : E.Follows) :
    (begin w o).moment.Reaches E m ↔ ∃ c, (begin w o).Reaches E c ∧ c.moment = m := by
  constructor
  · intro h
    induction h with
    | refl => exact ⟨begin w o, .refl, rfl⟩
    | tail _ hs ih =>
      obtain ⟨c, hreach, rfl⟩ := ih
      obtain ⟨c', hs', rfl⟩ := (launching hE hreach).follows hs
      exact ⟨c', hreach.tail hs', rfl⟩
  · rintro ⟨c, h, rfl⟩
    exact Reaches.moment h

/-- After a launch an operation makes no call and launches nothing more. -/
theorem Tracked.awaits (h : c.Tracked (Launching o)) (hn : Entry.drain? c.entries = some number)
    {owed : Set Region} {next : q.Answer → Program a.Result}
    (hrun : c.moment.running = some ⟨a, owed, .ask q next⟩) (ha : a.isOperation = true) :
    q = .join number ∨ ∃ n, q = .note n := by
  have hfits := h.fits hrun ha
  rw [launching_after, hn] at hfits
  exact hfits

/-- An operation makes no call after it has launched a drain. -/
theorem Tracked.undrained (h : c.Tracked (Launching o)) {owed : Set Region} {k : Call}
    {next : k.Answer → Program a.Result}
    (hrun : c.moment.running = some ⟨a, owed, .ask (.call k) next⟩) (ha : a.isOperation = true) :
    Entry.drain? c.entries = none := by
  by_contra hsome
  obtain ⟨number, hn⟩ := Option.ne_none_iff_exists'.1 hsome
  rcases h.awaits hn hrun ha with hq | ⟨n, hq⟩ <;> cases hq

/-- An agent of its own that is no operation works on the drain that has been launched. -/
theorem drain?_of_own (ha : a.Own c.entries) (hop : a.isOperation = false) :
    ∃ number, Entry.drain? c.entries = some number ∧ a.Serves number := by
  cases a with
  | operation o => cases hop
  | pass n mv => exact ⟨n, ha, rfl⟩
  | finish n mv => exact ⟨n, ha, rfl⟩

/-- The drain that an operation has launched keeps to its course. -/
structure Draining (c : Conduct o) (number : Nat) (servers : ServerSet) (target : String) :
    Prop where
  launch : ∃ w source, (w, Request.launch servers source target) ∈ Entry.asked c.entries
  course : ∃ steps, Course number servers target steps c.moment ∧
    Tells number servers target steps (Entry.told c.entries)

/-- A program that ends launches nothing at its latest request. -/
theorem drain?_note {rest : Program a.Result} {ended : Progress a.Result}
    (hnone : Entry.drain? entries = none) (he : w.Ends rest ended w') :
    Entry.drain? (note entries w a rest) = none := by
  cases rest with
  | done result => exact hnone
  | fail cause => exact hnone
  | ask q next =>
    have hlaunches : Entry.launches? ⟨a, w, q⟩ = none := by
      cases q with
      | launch servers source target =>
        -- a launch neither fails nor crashes
        cases he with
        | failed hm => cases hm
        | crashed hm => cases hm
      | _ => cases a <;> rfl
    exact (Entry.drain?_cons hlaunches).trans hnone

/-- A drain has been launched. -/
theorem Step.launches (hs : c.Step E c') (hnone : Entry.drain? c.entries = none)
    (hn : Entry.drain? c'.entries = some number) :
    ∃ w servers source target mv,
      (w, Request.launch servers source target) ∈ Entry.asked c'.entries ∧
      c'.moment.world.Records number servers target mv ∧ mv.ending = none ∧ mv.phase = .mutated ∧
      (∀ a, c'.moment.running = some a → a.agent.isOperation = true) ∧
      Entry.told c'.entries = Entry.told c.entries := by
  cases hs with
  | aside => cases hnone.symm.trans hn
  | waits => cases hnone.symm.trans hn
  | ends he => cases (drain?_note hnone he).symm.trans hn
  | stops hd ha he => cases (drain?_note hnone he).symm.trans hn
  | @answers entries outcome w w' waiting agent owed q next answer ha h =>
    -- the request that was answered has launched it
    have hlaunch : Entry.launches? ⟨agent, w, q⟩ = some number := by
      by_contra hnot
      cases hx : Entry.launches? ⟨agent, w, q⟩ with
      | none => cases ((Entry.drain?_cons hx).trans hnone).symm.trans hn
      | some n =>
        rw [Entry.drain?, List.findSome?_cons, hx] at hn
        exact hnot (hx.trans hn)
    cases agent with
    | operation o' =>
      cases q with
      | launch servers source target =>
        cases h
        obtain rfl : w.moves.size = number := Option.some.inj hlaunch
        refine ⟨w, servers, source, target, _, List.mem_cons_self,
          ⟨Array.getElem?_push_size, rfl, rfl⟩, rfl, rfl, by rintro a ⟨⟩; rfl,
          Entry.told_operation rfl⟩
      | _ => cases hlaunch
    | _ => cases hlaunch

/-- Every step keeps the drain of an operation to its course. -/
theorem Draining.step (hE : E.Follows) (htracked : c.Tracked (Launching o))
    (hn : Entry.drain? c.entries = some number) (h : c.Draining number servers target)
    (hs : c.Step E c') :
    Entry.drain? c'.entries = some number ∧ c'.Draining number servers target := by
  obtain ⟨⟨w, source, hlaunch⟩, steps, hcourse, htells⟩ := h
  have hcourse' := hcourse.step hE.moves htracked.waiting hs.moment
  rcases hs.entries with ⟨hsame, hnot⟩ | ⟨a, owed, q, next, hown, hrun, hentries, hcalls⟩
  · have htells' := htells.same fun reply ⟨a, ha, hc⟩ =>
      hnot a (.hook _) reply hc (Agent.own_of_serves hn ha)
    rw [hsame]
    exact ⟨hn, ⟨w, source, by rwa [hsame]⟩, _, hcourse', by rwa [hsame]⟩
  · -- one request of the operation or of its drain is met, and it launches nothing
    have hlaunches : Entry.launches? ⟨a, c.moment.world, q⟩ = none := by
      cases a with
      | operation o' => rcases htracked.awaits hn hrun rfl with rfl | ⟨n, rfl⟩ <;> rfl
      | _ => rfl
    have hserves : a.isOperation = true ∨ a.Serves number := by
      cases hop : a.isOperation with
      | true => exact .inl rfl
      | false => exact .inr (Agent.serves_of_own hn hown hop)
    refine ⟨?_, ⟨w, source, ?_⟩, _, hcourse', ?_⟩
    · rw [hentries, Entry.drain?_cons hlaunches, hn]
    · rw [hentries]
      exact Entry.mem_asked_cons hlaunch
    · rw [hentries]
      exact htells.noted hcourse hrun hserves hcalls

/-- The drain of an operation keeps to its course from its launch, and before its launch only the
operation asks for anything. -/
theorem drained (hE : E.Follows) (h : (begin w o).Reaches E c) :
    (∀ number, Entry.drain? c.entries = some number →
      ∃ servers target, c.Draining number servers target) ∧
    (Entry.drain? c.entries = none → ∀ x ∈ c.entries, x.agent.isOperation = true) := by
  induction h with
  | refl => exact ⟨fun number h => (by cases h), fun _ x hx => absurd hx List.not_mem_nil⟩
  | @tail c c' hreach hs ih =>
    have htracked := launching hE hreach
    cases hn : Entry.drain? c.entries with
    | some number =>
      obtain ⟨servers, target, hdraining⟩ := ih.1 number hn
      obtain ⟨hn', hdraining'⟩ := hdraining.step hE htracked hn hs
      rw [hn']
      refine ⟨?_, fun h => by cases h⟩
      rintro _ ⟨⟩
      exact ⟨servers, target, hdraining'⟩
    | none =>
      have hnone := ih.2 hn
      refine ⟨fun number hn' => ?_, fun hn' => ?_⟩
      · obtain ⟨w, servers, source, target, mv, hlaunch, hm, he, hphase, hrun, htold⟩ :=
          hs.launches hn hn'
        refine ⟨servers, target, ⟨w, source, hlaunch⟩, [],
          .rests hm he (.inl hphase) ?_ (seen_nil ..), ?_⟩
        · intro a ha hserves
          cases (hrun a ha).symm.trans (Agent.isOperation_of_serves hserves)
        · rw [htold, Entry.told_of_operations hnone]
          exact ⟨fun _ => rfl, fun reply hx => by simp at hx⟩
      · rcases hs.entries with ⟨hsame, -⟩ | ⟨a, owed, q, next, hown, hrun, hentries, -⟩
        · rw [hsame]
          exact hnone
        · cases a with
          | operation o' =>
            rw [hentries]
            exact List.forall_mem_cons.2 ⟨rfl, hnone⟩
          | pass n mv => cases hn.symm.trans hown
          | finish n mv => cases hn.symm.trans hown

end Conduct

end ServerGroups
