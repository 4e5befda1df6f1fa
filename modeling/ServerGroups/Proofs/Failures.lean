/-
ServerGroups/Proofs/Failures.lean

Operations stop at the first call that fails.

An operation is followed in any schedule in which all calls have been answered
so far.  If then a call of the operation, or of the drain that it has launched,
fails with an error, neither makes another call, ever; what they have made of
the services is what the calls before have made of them in a run without
faults; the error is the result of the operation, or of every wait for the
drain; and what they held is given back (`first_failure_stops`).

Only a failure to forget a table is no failure of the operation.
-/
import ServerGroups.Proofs.Drains.Exits
import ServerGroups.Proofs.Failures.Faultless
import ServerGroups.Proofs.Failures.Holdings

namespace ServerGroups

open Program Moment

/-- What an operation comes to when it fails. -/
def Operation.failing : (o : Operation) → Error → Outcome o.Answer
  | .forgetTable _, _ => .returned ()
  | _, cause => .failed cause

/-- The holder that an agent takes locks as. -/
def Agent.holder : Agent → Holder
  | operation _ => .operation
  | pass number _ | finish number _ => .move number

variable {E : Setting} {o : Operation} {w : World} {number : Nat} {servers : ServerSet}
variable {target : String} {mv : Move} {a : Agent} {cause : Error}

/-- An agent works on one drain at most. -/
theorem Agent.serves_unique {number' : Nat} (h : a.Serves number) (h' : a.Serves number') :
    number = number' := by
  cases a with
  | operation o => exact h.elim
  | pass n mv => exact h.symm.trans h'
  | finish n mv => exact h.symm.trans h'

/-- A call that fails leaves the services as they are. -/
theorem Moment.Calls.site_of_failed {m m' : Moment} {k : Call}
    (h : m.Calls a k (.failed cause) m') : m'.world.site = m.world.site := by
  cases h with
  | failed hmeet => exact (site_close ..).trans (World.site_of_not_answered hmeet (by simp))

/-! ### What is given back -/

theorem Locks.holds_releaseAll (l : Locks) (holder : Holder) :
    (l.releaseAll holder).holds holder = false := by
  simp [holds, releaseAll]

/-- An operation that fails gives back what its world holds for it. -/
theorem Moment.close_operation_failed (w : World) (waiting : List Activity) (o : Operation)
    (cause : Error) :
    (close w waiting (.operation o) (.failed cause)).world.locks.holds .operation = false ∧
      ∀ s ∈ w.held,
        (close w waiting (.operation o) (.failed cause)).world.reservations.target? s = none := by
  have hlocks : w.letGo.locks.holds .operation = false := Locks.holds_releaseAll ..
  have hreservations : ∀ s ∈ w.held, w.letGo.reservations.target? s = none := by
    intro s hs
    rw [World.letGo, Reservations.target?_release, if_pos hs]
  cases o <;> exact ⟨hlocks, hreservations⟩

/-- A drain that fails is over, and gives back its lock and its servers. -/
theorem Moment.close_drain_failed (waiting : List Activity) (cause : Error)
    (hm : w.Records number servers target mv) (ha : a = .pass number mv ∨ a = .finish number mv) :
    (close w waiting a (.failed cause)).Over number (.failed cause) ∧
      (close w waiting a (.failed cause)).world.locks.holds (.move number) = false ∧
      ∀ s ∈ servers, (close w waiting a (.failed cause)).world.reservations.target? s = none := by
  have hreservations : ∀ s ∈ servers, (w.reservations.release mv.servers).target? s = none := by
    intro s hs
    rw [Reservations.target?_release, if_pos (hm.servers.symm ▸ hs)]
  rcases ha with rfl | rfl
  · have hset := hm.setMove (y := { mv with phase := .failed, ending := some (.failed cause) })
      rfl rfl
    exact ⟨⟨⟨_, hset.move, rfl⟩, by rintro a ⟨⟩⟩, Locks.holds_releaseAll .., hreservations⟩
  · refine ⟨⟨⟨_, (hm.endMove (.failed cause)).move, rfl⟩, by rintro a ⟨⟩⟩,
      Locks.holds_releaseAll .., ?_⟩
    exact hreservations

namespace Conduct

variable {c c' c'' : Conduct o} {k : Call} {e : ServiceError}

/-! ### What is over -/

/-- Neither the operation nor its drain will make another call. -/
structure Spent (c : Conduct o) : Prop where
  rid : Entry.drain? c.entries = none → c.moment.Rid
  ended : ∀ number, Entry.drain? c.entries = some number → ∃ ending, c.moment.Over number ending

theorem Spent.step (hE : E.Follows) (hreach : (begin w o).Reaches E c) (h : c.Spent)
    (hs : c.Step E c') : c'.Spent ∧ c'.calls = c.calls := by
  have htracked := launching hE hreach
  have hdrain : Entry.drain? c'.entries = Entry.drain? c.entries ∧ c'.calls = c.calls := by
    rcases hs.entries with ⟨hsame, -⟩ | ⟨a, owed, q, next, hown, hrun, hentries, -⟩
    · exact ⟨by rw [hsame], by rw [calls, calls, hsame]⟩
    cases hop : a.isOperation with
    | false =>
      -- nobody works on the drain
      obtain ⟨number, hn, hserves⟩ := drain?_of_own hown hop
      obtain ⟨ending, hover⟩ := h.ended number hn
      exact absurd hserves (hover.2 _ hrun)
    | true =>
      cases hn : Entry.drain? c.entries with
      | none => cases ((h.rid hn).running _ hrun).symm.trans hop
      | some number =>
        -- an operation that waits for its drain makes no call
        rw [calls, calls, hentries, Entry.drain?, List.findSome?_cons, List.filterMap_cons]
        rcases htracked.awaits hn hrun hop with rfl | ⟨n, rfl⟩ <;> cases a <;> exact ⟨hn, rfl⟩
  refine ⟨⟨fun hn => ?_, fun number hn => ?_⟩, hdrain.2⟩
  · exact hs.moment.rid hE.called (h.rid (hdrain.1 ▸ hn))
  · obtain ⟨ending, hover⟩ := h.ended number (hdrain.1 ▸ hn)
    exact ⟨ending, hs.moment.over hE.moves htracked.waiting hover⟩

theorem Spent.calls (hE : E.Follows) (hreach : (begin w o).Reaches E c) (h : c.Spent)
    (hlater : c.Reaches E c') : c'.calls = c.calls := by
  suffices hspent : c'.Spent ∧ c'.calls = c.calls from hspent.2
  induction hlater with
  | refl => exact ⟨h, rfl⟩
  | tail hmiddle hs ih =>
    obtain ⟨hspent, hcalls⟩ := ih.1.step hE (hreach.trans hmiddle) hs
    exact ⟨hspent, hcalls.trans ih.2⟩

/-- What an operation has come to it has come to for good. -/
theorem outcome_of_rid (hE : E.Follows) (h : c.moment.Rid) (hlater : c.Reaches E c') :
    c'.outcome = c.outcome := by
  suffices hrid : c'.moment.Rid ∧ c'.outcome = c.outcome from hrid.2
  induction hlater with
  | refl => exact ⟨h, rfl⟩
  | @tail c₁ c₂ _ hs ih =>
    refine ⟨hs.moment.rid hE.called ih.1, ?_⟩
    rw [← ih.2]
    cases hs with
    | ends => cases ih.1.running _ rfl
    | _ => rfl

/-- Waiting for a drain that is over always comes to the same. -/
theorem verdict_of_over {ending : Ending} (hE : E.Follows) (hreach : (begin w o).Reaches E c)
    (h : c.moment.Over number ending) (hlater : c.Reaches E c') :
    (c'.moment.world.operate (.awaitMove number)).1 = ending.verdict := by
  have hover : c'.moment.Over number ending := by
    induction hlater with
    | refl => exact h
    | tail hmiddle hs ih =>
      exact hs.moment.over hE.moves (launching hE (hreach.trans hmiddle)).waiting ih
  obtain ⟨⟨mv, hm, he⟩, -⟩ := hover
  exact World.operate_awaitMove hm he

/-! ### The first failure -/

/-- What is left of an operation once a call has failed that it, or its drain, has made. -/
structure StopsAt (E : Setting) (w : World) (c c' : Conduct o) (a : Agent) (k : Call)
    (e : ServiceError) : Prop where
  /-- The same calls have been answered in a run without faults. -/
  replay : (begin w.faultless o).Smoothly E c.faultless ∧ c.faultless.calls = c.calls
  /-- The services are what these calls have made of them. -/
  site : c'.moment.world.site = c.faultless.moment.world.site
  call : c'.calls = k :: c.calls
  /-- No other call is ever made. -/
  silent : ∀ c'', c'.Reaches E c'' → c''.calls = c'.calls
  /-- The error is the result of the operation, if the call was one of its own. -/
  result : a.isOperation = true → ∀ c'', c'.Reaches E c'' →
    c''.outcome = some (o.failing (.unavailable e))
  /-- The error is the result of every wait for the drain, if the call was one of the drain. -/
  waited : ∀ number, a.Serves number → ∀ c'', c'.Reaches E c'' →
    (c''.moment.world.operate (.awaitMove number)).1 = .failed (.unavailable e)
  locks : c'.moment.world.locks.holds a.holder = false
  reservations : ∀ servers, (Entry.asked c.entries).Reserves servers → ∀ s ∈ servers,
    c'.moment.world.reservations.target? s = none

/-- A call of the operation or of its drain is noted. -/
theorem Step.noted {reply : Reply k.Answer} (hs : c.Step E c') (ha : a.Own c.entries)
    (hcalls : c.moment.Calls a k reply c'.moment) :
    c'.entries = ⟨a, c.moment.world, .call k⟩ :: c.entries := by
  rcases hs.entries with ⟨-, hnot⟩ | ⟨b, owed, q, next, -, hrun, hentries, -⟩
  · exact absurd ha (hnot _ _ _ hcalls)
  · obtain ⟨rfl, rfl⟩ := hcalls.of_running hrun
    exact hentries

/-- An operation that makes a call that fails comes to the failure of this call. -/
theorem Step.outcome_of_failed (hs : c.Step E c')
    (hfails : c.moment.Calls a k (.failed cause) c'.moment) (ha : a.isOperation = true) :
    c'.outcome = some (o.failing cause) := by
  obtain ⟨owed, next, hrun, hreply⟩ := hfails.before
  cases hs with
  | aside hs hm =>
    have hown : ∀ entries, a.Own entries := by
      cases a with
      | operation o' => exact fun _ => trivial
      | _ => cases ha
    exact (hm.elim hfails.running_ne fun hm => hm _ hrun (hown _)).elim
  | answers hown hmeet =>
    cases hrun
    rw [hmeet] at hreply
    cases hreply
  | ends he =>
    cases hrun
    cases he with
    | failed hmeet =>
      rw [hmeet] at hreply
      cases hreply
      cases o <;> rfl
    | crashed hmeet =>
      rw [hmeet] at hreply
      cases hreply
  | stops hd =>
    cases hrun
    cases hd.symm.trans ha
  | waits hq =>
    cases hrun
    cases hq

/-- A call of an operation fails before it launches a drain, and what it has reserved is given
back. -/
theorem operation_fails (hE : E.Follows) (h : (begin w o).Reaches E c)
    (hfails : c.moment.Calls a k (.failed cause) c'.moment) (ha : a.isOperation = true) :
    Entry.drain? c.entries = none ∧ c'.moment.Rid ∧
      c'.moment.world.locks.holds a.holder = false ∧
      ∀ servers, (Entry.asked c.entries).Reserves servers → ∀ s ∈ servers,
        c'.moment.world.reservations.target? s = none := by
  have hlaunching := launching hE h
  have hregular := regular hE h
  have hheld := held hE h
  have hnone : Entry.drain? c.entries = none := by
    obtain ⟨owed, next, hrun, -⟩ := hfails.before
    exact hlaunching.undrained hrun ha
  refine ⟨hnone, ?_⟩
  cases hlaunching with
  | waits _ _ _ _ hrun =>
    obtain ⟨owed, next, hrun', -⟩ := hfails.before
    cases (hrun _ hrun').symm.trans ha
  | gone _ hrid =>
    obtain ⟨owed, next, hrun, -⟩ := hfails.before
    cases (hrid.running _ hrun).symm.trans ha
  | @runs entries w owed rest _ hanswered =>
    generalize hm : c'.moment = m' at hfails ⊢
    cases hfails with
    | @failed _ w' _ _ next _ hmeet =>
      obtain ⟨hlocks, hreservations⟩ := close_operation_failed w' [] o cause
      refine ⟨⟨isOperation_close, waiting_close⟩, hlocks, fun servers hreserves s hs => ?_⟩
      rw [← launching_after] at hnone
      have hhas := hregular.has hanswered hreserves hnone
      refine hreservations s ?_
      rw [(World.alike_call hmeet).held, hheld _ rfl rfl servers hhas]
      exact hs

/-- A call of a drain fails, and the drain is over. -/
theorem drain_fails (hE : E.Follows) (h : (begin w o).Reaches E c)
    (hfails : c.moment.Calls a k (.failed cause) c'.moment) (ha : a.Serves number)
    (hn : Entry.drain? c.entries = some number) :
    c'.moment.Over number (.failed cause) ∧ c'.moment.world.locks.holds a.holder = false ∧
      ∀ servers, (Entry.asked c.entries).Reserves servers → ∀ s ∈ servers,
        c'.moment.world.reservations.target? s = none := by
  obtain ⟨servers, target, ⟨v, source, hlaunch⟩, steps, hcourse, -⟩ := (drained hE h).1 number hn
  obtain ⟨owed, next, hrun, -⟩ := hfails.before
  obtain ⟨mv, hm, hagent⟩ := hcourse.serving hrun ha
  generalize hc : c.moment = m at hfails hm
  generalize hc' : c'.moment = m' at hfails ⊢
  cases hfails with
  | @failed w w' waiting owed' next' _ hmeet =>
    obtain ⟨hover, hlocks, hreservations⟩ := close_drain_failed waiting cause
      (hm.of_moves (World.moves_meet hmeet hm.move)) hagent
    refine ⟨hover, ?_, fun reserved hreserves => ?_⟩
    · rcases hagent with rfl | rfl <;> exact hlocks
    · rw [← (regular hE h).same_servers hreserves hlaunch]
      exact hreservations

/-- **The first failure.**  In every schedule in which all calls have been answered so far, a call
that fails is the last one of its operation and of the drain that the operation has launched: no
other one is made, the services are what the calls before have made of them in a run without faults,
the error is the result, and all that was held is given back. -/
theorem first_failure_stops (hE : E.Follows) (hheedless : E.Heedless)
    (h : (begin w o).Smoothly E c) (hs : c.Step E c') (ha : a.Own c.entries)
    (hfails : c.moment.Calls a k (.failed (.unavailable e)) c'.moment) :
    StopsAt E w c c' a k e := by
  have hreach : (begin w o).Reaches E c := h.reaches
  have hreach' : (begin w o).Reaches E c' := hreach.tail hs
  have hentries := hs.noted ha hfails
  have hdrain : Entry.drain? c'.entries = Entry.drain? c.entries := by
    rw [hentries, Entry.drain?_cons (by cases a <;> rfl)]
  have hsite := hfails.site_of_failed
  have hcall : c'.calls = k :: c.calls := by
    rw [calls, hentries]
    rfl
  have hreplay := And.intro (h.faultless hheedless) (calls_faultless c)
  cases hop : a.isOperation with
  | true =>
    obtain ⟨hnone, hrid, hlocks, hreservations⟩ := operation_fails hE hreach hfails hop
    have hspent : c'.Spent := ⟨fun _ => hrid, fun number hn => by
      cases hnone.symm.trans (hdrain.symm.trans hn)⟩
    refine ⟨hreplay, hsite, hcall, fun c'' => hspent.calls hE hreach', fun _ c'' hlater => ?_,
      fun number hserves => ?_, hlocks, hreservations⟩
    · exact (outcome_of_rid hE hrid hlater).trans (hs.outcome_of_failed hfails hop)
    · cases hop.symm.trans (Agent.isOperation_of_serves hserves)
  | false =>
    obtain ⟨number, hn, hserves⟩ := drain?_of_own ha hop
    obtain ⟨hover, hlocks, hreservations⟩ := drain_fails hE hreach hfails hserves hn
    have hspent : c'.Spent := by
      rw [← hdrain] at hn
      refine ⟨fun hnone => (by cases hn.symm.trans hnone), fun number' hn' => ?_⟩
      obtain rfl := Option.some.inj (hn.symm.trans hn')
      exact ⟨_, hover⟩
    refine ⟨hreplay, hsite, hcall, fun c'' => hspent.calls hE hreach', fun hop' => ?_,
      fun number' hserves' c'' hlater => ?_, hlocks, hreservations⟩
    · cases hop.symm.trans hop'
    · obtain rfl := Agent.serves_unique hserves hserves'
      exact verdict_of_over hE hreach' hover hlater

end Conduct

/-! ### A group that is not added -/

/-- A registry that fails to add the first group. -/
def World.unwilling : World :=
  { start {} .pair with
    faults := [⟨"registry.add_group", 0, 1, .fails (.unavailable "gone")⟩] }

namespace Conduct

/-- The group is looked up and not added, and the operation fails with the error of the registry. -/
theorem first_failure_stops_unwilling : ∃ c c' : Conduct (.addGroup "a"),
    (begin .unwilling (.addGroup "a")).Smoothly .alone c ∧ c.Step .alone c' ∧
    StopsAt .alone .unwilling c c' (.operation (.addGroup "a")) (.addGroup "a")
      (.unavailable "gone") := by
  have hhook : (begin .unwilling (.addGroup "a")).Smoothly .alone _ :=
    Smoothly.answers trivial rfl
  have hlock := hhook.trans (Smoothly.answers trivial rfl)
  have hlook := hlock.trans (Smoothly.answers trivial rfl)
  exact ⟨_, _, hlook, .ends (.failed rfl), first_failure_stops Setting.follows_alone False.elim
    hlook (.ends (.failed rfl)) trivial (.failed rfl)⟩

end Conduct

end ServerGroups
