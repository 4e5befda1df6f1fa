/-
ServerGroups/Proofs/Hooks.lean

Hooks bracket what an administrative operation does.

An operation is followed with its drain in any schedule, whatever calls fail
in it, under an observer that records hooks.  When it makes a call is told by
what has been heard before (`Operation.Brackets`):

    opens      the first hook is called before everything else
    closes     the last hook is called when the first one, and no other, has
               been heard, and the operation has done what it is for
    between    every other call is made when the first hook has been heard

Every call of every schedule is one of these (`Conduct.bracketed`), and what
an operation has recorded by the time it returns follows from them and from
what its program ensures (`Operation.Closes`).  The last hook of a move of
servers is called for its drain, so a move returns when its drain has been
heard (`Conduct.joined`).
-/
import ServerGroups.Proofs.Drains.Exits
import ServerGroups.Proofs.Failures.Faultless
import ServerGroups.Proofs.Hooks.Records

namespace ServerGroups

open Program Moment Exchange

variable {E : Setting} {o : Operation} {pre : Hook} {w : World} {entries before : List Entry}

/-! ### Administrative operations -/

namespace Operation

/-- What an administrative operation has been answered when it returns. -/
def Closes : (o : Operation) → o.Answer → List Exchange → Prop
  | addGroup name, _, s => hooks s = [.postAddGroup name, .preAddGroup name]
  | removeGroup name, _, s => hooks s = [.postRemoveGroup name, .preRemoveGroup name]
  | moveServers servers target, _, s =>
    (servers.toList = [] ∧ calls s = []) ∨
      (servers.toList ≠ [] ∧ hooks s = [.preMoveServers servers target] ∧
        ∃ number, (⟨.join number, .completed⟩ : Exchange) ∈ s)
  | moveTables tables target, _, s =>
    (tables.size = 0 ∧ calls s = []) ∨
      (tables.size ≠ 0 ∧ hooks s = [.postMoveTables tables target, .preMoveTables tables target])
  | balance name, ran, s =>
    (hooks s = [.postBalance name ran, .preBalance name] ∧ ¬ Halted name s) ∨
      (hooks s = [.preBalance name] ∧ ran = false ∧ Halted name s)
  | _, _, _ => True

/-- Every administrative operation keeps to its law of brackets. -/
theorem ensures_brackets (hpre : o.pre? = some pre) :
    o.program.Ensures (o.brackets pre).rule o.Closes [] := by
  cases o with
  | addGroup name =>
    cases hpre
    exact Coordinator.brackets_addGroup name
  | removeGroup name =>
    cases hpre
    exact Coordinator.brackets_removeGroup name
  | moveServers servers target =>
    cases hpre
    exact Coordinator.brackets_moveServers servers target
  | moveTables tables target =>
    cases hpre
    exact Coordinator.brackets_moveTables tables target
  | balance name =>
    cases hpre
    exact Coordinator.brackets_balance name
  | _ => cases hpre

theorem ne_forgetTable (hpre : o.pre? = some pre) : ∀ t, o ≠ .forgetTable t := by
  rintro t rfl
  cases hpre

/-- The last hook of an administrative operation, whether it or its drain calls it. -/
def Ends : Operation → Hook → Prop
  | moveServers servers _, h => ∃ goal, h = .postMoveServers servers goal
  | o, h => o.Posts h

theorem Posts.ends {h : Hook} (hpost : o.Posts h) : o.Ends h := by
  cases o with
  | moveServers servers target => exact hpost.elim
  | _ => exact hpost

/-- The call by which the registry makes the change that an operation is for. -/
def Changes : Operation → Call → Prop
  | addGroup name, k => k = .addGroup name
  | removeGroup name, k => k = .removeGroup name
  | moveServers servers _, k => ∃ source target, k = .moveServers servers source target
  | moveTables tables target, k => k = .moveTables tables target
  | _, _ => False

/-- An operation has done what it is for. -/
structure Done (o : Operation) (before : List Entry) (w : World) : Prop where
  /-- The registry has made the change, if this is not a balance. -/
  changed : (∃ name, o = .balance name) ∨ ∃ x ∈ before, ∃ k answer, o.Changes k ∧
    x.request = .call k ∧ (x.world.meet (.call k)).1 = .answered answer ∧
    x.world.site.registry.Serves k answer (x.world.meet (.call k)).2.site.registry
  /-- Every placement of every plan has been applied, if this is a balance. -/
  placed : ∀ name, o = .balance name →
    Exchange.placed (Entry.exchanges before) = planned (Entry.exchanges before)
  /-- The move is settled that was launched, if servers are moved. -/
  settled : ∀ servers target, o = .moveServers servers target → ∃ number mv,
    Entry.drain? before = some number ∧ w.moves[number]? = some mv ∧ mv.phase = .settled

/-- What an operation has done is told from what it was answered. -/
theorem Effected.done (h : o.Effected (Entry.exchanges before))
    (hsettled : ∀ servers target, o = .moveServers servers target → ∃ number mv,
      Entry.drain? before = some number ∧ w.moves[number]? = some mv ∧ mv.phase = .settled) :
    o.Done before w := by
  have hmade : ∀ k (answer : k.Answer), o.Changes k →
      (⟨.call k, answer⟩ : Exchange) ∈ Entry.exchanges before →
        ∃ x ∈ before, ∃ k answer, o.Changes k ∧ x.request = .call k ∧
          (x.world.meet (.call k)).1 = .answered answer ∧
          x.world.site.registry.Serves k answer (x.world.meet (.call k)).2.site.registry := by
    intro k answer hk hx
    obtain ⟨x, hmem, hrequest, hanswer⟩ := Entry.mem_exchanges hx
    exact ⟨x, hmem, k, answer, hk, hrequest, hanswer,
      World.serves_of_answered (Prod.ext hanswer rfl)⟩
  refine ⟨?_, fun name ho => ?_, hsettled⟩
  · cases o with
    | balance name => exact .inl ⟨name, rfl⟩
    | addGroup name => exact .inr (hmade _ _ rfl h)
    | removeGroup name => exact .inr (hmade _ _ rfl h)
    | moveTables tables target => exact .inr (hmade _ _ rfl h)
    | moveServers servers target =>
      obtain ⟨source, goal, moved, hmoved⟩ := h
      exact .inr (hmade _ _ ⟨source, goal, rfl⟩ hmoved)
    | _ => exact h.elim
  · subst ho
    exact h

/-- When an operation or its drain may make a call, by what they have asked for before. -/
inductive Brackets (o : Operation) (pre : Hook) (before : List Entry) (w : World) : Call → Prop
  | opens (hnone : (before.filterMap fun x => x.request.call?) = []) :
      Brackets o pre before w (.hook pre)
  | closes {h : Hook} (hpost : o.Ends h) (hopened : Entry.heard before = [pre])
      (hdone : o.Done before w) : Brackets o pre before w (.hook h)
  | between {k : Call} (hopened : pre ∈ Entry.heard before) (hk : ∀ h, k ≠ .hook h) :
      Brackets o pre before w k

/-- The events that an administrative operation has recorded when it returns, the latest first: none
if it has nothing to move, no last one if it is a balance that is halted, and else both. -/
def Records : (o : Operation) → o.Answer → List Exchange → List Hook → Prop
  | addGroup name, _, _, events => events = [.postAddGroup name, .preAddGroup name]
  | removeGroup name, _, _, events => events = [.postRemoveGroup name, .preRemoveGroup name]
  | moveServers servers target, _, _, events =>
    (servers.toList = [] ∧ events = []) ∨
      (servers.toList ≠ [] ∧ ∃ goal,
        events = [.postMoveServers servers goal, .preMoveServers servers target])
  | moveTables tables target, _, _, events =>
    (tables.size = 0 ∧ events = []) ∨
      (tables.size ≠ 0 ∧ events = [.postMoveTables tables target, .preMoveTables tables target])
  | balance name, ran, s, events =>
    (¬ Halted name s ∧ events = [.postBalance name ran, .preBalance name]) ∨
      (Halted name s ∧ ran = false ∧ events = [.preBalance name])
  | _, _, _, _ => False

end Operation

/-- Whoever has waited for the end of a drain has found it ended. -/
theorem World.ending_of_joined {number : Nat} {mv : Move} {ending : Ending}
    (hm : w.moves[number]? = some mv) (h : (w.meet (.join number)).1 = .answered ending) :
    mv.ending = some ending := by
  simp only [meet, hm] at h
  split at h
  · next he =>
    cases h
    exact he
  · cases h

/-- A drain is completed when its last hook is answered. -/
theorem Exit.heard_of_completed {phase : Phase} {failure : Option Error} {crash clear : Prop}
    {heard : Option (Reply Unit)} (h : Exit phase .completed failure crash clear heard) :
    heard = some (.answered ()) := by
  cases h
  rfl

/-! ### Calls in brackets -/

/-- Every call has been made when it might be. -/
def Entry.Bracketed (o : Operation) (pre : Hook) (entries : List Entry) : Prop :=
  ∀ x before, x :: before <:+ entries → ∀ k, x.request = .call k → o.Brackets pre before x.world k

namespace Entry.Bracketed

theorem tail {x : Entry} (h : Bracketed o pre (x :: before)) : Bracketed o pre before :=
  fun y others hy => h y others (hy.trans (List.suffix_cons x before))

theorem head {x : Entry} (h : Bracketed o pre (x :: before)) {k : Call} (hk : x.request = .call k) :
    o.Brackets pre before x.world k :=
  h x before List.suffix_rfl k hk

/-- No hook is heard but the first one, and then a last one. -/
theorem events (h : Bracketed o pre entries) : heard entries = [] ∨ heard entries = [pre] ∨
    ∃ post, o.Ends post ∧ heard entries = [post, pre] := by
  induction entries with
  | nil => exact .inl rfl
  | cons x before ih =>
    rw [heard_cons]
    cases hx : x.heard? with
    | none => exact ih h.tail
    | some k =>
      cases h.head (request_of_heard hx) with
      | opens hnone =>
        rw [heard_of_no_calls hnone]
        exact .inr (.inl rfl)
      | closes hpost hopened => exact .inr (.inr ⟨k, hpost, congrArg (k :: ·) hopened⟩)
      | between _ hk => exact absurd rfl (hk k)

/-- Unless the first hook is heard nothing but this hook is called. -/
theorem calls (h : Bracketed o pre entries) (hpre : pre ∉ heard entries) :
    (entries.filterMap fun x => x.request.call?) = [] ∨
      (entries.filterMap fun x => x.request.call?) = [.hook pre] := by
  induction entries with
  | nil => exact .inl rfl
  | cons x before ih =>
    rw [heard_cons, List.mem_append, not_or] at hpre
    obtain ⟨-, hbefore⟩ := hpre
    rw [List.filterMap_cons]
    cases hx : x.request.call? with
    | none => exact ih h.tail hbefore
    | some k =>
      cases h.head (Request.call?_eq_some hx) with
      | opens hnone => exact .inr (congrArg (.hook pre :: ·) hnone)
      | closes _ hopened => exact absurd (by simp [hopened]) hbefore
      | between hopened => exact absurd hopened hbefore

end Entry.Bracketed

namespace Conduct

variable {c c' : Conduct o} {a : Agent} {k : Call} {number : Nat}

/-- An operation that is followed obeys its law of brackets. -/
theorem bracketing (hE : E.Follows) (hpre : o.pre? = some pre) (h : (begin w o).Reaches E c) :
    c.Tracked ((o.brackets pre).law o.Closes) :=
  Monitor.tracked hE (o.ensures_brackets hpre) h

/-- What an operation asks for fits what it has been answered. -/
theorem fits_exchanges (hE : E.Follows) (hpre : o.pre? = some pre) (h : (begin w o).Reaches E c)
    {owed : Set Region} {q : Request} {next : q.Answer → Program a.Result}
    (hrun : c.moment.running = some ⟨a, owed, .ask q next⟩) (hop : a.isOperation = true) :
    (o.brackets pre).fits (Entry.exchanges c.entries) q := by
  have hfits := (bracketing hE hpre h).fits hrun hop
  rwa [bracketing_after] at hfits

/-- What an operation has been answered by the time that it has launched a drain. -/
theorem opened (hE : E.Follows) (hpre : o.pre? = some pre) (h : (begin w o).Reaches E c)
    {servers : ServerSet} {target : String} (hd : c.Draining number servers target) :
    (∃ goal, o = .moveServers servers goal) ∧ hooks (Entry.exchanges c.entries) = [pre] ∧
      o.Effected (Entry.exchanges c.entries) := by
  obtain ⟨v, source, hlaunch⟩ := hd.launch
  obtain ⟨⟨goal, rfl⟩, hhooks, moved, hmoved⟩ :=
    opened_of_launch (bracketing hE hpre h).lawful (launching hE h).lawful hlaunch
  rw [bracketing_after] at hhooks hmoved
  cases o with
  | moveServers servers' goal' =>
    cases hpre
    exact ⟨⟨goal, rfl⟩, hhooks, source, target, moved, hmoved⟩
  | _ => cases hpre

/-- The calls of an operation itself. -/
theorem brackets_operation (hE : E.Follows) (hpre : o.pre? = some pre)
    (h : (begin w o).Reaches E c) {owed : Set Region} {next : k.Answer → Program a.Result}
    (hrun : c.moment.running = some ⟨a, owed, .ask (.call k) next⟩) (hop : a.isOperation = true) :
    o.Brackets pre c.entries c.moment.world k := by
  have hlaw := bracketing hE hpre h
  have hops := (drained hE h).2 ((launching hE h).undrained hrun hop)
  have hheard := Entry.heard_of_untold (Entry.told_of_operations hops)
  have hfits := fits_exchanges hE hpre h hrun hop
  cases k with
  | hook k =>
    rcases hfits with ⟨rfl, hnone⟩ | ⟨hopened, hpost, heffected⟩
    · rw [Entry.calls_exchanges (hlaw.answered hrun hop) hops] at hnone
      exact .opens hnone
    · refine .closes hpost.ends (hheard.trans hopened) (heffected.done ?_)
      rintro servers target rfl
      exact hpost.elim
  | _ => exact .between (hheard ▸ hfits) (by simp)

/-- The calls of the drain of an operation. -/
theorem brackets_drain (hE : E.Follows) (hpre : o.pre? = some pre)
    (h : (begin w o).Reaches E c) {owed : Set Region} {next : k.Answer → Program a.Result}
    (hrun : c.moment.running = some ⟨a, owed, .ask (.call k) next⟩)
    (hn : Entry.drain? c.entries = some number) (ha : a.Serves number) :
    o.Brackets pre c.entries c.moment.world k := by
  obtain ⟨servers, target, hd⟩ := (drained hE h).1 number hn
  obtain ⟨⟨goal, rfl⟩, hopened, heffected⟩ := opened hE hpre h hd
  obtain ⟨steps, hcourse, htells⟩ := hd.course
  by_cases hk : ∃ x, k = .hook x
  · obtain ⟨x, rfl⟩ := hk
    obtain ⟨rfl, hnone, mv, hm, hphase⟩ := hcourse.hook ha hrun
    refine .closes ⟨target, rfl⟩ ?_ (heffected.done fun _ _ _ => ⟨number, mv, hn, hm, hphase⟩)
    rw [Entry.heard_of_untold (htells.silent hnone), hopened]
  · push Not at hk
    exact .between (Entry.hooks_sublist.subset (mem_of_hooks hopened)) hk

/-- Every call of an operation and its drain is made when it may be. -/
theorem bracketed (hE : E.Follows) (hpre : o.pre? = some pre) (h : (begin w o).Reaches E c) :
    Entry.Bracketed o pre c.entries := by
  induction h with
  | refl =>
    intro x before hx
    cases List.suffix_nil.1 hx
  | @tail c c' hreach hs ih =>
    rcases hs.entries with ⟨hsame, -⟩ | ⟨a, owed, q, next, hown, hrun, hentries, -⟩
    · rw [hsame]
      exact ih
    · rw [hentries]
      intro x before hx k hk
      rcases List.suffix_cons_iff.1 hx with hlatest | hbefore
      · cases hlatest
        obtain rfl : q = .call k := hk
        cases hop : a.isOperation with
        | true => exact brackets_operation hE hpre hreach hrun hop
        | false =>
          obtain ⟨number, hn, hserves⟩ := drain?_of_own hown hop
          exact brackets_drain hE hpre hreach hrun hn hserves
      · exact ih x before hbefore k hk

/-! ### What an operation that returns has recorded -/

/-- Before a drain is launched only the operation is heard. -/
theorem heard_of_undrained (hE : E.Follows) (h : (begin w o).Reaches E c)
    (hnone : Entry.drain? c.entries = none) :
    Entry.heard c.entries = hooks (Entry.exchanges c.entries) :=
  Entry.heard_of_untold (Entry.told_of_operations ((drained hE h).2 hnone))

/-- Once the operation itself has called both hooks, both have been heard, and no other. -/
theorem heard_of_both {post : Hook} (hb : Entry.Bracketed o pre c.entries)
    (hhooks : hooks (Entry.exchanges c.entries) = [post, pre]) :
    Entry.heard c.entries = [post, pre] := by
  have hsub : (hooks (Entry.exchanges c.entries)).Sublist (Entry.heard c.entries) :=
    Entry.hooks_sublist
  rw [hhooks] at hsub
  rcases hb.events with hheard | hheard | ⟨post', -, hheard⟩
  · simp [hheard] at hsub
  · simpa [hheard] using hsub.length_le
  · rw [hheard] at hsub ⊢
    exact (hsub.eq_of_length rfl).symm

/-- An operation that has waited for a drain has waited for the one that it has launched. -/
theorem joins (hE : E.Follows) (hpre : o.pre? = some pre) (h : (begin w o).Reaches E c)
    {owed : Set Region} {q : Request} {next : q.Answer → Program a.Result}
    (hrun : c.moment.running = some ⟨a, owed, .ask q next⟩) (hop : a.isOperation = true)
    (hjoin : Entry.exchange? ⟨a, c.moment.world, q⟩ = some ⟨.join number, .completed⟩) :
    Entry.drain? c.entries = some number ∧ c.moment.Over number .completed := by
  obtain ⟨rfl, hanswer⟩ : q = .join number ∧
    (c.moment.world.meet (.join number)).1 = .answered .completed := Entry.exchange?_eq_some hjoin
  obtain ⟨_, _, _, hlaunch⟩ := fits_exchanges hE hpre h hrun hop
  have hn := drain?_of_exchange (launching hE h).lawful hlaunch
  refine ⟨hn, ?_, fun b hb hserves => ?_⟩
  · obtain ⟨servers, target, hd⟩ := (drained hE h).1 number hn
    obtain ⟨steps, hcourse, -⟩ := hd.course
    obtain ⟨mv, hm⟩ := hcourse.records
    exact ⟨mv, hm.move, World.ending_of_joined hm.move hanswer⟩
  · cases hrun.symm.trans hb
    cases hop.symm.trans (Agent.isOperation_of_serves hserves)

/-- An operation that has waited for its drain has found it completed, and it stays so. -/
theorem joined (hE : E.Follows) (hpre : o.pre? = some pre) (h : (begin w o).Reaches E c)
    (hjoin : (⟨.join number, .completed⟩ : Exchange) ∈ Entry.exchanges c.entries) :
    Entry.drain? c.entries = some number ∧ c.moment.Over number .completed := by
  induction h with
  | refl => exact absurd hjoin List.not_mem_nil
  | @tail c c' hreach hs ih =>
    have hkeeps : Entry.drain? c.entries = some number ∧ c.moment.Over number .completed →
        Entry.drain? c'.entries = some number ∧ c'.moment.Over number .completed := by
      rintro ⟨hn, hover⟩
      obtain ⟨servers, target, hd⟩ := (drained hE hreach).1 number hn
      have hlaunching := launching hE hreach
      exact ⟨(hd.step hE hlaunching hn hs).1, hs.moment.over hE.moves hlaunching.waiting hover⟩
    refine hkeeps ?_
    rcases hs.entries with ⟨hsame, -⟩ | ⟨a, owed, q, next, -, hrun, hentries, -⟩
    · rw [hsame] at hjoin
      exact ih hjoin
    · rw [hentries] at hjoin
      cases hop : a.isOperation with
      | false =>
        rw [Entry.exchanges_drain hop] at hjoin
        exact ih hjoin
      | true =>
        rw [Entry.exchanges_operation hop, List.mem_append, Option.mem_toList] at hjoin
        exact hjoin.elim (joins hE hpre hreach hrun hop) ih

/-- A drain that is completed has called the last hook, and was answered. -/
theorem heard_of_completed {servers : ServerSet} {target : String}
    (hd : c.Draining number servers target) (hover : c.moment.Over number .completed) :
    .postMoveServers servers target ∈ Entry.heard c.entries := by
  obtain ⟨entries, outcome, m⟩ := c
  obtain ⟨steps, hcourse, htells⟩ := hd.course
  obtain ⟨⟨mv, hm, he⟩, hrun⟩ := hover
  cases hcourse with
  | rests hm' he' =>
    obtain rfl := Option.some.inj (hm.symm.trans hm'.move)
    cases he.symm.trans he'
  | passes => exact absurd rfl (hrun _ rfl)
  | finishes => exact absurd rfl (hrun _ rfl)
  | ended hm' he' _ hexit hseen =>
    obtain rfl := Option.some.inj (hm.symm.trans hm'.move)
    obtain rfl := Option.some.inj (he.symm.trans he')
    obtain ⟨v, mv', htold, hanswer, -⟩ :=
      htells.heard _ ((hseen.heard (.answered ())).2 hexit.heard_of_completed)
    exact Entry.mem_heard_of_told (by rw [htold]; exact List.mem_singleton.2 rfl) hanswer

/-- An operation that has not called its first hook, or moves no servers, has launched no drain. -/
theorem undrained_of_hooks (hE : E.Follows) (hpre : o.pre? = some pre)
    (h : (begin w o).Reaches E c)
    (hnot : hooks (Entry.exchanges c.entries) ≠ [pre] ∨
      ∀ servers goal, o ≠ .moveServers servers goal) : Entry.drain? c.entries = none := by
  by_contra hsome
  obtain ⟨number, hn⟩ := Option.ne_none_iff_exists'.1 hsome
  obtain ⟨servers, target, hd⟩ := (drained hE h).1 number hn
  obtain ⟨⟨goal, ho⟩, hhooks, -⟩ := opened hE hpre h hd
  exact hnot.elim (absurd hhooks) fun hno => hno servers goal ho

/-- An operation that has made no call is not heard. -/
theorem heard_of_idle (hE : E.Follows) (hpre : o.pre? = some pre) (h : (begin w o).Reaches E c)
    (hcalls : Exchange.calls (Entry.exchanges c.entries) = []) : Entry.heard c.entries = [] := by
  have hnone := hooks_of_no_calls hcalls
  rw [heard_of_undrained hE h (undrained_of_hooks hE hpre h (.inl (by simp [hnone]))), hnone]

/-- A move of servers that has waited for its drain has been heard, and so has the drain. -/
theorem heard_of_joined {servers : ServerSet} {target : String}
    {c : Conduct (.moveServers servers target)} (hE : E.Follows)
    (h : (begin w (.moveServers servers target)).Reaches E c)
    (hjoin : (⟨.join number, .completed⟩ : Exchange) ∈ Entry.exchanges c.entries) : ∃ goal,
    Entry.heard c.entries = [.postMoveServers servers goal, .preMoveServers servers target] := by
  obtain ⟨hn, hover⟩ := joined hE rfl h hjoin
  obtain ⟨_, goal, hd⟩ := (drained hE h).1 number hn
  obtain ⟨⟨_, ho⟩, -⟩ := opened hE rfl h hd
  cases ho
  have hpost := heard_of_completed hd hover
  refine ⟨goal, ?_⟩
  rcases (bracketed hE rfl h).events with hheard | hheard | ⟨post, -, hheard⟩
  · rw [hheard] at hpost
    cases hpost
  · rw [hheard, List.mem_singleton] at hpost
    cases hpost
  · rw [hheard, List.mem_pair] at hpost
    rcases hpost with rfl | hpost
    · exact hheard
    · cases hpost

/-- What an administrative operation has recorded when it returns. -/
theorem records_of_returned (hE : E.Follows) (hpre : o.pre? = some pre)
    (h : (begin w o).Reaches E c) {result : o.Answer}
    (hresult : c.outcome = some (.returned result)) :
    o.Records result (Entry.exchanges c.entries) (Entry.heard c.entries) := by
  have hb := bracketed hE hpre h
  have hcloses : o.Closes result ((o.brackets pre).after (Entry.asked c.entries)) :=
    (bracketing hE hpre h).returned (o.ne_forgetTable hpre) hresult
  rw [bracketing_after] at hcloses
  cases o with
  | addGroup name =>
    cases hpre
    exact heard_of_both hb hcloses
  | removeGroup name =>
    cases hpre
    exact heard_of_both hb hcloses
  | moveServers servers target =>
    cases hpre
    rcases hcloses with ⟨hnone, hcalls⟩ | ⟨hsome, -, number, hjoin⟩
    · exact .inl ⟨hnone, heard_of_idle hE rfl h hcalls⟩
    · exact .inr ⟨hsome, heard_of_joined hE h hjoin⟩
  | moveTables tables target =>
    cases hpre
    rcases hcloses with ⟨hnone, hcalls⟩ | ⟨hsome, hhooks⟩
    · exact .inl ⟨hnone, heard_of_idle hE rfl h hcalls⟩
    · exact .inr ⟨hsome, heard_of_both hb hhooks⟩
  | balance name =>
    cases hpre
    rcases hcloses with ⟨hhooks, hnot⟩ | ⟨hhooks, hran, hhalted⟩
    · exact .inl ⟨hnot, heard_of_both hb hhooks⟩
    · have hnone := undrained_of_hooks hE rfl h (.inr (by simp))
      exact .inr ⟨hhalted, hran, (heard_of_undrained hE h hnone).trans hhooks⟩
  | _ => cases hpre

/-! ### Every run -/

/-- The hooks of an operation bracket what it and its drain do. -/
structure InBrackets (pre : Hook) (c : Conduct o) : Prop where
  /-- At most one first and one last event are recorded, the first one first. -/
  events : c.recorded = [] ∨ c.recorded = [pre] ∨ ∃ post, o.Ends post ∧ c.recorded = [post, pre]
  /-- The first event is recorded before any other call is made. -/
  opens : ∀ x before k, x :: before <:+ c.entries → x.request = .call k → k ≠ .hook pre →
    pre ∈ before.flatMap Entry.recorded
  /-- If the first hook fails no other call is made. -/
  refused : pre ∉ c.recorded → c.calls = [] ∨ c.calls = [.hook pre]
  /-- Every other hook is the last one, called when the operation has done what it is for. -/
  closes : ∀ x before h, x :: before <:+ c.entries → x.request = .call (.hook h) → h ≠ pre →
    o.Ends h ∧ o.Done before x.world
  /-- An operation that returns has recorded its events. -/
  returns : ∀ result, c.outcome = some (.returned result) →
    o.Records result (Entry.exchanges c.entries) c.recorded

/-- **Hooks bracket effects.**  In every schedule, whatever calls fail in it, the hooks of an
administrative operation bracket its calls and those of its drain. -/
theorem hooks_bracket (hE : E.Follows) (hrecords : E.KeepsRecording) (hw : w.Recording)
    (hpre : o.pre? = some pre) (h : (begin w o).Reaches E c) : c.InBrackets pre := by
  have hb := bracketed hE hpre h
  have hrecorded := recorded_eq hrecords hw h
  refine ⟨?_, fun x before k hx hk hne => ?_, fun hnot => ?_, fun x before k hx hk hne => ?_,
    fun result hresult => ?_⟩
  · rw [hrecorded]
    exact hb.events
  · have hbefore : ∀ y ∈ before, y.world.Recording := fun y hy =>
      (recording hrecords hw h).2 y (hx.subset (List.mem_cons_of_mem x hy))
    rw [Entry.events_eq hbefore]
    cases hb x before hx k hk with
    | opens => exact absurd rfl hne
    | closes _ hopened => simp [hopened]
    | between hopened => exact hopened
  · rw [hrecorded] at hnot
    exact hb.calls hnot
  · generalize hcall : Call.hook k = call at hk
    cases hb x before hx call hk with
    | opens => exact absurd (Call.hook.inj hcall) hne
    | closes hends _ hdone =>
      cases hcall
      exact ⟨hends, hdone⟩
    | between _ hno => exact absurd hcall.symm (hno k)
  · rw [hrecorded]
    exact records_of_returned hE hpre h hresult

end Conduct

/-! ### A group that is added -/

/-- Two servers, and an observer that records. -/
def World.observed : World := start {} { Site.pair with observer := .recording {} }

namespace Conduct

/-- A group is added, and both of its hooks are recorded. -/
theorem hooks_bracket_observed : ∃ c : Conduct (.addGroup "a"),
    (begin .observed (.addGroup "a")).Reaches .alone c ∧ c.InBrackets (.preAddGroup "a") ∧
    c.recorded = [.postAddGroup "a", .preAddGroup "a"] := by
  have hhook : (begin .observed (.addGroup "a")).Smoothly .alone _ :=
    Smoothly.answers trivial rfl
  have hlock := hhook.trans (Smoothly.answers trivial rfl)
  have hlook := hlock.trans (Smoothly.answers trivial rfl)
  have hadd := hlook.trans (Smoothly.answers trivial rfl)
  have hunlock := hadd.trans (Smoothly.answers trivial rfl)
  have hnote := hunlock.trans (Smoothly.answers trivial rfl)
  have hpost := hnote.trans (Smoothly.answers trivial rfl)
  have hreturns := (Smoothly.reaches hpost).tail (.ends .returned)
  have hb := hooks_bracket Setting.follows_alone False.elim ⟨_, rfl⟩ rfl hreturns
  exact ⟨_, hreturns, hb, hb.returns () rfl⟩

end Conduct

end ServerGroups
