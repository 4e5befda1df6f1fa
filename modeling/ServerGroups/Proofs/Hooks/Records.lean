/-
ServerGroups/Proofs/Hooks/Records.lean

What is recorded of an operation and its drain.

A recording observer keeps every hook that it does not refuse, and no other
call touches it.  So the events that the requests of an operation and of its
drain add to it are the hooks among them that were answered
(`Conduct.recorded_eq`).  What an operation itself was answered is what its law
of brackets reads (`bracketing_after`); once it has launched a drain, only its
first hook is among this (`opened_of_launch`).
-/
import ServerGroups.Proofs.Hooks.Balance

namespace ServerGroups

open Program Exchange

variable {E : Setting} {o : Operation} {w w' : World} {entries : List Entry} {m m' : Moment}
variable {a : Agent} {q : Request}

/-! ### Recording observers -/

/-- The observer records the hooks that it is called with. -/
def World.Recording (w : World) : Prop := ∃ recorder, w.site.observer = .recording recorder

/-- What happens outside leaves a recording observer in its place. -/
def Setting.KeepsRecording (E : Setting) : Prop :=
  ∀ {w w' : World}, E.outside w w' → w.Recording → w'.Recording

theorem Site.observer_serve {site : Site} {c : Call} (hc : ∀ h, c ≠ .hook h) :
    (site.serve c).site.observer = site.observer := by
  cases c with
  | hook h => exact absurd rfl (hc h)
  | _ => simp only [serve, look, plan] <;> (try split) <;> rfl

/-- A hook that is answered is recorded. -/
theorem Site.observer_serve_hook {site : Site} {recorder : Recorder} {h : Hook}
    (hs : site.observer = .recording recorder) (ha : (site.serve (.hook h)).answer = .ok ()) :
    (site.serve (.hook h)).site.observer =
      .recording { recorder with events := recorder.events.push h } := by
  revert ha
  simp only [serve, hs, Observer.hear, Recorder.record]
  split
  · next observer heq =>
    split at heq
    · cases heq
    · exact fun _ => (Except.ok.inj heq).symm
  · exact fun ha => by cases ha

theorem Request.call?_eq_some {c : Call} (hq : q.call? = some c) : q = .call c := by
  cases q with
  | call c' => rw [Option.some.inj hq]
  | _ => cases hq

theorem Request.hook?_eq_some {h : Hook} (hq : q.hook? = some h) : q = .call (.hook h) := by
  unfold hook? at hq
  split at hq
  · rw [Option.some.inj hq]
  · cases hq

/-- The hook that is heard if a request is replied. -/
def Request.heard? (q : Request) : Reply q.Answer → Option Hook
  | .answered _ => q.hook?
  | _ => none

/-- A request adds to a recording observer the hook that is heard, and nothing else. -/
theorem World.recording_meet {recorder : Recorder} {reply : Reply q.Answer}
    (hw : w.site.observer = .recording recorder) (h : w.meet q = (reply, w')) :
    ∃ recorder', w'.site.observer = .recording recorder' ∧
      recorder'.events.toList = recorder.events.toList ++ (q.heard? reply).toList := by
  cases reply with
  | answered answer =>
    by_cases hcall : ∃ c, q = .call c
    · obtain ⟨c, rfl⟩ := hcall
      obtain ⟨hanswer, hsite⟩ := answered_call h
      cases c with
      | hook k =>
        refine ⟨_, (congrArg Site.observer hsite).trans (Site.observer_serve_hook hw hanswer), ?_⟩
        exact Array.toList_push
      | _ =>
        refine ⟨recorder, ?_, (List.append_nil _).symm⟩
        rw [hsite, Site.observer_serve fun h => by simp]
        exact hw
    · push Not at hcall
      refine ⟨recorder, by rw [site_of_no_call h hcall, hw], ?_⟩
      cases q with
      | call c => exact absurd rfl (hcall c)
      | _ => exact (List.append_nil _).symm
  | _ =>
    refine ⟨recorder, ?_, (List.append_nil _).symm⟩
    rw [site_of_not_answered h fun _ => by simp, hw]

theorem World.Recording.of_site (hw : w.Recording) (h : w'.site = w.site) : w'.Recording := by
  obtain ⟨recorder, hrecorder⟩ := hw
  exact ⟨recorder, by rw [h, hrecorder]⟩

theorem Moment.Step.recording (hE : E.KeepsRecording) (hw : m.world.Recording) (hs : m.Step E m') :
    m'.world.Recording := by
  cases hs with
  | outside ho => exact hE ho hw
  | @answers w w' waiting agent owed q next answer h =>
    obtain ⟨recorder, hrecorder⟩ := hw
    obtain ⟨recorder', hrecorder', -⟩ := World.recording_meet hrecorder h
    exact ⟨recorder', hrecorder'⟩
  | ends he => exact hw.of_site ((Moment.site_close ..).trans he.site)
  | _ => exact hw.of_site rfl

/-- Where no call was answered no hook was. -/
theorem Exchange.hooks_of_no_calls {s : List Exchange} (h : calls s = []) : hooks s = [] := by
  rw [calls, List.filterMap_eq_nil_iff] at h
  rw [hooks, List.filterMap_eq_nil_iff]
  intro x hx
  by_contra hhook
  obtain ⟨k, hk⟩ := Option.ne_none_iff_exists'.1 hhook
  have hcall := h x hx
  rw [Request.hook?_eq_some hk] at hcall
  cases hcall

/-! ### What is recorded of entries -/

namespace Entry

/-- The events that a request has added to the observer. -/
def recorded (x : Entry) : List Hook :=
  (x.world.meet x.request).2.site.observer.events.toList.drop x.world.site.observer.events.size

/-- A request with its answer, if it was answered. -/
def exchange? (x : Entry) : Option Exchange :=
  match (x.world.meet x.request).1 with
  | .answered answer => some ⟨x.request, answer⟩
  | _ => none

/-- The hook that was heard, if one was. -/
def heard? (x : Entry) : Option Hook := x.exchange?.bind fun y => y.1.hook?

/-- The hooks that were heard, the latest first. -/
def heard (entries : List Entry) : List Hook := entries.filterMap heard?

/-- What an operation itself was answered, the latest first. -/
def exchanges (entries : List Entry) : List Exchange :=
  (entries.filter fun x => x.agent.isOperation).filterMap exchange?

theorem exchange?_of_answered {answer : q.Answer} (h : (w.meet q).1 = .answered answer) :
    exchange? ⟨a, w, q⟩ = some ⟨q, answer⟩ := by
  simp only [exchange?, h]

theorem exchange?_eq_some {x : Entry} {answer : q.Answer} (hx : x.exchange? = some ⟨q, answer⟩) :
    x.request = q ∧ (x.world.meet q).1 = .answered answer := by
  obtain ⟨a, w, q'⟩ := x
  unfold exchange? at hx
  split at hx
  · next h =>
    cases hx
    exact ⟨rfl, h⟩
  · cases hx

/-- What an operation was answered it was answered to one of its requests. -/
theorem mem_exchanges {answer : q.Answer} (hx : (⟨q, answer⟩ : Exchange) ∈ exchanges entries) :
    ∃ x ∈ entries, x.request = q ∧ (x.world.meet q).1 = .answered answer := by
  rw [exchanges, List.mem_filterMap] at hx
  obtain ⟨x, hmem, hx⟩ := hx
  exact ⟨x, List.mem_of_mem_filter hmem, exchange?_eq_some hx⟩

theorem heard?_of_no_hook {x : Entry} (hx : x.request.hook? = none) : x.heard? = none := by
  unfold heard? exchange?
  split
  · exact hx
  · rfl

theorem request_of_heard {x : Entry} {h : Hook} (hx : x.heard? = some h) :
    x.request = .call (.hook h) := by
  unfold heard? exchange? at hx
  split at hx
  · exact Request.hook?_eq_some hx
  · cases hx

/-- A request adds the hook that is heard. -/
theorem recorded_eq {x : Entry} (hx : x.world.Recording) : x.recorded = x.heard?.toList := by
  obtain ⟨a, w, q⟩ := x
  obtain ⟨recorder, hw⟩ : ∃ recorder, w.site.observer = .recording recorder := hx
  rcases hm : w.meet q with ⟨reply, w'⟩
  obtain ⟨recorder', hw', hevents⟩ := World.recording_meet hw hm
  have hheard : heard? ⟨a, w, q⟩ = q.heard? reply := by
    rw [heard?, exchange?, hm]
    cases reply <;> rfl
  simp only [recorded, hm, hw, hw', Observer.events]
  rw [hevents, hheard, ← Array.length_toList, List.drop_left]

theorem events_eq (h : ∀ x ∈ entries, x.world.Recording) :
    entries.flatMap recorded = heard entries := by
  rw [heard, List.filterMap_eq_flatMap_toList]
  exact List.flatMap_congr fun x hx => recorded_eq (h x hx)

theorem exchanges_operation (ha : a.isOperation = true) :
    exchanges (⟨a, w, q⟩ :: entries) =
      (exchange? ⟨a, w, q⟩).toList ++ exchanges entries := by
  rw [exchanges, List.filter_cons_of_pos (by exact ha), List.filterMap_cons]
  cases exchange? ⟨a, w, q⟩ <;> rfl

theorem exchanges_drain (ha : a.isOperation = false) :
    exchanges (⟨a, w, q⟩ :: entries) = exchanges entries := by
  rw [exchanges, List.filter_cons_of_neg (by simp [ha]), exchanges]

theorem heard_cons (x : Entry) : heard (x :: entries) = x.heard?.toList ++ heard entries := by
  rw [heard, List.filterMap_cons, heard]
  cases x.heard? <;> rfl

theorem hooks_exchanges : hooks (exchanges entries) =
    (entries.filter fun x => x.agent.isOperation).filterMap heard? := by
  rw [hooks, exchanges, List.filterMap_filterMap]
  rfl

theorem heard_of_no_calls (h : (entries.filterMap fun x => x.request.call?) = []) :
    heard entries = [] := by
  rw [List.filterMap_eq_nil_iff] at h
  rw [heard, List.filterMap_eq_nil_iff]
  intro x hx
  by_contra hheard
  obtain ⟨k, hk⟩ := Option.ne_none_iff_exists'.1 hheard
  have hcall := h x hx
  rw [request_of_heard hk] at hcall
  cases hcall

/-- What an operation itself calls is heard like every other hook. -/
theorem hooks_sublist : (hooks (exchanges entries)).Sublist (heard entries) := by
  rw [hooks_exchanges]
  exact List.filter_sublist.filterMap _

/-- While nothing is told of a drain only the operation is heard. -/
theorem heard_of_untold (h : told entries = []) : heard entries = hooks (exchanges entries) := by
  rw [hooks_exchanges, heard]
  induction entries with
  | nil => rfl
  | cons x entries ih =>
    simp only [told, List.filterMap_cons] at h ih
    cases hop : x.agent.isOperation with
    | true =>
      rw [hop, if_pos rfl] at h
      rw [List.filter_cons_of_pos (by exact hop), List.filterMap_cons, List.filterMap_cons, ih h]
    | false =>
      rw [hop, if_neg (by simp)] at h
      cases hq : x.request.hook? with
      | some k =>
        rw [hq] at h
        cases h
      | none =>
        rw [hq] at h
        rw [List.filter_cons_of_neg (by simp [hop]), List.filterMap_cons, heard?_of_no_hook hq]
        exact ih h

/-- The calls of an operation all of whose requests were answered are those of its exchanges. -/
theorem calls_exchanges (hanswered : ∀ x ∈ asked entries, Answered x)
    (hops : ∀ x ∈ entries, x.agent.isOperation = true) :
    Exchange.calls (exchanges entries) = entries.filterMap fun x => x.request.call? := by
  induction entries with
  | nil => rfl
  | cons x entries ih =>
    obtain ⟨a, w, q⟩ := x
    obtain ⟨ha, hops⟩ := List.forall_mem_cons.1 hops
    rw [asked, List.filter_cons_of_pos (by exact ha), List.map_cons] at hanswered
    obtain ⟨⟨answer, hanswer⟩, hanswered⟩ := List.forall_mem_cons.1 hanswered
    rw [exchanges_operation ha, exchange?_of_answered hanswer]
    simp only [Option.toList_some, List.singleton_append, Exchange.calls, List.filterMap_cons]
    rw [← ih hanswered hops]
    rfl

/-- A hook that was told of a drain and answered was heard. -/
theorem mem_heard_of_told {h : Hook} (hx : (w, h) ∈ told entries)
    (hanswer : (w.meet (.call (.hook h))).1 = .answered ()) : h ∈ heard entries := by
  rw [told, List.mem_filterMap] at hx
  obtain ⟨⟨a, v, q⟩, hmem, htold⟩ := hx
  rw [heard, List.mem_filterMap]
  refine ⟨⟨a, v, q⟩, hmem, ?_⟩
  split at htold
  · cases htold
  · cases hq : q.hook? with
    | none =>
      simp only [hq, Option.map_none] at htold
      cases htold
    | some k =>
      simp only [hq, Option.map_some] at htold
      cases htold
      obtain rfl := Request.hook?_eq_some hq
      rw [heard?, exchange?_of_answered hanswer]
      rfl

end Entry

namespace Conduct

variable {c c' : Conduct o}

/-- The events that an operation and its drain have added to the observer, the latest first. -/
def recorded (c : Conduct o) : List Hook := c.entries.flatMap Entry.recorded

theorem recording (hE : E.KeepsRecording) (hw : w.Recording) (h : (begin w o).Reaches E c) :
    c.moment.world.Recording ∧ ∀ x ∈ c.entries, x.world.Recording := by
  induction h with
  | refl => exact ⟨hw, fun x hx => absurd hx List.not_mem_nil⟩
  | tail _ hs ih =>
    refine ⟨hs.moment.recording hE ih.1, ?_⟩
    rcases hs.entries with ⟨hsame, -⟩ | ⟨a, owed, q, next, -, -, hentries, -⟩
    · rw [hsame]
      exact ih.2
    · rw [hentries]
      exact List.forall_mem_cons.2 ⟨ih.1, ih.2⟩

/-- What is recorded is what is heard. -/
theorem recorded_eq (hE : E.KeepsRecording) (hw : w.Recording) (h : (begin w o).Reaches E c) :
    c.recorded = Entry.heard c.entries :=
  Entry.events_eq (recording hE hw h).2

end Conduct

/-! ### What the law of brackets reads -/

variable {pre : Hook} {post : Hook → Prop} {ready : List Exchange → Prop} {asked : Asked}

theorem bracketing_after : ∀ entries : List Entry,
    (bracketing pre post ready).after (Entry.asked entries) = Entry.exchanges entries
  | [] => rfl
  | ⟨a, w, q⟩ :: entries => by
    have ih := bracketing_after entries
    cases hop : a.isOperation with
    | false => rw [Entry.asked_drain hop, Entry.exchanges_drain hop, ih]
    | true =>
      rw [Entry.exchanges_operation hop, Entry.asked, List.filter_cons_of_pos (by exact hop),
        List.map_cons, Monitor.after, ← Entry.asked, ih, Entry.exchange?]
      cases (w.meet q).1 <;> rfl

/-- The drain whose launch was answered is the one that has been launched. -/
theorem drain?_of_exchange {servers : ServerSet} {source target : String} {number : Nat}
    (hlaunched : (Entry.asked entries).Launched)
    (hx : (⟨.launch servers source target, number⟩ : Exchange) ∈ Entry.exchanges entries) :
    Entry.drain? entries = some number := by
  rw [Entry.exchanges, List.mem_filterMap] at hx
  obtain ⟨x, hmem, hx⟩ := hx
  obtain ⟨hrequest, hanswer⟩ := Entry.exchange?_eq_some hx
  obtain rfl : x.world.moves.size = number := Reply.answered.inj hanswer
  have hlaunch : (x.world, Request.launch servers source target) ∈ Entry.asked entries :=
    List.mem_map.2 ⟨x, hmem, by rw [hrequest]⟩
  rw [← launching_after]
  exact launched_of_mem hlaunched hlaunch

/-- The law of brackets allows some requests. -/
abbrev Asked.Bracketed (pre : Hook) (post : Hook → Prop) (ready : List Exchange → Prop)
    (asked : Asked) : Prop :=
  asked.Lawful fun asked q =>
    (bracketing pre post ready).fits ((bracketing pre post ready).after asked) q

/-- Once a drain is launched, the registry has moved its servers, and of the hooks of the operation
only the first one has been heard. -/
theorem opened_of_launch {servers : ServerSet} {source target : String}
    (hlawful : asked.Bracketed pre post ready) (hlaunched : asked.Launched)
    (hlaunch : (w, Request.launch servers source target) ∈ asked) :
    (∃ goal, pre = .preMoveServers servers goal) ∧
      hooks ((bracketing pre post ready).after asked) = [pre] ∧
      ∃ moved, (⟨.call (.moveServers servers source target), moved⟩ : Exchange) ∈
        (bracketing pre post ready).after asked := by
  induction asked with
  | nil => exact absurd hlaunch List.not_mem_nil
  | cons x before ih =>
    rcases List.mem_cons.1 hlaunch with rfl | hbefore
    · obtain ⟨hgoal, hhooks, moved, hmoved⟩ := hlawful.1
      exact ⟨hgoal, hhooks, moved, List.mem_cons_of_mem _ hmoved⟩
    · obtain ⟨v, q⟩ := x
      obtain ⟨hgoal, hhooks, moved, hmoved⟩ := ih hlawful.2.2 hlaunched.2.2 hbefore
      have hwaits := launched_awaits hlaunched (launched_of_mem hlaunched.2.2 hbefore)
      refine ⟨hgoal, ?_⟩
      rw [Monitor.after]
      split
      · refine ⟨?_, moved, List.mem_cons_of_mem _ hmoved⟩
        rcases hwaits with rfl | ⟨n, rfl⟩ <;> exact hhooks
      · exact ⟨hhooks, moved, hmoved⟩

end ServerGroups
