/-
ServerGroups/Proofs/Runs/Record.lean

What a run asks for, request by request.

`World.record p w` lists the requests that the run of a program comes to, each
with the world in which it is met, and `World.unassignments p w` those of them
that ask for a region to be unassigned, with the locks that are held by then.
`World.Yields p w log post` says that the run returns, that this is the list,
and that the result and the last world satisfy `post`.

Design.  The record of a sequence is that of its first part and then that of
the second one (`record_bind`).  So the parts of a program that ask for no
region are left to the theory of their results (`yields_of_asksNone`), and only
those that do are looked at request by request.
-/
import ServerGroups.Proofs.Guarded
import ServerGroups.Proofs.Inquiries
import ServerGroups.Proofs.Runs.Requests

namespace ServerGroups

open Program

/-- The region that a request asks to be unassigned, if it asks for one. -/
def Request.region? : Request → Option Region
  | .call (.unassign r) => some r
  | _ => none

/-- A program asks for no region. -/
abbrev Program.AsksNone {α : Type} (p : Program α) : Prop :=
  p.Only (fun q => q.region? = none) fun _ => True

theorem Request.region?_of_looks {q : Request} (hq : q.looks = true) : q.region? = none := by
  cases q with
  | call c => cases c <;> first | rfl | cases hq
  | _ => rfl

namespace World

variable {α β : Type} {w x : World} {p : Program α} {f : α → Program β} {a : α}

/-! ### The record of a run -/

/-- The requests that a run comes to, in order, each with the world in which it is met. -/
def record {α : Type} : Program α → World → List (World × Request)
  | .done _, _ => []
  | .fail _, _ => []
  | .ask request next, w =>
    (w, request) ::
      match w.meet request with
      | (.answered answer, w') => record (next answer) w'
      | _ => []

/-- The regions that a run asks to be unassigned, in order, each with the locks held by then. -/
def unassignments {α : Type} (p : Program α) (w : World) : List (Locks × Region) :=
  (record p w).filterMap fun x => x.2.region?.map fun r => (x.1.locks, r)

/-- A sequence goes on where its first part has returned. -/
theorem run_bind : ∀ {w : World}, run p w = (.returned a, x) → run (p >>= f) w = run (f a) x := by
  induction p with
  | done b =>
    intro w h
    obtain ⟨hb, rfl⟩ := Prod.mk.inj h
    rw [bind_done, Progress.returned.inj hb]
  | fail cause => exact fun h => by cases h
  | ask q next ih =>
    intro w h
    rw [run] at h
    rw [bind_ask, run]
    rcases hm : w.meet q with ⟨reply, w'⟩
    rw [hm] at h
    cases reply with
    | answered answer => exact ih answer h
    | _ => cases h

theorem record_bind : ∀ {w : World}, run p w = (.returned a, x) →
    record (p >>= f) w = record p w ++ record (f a) x := by
  induction p with
  | done b =>
    intro w h
    obtain ⟨hb, rfl⟩ := Prod.mk.inj h
    rw [bind_done, Progress.returned.inj hb]
    rfl
  | fail cause => exact fun h => by cases h
  | ask q next ih =>
    intro w h
    rw [run] at h
    rw [bind_ask, record, record, List.cons_append]
    rcases hm : w.meet q with ⟨reply, w'⟩
    rw [hm] at h
    cases reply with
    | answered answer => exact congrArg _ (ih answer h)
    | _ => cases h

/-- What is recorded of a sequence is recorded of its first part, or of the second one from where
the first one has returned. -/
theorem of_mem_record_bind {y : World × Request} : ∀ {w : World}, y ∈ record (p >>= f) w →
    y ∈ record p w ∨ ∃ a x, run p w = (.returned a, x) ∧ y ∈ record (f a) x := by
  induction p with
  | done b => exact fun hy => .inr ⟨b, _, rfl, hy⟩
  | fail cause => exact fun hy => absurd hy List.not_mem_nil
  | ask q next ih =>
    intro w hy
    rw [bind_ask, record] at hy
    rw [record, run, List.mem_cons]
    rcases List.mem_cons.1 hy with rfl | hy
    · exact .inl (.inl rfl)
    · rcases hm : w.meet q with ⟨reply, w'⟩
      rw [hm] at hy
      cases reply with
      | answered answer => exact (ih answer hy).imp_left .inr
      | _ => exact absurd hy List.not_mem_nil

/-- What is recorded of a program is one of the requests that it comes to. -/
theorem of_mem_record {P : Request → Prop} {F : Error → Prop} (h : p.Only P F)
    {y : World × Request} : ∀ {w : World}, y ∈ record p w → P y.2 := by
  induction p with
  | done b => exact fun hy => absurd hy List.not_mem_nil
  | fail cause => exact fun hy => absurd hy List.not_mem_nil
  | ask q next ih =>
    intro w hy
    rw [record] at hy
    rcases List.mem_cons.1 hy with rfl | hy
    · exact h.1
    · rcases hm : w.meet q with ⟨reply, w'⟩
      rw [hm] at hy
      cases reply with
      | answered answer => exact ih answer (h.2 answer) hy
      | _ => exact absurd hy List.not_mem_nil

/-- A request that changes no more than where regions are and which locks are held leaves the
registry alone. -/
theorem registry_meet {q : Request} (hq : q.usual = true) {reply : Reply q.Answer}
    (h : w.meet q = (reply, x)) : x.site.registry = w.site.registry := by
  by_cases hanswered : ∃ answer, reply = .answered answer
  · obtain ⟨answer, rfl⟩ := hanswered
    cases q with
    | call c =>
      exact (serves_of_answered h).eq_of_reads (by simpa [Request.usual, Request.reads] using hq)
    | _ => rw [site_of_no_call h nofun]
  · rw [site_of_not_answered h fun answer ha => hanswered ⟨answer, ha⟩]

/-- So does a program that comes to such requests only: however it ends, all of them have been met
with one registry. -/
theorem registry_run {F : Error → Prop} (h : p.Only (fun q => q.usual = true) F) : ∀ {w : World},
    (run p w).2.site.registry = w.site.registry ∧
      ∀ y ∈ record p w, y.1.site.registry = w.site.registry := by
  induction p with
  | done a => exact fun {_} => ⟨rfl, fun _ hy => absurd hy List.not_mem_nil⟩
  | fail cause => exact fun {_} => ⟨rfl, fun _ hy => absurd hy List.not_mem_nil⟩
  | ask q next ih =>
    intro w
    rcases hm : w.meet q with ⟨reply, w'⟩
    have hmet := registry_meet h.1 hm
    rw [run, record, hm]
    cases reply with
    | answered answer =>
      obtain ⟨hrun, hrecord⟩ := ih answer (h.2 answer) (w := w')
      refine ⟨hrun.trans hmet, fun y hy => ?_⟩
      rcases List.mem_cons.1 hy with rfl | hy
      · rfl
      · exact (hrecord y hy).trans hmet
    | _ =>
      refine ⟨hmet, fun y hy => ?_⟩
      rw [List.mem_singleton.1 hy]

theorem unassignments_of_asksNone (h : p.AsksNone) : unassignments p w = [] :=
  List.filterMap_eq_nil_iff.2 fun y hy => by rw [of_mem_record h hy, Option.map_none]

/-! ### Runs that return -/

/-- A run returns, and has asked for some regions, each under certain locks. -/
def Yields (p : Program α) (w : World) (log : List (Locks × Region))
    (post : α → World → Prop) : Prop :=
  ∃ a x, run p w = (.returned a, x) ∧ unassignments p w = log ∧ post a x

variable {log log' : List (Locks × Region)} {post : α → World → Prop} {post' : β → World → Prop}

theorem yields_pure (h : post a w) : Yields (pure a) w [] post := ⟨a, w, rfl, rfl, h⟩

theorem Yields.bind (h : Yields p w log post)
    (hf : ∀ a x, post a x → Yields (f a) x log' post') :
    Yields (p >>= f) w (log ++ log') post' := by
  obtain ⟨a, x, hrun, hlog, hpost⟩ := h
  obtain ⟨b, y, hrun', hlog', hpost'⟩ := hf a x hpost
  refine ⟨b, y, (run_bind hrun).trans hrun', ?_, hpost'⟩
  rw [← hlog, ← hlog', unassignments, record_bind hrun, List.filterMap_append]
  rfl

theorem Yields.mono (h : Yields p w log post) {post'' : α → World → Prop}
    (hpost : ∀ a x, post a x → post'' a x) : Yields p w log post'' := by
  obtain ⟨a, x, hrun, hlog, hx⟩ := h
  exact ⟨a, x, hrun, hlog, hpost a x hx⟩

/-- A program that is answered throughout returns. -/
theorem yields_of_ensures (h : p.Ensures (Terms.answered fun _ _ => False).rule post w) :
    Yields p w (unassignments p w) post := by
  have hends := Terms.run_ends h
  rcases hrun : run p w with ⟨progress, x⟩
  rw [hrun] at hends
  cases progress with
  | returned a => exact ⟨a, x, hrun, rfl, hends⟩
  | failed cause => exact hends.elim
  | crashed => exact hends.elim
  | waiting rest => exact absurd trivial hends.1

/-- A program that is answered throughout and asks for no region. -/
theorem yields_of_asksNone (hp : p.AsksNone)
    (h : p.Ensures (Terms.answered fun _ _ => False).rule post w) : Yields p w [] post := by
  rw [← unassignments_of_asksNone hp]
  exact yields_of_ensures h

/-- A program comes first that asks for no region. -/
theorem yields_bind (hp : p.AsksNone) (h : p.Ensures (Terms.answered fun _ _ => False).rule post w)
    (hf : ∀ a x, post a x → Yields (f a) x log post') : Yields (p >>= f) w log post' :=
  (yields_of_asksNone hp h).bind hf

/-- A report comes first. -/
theorem yields_note {n : Notice} {f : Unit → Program β}
    (hf : ∀ x, w.Same x → Yields (f ()) x log post') : Yields (note n >>= f) w log post' := by
  have hnote : (note n).Ensures (Terms.answered fun _ _ => False).rule (fun _ x => w.Same x) w :=
    Terms.ensures_note fun _ hx => hx
  exact yields_bind (Only.note rfl) hnote fun _ => hf

/-- A call that only looks comes first. -/
theorem yields_look {c : Call} {f : c.Answer → Program β} (hw : w.Obliging) (answer : c.Answer)
    (hc : w.site.serve c = w.site.look answer) (hr : (Request.call c).region? = none)
    (hu : ∀ v : World, v.remember c = v) (hf : ∀ x, w.Same x → Yields (f answer) x log post') :
    Yields (call c >>= f) w log post' := by
  have hlook : (call c).Ensures (Terms.answered fun _ _ => False).rule
      (fun a x => a = answer ∧ w.Same x) w :=
    Terms.ensures_look (Terms.allows_of_strict trivial hw) answer hc hu fun _ hx => ⟨rfl, hx⟩
  refine yields_bind (Only.call hr) hlook ?_
  rintro _ x ⟨rfl, hx⟩
  exact hf x hx

/-- What is asked for while a lock is held that was free. -/
theorem yields_holding {l : Lock} (hfree : w.locks.isFree l false = true)
    (h : Yields p (w.granted l) log fun a x => post a (x.released l)) :
    Yields (holding l p) w log post := by
  have hlock : (ask (.lock l false .operation) done).Ensures (Terms.answered fun _ _ => False).rule
      (fun _ x => x = w.granted l) w :=
    Terms.ensures_lock (fun _ => hfree) (absurd trivial) fun v hv _ => by rw [hv.eq trivial]
  refine yields_bind (Only.ask rfl) hlock ?_
  rintro _ _ rfl
  rw [← List.append_nil log]
  exact h.bind fun a x hx => ⟨a, x.released l, rfl, rfl, hx⟩

theorem unassignments_unassign (r : Region) (w : World) :
    unassignments (call (.unassign r)) w = [(w.locks, r)] := by
  unfold unassignments call record
  rcases w.meet (.call (.unassign r)) with ⟨reply, w'⟩
  cases reply <;> rfl

/-- Where nothing fails, regions are asked for in order, all under the same locks. -/
theorem yields_unassigns : ∀ {rs : List Region} {w : World}, w.Working →
    Yields (rs.forM fun r => call (.unassign r)) w (rs.map fun r => (w.locks, r))
      fun _ x => w.Asks rs x
  | [], w, _ => yields_pure (.refl w)
  | r :: rs, w, hw => by
    have hT : (Terms.answered fun _ _ => False).Bears w [r] :=
      ⟨fun _ => hw.failing,
        fun _ _ _ hx => Terms.allows_of_strict trivial (hx.obliging hw.toObliging)⟩
    have hone : Yields (call (.unassign r)) w [(w.locks, r)] fun _ x => w.Asks [r] x := by
      rw [← unassignments_unassign]
      exact yields_of_ensures (Terms.ensures_unassign hT fun _ hx => hx)
    refine hone.bind (f := fun _ => rs.forM fun r => call (.unassign r)) fun _ x hx => ?_
    rw [← hx.locks]
    exact (yields_unassigns (hx.working hw)).mono fun _ y hy => hx.trans hy

end World

end ServerGroups
