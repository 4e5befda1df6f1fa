/-
ServerGroups/Proofs/Removal/Sparing.lean

Groups that a namespace names stay.

Only one program asks for groups to be removed; all others are `Sparing`.  That
one asks only once it has looked through all namespaces, so with namespaces
that do not change (`Setting.SparesNamespaces`) every request to remove a group
is for one that none of them names, at whatever moment it is met:

    Referencing.rule s    a group is removed only if no namespace of `s` names it
    referencing s         the discipline of asking for no other removal

So from one moment to the next no group goes that is named
(`Moment.Step.keeps_named`), and it makes no difference that it may be emptied
and filled again meanwhile.
-/
import ServerGroups.Proofs.Commands
import ServerGroups.Proofs.Guarded
import ServerGroups.Proofs.Inquiries

namespace ServerGroups

open Program Coordinator

/-- Some namespace names a group for its new tables. -/
def Namespaces.Names (s : Namespaces) (group : String) : Prop :=
  ∃ (k : String) (n : Namespace), s[k]? = some n ∧ n.group? = some group

theorem Namespaces.names_iff {s : Namespaces} {group : String} :
    s.Names group ↔ ∃ n ∈ s.toList.map Prod.snd, n.group? = some group := by
  constructor
  · rintro ⟨k, n, hn, hgroup⟩
    refine ⟨n, List.mem_map.2 ⟨(k, n), ?_, rfl⟩, hgroup⟩
    exact Std.ExtTreeMap.mem_toList_iff_getElem?_eq_some.2 hn
  · rintro ⟨n, hn, hgroup⟩
    obtain ⟨⟨k, n⟩, hmem, rfl⟩ := List.mem_map.1 hn
    exact ⟨k, n, Std.ExtTreeMap.mem_toList_iff_getElem?_eq_some.1 hmem, hgroup⟩

/-- Looking through namespaces ends with a refusal if one of them names the group, and else
without one. -/
theorem Coordinator.refuseIfReferenced_eq (name : String) : ∀ namespaces : List Namespace,
    (∃ n ∈ namespaces, n.group? = some name) ∧
        (∃ cause, refuseIfReferenced name namespaces = refuse cause) ∨
      (∀ n ∈ namespaces, n.group? ≠ some name) ∧ refuseIfReferenced name namespaces = pure ()
  | [] => .inr ⟨fun n hn => absurd hn List.not_mem_nil, rfl⟩
  | n :: rest => by
    unfold refuseIfReferenced
    by_cases hn : n.group? = some name
    · rw [if_pos hn]
      exact .inl ⟨⟨n, List.mem_cons_self, hn⟩, _, rfl⟩
    · rw [if_neg hn]
      rcases refuseIfReferenced_eq name rest with ⟨⟨n', hmem, hn'⟩, hrefuse⟩ | ⟨hnone, hpure⟩
      · exact .inl ⟨⟨n', List.mem_cons_of_mem n hmem, hn'⟩, hrefuse⟩
      · refine .inr ⟨?_, hpure⟩
        intro n' hmem
        rcases List.mem_cons.1 hmem with rfl | hmem
        · exact hn
        · exact hnone n' hmem

/-! ### Programs that remove no group -/

/-- Whether a request asks for a group to be removed. -/
def Request.removes : Request → Bool
  | .call (.removeGroup _) => true
  | _ => false

theorem Request.removes_of_usual {q : Request} (hq : q.usual = true) : q.removes = false := by
  cases q with
  | call c =>
    cases c with
    | removeGroup name => cases hq
    | _ => rfl
  | _ => rfl

/-- A program that asks for no group to be removed. -/
abbrev Program.Sparing {α : Type} (p : Program α) : Prop :=
  p.Only (fun q => q.removes = false) fun _ => True

/-! ### The program that removes groups -/

namespace Referencing

variable {s : Namespaces} {α β : Type}

/-- The namespaces are known, and a group is removed only if none of them names it. -/
def rule (s : Namespaces) : Rule Unit where
  ask
    | .call .namespaces, post, _ => post (s.toList.map Prod.snd) ()
    | .call (.removeGroup name), post, _ => ¬ s.Names name ∧ ∀ answer, post answer ()
    | _, post, _ => ∀ answer, post answer ()
  fail _ _ := True

/-- A program that looks at the namespaces and removes no group that they name. -/
abbrev Minds (s : Namespaces) (p : Program α) : Prop :=
  p.Ensures (rule s) (fun _ _ => True) ()

theorem rule_monotone : (rule s).Monotone := by
  intro q post post' x h hask
  cases q with
  | call c =>
    cases c with
    | namespaces => exact h _ _ hask
    | removeGroup name => exact ⟨hask.1, fun answer => h answer _ (hask.2 answer)⟩
    | _ => exact fun answer => h answer _ (hask answer)
  | _ => exact fun answer => h answer _ (hask answer)

/-- What is answered makes no difference to a program that removes nothing. -/
theorem minds_of_sparing {p : Program α} (h : p.Sparing) : Minds s p := by
  refine (h.ensures (R := rule s) (x := ()) (fun {q post} hq hpost => ?_) fun _ _ => trivial).mono
    rule_monotone fun _ _ _ => trivial
  cases q with
  | call c =>
    cases c with
    | removeGroup name => cases hq
    | namespaces => exact hpost _
    | _ => exact hpost
  | _ => exact hpost

theorem minds_of_quiet {p : Program α} (h : p.Quiet) : Minds s p :=
  minds_of_sparing (only_quiet (fun _ => Request.removes_of_usual) h)

theorem Minds.bind {p : Program α} {f : α → Program β} (hp : Minds s p) (hf : ∀ a, Minds s (f a)) :
    Minds s (p >>= f) := by
  unfold Minds
  rw [ensures_bind]
  exact hp.mono rule_monotone fun a _ _ => hf a

theorem minds_removeGroup (name : String) : Minds s (removeGroup name) := by
  refine Program.ensures_holding.2 fun _ => Ensures.mono rule_monotone
    (fun _ _ (_ : True) _ => trivial) ?_
  refine Minds.bind (minds_of_sparing (Only.hook (by rfl))) fun _ => ?_
  refine Minds.bind (minds_of_sparing (Only.call (by rfl))) fun answer => ?_
  rcases answer with - | g
  · trivial
  refine Minds.bind (minds_of_sparing (Only.refuseIf trivial)) fun _ => ?_
  refine Minds.bind (minds_of_sparing (Only.refuseIf trivial)) fun _ => ?_
  refine Minds.bind (minds_of_sparing (Only.refuseIf trivial)) fun _ => ?_
  unfold Minds
  rw [ensures_bind]
  show (refuseIfReferenced name (s.toList.map Prod.snd) >>= _).Ensures _ _ _
  rcases refuseIfReferenced_eq name (s.toList.map Prod.snd) with ⟨-, cause, hrefuse⟩ | ⟨hnone, hpure⟩
  · rw [hrefuse]
    trivial
  · rw [hpure]
    refine ⟨fun hnames => ?_, fun _ => ?_⟩
    · obtain ⟨n, hn, hgroup⟩ := Namespaces.names_iff.1 hnames
      exact hnone n hn hgroup
    -- what comes after the removal reports it
    · exact minds_of_sparing ((Only.note (by rfl)).bind fun _ => Only.hook (by rfl))

/-- No operation removes a group that a namespace names. -/
theorem minds_operation (o : Operation) : Minds s o.program := by
  have hP : ∀ q : Request, q.usual = true → q.removes = false := fun _ => Request.removes_of_usual
  refine o.program_of (motive := fun {_} p => Minds s p)
    (fun _ => trivial) (fun _ => trivial) (fun _ h => h.bind fun _ => trivial)
    (fun n h => (minds_of_sparing (Only.note (hP (.note n) rfl))).bind fun _ => h) fun o _ ho => ?_
  cases o with
  | removeGroup name => exact minds_removeGroup name
  | getGroup name => exact minds_of_sparing (only_getGroup hP name)
  | getGroupOfServer s => exact minds_of_sparing (only_getGroupOfServer hP s)
  | getGroupOfTable t => exact minds_of_sparing (only_getGroupOfTable hP t)
  | listGroups => exact minds_of_sparing (only_listGroups hP)
  | addGroup name => exact minds_of_sparing (only_addGroup hP rfl)
  | moveServers servers target =>
    exact minds_of_sparing (only_moveServers hP target (fun _ => rfl) (fun _ _ => rfl)
      (fun _ _ => rfl) fun _ => rfl)
  | startMove servers target =>
    exact minds_of_sparing (only_startMove hP target (fun _ => rfl) (fun _ _ => rfl) fun _ _ => rfl)
  | awaitMove number => exact minds_of_sparing (only_awaitMove hP rfl)
  | moveTables tables target => exact minds_of_sparing (only_moveTables hP rfl)
  | prepareTable t => exact minds_of_sparing (only_prepareTable hP fun _ => rfl)
  | forgetTable t => exact minds_of_sparing (only_forgetTable hP rfl)
  | balance name => exact minds_of_sparing (only_balance hP name)
  | execute c => exact absurd rfl (ho c)

end Referencing

/-! ### At every moment -/

/-- What happens outside does not change the namespaces. -/
def Setting.SparesNamespaces (E : Setting) : Prop :=
  ∀ {w w' : World}, E.outside w w' → w'.site.namespaces = w.site.namespaces

/-- With the namespaces given, no group is asked to be removed that one of them names. -/
def referencing (s : Namespaces) : Discipline where
  calm _ w := w.site.namespaces = s
  given _ _ := True
  safe q _ := ∀ name, q = .call (.removeGroup name) → ¬ s.Names name
  closed _ _ v := v.world.site.namespaces = s

variable {E : Setting} {s : Namespaces} {w w' : World} {m m' : Moment}

/-- No call changes the namespaces. -/
theorem Site.namespaces_serve (site : Site) (c : Call) :
    (site.serve c).site.namespaces = site.namespaces := by
  cases c with
  | plan snapshot =>
    simp only [serve, plan]
    split <;> rfl
  | addGroup | removeGroup | moveServers | moveTables | unassign | hook =>
    simp only [serve]
    split <;> rfl
  | _ => rfl

theorem World.namespaces_of_meet {q : Request} {reply : Reply q.Answer}
    (h : w.meet q = (reply, w')) : w'.site.namespaces = w.site.namespaces := by
  by_cases hq : ∃ c, q = .call c
  · obtain ⟨c, rfl⟩ := hq
    have hmade := (made_meet w c).1
    rw [h] at hmade
    cases hmade with
    | answered _ hs => rw [hs, Site.namespaces_serve]
    | failed hs => rw [hs]
    | crashed hs => rw [hs]
  · rw [site_of_no_call h fun c hc => hq ⟨c, hc⟩]

theorem Setting.SparesNamespaces.drifts (hE : E.SparesNamespaces) (h : E.Drifts w w') :
    w'.site.namespaces = w.site.namespaces := by
  induction h with
  | refl => rfl
  | outside _ ho ih => exact (hE ho).trans ih
  | ticks _ time ih => exact ih

/-- A program that minds the namespaces keeps to the discipline, since they are what it is told. -/
theorem referencing_keeps (hE : E.SparesNamespaces) {a : Agent} {p : Program a.Result} :
    ∀ {v : View}, v.world.site.namespaces = s → Referencing.Minds s p →
      (referencing s).Keeps E a p v := by
  induction p with
  | done result => exact fun hv _ => hv
  | fail cause => exact fun hv _ => hv
  | ask q next ih =>
    intro v hv h
    refine ⟨fun _ => hv, fun v' hmeets _ => ?_⟩
    -- a request that waits is met in a world that has drifted, with the same namespaces
    have hv' : v'.world.site.namespaces = s := by
      have hm := hmeets.2
      split at hm
      · exact hm
      · exact (hE.drifts hm.2).trans hv
    refine ⟨?_, ?_, ?_, ?_⟩
    · rintro name rfl
      exact h.1
    · intro answer w hw
      have hafter : w.site.namespaces = s := (World.namespaces_of_meet hw).trans hv'
      apply ih answer hafter
      cases q with
      | call c =>
        cases c with
        | namespaces =>
          obtain ⟨hanswer, -⟩ := World.answered_call hw
          obtain rfl : v'.world.site.namespaces.toList.map Prod.snd = answer :=
            Except.ok.inj hanswer
          rw [hv']
          exact h
        | removeGroup name => exact h.2 answer
        | _ => exact h answer
      | _ => exact h answer
    · exact fun cause w hw => (World.namespaces_of_meet hw).trans hv'
    · exact fun w hw => (World.namespaces_of_meet hw).trans hv'

theorem referencing_lawful (hE : E.SparesNamespaces) : (referencing s).Lawful E where
  calm_outside h ho := (hE ho).trans h
  calm_ticks h := h
  closed_outside h ho := (hE ho).trans h
  closed_ticks h := h
  operation {o _ _} _ h := referencing_keeps hE h (Referencing.minds_operation o)
  pass {_ m w _} _ _ h := referencing_keeps hE h
    (Referencing.minds_of_quiet (quiet_drainPass w.config m.drain))
  finish {_ m _} h := referencing_keeps hE h
    (Referencing.minds_of_quiet (quiet_finishMove m.settle))
  concluded {o ended v} h := by
    show Site.namespaces _ = s
    rw [o.site_conclude ended.outcome v.world.letGo]
    exact h
  passed {number m ended v} _ h := by
    show Site.namespaces _ = s
    rw [v.world.site_passed number m ended]
    exact h
  finished {number m ended v} h := by
    show Site.namespaces _ = s
    rw [v.world.site_finished number m ended]
    exact h
  abandoned _ h := h

theorem referencing_holds (hE : E.SparesNamespaces) (h : Moment.Reaches E (.still w) m) :
    (referencing w.site.namespaces).Holds E m :=
  (referencing_lawful hE).holds rfl (fun _ _ _ _ _ _ _ => trivial) h

/-- One step takes no group away that a namespace names. -/
theorem Moment.Step.keeps_named (hE : E.SparesRegistry) (h : (referencing s).Holds E m)
    (hs : m.Step E m') {name : String} (hname : s.Names name)
    (hmem : name ∈ m.world.site.registry.groups) : name ∈ m'.world.site.registry.groups := by
  rcases hs.site with ⟨c, agent, owed, next, answer, hrun, hmeet⟩ | ho | hsite
  · -- only the answer to a call changes the registry
    rcases (World.serves_of_answered hmeet).cases with ⟨-, heq⟩ | ⟨other, -, hr⟩ |
      ⟨other, rfl, hr⟩ | ⟨servers, source, target, moved, -, hr⟩ | ⟨tables, goal, -, hr⟩
    · rw [heq]
      exact hmem
    · exact (Registry.mem_addGroup hr).2 (.inr hmem)
    · -- only a removal takes a group away, and it is not asked for if the group is named
      refine (Registry.mem_removeGroup hr).2 ⟨?_, hmem⟩
      rintro rfl
      obtain ⟨w, running, waiting⟩ := m
      obtain rfl : running = _ := hrun
      exact h.safe trivial other rfl hname
    · exact (Registry.mem_moveServers hr).2 hmem
    · exact (Registry.mem_moveTables hr).2 hmem
  · rw [hE ho]
    exact hmem
  · rw [hsite]
    exact hmem

/-- A group that a namespace names, and that is there at some moment, is there at all later
ones. -/
theorem Moment.Reaches.keeps_named (hE : E.SparesRegistry) (hN : E.SparesNamespaces)
    (h : Moment.Reaches E (.still w) m) (h' : Moment.Reaches E m m') {name : String}
    (hname : w.site.namespaces.Names name) (hmem : name ∈ m.world.site.registry.groups) :
    name ∈ m'.world.site.registry.groups := by
  induction h' with
  | refl => exact hmem
  | @tail m₁ m₂ h₁ hs ih => exact hs.keeps_named hE (referencing_holds hN (h.trans h₁)) hname ih

end ServerGroups
