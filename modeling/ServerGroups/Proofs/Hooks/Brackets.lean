/-
ServerGroups/Proofs/Hooks/Brackets.lean

The hooks of an administrative operation bracket its other calls.

The first call of such an operation is its first hook.  Its last hook, if it
calls it itself, is called once, when what the operation is for has been done:
the registry has answered its change, or every placement of every plan has
been applied.  An operation that moves servers leaves the last hook to the
drain, which it launches when the registry has answered the change.

Design.  All of this is told from what the operation has been answered so far
(`bracketing`), and every program is looked at once.
-/
import ServerGroups.Proofs.Conduct.Drain

namespace ServerGroups

open Program

/-! ### Exchanges -/

/-- A request and what it was answered. -/
abbrev Exchange := (q : Request) × q.Answer

namespace Exchange

/-- The calls among some exchanges. -/
def calls (s : List Exchange) : List Call := s.filterMap fun x => x.1.call?

/-- The hooks among some exchanges. -/
def hooks (s : List Exchange) : List Hook := s.filterMap fun x => x.1.hook?

/-- What the balancer is told to place, if this is what is answered. -/
def plan : Exchange → List Placement
  | ⟨.call (.plan _), (moves : Option (List Placement))⟩ => moves.getD []
  | _ => []

/-- What is placed. -/
def place : Exchange → List Placement
  | ⟨.call (.place p), _⟩ => [p]
  | _ => []

/-- The placements of all plans that have been answered, oldest first. -/
def planned (s : List Exchange) : List Placement := s.reverse.flatMap plan

/-- The placements that have been applied, oldest first. -/
def placed (s : List Exchange) : List Placement := s.reverse.flatMap place

/-- Some exchanges, and after them others, all of whose requests satisfy a condition. -/
def Extends (P : Request → Prop) (s s' : List Exchange) : Prop :=
  ∃ more, s' = more ++ s ∧ ∀ x ∈ more, P x.1

variable {P P' : Request → Prop} {s s' s'' : List Exchange}

theorem Extends.refl (s : List Exchange) : Extends P s s := ⟨[], rfl, by simp⟩

theorem Extends.cons {q : Request} (hq : P q) (answer : q.Answer) (s : List Exchange) :
    Extends P s (⟨q, answer⟩ :: s) :=
  ⟨[⟨q, answer⟩], rfl, by simpa using hq⟩

theorem Extends.trans (h : Extends P s s') (h' : Extends P s' s'') : Extends P s s'' := by
  obtain ⟨more, rfl, hmore⟩ := h
  obtain ⟨others, rfl, hothers⟩ := h'
  refine ⟨others ++ more, (List.append_assoc ..).symm, fun x hx => ?_⟩
  exact (List.mem_append.1 hx).elim (hothers x) (hmore x)

theorem Extends.mono (hP : ∀ q, P q → P' q) (h : Extends P s s') : Extends P' s s' := by
  obtain ⟨more, rfl, hmore⟩ := h
  exact ⟨more, rfl, fun x hx => hP _ (hmore x hx)⟩

/-- An exchange of another kind is one of the earlier ones. -/
theorem Extends.mem_iff (h : Extends P s s') {x : Exchange} (hx : ¬ P x.1) : x ∈ s' ↔ x ∈ s := by
  obtain ⟨more, rfl, hmore⟩ := h
  rw [List.mem_append]
  exact or_iff_right fun hmem => hx (hmore x hmem)

end Exchange

/-- A request that no hook hears, and that neither launches a drain nor waits for one. -/
def Request.Unheard : Request → Prop
  | .call (.hook _) | .launch .. | .join _ => False
  | _ => True

theorem Request.Unheard.hook? {q : Request} (h : q.Unheard) : q.hook? = none := by
  cases q with
  | call c =>
    cases c with
    | hook k => exact h.elim
    | _ => rfl
  | _ => rfl

theorem Request.Sweeps.unheard {q : Request} (h : q.Sweeps) : q.Unheard := by
  cases q with
  | call c =>
    cases c with
    | hook k => exact absurd rfl (h.2 k)
    | _ => trivial
  | launch | join => cases h.1
  | _ => trivial

theorem Exchange.Extends.hooks {s s' : List Exchange} (h : Extends Request.Unheard s s') :
    hooks s' = hooks s := by
  obtain ⟨more, rfl, hmore⟩ := h
  rw [Exchange.hooks, List.filterMap_append,
    List.filterMap_eq_nil_iff.2 fun x hx => (hmore x hx).hook?]
  rfl

/-- A program that no hook hears, which changes no more than where regions are, and may refuse to go
on. -/
abbrev Program.Silent {α : Type} (p : Program α) : Prop := p.Only Request.Sweeps fun _ => True

/-! ### The law of brackets -/

open Exchange

theorem mem_of_hooks {s : List Exchange} {pre : Hook} (hs : hooks s = [pre]) : pre ∈ hooks s := by
  simp [hs]

/-- The first hook comes before every other call.  The last one comes once, and only when the
exchanges so far are those of an operation that has done what it is for; so does a drain, when the
registry has moved its servers. -/
def bracketing (pre : Hook) (post : Hook → Prop) (ready : List Exchange → Prop) :
    Monitor (List Exchange) where
  start := []
  fits s
    | .call (.hook h) => (h = pre ∧ calls s = []) ∨ (hooks s = [pre] ∧ post h ∧ ready s)
    | .call _ => pre ∈ hooks s
    | .launch servers source target => (∃ goal, pre = .preMoveServers servers goal) ∧
        hooks s = [pre] ∧
        ∃ moved, (⟨.call (.moveServers servers source target), moved⟩ : Exchange) ∈ s
    | .join number => ∃ servers source target,
        (⟨.launch servers source target, number⟩ : Exchange) ∈ s
    | _ => True
  next s q answer := ⟨q, answer⟩ :: s

/-! ### Administrative operations -/

namespace Operation

/-- The first hook of an administrative operation. -/
def pre? : Operation → Option Hook
  | addGroup name => some (.preAddGroup name)
  | removeGroup name => some (.preRemoveGroup name)
  | moveServers servers target => some (.preMoveServers servers target)
  | moveTables tables target => some (.preMoveTables tables target)
  | balance name => some (.preBalance name)
  | _ => none

/-- The last hook of an administrative operation, if the operation calls it itself. -/
def Posts : Operation → Hook → Prop
  | addGroup name, h => h = .postAddGroup name
  | removeGroup name, h => h = .postRemoveGroup name
  | moveTables tables target, h => h = .postMoveTables tables target
  | balance name, h => ∃ ran, h = .postBalance name ran
  | _, _ => False

/-- By what has been answered, the registry has made the change of an operation, or every placement
of every plan has been applied. -/
def Effected : Operation → List Exchange → Prop
  | addGroup name, s => (⟨.call (.addGroup name), ()⟩ : Exchange) ∈ s
  | removeGroup name, s => (⟨.call (.removeGroup name), ()⟩ : Exchange) ∈ s
  | moveServers servers _, s => ∃ source target moved,
      (⟨.call (.moveServers servers source target), moved⟩ : Exchange) ∈ s
  | moveTables tables target, s => (⟨.call (.moveTables tables target), ()⟩ : Exchange) ∈ s
  | balance _, s => placed s = planned s
  | _, _ => False

/-- The law of an administrative operation. -/
abbrev brackets (o : Operation) (pre : Hook) : Monitor (List Exchange) :=
  bracketing pre o.Posts o.Effected

end Operation

section Rules

variable {α β : Type} {pre : Hook} {post : Hook → Prop} {ready : List Exchange → Prop}
variable {P : Request → Prop} {F : Error → Prop} {s : List Exchange}

/-- What no hook hears may be asked for at any time after the first hook. -/
theorem bracketing_only {p : Program α} (h : p.Only P F) (hP : ∀ q, P q → q.Unheard) :
    ∀ {s : List Exchange}, pre ∈ hooks s →
      p.Ensures (bracketing pre post ready).rule (fun _ s' => Extends P s s') s := by
  induction p with
  | done a => exact fun {s} _ => .refl s
  | fail cause => exact fun _ => trivial
  | ask q next ih =>
    intro s hs
    have hfits : (bracketing pre post ready).fits s q := by
      have hq := hP q h.1
      cases q with
      | call c =>
        cases c with
        | hook k => exact hq.elim
        | _ => exact hs
      | launch | join => exact hq.elim
      | _ => trivial
    refine ⟨hfits, fun answer => ?_⟩
    have hcons : Extends P s (⟨q, answer⟩ :: s) := .cons h.1 answer s
    have hs' : pre ∈ hooks (⟨q, answer⟩ :: s) := by
      rw [(hcons.mono hP).hooks]
      exact hs
    exact (ih answer (h.2 answer) hs').mono (bracketing pre post ready).rule_monotone
      fun _ _ => hcons.trans

/-- A request comes first. -/
theorem bracketing_ask {q : Request} {f : q.Answer → Program β}
    {final : β → List Exchange → Prop} (hfits : (bracketing pre post ready).fits s q)
    (hf : ∀ answer, (f answer).Ensures (bracketing pre post ready).rule final (⟨q, answer⟩ :: s)) :
    (ask q done >>= f).Ensures (bracketing pre post ready).rule final s :=
  ⟨hfits, hf⟩

/-- A lock is held while a program runs. -/
theorem bracketing_holding {l : Lock} {body : Program α} {final : α → List Exchange → Prop}
    (h : body.Ensures (bracketing pre post ready).rule
      (fun a s' => final a (⟨.unlock l, ()⟩ :: s')) (⟨.lock l false .operation, ()⟩ :: s)) :
    (holding l body).Ensures (bracketing pre post ready).rule final s := by
  rw [Program.ensures_holding]
  exact ⟨trivial, fun _ => h.mono (bracketing pre post ready).rule_monotone fun a s' hfinal =>
    ⟨trivial, fun _ => hfinal⟩⟩

/-- A program that no hook hears comes first. -/
theorem bracketing_bind {p : Program α} {f : α → Program β} {final : β → List Exchange → Prop}
    (h : p.Only P F) (hP : ∀ q, P q → q.Unheard) (hs : hooks s = [pre])
    (hf : ∀ a s', hooks s' = [pre] → Extends P s s' →
      (f a).Ensures (bracketing pre post ready).rule final s') :
    (p >>= f).Ensures (bracketing pre post ready).rule final s := by
  rw [ensures_bind]
  refine (bracketing_only h hP (by simp [hs])).mono (bracketing pre post ready).rule_monotone ?_
  intro a s' hextends
  exact hf a s' ((hextends.mono hP).hooks.trans hs) hextends

theorem bracketing_silent {p : Program α} {f : α → Program β} {final : β → List Exchange → Prop}
    (h : p.Silent) (hs : hooks s = [pre])
    (hf : ∀ a s', hooks s' = [pre] → (f a).Ensures (bracketing pre post ready).rule final s') :
    (p >>= f).Ensures (bracketing pre post ready).rule final s :=
  bracketing_bind h (fun _ => Request.Sweeps.unheard) hs fun a s' hs' _ => hf a s' hs'

/-- A program that only asks services how things are comes first. -/
theorem bracketing_checking {p : Program α} {f : α → Program β} {final : β → List Exchange → Prop}
    (h : p.Checking) (hs : hooks s = [pre])
    (hf : ∀ a s', hooks s' = [pre] → (f a).Ensures (bracketing pre post ready).rule final s') :
    (p >>= f).Ensures (bracketing pre post ready).rule final s := by
  refine bracketing_bind h (fun q hq => ?_) hs fun a s' hs' _ => hf a s' hs'
  cases q with
  | call c => cases c <;> trivial
  | _ => cases hq

end Rules

/-! ### The coordinator's programs -/

namespace Coordinator

theorem sweeps_call {c : Call} (hc : c.writes = false) (hook : ∀ h, c ≠ .hook h) :
    (Request.call c).Sweeps :=
  ⟨by simp [Request.reads, hc], fun h heq => hook h (Request.call.inj heq)⟩

theorem silent_call {c : Call} (hc : c.writes = false) (hook : ∀ h, c ≠ .hook h) :
    (call c).Silent :=
  Only.call (sweeps_call hc hook)

theorem silent_refuseIf {p : Prop} [Decidable p] {cause : Refusal} : (refuseIf p cause).Silent :=
  Only.refuseIf trivial

theorem unheard_unassignTable (t : TableName) :
    (unassignTable t).Only Request.Unheard fun _ => True :=
  (Only.call trivial).bind fun _ => Only.holding trivial trivial <|
    (Only.note trivial).bind fun _ => (Only.call trivial).bind fun regions =>
      (Only.note trivial).bind fun _ => Only.forM (fun _ => Only.call trivial) regions

/-- The group is added between the hooks. -/
theorem brackets_addGroup (name : String) : (addGroup name).Ensures
    ((Operation.addGroup name).brackets (.preAddGroup name)).rule
    (fun _ s => hooks s = [.postAddGroup name, .preAddGroup name]) [] := by
  refine bracketing_ask (.inl ⟨rfl, rfl⟩) fun _ => ?_
  refine bracketing_silent silent_refuseIf rfl fun _ s hs => ?_
  rw [ensures_bind]
  refine bracketing_holding ?_
  have hlock : hooks (⟨.lock .membership false .operation, ()⟩ :: s) = [.preAddGroup name] := hs
  refine bracketing_silent (silent_call rfl (by simp)) hlock fun existing s₁ hs₁ => ?_
  refine bracketing_silent silent_refuseIf hs₁ fun _ s₂ hs₂ => ?_
  refine ⟨mem_of_hooks hs₂, fun _ => bracketing_ask trivial fun _ => ?_⟩
  have hadded : (⟨.call (.addGroup name), ()⟩ : Exchange) ∈
      (⟨.call (.addGroup name), ()⟩ : Exchange) :: s₂ := List.mem_cons_self
  refine ⟨.inr ⟨hs₂, rfl, List.mem_cons_of_mem _ (List.mem_cons_of_mem _ hadded)⟩, fun _ => ?_⟩
  exact congrArg (_ :: ·) hs₂

/-- The group is removed between the hooks. -/
theorem brackets_removeGroup (name : String) : (removeGroup name).Ensures
    ((Operation.removeGroup name).brackets (.preRemoveGroup name)).rule
    (fun _ s => hooks s = [.postRemoveGroup name, .preRemoveGroup name]) [] := by
  refine bracketing_holding (bracketing_ask (.inl ⟨rfl, rfl⟩) fun _ => ?_)
  refine bracketing_silent (silent_call rfl (by simp)) rfl fun answer s hs => ?_
  rcases answer with - | g
  · trivial
  refine bracketing_silent silent_refuseIf hs fun _ s₁ hs₁ => ?_
  refine bracketing_silent silent_refuseIf hs₁ fun _ s₂ hs₂ => ?_
  refine bracketing_silent silent_refuseIf hs₂ fun _ s₃ hs₃ => ?_
  refine bracketing_silent (silent_call rfl (by simp)) hs₃ fun namespaces s₄ hs₄ => ?_
  refine bracketing_checking (checking_refuseIfReferenced name namespaces) hs₄ fun _ s₅ hs₅ => ?_
  refine bracketing_ask (mem_of_hooks hs₅) fun _ => bracketing_ask trivial fun _ => ?_
  have hremoved : (⟨.call (.removeGroup name), ()⟩ : Exchange) ∈
      (⟨.call (.removeGroup name), ()⟩ : Exchange) :: s₅ := List.mem_cons_self
  refine ⟨.inr ⟨hs₅, rfl, List.mem_cons_of_mem _ hremoved⟩, fun _ => ?_⟩
  exact congrArg (_ :: ·) hs₅

/-- The tables are pinned between the hooks. -/
theorem brackets_repin (tables : TableSet) (goal : Option String) {s : List Exchange}
    (hs : calls s = []) (hnone : hooks s = []) :
    (repin tables goal).Ensures ((Operation.moveTables tables goal).brackets
        (.preMoveTables tables goal)).rule
      (fun _ s => hooks s = [.postMoveTables tables goal, .preMoveTables tables goal]) s := by
  have hopened : hooks (⟨.call (.hook (.preMoveTables tables goal)), ()⟩ :: s) =
      [.preMoveTables tables goal] := congrArg (_ :: ·) hnone
  have hrest : ∀ s : List Exchange, hooks s = [.preMoveTables tables goal] →
      (tables.toList.forM (checkTable goal) >>= fun _ => call (.moveTables tables goal) >>=
        fun _ => note (.tablesMoved tables.size goal) >>= fun _ =>
          hook (.postMoveTables tables goal)).Ensures ((Operation.moveTables tables goal).brackets
        (.preMoveTables tables goal)).rule
        (fun _ s => hooks s = [.postMoveTables tables goal, .preMoveTables tables goal]) s := by
    intro s hs
    refine bracketing_checking (Only.forM (checking_checkTable goal) _) hs fun _ s₁ hs₁ => ?_
    refine bracketing_ask (mem_of_hooks hs₁) fun _ => bracketing_ask trivial fun _ => ?_
    have hmoved : (⟨.call (.moveTables tables goal), ()⟩ : Exchange) ∈
        (⟨.call (.moveTables tables goal), ()⟩ : Exchange) :: s₁ := List.mem_cons_self
    refine ⟨.inr ⟨hs₁, rfl, List.mem_cons_of_mem _ hmoved⟩, fun _ => ?_⟩
    exact congrArg (_ :: ·) hs₁
  refine bracketing_ask (.inl ⟨rfl, hs⟩) fun _ => ?_
  rcases goal with - | name
  · exact hrest _ hopened
  · exact bracketing_checking (checking_checkTarget name) hopened fun _ s hs => hrest s hs

/-- The tables are pinned between the hooks, and their regions are unassigned after them; no tables
are moved without any. -/
theorem brackets_moveTables (tables : TableSet) (goal : Option String) :
    (moveTables tables goal).Ensures ((Operation.moveTables tables goal).brackets
        (.preMoveTables tables goal)).rule
      (fun _ s => (tables.size = 0 ∧ calls s = []) ∨ (tables.size ≠ 0 ∧
        hooks s = [.postMoveTables tables goal, .preMoveTables tables goal])) [] := by
  unfold moveTables
  split
  · next hempty => exact ⟨trivial, fun _ => .inl ⟨hempty, rfl⟩⟩
  · next hsome =>
    rw [ensures_bind]
    refine bracketing_holding ?_
    refine (brackets_repin tables goal rfl rfl).mono (bracketing _ _ _).rule_monotone ?_
    intro _ s hs
    have hclosed : hooks (⟨.unlock .membership, ()⟩ :: s) =
        [.postMoveTables tables goal, .preMoveTables tables goal] := hs
    refine (bracketing_only (Only.forM unheard_unassignTable _) (fun _ h => h)
      (by simp [hclosed])).mono (bracketing _ _ _).rule_monotone fun _ s' hextends =>
        .inr ⟨hsome, ?_⟩
    rw [hextends.hooks, hclosed]

/-- The registry moves the servers after the first hook; the last one is left to the drain, whose
end is waited for.  No servers are moved without any hook. -/
theorem brackets_moveServers (servers : ServerSet) (target : String) :
    (moveServers servers target).Ensures
      ((Operation.moveServers servers target).brackets (.preMoveServers servers target)).rule
      (fun _ s => (servers.toList = [] ∧ calls s = []) ∨ (servers.toList ≠ [] ∧
        hooks s = [.preMoveServers servers target] ∧
          ∃ number, (⟨.join number, .completed⟩ : Exchange) ∈ s)) [] := by
  unfold moveServers startMove
  split
  · next hempty => exact ⟨trivial, fun _ => .inl ⟨hempty, rfl⟩⟩
  · next first rest hservers =>
    rw [ensures_bind]
    refine bracketing_ask trivial fun reserved => ?_
    split
    · trivial
    refine bracketing_ask trivial fun _ => ?_
    rw [ensures_bind]
    unfold changeMembership
    refine bracketing_ask (.inl ⟨rfl, rfl⟩) fun _ => ?_
    refine bracketing_checking (checking_targetGroup target) rfl fun goal s₁ hs₁ => ?_
    refine bracketing_checking (checking_groupOf first) hs₁ fun source s₂ hs₂ => ?_
    refine bracketing_silent silent_refuseIf hs₂ fun _ s₃ hs₃ => ?_
    refine bracketing_checking (checking_checkOnline source servers) hs₃ fun _ s₄ hs₄ => ?_
    refine bracketing_checking (Only.forM (checking_checkSource source) _) hs₄ fun _ s₅ hs₅ => ?_
    refine bracketing_silent silent_refuseIf hs₅ fun _ s₆ hs₆ => ?_
    refine bracketing_ask trivial fun _ => ?_
    refine bracketing_ask (mem_of_hooks hs₆) fun moved => bracketing_ask trivial fun _ => ?_
    have hmoved : (⟨.call (.moveServers servers source.name goal.name), moved⟩ : Exchange) ∈
        (⟨.call (.moveServers servers source.name goal.name), moved⟩ : Exchange) ::
          ⟨.reserve servers goal.name, ()⟩ :: s₆ := List.mem_cons_self
    refine ⟨⟨⟨target, rfl⟩, hs₆, moved, List.mem_cons_of_mem _ hmoved⟩, fun number => ?_⟩
    refine ⟨⟨_, _, _, List.mem_cons_self⟩, fun ending => ?_⟩
    rcases (ending : Ending) with - | cause | -
    · exact .inr ⟨by simp [hservers], hs₆, number, List.mem_cons_self⟩
    · trivial
    · exact ⟨trivial, fun _ => trivial⟩

end Coordinator

end ServerGroups
