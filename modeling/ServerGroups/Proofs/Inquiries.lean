/-
ServerGroups/Proofs/Inquiries.lean

Programs told by the requests that they come to and by the errors of their own.

`p.Only P F` says that every request of the program `p` satisfies `P`, however
those before it are answered, and that every error that `p` fails with of its
own satisfies `F`.  Most programs of the coordinator are parts of operations
and of drains that hold nothing and change nothing of the coordinator:

    checking    only asks services how things are, and may refuse to go on
    inquiring   may report and call hooks as well
    quiet       changes no more than where regions are, and never refuses

Whatever a theory needs of single requests it has of these programs at once
(`Only.ensures`), and its own lemmas are about the few programs that are left.
Of a whole operation it is said which requests of its own it comes to, besides
those that every operation may come to (`Request.usual`).  And what the loops of
a pass come to follows under any rule from what it says of their requests.
-/
import ServerGroups.Proofs.Warranted

namespace ServerGroups

open Program

/-! ### Requests -/

/-- Whether a call changes where regions are. -/
def Call.shifts : Call → Bool
  | .unassign _ | .place _ => true
  | _ => false

/-- Whether a request changes neither the registry nor anything of the coordinator. -/
def Request.reads : Request → Bool
  | .call c => !c.writes
  | .note _ | .reservations => true
  | _ => false

/-- Whether a request changes no region, either. -/
def Request.looks : Request → Bool
  | .call c => !c.writes && !c.shifts
  | .note _ | .reservations => true
  | _ => false

/-- Whether a call only asks a service how things are. -/
def Call.peeks : Call → Bool
  | .hook _ => false
  | c => !c.writes && !c.shifts

/-- Whether a request only asks a service how things are. -/
def Request.peeks : Request → Bool
  | .call c => c.peeks
  | _ => false

theorem Request.looks_of_peeks {q : Request} (hq : q.peeks = true) : q.looks = true := by
  cases q with
  | call c => cases c <;> first | exact hq | cases hq
  | _ => cases hq

theorem Request.reads_of_looks {q : Request} (hq : q.looks = true) : q.reads = true := by
  cases q with
  | call c =>
    simp only [looks, Bool.and_eq_true] at hq
    exact hq.1
  | _ => exact hq

/-- Whether a request changes no more than where regions are and which locks the operation holds. -/
def Request.usual : Request → Bool
  | .lock .. | .unlock _ => true
  | q => q.reads

theorem Request.usual_of_reads {q : Request} (hq : q.reads = true) : q.usual = true := by
  cases q <;> first | rfl | exact hq

theorem Request.not_pauses_of_reads {q : Request} (hq : q.reads = true) : q.pauses = false := by
  cases q <;> first | rfl | cases hq

/-! ### What a program comes to -/

/-- Every request satisfies one condition, and every error of the program's own another one. -/
def onlyRule (P : Request → Prop) (F : Error → Prop) : Rule Unit where
  ask q post _ := P q ∧ ∀ answer, post answer ()
  fail cause _ := F cause

namespace Program

variable {α β : Type} {P P' : Request → Prop} {F F' : Error → Prop}

/-- Every request that a program comes to satisfies one condition, and every error of its own
another one. -/
def Only (P : Request → Prop) (F : Error → Prop) (p : Program α) : Prop :=
  p.Ensures (onlyRule P F) (fun _ _ => True) ()

/-- A program that only asks services how things are, and may refuse to go on. -/
abbrev Checking (p : Program α) : Prop := p.Only (fun q => q.peeks = true) fun _ => True

/-- A program that only looks and reports, and may refuse to go on. -/
abbrev Inquiring (p : Program α) : Prop := p.Only (fun q => q.looks = true) fun _ => True

/-- A program that changes no more than where regions are, and never fails of its own. -/
abbrev Quiet (p : Program α) : Prop := p.Only (fun q => q.reads = true) fun _ => False

namespace Only

theorem monotone : (onlyRule P F).Monotone := fun h hask => ⟨hask.1, fun a => h a () (hask.2 a)⟩

theorem pure (a : α) : (Pure.pure a : Program α).Only P F := trivial

theorem ask {q : Request} (hq : P q) : (Program.ask q done).Only P F := ⟨hq, fun _ => trivial⟩

theorem call {c : Call} (hc : P (.call c)) : (Program.call c).Only P F := ask hc

theorem hook {h : Hook} (hc : P (.call (.hook h))) : (Program.hook h).Only P F := ask hc

theorem note {n : Notice} (hn : P (.note n)) : (Program.note n).Only P F := ask hn

theorem refuse {cause : Refusal} (h : F (.refused cause)) :
    (Program.refuse cause : Program α).Only P F := h

theorem refuseIf {p : Prop} [Decidable p] {cause : Refusal} (h : F (.refused cause)) :
    (Program.refuseIf p cause).Only P F :=
  Program.ensures_refuseIf.2 ⟨fun _ => h, fun _ => trivial⟩

theorem bind {p : Program α} {f : α → Program β} (hp : p.Only P F) (hf : ∀ a, (f a).Only P F) :
    (p >>= f).Only P F := by
  unfold Only
  rw [ensures_bind]
  exact Ensures.mono monotone (fun a _ _ => hf a) hp

theorem forM {f : α → Program Unit} (h : ∀ a, (f a).Only P F) (l : List α) :
    (l.forM f).Only P F := by
  induction l with
  | nil => exact pure ()
  | cons a l ih => exact (h a).bind fun _ => ih

theorem holding {l : Lock} {body : Program α} (hlock : P (.lock l false .operation))
    (hunlock : P (.unlock l)) (h : body.Only P F) : (Program.holding l body).Only P F :=
  (ask hlock).bind fun _ => h.bind fun _ => (ask hunlock).bind fun _ => .pure _

/-- A program that comes to fewer requests and errors. -/
theorem mono {p : Program α} (hP : ∀ q, P q → P' q) (hF : ∀ cause, F cause → F' cause)
    (h : p.Only P F) : p.Only P' F' := by
  induction p with
  | done a => trivial
  | fail cause => exact hF cause h
  | ask q next ih => exact ⟨hP q h.1, fun a => ih a (h.2 a)⟩

/-- A state that none of the requests touches is the same after the program. -/
theorem ensures {σ : Type*} {R : Rule σ} {x : σ} {p : Program α} (h : p.Only P F)
    (hP : ∀ {q : Request} {post : q.Answer → σ → Prop}, P q → (∀ a, post a x) → R.ask q post x)
    (hF : ∀ cause, F cause → R.fail cause x) : p.Ensures R (fun _ y => y = x) x := by
  induction p with
  | done a => rfl
  | fail cause => exact hF cause h
  | ask q next ih => exact hP h.1 fun a => ih a (h.2 a)

theorem inquiring {p : Program α} (h : p.Only (fun q => q.peeks = true) F) : p.Inquiring :=
  h.mono (fun _ => Request.looks_of_peeks) fun _ _ => trivial

end Only

end Program

/-! ### The coordinator's programs -/

namespace Coordinator

theorem checking_targetGroup (target : String) : (targetGroup target).Checking := by
  refine (Only.refuseIf trivial).bind fun _ => (Only.call (by rfl)).bind fun answer => ?_
  rcases answer with - | g
  · exact Only.refuse trivial
  · exact .pure g

theorem checking_groupOf (s : ServerAddress) : (groupOf s).Checking := by
  refine (Only.call (by rfl)).bind fun answer => ?_
  rcases answer with - | g
  · exact Only.refuse trivial
  · exact .pure g

theorem checking_checkOnline (source : Group) (servers : ServerSet) :
    (checkOnline source servers).Checking := by
  unfold checkOnline
  split
  · refine (Only.call (by rfl)).bind fun online => ?_
    split
    · exact Only.refuse trivial
    · exact .pure ()
  · exact .pure ()

theorem checking_checkSource (source : Group) (s : ServerAddress) :
    (checkSource source s).Checking :=
  (checking_groupOf s).bind fun _ => Only.refuseIf trivial

theorem checking_checkTarget (target : String) : (checkTarget target).Checking := by
  refine (Only.call (by rfl)).bind fun answer => ?_
  rcases answer with - | g
  · exact Only.refuse trivial
  · exact Only.refuseIf trivial

theorem checking_checkTable (goal : Option String) (t : TableName) :
    (checkTable goal t).Checking := by
  refine (Only.call (by rfl)).bind fun answer => ?_
  rcases answer with - | source
  · exact .pure ()
  · exact Only.refuseIf trivial

/-- The first half of a move of tables only looks and reports, but for one change of the
registry. -/
theorem only_repin {P : Request → Prop} (hlooks : ∀ q : Request, q.looks = true → P q)
    {tables : TableSet} {goal : Option String} (hmove : P (.call (.moveTables tables goal))) :
    (repin tables goal).Only P fun _ => True := by
  have hcheck : ∀ {p : Program Unit}, p.Checking → p.Only P fun _ => True :=
    fun hp => hp.inquiring.mono hlooks fun _ h => h
  have hrest : (tables.toList.forM (checkTable goal) >>= fun _ =>
      call (.moveTables tables goal) >>= fun _ => note (.tablesMoved tables.size goal) >>= fun _ =>
        hook (.postMoveTables tables goal)).Only P fun _ => True :=
    (hcheck (Only.forM (checking_checkTable goal) _)).bind fun _ => (Only.call hmove).bind fun _ =>
      (Only.note (hlooks _ rfl)).bind fun _ => Only.hook (hlooks _ rfl)
  refine (Only.hook (hlooks _ rfl)).bind fun _ => ?_
  rcases goal with - | name
  · exact hrest
  · exact (hcheck (checking_checkTarget name)).bind fun _ => hrest

theorem checking_refuseIfReferenced (name : String) : ∀ namespaces : List Namespace,
    (refuseIfReferenced name namespaces).Checking
  | [] => .pure ()
  | n :: rest => by
    unfold refuseIfReferenced
    split
    · exact Only.refuse trivial
    · exact checking_refuseIfReferenced name rest

/-! ### Programs that never refuse -/

variable {P : Request → Prop} {F : Error → Prop}

theorem only_owns (hP : ∀ t, P (.call (.groupOfTable t))) (g : Group) (t : TableName) :
    (owns g t).Only P F := by
  unfold owns
  split
  · exact .pure true
  · split
    · exact (Only.call (hP t)).bind fun _ => .pure _
    · exact .pure false

/-- Ownership is told from the group and from what the registry says of single tables. -/
theorem only_ownedAmong (hP : ∀ t, P (.call (.groupOfTable t))) (g : Group) :
    ∀ tables : List TableName, (ownedAmong g tables).Only P F
  | [] => .pure []
  | t :: tables => (only_owns hP g t).bind fun _ =>
    (only_ownedAmong hP g tables).bind fun _ => .pure _

theorem only_planTables : ∀ snapshots : List (TableName × Snapshot),
    (planTables snapshots).Only (fun q => q.looks = true) F
  | [] => .pure []
  | (t, s) :: rest => by
    refine (Only.call (by rfl)).bind fun answer => ?_
    rcases answer with - | moves
    · exact only_planTables rest
    · exact (Only.note (by rfl)).bind fun _ => (only_planTables rest).bind fun _ => .pure _

theorem quiet_applyPlan (group : String) (plan : List Placement) :
    (applyPlan group plan).Quiet := by
  refine (Only.note (by rfl)).bind fun _ => Only.bind ?_ fun _ => Only.note (by rfl)
  exact .forM (fun p => (Only.note (by rfl)).bind fun _ => Only.call (by rfl)) plan

theorem quiet_drainServer (m : Move) (regions : List Region) (kept : List TableName)
    (s : ServerAddress) : (drainServer m regions kept s).Quiet := by
  refine (Only.note (by rfl)).bind fun _ => (Only.forM (fun _ => Only.call (by rfl)) _).bind fun _ => ?_
  split
  · exact (Only.note (by rfl)).bind fun _ => .pure _
  · exact .pure true

theorem quiet_drainServers (m : Move) (regionsOn : ServerAddress → List Region)
    (kept : List TableName) : ∀ pending : List ServerAddress,
      (drainServers m regionsOn kept pending).Quiet
  | [] => .pure []
  | s :: rest => (quiet_drainServer m (regionsOn s) kept s).bind fun _ =>
    (quiet_drainServers m regionsOn kept rest).bind fun _ => .pure _

/-- A pass of a drain changes no more than where regions are. -/
theorem quiet_drainPass (c : Config) (m : Move) : (drainPass c m).Quiet := by
  refine (Only.call (by rfl)).bind fun assignments => (Only.call (by rfl)).bind fun transitions => ?_
  refine (Only.call (by rfl)).bind fun answer => ?_
  rcases answer with - | g
  · exact quiet_drainServers m _ _ _
  · exact (only_ownedAmong (fun _ => rfl) g _).bind fun _ => quiet_drainServers m _ _ _

theorem quiet_finishMove (m : Move) : (finishMove m).Quiet :=
  (Only.hook (by rfl)).bind fun _ => Only.note (by rfl)

/-! ### Loops, under any rule -/

section Loops

universe u

variable {σ : Type u} {R : Rule σ} (hR : R.Monotone) (inv : σ → Prop)

include hR

/-- Those of some tables that a group is found to own are tables for which a look says so. -/
theorem loop_ownedAmong {g : Group} {found : TableName → Prop}
    (h : ∀ t x, inv x →
      (owns g t).Ensures R (fun owned y => inv y ∧ (owned = true → found t)) x) :
    ∀ (tables : List TableName) {x : σ}, inv x →
      (ownedAmong g tables).Ensures R (fun kept y => inv y ∧ ∀ t ∈ kept, found t) x
  | [], _, hx => ⟨hx, fun _ ht => absurd ht List.not_mem_nil⟩
  | t :: tables, x, hx => by
    unfold ownedAmong
    rw [ensures_bind]
    refine (h t x hx).mono hR ?_
    rintro owned y ⟨hy, howned⟩
    rw [ensures_bind]
    refine (loop_ownedAmong h tables hy).mono hR ?_
    rintro others z ⟨hz, hothers⟩
    refine ⟨hz, fun t' ht' => ?_⟩
    cases owned with
    | false => exact hothers t' ht'
    | true =>
      rcases List.mem_cons.1 ht' with rfl | ht'
      · exact howned rfl
      · exact hothers t' ht'

variable {m : Move} {kept : List TableName}
variable (hnote : ∀ n x, inv x → R.ask (.note n) (fun _ y => inv y) x)
variable (hunassign : ∀ r x, inv x → R.ask (.call (.unassign r)) (fun _ y => inv y) x)

include hnote hunassign

/-- A server that is not called busy had only regions of kept tables. -/
theorem loop_drainServer {regions : List Region} {s : ServerAddress} {x : σ} (hx : inv x) :
    (drainServer m regions kept s).Ensures R
      (fun busy y => inv y ∧ (busy = false → ∀ r ∈ regions, r.table ∈ kept)) x := by
  unfold drainServer
  rw [ensures_bind, ensures_note]
  refine hR ?_ (hnote _ x hx)
  intro _ x₁ hx₁
  dsimp only
  rw [ensures_bind]
  refine (ensures_forM hR inv (fun _ => True) (fun r _ y hy => ?_) hx₁).mono hR ?_
  · exact hR (fun _ _ hz => ⟨hz, trivial⟩) (hunassign r y hy)
  rintro - x₂ ⟨hx₂, -⟩
  split
  · next hempty =>
    rw [ensures_bind, ensures_note]
    refine hR (fun _ x₃ hx₃ => ⟨hx₃, fun _ r hr => ?_⟩) (hnote _ x₂ hx₂)
    by_contra hkept
    have hmem : r ∈ regions.filter fun r => r.table ∉ kept :=
      List.mem_filter.2 ⟨hr, by simpa using hkept⟩
    rw [List.isEmpty_iff.1 hempty] at hmem
    exact List.not_mem_nil hmem
  · exact ⟨hx₂, fun hfalse => by cases hfalse⟩

/-- Only pending servers are busy, and those that are not had only regions of kept tables. -/
theorem loop_drainServers {regionsOn : ServerAddress → List Region} :
    ∀ (pending : List ServerAddress) {x : σ}, inv x →
      (drainServers m regionsOn kept pending).Ensures R
        (fun busy y => inv y ∧ (∀ s ∈ busy, s ∈ pending) ∧
          ∀ s ∈ pending, s ∉ busy → ∀ r ∈ regionsOn s, r.table ∈ kept) x
  | [], _, hx => ⟨hx, fun _ hs => hs, fun _ hs => absurd hs List.not_mem_nil⟩
  | s :: rest, x, hx => by
    unfold drainServers
    rw [ensures_bind]
    refine (loop_drainServer hR inv hnote hunassign hx).mono hR ?_
    rintro busy x₁ ⟨hx₁, hbusy⟩
    rw [ensures_bind]
    refine (loop_drainServers rest hx₁).mono hR ?_
    rintro others x₂ ⟨hx₂, hsub, hothers⟩
    refine ⟨hx₂, fun s' hs' => ?_, fun s' hs' hnot => ?_⟩
    · split at hs'
      · rcases List.mem_cons.1 hs' with rfl | hs'
        · exact List.mem_cons_self
        · exact List.mem_cons_of_mem _ (hsub s' hs')
      · exact List.mem_cons_of_mem _ (hsub s' hs')
    · cases busy with
      | false =>
        rcases List.mem_cons.1 hs' with rfl | hs'
        · exact hbusy rfl
        · exact hothers s' hs' hnot
      | true =>
        rw [if_pos rfl, List.mem_cons, not_or] at hnot
        exact hothers s' ((List.mem_cons.1 hs').resolve_left hnot.1) hnot.2

end Loops

/-! ### Operations -/

section Operations

variable {α : Type} (hP : ∀ q : Request, q.usual = true → P q)

include hP

theorem only_looks {p : Program α} (h : p.Only (fun q => q.looks = true) F) : p.Only P F :=
  h.mono (fun q hq => hP q (Request.usual_of_reads (Request.reads_of_looks hq))) fun _ h => h

theorem only_checking {p : Program α} (h : p.Checking) : p.Only P fun _ => True :=
  only_looks hP h.inquiring

theorem only_quiet {p : Program α} (h : p.Quiet) : p.Only P F :=
  h.mono (fun q hq => hP q (Request.usual_of_reads hq)) fun _ h => h.elim

theorem only_holding {l : Lock} {p : Program α} (h : p.Only P F) : (holding l p).Only P F :=
  Only.holding (hP _ rfl) (hP _ rfl) h

theorem only_getGroup (name : String) : (getGroup name).Only P F :=
  only_holding hP (Only.call (hP _ rfl))

theorem only_getGroupOfServer (s : ServerAddress) : (getGroupOfServer s).Only P F :=
  only_holding hP (Only.call (hP _ rfl))

theorem only_listGroups : listGroups.Only P F := only_holding hP (Only.call (hP _ rfl))

theorem only_getGroupOfTable (t : TableName) : (getGroupOfTable t).Only P F := by
  refine only_holding hP ((Only.call (hP _ rfl)).bind fun answer => ?_)
  rcases answer with - | name
  · exact .pure _
  · exact Only.call (hP _ rfl)

theorem only_addGroup {name : String} (hadd : P (.call (.addGroup name))) :
    (addGroup name).Only P fun _ => True := by
  refine (Only.hook (hP _ rfl)).bind fun _ => (Only.refuseIf trivial).bind fun _ =>
    Only.bind ?_ fun _ => (Only.note (hP _ rfl)).bind fun _ => Only.hook (hP _ rfl)
  refine only_holding hP ((Only.call (hP _ rfl)).bind fun existing => ?_)
  exact (Only.refuseIf trivial).bind fun _ => Only.call hadd

theorem only_removeGroup {name : String} (hremove : P (.call (.removeGroup name))) :
    (removeGroup name).Only P fun _ => True := by
  refine only_holding hP ((Only.hook (hP _ rfl)).bind fun _ =>
    (Only.call (hP _ rfl)).bind fun answer => ?_)
  rcases answer with - | g
  · exact Only.refuse trivial
  refine (Only.refuseIf trivial).bind fun _ => (Only.refuseIf trivial).bind fun _ =>
    (Only.refuseIf trivial).bind fun _ => (Only.call (hP _ rfl)).bind fun namespaces => ?_
  refine (only_checking hP (checking_refuseIfReferenced name namespaces)).bind fun _ => ?_
  exact (Only.call hremove).bind fun _ => (Only.note (hP _ rfl)).bind fun _ => Only.hook (hP _ rfl)

theorem only_changeMembership {servers : ServerSet} (first : ServerAddress) (target : String)
    (hreserve : ∀ goal, P (.reserve servers goal))
    (hmove : ∀ source goal, P (.call (.moveServers servers source goal))) :
    (changeMembership first servers target).Only P fun _ => True := by
  refine (Only.hook (hP _ rfl)).bind fun _ => ?_
  refine (only_checking hP (checking_targetGroup target)).bind fun goal => ?_
  refine (only_checking hP (checking_groupOf first)).bind fun source => ?_
  refine (Only.refuseIf trivial).bind fun _ => ?_
  refine (only_checking hP (checking_checkOnline source servers)).bind fun _ => ?_
  refine (only_checking hP (Only.forM (checking_checkSource source) _)).bind fun _ => ?_
  refine (Only.refuseIf trivial).bind fun _ => (Only.ask (hreserve goal.name)).bind fun _ => ?_
  exact (Only.call (hmove source.name goal.name)).bind fun _ => (Only.note (hP _ rfl)).bind fun _ =>
    .pure _

theorem only_startMove {servers : ServerSet} (target : String)
    (hreserve : ∀ goal, P (.reserve servers goal))
    (hmove : ∀ source goal, P (.call (.moveServers servers source goal)))
    (hlaunch : ∀ source goal, P (.launch servers source goal)) :
    (startMove servers target).Only P fun _ => True := by
  unfold startMove
  split
  · exact (Only.note (hP _ rfl)).bind fun _ => .pure _
  · refine (Only.ask (hP _ rfl)).bind fun reserved => ?_
    split
    · exact Only.refuse trivial
    · refine (Only.ask (hP _ rfl)).bind fun _ => ?_
      refine (only_changeMembership hP _ target hreserve hmove).bind fun groups => ?_
      exact (Only.ask (hlaunch _ _)).bind fun _ => .pure _

theorem only_awaitMove {number : Nat} (hjoin : P (.join number)) :
    (awaitMove number).Only P fun _ => True := by
  refine (Only.ask hjoin).bind fun ending => ?_
  rcases ending with - | cause | -
  · exact .pure ()
  · trivial
  · exact (Only.note (hP _ rfl)).bind fun _ => trivial

theorem only_moveServers {servers : ServerSet} (target : String)
    (hreserve : ∀ goal, P (.reserve servers goal))
    (hmove : ∀ source goal, P (.call (.moveServers servers source goal)))
    (hlaunch : ∀ source goal, P (.launch servers source goal))
    (hjoin : ∀ number, P (.join number)) : (moveServers servers target).Only P fun _ => True := by
  refine (only_startMove hP target hreserve hmove hlaunch).bind fun number => ?_
  rcases number with - | number
  · exact .pure ()
  · exact only_awaitMove hP (hjoin number)

theorem only_unassignTable (t : TableName) : (unassignTable t).Only P F := by
  refine (Only.call (hP _ rfl)).bind fun _ => only_holding hP ?_
  refine (Only.note (hP _ rfl)).bind fun _ => (Only.call (hP _ rfl)).bind fun regions => ?_
  exact (Only.note (hP _ rfl)).bind fun _ => Only.forM (fun _ => Only.call (hP _ rfl)) regions

theorem only_moveTables {tables : TableSet} {goal : Option String}
    (hmove : P (.call (.moveTables tables goal))) :
    (moveTables tables goal).Only P fun _ => True := by
  have hlooks : ∀ q : Request, q.looks = true → P q := fun q hq =>
    hP q (Request.usual_of_reads (Request.reads_of_looks hq))
  unfold moveTables
  split
  · exact Only.note (hP _ rfl)
  · exact (only_holding hP (only_repin hlooks hmove)).bind fun _ =>
      Only.forM (only_unassignTable hP) _

theorem only_prepareTable {t : TableName}
    (hmove : ∀ goal, P (.call (.moveTables {t} (some goal)))) :
    (prepareTable t).Only P fun _ => True := by
  refine (Only.call (hP _ rfl)).bind fun answer => ?_
  rcases answer with - | n
  · exact Only.refuse trivial
  refine (only_getGroup hP _).bind fun answer => ?_
  rcases answer with - | g
  · exact Only.refuse trivial
  dsimp only
  split
  · exact .pure ()
  · exact (Only.note (hP _ rfl)).bind fun _ => only_moveTables hP (hmove _)

theorem only_forgetTable {t : TableName} (hmove : P (.call (.moveTables {t} none))) :
    (forgetTable t).Only P fun _ => True := by
  refine (only_getGroupOfTable hP t).bind fun answer => ?_
  rcases answer with - | g
  · exact .pure ()
  · exact (Only.note (hP _ rfl)).bind fun _ => only_moveTables hP hmove

theorem only_balanceTables (g : Group) (name : String) (tables : List TableName)
    (assignments : Std.ExtTreeMap Region ServerAddress) :
    (balanceTables g name tables assignments).Only P F := by
  refine (Only.call (hP _ rfl)).bind fun online => ?_
  refine (only_looks hP (only_planTables _)).bind fun plan => ?_
  dsimp only
  split
  · exact (only_quiet hP (quiet_applyPlan name plan)).bind fun _ =>
      (Only.hook (hP _ rfl)).bind fun _ => .pure _
  · exact (Only.hook (hP _ rfl)).bind fun _ => .pure _

theorem only_balance (name : String) : (balance name).Only P fun _ => True := by
  refine only_holding hP ((Only.hook (hP _ rfl)).bind fun _ =>
    (Only.call (hP _ rfl)).bind fun answer => ?_)
  rcases answer with - | g
  · exact Only.refuse trivial
  refine (Only.call (hP _ rfl)).bind fun assignments => ?_
  refine (Only.call (hP _ rfl)).bind fun transitions => ?_
  refine (only_ownedAmong (fun _ => hP _ rfl) g _).bind fun tables => ?_
  dsimp only
  split
  · exact (Only.note (hP _ rfl)).bind fun _ => .pure _
  · refine (Only.call (hP _ rfl)).bind fun recovering => ?_
    split
    · exact (Only.note (hP _ rfl)).bind fun _ => .pure _
    · exact only_balanceTables hP g name tables assignments

end Operations

end Coordinator

end ServerGroups
