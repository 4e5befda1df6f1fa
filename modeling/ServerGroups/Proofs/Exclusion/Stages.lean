/-
ServerGroups/Proofs/Exclusion/Stages.lean

What an operation holds from one request to the next.

    free           nothing: it may wait, for a lock or for the end of a drain
    holding l      the lock l alone, and no other
    reserved S k   the membership lock, and the servers S reserved for k
    enrolled S k   and the registry has moved them to k

An operation goes from `free` to `holding l` and back, and from holding the
membership lock over `reserved` and `enrolled` to `free` again: what it holds
then goes over to the drain that it launches.  It changes the registry only
while it holds the membership lock, and moves servers only when it has
reserved them.

Design.  Nothing is said here about worlds: a stage is told from the requests
alone, so every program of the coordinator is looked at once.
-/
import ServerGroups.Proofs.Commands
import ServerGroups.Proofs.Inquiries

namespace ServerGroups

open Program

/-- What the running activity holds. -/
inductive Stage where
  | free
  | holding (lock : Lock)
  | reserved (servers : ServerSet) (target : String)
  | enrolled (servers : ServerSet) (target : String)

namespace Stage

/-- The stages in which a request may be made. -/
def Fits : Stage → Request → Prop
  | st, .call (.moveServers servers _ target) => st = .reserved servers target
  | st, .call c => c.writes = true → st = .holding .membership
  | _, .note _ => True
  | st, .lock _ shared holder => st = .free ∧ shared = false ∧ holder = .operation
  | st, .unlock l => st = .holding l
  | _, .reservations => True
  | st, .reserve _ _ => st = .holding .membership
  | st, .launch servers _ target => st = .enrolled servers target
  | st, .join _ => st = .free

/-- The stage after a request has been answered. -/
def next : Stage → Request → Stage
  | _, .call (.moveServers servers _ target) => .enrolled servers target
  | _, .lock l _ _ => .holding l
  | _, .unlock _ => .free
  | _, .reserve servers target => .reserved servers target
  | _, .launch .. => .free
  | st, _ => st

theorem fits_of_reads {q : Request} (hq : q.reads = true) (st : Stage) :
    st.Fits q ∧ st.next q = st := by
  cases q with
  | call c =>
    have hc : c.writes = false := by simpa [Request.reads] using hq
    cases c <;> first | exact ⟨fun h => absurd h Bool.false_ne_true, rfl⟩ | cases hc
  | note n => exact ⟨trivial, rfl⟩
  | reservations => exact ⟨trivial, rfl⟩
  | _ => cases hq

/-- A change of the registry is asked for under the membership lock. -/
theorem Fits.of_writes {st : Stage} {c : Call} (h : st.Fits (.call c)) (hc : c.writes = true) :
    st = .holding .membership ∨ ∃ servers target, st = .reserved servers target := by
  cases c <;> cases hc
  case moveServers servers source target => exact .inr ⟨servers, target, h⟩
  all_goals exact .inl (h rfl)

/-- An operation that asks for something for which it may have to wait holds nothing. -/
theorem Fits.of_pauses {st : Stage} {q : Request} (h : st.Fits q) (hq : q.pauses = true) :
    st = .free := by
  cases q with
  | lock lock shared holder => exact h.1
  | join number => exact h
  | _ => cases hq

/-- Every request is made in a stage that it fits. -/
def rule : Rule Stage where
  ask q post st := st.Fits q ∧ ∀ answer, post answer (st.next q)
  fail _ _ := True

theorem rule_monotone : rule.Monotone := fun h hask => ⟨hask.1, fun a => h a _ (hask.2 a)⟩

end Stage

/-- A program leads from one stage to another one. -/
abbrev Program.Leads {α : Type} (p : Program α) (st st' : Stage) : Prop :=
  p.Ensures Stage.rule (fun _ x => x = st') st

/-! ### Rules -/

section Rules

variable {α β : Type} {st st' st'' : Stage}

theorem leads_pure (a : α) : (pure a : Program α).Leads st st := rfl

theorem leads_fail (cause : Error) : (fail cause : Program α).Leads st st' := trivial

/-- What a program leads to is where the next one starts. -/
theorem Program.Leads.andThen {p : Program α} {f : α → Program β} {post : β → Stage → Prop}
    (hp : p.Leads st st') (hf : ∀ a, (f a).Ensures Stage.rule post st') :
    (p >>= f).Ensures Stage.rule post st := by
  rw [ensures_bind]
  refine Ensures.mono Stage.rule_monotone ?_ hp
  rintro a _ rfl
  exact hf a

theorem Program.Leads.bind {p : Program α} {f : α → Program β} (hp : p.Leads st st')
    (hf : ∀ a, (f a).Leads st' st'') : (p >>= f).Leads st st'' :=
  hp.andThen hf

theorem leads_ask {q : Request} (hq : st.Fits q) : (ask q done).Leads st (st.next q) :=
  ⟨hq, fun _ => rfl⟩

theorem leads_lock (l : Lock) : (ask (.lock l false .operation) done).Leads .free (.holding l) :=
  leads_ask ⟨rfl, rfl, rfl⟩

/-- A program that changes neither the registry nor the coordinator may run at any stage. -/
theorem Program.Only.leads {F : Error → Prop} {p : Program α}
    (h : p.Only (fun q => q.reads = true) F) (st : Stage) : p.Leads st st := by
  refine h.ensures (fun {q post} hq hpost => ?_) fun _ _ => trivial
  obtain ⟨hfits, hnext⟩ := Stage.fits_of_reads hq st
  refine ⟨hfits, fun answer => ?_⟩
  rw [hnext]
  exact hpost answer

theorem leads_inquiring {p : Program α} (h : p.Inquiring) (st : Stage) : p.Leads st st :=
  (h.mono (fun _ => Request.reads_of_looks) fun _ h => h).leads st

theorem leads_checking {p : Program α} (h : p.Checking) (st : Stage) : p.Leads st st :=
  leads_inquiring h.inquiring st

theorem leads_call {c : Call} (hc : c.writes = false) : (call c).Leads st st :=
  Only.leads (F := fun _ => False) (Only.call (by simp [Request.reads, hc])) st

theorem leads_hook (h : Hook) : (hook h).Leads st st := leads_call rfl

theorem leads_note (n : Notice) : (note n).Leads st st :=
  Only.leads (F := fun _ => False) (Only.note rfl) st

theorem leads_refuseIf {p : Prop} [Decidable p] {cause : Refusal} :
    (refuseIf p cause).Leads st st :=
  leads_inquiring (Only.refuseIf trivial) st

theorem leads_forM {f : α → Program Unit} (h : ∀ a, (f a).Leads st st) (l : List α) :
    (l.forM f).Leads st st := by
  induction l with
  | nil => exact leads_pure ()
  | cons a l ih => exact (h a).bind fun _ => ih

/-- A program that holds a lock only while it runs. -/
theorem leads_holding {l : Lock} {body : Program α} (h : body.Leads (.holding l) (.holding l)) :
    (holding l body).Leads .free .free := by
  refine (leads_lock l).bind fun _ => h.bind fun result => ?_
  have hunlock : (ask (.unlock l) done).Leads (.holding l) .free := leads_ask rfl
  exact hunlock.bind fun _ => leads_pure result

end Rules

/-! ### The coordinator's programs -/

namespace Coordinator

theorem leads_addGroup (name : String) : (addGroup name).Leads .free .free := by
  refine (leads_hook _).bind fun _ => leads_refuseIf.bind fun _ => Leads.bind ?_ fun _ =>
    (leads_note _).bind fun _ => leads_hook _
  refine leads_holding ((leads_call rfl).bind fun existing => leads_refuseIf.bind fun _ => ?_)
  exact leads_ask fun _ => rfl

theorem leads_removeGroup (name : String) : (removeGroup name).Leads .free .free := by
  refine leads_holding ((leads_hook _).bind fun _ => (leads_call rfl).bind fun answer => ?_)
  rcases answer with - | g
  · exact leads_fail _
  refine leads_refuseIf.bind fun _ => leads_refuseIf.bind fun _ => leads_refuseIf.bind fun _ => ?_
  refine (leads_call rfl).bind fun namespaces => ?_
  refine (leads_checking (checking_refuseIfReferenced name namespaces) _).bind fun _ => ?_
  have hremove : (call (.removeGroup name)).Leads (.holding .membership) (.holding .membership) :=
    leads_ask fun _ => rfl
  exact hremove.bind fun _ => (leads_note _).bind fun _ => leads_hook _

theorem leads_getGroup (name : String) : (getGroup name).Leads .free .free :=
  leads_holding (leads_call rfl)

theorem leads_getGroupOfServer (s : ServerAddress) : (getGroupOfServer s).Leads .free .free :=
  leads_holding (leads_call rfl)

theorem leads_listGroups : listGroups.Leads .free .free := leads_holding (leads_call rfl)

theorem leads_getGroupOfTable (t : TableName) : (getGroupOfTable t).Leads .free .free := by
  refine leads_holding ((leads_call rfl).bind fun answer => ?_)
  rcases answer with - | name
  · exact leads_pure _
  · exact leads_call rfl

/-- Servers are reserved before the registry moves them, to the group that they are reserved for. -/
theorem leads_changeMembership (first : ServerAddress) (servers : ServerSet) (target : String) :
    (changeMembership first servers target).Ensures Stage.rule
      (fun groups st => st = .enrolled servers groups.2.name) (.holding .membership) := by
  refine (leads_hook _).andThen fun _ => ?_
  refine (leads_checking (checking_targetGroup target) _).andThen fun goal => ?_
  refine (leads_checking (checking_groupOf first) _).andThen fun source => ?_
  refine leads_refuseIf.andThen fun _ => ?_
  refine (leads_checking (checking_checkOnline source servers) _).andThen fun _ => ?_
  refine (leads_checking (Only.forM (checking_checkSource source) _) _).andThen fun _ => ?_
  refine leads_refuseIf.andThen fun _ => ?_
  exact ⟨rfl, fun _ => ⟨rfl, fun moved => ⟨trivial, fun _ => rfl⟩⟩⟩

theorem leads_startMove (servers : ServerSet) (target : String) :
    (startMove servers target).Leads .free .free := by
  unfold startMove
  split
  · exact (leads_note _).bind fun _ => leads_pure _
  · have hreservations : (ask .reservations done).Leads .free .free := leads_ask trivial
    refine hreservations.bind fun reserved => ?_
    split
    · exact leads_fail _
    · refine (leads_lock .membership).bind fun _ => ?_
      unfold Leads
      rw [ensures_bind]
      refine (leads_changeMembership _ servers target).mono Stage.rule_monotone ?_
      rintro ⟨source, goal⟩ _ rfl
      exact ⟨rfl, fun number => rfl⟩

theorem leads_awaitMove (number : Nat) : (awaitMove number).Leads .free .free := by
  have hjoin : (ask (.join number) done).Leads .free .free := leads_ask rfl
  refine hjoin.bind fun ending => ?_
  rcases ending with - | cause | -
  · exact leads_pure ()
  · exact leads_fail cause
  · exact (leads_note _).bind fun _ => leads_fail _

theorem leads_moveServers (servers : ServerSet) (target : String) :
    (moveServers servers target).Leads .free .free := by
  refine (leads_startMove servers target).bind fun number => ?_
  rcases number with - | number
  · exact leads_pure ()
  · exact leads_awaitMove number

theorem leads_repin (tables : TableSet) (goal : Option String) :
    (repin tables goal).Leads (.holding .membership) (.holding .membership) := by
  have hrest : (tables.toList.forM (checkTable goal) >>= fun _ => call (.moveTables tables goal) >>=
      fun _ => note (.tablesMoved tables.size goal) >>= fun _ =>
        hook (.postMoveTables tables goal)).Leads (.holding .membership) (.holding .membership) := by
    refine (leads_checking (Only.forM (checking_checkTable goal) _) _).bind fun _ => ?_
    have hmove : (call (.moveTables tables goal)).Leads (.holding .membership)
        (.holding .membership) := leads_ask fun _ => rfl
    exact hmove.bind fun _ => (leads_note _).bind fun _ => leads_hook _
  refine (leads_hook _).bind fun _ => ?_
  rcases goal with - | name
  · exact hrest
  · exact (leads_checking (checking_checkTarget name) _).bind fun _ => hrest

theorem leads_unassignTable (t : TableName) : (unassignTable t).Leads .free .free := by
  refine (leads_call rfl).bind fun _ => leads_holding ?_
  refine (leads_note _).bind fun _ => (leads_call rfl).bind fun regions => ?_
  exact (leads_note _).bind fun _ => leads_forM (fun _ => leads_call rfl) regions

theorem leads_moveTables (tables : TableSet) (goal : Option String) :
    (moveTables tables goal).Leads .free .free := by
  unfold moveTables
  split
  · exact leads_note _
  · exact (leads_holding (leads_repin tables goal)).bind fun _ => leads_forM leads_unassignTable _

theorem leads_prepareTable (t : TableName) : (prepareTable t).Leads .free .free := by
  refine (leads_call rfl).bind fun answer => ?_
  rcases answer with - | n
  · exact leads_fail _
  refine (leads_getGroup _).bind fun answer => ?_
  rcases answer with - | g
  · exact leads_fail _
  dsimp only
  split
  · exact leads_pure ()
  · exact (leads_note _).bind fun _ => leads_moveTables _ _

theorem leads_forgetTable (t : TableName) : (forgetTable t).Leads .free .free := by
  refine (leads_getGroupOfTable t).bind fun answer => ?_
  rcases answer with - | g
  · exact leads_pure ()
  · exact (leads_note _).bind fun _ => leads_moveTables _ _

theorem leads_balanceTables (g : Group) (name : String) (tables : List TableName)
    (assignments : Std.ExtTreeMap Region ServerAddress) (st : Stage) :
    (balanceTables g name tables assignments).Leads st st := by
  refine (leads_call rfl).bind fun online => ?_
  refine (leads_inquiring (only_planTables _) st).bind fun plan => ?_
  dsimp only
  split
  · exact ((quiet_applyPlan name plan).leads st).bind fun _ => (leads_hook _).bind fun _ =>
      leads_pure _
  · exact (leads_hook _).bind fun _ => leads_pure _

theorem leads_balance (name : String) : (balance name).Leads .free .free := by
  refine leads_holding ((leads_hook _).bind fun _ => (leads_call rfl).bind fun answer => ?_)
  rcases answer with - | g
  · exact leads_fail _
  refine (leads_call rfl).bind fun assignments => (leads_call rfl).bind fun transitions => ?_
  refine (leads_inquiring (only_ownedAmong (fun _ => rfl) g _) _).bind fun tables => ?_
  dsimp only
  split
  · exact (leads_note _).bind fun _ => leads_pure _
  · refine (leads_call rfl).bind fun recovering => ?_
    split
    · exact (leads_note _).bind fun _ => leads_pure _
    · exact leads_balanceTables g name tables assignments _

end Coordinator

open Coordinator

/-- Every operation that comes to its end holds nothing any more. -/
theorem Operation.leads (o : Operation) : o.program.Leads .free .free := by
  refine o.program_of (motive := fun {_} p => p.Leads .free .free)
    leads_pure (fun _ => leads_fail _) (fun _ h => h.bind fun _ => leads_pure _)
    (fun n h => (leads_note n).bind fun _ => h) fun o _ ho => ?_
  cases o with
  | getGroup name => exact leads_getGroup name
  | getGroupOfServer s => exact leads_getGroupOfServer s
  | getGroupOfTable t => exact leads_getGroupOfTable t
  | listGroups => exact leads_listGroups
  | addGroup name => exact leads_addGroup name
  | removeGroup name => exact leads_removeGroup name
  | moveServers servers target => exact leads_moveServers servers target
  | startMove servers target => exact leads_startMove servers target
  | awaitMove number => exact leads_awaitMove number
  | moveTables tables target => exact leads_moveTables tables target
  | prepareTable t => exact leads_prepareTable t
  | forgetTable t => exact leads_forgetTable t
  | balance name => exact leads_balance name
  | execute c => exact absurd rfl (ho c)

end ServerGroups
