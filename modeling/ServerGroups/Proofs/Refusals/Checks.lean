/-
ServerGroups/Proofs/Refusals/Checks.lean

Every program checks first and changes something after that.

A request commits if it may change what is there: the registry, where regions
are, or what is reserved.  `rejecting` is the rule that a program rejects what
it is asked only as long as no request of its has committed.  Programs are of
three kinds,

    Tentative   commits to nothing, and may reject
    Resolute    may commit, and rejects nothing any more
    Declines    rejects nothing once it has committed

and a program that is tentative first and resolute then is of the third kind
(`Declines.bind`, `Tentative.andThen`).  Every operation is of the third kind.

Design.  A reservation is both at once: it is rejected, or it commits.  And a
drain that is waited for ends with no rejection, so the rule reckons with such
endings only (`Request.Plain`).
-/
import ServerGroups.Proofs.Exclusion.Lawful

namespace ServerGroups

open Program

/-! ### The rule -/

/-- An error of one of the classes with which an operation rejects what it is asked. -/
def Error.Rejects (e : Error) : Prop :=
  e.kind ∈ [ErrorKind.invalidArgument, .notFound, .invalidState, .conflict]

theorem Error.rejects_iff {e : Error} : e.Rejects ↔ ∃ cause, e = .refused cause := by
  cases e with
  | refused cause =>
    refine iff_of_true ?_ ⟨cause, rfl⟩
    cases cause <;> simp [Rejects, kind, Refusal.kind]
  | unavailable cause => exact iff_of_false (by simp [Rejects, kind]) (by simp)
  | internal => exact iff_of_false (by simp [Rejects, kind]) (by simp)

/-- Whether a request may change what is there. -/
def Request.commits : Request → Bool
  | .call c => c.writes || c.shifts
  | .reserve .. => true
  | _ => false

/-- A drain that is waited for has not ended with a rejection. -/
def Request.Plain : (q : Request) → q.Answer → Prop
  | .join _, (ending : Ending) => ∀ cause : Error, ending = .failed cause → ¬ cause.Rejects
  | _, _ => True

/-- A program rejects nothing once a request has committed. -/
def rejecting : Rule Bool where
  ask q post committed := ((∃ servers target, q = .reserve servers target) → committed = false) ∧
    ∀ answer, q.Plain answer → post answer (committed || q.commits)
  fail cause committed := cause.Rejects → committed = false

theorem rejecting_monotone : rejecting.Monotone :=
  fun h hask => ⟨hask.1, fun a ha => h a _ (hask.2 a ha)⟩

namespace Program

variable {α β : Type} {P : Request → Prop} {F : Error → Prop} {p : Program α} {f : α → Program β}

/-- A program commits to nothing, and may reject. -/
def Tentative (p : Program α) : Prop :=
  p.Ensures rejecting (fun _ committed => committed = false) false

/-- A program rejects nothing, whatever was before it. -/
def Resolute (p : Program α) : Prop :=
  ∀ committed, p.Ensures rejecting (fun _ _ => True) committed

/-- A program rejects nothing once it has committed. -/
def Declines (p : Program α) : Prop := p.Ensures rejecting (fun _ _ => True) false

/-! ### Sequences -/

theorem Tentative.declines (h : p.Tentative) : p.Declines :=
  Ensures.mono rejecting_monotone (fun _ _ _ => trivial) h

theorem Resolute.declines (h : p.Resolute) : p.Declines := h false

theorem tentative_pure (a : α) : (pure a : Program α).Tentative := rfl

theorem Tentative.bind (h : p.Tentative) (hf : ∀ a, (f a).Tentative) : (p >>= f).Tentative := by
  unfold Tentative
  rw [ensures_bind]
  refine Ensures.mono rejecting_monotone ?_ h
  rintro a _ rfl
  exact hf a

theorem Resolute.bind (h : p.Resolute) (hf : ∀ a, (f a).Resolute) : (p >>= f).Resolute := by
  intro committed
  rw [ensures_bind]
  exact Ensures.mono rejecting_monotone (fun a after _ => hf a after) (h committed)

/-- After a part that commits to nothing. -/
theorem Tentative.andThen (h : p.Tentative) (hf : ∀ a, (f a).Declines) : (p >>= f).Declines := by
  unfold Declines
  rw [ensures_bind]
  refine Ensures.mono rejecting_monotone ?_ h
  rintro a _ rfl
  exact hf a

/-- Before a part that rejects nothing. -/
theorem Declines.bind (h : p.Declines) (hf : ∀ a, (f a).Resolute) : (p >>= f).Declines := by
  unfold Declines
  rw [ensures_bind]
  exact Ensures.mono rejecting_monotone (fun a after _ => hf a after) h

/-! ### Single requests -/

theorem declines_ask (q : Request) : (ask q done).Declines := ⟨fun _ => rfl, fun _ _ => trivial⟩

theorem declines_refuse (cause : Refusal) : (refuse cause : Program α).Declines := fun _ => rfl

/-- A program that comes to no request that commits. -/
theorem Only.tentative (h : p.Only (fun q => q.commits = false) F) : p.Tentative := by
  refine h.ensures (fun {q post} hq hpost => ⟨fun _ => rfl, fun answer _ => ?_⟩) fun _ _ _ => rfl
  rw [hq]
  exact hpost answer

theorem tentative_ask {q : Request} (hq : q.commits = false) : (ask q done).Tentative :=
  Only.tentative (F := fun _ => False) (Only.ask hq)

theorem tentative_refuseIf {c : Prop} [Decidable c] {cause : Refusal} :
    (refuseIf c cause).Tentative :=
  Only.tentative (F := fun _ => True) (Only.refuseIf trivial)

theorem tentative_checking (h : p.Checking) : p.Tentative := by
  refine Only.tentative (F := fun _ => True) (h.mono (fun q hq => ?_) fun _ h => h)
  cases q with
  | call c => cases c <;> first | rfl | cases hq
  | _ => cases hq

/-- A program that reserves nothing and does not fail of its own. -/
theorem Only.resolute (h : p.Only (fun q => ∀ servers target, q ≠ .reserve servers target)
    fun _ => False) : p.Resolute := by
  induction p with
  | done a => exact fun _ => trivial
  | fail cause => exact h.elim
  | ask q next ih =>
    intro committed
    refine ⟨?_, fun answer _ => ih answer (h.2 answer) _⟩
    rintro ⟨servers, target, rfl⟩
    exact absurd rfl (h.1 servers target)

theorem resolute_ask {q : Request} (hq : ∀ servers target, q ≠ .reserve servers target) :
    (ask q done).Resolute := Only.resolute (Only.ask hq)

theorem resolute_pure (a : α) : (pure a : Program α).Resolute := fun _ => trivial

theorem resolute_call (c : Call) : (call c).Resolute := resolute_ask (by simp)

theorem resolute_hook (h : Hook) : (hook h).Resolute := resolute_ask (by simp)

theorem resolute_note (n : Notice) : (note n).Resolute := resolute_ask (by simp)

theorem resolute_quiet (h : p.Quiet) : p.Resolute := by
  refine Only.resolute (h.mono ?_ fun _ h => h)
  rintro q hq servers target rfl
  cases hq

/-- A program that holds a lock while it runs. -/
theorem declines_holding {l : Lock} (h : p.Declines) : (holding l p).Declines :=
  (tentative_ask rfl).andThen fun _ => h.bind fun a =>
    (resolute_ask (by simp)).bind fun _ => resolute_pure a

theorem tentative_holding {l : Lock} (h : p.Tentative) : (holding l p).Tentative :=
  (tentative_ask rfl).bind fun _ => h.bind fun a => (tentative_ask rfl).bind fun _ => tentative_pure a

theorem resolute_holding {l : Lock} (h : p.Resolute) : (holding l p).Resolute :=
  (resolute_ask (by simp)).bind fun _ => h.bind fun a =>
    (resolute_ask (by simp)).bind fun _ => resolute_pure a

end Program

/-! ### The coordinator's programs -/

namespace Coordinator

theorem tentative_getGroup (name : String) : (getGroup name).Tentative :=
  tentative_holding (tentative_ask rfl)

theorem tentative_getGroupOfServer (s : ServerAddress) : (getGroupOfServer s).Tentative :=
  tentative_holding (tentative_ask rfl)

theorem tentative_listGroups : listGroups.Tentative := tentative_holding (tentative_ask rfl)

theorem tentative_getGroupOfTable (t : TableName) : (getGroupOfTable t).Tentative := by
  refine tentative_holding ((tentative_ask rfl).bind fun answer => ?_)
  rcases answer with - | name
  · exact tentative_pure _
  · exact tentative_ask rfl

theorem declines_addGroup (name : String) : (addGroup name).Declines := by
  refine (tentative_ask rfl).andThen fun _ => tentative_refuseIf.andThen fun _ => ?_
  refine (declines_holding ?_).bind fun _ => (resolute_note _).bind fun _ => resolute_hook _
  exact (tentative_ask rfl).andThen fun _ => tentative_refuseIf.andThen fun _ => declines_ask _

theorem declines_removeGroup (name : String) : (removeGroup name).Declines := by
  refine declines_holding ((tentative_ask rfl).andThen fun _ => ?_)
  refine (tentative_ask rfl).andThen fun answer => ?_
  rcases answer with - | g
  · exact declines_refuse _
  refine tentative_refuseIf.andThen fun _ => tentative_refuseIf.andThen fun _ =>
    tentative_refuseIf.andThen fun _ => (tentative_ask rfl).andThen fun namespaces => ?_
  refine (tentative_checking (checking_refuseIfReferenced name namespaces)).andThen fun _ => ?_
  exact (declines_ask _).bind fun _ => (resolute_note _).bind fun _ => resolute_hook _

/-- Nothing is checked after the servers have been reserved. -/
theorem declines_changeMembership (first : ServerAddress) (servers : ServerSet) (target : String) :
    (changeMembership first servers target).Declines := by
  refine (tentative_ask rfl).andThen fun _ => ?_
  refine (tentative_checking (checking_targetGroup target)).andThen fun goal => ?_
  refine (tentative_checking (checking_groupOf first)).andThen fun source => ?_
  refine tentative_refuseIf.andThen fun _ => ?_
  refine (tentative_checking (checking_checkOnline source servers)).andThen fun _ => ?_
  refine (tentative_checking (Only.forM (checking_checkSource source) _)).andThen fun _ => ?_
  refine tentative_refuseIf.andThen fun _ => ?_
  exact (declines_ask _).bind fun _ => (resolute_call _).bind fun _ =>
    (resolute_note _).bind fun _ => resolute_pure _

theorem declines_startMove (servers : ServerSet) (target : String) :
    (startMove servers target).Declines := by
  unfold startMove
  split
  · exact ((resolute_note _).bind fun _ => resolute_pure _).declines
  · refine (tentative_ask rfl).andThen fun reserved => ?_
    split
    · exact declines_refuse _
    · refine (tentative_ask rfl).andThen fun _ => ?_
      exact (declines_changeMembership _ servers target).bind fun _ =>
        (resolute_ask (by simp)).bind fun _ => resolute_pure _

/-- The error of a drain is passed on, and it is no rejection. -/
theorem resolute_awaitMove (number : Nat) : (awaitMove number).Resolute := by
  intro committed
  refine ⟨by rintro ⟨servers, target, ⟨⟩⟩, fun ending hplain => ?_⟩
  rcases ending with - | cause | -
  · trivial
  · exact fun hrejects => absurd hrejects (hplain cause rfl)
  · refine (resolute_note _).bind (fun _ _ => ?_) _
    exact fun hrejects => absurd hrejects (by simp [Error.Rejects, Error.kind])

theorem declines_moveServers (servers : ServerSet) (target : String) :
    (moveServers servers target).Declines := by
  refine (declines_startMove servers target).bind fun number => ?_
  rcases number with - | number
  · exact resolute_pure ()
  · exact resolute_awaitMove number

/-- All tables are checked before the first one is pinned. -/
theorem declines_repin (tables : TableSet) (goal : Option String) :
    (repin tables goal).Declines := by
  have hrest : (tables.toList.forM (checkTable goal) >>= fun _ => call (.moveTables tables goal) >>=
      fun _ => note (.tablesMoved tables.size goal) >>= fun _ =>
        hook (.postMoveTables tables goal)).Declines := by
    refine (tentative_checking (Only.forM (checking_checkTable goal) _)).andThen fun _ => ?_
    exact (declines_ask _).bind fun _ => (resolute_note _).bind fun _ => resolute_hook _
  refine (tentative_ask rfl).andThen fun _ => ?_
  rcases goal with - | name
  · exact hrest
  · exact (tentative_checking (checking_checkTarget name)).andThen fun _ => hrest

theorem resolute_unassignTable (t : TableName) : (unassignTable t).Resolute := by
  refine (resolute_call _).bind fun _ => resolute_holding ?_
  refine resolute_quiet ((Only.note (by rfl)).bind fun _ => ?_)
  refine (Only.call (by rfl)).bind fun regions => (Only.note (by rfl)).bind fun _ => ?_
  exact .forM (fun _ => Only.call (by rfl)) regions

theorem declines_moveTables (tables : TableSet) (goal : Option String) :
    (moveTables tables goal).Declines := by
  unfold moveTables
  split
  · exact (resolute_note _).declines
  · refine (declines_holding (declines_repin tables goal)).bind fun _ => ?_
    induction tables.toList with
    | nil => exact resolute_pure ()
    | cons t ts ih => exact (resolute_unassignTable t).bind fun _ => ih

theorem declines_prepareTable (t : TableName) : (prepareTable t).Declines := by
  refine (tentative_ask rfl).andThen fun answer => ?_
  rcases answer with - | n
  · exact declines_refuse _
  refine (tentative_getGroup _).andThen fun answer => ?_
  rcases answer with - | g
  · exact declines_refuse _
  dsimp only
  split
  · exact (resolute_pure ()).declines
  · exact (tentative_ask rfl).andThen fun _ => declines_moveTables _ _

theorem declines_forgetTable (t : TableName) : (forgetTable t).Declines := by
  refine (tentative_getGroupOfTable t).andThen fun answer => ?_
  rcases answer with - | g
  · exact (resolute_pure ()).declines
  · exact (tentative_ask rfl).andThen fun _ => declines_moveTables _ _

theorem resolute_balanceTables (g : Group) (name : String) (tables : List TableName)
    (assignments : Std.ExtTreeMap Region ServerAddress) :
    (balanceTables g name tables assignments).Resolute := by
  refine (resolute_call _).bind fun online => ?_
  refine Resolute.bind ?_ fun plan => ?_
  · exact resolute_quiet ((only_planTables _).mono (fun _ => Request.reads_of_looks) fun _ h => h)
  · dsimp only
    split
    · exact (resolute_quiet (quiet_applyPlan name plan)).bind fun _ =>
        (resolute_hook _).bind fun _ => resolute_pure _
    · exact (resolute_hook _).bind fun _ => resolute_pure _

theorem declines_balance (name : String) : (balance name).Declines := by
  refine declines_holding ((tentative_ask rfl).andThen fun _ => ?_)
  refine (tentative_ask rfl).andThen fun answer => ?_
  rcases answer with - | g
  · exact declines_refuse _
  refine (tentative_ask rfl).andThen fun assignments => (tentative_ask rfl).andThen fun transitions => ?_
  refine (tentative_checking (only_ownedAmong (fun _ => rfl) g _)).andThen fun tables => ?_
  dsimp only
  split
  · exact ((resolute_note _).bind fun _ => resolute_pure _).declines
  · refine (tentative_ask rfl).andThen fun recovering => ?_
    split
    · exact ((resolute_note _).bind fun _ => resolute_pure _).declines
    · exact (resolute_balanceTables g name tables assignments).declines

end Coordinator

open Coordinator

/-- No operation rejects what it is asked once it has committed. -/
theorem Operation.declines (o : Operation) : o.program.Declines := by
  refine o.program_of (motive := fun {_} p => p.Declines)
    (fun _ => trivial) declines_refuse (fun _ h => h.bind fun _ => resolute_pure _)
    (fun n h => (tentative_ask rfl).andThen fun _ => h) fun o _ ho => ?_
  cases o with
  | getGroup name => exact (tentative_getGroup name).declines
  | getGroupOfServer s => exact (tentative_getGroupOfServer s).declines
  | getGroupOfTable t => exact (tentative_getGroupOfTable t).declines
  | listGroups => exact tentative_listGroups.declines
  | addGroup name => exact declines_addGroup name
  | removeGroup name => exact declines_removeGroup name
  | moveServers servers target => exact declines_moveServers servers target
  | startMove servers target => exact declines_startMove servers target
  | awaitMove number => exact (resolute_awaitMove number).declines
  | moveTables tables target => exact declines_moveTables tables target
  | prepareTable t => exact declines_prepareTable t
  | forgetTable t => exact declines_forgetTable t
  | balance name => exact declines_balance name
  | execute c => exact absurd rfl (ho c)

end ServerGroups
