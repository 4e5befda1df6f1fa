/-
ServerGroups/Proofs/Hooks/Balance.lean

The hooks of a balance bracket its placements.

A balance first surveys its group: which group it is, which regions are in
transition, which of their tables the group owns, and whether dead servers are
being recovered.  What it is answered tells whether it is halted (`Halted`).
If it is, it calls no second hook; if it is not, it has applied every placement
of every plan, in order, when it calls the second one (`brackets_balance`).
-/
import ServerGroups.Proofs.Hooks.Brackets

namespace ServerGroups

open Program Exchange

/-! ### Plans and placements -/

namespace Exchange

theorem planned_cons (x : Exchange) (s : List Exchange) :
    planned (x :: s) = planned s ++ x.plan := by
  simp [planned]

theorem placed_cons (x : Exchange) (s : List Exchange) :
    placed (x :: s) = placed s ++ x.place := by
  simp [placed]

end Exchange

/-! ### What halts a balance -/

/-- Whether a request is one by which a balance surveys its group. -/
def Request.Surveys : Request → Prop
  | .call (.group _) | .call .transitions | .call (.groupOfTable _) | .call .recovering => True
  | _ => False

/-- By what has been answered a group owns a table: it pins it, or it is `default` and no group
does. -/
def Exchange.Owns (name : String) (s : List Exchange) (t : TableName) : Prop :=
  ∃ g : Group, (⟨.call (.group name), some g⟩ : Exchange) ∈ s ∧
    (g.tables.contains t = true ∨
      g.isDefault = true ∧ (⟨.call (.groupOfTable t), none⟩ : Exchange) ∈ s)

/-- By what has been answered a balance is to stop: a region of a table of the group is in
transition, or dead servers are being recovered. -/
def Exchange.Halted (name : String) (s : List Exchange) : Prop :=
  (∃ transitions : Std.ExtTreeMap String RegionTransition,
    (⟨.call .transitions, transitions⟩ : Exchange) ∈ s ∧
      ∃ x ∈ transitions.toList, Owns name s x.2.region.table) ∨
  (⟨.call .recovering, true⟩ : Exchange) ∈ s

/-- What a balance has been answered of its group. -/
structure Exchange.Surveyed (name : String) (g : Group)
    (transitions : Std.ExtTreeMap String RegionTransition) (tables : List TableName)
    (s : List Exchange) : Prop where
  named : ∀ g' : Group, (⟨.call (.group name), some g'⟩ : Exchange) ∈ s ↔ g' = g
  seen : ∀ seen : Std.ExtTreeMap String RegionTransition,
    (⟨.call .transitions, seen⟩ : Exchange) ∈ s ↔ seen = transitions
  owned : ∀ x ∈ transitions.toList, x.2.region.table ∈ tables ↔
    (g.tables.contains x.2.region.table = true ∨
      g.isDefault = true ∧ (⟨.call (.groupOfTable x.2.region.table), none⟩ : Exchange) ∈ s)

variable {name : String} {g : Group} {transitions : Std.ExtTreeMap String RegionTransition}
variable {tables : List TableName} {s s' s'' : List Exchange}

/-- What is asked for besides does not halt a balance, and does not keep it from being halted. -/
theorem Exchange.halted_congr (hs : Extends (fun q => ¬ q.Surveys) s s') :
    Halted name s' ↔ Halted name s := by
  have hkeeps : ∀ {q : Request} (answer : q.Answer), q.Surveys →
      ((⟨q, answer⟩ : Exchange) ∈ s' ↔ (⟨q, answer⟩ : Exchange) ∈ s) :=
    fun answer hq => hs.mem_iff (not_not_intro hq)
  have howns : ∀ t, Owns name s' t ↔ Owns name s t := by
    intro t
    refine exists_congr fun g => and_congr (hkeeps (q := .call (.group name)) (some g) trivial) ?_
    exact or_congr_right (and_congr_right fun _ =>
      hkeeps (q := .call (.groupOfTable t)) none trivial)
  refine or_congr (exists_congr fun seen => ?_) (hkeeps (q := .call .recovering) true trivial)
  refine and_congr (hkeeps (q := .call .transitions) seen trivial) (exists_congr fun x => ?_)
  exact and_congr_right fun _ => howns _

/-- To ask about dead servers changes nothing else of the survey. -/
theorem Exchange.Surveyed.recovering (h : Surveyed name g transitions tables s) (b : Bool) :
    Surveyed name g transitions tables (⟨.call .recovering, b⟩ :: s) := by
  refine ⟨fun g' => ?_, fun seen => ?_, fun x hx => ?_⟩
  · rw [← h.named g']
    simp
  · rw [← h.seen seen]
    simp
  · rw [h.owned x hx]
    simp

theorem Exchange.Surveyed.halted_iff (h : Surveyed name g transitions tables s) : Halted name s ↔
    (∃ x ∈ transitions.toList, x.2.region.table ∈ tables) ∨
      (⟨.call .recovering, true⟩ : Exchange) ∈ s := by
  refine or_congr_left ?_
  constructor
  · rintro ⟨seen, ht, x, hx, g', hg, howns⟩
    obtain rfl := (h.seen _).1 ht
    obtain rfl := (h.named _).1 hg
    exact ⟨x, hx, (h.owned x hx).2 howns⟩
  · rintro ⟨x, hx, hmem⟩
    exact ⟨transitions, (h.seen _).2 rfl, x, hx, g, (h.named _).2 rfl, (h.owned x hx).1 hmem⟩

/-- The rule of a balance. -/
abbrev balancing (name : String) : Rule (List Exchange) :=
  ((Operation.balance name).brackets (.preBalance name)).rule

/-! ### What follows the survey -/

/-- Nothing is surveyed, no hook is called, and some placements are planned and others applied. -/
structure Exchange.Works (s s' : List Exchange) (plans places : List Placement) : Prop where
  later : Extends (fun q => ¬ q.Surveys ∧ q.Unheard) s s'
  plans : planned s' = planned s ++ plans
  places : placed s' = placed s ++ places

namespace Exchange.Works

variable {plans places plans' places' : List Placement}

theorem refl (s : List Exchange) : Works s s [] [] := ⟨.refl s, by simp, by simp⟩

theorem cons {q : Request} (hq : ¬ q.Surveys ∧ q.Unheard) (answer : q.Answer) (s : List Exchange) :
    Works s (⟨q, answer⟩ :: s) (plan ⟨q, answer⟩) (place ⟨q, answer⟩) :=
  ⟨.cons hq answer s, planned_cons .., placed_cons ..⟩

theorem note (n : Notice) (s : List Exchange) : Works s (⟨.note n, ()⟩ :: s) [] [] :=
  cons (q := .note n) ⟨id, trivial⟩ () s

theorem trans (h : Works s s' plans places) (h' : Works s' s'' plans' places') :
    Works s s'' (plans ++ plans') (places ++ places') :=
  ⟨h.later.trans h'.later, by rw [h'.plans, h.plans, List.append_assoc],
    by rw [h'.places, h.places, List.append_assoc]⟩

theorem hooks (h : Works s s' plans places) : hooks s' = hooks s :=
  (h.later.mono fun _ hq => hq.2).hooks

end Exchange.Works

namespace Coordinator

/-- The plans of all tables are put together. -/
theorem works_planTables : ∀ (snapshots : List (TableName × Snapshot)) {s : List Exchange},
    .preBalance name ∈ hooks s → (planTables snapshots).Ensures (balancing name)
      (fun plan s' => Works s s' plan []) s
  | [], s, _ => .refl s
  | (t, snapshot) :: rest, s, hs => by
    refine bracketing_ask hs fun answer => ?_
    have hasked : ∀ moves : Option (List Placement),
        Works s (⟨.call (.plan snapshot), moves⟩ :: s) (moves.getD []) [] := fun moves =>
      .cons (q := .call (.plan snapshot)) ⟨id, trivial⟩ moves s
    rcases (answer : Option (List Placement)) with - | moves
    · have hs₁ : .preBalance name ∈ hooks (⟨.call (.plan snapshot), none⟩ :: s) := hs
      exact (works_planTables rest hs₁).mono (bracketing _ _ _).rule_monotone fun plan s' h =>
        (hasked none).trans h
    · refine bracketing_ask trivial fun _ => ?_
      have hnoted := (hasked (some moves)).trans (.note (.tablePlanned t moves.length) _)
      have hs₁ : .preBalance name ∈ hooks (⟨.note (.tablePlanned t moves.length), ()⟩ ::
        ⟨.call (.plan snapshot), some moves⟩ :: s) := hs
      rw [ensures_bind]
      refine (works_planTables rest hs₁).mono (bracketing _ _ _).rule_monotone fun plan s' h => ?_
      have hall := hnoted.trans h
      rwa [List.append_nil] at hall

/-- Placements are applied one by one. -/
theorem works_places : ∀ (plan : List Placement) {s : List Exchange}, .preBalance name ∈ hooks s →
    (plan.forM fun p => do
      note (.balanceMove p)
      call (.place p)).Ensures (balancing name) (fun _ s' => Works s s' [] plan) s
  | [], s, _ => .refl s
  | p :: plan, s, hs => by
    have hplaced : Works s (⟨.call (.place p), ()⟩ :: ⟨.note (.balanceMove p), ()⟩ :: s) [] [p] :=
      (Works.note (.balanceMove p) s).trans (.cons (q := .call (.place p)) ⟨id, trivial⟩ () _)
    have hs₁ : .preBalance name ∈
      hooks (⟨.call (.place p), ()⟩ :: ⟨.note (.balanceMove p), ()⟩ :: s) := hs
    refine bracketing_ask trivial fun _ => bracketing_ask hs fun _ => ?_
    exact (works_places plan hs₁).mono (bracketing _ _ _).rule_monotone fun _ s' h =>
      hplaced.trans h

theorem works_applyPlan (group : String) (plan : List Placement) (hs : .preBalance name ∈ hooks s) :
    (applyPlan group plan).Ensures (balancing name)
      (fun _ s' => Works s s' [] plan) s := by
  refine bracketing_ask trivial fun _ => ?_
  have hs₁ : .preBalance name ∈ hooks (⟨.note (.balanceStarted group plan.length), ()⟩ :: s) := hs
  rw [ensures_bind]
  refine (works_places plan hs₁).mono (bracketing _ _ _).rule_monotone fun _ s' h => ?_
  refine ⟨trivial, fun _ => ?_⟩
  have hall : Works s (⟨.note (.balanceCompleted group), ()⟩ :: s') [] plan := by
    simpa using ((Works.note (.balanceStarted group plan.length) s).trans h).trans
      (.note (.balanceCompleted group) s')
  exact hall

/-- The second hook is called when all placements of all plans have been applied. -/
theorem brackets_balanceTables (assignments : Std.ExtTreeMap Region ServerAddress)
    (hs : hooks s = [.preBalance name]) (hplaced : placed s = planned s) :
    (balanceTables g name tables assignments).Ensures (balancing name)
      (fun ran s' => hooks s' = [.postBalance name ran, .preBalance name] ∧
        Extends (fun q => ¬ q.Surveys) s s') s := by
  refine bracketing_ask (mem_of_hooks hs) fun online => ?_
  have honline := Works.cons (q := .call .online) ⟨id, trivial⟩ online s
  have hs₁ : .preBalance name ∈ hooks (⟨.call .online, online⟩ :: s) := mem_of_hooks hs
  rw [ensures_bind]
  refine (works_planTables _ hs₁).mono (bracketing _ _ _).rule_monotone fun plan s₁ h => ?_
  have hplans : Works s s₁ plan [] := honline.trans h
  have hclose : ∀ {s' : List Exchange} (ran : Bool), Works s s' plan plan →
      (hook (.postBalance name ran) >>= fun _ => pure ran).Ensures (balancing name)
        (fun ran s' => hooks s' = [.postBalance name ran, .preBalance name] ∧
          Extends (fun q => ¬ q.Surveys) s s') s' := by
    intro s' ran hworks
    have hhooks := hworks.hooks.trans hs
    refine bracketing_ask (.inr ⟨hhooks, ⟨ran, rfl⟩, ?_⟩) fun _ => ⟨congrArg (_ :: ·) hhooks, ?_⟩
    · show placed s' = planned s'
      rw [hworks.places, hworks.plans, hplaced]
    · exact (hworks.later.mono fun _ hq => hq.1).trans
        (.cons (q := .call (.hook (.postBalance name ran))) id () s')
  dsimp only
  split
  · rw [ensures_bind]
    have hs₂ : .preBalance name ∈ hooks s₁ := by simp [hplans.hooks, hs]
    refine (works_applyPlan name plan hs₂).mono (bracketing _ _ _).rule_monotone fun _ s₂ h => ?_
    have hall := hplans.trans h
    rw [List.append_nil] at hall
    exact hclose _ hall
  · next hran =>
    obtain rfl : plan = [] := by simpa using hran
    exact hclose _ hplans

/-! ### The survey -/

/-- Whether a group owns a table is told from the group, or from what is answered of the table. -/
theorem brackets_owns (g : Group) (t : TableName) (hs : .preBalance name ∈ hooks s) :
    (owns g t).Ensures (balancing name) (fun owned s' => ∃ more, s' = more ++ s ∧
      (∀ x ∈ more, x.1 = .call (.groupOfTable t)) ∧
      (owned = true ↔ g.tables.contains t = true ∨
        g.isDefault = true ∧ (⟨.call (.groupOfTable t), none⟩ : Exchange) ∈ more)) s := by
  unfold owns
  split
  · next hpinned => exact ⟨[], rfl, by simp, by simp [hpinned]⟩
  · next hpinned =>
    split
    · next hdefault =>
      refine ⟨hs, fun answer => ⟨[⟨.call (.groupOfTable t), answer⟩], rfl, by simp, ?_⟩⟩
      rcases (answer : Option String) with - | owner
      · simp [hdefault]
      · simp [hpinned]
    · next hdefault => exact ⟨[], rfl, by simp, by simp [hpinned, hdefault]⟩

/-- The tables that are kept are told from the group, and from what is answered of each table. -/
theorem brackets_ownedAmong (g : Group) : ∀ {candidates : List TableName} {s : List Exchange},
    candidates.Nodup → .preBalance name ∈ hooks s →
      (ownedAmong g candidates).Ensures (balancing name) (fun kept s' =>
        ∃ more, s' = more ++ s ∧ (∀ x ∈ more, ∃ t ∈ candidates, x.1 = .call (.groupOfTable t)) ∧
        (∀ t ∈ kept, t ∈ candidates) ∧ ∀ t ∈ candidates, t ∈ kept ↔ g.tables.contains t = true ∨
          g.isDefault = true ∧ (⟨.call (.groupOfTable t), none⟩ : Exchange) ∈ more) s
  | [], s, _, _ => ⟨[], rfl, by simp, by simp, by simp⟩
  | t :: candidates, s, hnodup, hs => by
    unfold ownedAmong
    rw [ensures_bind]
    refine (brackets_owns g t hs).mono (bracketing _ _ _).rule_monotone ?_
    rintro owned _ ⟨first, rfl, hfirst, howned⟩
    have hs₁ : .preBalance name ∈ hooks (first ++ s) := by
      rw [hooks, List.filterMap_append]
      exact List.mem_append_right _ hs
    obtain ⟨hnotin, hrest⟩ := List.nodup_cons.1 hnodup
    rw [ensures_bind]
    refine (brackets_ownedAmong g hrest hs₁).mono (bracketing _ _ _).rule_monotone ?_
    rintro others _ ⟨more, rfl, hmore, hamong, hothers⟩
    -- each table is asked about once
    have hhead : (⟨.call (.groupOfTable t), none⟩ : Exchange) ∉ more := by
      intro hx
      obtain ⟨t', ht', hq⟩ := hmore _ hx
      cases hq
      exact hnotin ht'
    have htail : ∀ t' ∈ candidates, (⟨.call (.groupOfTable t'), none⟩ : Exchange) ∉ first := by
      intro t' ht' hx
      cases hfirst _ hx
      exact hnotin ht'
    refine ⟨more ++ first, (List.append_assoc ..).symm, ?_, ?_, ?_⟩
    · intro x hx
      rcases List.mem_append.1 hx with hx | hx
      · obtain ⟨t', ht', hq⟩ := hmore x hx
        exact ⟨t', List.mem_cons_of_mem _ ht', hq⟩
      · exact ⟨t, List.mem_cons_self, hfirst x hx⟩
    · intro t' ht'
      cases owned with
      | true =>
        refine (List.mem_cons.1 ht').elim (fun h => by simp [h]) fun h => ?_
        simp [hamong t' h]
      | false => exact List.mem_cons_of_mem _ (hamong t' ht')
    · intro t' ht'
      rw [List.mem_append]
      rcases List.mem_cons.1 ht' with rfl | ht'
      · rw [or_iff_right hhead, ← howned]
        cases owned with
        | true => simp
        | false => simpa using fun h => hnotin (hamong _ h)
      · rw [or_iff_left (htail t' ht'), ← hothers t' ht']
        have hne : t' ≠ t := fun h => hnotin (h ▸ ht')
        cases owned with
        | true => simp [hne]
        | false => rfl

/-- What a balance has been answered when it has found out which tables its group owns. -/
def surveyAnswers (name : String) (g : Group) (assignments : Std.ExtTreeMap Region ServerAddress)
    (transitions : Std.ExtTreeMap String RegionTransition) (more : List Exchange) : List Exchange :=
  more ++ [⟨.call .transitions, transitions⟩, ⟨.call .assignments, assignments⟩,
    ⟨.call (.group name), some g⟩, ⟨.call (.hook (.preBalance name)), ()⟩,
    ⟨.lock .placement false .operation, ()⟩]

section Answers

variable {assignments : Std.ExtTreeMap Region ServerAddress} {more : List Exchange}

theorem surveyed_answers (hmore : ∀ x ∈ more, ∃ t, x.1 = .call (.groupOfTable t))
    (hkept : ∀ x ∈ transitions.toList, x.2.region.table ∈ tables ↔
      g.tables.contains x.2.region.table = true ∨
        g.isDefault = true ∧ (⟨.call (.groupOfTable x.2.region.table), none⟩ : Exchange) ∈ more) :
    Surveyed name g transitions tables (surveyAnswers name g assignments transitions more) := by
  have hnot : ∀ {q : Request} (answer : q.Answer), (∀ t, q ≠ .call (.groupOfTable t)) →
      (⟨q, answer⟩ : Exchange) ∉ more := by
    intro q answer hq hx
    obtain ⟨t, ht⟩ := hmore _ hx
    exact hq t ht
  refine ⟨fun g' => ?_, fun seen => ?_, fun x hx => ?_⟩
  · have hgroup := hnot (q := .call (.group name)) (some g') (by simp)
    rw [surveyAnswers, List.mem_append, or_iff_right hgroup]
    simp
  · have hseen := hnot (q := .call .transitions) seen (by simp)
    rw [surveyAnswers, List.mem_append, or_iff_right hseen]
    simp
  · rw [hkept x hx, surveyAnswers, List.mem_append]
    simp

theorem hooks_answers (hmore : ∀ x ∈ more, ∃ t, x.1 = .call (.groupOfTable t)) :
    hooks (surveyAnswers name g assignments transitions more) = [.preBalance name] := by
  have hextends : Extends Request.Unheard _ (surveyAnswers name g assignments transitions more) :=
    ⟨more, rfl, fun x hx => by
      obtain ⟨t, ht⟩ := hmore x hx
      rw [ht]
      trivial⟩
  exact hextends.hooks

/-- Nothing has been planned or placed by then. -/
theorem placed_answers (hmore : ∀ x ∈ more, ∃ t, x.1 = .call (.groupOfTable t)) :
    placed (surveyAnswers name g assignments transitions more) =
      planned (surveyAnswers name g assignments transitions more) := by
  have hnone : ∀ x ∈ surveyAnswers name g assignments transitions more,
      x.place = [] ∧ x.plan = [] := by
    intro x hx
    rcases List.mem_append.1 hx with hx | hx
    · obtain ⟨t, ht⟩ := hmore x hx
      obtain ⟨q, answer⟩ := x
      obtain rfl : q = _ := ht
      exact ⟨rfl, rfl⟩
    · simp only [List.mem_cons, List.not_mem_nil, or_false] at hx
      rcases hx with rfl | rfl | rfl | rfl | rfl <;> exact ⟨rfl, rfl⟩
  rw [placed, planned, List.flatMap_eq_nil_iff.2 fun x hx => (hnone x (List.mem_reverse.1 hx)).1,
    List.flatMap_eq_nil_iff.2 fun x hx => (hnone x (List.mem_reverse.1 hx)).2]

theorem recovering_answers (hmore : ∀ x ∈ more, ∃ t, x.1 = .call (.groupOfTable t)) :
    (⟨.call .recovering, true⟩ : Exchange) ∉ surveyAnswers name g assignments transitions more := by
  intro hx
  rcases List.mem_append.1 hx with hx | hx
  · obtain ⟨t, ht⟩ := hmore _ hx
    cases ht
  · simp at hx

end Answers

/-- After the survey a balance stops, or goes on to its second hook. -/
theorem brackets_surveyed (assignments : Std.ExtTreeMap Region ServerAddress)
    (h : Surveyed name g transitions tables s) (hhooks : hooks s = [.preBalance name])
    (hplaced : placed s = planned s)
    (hrecovering : (⟨.call .recovering, true⟩ : Exchange) ∉ s) :
    (do
      let moving := transitions.toList.filter fun x => x.2.region.table ∈ tables
      if moving ≠ [] then
        note (.regionsMoving (moving.map fun x => x.2.region.encodedName))
        pure false
      else if ← call .recovering then
        note .serversRecovering
        pure false
      else balanceTables g name tables assignments : Program Bool).Ensures
      (balancing name) (fun ran s' =>
        (hooks s' = [.postBalance name ran, .preBalance name] ∧ ¬ Halted name s') ∨
          (hooks s' = [.preBalance name] ∧ ran = false ∧ Halted name s')) s := by
  dsimp only
  split
  · next hmoving =>
    refine bracketing_ask trivial fun _ => .inr ⟨hhooks, rfl, ?_⟩
    obtain ⟨x, hx⟩ := List.exists_mem_of_ne_nil _ hmoving
    rw [List.mem_filter, decide_eq_true_eq] at hx
    refine (halted_congr (.cons (q := .note _) id () s)).2 (h.halted_iff.2 (.inl ⟨x, hx⟩))
  · next hmoving =>
    have hnot : ¬ ∃ x ∈ transitions.toList, x.2.region.table ∈ tables := by
      simpa [List.filter_eq_nil_iff] using hmoving
    refine bracketing_ask (mem_of_hooks hhooks) fun recovering => ?_
    have hhalted : ∀ b : Bool, Halted name (⟨.call .recovering, b⟩ :: s) ↔ b = true := by
      intro b
      rw [(h.recovering b).halted_iff, or_iff_right hnot, List.mem_cons, or_iff_left hrecovering]
      simp [eq_comm]
    rcases Bool.eq_false_or_eq_true recovering with rfl | rfl
    · refine bracketing_ask trivial fun _ => .inr ⟨hhooks, rfl, ?_⟩
      exact (halted_congr (.cons (q := .note .serversRecovering) id () _)).2 ((hhalted true).2 rfl)
    · have hclear : hooks (⟨.call .recovering, false⟩ :: s) = [.preBalance name] := hhooks
      refine (brackets_balanceTables assignments hclear ?_).mono (bracketing _ _ _).rule_monotone
        fun ran s' hclosed => .inl ⟨hclosed.1, ?_⟩
      · rw [placed_cons, planned_cons, hplaced]
        rfl
      · rw [halted_congr hclosed.2, hhalted]
        simp

/-- A balance that is not halted calls its second hook once every placement of every plan has been
applied; one that is halted calls no second hook. -/
theorem brackets_balance (name : String) : (balance name).Ensures (balancing name)
    (fun ran s => (hooks s = [.postBalance name ran, .preBalance name] ∧ ¬ Halted name s) ∨
      (hooks s = [.preBalance name] ∧ ran = false ∧ Halted name s)) [] := by
  refine bracketing_holding (bracketing_ask (.inl ⟨rfl, rfl⟩) fun _ => ?_)
  refine bracketing_ask (by exact List.mem_cons_self) fun answer => ?_
  rcases (answer : Option Group) with - | g
  · trivial
  refine bracketing_ask (by exact List.mem_cons_self) fun assignments => ?_
  refine bracketing_ask (by exact List.mem_cons_self) fun transitions => ?_
  rw [ensures_bind]
  refine (brackets_ownedAmong g (nodup_toList _) (by exact List.mem_cons_self)).mono
    (bracketing _ _ _).rule_monotone ?_
  rintro tables _ ⟨more, rfl, hmore, -, hkept⟩
  have hinuse : ∀ x ∈ transitions.toList, x.2.region.table ∈
      (Std.ExtTreeSet.ofList (g.tables.toList ++ tablesInUse assignments transitions)).toList := by
    intro x hx
    simp only [Std.ExtTreeSet.mem_toList, Std.ExtTreeSet.mem_ofList, List.contains_eq_mem,
      decide_eq_true_eq, List.mem_append, tablesInUse, List.mem_map]
    exact .inr (.inr ⟨x, hx, rfl⟩)
  have hmore' : ∀ x ∈ more, ∃ t, x.1 = .call (.groupOfTable t) := fun x hx => by
    obtain ⟨t, -, ht⟩ := hmore x hx
    exact ⟨t, ht⟩
  have hsurveyed : Surveyed name g transitions tables
      (surveyAnswers name g assignments transitions more) :=
    surveyed_answers hmore' fun x hx => hkept _ (hinuse x hx)
  refine (brackets_surveyed assignments hsurveyed (hooks_answers hmore') (placed_answers hmore')
    (recovering_answers hmore')).mono (bracketing _ _ _).rule_monotone fun ran s' hclosed => ?_
  rw [halted_congr (.cons (q := .unlock .placement) id () s')]
  exact hclosed

end Coordinator

end ServerGroups
