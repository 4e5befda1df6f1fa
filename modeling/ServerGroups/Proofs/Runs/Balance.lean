/-
ServerGroups/Proofs/Runs/Balance.lean

What the balance of a group comes to, where no call meets a fault.

The balance of a group looks at the cluster once and asks the balancer about
some snapshots (`World.balanceAsks`): none if a region of the group is in
transition or dead servers are being recovered, and else one for each of the
group's tables.  Then it applies what the balancer proposes for them, one after
the other.

What the balancer answers may be laid down for it, and is anything then.  If it
makes its own plans (`World.balancePlan`) every placement is at home: it is of a
region that is assigned already, of a table that the group owns, to a server of
the group.
-/
import ServerGroups.Proofs.Confinement.Balance
import ServerGroups.Proofs.Runs.Drain

namespace ServerGroups

open Program

namespace Cluster

variable {c : Cluster} {r : Region} {s : ServerAddress} {plan : List Placement}

/-- The cluster after some placements, one after the other. -/
def places (c : Cluster) (plan : List Placement) : Cluster := plan.foldl place c

@[simp] theorem places_nil (c : Cluster) : c.places [] = c := rfl

theorem places_append (c : Cluster) (plan plan' : List Placement) :
    c.places (plan ++ plan') = (c.places plan).places plan' :=
  List.foldl_append

/-- Placements change nothing but assignments. -/
theorem places_eq (c : Cluster) (plan : List Placement) :
    c.places plan = { c with assignments := (c.places plan).assignments } := by
  induction plan generalizing c with
  | nil => rfl
  | cons p plan ih => exact (ih (c.place p)).trans rfl

/-- What is assigned after some placements was assigned before, or has been placed. -/
theorem assignments_places : ∀ {plan : List Placement} {c : Cluster},
    (c.places plan).assignments[r]? = some s →
      c.assignments[r]? = some s ∨ ∃ p ∈ plan, p.region = r ∧ p.destination = s
  | [], _, h => .inl h
  | p :: plan, c, h => by
    have hrest : ((c.place p).places plan).assignments[r]? = some s := h
    rcases assignments_places hrest with hold | ⟨q, hq, hplaced⟩
    · simp only [place, Std.ExtTreeMap.getElem?_insert, Std.LawfulEqOrd.compare_eq_iff_eq] at hold
      split at hold
      · next heq => exact .inr ⟨p, List.mem_cons_self, heq, Option.some.inj hold⟩
      · exact .inl hold
    · exact .inr ⟨q, List.mem_cons_of_mem _ hq, hplaced⟩

end Cluster

namespace World

variable {w w' w'' : World} {plan plan' : List Placement} {p : Placement}
variable {asked asked' : List Snapshot}

/-! ### Applying a plan -/

/-- Nothing has happened but some placements, in the order given. -/
structure Applies (plan : List Placement) (w w' : World) : Prop extends w.Stays w' where
  cluster : w'.site.cluster = w.site.cluster.places plan
  unassigned : w'.history.unassigned = w.history.unassigned
  placed : w'.history.placed = w.history.placed ++ plan.toArray

theorem Asks.applies (h : w.Same w') : w.Applies [] w' :=
  ⟨h.toStays, h.cluster, by simpa using h.unassigned, by simpa using h.placed⟩

theorem Applies.trans (h : w.Applies plan w') (h' : w'.Applies plan' w'') :
    w.Applies (plan ++ plan') w'' where
  toStays := h.toStays.trans h'.toStays
  cluster := by rw [h'.cluster, h.cluster, Cluster.places_append]
  unassigned := h'.unassigned.trans h.unassigned
  placed := by rw [h'.placed, h.placed]; simp

/-- The balancer has been asked about some snapshots, and some placements have been applied; nothing
else has happened. -/
structure Balances (asked : List Snapshot) (plan : List Placement) (w w' : World) : Prop
    extends w.Applies plan w' where
  poses : w.Poses asked w'

theorem Asks.balances (h : w.Same w') : w.Balances [] [] w' := ⟨h.applies, h.poses⟩

theorem Balances.trans (h : w.Balances asked plan w') (h' : w'.Balances asked' plan' w'') :
    w.Balances (asked ++ asked') (plan ++ plan') w'' :=
  ⟨h.toApplies.trans h'.toApplies, h.poses.trans h'.poses⟩

theorem Balances.same_trans (h : w.Same w') (h' : w'.Balances asked plan w'') :
    w.Balances asked plan w'' :=
  h.balances.trans h'

theorem Balances.trans_same (h : w.Balances asked plan w') (h' : w'.Same w'') :
    w.Balances asked plan w'' := by
  simpa using h.trans h'.balances

theorem balances_of_placed {answer : Unit}
    (h : w.meet (.call (.place p)) = (.answered answer, w')) : w.Balances [] [p] w' := by
  have hsite := (answered_call h).2
  simp only [Site.serve] at hsite
  obtain ⟨hunassigned, hplaced⟩ := logs_answered h
  refine ⟨⟨stays_of_call h ?_ ?_ ?_ ?_, ?_, ?_, ?_⟩, poses_of_site ?_ ?_⟩
  all_goals simp [hsite, hunassigned, hplaced, remember, Cluster.places, Cluster.place]

end World

/-! ### What the balancer proposes -/

namespace Site

/-- What the balancer answers when it is asked about some snapshots, one after the other. -/
def answers : Site → List Snapshot → List (Option (List Placement))
  | _, [] => []
  | site, s :: rest => (site.plan s).answer.toOption.join :: (site.plan s).site.answers rest

/-- The placements that the balancer proposes when it is asked about some snapshots. -/
def proposes (site : Site) (asked : List Snapshot) : List Placement :=
  (site.answers asked).flatMap fun answer => answer.getD []

/-- The next answer that is laid down is given, or a plan of the balancer's own. -/
theorem plan_eq (site : Site) (s : Snapshot) :
    (site.plan s).answer = .ok (site.script.head?.getD s.plan?) ∧ (site.plan s).site =
      { site with snapshots := site.snapshots.push s, script := site.script.tail } := by
  obtain ⟨_, _, _, script, _, _⟩ := site
  cases script <;> exact ⟨rfl, rfl⟩

theorem answers_cons (site : Site) (s : Snapshot) (asked : List Snapshot) :
    site.answers (s :: asked) = site.script.head?.getD s.plan? :: answers
      { site with snapshots := site.snapshots.push s, script := site.script.tail } asked := by
  obtain ⟨hanswer, hsite⟩ := site.plan_eq s
  rw [answers, hanswer, hsite]
  rfl

theorem proposes_cons (site : Site) (s : Snapshot) (asked : List Snapshot) :
    site.proposes (s :: asked) = (site.script.head?.getD s.plan?).getD [] ++ proposes
      { site with snapshots := site.snapshots.push s, script := site.script.tail } asked := by
  rw [proposes, answers_cons, List.flatMap_cons]
  rfl

/-- Only what is laid down for the balancer makes a difference to its answers. -/
theorem answers_congr {asked : List Snapshot} : ∀ {site site' : Site},
    site.script = site'.script → site.answers asked = site'.answers asked := by
  induction asked with
  | nil => exact fun _ => rfl
  | cons s asked ih =>
    intro site site' h
    rw [answers_cons, answers_cons, h]
    exact congrArg _ (ih rfl)

theorem proposes_congr {asked : List Snapshot} {site site' : Site}
    (h : site.script = site'.script) : site.proposes asked = site'.proposes asked := by
  rw [proposes, proposes, answers_congr h]

/-- A balancer for which nothing is laid down answers with plans of its own. -/
theorem answers_of_nil {asked : List Snapshot} : ∀ {site : Site}, site.script = [] →
    site.answers asked = asked.map Snapshot.plan? := by
  induction asked with
  | nil => exact fun _ => rfl
  | cons s asked ih =>
    intro site h
    rw [answers_cons, h, ih rfl]
    rfl

/-- Whatever is laid down is answered, as long as there is enough of it. -/
theorem answers_of_length_le {asked : List Snapshot} : ∀ {site : Site},
    asked.length ≤ site.script.length → site.answers asked = site.script.take asked.length := by
  induction asked with
  | nil => exact fun _ => rfl
  | cons s asked ih =>
    intro site h
    obtain ⟨head, script, hscript⟩ := List.exists_cons_of_length_pos (Nat.zero_lt_of_lt h)
    rw [hscript] at h
    rw [answers_cons, hscript, ih (Nat.le_of_succ_le_succ h)]
    rfl

end Site

namespace World

variable {w w' : World} {g : Group} {plan : List Placement} {p : Placement}

/-- The balancer has answered a question, and answers the next ones as it would have done. -/
theorem balances_of_planned {s : Snapshot} {answer : Option (List Placement)}
    (h : w.meet (.call (.plan s)) = (.answered answer, w')) : w.Balances [s] [] w' ∧
      ∀ asked, w.site.proposes (s :: asked) = answer.getD [] ++ w'.site.proposes asked := by
  obtain ⟨hanswer, hsite⟩ := answered_call h
  simp only [Site.serve] at hanswer hsite
  obtain ⟨hanswer', hsite'⟩ := w.site.plan_eq s
  obtain rfl := Except.ok.inj (hanswer.symm.trans hanswer')
  rw [hsite'] at hsite
  obtain ⟨hunassigned, hplaced⟩ := logs_answered h
  have hscript : w.site.script = [] → w'.site.script = [] := fun hnil => by
    rw [hsite, hnil]
    rfl
  refine ⟨⟨⟨stays_of_call h ?_ ?_ hscript ?_, ?_, ?_, ?_⟩, ?_, ?_⟩,
    fun asked => by rw [Site.proposes_cons, hsite]⟩
  all_goals simp [hsite, hunassigned, hplaced, remember]

/-! ### The plan of a group -/

/-- The tables in use that a group owns, and those that it pins. -/
def balancedTables (w : World) (g : Group) : List TableName :=
  (Std.ExtTreeSet.ofList (g.tables.toList ++ Coordinator.tablesInUse w.site.cluster.assignments
    w.site.cluster.transitions)).toList.filter (w.site.registry.ownedBy g)

/-- The placements that a balance of a group applies. -/
def balancePlan (w : World) (g : Group) : List Placement :=
  if (w.site.cluster.transitions.toList.filter fun x => x.2.region.table ∈ w.balancedTables g) ≠ [] ∨
      w.site.cluster.recovering = true then []
  else (Coordinator.snapshots (g.servers ∩ w.site.cluster.online) w.site.cluster.assignments
    (w.balancedTables g)).flatMap fun x => x.2.plan?.getD []

/-- The snapshots that a balance of a group asks the balancer about. -/
def balanceAsks (w : World) (g : Group) : List Snapshot :=
  if (w.site.cluster.transitions.toList.filter fun x => x.2.region.table ∈ w.balancedTables g) ≠ [] ∨
      w.site.cluster.recovering = true then []
  else (Coordinator.snapshots (g.servers ∩ w.site.cluster.online) w.site.cluster.assignments
    (w.balancedTables g)).map Prod.snd

/-- What a balancer proposes that makes its own plans. -/
theorem proposes_balanceAsks (h : w.site.script = []) :
    w.site.proposes (w.balanceAsks g) = w.balancePlan g := by
  unfold balanceAsks balancePlan Site.proposes
  rw [Site.answers_of_nil h]
  split
  · rfl
  · rw [List.flatMap_map, List.flatMap_map]

/-- Every placement is of an assigned region of a table that the group owns, to one of its
servers. -/
theorem balancePlan_home (hg : w.site.registry.groups[g.name]? = some g)
    (hp : p ∈ w.balancePlan g) : w.site.registry.HasServer g.name p.destination ∧
      w.site.registry.Owns g.name p.region.table := by
  unfold balancePlan at hp
  split at hp
  · cases hp
  · obtain ⟨⟨t, s⟩, hs, hplan⟩ := List.mem_flatMap.1 hp
    rcases heq : s.plan? with - | moves <;> rw [heq] at hplan
    · cases hplan
    · obtain ⟨hserver, htable, -⟩ :=
        Snapshot.plan?_within (Coordinator.within_snapshots (t, s) hs) heq p hplan
      have howned := (List.mem_filter.1 htable).2
      exact ⟨⟨g, hg, (Std.ExtTreeSet.mem_inter_iff.1 hserver).1⟩,
        (Registry.ownedBy_iff hg).1 howned⟩

end World

namespace Terms

open Coordinator World

variable {T : Terms} {w x : World} {asked asked' : List Snapshot} {plan plan' : List Placement}

/-! ### Where a balance may stop -/

/-- Calls are allowed after the first few of some questions to the balancer and the first few of
some placements. -/
def Supports (T : Terms) (w : World) (asked : List Snapshot) (plan : List Placement) : Prop :=
  ∀ asked' plan' x, asked' <+: asked → plan' <+: plan → w.Balances asked' plan' x → T.Allows x

theorem Supports.allows (hT : T.Supports w asked plan) : T.Allows w :=
  hT [] [] w List.nil_prefix List.nil_prefix (Asks.refl w).balances

theorem Supports.same (hT : T.Supports w asked plan) (h : w.Same x) : T.Supports x asked plan :=
  fun _ _ _ hasked hplan hy => hT _ _ _ hasked hplan (hy.same_trans h)

theorem Supports.after (hT : T.Supports w (asked ++ asked') (plan ++ plan'))
    (h : w.Balances asked plan x) : T.Supports x asked' plan' := by
  intro first first' y hasked hplan hy
  exact hT _ _ y ((List.prefix_append_right_inj asked).2 hasked)
    ((List.prefix_append_right_inj plan).2 hplan) (h.trans hy)

theorem Supports.questions (hT : T.Supports w asked plan) : T.Supports w asked [] :=
  fun _ _ _ hasked hplan => hT _ _ _ hasked (hplan.trans List.nil_prefix)

theorem supports_of_strict (hs : T.strict) (hw : w.Obliging) : T.Supports w asked plan :=
  fun _ _ _ _ _ hx => allows_of_strict hs (hx.obliging hw)

/-! ### Programs -/

/-- The balancer is asked about each table on its own. -/
theorem ensures_planTables {post : List Placement → World → Prop} :
    ∀ {list : List (TableName × Snapshot)} {w : World}, T.Supports w (list.map Prod.snd) [] →
      (∀ x, w.Balances (list.map Prod.snd) [] x → post (w.site.proposes (list.map Prod.snd)) x) →
      (planTables list).Ensures T.rule post w
  | [], w, _, h => h w (Asks.refl w).balances
  | (t, s) :: rest, w, hT, h => by
    unfold planTables
    rw [ensures_bind]
    refine ensures_call hT.allows (fun _ => ⟨_, (w.site.plan_eq s).1⟩) fun answer w₁ hm => ?_
    obtain ⟨h₁, hproposes⟩ := balances_of_planned hm
    have hT₁ : T.Supports w₁ (rest.map Prod.snd) [] := hT.after h₁
    have hrest : ∀ x, w₁.Balances (rest.map Prod.snd) [] x →
        post (answer.getD [] ++ w₁.site.proposes (rest.map Prod.snd)) x := fun x hx => by
      rw [← hproposes]
      exact h x (h₁.trans hx)
    rcases answer with - | moves
    · exact ensures_planTables hT₁ hrest
    · show Program.Ensures _ _ (note _ >>= _) _
      rw [ensures_bind]
      refine ensures_note fun w₂ h₂ => ?_
      rw [ensures_bind]
      refine ensures_planTables (hT₁.same h₂) fun w₃ h₃ => ?_
      rw [Site.proposes_congr h₂.poses.script]
      exact hrest w₃ (h₃.same_trans h₂)

/-- The placements of a plan, one after the other. -/
theorem ensures_places {post : Unit → World → Prop} : ∀ {plan : List Placement} {w : World},
    T.Supports w [] plan → (∀ x, w.Balances [] plan x → post () x) →
      (plan.forM fun p => do note (.balanceMove p); call (.place p)).Ensures T.rule post w
  | [], w, _, h => h w (Asks.refl w).balances
  | p :: plan, w, hT, h => by
    change ((do note (.balanceMove p); call (.place p) : Program Unit) >>= fun _ =>
      plan.forM fun p => do note (.balanceMove p); call (.place p)).Ensures T.rule post w
    rw [ensures_bind, ensures_bind]
    refine ensures_note fun w₁ h₁ => ?_
    refine ensures_call (hT.same h₁).allows (fun _ => ⟨(), rfl⟩) fun answer w₂ hm => ?_
    have h₀₂ := (balances_of_placed hm).same_trans h₁
    exact ensures_places (hT.after h₀₂) fun w₃ h₃ => h w₃ (h₀₂.trans h₃)

theorem ensures_applyPlan (hT : T.Supports w [] plan) {name : String} {post : Unit → World → Prop}
    (h : ∀ x, w.Balances [] plan x → post () x) : (applyPlan name plan).Ensures T.rule post w := by
  unfold applyPlan
  rw [ensures_bind]
  refine ensures_note fun w₁ h₁ => ?_
  rw [ensures_bind]
  refine ensures_places (hT.same h₁) fun w₂ h₂ => ?_
  exact ensures_note fun w₃ h₃ => h w₃ ((h₂.same_trans h₁).trans_same h₃)

/-- What the balancer proposes for the snapshots of some tables is applied, if it is anything. -/
theorem ensures_balanceTables {g : Group} {name : String} {tables : List TableName}
    {post : Bool → World → Prop}
    (hasked : (snapshots (g.servers ∩ w.site.cluster.online) w.site.cluster.assignments
      tables).map Prod.snd = asked)
    (hT : T.Supports w asked (w.site.proposes asked))
    (h : ∀ x, w.Balances asked (w.site.proposes asked) x →
      post (!(w.site.proposes asked).isEmpty) x) :
    (balanceTables g name tables w.site.cluster.assignments).Ensures T.rule post w := by
  unfold balanceTables
  rw [ensures_bind]
  refine ensures_look hT.allows w.site.cluster.online rfl (fun _ => rfl) fun w₁ h₁ => ?_
  rw [ensures_bind]
  refine ensures_planTables (by rw [hasked]; exact (hT.same h₁).questions) fun w₂ h₂ => ?_
  have h₀₂ := h₂.same_trans h₁
  rw [hasked] at h₀₂ ⊢
  rw [Site.proposes_congr h₁.poses.script]
  dsimp only [List.drop_zero, List.length_nil]
  generalize w.site.proposes asked = plan at h hT
  have hT₂ : T.Supports w₂ [] plan := Supports.after (by simpa using hT) h₀₂
  have hend : ∀ x, w.Balances asked plan x →
      (hook (.postBalance name !plan.isEmpty) >>= fun _ => pure !plan.isEmpty :
        Program Bool).Ensures T.rule post x := by
    intro x hx
    have hTx : T.Supports x [] [] := Supports.after (by simpa using hT) hx
    rw [ensures_bind]
    refine ensures_hook hTx.allows fun y hy => ?_
    exact h y (hx.trans_same hy)
  split
  · rw [ensures_bind]
    refine ensures_applyPlan hT₂ fun w₃ h₃ => ?_
    exact hend w₃ (by simpa using h₀₂.trans h₃)
  · next hran =>
    have hempty : plan = [] := by simpa using hran
    subst hempty
    exact hend w₂ h₀₂

/-- A balance asks the balancer about the tables of its group, and applies what it proposes, from
where it has the lock of placements. -/
theorem ensures_balance {name : String} {post : Bool → World → Prop}
    (hfree : T.strict → w.locks.isFree .placement false = true)
    (hwait : ¬ T.strict → w.locks.isFree .placement false = false →
      T.waits (.lock .placement false .operation) w)
    (hn : ∀ v, T.Found (.lock .placement false .operation) w v → v.site.registry.Named)
    (hT : ∀ v, T.Found (.lock .placement false .operation) w v → T.Allows (v.granted .placement) ∧
      ∀ g, v.site.registry.groups[name]? = some g → T.Supports (v.granted .placement)
        (v.balanceAsks g) (v.site.proposes (v.balanceAsks g)))
    (hstop : ∀ v x, T.Found (.lock .placement false .operation) w v →
      v.site.registry.groups[name]? = none → (v.granted .placement).Same x →
      T.stops (some (.refused (.noSuchGroup name))) x)
    (h : ∀ v g x, T.Found (.lock .placement false .operation) w v →
      v.site.registry.groups[name]? = some g →
      (v.granted .placement).Balances (v.balanceAsks g) (v.site.proposes (v.balanceAsks g)) x →
      post (!(v.site.proposes (v.balanceAsks g)).isEmpty) (x.released .placement)) :
    (balance name).Ensures T.rule post w := by
  refine ensures_holding hfree hwait fun v hv _ => ?_
  obtain ⟨hallows, hsupports⟩ := hT v hv
  have hlook : ∀ {x}, (v.granted .placement).Same x → T.Allows x := fun hx => hallows.same hx
  rw [ensures_bind]
  refine ensures_hook (hlook (.refl _)) fun w₁ h₁ => ?_
  rw [ensures_bind]
  refine ensures_look (hlook h₁) (v.site.registry.groups[name]?)
    (by simp [Site.serve, h₁.registry, Registry.group?, granted]) (fun _ => rfl) fun w₂ h₂ => ?_
  have h₀₂ := h₁.same_trans h₂
  rcases hg : v.site.registry.groups[name]? with - | g
  · exact hstop v w₂ hv hg h₀₂
  have hname : g.name = name := hn v hv hg
  dsimp only
  rw [ensures_bind]
  refine ensures_look (hlook h₀₂) v.site.cluster.assignments
    (by simp [Site.serve, h₀₂.cluster, granted]) (fun _ => rfl) fun w₃ h₃ => ?_
  have h₀₃ := h₀₂.same_trans h₃
  rw [ensures_bind]
  refine ensures_look (hlook h₀₃) v.site.cluster.transitions
    (by simp [Site.serve, h₀₃.cluster, granted]) (fun _ => rfl) fun w₄ h₄ => ?_
  have h₀₄ := h₀₃.same_trans h₄
  rw [ensures_bind]
  refine ensures_owned (hlook h₀₄) fun w₅ h₅ => ?_
  have h₀₅ := h₀₄.same_trans h₅
  have htables : (Std.ExtTreeSet.ofList (g.tables.toList ++ tablesInUse v.site.cluster.assignments
      v.site.cluster.transitions)).toList.filter (w₄.site.registry.ownedBy g) =
        v.balancedTables g := by
    rw [h₀₄.registry]
    rfl
  rw [htables]
  -- where the balancer is not asked, nothing but looks has happened
  have hidle : ∀ x, (v.granted .placement).Same x → v.balanceAsks g = [] →
      post false (x.released .placement) := fun x hx hnone => by
    have hpost := h v g x hv hg
    rw [hnone] at hpost
    exact hpost hx.balances
  split
  · next hmoving =>
    rw [ensures_bind]
    refine ensures_note fun w₆ h₆ => hidle w₆ (h₀₅.same_trans h₆) ?_
    rw [balanceAsks, if_pos (.inl hmoving)]
  · next hmoving =>
    rw [ensures_bind]
    refine ensures_look (hlook h₀₅) v.site.cluster.recovering
      (by simp [Site.serve, h₀₅.cluster, granted]) (fun _ => rfl) fun w₆ h₆ => ?_
    have h₀₆ := h₀₅.same_trans h₆
    split
    · next hrecovering =>
      rw [ensures_bind]
      refine ensures_note fun w₇ h₇ => hidle w₇ (h₀₆.same_trans h₇) ?_
      rw [balanceAsks, if_pos (.inr hrecovering)]
    · next hrecovering =>
      have hcluster : w₆.site.cluster = v.site.cluster := h₀₆.cluster
      have hscript : w₆.site.script = v.site.script := h₀₆.poses.script
      have hasked : (snapshots (g.servers ∩ w₆.site.cluster.online) w₆.site.cluster.assignments
          (v.balancedTables g)).map Prod.snd = v.balanceAsks g := by
        rw [hcluster, balanceAsks, if_neg (not_or.2 ⟨hmoving, hrecovering⟩)]
      have hsupports₆ := (hsupports g hg).same h₀₆
      rw [← Site.proposes_congr hscript] at hsupports₆
      rw [← hcluster]
      refine ensures_balanceTables hasked hsupports₆ fun x hx => ?_
      rw [Site.proposes_congr hscript] at hx ⊢
      exact h v g x hv hg (hx.same_trans h₀₆)

/-- Where no call meets a fault and the lock of placements is free, a balance is answered
throughout. -/
theorem ensures_balance_strict (hs : T.strict) (hw : w.Obliging) {name : String}
    (hn : w.site.registry.Named) (hlock : w.locks.isFree .placement false = true)
    (hstop : ∀ x, w.site.registry.groups[name]? = none → (w.granted .placement).Same x →
      T.stops (some (.refused (.noSuchGroup name))) x)
    {post : Bool → World → Prop}
    (h : ∀ g x, w.site.registry.groups[name]? = some g →
      (w.granted .placement).Balances (w.balanceAsks g) (w.site.proposes (w.balanceAsks g)) x →
      post (!(w.site.proposes (w.balanceAsks g)).isEmpty) (x.released .placement)) :
    (balance name).Ensures T.rule post w := by
  have hgranted := hw.granted .placement
  apply ensures_balance (fun _ => hlock) (fun hnot => absurd hs hnot)
  · intro v hv
    obtain rfl := hv.eq hs
    exact hn
  · intro v hv
    obtain rfl := hv.eq hs
    exact ⟨allows_of_strict hs hgranted, fun _ _ => supports_of_strict hs hgranted⟩
  · intro v x hv
    obtain rfl := hv.eq hs
    exact hstop x
  · intro v g x hv
    obtain rfl := hv.eq hs
    exact h g x

end Terms

end ServerGroups
