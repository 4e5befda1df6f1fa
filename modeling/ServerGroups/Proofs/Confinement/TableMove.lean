/-
ServerGroups/Proofs/Confinement/TableMove.lean

What a move of tables owes, and that it pays.

Once the tables are pinned elsewhere, all of their regions are owed:

    after the registry has changed    every region of the tables
    after a table's regions are told  of that table, the regions listed
    after a region is unassigned      no more that region

A region that is on a server is listed, so the second step lets no region go
that is on one; and a region that no pin holds is on no server after the third,
until the pipeline assigns it at home.  At the end nothing is owed.
-/
import ServerGroups.Proofs.Confinement.Orderly

namespace ServerGroups

open Program World Coordinator

/-- What an activity owes can be unassigned at once, and is of a given kind. -/
structure View.Owing (free : TableName → Prop) (P : Region → Prop) (v : View) : Prop where
  steady : v.Steady free
  unpinned : ∀ r ∈ v.owed, free r.table
  kind : ∀ r ∈ v.owed, P r

namespace View.Owing

variable {free : TableName → Prop} {P Q : Region → Prop} {v v' : View}

theorem of_steady (h : v.Owing free P) (howed : v'.owed = v.owed) (hv' : v'.Steady free) :
    v'.Owing free P := by
  refine ⟨hv', ?_, ?_⟩
  · rw [howed]
    exact h.unpinned
  · rw [howed]
    exact h.kind

theorem settles (h : v.Owing free P) (hv : v.Settles v') : v'.Owing free P :=
  h.of_steady hv.owed (hv.steady h.steady)

theorem mono (h : v.Owing free P) (hPQ : ∀ r, P r → Q r) : v.Owing free Q :=
  ⟨h.steady, h.unpinned, fun r hr => hPQ r (h.kind r hr)⟩

/-- Who owes no region owes nothing. -/
theorem ready (h : v.Owing free fun _ => False) : v.Ready free := by
  refine View.ready_iff.2 ⟨?_, h.steady⟩
  exact Set.eq_empty_iff_forall_notMem.2 h.kind

end View.Owing

/-- A region that no pin holds is on no server after it has been unassigned. -/
theorem World.not_on_of_unassigned {free : TableName → Prop} {w w' : World} {r : Region}
    {s : ServerAddress} (hw : w.Sane free) (hw' : w'.Sane free)
    (hfree : free r.table) (hs : w'.site = (w.site.serve (.unassign r)).site)
    (ha : (w.site.serve (.unassign r)).answer = .ok ()) : ¬ w'.site.cluster.On r s := by
  simp only [Site.serve] at hs ha
  split at hs
  · next ignored cluster hun =>
    obtain ⟨hassigned, hmoving⟩ :=
      (Cluster.unassign_eq_ok hun).2.2.2.2.2 (hw.unpinned r hfree)
    have hcluster : w'.site.cluster = cluster := by rw [hs]
    rintro (hr | ⟨name, x, hx, rfl, -⟩)
    · rw [hcluster, hassigned] at hr
      cases hr
    · -- the transition of a region is kept under the region's name
      have hname := hw'.keyed name x hx
      rw [hcluster, ← hname, hmoving] at hx
      cases hx
  · next hun =>
    rw [hun] at ha
    cases ha

section Debts

variable {E : Setting} (hE : E.Pipelined) {free : TableName → Prop} {a : Agent}
variable {P : Region → Prop} {v : View}

include hE

/-! ### Paying -/

/-- A request to unassign a region pays for it. -/
theorem ensures_pay {r : Region} {post : Unit → View → Prop} (hv : v.Owing free P)
    (h : ∀ v', v'.Owing free (fun x => P x ∧ x ≠ r) → post () v') :
    (call (.unassign r)).Ensures ((confining free).rule E a) post v := by
  refine ensures_quiet hE rfl hv.steady.fine fun w _ w' hw hw' hm => h _ ?_
  have hcalm : w'.Calm free (v.others ∪ v.owed) := (hw.trans hw').calm hv.steady
  refine ⟨hcalm.mono fun x s hx hdebt => ?_, fun x hx => hv.unpinned x hx.1, fun x hx => ?_⟩
  · rcases hdebt with hothers | howed
    · exact .inl hothers
    · -- were it still on a server, it would have ignored the request
      refine .inr ⟨howed, fun heq => ?_⟩
      obtain rfl : x = r := heq
      have hsane := hw.sane hv.steady.fine.sane
      exact not_on_of_unassigned hsane hcalm.sane (hv.unpinned x howed) (answered_call hm).2
        (answered_call hm).1 hx
  · exact ⟨hv.kind x hx.1, hx.2⟩

theorem ensures_payAll : ∀ {regions : List Region} {v : View},
    v.Owing free (fun x => P x ∨ x ∈ regions) →
    (regions.forM fun r => call (.unassign r)).Ensures ((confining free).rule E a)
      (fun _ v' => v'.Owing free P) v
  | [], v, hv => hv.mono fun x hx => hx.resolve_right List.not_mem_nil
  | r :: regions, v, hv => by
    show (call (.unassign r) >>= fun _ => regions.forM fun r => call (.unassign r)).Ensures _ _ v
    rw [ensures_bind]
    refine ensures_pay hE hv fun v' hv' => ensures_payAll (hv'.mono ?_)
    rintro x ⟨hx | hx, hne⟩
    · exact .inl hx
    · exact .inr ((List.mem_cons.1 hx).resolve_left hne)

/-- Of a table whose regions are told, only what is listed is owed. -/
theorem ensures_listing {t : TableName} {post : List Region → View → Prop} (hv : v.Owing free P)
    (h : ∀ regions v', v'.Owing free (fun x => P x ∧ (x.table = t → x ∈ regions)) →
      post regions v') :
    (call (.regionsOf t)).Ensures ((confining free).rule E a) post v := by
  refine ensures_quiet hE rfl hv.steady.fine fun w regions w' hw hw' hm => h regions _ ?_
  have hcalm : w'.Calm free (v.others ∪ v.owed) := (hw.trans hw').calm hv.steady
  have hregions : w.site.cluster.regionsOf t = regions := Except.ok.inj (answered_call hm).1
  refine ⟨hcalm.mono fun x s hx hdebt => ?_, fun x hx => hv.unpinned x hx.1, fun x hx => ?_⟩
  · rcases hdebt with hothers | howed
    · exact .inl hothers
    · refine .inr ⟨howed, fun htable => ?_⟩
      have hlisted := hcalm.sane.listed x s hx
      rw [hw'.regionsOf, htable, hregions] at hlisted
      exact hlisted
  · exact ⟨hv.kind x hx.1, hx.2⟩

/-- Unassigning a table pays for all of its regions. -/
theorem ensures_unassignTable {t : TableName} {rest : List TableName}
    (hv : v.Owing free fun x => x.table ∈ t :: rest) :
    (unassignTable t).Ensures ((confining free).rule E a)
      (fun _ v' => v'.Owing free fun x => x.table ∈ rest) v := by
  unfold unassignTable
  rw [ensures_bind]
  refine ensures_settled hE rfl hv.steady.fine (fun _ => rfl) fun _ v₁ hv₁ => ?_
  have h₁ := hv.settles hv₁
  refine ensures_holding hE h₁.steady fun v₂ howed₂ hsteady₂ _ _ => ?_
  have h₂ := h₁.of_steady howed₂ hsteady₂
  rw [ensures_bind]
  refine ensures_settled_note hE h₂.steady.fine fun v₃ hv₃ => ?_
  rw [ensures_bind]
  refine ensures_listing hE (h₂.settles hv₃) fun regions v₄ h₄ => ?_
  rw [ensures_bind]
  refine ensures_settled_note hE h₄.steady.fine fun v₅ hv₅ => ?_
  -- what is still owed of this table is listed, and so among what is unassigned next
  have h₅ : v₅.Owing free fun x => x.table ∈ rest ∨ x ∈ regions := by
    refine (h₄.settles hv₅).mono ?_
    rintro x ⟨htable, hlisted⟩
    rcases List.mem_cons.1 htable with heq | hrest
    · exact .inr (hlisted heq)
    · exact .inl hrest
  refine (ensures_payAll hE h₅).mono Discipline.rule_monotone fun _ v₆ h₆ => ?_
  exact ⟨h₆.steady, fun v₇ howed₇ hsteady₇ => h₆.of_steady howed₇ hsteady₇⟩

theorem ensures_unassignTables : ∀ {tables : List TableName} {v : View},
    v.Owing free (fun x => x.table ∈ tables) →
    (tables.forM unassignTable).Ensures ((confining free).rule E a) (fun _ v' => v'.Ready free) v
  | [], v, hv => (hv.mono fun _ hx => List.not_mem_nil hx).ready
  | t :: tables, v, hv => by
    show (unassignTable t >>= fun _ => tables.forM unassignTable).Ensures _ _ v
    rw [ensures_bind]
    refine (ensures_unassignTable hE hv).mono Discipline.rule_monotone fun _ v' hv' => ?_
    exact ensures_unassignTables hv'

/-! ### Owing -/

/-- A change of the registry that moves tables makes their regions owed. -/
theorem ensures_moveTables {o : Operation} {tables : TableSet} {goal : Option String}
    {post : Unit → View → Prop} (hv : v.Alone free) (hfree : ∀ t ∈ tables, free t)
    (h : ∀ v', v'.Owing free (fun x => x.table ∈ tables) → post () v') :
    (call (.moveTables tables goal)).Ensures ((confining free).rule E (.operation o)) post v := by
  refine ensures_write hE rfl hv.ready.fine fun w _ w' hw hw' _ hserves => h _ ?_
  have hcalm := hw.calm hv.ready.calm
  have howed : ∀ r ∈ v.owed ∪ {r | r.table ∈ tables}, r.table ∈ tables := by
    rw [hv.ready.owed, Set.empty_union]
    exact fun r hr => hr
  refine ⟨?_, fun r hr => hfree _ (howed r hr), howed⟩
  refine hw'.calm hcalm (hw.idle hv.idle) (hcalm.sane.partitioned.moveTables hserves.moveTables)
    (fun r s _ hhosts => ?_) fun r hr => .inl hr
  -- a region of another table keeps its home, and one of these tables is owed
  by_cases ht : r.table ∈ tables
  · exact .inr (.inr (.inr ht))
  · exact .inl ((Registry.hosts_moveTables hserves.moveTables ht).2 hhosts)

theorem ensures_repin {o : Operation} {tables : TableSet} {goal : Option String}
    (hv : v.Alone free) (hfree : ∀ t ∈ tables, free t) :
    (repin tables goal).Ensures ((confining free).rule E (.operation o))
      (fun _ v' => v'.Owing free fun x => x.table ∈ tables) v := by
  have hrest : ∀ v₁ : View, v₁.Alone free →
      (tables.toList.forM (checkTable goal) >>= fun _ => call (.moveTables tables goal) >>=
        fun _ => note (.tablesMoved tables.size goal) >>= fun _ =>
          hook (.postMoveTables tables goal)).Ensures ((confining free).rule E (.operation o))
        (fun _ v' => v'.Owing free fun x => x.table ∈ tables) v₁ := by
    intro v₁ hv₁
    refine (looks_checking hE (Only.forM (checking_checkTable goal) _)).andThen hv₁
      fun _ v₂ hv₂ => ?_
    rw [ensures_bind]
    refine ensures_moveTables hE hv₂ hfree fun v₃ h₃ => ?_
    rw [ensures_bind]
    refine ensures_settled_note hE h₃.steady.fine fun v₄ hv₄ => ?_
    have h₄ := h₃.settles hv₄
    exact ensures_settled_hook hE h₄.steady.fine fun v₅ hv₅ => h₄.settles hv₅
  refine (looks_hook hE _).andThen hv fun _ v₁ hv₁ => ?_
  rcases goal with - | name
  · exact hrest v₁ hv₁
  · exact (looks_checking hE (checking_checkTarget name)).andThen hv₁ fun _ v₂ hv₂ => hrest v₂ hv₂

/-- A move of tables none of whose regions is pinned owes nothing when it ends. -/
theorem orderly_moveTables {tables : TableSet} (goal : Option String)
    (hfree : ∀ t ∈ tables, free t) : Orderly E free (moveTables tables goal) := by
  unfold moveTables
  split
  · exact (looks_note hE _).orderly
  intro o v hv
  rw [ensures_bind]
  refine ensures_alone hE hv fun v₁ hv₁ => ?_
  refine (ensures_repin hE hv₁ hfree).mono Discipline.rule_monotone fun _ v₂ h₂ => ?_
  refine ⟨h₂.steady, fun v₃ howed₃ hsteady₃ => ensures_unassignTables hE ?_⟩
  refine (h₂.of_steady howed₃ hsteady₃).mono fun x hx => ?_
  exact Std.ExtTreeSet.mem_toList.2 hx

end Debts

end ServerGroups
