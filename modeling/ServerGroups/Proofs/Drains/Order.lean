/-
ServerGroups/Proofs/Drains/Order.lean

In which order a pass asks for regions, and where the catalog comes.

The regions of the catalog table are to leave last in every pass, since
unassigning other regions may still write to the catalog.  A pass goes through
its pending servers one after the other, and sorts the regions of each of them:

    server   rs1                rs2
    asked    t1/r1, meta/r0     t1/r2

So the catalog comes last on every server, but not in the pass: what is astray
on a later server is asked for after the catalog regions of an earlier one.  A
pass has the catalog last exactly if no server with a region of the catalog
astray comes before one with a region of another table astray
(`World.CatalogBehind`).

Design.  A pass that fails has asked for the first few of the same regions, so
the order is told for any pass, and only the converse needs the services.
-/
import ServerGroups.Proofs.Drains.Settled

namespace ServerGroups

variable {catalog : TableName} {rs rs' : List Region}

/-! ### The catalog last -/

/-- No region of another table comes after one of the catalog. -/
def CatalogLast (catalog : TableName) (rs : List Region) : Prop :=
  rs.Pairwise fun r r' => r.table = catalog → r'.table = catalog

theorem CatalogLast.sublist (h : CatalogLast catalog rs) (hsub : rs'.Sublist rs) :
    CatalogLast catalog rs' :=
  List.Pairwise.sublist hsub h

theorem catalogLast_append : CatalogLast catalog (rs ++ rs') ↔
    CatalogLast catalog rs ∧ CatalogLast catalog rs' ∧
      ∀ r ∈ rs, ∀ r' ∈ rs', r.table = catalog → r'.table = catalog :=
  List.pairwise_append

/-- On one server the regions of the catalog come last. -/
theorem Coordinator.catalogLast_regionsOnServer (catalog : TableName) (s : ServerAddress)
    (assignments : Std.ExtTreeMap Region ServerAddress)
    (transitions : Std.ExtTreeMap String RegionTransition) :
    CatalogLast catalog (regionsOnServer catalog s assignments transitions) := by
  unfold regionsOnServer
  refine catalogLast_append.2 ⟨?_, ?_, fun r hr r' _ htable => ?_⟩
  · refine List.pairwise_of_forall_mem_list fun r hr r' _ htable => ?_
    simp [htable] at hr
  · refine List.pairwise_of_forall_mem_list fun r _ r' hr' _ => ?_
    simpa using (List.mem_filter.1 hr').2
  · simp [htable] at hr

namespace World

variable {w : World} {number : Nat} {m : Move}

theorem catalogLast_strays (w : World) (target : String) (s : ServerAddress) :
    CatalogLast w.config.metaTable (w.strays target s) :=
  (Coordinator.catalogLast_regionsOnServer _ s _ _).sublist List.filter_sublist

/-- No pending server on which a region of the catalog is astray comes before one on which a region
of another table is. -/
def CatalogBehind (w : World) (m : Move) : Prop :=
  m.pending.Pairwise fun s s' => ∀ r, w.Astray m.target r s → ∀ r', w.Astray m.target r' s' →
    r.table = w.config.metaTable → r'.table = w.config.metaTable

/-- What a whole pass asks for has the catalog last if the order of the servers allows it. -/
theorem catalogLast_asked_iff (hn : w.site.registry.Named)
    (ht : m.target ∈ w.site.registry.groups) :
    CatalogLast w.config.metaTable (w.asked m) ↔ w.CatalogBehind m := by
  have hservers : CatalogLast w.config.metaTable (w.asked m) ↔
      (∀ s ∈ m.pending, CatalogLast w.config.metaTable (w.strays m.target s)) ∧
        m.pending.Pairwise fun s s' => ∀ r ∈ w.strays m.target s, ∀ r' ∈ w.strays m.target s',
          r.table = w.config.metaTable → r'.table = w.config.metaTable :=
    List.pairwise_flatMap
  -- on each server the order is right, so only the order of the servers counts
  rw [hservers, and_iff_right fun s _ => w.catalogLast_strays m.target s]
  simp only [mem_strays hn ht, CatalogBehind]

/-- **The catalog comes last on every server, and in a pass only if the order of its servers allows
it.**  A pass asks for the first few of the strays of its pending servers, one server after the
other, and for all of them if nothing fails.  The strays of each server have the catalog last.  The
whole pass has it last if no pending server with a region of the catalog astray comes before one
with a region of another table astray, and, if nothing fails, only then. -/
theorem pass_catalogLast_iff (hn : w.site.registry.Named)
    (ht : m.target ∈ w.site.registry.groups) (number : Nat) :
    ∃ rs : List Region, (w.pass number m).history.unassigned =
        w.history.unassigned ++ (rs.map fun r => (w.now, r)).toArray ∧
      rs <+: m.pending.flatMap (w.strays m.target) ∧
      (∀ s, CatalogLast w.config.metaTable (w.strays m.target s)) ∧
      (w.CatalogBehind m → CatalogLast w.config.metaTable rs) ∧
      (w.Healthy → rs = m.pending.flatMap (w.strays m.target) ∧
        (CatalogLast w.config.metaTable rs → w.CatalogBehind m)) := by
  obtain ⟨rs, hpart, hall, -, hlog⟩ := (w.swept_pass number m).requests
  refine ⟨rs, hlog, hpart, w.catalogLast_strays m.target, fun hbehind => ?_, fun hw => ?_⟩
  · exact ((catalogLast_asked_iff hn ht).2 hbehind).sublist hpart.sublist
  · refine ⟨hall hw, fun hlast => ?_⟩
    rw [hall hw] at hlast
    exact (catalogLast_asked_iff hn ht).1 hlast

/-! ### A region of the catalog on the first of two servers -/

/-- Three servers in the group `default` and a group without members; on the first server are a
region of a table and one of the catalog, on the second another region of the table. -/
def cataloged : World :=
  (staffed.changed (.region ⟨⟨"system", "meta"⟩, "r0"⟩ (some ⟨"rs1", 1⟩))).changed
    (.region ⟨⟨"default", "t1"⟩, "r2"⟩ (some ⟨"rs2", 1⟩))

/-- The first server has been moved to the new group. -/
def vacating : World := (cataloged.operate (.startMove {⟨"rs1", 1⟩} "a")).2

/-- The first two servers have been moved to the new group. -/
def evacuating : World := (cataloged.operate (.startMove {⟨"rs1", 1⟩, ⟨"rs2", 1⟩} "a")).2

theorem operate_cataloged : cataloged.operate (.startMove {⟨"rs1", 1⟩} "a") =
    (.returned (some 0), vacating) := by
  rfl

theorem named_vacating : vacating.site.registry.Named :=
  named_of_startMove (w := cataloged) partitioned_staffed.named operate_cataloged

/-- If only the first server moves, then the pass asks for its region of the catalog last. -/
theorem pass_catalogLast_iff_vacating : ∃ (m : Move) (rs : List Region),
    vacating.moves[0]? = some m ∧
      (vacating.pass 0 m).history.unassigned = (rs.map fun r => (0, r)).toArray ∧
      (⟨⟨"system", "meta"⟩, "r0"⟩ : Region) ∈ rs ∧ (⟨⟨"default", "t1"⟩, "r1"⟩ : Region) ∈ rs ∧
      CatalogLast ⟨"system", "meta"⟩ rs := by
  let m := Move.start cataloged.config {⟨"rs1", 1⟩} "default" "a" cataloged.now
  have hm : vacating.moves[0]? = some m := by rfl
  have ht : m.target ∈ vacating.site.registry.groups := by decide +kernel
  have hw : vacating.Healthy := ⟨⟨by rfl, fun _ h => (by cases h), by rfl⟩, by rfl⟩
  have hbehind : vacating.CatalogBehind m := by
    have hone : m.pending = [⟨"rs1", 1⟩] := by decide +kernel
    unfold CatalogBehind
    rw [hone]
    exact List.pairwise_singleton _ _
  obtain ⟨rs, hlog, -, -, hlast, hall⟩ := pass_catalogLast_iff named_vacating ht 0
  obtain ⟨hrs, -⟩ := hall hw
  have hempty : vacating.history.unassigned = #[] := by rfl
  have hnow : vacating.now = 0 := by rfl
  rw [hempty, Array.empty_append, hnow] at hlog
  refine ⟨m, rs, hm, hlog, ?_, ?_, hlast hbehind⟩ <;> rw [hrs] <;> decide +kernel

/-- If both servers move, then the first pass asks for the region of the catalog before it asks for
the one on the second server. -/
theorem catalog_not_last :
    cataloged.operate (.startMove {⟨"rs1", 1⟩, ⟨"rs2", 1⟩} "a") = (.returned (some 0), evacuating) ∧
      (evacuating.nextPass (some 0)).history.unassigned =
        #[(0, ⟨⟨"default", "t1"⟩, "r1"⟩), (0, ⟨⟨"system", "meta"⟩, "r0"⟩),
          (0, ⟨⟨"default", "t1"⟩, "r2"⟩)] ∧
      ¬ CatalogLast evacuating.config.metaTable [⟨⟨"default", "t1"⟩, "r1"⟩,
        ⟨⟨"system", "meta"⟩, "r0"⟩, ⟨⟨"default", "t1"⟩, "r2"⟩] := by
  refine ⟨by rfl, by decide +kernel, fun h => ?_⟩
  have hmeta : evacuating.config.metaTable = ⟨"system", "meta"⟩ := by rfl
  rw [hmeta, CatalogLast] at h
  revert h
  decide

end World

end ServerGroups
