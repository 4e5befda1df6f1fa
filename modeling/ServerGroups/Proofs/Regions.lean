/-
ServerGroups/Proofs/Regions.lean

What happens to one region, and what that does to the others.

Assignments and pins belong to a whole region, so whatever is done to a region
leaves those of any other one alone.  Transitions belong to an encoded name:
two regions of different tables may be namesakes, and then they share one entry
(`namesake_loses_transition`).

    does_apart          an act on one region disturbs no other one, namesakes apart
    Reaches.accounts    the coordinator takes no transition away but those of names
                        that it has asked to be unassigned

The second one is about every run: of any operations and drains, whatever
fails, waits or crashes.  So what keeps a group from being balanced stays as
long as no region is unassigned that is a namesake (`regions_apart`).

Design.  The requests to unassign are on the log of the world, so a run is told
by how the log has grown (`World.Accounts`).  One step answers at most one
request, and only that request can reach a transition.
-/
import ServerGroups.Proofs.Balance.Answers
import ServerGroups.Proofs.Exclusion.Lawful

namespace ServerGroups

namespace Cluster

variable {c c' : Cluster} {r : Region}

/-! ### Acts on one region -/

/-- What can be done to one region of a cluster. -/
inductive Act where
  | assign (region : Region) (server : ServerAddress)
  | place (placement : Placement)
  | setTransition (region : Region) (server : ServerAddress) (state : TransitionState)
  | clearTransition (region : Region)
  | unassign (region : Region)

/-- The region that an act is about. -/
def Act.region : Act → Region
  | assign r _ => r
  | place p => p.region
  | setTransition r _ _ => r
  | clearTransition r => r
  | unassign r => r

/-- An act that assigns its region, and does not reach its transition. -/
def Act.assigns : Act → Bool
  | assign .. | place _ => true
  | _ => false

/-- The cluster after an act, unless the act fails. -/
def does (c : Cluster) : Act → Except ServiceError Cluster
  | .assign r s => .ok (c.assign r s)
  | .place p => .ok (c.place p)
  | .setTransition r s state => .ok (c.setTransition r s state)
  | .clearTransition r => .ok (c.clearTransition r)
  | .unassign r => (c.unassign r).map Prod.snd

/-- A request to unassign a region does not reach another region. -/
theorem request_apart (c : Cluster) {r x : Region} (h : x ≠ r) :
    (c.request r).assignments[x]? = c.assignments[x]? ∧ (c.request r).pins[x]? = c.pins[x]? := by
  rcases c.request_eq r with ⟨n, -, heq⟩ | ⟨-, heq⟩ <;> rw [heq]
  · exact ⟨rfl, getElem?_insert_of_ne h⟩
  · exact ⟨getElem?_erase_of_ne h, rfl⟩

/-- It reaches no transition but that of the region's name. -/
theorem transitions_request_of_ne (c : Cluster) {r : Region} {name : String}
    (h : name ≠ r.encodedName) : (c.request r).transitions[name]? = c.transitions[name]? := by
  rcases c.request_eq r with ⟨n, -, heq⟩ | ⟨-, heq⟩ <;> rw [heq]
  exact getElem?_erase_of_ne h

/-- An act on one region disturbs no other one, unless it reaches the transition of a namesake. -/
theorem does_apart {act : Act} (h : c.does act = .ok c') {x : Region} (hx : x ≠ act.region) :
    c'.assignments[x]? = c.assignments[x]? ∧ c'.pins[x]? = c.pins[x]? ∧
      (act.assigns = true ∨ x.encodedName ≠ act.region.encodedName →
        c'.transitions[x.encodedName]? = c.transitions[x.encodedName]?) := by
  -- an act that may reach a transition is about a region of another name
  have hname : act.assigns = false → act.assigns = true ∨ x.encodedName ≠ act.region.encodedName →
      x.encodedName ≠ act.region.encodedName := fun hnot hor =>
    hor.resolve_left (by simp [hnot])
  cases act with
  | assign r s =>
    obtain rfl := Except.ok.inj h
    exact ⟨getElem?_insert_of_ne hx, rfl, fun _ => rfl⟩
  | place p =>
    obtain rfl := Except.ok.inj h
    exact ⟨getElem?_insert_of_ne hx, rfl, fun _ => rfl⟩
  | setTransition r s state =>
    obtain rfl := Except.ok.inj h
    exact ⟨rfl, rfl, fun hor => getElem?_insert_of_ne (hname rfl hor)⟩
  | clearTransition r =>
    obtain rfl := Except.ok.inj h
    exact ⟨rfl, rfl, fun hor => getElem?_erase_of_ne (hname rfl hor)⟩
  | unassign r =>
    obtain ⟨⟨ignored, after⟩, hun, rfl⟩ : ∃ y, c.unassign r = .ok y ∧ y.2 = c' := by
      rw [does] at h
      rcases hun : c.unassign r with e | y <;> rw [hun] at h
      · cases h
      · exact ⟨y, rfl, Except.ok.inj h⟩
    obtain rfl := unassign_eq_ok_request hun
    obtain ⟨hassignments, hpins⟩ := c.request_apart hx
    exact ⟨hassignments, hpins, fun hor => c.transitions_request_of_ne (hname rfl hor)⟩

end Cluster

/-! ### One step of the coordinator -/

/-- No call but a request to unassign a region changes any transition. -/
theorem Site.transitions_serve (site : Site) {c : Call} (hc : ∀ r, c ≠ .unassign r) :
    (site.serve c).site.cluster.transitions = site.cluster.transitions := by
  cases c with
  | unassign r => exact absurd rfl (hc r)
  | plan snapshot =>
    simp only [serve, plan]
    split <;> rfl
  | addGroup | removeGroup | moveServers | moveTables | hook =>
    simp only [serve]
    split <;> rfl
  | _ => rfl

namespace World

variable {w w' x y : World} {name : String}

/-- Since some world some regions were asked to be unassigned, and if none of them has an encoded
name, the transition under this name is what it was. -/
def Accounts (name : String) (w x : World) : Prop :=
  ∃ asked : List (Nat × Region), x.history.unassigned = w.history.unassigned ++ asked.toArray ∧
    ((∀ a ∈ asked, a.2.encodedName ≠ name) →
      x.site.cluster.transitions[name]? = w.site.cluster.transitions[name]?)

namespace Accounts

theorem of_same (hlog : x.history.unassigned = w.history.unassigned)
    (htransition : x.site.cluster.transitions[name]? = w.site.cluster.transitions[name]?) :
    w.Accounts name x :=
  ⟨[], by simpa using hlog, fun _ => htransition⟩

theorem refl (w : World) : w.Accounts name w := of_same rfl rfl

theorem trans (h : w.Accounts name x) (h' : x.Accounts name y) : w.Accounts name y := by
  obtain ⟨asked, hlog, hkept⟩ := h
  obtain ⟨asked', hlog', hkept'⟩ := h'
  refine ⟨asked ++ asked', by rw [hlog', hlog]; simp, fun hnot => ?_⟩
  have hfirst := hkept fun a ha => hnot a (List.mem_append_left _ ha)
  exact (hkept' fun a ha => hnot a (List.mem_append_right _ ha)).trans hfirst

theorem of_asks {rs : List Region} (h : w.Asks rs x) : w.Accounts name x := by
  refine ⟨rs.map fun r => (w.now, r), h.unassigned, fun hnot => ?_⟩
  rw [h.cluster]
  have hrs : ∀ r ∈ rs, name ≠ r.encodedName := fun r hr heq =>
    hnot _ (List.mem_map_of_mem hr) heq.symm
  -- the cluster varies along the induction on the requests, the transition does not
  clear hnot h
  generalize w.site.cluster = c
  induction rs generalizing c with
  | nil => rfl
  | cons r rs ih =>
    have hrest := ih (fun r hr => hrs r (List.mem_cons_of_mem _ hr)) (c.request r)
    exact hrest.trans (c.transitions_request_of_ne (hrs r List.mem_cons_self))

end Accounts

/-- The log is about calls only. -/
theorem unassigned_of_no_call {q : Request} (hq : ∀ c, q ≠ .call c) :
    (w.meet q).2.history.unassigned = w.history.unassigned := by
  cases q with
  | call c => exact absurd rfl (hq c)
  | lock lock shared holder =>
    simp only [meet]
    split <;> rfl
  | reserve servers target =>
    simp only [meet]
    split <;> rfl
  | join number =>
    simp only [meet]
    split
    · split <;> rfl
    · rfl
  | _ => rfl

/-- However a request is met, no transition goes but that of the name that it asks for. -/
theorem accounts_meet {q : Request} {reply : Reply q.Answer} (h : w.meet q = (reply, w')) :
    w.Accounts name w' := by
  by_cases hq : ∃ c, q = .call c
  · obtain ⟨c, rfl⟩ := hq
    -- a call that is not answered has changed nothing, so a fault takes no transition either
    by_cases hanswered : ∃ answer, reply = .answered answer
    · obtain ⟨answer, rfl⟩ := hanswered
      by_cases hc : ∃ r, c = .unassign r
      · obtain ⟨r, rfl⟩ := hc
        exact .of_asks (asks_of_answered h)
      · have hother : ∀ r, c ≠ .unassign r := fun r hr => hc ⟨r, hr⟩
        refine .of_same ?_ ?_
        · rw [(logs_answered h).1]
          cases c with
          | unassign r => exact absurd rfl (hother r)
          | _ => rfl
        · rw [(answered_call h).2, Site.transitions_serve _ hother]
    · exact .of_asks (same_of_not_answered h fun answer ha => hanswered ⟨answer, ha⟩)
  · have hcall : ∀ c, q ≠ .call c := fun c hc => hq ⟨c, hc⟩
    have hsite := site_of_no_call h hcall
    obtain rfl : (w.meet q).2 = w' := congrArg Prod.snd h
    exact .of_same (unassigned_of_no_call hcall) (by rw [hsite])

theorem Ends.accounts {α : Type} {rest : Program α} {ended : Progress α}
    (h : w.Ends rest ended w') : w.Accounts name w' := by
  cases h with
  | returned => exact .refl w
  | refused => exact .refl w
  | failed h => exact accounts_meet h
  | crashed h => exact accounts_meet h

end World

/-! ### Every run of the coordinator -/

variable {E : Setting} {m m' : Moment} {name : String}

/-- Outside, nobody changes the transition under a name, or asks for regions to be unassigned. -/
def Setting.SparesTransition (E : Setting) (name : String) : Prop :=
  ∀ {w w' : World}, E.outside w w' →
    w'.site.cluster.transitions[name]? = w.site.cluster.transitions[name]? ∧
      w'.history.unassigned = w.history.unassigned

/-- The end of an activity asks for nothing. -/
theorem Moment.unassigned_close (w : World) (waiting : List Activity) (a : Agent)
    (ended : Progress a.Result) :
    (close w waiting a ended).world.history.unassigned = w.history.unassigned := by
  cases a with
  | operation o =>
    cases o with
    | forgetTable t => cases ended <;> rfl
    | _ => rfl
  | pass number m =>
    cases ended with
    | returned busy => cases busy <;> rfl
    | _ => rfl
  | finish number m => cases ended <;> rfl

theorem Moment.Step.accounts (hE : E.SparesTransition name) (hs : m.Step E m') :
    m.world.Accounts name m'.world := by
  cases hs with
  | outside ho => exact .of_same (hE ho).2 (hE ho).1
  | answers h => exact World.accounts_meet h
  | @ends w w' waiting agent owed rest ended h =>
    -- the last request first, and then what is given back, which is no region
    refine h.accounts.trans (.of_same (unassigned_close ..) ?_)
    rw [site_close]
  | ticks | begins | drains | waits | resumes | drops => exact .of_same rfl rfl

/-- On every run a transition stays as long as no region of its name is asked to be unassigned. -/
theorem Moment.Reaches.accounts (hE : E.SparesTransition name) (h : Moment.Reaches E m m') :
    m.world.Accounts name m'.world := by
  induction h with
  | refl => exact .refl _
  | tail _ hs ih => exact ih.trans (hs.accounts hE)

/-! ### What a transition keeps from happening -/

/-- While a region of a group is in transition, a balance of the group asks the balancer nothing. -/
theorem World.balanceAsks_of_transition {w : World} {g : Group}
    (hg : w.site.registry.groups[g.name]? = some g) {x : RegionTransition}
    (hx : w.site.cluster.transitions[name]? = some x)
    (howns : w.site.registry.Owns g.name x.region.table) : w.balanceAsks g = [] :=
  balanceAsks_of_not_steady hg fun h => h.transitions name x hx howns

/-- The cluster is as it was, and nothing has been placed. -/
structure World.LooksOn (w x : World) : Prop where
  cluster : x.site.cluster = w.site.cluster
  placed : x.history.placed = w.history.placed

/-- A run that does not wait may stop anywhere, and nothing has been placed by then. -/
def World.lookingOn (w : World) : Terms := ⟨False, fun _ _ => False, fun _ => w.LooksOn⟩

/-- Whatever meets a fault, a balance of the group that gets the lock of placements does nothing but
look. -/
theorem World.ensures_balance_of_transition {w : World} {g : Group} (hn : w.site.registry.Named)
    (hg : w.site.registry.groups[g.name]? = some g) {x : RegionTransition}
    (hx : w.site.cluster.transitions[name]? = some x)
    (howns : w.site.registry.Owns g.name x.region.table)
    (hlock : w.locks.isFree .placement false = true) :
    (Coordinator.balance g.name).Ensures w.lookingOn.rule
      (fun ran y => ran = false ∧ w.LooksOn y) w := by
  have hlooks : ∀ {y}, (w.granted .placement).Balances [] [] y → w.LooksOn y := fun hy =>
    ⟨hy.cluster, by simpa [granted] using hy.placed⟩
  have hallows : ∀ {y}, (w.granted .placement).Balances [] [] y → w.lookingOn.Allows y := fun hy =>
    ⟨False.elim, fun _ _ _ hy' => hlooks (hy.trans_same hy')⟩
  have hfound : ∀ {v}, w.lookingOn.Found (.lock .placement false .operation) w v → v = w :=
    fun hv => hv.resolve_right And.right
  have hasks := balanceAsks_of_transition hg hx howns
  refine Terms.ensures_balance False.elim (fun _ hheld => ?_) (fun v hv => ?_) (fun v hv => ?_)
    (fun v y hv _ hy => ?_) fun v g' y hv hg' hy => ?_
  · rw [hlock] at hheld
    cases hheld
  · rwa [hfound hv]
  · obtain rfl := hfound hv
    refine ⟨hallows (Asks.refl _).balances, fun g' hg' asked plan y hasked hplan hy => ?_⟩
    obtain rfl := Option.some.inj (hg.symm.trans hg')
    rw [hasks] at hasked hplan
    obtain rfl := List.prefix_nil.1 hasked
    obtain rfl := List.prefix_nil.1 hplan
    exact hallows hy
  · obtain rfl := hfound hv
    exact hlooks hy.balances
  · obtain rfl := hfound hv
    obtain rfl := Option.some.inj (hg.symm.trans hg')
    rw [hasks] at hy ⊢
    have hy' : v.LooksOn y := hlooks hy
    exact ⟨rfl, hy'.cluster, hy'.placed⟩

/-- A balance waits before anything else if somebody has the lock of placements. -/
theorem World.run_balance_of_held {w : World} {group : String}
    (hlock : w.locks.isFree .placement false = false) :
    World.run (Coordinator.balance group) w = (.waiting (Coordinator.balance group), w) := by
  have hmeet : w.meet (.lock .placement false .operation) = (.waiting, w) := by
    simp only [meet, hlock, Bool.false_eq_true, if_false]
  show World.run (.ask (.lock .placement false .operation) _) w = _
  rw [World.run, hmeet]
  rfl

/-- While a region of a group is in transition, a balance of the group places nothing, however it
ends; and if it has to wait it has not begun. -/
theorem World.run_balance_of_transition {w y : World} {g : Group} (hn : w.site.registry.Named)
    (hg : w.site.registry.groups[g.name]? = some g) {x : RegionTransition}
    (hx : w.site.cluster.transitions[name]? = some x)
    (howns : w.site.registry.Owns g.name x.region.table) {ended : Progress Bool}
    (h : World.run (Coordinator.balance g.name) w = (ended, y)) :
    w.LooksOn y ∧ (∀ ran, ended = .returned ran → ran = false) ∧
      ∀ rest, ended = .waiting rest → rest = Coordinator.balance g.name ∧ y = w := by
  rcases hlock : w.locks.isFree .placement false with - | -
  · obtain ⟨rfl, rfl⟩ := Prod.mk.inj ((run_balance_of_held hlock).symm.trans h)
    exact ⟨⟨rfl, rfl⟩, nofun, fun rest hrest => ⟨(Progress.waiting.inj hrest).symm, rfl⟩⟩
  · have hends := Terms.run_ends (ensures_balance_of_transition hn hg hx howns hlock)
    rw [h] at hends
    cases ended with
    | returned ran =>
      obtain ⟨rfl, hlooks⟩ := hends
      exact ⟨hlooks, fun _ hran => (Progress.returned.inj hran).symm, nofun⟩
    | waiting rest =>
      obtain ⟨-, _, hwait, -⟩ := hends
      exact False.elim hwait
    | _ => exact ⟨hends, nofun, nofun⟩

/-- While a region of a group is in transition, a balance of the group answers that nothing was
placed, and nothing is. -/
theorem World.balance_of_transition {w : World} {g : Group} (hw : w.Obliging)
    (hn : w.site.registry.Named) (hg : w.site.registry.groups[g.name]? = some g)
    (hlock : w.locks.isFree .placement false = true) {x : RegionTransition}
    (hx : w.site.cluster.transitions[name]? = some x)
    (howns : w.site.registry.Owns g.name x.region.table) :
    ∃ y, w.operate (.balance g.name) = (.returned false, y) ∧
      y.site.cluster = w.site.cluster ∧ y.history.placed = w.history.placed := by
  have hplan : w.site.proposes (w.balanceAsks g) = [] := by
    rw [balanceAsks_of_transition hg hx howns]
    rfl
  obtain ⟨y, hy, hcluster, -, hplaced, -⟩ := operate_balances hw hn hg hlock hplan
  exact ⟨y, hy, by simpa using hcluster, by simpa using hplaced⟩

/-- **Regions are apart, namesakes excepted.**  Take two different regions.  To assign one of them,
to apply a placement of it, to record or clear a transition of it and to unassign it leave the
assignment and the pin of the other one as they are; so do they with the transition under the other
one's encoded name, unless it is not assigning or placing and both have one encoded name.

So on every run of the coordinator, of any operations and drains, whatever fails, waits or crashes,
a transition that nobody changes from outside stays as long as no region of the same encoded name is
asked to be unassigned.  While it is there, a balance of the group that owns the table of its region
places nothing and leaves the cluster as it is, whatever meets a fault: it answers that nothing was
placed, if it answers, and if it has to wait it has not begun.  Where no call meets a fault and
nobody has the lock of placements, it answers. -/
theorem regions_apart {E : Setting} (name : String) (hE : E.SparesTransition name) :
    (∀ (c c' : Cluster) (act : Cluster.Act), c.does act = .ok c' →
      ∀ r : Region, r ≠ act.region →
        c'.assignments[r]? = c.assignments[r]? ∧ c'.pins[r]? = c.pins[r]? ∧
          (act.assigns = true ∨ r.encodedName ≠ act.region.encodedName →
            c'.transitions[r.encodedName]? = c.transitions[r.encodedName]?)) ∧
    ∀ m m', Moment.Reaches E m m' → ∃ asked : List (Nat × Region),
      m'.world.history.unassigned = m.world.history.unassigned ++ asked.toArray ∧
      ∀ x, m.world.site.cluster.transitions[name]? = some x →
        (∀ a ∈ asked, a.2.encodedName ≠ name) →
          m'.world.site.cluster.transitions[name]? = some x ∧
          ∀ g : Group, m'.world.site.registry.Named →
            m'.world.site.registry.groups[g.name]? = some g →
            m'.world.site.registry.Owns g.name x.region.table →
              (∀ ended y, World.run (Coordinator.balance g.name) m'.world = (ended, y) →
                y.site.cluster = m'.world.site.cluster ∧
                y.history.placed = m'.world.history.placed ∧
                (∀ ran, ended = .returned ran → ran = false) ∧
                ∀ rest, ended = .waiting rest →
                  rest = Coordinator.balance g.name ∧ y = m'.world) ∧
              (m'.world.Obliging → m'.world.locks.isFree .placement false = true →
                ∃ y, m'.world.operate (.balance g.name) = (.returned false, y) ∧
                  y.site.cluster = m'.world.site.cluster ∧
                  y.history.placed = m'.world.history.placed) := by
  refine ⟨fun c c' act h r hr => Cluster.does_apart h hr, fun m m' h => ?_⟩
  obtain ⟨asked, hlog, hkept⟩ := Moment.Reaches.accounts hE h
  refine ⟨asked, hlog, fun x hx hnot => ?_⟩
  have hstays := (hkept hnot).trans hx
  refine ⟨hstays, fun g hn hg howns => ⟨fun ended y hrun => ?_, fun hw hlock =>
    World.balance_of_transition hw hn hg hlock hstays howns⟩⟩
  obtain ⟨hlooks, hends⟩ := World.run_balance_of_transition hn hg hstays howns hrun
  exact ⟨hlooks.cluster, hlooks.placed, hends⟩

/-! ### A namesake in transition -/

/-- A region of one table on the first server, and one of another table that is opening on the
second server, under some name.  The group `default` owns both tables, and the third server is in a
group of its own. -/
def World.twinned (name : String) : World :=
  (((start {} ([Change.region ⟨⟨"default", "t1"⟩, "r1"⟩ (some ⟨"rs1", 1⟩),
    Change.moving ⟨⟨"default", "t2"⟩, name⟩ ⟨"rs2", 1⟩ .opening].foldl Site.change
      (.ofServers {⟨"rs1", 1⟩, ⟨"rs2", 1⟩, ⟨"rs3", 1⟩} .absent))).operate (.addGroup "a")).2.operate
        (.moveServers {⟨"rs3", 1⟩} "a")).2

/-- The first table has been moved to the other group, and its region unassigned. -/
def World.parted (name : String) : World :=
  ((twinned name).operate (.moveTables {⟨"default", "t1"⟩} (some "a"))).2

theorem World.steady_of_isEmpty {w : World} {name : String}
    (h : w.site.cluster.transitions.isEmpty = true) (hw : w.site.cluster.recovering = false) :
    w.Steady name := by
  refine ⟨fun key x hx => ?_, hw⟩
  rw [Std.ExtTreeMap.isEmpty_iff.1 h] at hx
  simp at hx

/-- The other table's region stays in transition under a name of its own, and keeps `default` from
being balanced. -/
theorem regions_apart_twinned : ∃ y,
    (World.parted "r2").operate (.balance defaultGroup) = (.returned false, y) := by
  obtain ⟨-, hruns⟩ := regions_apart (E := .secluded) "r2" False.elim
  obtain ⟨asked, hlog, hstays⟩ := hruns _ _ (Moment.reaches_operate .secluded []
    (o := .moveTables {⟨"default", "t1"⟩} (some "a")) (w := .twinned "r2") trivial
      fun _ _ => trivial)
  have hbefore : (World.twinned "r2").history.unassigned = #[] := by decide +kernel
  have hafter : (World.parted "r2").history.unassigned =
      #[(0, ⟨⟨"default", "t1"⟩, "r1"⟩)] := by decide +kernel
  have hasked : asked = [(0, ⟨⟨"default", "t1"⟩, "r1"⟩)] := by
    refine List.toArray_inj (Eq.trans ?_ hafter)
    have hgrown : (World.twinned "r2").history.unassigned ++ asked.toArray =
        (World.parted "r2").history.unassigned := hlog.symm
    rwa [hbefore, Array.empty_append] at hgrown
  subst hasked
  obtain ⟨-, hidle⟩ := hstays ⟨⟨⟨"default", "t2"⟩, "r2"⟩, ⟨"rs2", 1⟩, .opening⟩ (by decide +kernel)
    (by simp)
  have huntracked : (World.parted "r2").site.registry.groupOfTable? ⟨"default", "t2"⟩ = none := by
    decide +kernel
  have hobserver : (World.parted "r2").site.observer = .absent := by decide +kernel
  have hobliging : (World.parted "r2").Obliging := by
    refine ⟨fun recorder h => ?_, List.isEmpty_iff.1 (by decide +kernel)⟩
    rw [hobserver] at h
    cases h
  have hnames : ∀ k ∈ (World.parted "r2").site.registry.groups.toList, k.2.name = k.1 := by
    decide +kernel
  have hnamed : (World.parted "r2").site.registry.Named := fun {k g} hg =>
    hnames (k, g) (Std.ExtTreeMap.mem_toList_iff_getElem?_eq_some.2 hg)
  obtain ⟨-, hanswers⟩ := hidle ⟨defaultGroup, {⟨"rs1", 1⟩, ⟨"rs2", 1⟩}, ∅⟩ hnamed
    (by decide +kernel) (.inr ⟨rfl, Registry.groupOfTable?_eq_none.1 huntracked⟩)
  obtain ⟨y, hy, -⟩ := hanswers hobliging (by decide +kernel)
  exact ⟨y, hy⟩

/-- Where the two regions are namesakes the one that is unassigned takes the transition of the other
one away, which has kept `default` from being balanced. -/
theorem namesake_loses_transition :
    (⟨⟨"default", "t2"⟩, "r1"⟩ : Region) ≠ ⟨⟨"default", "t1"⟩, "r1"⟩ ∧
    (∃ c, (World.twinned "r1").site.cluster.does (.unassign ⟨⟨"default", "t1"⟩, "r1"⟩) = .ok c ∧
      (World.twinned "r1").site.cluster.transitions["r1"]? =
        some ⟨⟨⟨"default", "t2"⟩, "r1"⟩, ⟨"rs2", 1⟩, .opening⟩ ∧ c.transitions["r1"]? = none) ∧
    ¬ (World.twinned "r1").Steady defaultGroup ∧ (World.parted "r1").Steady defaultGroup ∧
      ((World.twinned "r1").operate (.moveServers {⟨"rs1", 1⟩} "a")).2.Steady defaultGroup := by
  have hmoving : (World.twinned "r1").site.cluster.transitions["r1"]? =
      some ⟨⟨⟨"default", "t2"⟩, "r1"⟩, ⟨"rs2", 1⟩, .opening⟩ := by decide +kernel
  have huntracked : (World.twinned "r1").site.registry.groupOfTable? ⟨"default", "t2"⟩ = none := by
    decide +kernel
  refine ⟨by decide, ?_, fun h => ?_, ?_, ?_⟩
  · obtain ⟨ignored, hun⟩ := Cluster.unassign_of_not_failing
      (c := (World.twinned "r1").site.cluster) (by decide +kernel) ⟨⟨"default", "t1"⟩, "r1"⟩
    refine ⟨(World.twinned "r1").site.cluster.request ⟨⟨"default", "t1"⟩, "r1"⟩, ?_, hmoving,
      by decide +kernel⟩
    rw [Cluster.does, hun]
    rfl
  · exact h.transitions _ _ hmoving (.inr ⟨rfl, Registry.groupOfTable?_eq_none.1 huntracked⟩)
  · exact World.steady_of_isEmpty (by decide +kernel) (by decide +kernel)
  · exact World.steady_of_isEmpty (by decide +kernel) (by decide +kernel)

end ServerGroups
