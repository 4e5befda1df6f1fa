/-
ServerGroups/Proofs/Runs/Drain.lean

What one pass of a drain asks for, and what it makes of the world.

A pass looks at the cluster and at the tables that the target group owns.  The
regions that it finds on a server and that do not belong there are the strays
of the server (`World.strays`); the pass asks for the strays of every pending
server to be unassigned, and the servers that had any stay pending.  That is
all it does, so the world after a pass is told by `World.Swept`:

    goesOn     some server had strays, and the next pass is waited for
    settles    no server had any, and the move is finished
    fails      a call failed, and the drain ended with its error
    crashes    a call crashed, and the drain ended with it

The last two do not happen where no service fails, and then only the first few
of the strays have been asked for.
-/
import ServerGroups.Proofs.Confinement.Moves
import ServerGroups.Proofs.Runs.Requests

namespace ServerGroups

open Program

/-! ### Owned tables -/

namespace Registry

variable {r : Registry} {g : Group} {t : TableName}

/-- Whether a group owns a table, as the coordinator finds it out. -/
def ownedBy (r : Registry) (g : Group) (t : TableName) : Bool :=
  g.tables.contains t || (g.isDefault && (r.groupOfTable? t).isNone)

theorem ownedBy_iff (hg : r.groups[g.name]? = some g) : r.ownedBy g t = true ↔ r.Owns g.name t := by
  have hpins : r.Pins g.name t ↔ t ∈ g.tables := by
    constructor
    · rintro ⟨g', hg', ht⟩
      obtain rfl := Option.some.inj (hg.symm.trans hg')
      exact ht
    · exact fun ht => ⟨g, hg, ht⟩
  simp only [ownedBy, Owns, Bool.or_eq_true, Bool.and_eq_true, Std.ExtTreeSet.contains_iff_mem,
    hpins, Group.isDefault, beq_iff_eq, Option.isNone_iff_eq_none, groupOfTable?_eq_none]

end Registry

namespace Terms

open Coordinator

variable {T : Terms} {w : World} {g : Group}

theorem ensures_owns (hT : T.Allows w) (t : TableName) {post : Bool → World → Prop}
    (h : ∀ w', w.Same w' → post (w.site.registry.ownedBy g t) w') :
    (owns g t).Ensures T.rule post w := by
  unfold owns
  split
  · next ht =>
    have hown : w.site.registry.ownedBy g t = true := by simp [Registry.ownedBy, ht]
    exact hown ▸ h w (.refl w)
  · next ht =>
    rw [Bool.not_eq_true] at ht
    split
    · next hdefault =>
      rw [ensures_bind]
      refine ensures_look hT (w.site.registry.groupOfTable? t) rfl (fun _ => rfl) fun w' h' => ?_
      have hown : w.site.registry.ownedBy g t = (w.site.registry.groupOfTable? t).isNone := by
        simp [Registry.ownedBy, ht, hdefault]
      exact hown ▸ h w' h'
    · next hdefault =>
      rw [Bool.not_eq_true] at hdefault
      have hown : w.site.registry.ownedBy g t = false := by simp [Registry.ownedBy, ht, hdefault]
      exact hown ▸ h w (.refl w)

theorem ensures_ownedAmong {post : List TableName → World → Prop} :
    ∀ {tables : List TableName} {w : World}, T.Allows w →
      (∀ w', w.Same w' → post (tables.filter (w.site.registry.ownedBy g)) w') →
      (ownedAmong g tables).Ensures T.rule post w
  | [], w, _, h => h w (.refl w)
  | t :: tables, w, hT, h => by
    unfold ownedAmong
    rw [ensures_bind]
    refine ensures_owns hT t fun w₁ h₁ => ?_
    rw [ensures_bind]
    refine ensures_ownedAmong (hT.same h₁) fun w₂ h₂ => ?_
    rw [h₁.registry, ensures_pure]
    have hpost := h w₂ (h₁.trans h₂)
    rw [List.filter_cons] at hpost
    exact hpost

/-- Those of some tables that a group owns are told in table order. -/
theorem ensures_owned (hT : T.Allows w) {tables : List TableName}
    {post : List TableName → World → Prop}
    (h : ∀ w', w.Same w' →
      post ((Std.ExtTreeSet.ofList tables).toList.filter (w.site.registry.ownedBy g)) w') :
    (owned g tables).Ensures T.rule post w :=
  ensures_ownedAmong hT h

end Terms

/-! ### Strays -/

namespace World

variable {w w' : World} {target : String} {r : Region} {s : ServerAddress}

/-- The tables in use that a pass leaves alone: those that the target owns. -/
def kept (w : World) (target : String) : List TableName :=
  match w.site.registry.groups[target]? with
  | some g => (Std.ExtTreeSet.ofList (Coordinator.tablesInUse w.site.cluster.assignments
      w.site.cluster.transitions)).toList.filter (w.site.registry.ownedBy g)
  | none => []

/-- The regions on a server that a pass asks to be unassigned. -/
def strays (w : World) (target : String) (s : ServerAddress) : List Region :=
  (Coordinator.regionsOnServer w.config.metaTable s w.site.cluster.assignments
    w.site.cluster.transitions).filter fun r => r.table ∉ w.kept target

/-- The servers that a pass finds strays on. -/
def busy (w : World) (m : Move) : List ServerAddress :=
  m.pending.filter fun s => !(w.strays m.target s).isEmpty

/-- The regions that a pass asks to be unassigned, in this order. -/
def asked (w : World) (m : Move) : List Region := m.pending.flatMap (w.strays m.target)

/-- A region is on a server although the target of its move does not own the table. -/
def Astray (w : World) (target : String) (r : Region) (s : ServerAddress) : Prop :=
  w.site.cluster.On r s ∧ ¬ w.site.registry.Owns target r.table

theorem table_mem_tablesInUse (h : w.site.cluster.On r s) :
    r.table ∈ Coordinator.tablesInUse w.site.cluster.assignments w.site.cluster.transitions := by
  unfold Coordinator.tablesInUse
  rw [List.mem_append]
  rcases h with h | ⟨name, x, hx, rfl, -⟩
  · exact .inl (List.mem_map.2
      ⟨(r, s), Std.ExtTreeMap.mem_toList_iff_getElem?_eq_some.2 h, rfl⟩)
  · exact .inr (List.mem_map.2
      ⟨(name, x), Std.ExtTreeMap.mem_toList_iff_getElem?_eq_some.2 hx, rfl⟩)

/-- The strays of a server are the regions that are astray on it. -/
theorem mem_strays (hn : w.site.registry.Named) (ht : target ∈ w.site.registry.groups) :
    r ∈ w.strays target s ↔ w.Astray target r s := by
  obtain ⟨g, hg⟩ := Option.isSome_iff_exists.1 (Std.ExtTreeMap.mem_iff_isSome_getElem?.1 ht)
  have hname : g.name = target := hn hg
  unfold strays Astray
  rw [List.mem_filter, Coordinator.mem_regionsOnServer]
  refine and_congr_right fun hon => ?_
  have huse : r.table ∈ Coordinator.tablesInUse w.site.cluster.assignments
      w.site.cluster.transitions := table_mem_tablesInUse hon
  have hown := Registry.ownedBy_iff (r := w.site.registry) (g := g) (t := r.table)
    (by rw [hname]; exact hg)
  rw [hname] at hown
  have hkept : r.table ∈ w.kept target ↔ w.site.registry.Owns target r.table := by
    unfold kept
    rw [hg]
    simp [huse, hown]
  rw [decide_eq_true_iff, hkept]

theorem mem_busy (hn : w.site.registry.Named) {m : Move} (ht : m.target ∈ w.site.registry.groups) :
    s ∈ w.busy m ↔ s ∈ m.pending ∧ ∃ r, w.Astray m.target r s := by
  simp only [busy, List.mem_filter, Bool.not_eq_true', List.isEmpty_eq_false_iff_exists_mem,
    mem_strays hn ht]

theorem mem_asked (hn : w.site.registry.Named) {m : Move} (ht : m.target ∈ w.site.registry.groups) :
    r ∈ w.asked m ↔ ∃ s ∈ m.pending, w.Astray m.target r s := by
  simp only [asked, List.mem_flatMap, mem_strays hn ht]

/-- A pass that finds no strays asks for nothing. -/
theorem asked_eq_nil {m : Move} (h : w.busy m = []) : w.asked m = [] := by
  simpa [busy, asked, List.filter_eq_nil_iff] using h

end World

/-! ### Passes -/

namespace Terms

open Coordinator

variable {T : Terms} {w : World} {m : Move}

theorem ensures_drainServer {regions : List Region} {tables : List TableName} {s : ServerAddress}
    (hT : T.Bears w (regions.filter fun r => r.table ∉ tables)) {post : Bool → World → Prop}
    (h : ∀ w', w.Asks (regions.filter fun r => r.table ∉ tables) w' →
      post (!(regions.filter fun r => r.table ∉ tables).isEmpty) w') :
    (drainServer m regions tables s).Ensures T.rule post w := by
  unfold drainServer
  rw [ensures_bind]
  refine ensures_note fun w₁ h₁ => ?_
  dsimp only
  rw [ensures_bind]
  refine ensures_unassigns (hT.same h₁) fun w₂ h₂ => ?_
  have h₀₂ := h₁.same_trans h₂
  split
  · next hempty =>
    rw [ensures_bind]
    refine ensures_note fun w₃ h₃ => ?_
    have hpost := h w₃ (h₀₂.trans_same h₃)
    rw [hempty] at hpost
    exact hpost
  · next hempty =>
    have hpost := h w₂ h₀₂
    rw [Bool.not_eq_true] at hempty
    rw [hempty] at hpost
    exact hpost

theorem ensures_drainServers {regionsOn : ServerAddress → List Region} {tables : List TableName}
    {post : List ServerAddress → World → Prop} :
    ∀ {pending : List ServerAddress} {w : World},
      T.Bears w (pending.flatMap fun s => (regionsOn s).filter fun r => r.table ∉ tables) →
      (∀ w', w.Asks (pending.flatMap fun s => (regionsOn s).filter fun r => r.table ∉ tables) w' →
        post (pending.filter fun s =>
          !((regionsOn s).filter fun r => r.table ∉ tables).isEmpty) w') →
      (drainServers m regionsOn tables pending).Ensures T.rule post w
  | [], w, _, h => h w (.refl w)
  | s :: rest, w, hT, h => by
    unfold drainServers
    rw [ensures_bind]
    rw [List.flatMap_cons] at hT
    refine ensures_drainServer hT.first fun w₁ h₁ => ?_
    rw [ensures_bind]
    refine ensures_drainServers (hT.rest h₁) fun w₂ h₂ => ?_
    rw [ensures_pure]
    have hpost := h w₂ (by rw [List.flatMap_cons]; exact h₁.trans h₂)
    rw [List.filter_cons] at hpost
    exact hpost

/-- A pass asks for the strays of the pending servers, and answers those that had any. -/
theorem ensures_drainPass (hT : T.Bears w (w.asked m)) {post : List ServerAddress → World → Prop}
    (h : ∀ w', w.Asks (w.asked m) w' → post (w.busy m) w') :
    (drainPass w.config m).Ensures T.rule post w := by
  unfold drainPass
  rw [ensures_bind]
  refine ensures_look hT.allows w.site.cluster.assignments rfl (fun _ => rfl) fun w₁ h₁ => ?_
  rw [ensures_bind]
  refine ensures_look (hT.same h₁).allows w.site.cluster.transitions
    (by simp [Site.serve, h₁.cluster]) (fun _ => rfl) fun w₂ h₂ => ?_
  have h₀₂ := h₁.same_trans h₂
  rw [ensures_bind]
  refine ensures_look (hT.same h₀₂).allows w.site.registry.groups[m.target]?
    (by simp [Site.serve, h₀₂.registry, Registry.group?]) (fun _ => rfl) fun w₃ h₃ => ?_
  have h₀₃ := h₀₂.same_trans h₃
  -- whatever is kept, the rest is the loop over the pending servers
  have hdrain : ∀ w₄, w.Same w₄ →
      (drainServers m (fun s => regionsOnServer w.config.metaTable s w.site.cluster.assignments
        w.site.cluster.transitions) (w.kept m.target) m.pending).Ensures T.rule post w₄ :=
    fun w₄ h₄ => ensures_drainServers (hT.same h₄) fun w₅ h₅ => h w₅ (h₄.same_trans h₅)
  rcases hg : w.site.registry.groups[m.target]? with - | g
  · have hkept : w.kept m.target = [] := by simp [World.kept, hg]
    rw [hkept] at hdrain
    exact hdrain w₃ h₀₃
  · show Program.Ensures _ _ (owned g _ >>= _) _
    rw [ensures_bind]
    refine ensures_owned (hT.same h₀₃).allows fun w₄ h₄ => ?_
    have hkept : w.kept m.target = (Std.ExtTreeSet.ofList (tablesInUse w.site.cluster.assignments
        w.site.cluster.transitions)).toList.filter (w₃.site.registry.ownedBy g) := by
      simp [World.kept, hg, h₀₃.registry]
    rw [← hkept]
    exact hdrain w₄ (h₀₃.same_trans h₄)

theorem ensures_finishMove (hT : T.Allows w) {post : Unit → World → Prop}
    (h : ∀ w', w.Same w' → post () w') : (finishMove m).Ensures T.rule post w := by
  unfold finishMove
  rw [ensures_bind]
  refine ensures_hook hT fun w₁ h₁ => ?_
  exact ensures_note fun w₂ h₂ => h w₂ (h₁.trans_same h₂)

end Terms

/-! ### The world after a pass -/

namespace World

variable {w w' : World} {number : Nat} {m : Move}

/-- What a pass of a drain may make of the world. -/
inductive Swept (w : World) (number : Nat) (m : Move) : World → Prop
  | goesOn {x} (asks : (w.setMove number m.drain).Asks (w.asked m) x) (busy : w.busy m ≠ []) :
      Swept w number m (x.passed number m.drain (.returned (w.busy m)))
  | settles {x ending} (same : (w.setMove number m.drain.settle).Same x) (idle : w.busy m = [])
      (completed : w.Healthy → ending = .completed) :
      Swept w number m (x.endMove number m.drain.settle ending)
  | fails {rs x cause} (asks : (w.setMove number m.drain).Asks rs x) (unhealthy : ¬ w.Healthy)
      (part : rs <+: w.asked m) :
      Swept w number m (x.endMove number { m.drain with phase := .failed } (.failed cause))
  | crashes {rs x} (asks : (w.setMove number m.drain).Asks rs x) (unhealthy : ¬ w.Healthy)
      (part : rs <+: w.asked m) :
      Swept w number m (x.endMove number m.drain .crashed)

theorem setMove_setMove (w : World) (number : Nat) (m m' : Move) :
    (w.setMove number m).setMove number m' = w.setMove number m' := by
  simp [setMove, Array.setIfInBounds_setIfInBounds]

/-- Replacing a move commutes with what only asks for regions. -/
theorem Asks.setMove {rs : List Region} (h : w.Asks rs w') (number : Nat) (m : Move) :
    (w.setMove number m).Asks rs (w'.setMove number m) :=
  { h with
    poses := ⟨h.poses.snapshots, h.poses.script⟩
    moves := by simp only [World.setMove, h.moves] }

/-- A move that has no pending server is finished, if nothing fails. -/
theorem finish_eq (w : World) (number : Nat) (m : Move) : ∃ x ending,
    w.finish number m = x.endMove number m ending ∧ (w.setMove number m).Same x ∧
      ((w.setMove number m).Healthy → ending = .completed) := by
  have hensures : (Coordinator.finishMove m).Ensures
      (Terms.unlessFailing (w.setMove number m) (w.setMove number m).Same).rule
      (fun _ x => (w.setMove number m).Same x) (w.setMove number m) :=
    Terms.ensures_finishMove (Terms.allows_unlessFailing _) fun x hx => hx
  have hfinish := Terms.run_unlessFailing (Coordinator.straight_finishMove m) hensures
  unfold finish
  rcases hfinish with ⟨result, x, hrun, hx⟩ | ⟨hw, x, hx, ⟨cause, hrun⟩ | hrun⟩ <;> rw [hrun]
  · exact ⟨x, .completed, rfl, hx, fun _ => rfl⟩
  · exact ⟨x, .failed cause, rfl, hx, fun h => absurd h hw⟩
  · exact ⟨x, .crashed, rfl, hx, fun h => absurd h hw⟩

theorem swept_pass (w : World) (number : Nat) (m : Move) : w.Swept number m (w.pass number m) := by
  have hhealthy : w.Healthy → (w.setMove number m.drain).Healthy :=
    fun h => ⟨h.toReliable, h.faults⟩
  have hensures : (Coordinator.drainPass w.config m.drain).Ensures
      (Terms.unlessFailing (w.setMove number m.drain) fun x =>
        ∃ rs, rs <+: w.asked m ∧ (w.setMove number m.drain).Asks rs x).rule
      (fun busy x => busy = w.busy m ∧ (w.setMove number m.drain).Asks (w.asked m) x)
      (w.setMove number m.drain) :=
    Terms.ensures_drainPass (m := m.drain)
      (Terms.bears_unlessFailing (w.setMove number m.drain) (w.asked m)) fun x hx => ⟨rfl, hx⟩
  have hpass := Terms.run_unlessFailing (Coordinator.straight_drainPass w.config m.drain) hensures
  unfold pass
  dsimp only
  rcases hpass with ⟨busy, x, hrun, rfl, hx⟩ | ⟨hw, x, ⟨rs, hpart, hx⟩, ⟨cause, hrun⟩ | hrun⟩ <;>
    rw [hrun]
  · by_cases hidle : w.busy m = []
    · rw [hidle]
      dsimp only
      rw [asked_eq_nil hidle] at hx
      have hsettled := hx.setMove number m.drain.settle
      rw [setMove_setMove] at hsettled
      obtain ⟨y, ending, heq, hy, hending⟩ := x.finish_eq number m.drain.settle
      rw [heq]
      exact .settles (hsettled.same_trans hy) hidle fun h =>
        hending (hsettled.healthy ⟨h.toReliable, h.faults⟩)
    · have hgoesOn := Swept.goesOn hx hidle
      rcases hbusy : w.busy m with - | ⟨s, busy⟩
      · exact absurd hbusy hidle
      · rw [hbusy] at hgoesOn
        exact hgoesOn
  · exact .fails (hx.trans_same (asks_report x _)) (fun h => hw (hhealthy h)) hpart
  · exact .crashes hx (fun h => hw (hhealthy h)) hpart

namespace Swept

/-- Whatever becomes of a pass, it only asks for regions to be unassigned. -/
theorem services (h : w.Swept number m w') : w'.site.registry = w.site.registry ∧
    (∃ rs, w'.site.cluster = w.site.cluster.requests rs) ∧ (w.Healthy → w'.Healthy) := by
  have hasks : ∀ {rs m' x}, (w.setMove number m').Asks rs x →
      ∀ y : World, y.site = x.site → y.faults = x.faults →
        y.site.registry = w.site.registry ∧ (∃ rs, y.site.cluster = w.site.cluster.requests rs) ∧
          (w.Healthy → y.Healthy) := by
    intro rs m' x hx y hsite hfaults
    refine ⟨by rw [hsite, hx.registry]; rfl, ⟨rs, by rw [hsite, hx.cluster]; rfl⟩, fun hw => ?_⟩
    have hhealthy := hx.healthy ⟨hw.toReliable, hw.faults⟩
    exact ⟨by rw [hsite]; exact hhealthy.toReliable, by rw [hfaults]; exact hhealthy.faults⟩
  cases h with
  | goesOn asks => exact hasks asks _ rfl rfl
  | settles same => exact hasks same _ rfl rfl
  | fails asks => exact hasks asks _ rfl rfl
  | crashes asks => exact hasks asks _ rfl rfl

/-- A pass asks for the first few of the strays of the pending servers, and for all of them if
nothing fails. -/
theorem requests (h : w.Swept number m w') : ∃ rs, rs <+: w.asked m ∧
    (w.Healthy → rs = w.asked m) ∧ w'.site.cluster = w.site.cluster.requests rs ∧
      w'.history.unassigned = w.history.unassigned ++ (rs.map fun r => (w.now, r)).toArray := by
  cases h with
  | goesOn asks => exact ⟨w.asked m, List.prefix_rfl, fun _ => rfl, asks.cluster, asks.unassigned⟩
  | settles same idle =>
    exact ⟨[], List.nil_prefix, fun _ => (asked_eq_nil idle).symm, same.cluster, same.unassigned⟩
  | fails asks unhealthy part =>
    exact ⟨_, part, fun hw => absurd hw unhealthy, asks.cluster, asks.unassigned⟩
  | crashes asks unhealthy part =>
    exact ⟨_, part, fun hw => absurd hw unhealthy, asks.cluster, asks.unassigned⟩

/-- A pass leaves those servers pending on which it has found strays, unless it fails; then its
drain has ended. -/
theorem move (h : w.Swept number m w') (hm : w.Running number m) :
    ∃ m', w'.moves[number]? = some m' ∧ m'.target = m.target ∧
      (m'.phase = .settled → m'.pending = []) ∧ (m'.pending = w.busy m ∨
        (¬ w.Healthy ∧ m'.pending = m.pending ∧ m'.ending ≠ none)) := by
  obtain ⟨hlt, -⟩ := Array.getElem?_eq_some_iff.1 hm.1
  have hset : ∀ {rs m₁ x} (m₂ : Move), (w.setMove number m₁).Asks rs x →
      (x.setMove number m₂).moves[number]? = some m₂ := by
    intro rs m₁ x m₂ hx
    have hsize : number < x.moves.size := by
      rw [hx.moves]
      simpa [setMove] using hlt
    exact Array.getElem?_setIfInBounds_self_of_lt hsize
  cases h with
  | goesOn asks => exact ⟨_, hset _ asks, rfl, fun hphase => (by cases hphase), .inl rfl⟩
  | settles same idle => exact ⟨_, hset _ same, rfl, fun _ => rfl, .inl idle.symm⟩
  | fails asks unhealthy =>
    exact ⟨_, hset _ asks, rfl, fun hphase => (by cases hphase), .inr ⟨unhealthy, rfl, by simp⟩⟩
  | crashes asks unhealthy =>
    exact ⟨_, hset _ asks, rfl, fun hphase => (by cases hphase), .inr ⟨unhealthy, rfl, by simp⟩⟩

/-- A pass changes no other move, and if it is the last one what the drain held is given back. -/
theorem coordinator (h : w.Swept number m w') : ∃ m', w'.moves = w.moves.setIfInBounds number m' ∧
    m'.servers = m.servers ∧ m'.target = m.target ∧ w'.held = w.held ∧
    ((m'.ending = m.ending ∧ w'.locks = w.locks ∧ w'.reservations = w.reservations) ∨
      (m'.ending ≠ none ∧ w'.locks = w.locks.releaseAll (.move number) ∧
        w'.reservations = w.reservations.release m.servers)) := by
  have hset : ∀ {rs m' x} (m'' : Move), (w.setMove number m').Asks rs x →
      (x.setMove number m'').moves = w.moves.setIfInBounds number m'' := by
    intro rs m' x m'' hx
    rw [World.setMove, hx.moves]
    exact congrArg World.moves (setMove_setMove w number m' m'')
  -- a drain that ends gives back what it held, however it ends
  have hended : ∀ {rs m' x} (m'' : Move) (ending : Ending), (w.setMove number m').Asks rs x →
      (x.endMove number m'' ending).moves =
          w.moves.setIfInBounds number { m'' with ending := some ending } ∧
        (x.endMove number m'' ending).held = w.held ∧
        (x.endMove number m'' ending).locks = w.locks.releaseAll (.move number) ∧
        (x.endMove number m'' ending).reservations = w.reservations.release m''.servers := by
    intro rs m' x m'' ending hx
    refine ⟨hset _ hx, hx.held, ?_, ?_⟩
    · exact congrArg (Locks.releaseAll · _) hx.locks
    · exact congrArg (Reservations.release · _) hx.reservations
  cases h with
  | goesOn asks =>
    exact ⟨_, hset _ asks, rfl, rfl, asks.held, .inl ⟨rfl, asks.locks, asks.reservations⟩⟩
  | settles same =>
    obtain ⟨hmoves, hheld, hlocks, hreservations⟩ := hended m.drain.settle _ same
    exact ⟨_, hmoves, rfl, rfl, hheld, .inr ⟨by simp, hlocks, hreservations⟩⟩
  | fails asks =>
    obtain ⟨hmoves, hheld, hlocks, hreservations⟩ := hended { m.drain with phase := .failed } _ asks
    exact ⟨_, hmoves, rfl, rfl, hheld, .inr ⟨by simp, hlocks, hreservations⟩⟩
  | crashes asks =>
    obtain ⟨hmoves, hheld, hlocks, hreservations⟩ := hended m.drain _ asks
    exact ⟨_, hmoves, rfl, rfl, hheld, .inr ⟨by simp, hlocks, hreservations⟩⟩

end Swept

end World

end ServerGroups
