/-
ServerGroups/Proofs/Reservations.lean

What is reserved is what the guards that are still kept have reserved.

A `Desk` keeps reservations and guards.  Reservations are made and given back
at it in any order, by the functions that the coordinator runs.  Beside it a
`Ledger` says what should be there: under each label the servers and the
target of the guard that is still kept.  It never looks at the reservations.

    desk     reserve    guards, reservations    drop
    ledger   enter      label ↦ servers, target    strike

`d.Accounts l` is the invariant that ties the two together.  No two guards
keep the same server, which is why a guard that is dropped, and which gives
servers back by their addresses alone, gives back nobody else's.

Servers are entered one by one, and given back if one of them turns out to be
reserved already; `enter_eq` says that this is the same as looking first.
-/
import ServerGroups.Guards
import ServerGroups.Proofs.Exclusion

namespace ServerGroups

namespace Reservations

variable {r r' : Reservations} {servers : ServerSet} {s : ServerAddress} {target goal : String}
variable {cause : Refusal}

/-! ### Entering servers one by one -/

/-- Enters servers one by one until one of them is reserved already; then those that were entered
are given back. -/
def enter (target : String) (entered : List ServerAddress) :
    List ServerAddress → Reservations → Except Refusal (List ServerAddress) × Reservations
  | [], r => (.ok entered, r)
  | s :: rest, r =>
    match r.target? s with
    | some goal => (.error (.alreadyMoving s goal), ⟨entered.foldl (fun m s => m.erase s) r.targets⟩)
    | .none => enter target (entered ++ [s]) rest ⟨r.targets.insert s target⟩

/-- Servers that were not reserved are entered and given back. -/
theorem erase_entered {entered : List ServerAddress} {m : Std.ExtTreeMap ServerAddress String}
    (hfree : ∀ s ∈ entered, m[s]? = .none) :
    entered.foldl (fun m s => m.erase s) (entered.foldl (fun m s => m.insert s target) m) = m := by
  apply Std.ExtTreeMap.ext_getElem?
  intro s
  rw [getElem?_foldl_erase]
  split
  · next hs => rw [hfree s hs]
  · next hs => rw [getElem?_foldl_insert_of_notMem hs]

/-- Some servers have been entered, and the others are entered now: either all of them are, or the
first that is reserved already is named and everything is as it was. -/
theorem enter_entered : ∀ (rest entered : List ServerAddress), (entered ++ rest).Nodup →
    (∀ s ∈ entered, r.target? s = .none) →
    enter target entered rest ⟨entered.foldl (fun m s => m.insert s target) r.targets⟩ =
      match rest.findSome? fun s => (r.target? s).map (Refusal.alreadyMoving s) with
      | some cause => (.error cause, r)
      | .none => (.ok (entered ++ rest),
          ⟨(entered ++ rest).foldl (fun m s => m.insert s target) r.targets⟩) := by
  intro rest
  induction rest with
  | nil =>
    intro entered _ _
    simp [enter]
  | cons s rest ih =>
    intro entered hnodup hfree
    have hs : s ∉ entered := by
      intro hmem
      exact (List.nodup_append.1 hnodup).2.2 s hmem s List.mem_cons_self rfl
    -- what has been entered so far says nothing of `s`
    have hlook : (⟨entered.foldl (fun m s => m.insert s target) r.targets⟩ : Reservations).target? s =
        r.target? s := getElem?_foldl_insert_of_notMem hs
    rw [enter, hlook, List.findSome?_cons]
    rcases hr : r.target? s with - | goal
    · have hnext := ih (entered ++ [s]) (by simpa using hnodup) ?_
      · simpa using hnext
      · intro s' hs'
        rcases List.mem_append.1 hs' with hold | hnew
        · exact hfree s' hold
        · rw [List.mem_singleton.1 hnew, hr]
    · simp [erase_entered hfree]

/-- **To enter servers one by one is to look first.**  All are entered if none of them is reserved,
and else nothing is left of the attempt. -/
theorem enter_eq (r : Reservations) (servers : ServerSet) (target : String) :
    enter target [] servers.toList r =
      match r.reserve servers target with
      | .ok r' => (.ok servers.toList, r')
      | .error cause => (.error cause, r) := by
  have hnodup : ([] ++ servers.toList).Nodup := nodup_toList servers
  have h : enter target [] servers.toList r = _ :=
    enter_entered servers.toList [] hnodup fun s hs => absurd hs List.not_mem_nil
  refine h.trans ?_
  unfold reserve conflict?
  rcases servers.toList.findSome? fun s => (r.target? s).map (Refusal.alreadyMoving s) with
    - | cause <;> rfl

/-! ### Looking -/

theorem contains_iff : r.contains s = true ↔ ∃ goal, r.target? s = some goal := by
  rw [contains, Std.ExtTreeMap.contains_eq_isSome_getElem?, Option.isSome_iff_exists]
  rfl

theorem contains_eq_false : r.contains s = false ↔ r.target? s = .none := by
  rw [contains, Std.ExtTreeMap.contains_eq_isSome_getElem?, Option.isSome_eq_false_iff,
    Option.isNone_iff_eq_none]
  rfl

/-- A reservation is made exactly if nobody has one of its servers. -/
theorem reserve_ok_iff :
    (∃ r', r.reserve servers target = .ok r') ↔ ∀ s ∈ servers, r.contains s = false := by
  simp only [contains_eq_false, ← conflict?_eq_none]
  unfold reserve
  rcases r.conflict? servers with - | cause <;> simp

/-- The refusal names the smallest of the servers that are reserved, and where it is moving. -/
theorem smallest_of_reserve (h : r.reserve servers target = .error cause) :
    ∃ s ∈ servers, ∃ goal, r.target? s = some goal ∧ cause = .alreadyMoving s goal ∧
      ∀ s' ∈ servers, r.contains s' = true → (compare s s').isLE := by
  obtain ⟨smaller, s, larger, hlist, hcause, hsmaller⟩ :=
    List.findSome?_eq_some_iff.1 (reserve_eq_error.1 h)
  obtain ⟨goal, hgoal, rfl⟩ := Option.map_eq_some_iff.1 hcause
  have hmem : ∀ s' : ServerAddress, s' ∈ servers ↔ s' ∈ smaller ++ s :: larger := by
    intro s'
    rw [← hlist, Std.ExtTreeSet.mem_toList]
  refine ⟨s, (hmem s).2 (by simp), goal, hgoal, rfl, ?_⟩
  intro s' hs' hcontains
  obtain ⟨goal', hgoal'⟩ := contains_iff.1 hcontains
  rcases List.mem_append.1 ((hmem s').1 hs') with hbefore | hafter
  · -- nothing that comes before is reserved
    have hnone := hsmaller s' hbefore
    rw [hgoal'] at hnone
    cases hnone
  · rcases List.mem_cons.1 hafter with rfl | hafter
    · simp
    · have hordered := Std.ExtTreeSet.ordered_toList (t := servers)
      rw [hlist] at hordered
      have hlt := List.rel_of_pairwise_cons (List.pairwise_append.1 hordered).2.1 hafter
      simp [hlt]

end Reservations

/-! ### The desk and the ledger -/

/-- A reservation is made under a label, or what the label keeps is given back. -/
inductive Deed where
  | reserve (label : String) (servers : ServerSet) (target : String)
  | drop (label : String)

/-- Reservations, and the guards that keep them. -/
structure Desk where
  guards : Guards
  reservations : Reservations

/-- What should be kept under each label: the servers, and the target that they are reserved for. -/
abbrev Ledger := Std.ExtTreeMap String (ServerSet × String)

namespace Desk

/-- Does what is asked; a reservation that is refused changes nothing. -/
def take (d : Desk) : Deed → Desk
  | .reserve label servers target =>
    match d.guards.reserve d.reservations label servers target with
    | .ok (guards, reservations) => ⟨guards, reservations⟩
    | .error _ => d
  | .drop label =>
    let (_, guards, reservations) := d.guards.drop d.reservations label
    ⟨guards, reservations⟩

/-- Takes deeds in turn, with nothing reserved at first. -/
def run (deeds : List Deed) : Desk := deeds.foldl take ⟨.none, .none⟩

variable {d : Desk} {label : String} {servers : ServerSet} {target : String} {reserved : Reservations}
variable {cause : Refusal}

theorem take_drop (d : Desk) (label : String) : d.take (.drop label) =
    ⟨⟨d.guards.kept.erase label⟩, d.reservations.release (d.guards.kept[label]?.getD ∅)⟩ := by
  have hdrop := d.guards.drop_eq d.reservations label
  simp only [take]
  rcases hd : d.guards.drop d.reservations label with ⟨found, guards, reservations⟩
  rw [hd] at hdrop
  obtain ⟨rfl, rfl⟩ := Prod.mk.inj hdrop
  rfl

theorem take_of_error (h : d.reservations.reserve servers target = .error cause) :
    d.take (.reserve label servers target) = d := by
  simp only [take, Guards.reserve, h]

theorem take_of_ok (h : d.reservations.reserve servers target = .ok reserved) :
    d.take (.reserve label servers target) =
      ⟨⟨(d.guards.kept.erase label).insert label servers⟩,
        reserved.release (d.guards.kept[label]?.getD ∅)⟩ := by
  have hdrop := d.guards.drop_eq reserved label
  simp only [take, Guards.reserve, h]
  rcases hd : d.guards.drop reserved label with ⟨found, guards, reservations⟩
  rw [hd] at hdrop
  obtain ⟨rfl, rfl⟩ := Prod.mk.inj hdrop
  rfl

end Desk

namespace Ledger

/-- Whether a server is kept under some label. -/
def keeps (l : Ledger) (s : ServerAddress) : Bool := l.toList.any fun entry => s ∈ entry.2.1

/-- Writes a deed down; a reservation of a server that is kept is not made. -/
def write (l : Ledger) : Deed → Ledger
  | .reserve label servers target =>
    if servers.toList.any l.keeps then l else l.insert label (servers, target)
  | .drop label => l.erase label

/-- Writes deeds down in turn, with nothing kept at first. -/
def run (deeds : List Deed) : Ledger := deeds.foldl write ∅

variable {l : Ledger} {label label' : String} {servers : ServerSet} {target : String}
variable {s : ServerAddress}

theorem keeps_iff : l.keeps s = true ↔
    ∃ (label : String) (servers : ServerSet) (target : String),
      l[label]? = some (servers, target) ∧ s ∈ servers := by
  simp only [keeps, List.any_eq_true, decide_eq_true_eq]
  constructor
  · rintro ⟨⟨label, servers, target⟩, hmem, hs⟩
    exact ⟨label, servers, target, Std.ExtTreeMap.mem_toList_iff_getElem?_eq_some.1 hmem, hs⟩
  · rintro ⟨label, servers, target, hl, hs⟩
    exact ⟨⟨label, servers, target⟩, Std.ExtTreeMap.mem_toList_iff_getElem?_eq_some.2 hl, hs⟩

end Ledger

/-- The guards are those of the ledger, no two of them keep the same server, and what is reserved
is what one of them keeps, for its target. -/
structure Desk.Accounts (d : Desk) (l : Ledger) : Prop where
  kept : ∀ label : String, d.guards.kept[label]? = l[label]?.map Prod.fst
  apart : ∀ {label label' : String} {entry entry' : ServerSet × String} {s : ServerAddress},
    l[label]? = some entry → l[label']? = some entry' → s ∈ entry.1 → s ∈ entry'.1 → label = label'
  entries : ∀ (s : ServerAddress) (goal : String), d.reservations.target? s = some goal ↔
    ∃ (label : String) (servers : ServerSet), l[label]? = some (servers, goal) ∧ s ∈ servers

namespace Desk.Accounts

variable {d : Desk} {l : Ledger} {r : Reservations} {label : String} {servers : ServerSet}
variable {s : ServerAddress} {target : String}

theorem none : (⟨.none, .none⟩ : Desk).Accounts ∅ where
  kept label := by
    show (∅ : Std.ExtTreeMap String ServerSet)[label]? = _
    simp
  apart h := by simp at h
  entries s goal := by
    show (∅ : Std.ExtTreeMap ServerAddress String)[s]? = some goal ↔ _
    simp

/-- What a guard keeps is reserved. -/
theorem keeps_eq (h : d.Accounts l) (s : ServerAddress) : l.keeps s = d.reservations.contains s := by
  rw [Bool.eq_iff_iff, Ledger.keeps_iff, Reservations.contains_iff]
  simp only [h.entries]
  constructor
  · rintro ⟨label, servers, target, hl, hs⟩
    exact ⟨target, label, servers, hl, hs⟩
  · rintro ⟨target, label, servers, hl, hs⟩
    exact ⟨label, servers, target, hl, hs⟩

/-! ### One deed -/

/-- A guard that is dropped gives its servers back, and nobody else's. -/
theorem erase (h : d.Accounts l) (label : String) :
    (⟨⟨d.guards.kept.erase label⟩, d.reservations.release (d.guards.kept[label]?.getD ∅)⟩ :
      Desk).Accounts (l.erase label) where
  kept label' := by
    simp only [Std.ExtTreeMap.getElem?_erase, h.kept]
    split <;> rfl
  apart hl hl' := by
    simp only [Std.ExtTreeMap.getElem?_erase] at hl hl'
    split at hl
    · cases hl
    split at hl'
    · cases hl'
    exact h.apart hl hl'
  entries s goal := by
    rw [Reservations.target?_release, h.kept]
    simp only [Std.ExtTreeMap.getElem?_erase]
    constructor
    · intro htarget
      split at htarget
      · cases htarget
      next hnot =>
      obtain ⟨label', servers, hl, hs⟩ := (h.entries s goal).1 htarget
      refine ⟨label', servers, ?_, hs⟩
      rw [if_neg, hl]
      intro heq
      obtain rfl := Std.LawfulEqOrd.eq_of_compare heq
      exact hnot (by simpa [hl] using hs)
    · rintro ⟨label', servers, hl, hs⟩
      split at hl
      · cases hl
      next hne =>
      rw [if_neg, h.entries]
      · exact ⟨label', servers, hl, hs⟩
      · -- the server would be kept under both labels
        intro hmem
        rcases hlabel : l[label]? with - | entry
        · rw [hlabel] at hmem
          exact absurd hmem Std.ExtTreeSet.not_mem_empty
        · rw [hlabel] at hmem
          obtain rfl := h.apart hlabel hl hmem hs
          exact hne Std.ReflCmp.compare_self

/-- Servers that nobody has are reserved under a label that keeps nothing. -/
theorem insert (h : d.Accounts l) (hlabel : l[label]? = .none)
    (hfree : ∀ s ∈ servers, d.reservations.target? s = .none)
    (hr : ∀ s, r.target? s = if s ∈ servers then some target else d.reservations.target? s) :
    (⟨⟨d.guards.kept.insert label servers⟩, r⟩ : Desk).Accounts
      (l.insert label (servers, target)) where
  kept label' := by
    simp only [Std.ExtTreeMap.getElem?_insert, h.kept]
    split <;> rfl
  apart {label₁ label₂ entry₁ entry₂ s} hl₁ hl₂ hs₁ hs₂ := by
    have hfresh : ∀ {label' : String} {entry : ServerSet × String}, l[label']? = some entry →
        s ∈ servers → s ∉ entry.1 := by
      intro label' entry hl hs hmem
      have hnone := hfree s hs
      rw [(h.entries s entry.2).2 ⟨label', entry.1, hl, hmem⟩] at hnone
      cases hnone
    rw [Std.ExtTreeMap.getElem?_insert] at hl₁ hl₂
    split at hl₁ <;> split at hl₂
    · next heq₁ heq₂ =>
      rw [← Std.LawfulEqOrd.eq_of_compare heq₁, ← Std.LawfulEqOrd.eq_of_compare heq₂]
    · obtain rfl := Option.some.inj hl₁
      exact absurd hs₂ (hfresh hl₂ hs₁)
    · obtain rfl := Option.some.inj hl₂
      exact absurd hs₁ (hfresh hl₁ hs₂)
    · exact h.apart hl₁ hl₂ hs₁ hs₂
  entries s goal := by
    rw [hr]
    simp only [Std.ExtTreeMap.getElem?_insert]
    constructor
    · intro htarget
      split at htarget
      · next hs => exact ⟨label, servers, by simpa using htarget, hs⟩
      · obtain ⟨label', servers', hl, hs⟩ := (h.entries s goal).1 htarget
        refine ⟨label', servers', ?_, hs⟩
        rw [if_neg, hl]
        intro heq
        obtain rfl := Std.LawfulEqOrd.eq_of_compare heq
        cases hlabel.symm.trans hl
    · rintro ⟨label', servers', hl, hs⟩
      split at hl
      · obtain ⟨rfl, rfl⟩ := Prod.mk.inj (Option.some.inj hl)
        rw [if_pos hs]
      · have htarget := (h.entries s goal).2 ⟨label', servers', hl, hs⟩
        split
        · next hnew => cases (hfree s hnew).symm.trans htarget
        · exact htarget

/-- The ledger refuses what the desk refuses. -/
theorem refuses_iff (h : d.Accounts l) (servers : ServerSet) :
    servers.toList.any l.keeps = false ↔ d.reservations.conflict? servers = .none := by
  rw [Reservations.conflict?_eq_none, List.any_eq_false]
  simp only [Std.ExtTreeSet.mem_toList, h.keeps_eq, Bool.not_eq_true,
    Reservations.contains_eq_false]

/-- Every deed is accounted for. -/
theorem take (h : d.Accounts l) (deed : Deed) : (d.take deed).Accounts (l.write deed) := by
  cases deed with
  | drop label =>
    rw [Desk.take_drop]
    exact h.erase label
  | reserve label servers target =>
    simp only [Ledger.write]
    rcases hr : d.reservations.reserve servers target with cause | reserved
    · rw [Desk.take_of_error hr, if_pos]
      · exact h
      · rw [← Bool.not_eq_false, h.refuses_iff, Reservations.reserve_eq_error.1 hr]
        simp
    · have hfree := Reservations.conflict?_of_reserve hr
      rw [Desk.take_of_ok hr, if_neg]
      · -- the label gives back what it kept, which is none of the new servers
        have hsame : l.insert label (servers, target) =
            (l.erase label).insert label (servers, target) := by
          apply Std.ExtTreeMap.ext_getElem?
          intro label'
          simp only [Std.ExtTreeMap.getElem?_insert, Std.ExtTreeMap.getElem?_erase]
          split <;> rfl
        rw [hsame]
        apply (h.erase label).insert
        · simp
        · intro s hs
          rw [Reservations.target?_release, Reservations.conflict?_eq_none.1 hfree s hs]
          simp
        · intro s
          rw [Reservations.target?_release, Reservations.target?_release]
          rcases Reservations.target?_of_reserve hr s with ⟨hs, hnone, htarget⟩ | ⟨hs, hkept⟩
          · -- a server that the label kept would have been reserved, and the deed refused
            rw [if_pos hs, if_neg, htarget]
            intro hmem
            obtain ⟨servers', hl, hmem⟩ := Guards.exists_kept hmem
            obtain ⟨⟨_, goal⟩, hentry, rfl⟩ := Option.map_eq_some_iff.1 ((h.kept label).symm.trans hl)
            rw [(h.entries s goal).2 ⟨label, _, hentry, hmem⟩] at hnone
            cases hnone
          · rw [if_neg hs, hkept]
      · rw [Bool.not_eq_true, h.refuses_iff, hfree]

/-! ### Counting -/

/-- As many servers are reserved as the guards keep, all together. -/
theorem size_eq (h : d.Accounts l) :
    d.reservations.size = (l.toList.map fun entry => entry.2.1.size).sum := by
  have hkeys : d.reservations.targets.keys.Perm (l.toList.flatMap fun entry => entry.2.1.toList) := by
    apply (List.perm_ext_iff_of_nodup Std.ExtTreeMap.nodup_keys _).2
    · intro s
      rw [Std.ExtTreeMap.mem_keys, ← Std.ExtTreeMap.contains_iff_mem,
        show d.reservations.targets.contains s = d.reservations.contains s from rfl, ← h.keeps_eq]
      simp [Ledger.keeps]
    · rw [List.nodup_flatMap]
      refine ⟨fun entry _ => nodup_toList entry.2.1, ?_⟩
      apply Std.ExtTreeMap.distinct_keys_toList.imp_of_mem
      intro x y hx hy hne s hsx hsy
      rw [Std.ExtTreeSet.mem_toList] at hsx hsy
      -- no two guards keep the same server, so the servers of the guards are listed once
      have hsame : x.1 = y.1 := h.apart (Std.ExtTreeMap.mem_toList_iff_getElem?_eq_some.1 hx)
        (Std.ExtTreeMap.mem_toList_iff_getElem?_eq_some.1 hy) hsx hsy
      exact hne (hsame ▸ Std.ReflCmp.compare_self)
  have hlength := hkeys.length_eq
  rw [Std.ExtTreeMap.length_keys, List.length_flatMap] at hlength
  simpa [Reservations.size] using hlength

end Desk.Accounts

/-- Whatever is reserved and given back, the desk is accounted for in the ledger. -/
theorem Desk.accounts (deeds : List Deed) : (Desk.run deeds).Accounts (Ledger.run deeds) := by
  have hrun : ∀ (deeds : List Deed) (d : Desk) (l : Ledger), d.Accounts l →
      (deeds.foldl Desk.take d).Accounts (deeds.foldl Ledger.write l) := by
    intro deeds
    induction deeds with
    | nil => exact fun d l h => h
    | cons deed deeds ih => exact fun d l h => ih _ _ (h.take deed)
  exact hrun deeds _ _ Accounts.none

/-! ### What the desk tells, and what it does next -/

/-- What the reservations tell of a server, and of how many there are, is what the guards keep. -/
structure Desk.Reports (d : Desk) (l : Ledger) : Prop where
  contains : ∀ s, d.reservations.contains s = l.keeps s
  targets : ∀ s, (d.reservations.target? s).isSome = l.keeps s
  size : d.reservations.size = (l.toList.map fun entry => entry.2.1.size).sum
  empty : d.reservations.isEmpty = true ↔ ∀ s, l.keeps s = false

/-- A reservation is made exactly if none of the servers is reserved.  It then adds the servers and
nothing else; and if it is refused, the smallest server that is reserved is named with its target,
and although servers were entered one by one, nothing is left of them. -/
structure Reservations.Decides (r : Reservations) (servers : ServerSet) (target : String) :
    Prop where
  made_iff : (∃ r', r.reserve servers target = .ok r') ↔ ∀ s ∈ servers, r.contains s = false
  made : ∀ r', r.reserve servers target = .ok r' →
    enter target [] servers.toList r = (.ok servers.toList, r') ∧
      ∀ s, r'.target? s = if s ∈ servers then some target else r.target? s
  refused : ∀ cause, r.reserve servers target = .error cause →
    enter target [] servers.toList r = (.error cause, r) ∧
      ∃ s ∈ servers, ∃ goal, r.target? s = some goal ∧ cause = .alreadyMoving s goal ∧
        ∀ s' ∈ servers, r.contains s' = true → (compare s s').isLE

theorem Reservations.decides (r : Reservations) (servers : ServerSet) (target : String) :
    r.Decides servers target where
  made_iff := reserve_ok_iff
  made r' h := by
    refine ⟨by rw [enter_eq, h], ?_⟩
    intro s
    rcases target?_of_reserve h s with ⟨hs, -, htarget⟩ | ⟨hs, hkept⟩
    · rw [if_pos hs, htarget]
    · rw [if_neg hs, hkept]
  refused cause h := ⟨by rw [enter_eq, h], smallest_of_reserve h⟩

/-- A guard that is dropped has its servers reserved for its target; what is reserved afterwards is
what was and it did not keep, and the other guards are as before. -/
structure Desk.GivesBack (d : Desk) (l : Ledger) (label : String) : Prop where
  own : ∀ servers target, l[label]? = some (servers, target) →
    ∀ s ∈ servers, d.reservations.target? s = some target
  entries : ∀ s goal, (d.take (.drop label)).reservations.target? s = some goal ↔
    d.reservations.target? s = some goal ∧ ∀ entry, l[label]? = some entry → s ∉ entry.1
  others : ∀ label' : String, (d.take (.drop label)).guards.kept[label']? =
    if label = label' then none else d.guards.kept[label']?

namespace Desk.Accounts

variable {d : Desk} {l : Ledger}

theorem reports (h : d.Accounts l) : d.Reports l where
  contains s := (h.keeps_eq s).symm
  targets s := by
    rw [h.keeps_eq, Reservations.contains, Std.ExtTreeMap.contains_eq_isSome_getElem?]
    rfl
  size := h.size_eq
  empty := by
    have hnone : d.reservations.isEmpty = true ↔ ∀ s, d.reservations.contains s = false := by
      rw [Reservations.isEmpty, Std.ExtTreeMap.isEmpty_iff,
        Std.ExtTreeMap.eq_empty_iff_forall_contains]
      rfl
    simp only [hnone, h.keeps_eq]

theorem givesBack (h : d.Accounts l) (label : String) : d.GivesBack l label where
  own servers target hl s hs := (h.entries s target).2 ⟨label, servers, hl, hs⟩
  entries s goal := by
    rw [Desk.take_drop, Reservations.target?_release, h.kept]
    constructor
    · intro htarget
      split at htarget
      · cases htarget
      next hnot =>
      refine ⟨htarget, fun entry hl hs => ?_⟩
      exact hnot (by simpa [hl] using hs)
    · rintro ⟨htarget, hnot⟩
      rw [if_neg, htarget]
      intro hs
      rcases hl : l[label]? with - | entry <;> rw [hl] at hs
      · exact Std.ExtTreeSet.not_mem_empty hs
      · exact hnot entry hl hs
  others label' := by
    rw [Desk.take_drop]
    simp [Std.ExtTreeMap.getElem?_erase]

end Desk.Accounts

/-- **What is reserved is exactly what live guards keep.**  Whatever reservations are made and
guards dropped, in whatever order: the servers that are reserved are those that the guards of the
ledger keep, each for the target of its guard, and no server has two guards; membership, number and
emptiness agree with this.  The next reservation is made exactly if none of its servers is reserved,
and else it changes nothing and names the smallest one that is; the next guard that is dropped takes
its own entries away and nothing else. -/
theorem Desk.reserved_exactly_kept (deeds : List Deed) :
    (run deeds).Accounts (Ledger.run deeds) ∧ (run deeds).Reports (Ledger.run deeds) ∧
      (∀ servers target, (run deeds).reservations.Decides servers target) ∧
      ∀ label, (run deeds).GivesBack (Ledger.run deeds) label := by
  have haccounts := accounts deeds
  refine ⟨haccounts, haccounts.reports, ?_, ?_⟩
  · intro servers target
    exact (run deeds).reservations.decides servers target
  · intro label
    exact haccounts.givesBack label

/-- A second guard finds a server taken and leaves nothing behind; once the first one is dropped, it
can have all of them. -/
example :
    let first := Deed.reserve "first" {⟨"rs2", 1⟩} "b"
    let second := Deed.reserve "second" {⟨"rs1", 1⟩, ⟨"rs2", 1⟩} "c"
    (Desk.run [first, second]).reservations.toList = [(⟨"rs2", 1⟩, "b")] ∧
      (Desk.run [first, second, .drop "first", second]).reservations.toList =
        [(⟨"rs1", 1⟩, "c"), (⟨"rs2", 1⟩, "c")] := by
  decide +kernel

end ServerGroups
