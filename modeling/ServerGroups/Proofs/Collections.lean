/-
ServerGroups/Proofs/Collections.lean

Lists, sets and maps: what the proofs need beyond the library.
-/
import Mathlib.Tactic
import ServerGroups.TableName

namespace ServerGroups

variable {α β : Type}

/-- What a fold picks out of a list is in the list. -/
theorem foldl_pick_mem (p : α → α → Prop) [DecidableRel p] : ∀ (l : List α) (first : α),
    l.foldl (fun best x => if p best x then x else best) first ∈ first :: l
  | [], first => List.mem_cons_self
  | x :: l, first => by
    rw [List.foldl_cons]
    split
    · exact List.mem_cons_of_mem _ (foldl_pick_mem p l x)
    · rcases List.mem_cons.1 (foldl_pick_mem p l first) with heq | hl
      · rw [heq]
        exact List.mem_cons_self
      · exact List.mem_cons_of_mem _ (List.mem_cons_of_mem _ hl)

/-- Nothing in a list comes before what a fold picks out of it. -/
theorem foldl_pick_max (p : α → α → Prop) [DecidableRel p] (hasymm : ∀ x y, p x y → ¬ p y x)
    (htrans : ∀ x y z, ¬ p x y → ¬ p y z → ¬ p x z) : ∀ (l : List α) (first : α),
    ∀ x ∈ first :: l, ¬ p (l.foldl (fun best x => if p best x then x else best) first) x
  | [], first, x, hx => by
    rw [List.mem_singleton.1 hx]
    exact fun h => hasymm _ _ h h
  | y :: l, first, x, hx => by
    have hrest := foldl_pick_max p hasymm htrans l
    rw [List.foldl_cons]
    split
    · next hy =>
      rcases List.mem_cons.1 hx with rfl | hx
      · exact htrans _ y _ (hrest y y List.mem_cons_self) (hasymm _ _ hy)
      · exact hrest y x hx
    · next hy =>
      have hfirst := hrest first first List.mem_cons_self
      rcases List.mem_cons.1 hx with rfl | hx
      · exact hfirst
      · rcases List.mem_cons.1 hx with rfl | hx
        · exact htrans _ first _ hfirst hy
        · exact hrest first x (List.mem_cons_of_mem _ hx)

section Ordered

variable [Ord α] [Std.TransOrd α]

theorem not_mem_of_size_eq_zero {a : Std.ExtTreeSet α} (h : a.size = 0) (x : α) : x ∉ a := by
  rw [Std.ExtTreeSet.eq_empty_iff_size_eq_zero.2 h]
  exact Std.ExtTreeSet.not_mem_empty

variable [Std.LawfulEqOrd α]

theorem nodup_toList (a : Std.ExtTreeSet α) : a.toList.Nodup := by
  refine Std.ExtTreeSet.distinct_toList.imp ?_
  rintro x _ hne rfl
  exact hne Std.ReflCmp.compare_self

theorem subperm_of_subset {a b : Std.ExtTreeSet α} (h : ∀ x ∈ a, x ∈ b) :
    a.toList.Subperm b.toList := by
  refine List.subperm_of_subset (nodup_toList a) fun x hx => ?_
  rw [Std.ExtTreeSet.mem_toList] at hx ⊢
  exact h x hx

/-- A part of a set is no larger. -/
theorem size_le_of_subset {a b : Std.ExtTreeSet α} (h : ∀ x ∈ a, x ∈ b) : a.size ≤ b.size := by
  rw [← Std.ExtTreeSet.length_toList, ← Std.ExtTreeSet.length_toList]
  exact (subperm_of_subset h).length_le

/-- A part of a set that is no smaller is all of it. -/
theorem eq_of_subset_of_size_le {a b : Std.ExtTreeSet α} (h : ∀ x ∈ a, x ∈ b)
    (hsize : b.size ≤ a.size) : a = b := by
  have hperm : a.toList.Perm b.toList := by
    refine (subperm_of_subset h).perm_of_length_le ?_
    rwa [Std.ExtTreeSet.length_toList, Std.ExtTreeSet.length_toList]
  refine Std.ExtTreeSet.ext_mem fun x => ?_
  rw [← Std.ExtTreeSet.mem_toList, ← Std.ExtTreeSet.mem_toList]
  exact hperm.mem_iff

theorem exists_mem_of_size_ne_zero {a : Std.ExtTreeSet α} (h : a.size ≠ 0) : ∃ x, x ∈ a := by
  rw [← Std.ExtTreeSet.length_toList, Ne, List.length_eq_zero_iff] at h
  obtain ⟨x, hx⟩ := List.exists_mem_of_ne_nil _ h
  exact ⟨x, Std.ExtTreeSet.mem_toList.1 hx⟩

theorem mem_singleton_iff {x y : α} : x ∈ ({y} : Std.ExtTreeSet α) ↔ x = y := by
  rw [Std.ExtTreeSet.singleton_eq_insert, Std.ExtTreeSet.mem_insert,
    Std.LawfulEqOrd.compare_eq_iff_eq, eq_comm]
  simp

theorem size_singleton_ne_zero (x : α) : ({x} : Std.ExtTreeSet α).size ≠ 0 := fun h =>
  not_mem_of_size_eq_zero h x (mem_singleton_iff.2 rfl)

theorem toList_singleton (x : α) : ({x} : Std.ExtTreeSet α).toList = [x] := by
  refine List.perm_singleton.1 ((List.perm_ext_iff_of_nodup (nodup_toList _)
    (List.nodup_singleton x)).2 fun y => ?_)
  rw [Std.ExtTreeSet.mem_toList, mem_singleton_iff, List.mem_singleton]

/-- A table of the values of a function on a set holds these values, and no others. -/
theorem getElem?_ofList_map [DecidableEq α] {a : Std.ExtTreeSet α} {f : α → β} {x : α} {y : β}
    (h : (Std.ExtTreeMap.ofList (a.toList.map fun x => (x, f x)))[x]? = some y) :
    x ∈ a ∧ y = f x := by
  have hx : x ∈ Std.ExtTreeMap.ofList (a.toList.map fun x => (x, f x)) :=
    Std.ExtTreeMap.mem_iff_isSome_getElem?.2 (by rw [h]; rfl)
  rw [Std.ExtTreeMap.mem_ofList, List.map_map, List.contains_iff_mem] at hx
  have hmem : x ∈ a.toList := by simpa [Function.comp_def] using hx
  have hdistinct : (a.toList.map fun x => (x, f x)).Pairwise
      fun p q => ¬ compare p.1 q.1 = .eq := by
    rw [List.pairwise_map]
    exact Std.ExtTreeSet.distinct_toList
  have hvalue := Std.ExtTreeMap.getElem?_ofList_of_mem (@Std.ReflCmp.compare_self _ compare _ x)
    hdistinct (List.mem_map.2 ⟨x, hmem, rfl⟩)
  rw [hvalue] at h
  exact ⟨Std.ExtTreeSet.mem_toList.1 hmem, (Option.some.inj h).symm⟩

/-- A value inserted under another key makes no difference. -/
theorem getElem?_insert_of_ne {m : Std.ExtTreeMap α β} {x z : α} {y : β} (h : x ≠ z) :
    (m.insert z y)[x]? = m[x]? := by
  rw [Std.ExtTreeMap.getElem?_insert, if_neg fun heq => h (Std.LawfulEqOrd.eq_of_compare heq).symm]

/-- Nor does another key that is erased. -/
theorem getElem?_erase_of_ne {m : Std.ExtTreeMap α β} {x z : α} (h : x ≠ z) :
    (m.erase z)[x]? = m[x]? := by
  rw [Std.ExtTreeMap.getElem?_erase, if_neg fun heq => h (Std.LawfulEqOrd.eq_of_compare heq).symm]

/-- A value inserted under some keys is found there. -/
theorem getElem?_foldl_insert (y : β) : ∀ (l : List α) (m : Std.ExtTreeMap α β) (x : α), x ∈ l →
    (l.foldl (fun m x => m.insert x y) m)[x]? = some y := by
  have hkeep : ∀ (l : List α) (m : Std.ExtTreeMap α β) (x : α), m[x]? = some y →
      (l.foldl (fun m x => m.insert x y) m)[x]? = some y := by
    intro l
    induction l with
    | nil => exact fun m x h => h
    | cons z l ih =>
      intro m x h
      refine ih _ x ?_
      rw [Std.ExtTreeMap.getElem?_insert]
      split
      · rfl
      · exact h
  intro l
  induction l with
  | nil => exact fun m x hx => absurd hx List.not_mem_nil
  | cons z l ih =>
    intro m x hx
    rcases List.mem_cons.1 hx with rfl | hx
    · refine hkeep l _ x ?_
      simp
    · exact ih _ x hx

/-- Where no value is inserted is what was there before. -/
theorem getElem?_foldl_insert_of_notMem [DecidableEq α] {y : β} {x : α} : ∀ {l : List α}
    {m : Std.ExtTreeMap α β}, x ∉ l → (l.foldl (fun m x => m.insert x y) m)[x]? = m[x]?
  | [], _, _ => rfl
  | z :: l, m, hx => by
    rw [List.mem_cons, not_or] at hx
    rw [List.foldl_cons, getElem?_foldl_insert_of_notMem hx.2, getElem?_insert_of_ne hx.1]

/-- Some keys are erased, and elsewhere is what was there before. -/
theorem getElem?_foldl_erase [DecidableEq α] (x : α) : ∀ (l : List α) (m : Std.ExtTreeMap α β),
    (l.foldl (fun m x => m.erase x) m)[x]? = if x ∈ l then none else m[x]?
  | [], _ => rfl
  | y :: l, m => by
    rw [List.foldl_cons, getElem?_foldl_erase x l, Std.ExtTreeMap.getElem?_erase]
    simp only [List.mem_cons, Std.LawfulEqOrd.compare_eq_iff_eq, @eq_comm _ x y]
    split <;> simp_all

end Ordered

end ServerGroups
