/-
ServerGroups/Proofs/Wire/Values.lean

A value that has been printed is read back (`read?_text`).

Only values without numbers are considered, for commands and responses hold
none.  The end of such a value shows in its own text, so it is read whatever
follows it, and the whole is by recursion on the value: one case for each
constructor, and one for the list of items or members inside.

Design.  The text of an array is a bracket and the text of its items with
their end (`itemsText`), whether or not there are any, and likewise for objects.
This is the shape in which the reader takes a text apart.
-/
import ServerGroups.Proofs.Wire.Strings

namespace ServerGroups.Json

variable {v : Json} {items : List Json} {members : List (String × Json)} {bound : Nat}

/-! ### Values without numbers -/

mutual

/-- Whether a value can be used throughout and has no number in it. -/
def isPlain : Json → Bool
  | null | bool _ | string _ => true
  | array items => arePlain items
  | object members => membersPlain members
  | _ => false

/-- Whether some values are plain. -/
def arePlain : List Json → Bool
  | [] => true
  | v :: rest => v.isPlain && arePlain rest

/-- Whether the values of some members are plain. -/
def membersPlain : List (String × Json) → Bool
  | [] => true
  | (_, v) :: rest => v.isPlain && membersPlain rest

end

theorem arePlain_iff : arePlain items ↔ ∀ v ∈ items, v.isPlain := by
  induction items with
  | nil => simp [arePlain]
  | cons v items ih => simp [arePlain, ih]

mutual

theorem isReadable_of_isPlain : ∀ {v : Json}, v.isPlain → v.isReadable
  | null, _ | bool _, _ | string _, _ => rfl
  | array _, h => areReadable_of_arePlain h
  | object _, h => membersReadable_of_membersPlain h

theorem areReadable_of_arePlain : ∀ {items : List Json}, arePlain items → areReadable items
  | [], _ => rfl
  | _ :: _, h => by
    obtain ⟨hv, hitems⟩ := Bool.and_eq_true_iff.1 h
    exact Bool.and_eq_true_iff.2 ⟨isReadable_of_isPlain hv, areReadable_of_arePlain hitems⟩

theorem membersReadable_of_membersPlain :
    ∀ {members : List (String × Json)}, membersPlain members → membersReadable members
  | [], _ => rfl
  | (_, _) :: _, h => by
    obtain ⟨hv, hmembers⟩ := Bool.and_eq_true_iff.1 h
    exact Bool.and_eq_true_iff.2
      ⟨isReadable_of_isPlain hv, membersReadable_of_membersPlain hmembers⟩

end

/-! ### The shape of a text -/

/-- The items of an array and its end. -/
def itemsText : List Json → List Char
  | [] => [']']
  | v :: rest => v.print ++ printItems rest

/-- The members of an object and its end. -/
def membersText : List (String × Json) → List Char
  | [] => ['\x7d']
  | (k, v) :: rest => printString k ++ ':' :: (v.print ++ printMembers rest)

theorem print_array : print (array items) = '[' :: itemsText items := by
  cases items <;> rfl

theorem print_object : print (object members) = '\x7b' :: membersText members := by
  rcases members with - | ⟨⟨k, v⟩, rest⟩ <;> rfl

theorem printItems_cons : printItems (v :: items) = ',' :: itemsText (v :: items) := rfl

theorem printMembers_cons {m : String × Json} :
    printMembers (m :: members) = ',' :: membersText (m :: members) := rfl

@[simp] theorem skip_cons {c : Char} {cs : List Char} (h : isBlank c = false) :
    skip (c :: cs) = c :: cs := by
  simp [skip, h]

/-- A plain value begins with neither a blank nor the end of an array. -/
theorem print_eq_cons (h : v.isPlain) :
    ∃ c cs, v.print = c :: cs ∧ isBlank c = false ∧ c ≠ ']' := by
  cases v with
  | null => exact ⟨_, _, rfl, rfl, by decide⟩
  | bool b => cases b <;> exact ⟨_, _, rfl, rfl, by decide⟩
  | string s => exact ⟨_, _, rfl, rfl, by decide⟩
  | array items => exact ⟨_, _, print_array, rfl, by decide⟩
  | object members => exact ⟨_, _, print_object, rfl, by decide⟩
  | natural n | negative n | real x | unreadable => cases h

theorem itemsText_cons_eq (h : arePlain (v :: items)) (rest : List Char) :
    ∃ c cs, itemsText (v :: items) ++ rest = c :: cs ∧ isBlank c = false ∧ c ≠ ']' := by
  obtain ⟨c, cs, hprint, hblank, hend⟩ := print_eq_cons (Bool.and_eq_true_iff.1 h).1
  exact ⟨c, cs ++ printItems items ++ rest, by simp [itemsText, hprint], hblank, hend⟩

/-! ### Reading -/

/-- An object all of whose names are texts can be used. -/
theorem ofMembers_map (members : List (String × Json)) :
    ofMembers (members.map fun m => (some m.1, m.2)) = object members := by
  have hnames : (members.map fun m => (some m.1, m.2)).mapM
      (fun m : Option String × Json => m.1.map fun k => (k, m.2)) = some members := by
    induction members with
    | nil => rfl
    | cons m members ih => simp [ih]
  rw [ofMembers, hnames]

mutual

/-- A plain value that has been printed is read back, whatever follows it. -/
theorem value?_print : ∀ {v : Json} {bound : Nat} (rest : List Char), v.isPlain →
    v.print.length < bound → value? bound (v.print ++ rest) = some (v, rest)
  | null, _ + 1, _, _, _ | bool true, _ + 1, _, _, _ | bool false, _ + 1, _, _, _ => rfl
  | string s, bound + 1, rest, _, _ => by
    have hbody := stringBody?_print s rest
    simp only [print, printString, List.cons_append, List.append_assoc, List.nil_append, value?]
    rw [skip_cons rfl]
    simp only [hbody, Option.map_some, ofString]
  | array [], _ + 1, _, _, _ => rfl
  | array (v :: items), bound + 1, rest, hplain, hbound => by
    have hlength : (itemsText (v :: items)).length < bound := by
      simpa [print_array] using hbound
    obtain ⟨c, cs, htext, hblank, hend⟩ := itemsText_cons_eq hplain rest
    have hitems := @items?_print (v :: items) bound rest hplain (by simp) hlength
    rw [print_array, List.cons_append, value?, skip_cons rfl]
    rw [htext] at hitems ⊢
    simp only [skip_cons hblank]
    split
    · next heq => exact absurd (List.cons.inj heq).1 hend
    · rw [hitems]
      rfl
  | object [], _ + 1, _, _, _ => rfl
  | object (m :: members), bound + 1, rest, hplain, hbound => by
    have hlength : (membersText (m :: members)).length < bound := by
      simpa [print_object] using hbound
    have hmembers := @members?_print (m :: members) bound rest hplain (by simp) hlength
    obtain ⟨cs, htext⟩ : ∃ cs, membersText (m :: members) ++ rest = '"' :: cs := ⟨_, rfl⟩
    rw [print_object, List.cons_append, value?, skip_cons rfl]
    rw [htext] at hmembers ⊢
    simp only [skip_cons (show isBlank '"' = false from rfl), hmembers, Option.map_some,
      ofMembers_map]
    rfl

/-- The items of an array are read back up to its end. -/
theorem items?_print : ∀ {items : List Json} {bound : Nat} (rest : List Char), arePlain items →
    items ≠ [] → (itemsText items).length < bound →
    items? bound (itemsText items ++ rest) = some (items, rest)
  | v :: items, bound + 1, rest, hplain, _, hbound => by
    obtain ⟨hv, hitems⟩ := Bool.and_eq_true_iff.1 hplain
    have hlength : v.print.length + (printItems items).length < bound + 1 := by
      simpa [itemsText] using hbound
    have hrest : 0 < (printItems items).length := by cases items <;> simp [printItems]
    have hvalue := value?_print (printItems items ++ rest) hv
      (show v.print.length < bound by omega)
    rw [itemsText, List.append_assoc, items?, hvalue]
    cases items with
    | nil => rfl
    | cons v' items =>
      have hshorter : (itemsText (v' :: items)).length < bound := by
        simp only [printItems_cons, List.length_cons] at hlength
        omega
      have hread := @items?_print (v' :: items) bound rest hitems (by simp) hshorter
      rw [printItems_cons, List.cons_append]
      simp only [skip_cons (show isBlank ',' = false from rfl), hread, Option.map_some]

/-- The members of an object are read back up to its end. -/
theorem members?_print : ∀ {members : List (String × Json)} {bound : Nat} (rest : List Char),
    membersPlain members → members ≠ [] → (membersText members).length < bound →
    members? bound (membersText members ++ rest) =
      some (members.map fun m => (some m.1, m.2), rest)
  | (k, v) :: members, bound + 1, rest, hplain, _, hbound => by
    obtain ⟨hv, hmembers⟩ := Bool.and_eq_true_iff.1 hplain
    have hlength : (printString k).length + (v.print.length + (printMembers members).length) + 1 <
        bound + 1 := by
      simpa [membersText, Nat.add_assoc] using hbound
    have hrest : 0 < (printMembers members).length := by cases members <;> simp [printMembers]
    have hname := stringBody?_print k (':' :: (v.print ++ printMembers members ++ rest))
    have hvalue := value?_print (printMembers members ++ rest) hv
      (show v.print.length < bound by omega)
    rw [membersText, printString]
    simp only [List.cons_append, List.append_assoc, List.nil_append] at hname ⊢
    rw [members?, skip_cons rfl]
    simp only [hname, skip_cons (show isBlank ':' = false from rfl), hvalue]
    cases members with
    | nil => rfl
    | cons m members =>
      have hshorter : (membersText (m :: members)).length < bound := by
        simp only [printMembers_cons, List.length_cons] at hlength
        omega
      have hread := @members?_print (m :: members) bound rest hmembers (by simp) hshorter
      rw [printMembers_cons, List.cons_append]
      simp only [skip_cons (show isBlank ',' = false from rfl), hread, Option.map_some,
        List.map_cons]

end

/-- **Round trip.**  The text of a plain value stands for this value. -/
theorem read?_text (h : v.isPlain) : read? v.text = some v := by
  have hvalue := value?_print [] h (Nat.lt_succ_self _)
  rw [List.append_nil] at hvalue
  rw [read?, text, String.toList_ofList, hvalue]
  rfl

end ServerGroups.Json
