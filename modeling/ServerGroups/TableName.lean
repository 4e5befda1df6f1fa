/-
ServerGroups/TableName.lean

Table names: a qualifier within a namespace, written `namespace:qualifier`.

A text without a colon names a table of the namespace `default`.  Both parts
are non-empty and free of colons in every text that is accepted; a name built
from its parts is not checked, so its printed form need not be readable.
-/
import ServerGroups.ServerAddress

namespace ServerGroups

/-- A table, qualified by the namespace it lives in. -/
structure TableName where
  space : String
  qualifier : String
deriving DecidableEq, Repr, Inhabited

namespace TableName

/-! ### Order: by namespace, then by qualifier -/

instance : Ord TableName where
  compare := compareLex (compareOn space) (compareOn qualifier)

instance : Std.TransOrd TableName :=
  inferInstanceAs (Std.TransCmp (compareLex (compareOn space) (compareOn qualifier)))

instance : Std.LawfulEqOrd TableName where
  eq_of_compare {a b} h := by
    have h' : (compare a.space b.space).then (compare a.qualifier b.qualifier) = .eq := h
    rw [Ordering.then_eq_eq] at h'
    cases a
    cases b
    simp only [mk.injEq]
    exact ⟨Std.LawfulEqOrd.eq_of_compare h'.1, Std.LawfulEqOrd.eq_of_compare h'.2⟩

/-! ### Text -/

/-- The namespace of a table name that states none. -/
def defaultSpace : String := "default"

/-- `namespace:qualifier`. -/
def text (t : TableName) : String :=
  t.space ++ ":" ++ t.qualifier

instance : ToString TableName := ⟨text⟩

/-- The table that a text names, if it names one. -/
def read? (s : String) : Option TableName :=
  let (space, qualifier) := match Text.cutFirst ':' s.toList with
    | some (a, b) => (a, b)
    | none => (defaultSpace.toList, s.toList)
  if space = [] ∨ qualifier = [] ∨ ':' ∈ qualifier then none
  else some ⟨String.ofList space, String.ofList qualifier⟩

/-- Reads a table name; the error quotes the whole text. -/
def parse (s : String) : Except NameError TableName :=
  match read? s with
  | some t => .ok t
  | none => .error (.table s)

end TableName

/-- A set of tables, in name order. -/
abbrev TableSet := Std.ExtTreeSet TableName

/-- The tables of a set in braces, parted by blanks. -/
def TableSet.text (s : TableSet) : String :=
  "\x7b" ++ String.intercalate " " (s.toList.map TableName.text) ++ "\x7d"

end ServerGroups
