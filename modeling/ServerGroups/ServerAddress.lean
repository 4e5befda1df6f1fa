/-
ServerGroups/ServerAddress.lean

The address of a worker server: a host and a port, written `host:port`.

The last colon separates the two, so a host may hold colons of its own.  The
port is a run of digits up to 65535 that may carry one leading plus sign and
any number of leading zeros; it is always written back without them.
-/
import ServerGroups.Text.Split
import Std.Data.ExtTreeSet

namespace ServerGroups

/-- Text that should have named a server or a table, and does not. -/
inductive NameError where
  | server (text : String)
  | table (text : String)
deriving DecidableEq, Repr

/-- The wording of a name that cannot be read. -/
def NameError.message : NameError → String
  | .server text => "invalid server address: " ++ text
  | .table text => "invalid table name: " ++ text

/-- Host and port of a worker server. -/
structure ServerAddress where
  host : String
  port : UInt16
deriving DecidableEq, Repr, Inhabited

namespace ServerAddress

/-! ### Order: by host, then by the port as a number -/

instance : Ord ServerAddress where
  compare := compareLex (compareOn host) (compareOn port)

instance : Std.TransOrd ServerAddress :=
  inferInstanceAs (Std.TransCmp (compareLex (compareOn host) (compareOn port)))

instance : Std.LawfulEqOrd ServerAddress where
  eq_of_compare {a b} h := by
    have h' : (compare a.host b.host).then (compare a.port b.port) = .eq := h
    rw [Ordering.then_eq_eq] at h'
    cases a
    cases b
    simp only [mk.injEq]
    exact ⟨Std.LawfulEqOrd.eq_of_compare h'.1, Std.LawfulEqOrd.eq_of_compare h'.2⟩

/-! ### Text -/

/-- `host:port`. -/
def text (a : ServerAddress) : String :=
  a.host ++ ":" ++ a.port.toNat.repr

instance : ToString ServerAddress := ⟨text⟩

/-- A port: an optional plus sign, then digits of a value up to 65535. -/
def port? (t : List Char) : Option UInt16 :=
  let digits := match t with
    | '+' :: r => r
    | _ => t
  if digits ≠ [] ∧ digits.all Char.isDigit then
    let value := Nat.ofDigitChars 10 digits 0
    if value < UInt16.size then some (UInt16.ofNat value) else none
  else none

/-- The address that a text names, if it names one. -/
def read? (s : String) : Option ServerAddress :=
  match Text.cutLast ':' s.toList with
  | none => none
  | some (host, port) =>
    if host = [] then none else (port? port).map fun p => ⟨String.ofList host, p⟩

/-- Reads an address; the error quotes the whole text. -/
def parse (s : String) : Except NameError ServerAddress :=
  match read? s with
  | some a => .ok a
  | none => .error (.server s)

end ServerAddress

/-- A set of servers, in address order. -/
abbrev ServerSet := Std.ExtTreeSet ServerAddress

/-- The servers of a set in braces, parted by blanks. -/
def ServerSet.text (s : ServerSet) : String :=
  "\x7b" ++ String.intercalate " " (s.toList.map ServerAddress.text) ++ "\x7d"

end ServerGroups
