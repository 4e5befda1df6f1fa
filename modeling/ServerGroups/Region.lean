/-
ServerGroups/Region.lean

Regions, the independently assigned shards of a table, and what can be said
of one: that it is in transition on a server, or that it should be placed on
another.

A region is its table together with its encoded name, so regions of one table
sort together.
-/
import ServerGroups.TableName

namespace ServerGroups

/-- A shard of a table. -/
structure Region where
  table : TableName
  encodedName : String
deriving DecidableEq, Repr, Inhabited

namespace Region

instance : Ord Region where
  compare := compareLex (compareOn table) (compareOn encodedName)

instance : Std.TransOrd Region :=
  inferInstanceAs (Std.TransCmp (compareLex (compareOn table) (compareOn encodedName)))

instance : Std.LawfulEqOrd Region where
  eq_of_compare {a b} h := by
    have h' : (compare a.table b.table).then (compare a.encodedName b.encodedName) = .eq := h
    rw [Ordering.then_eq_eq] at h'
    cases a
    cases b
    simp only [mk.injEq]
    exact ⟨Std.LawfulEqOrd.eq_of_compare h'.1, Std.LawfulEqOrd.eq_of_compare h'.2⟩

/-- `namespace:qualifier/encoded`. -/
def text (r : Region) : String :=
  r.table.text ++ "/" ++ r.encodedName

instance : ToString Region := ⟨text⟩

end Region

/-! ### Regions on the move -/

/-- How far a region in transition has come. -/
inductive TransitionState where
  | pendingOpen
  | opening
  | pendingClose
  | closing
  | offline
deriving DecidableEq, Repr, Inhabited

namespace TransitionState

/-- The name of a state. -/
def text : TransitionState → String
  | pendingOpen => "PendingOpen"
  | opening => "Opening"
  | pendingClose => "PendingClose"
  | closing => "Closing"
  | offline => "Offline"

/-- Every state. -/
def all : List TransitionState := [pendingOpen, opening, pendingClose, closing, offline]

/-- The state of a given name. -/
def read? (s : String) : Option TransitionState :=
  all.find? fun state => state.text == s

theorem read?_text (state : TransitionState) : read? state.text = some state := by
  cases state <;> decide

end TransitionState

/-- A region in transition, and the server it is in transition on. -/
structure RegionTransition where
  region : Region
  server : ServerAddress
  state : TransitionState
deriving DecidableEq, Repr

/-- The decision to place a region on a server, with the server it is on now. -/
structure Placement where
  region : Region
  source : Option ServerAddress
  destination : ServerAddress
deriving DecidableEq, Repr

/-- `region=…, source=…, destination=…`, with `none` for a region on no server. -/
def Placement.text (p : Placement) : String :=
  let source := match p.source with
    | some s => s.text
    | none => "none"
  "region=" ++ p.region.text ++ ", source=" ++ source ++ ", destination=" ++ p.destination.text

end ServerGroups
