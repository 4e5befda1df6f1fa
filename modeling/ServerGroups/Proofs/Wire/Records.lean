/-
ServerGroups/Proofs/Wire/Records.lean

The parts of commands and responses, written and read again.

A writer and a reader belong together if what is written of a legible value is
read as this value, and of any other value as nothing (`Json.Restores`).  There
is one lemma for each way of putting readers together, and each type that goes
over the wire is one line over its parts.
-/
import Mathlib.Tactic
import ServerGroups.Proofs.Wire.Names
import ServerGroups.Proofs.Wire.Values
import ServerGroups.Wire.Group

namespace ServerGroups

namespace Json

/-! ### Values of little depth -/

/-- A value is plain and nested no deeper than so many arrays and objects. -/
structure Fits (limit : Nat) (v : Json) : Prop where
  plain : v.isPlain
  depth : v.depth ≤ limit

variable {v : Json} {items : List Json} {members : List (String × Json)} {limit : Nat}
variable {name tag : String} {α : Type} {write : α → Json} {read : Json → Option α}
variable {legible : α → Prop}

theorem Fits.mono {limit' : Nat} (h : v.Fits limit) (hle : limit ≤ limit') : v.Fits limit' :=
  ⟨h.plain, Nat.le_trans h.depth hle⟩

@[simp] theorem fits_null : null.Fits limit := ⟨rfl, Nat.zero_le _⟩

@[simp] theorem fits_bool {b : Bool} : (bool b).Fits limit := ⟨rfl, Nat.zero_le _⟩

@[simp] theorem fits_string {s : String} : (string s).Fits limit := ⟨rfl, Nat.zero_le _⟩

theorem fits_array (h : ∀ v ∈ items, v.Fits limit) : (array items).Fits (limit + 1) := by
  refine ⟨arePlain_iff.2 fun v hv => (h v hv).plain, Nat.succ_le_succ ?_⟩
  induction items with
  | nil => exact Nat.zero_le _
  | cons v items ih =>
    have hrest := ih fun v hv => h v (List.mem_cons_of_mem _ hv)
    exact Nat.max_le.2 ⟨(h v List.mem_cons_self).depth, hrest⟩

theorem fits_object (h : ∀ m ∈ members, m.2.Fits limit) : (object members).Fits (limit + 1) := by
  induction members with
  | nil => exact ⟨rfl, Nat.succ_le_succ (Nat.zero_le _)⟩
  | cons m members ih =>
    have hm := h m List.mem_cons_self
    have hrest := ih fun m hm => h m (List.mem_cons_of_mem _ hm)
    exact ⟨Bool.and_eq_true_iff.2 ⟨hm.plain, hrest.plain⟩,
      Nat.succ_le_succ (Nat.max_le.2 ⟨hm.depth, Nat.le_of_succ_le_succ hrest.depth⟩)⟩

@[simp] theorem fits_ofOption {x : Option α} (h : ∀ a, (write a).Fits limit) :
    (ofOption write x).Fits limit := by
  cases x with
  | none => exact fits_null
  | some a => exact h a

/-! ### Writers and readers -/

@[simp] theorem optional?_none : optional? read none = some none := rfl

/-- Of a legible value that has been written this value is read, and of any other nothing. -/
def Restores {J : Type} (write : α → J) (read : J → Option α) (legible : α → Prop) : Prop :=
  ∀ a b, read (write a) = some b ↔ legible a ∧ a = b

theorem restores_string : Restores string string? fun _ => True := fun a b => by
  simp [string?]

namespace Restores

/-- What is made of a value that is read back. -/
theorem bind {J β : Type} {write : α → J} {read : J → Option α} (h : Restores write read legible)
    {a : α} {f : α → Option β} {b : β} :
    (read (write a)).bind f = some b ↔ legible a ∧ f a = some b := by
  rw [Option.bind_eq_some_iff]
  constructor
  · rintro ⟨a', hread, hb⟩
    obtain ⟨hlegible, rfl⟩ := (h a a').1 hread
    exact ⟨hlegible, hb⟩
  · rintro ⟨hlegible, hb⟩
    exact ⟨a, (h a a).2 ⟨hlegible, rfl⟩, hb⟩

theorem eq_ite [DecidablePred legible] (h : Restores write read legible) (a : α) :
    read (write a) = if legible a then some a else none := by
  split
  · next hlegible => exact (h a a).2 ⟨hlegible, rfl⟩
  · next hnot => exact Option.eq_none_iff_forall_ne_some.2 fun b hb => hnot ((h a b).1 hb).1

theorem mapM (h : Restores write read legible) {l l' : List α} :
    (l.map write).mapM read = some l' ↔ (∀ a ∈ l, legible a) ∧ l = l' := by
  induction l generalizing l' with
  | nil => simp
  | cons a l ih =>
    rw [List.map_cons, List.mapM_cons]
    refine h.bind.trans ?_
    rw [List.forall_mem_cons, and_assoc]
    refine and_congr_right fun _ => Option.bind_eq_some_iff.trans ?_
    constructor
    · rintro ⟨l, hl, heq⟩
      obtain ⟨hlegible, rfl⟩ := ih.1 hl
      exact ⟨hlegible, Option.some.inj heq⟩
    · rintro ⟨hlegible, rfl⟩
      exact ⟨l, ih.2 ⟨hlegible, rfl⟩, rfl⟩

theorem list (h : Restores write read legible) :
    Restores (fun l => array (l.map write)) (list? read) fun l => ∀ a ∈ l, legible a :=
  fun _ _ => h.mapM

theorem set [DecidableEq α] [Ord α] [Std.TransOrd α] [Std.LawfulEqOrd α]
    (h : Restores write read legible) :
    Restores (fun s : Std.ExtTreeSet α => array (s.toList.map write))
      (fun j => (j.list? read).map fun l => Std.ExtTreeSet.ofList l) fun s => ∀ a ∈ s, legible a := by
  intro s s'
  have hitems : (∀ a ∈ s.toList, legible a) ↔ ∀ a ∈ s, legible a := by simp
  have hagain : Std.ExtTreeSet.ofList s.toList = s := by
    refine Std.ExtTreeSet.ext_mem fun a => ?_
    rw [Std.ExtTreeSet.mem_ofList, List.contains_iff_mem, Std.ExtTreeSet.mem_toList]
  show (list? read (array (s.toList.map write))).map (fun l => Std.ExtTreeSet.ofList l) = some s' ↔
    (∀ a ∈ s, legible a) ∧ s = s'
  rw [Option.map_eq_bind, h.list.bind, Function.comp_apply, hagain, hitems, Option.some_inj]

theorem optional (h : Restores write read legible) (hnull : ∀ a, write a ≠ null) :
    Restores (fun x => some (ofOption write x)) (optional? read) fun x => ∀ a ∈ x, legible a := by
  intro x y
  cases x with
  | none => simp [ofOption, optional?]
  | some a =>
    have hread : optional? read (some (write a)) = (read (write a)).bind fun b => some (some b) := by
      unfold optional?
      split
      · next heq => cases heq
      · next heq => exact absurd (Option.some.inj heq) (hnull a)
      · next heq => rw [Option.some.inj heq, Option.map_eq_bind]; rfl
    show optional? read (some (write a)) = some y ↔ _
    rw [hread, h.bind]
    simp

end Restores

/-! ### Tagged records -/

/-- The tag of a record is found, and the record without it. -/
theorem tagged?_object (h : (object ((name, string tag) :: members)).Fits depthLimit)
    (hother : ∀ m ∈ members, m.1 ≠ name) :
    (object ((name, string tag) :: members)).tagged? name = some (tag, object members) := by
  have hnone : (members.filter fun m => m.1 = name) = [] :=
    List.filter_eq_nil_iff.2 fun m hm => by simpa using hother m hm
  have hall : (members.filter fun m => m.1 ≠ name) = members :=
    List.filter_eq_self.2 fun m hm => by simpa using hother m hm
  unfold tagged?
  rw [if_pos ⟨isReadable_of_isPlain h.plain, h.depth⟩]
  simp only [List.filter_cons, decide_true, if_true, hnone, ne_eq, not_true_eq_false,
    decide_false, Bool.false_eq_true, if_false]
  rw [← hall]
  simp

end Json

open Json

/-! ### Servers, tables and groups -/

instance decidableForallMem {α : Type} [Ord α] [Std.TransOrd α] [Std.LawfulEqOrd α] [DecidableEq α]
    (s : Std.ExtTreeSet α) (p : α → Prop) [DecidablePred p] : Decidable (∀ x ∈ s, p x) :=
  decidable_of_iff (∀ x ∈ s.toList, p x) (by simp)

@[simp] theorem ServerAddress.fits_toJson {s : ServerAddress} {limit : Nat} :
    s.toJson.Fits limit :=
  fits_string

@[simp] theorem TableName.fits_toJson {t : TableName} {limit : Nat} : t.toJson.Fits limit :=
  fits_string

@[simp] theorem ServerSet.fits_toJson {servers : ServerSet} {limit : Nat} :
    (ServerSet.toJson servers).Fits (limit + 1) :=
  fits_array (by simp)

@[simp] theorem TableSet.fits_toJson {tables : TableSet} {limit : Nat} :
    (TableSet.toJson tables).Fits (limit + 1) :=
  fits_array (by simp)

theorem ServerAddress.restores :
    Restores ServerAddress.toJson ServerAddress.ofJson? ServerAddress.Legible :=
  fun _ _ => ServerAddress.read?_text

theorem TableName.restores : Restores TableName.toJson TableName.ofJson? TableName.Legible :=
  fun _ _ => TableName.read?_text

theorem ServerSet.restores :
    Restores ServerSet.toJson ServerSet.ofJson? fun s => ∀ a ∈ s, a.Legible :=
  ServerAddress.restores.set

theorem TableSet.restores :
    Restores TableSet.toJson TableSet.ofJson? fun s => ∀ t ∈ s, t.Legible :=
  TableName.restores.set

namespace Group

/-- The text of a group can be read: so can that of each server and table. -/
structure Legible (g : Group) : Prop where
  servers : ∀ s ∈ g.servers, s.Legible
  tables : ∀ t ∈ g.tables, t.Legible

instance : DecidablePred Legible := fun g =>
  decidable_of_iff ((∀ s ∈ g.servers, s.Legible) ∧ ∀ t ∈ g.tables, t.Legible)
    ⟨fun h => ⟨h.1, h.2⟩, fun h => ⟨h.servers, h.tables⟩⟩

@[simp] theorem fits_toJson {g : Group} : g.toJson.Fits 2 :=
  fits_object (by simp)

theorem restores : Restores toJson ofJson? Legible := by
  intro g g'
  have hfields : g.toJson.fields? ["name", "servers", "tables"] 3 =
      some [some (.string g.name), some g.servers.toJson, some g.tables.toJson] := by
    simp [toJson, fields?, List.lookup_cons]
  unfold ofJson?
  rw [hfields]
  simp only [Option.bind_eq_bind, restores_string.bind, ServerSet.restores.bind,
    TableSet.restores.bind]
  constructor
  · rintro ⟨-, hservers, htables, heq⟩
    exact ⟨⟨hservers, htables⟩, Option.some.inj heq⟩
  · rintro ⟨hlegible, rfl⟩
    exact ⟨trivial, hlegible.servers, hlegible.tables, rfl⟩

end Group

end ServerGroups
