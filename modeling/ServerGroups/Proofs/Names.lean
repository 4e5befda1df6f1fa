/-
ServerGroups/Proofs/Names.lean

Servers and tables are read as they are written.

What a text writes is said without the readers: `ServerAddress.Writes` and
`TableName.Writes` put the text together from the parts of the name.  The
readers take exactly these texts, each for the name that it writes, and refuse
every other one (`addresses_read_as_written`, `tables_read_as_written`).

The two differ in what may be written in more than one way.  A port may have a
plus sign and zeros before it, which are not printed again, so a text is the
print of what it writes if its port is plain.  A table name has one text more
only in the namespace `default`, which may be left out.
-/
import Mathlib.Tactic
import ServerGroups.Proofs.Wire.Names

namespace ServerGroups

open Text

/-! ### Digits and numbers -/

namespace Number

variable {digits rest : List Char} {c : Char}

theorem digitChar_of_isDigit (h : c.isDigit) : Nat.digitChar (c.toNat - '0'.toNat) = c := by
  have hbounds : 48 ≤ c.toNat ∧ c.toNat ≤ 57 := Char.isDigit_iff_toNat.1 h
  have hchar : Char.ofNat c.toNat = c := Char.ofNat_toNat c
  obtain ⟨hlow, hhigh⟩ := hbounds
  generalize c.toNat = n at hlow hhigh hchar ⊢
  subst hchar
  interval_cases n <;> rfl

theorem digit_lt (h : c.isDigit) : c.toNat - '0'.toNat < 10 := by
  have hhigh : c.toNat ≤ 57 := (Char.isDigit_iff_toNat.1 h).2
  show c.toNat - 48 < 10
  omega

/-- Digits without a superfluous zero before them are what their value is printed as. -/
theorem toDigits_ofDigitChars (hne : digits ≠ []) (hdigits : ∀ c ∈ digits, c.isDigit)
    (hzero : ∀ rest, digits = '0' :: rest → rest = []) :
    Nat.toDigits 10 (Nat.ofDigitChars 10 digits 0) = digits := by
  induction digits using List.reverseRecOn with
  | nil => exact absurd rfl hne
  | append_singleton init c ih =>
    have hc : c.isDigit := hdigits c (by simp)
    have hvalue : Nat.ofDigitChars 10 (init ++ [c]) 0 =
        10 * Nat.ofDigitChars 10 init 0 + (c.toNat - '0'.toNat) := by
      rw [Nat.ofDigitChars_append]
      rfl
    have hlast : Nat.toDigits 10 (c.toNat - '0'.toNat) = [c] := by
      rw [Nat.toDigits_of_lt_base (digit_lt hc), digitChar_of_isDigit hc]
    rcases List.eq_nil_or_concat init with rfl | ⟨_, _, hcons⟩
    · show Nat.toDigits 10 (10 * 0 + (c.toNat - '0'.toNat)) = [c]
      rw [Nat.mul_zero, Nat.zero_add, hlast]
    · have hinit : init ≠ [] := by simp [hcons]
      have hprinted : Nat.toDigits 10 (Nat.ofDigitChars 10 init 0) = init := by
        refine ih hinit (fun x hx => hdigits x (List.mem_append_left _ hx)) fun rest hrest => ?_
        have hfull := hzero (rest ++ [c]) (by rw [hrest, List.cons_append])
        simp at hfull
      have hpos : 0 < Nat.ofDigitChars 10 init 0 := by
        -- else the digits before the last one would be a zero that is superfluous
        refine Nat.pos_of_ne_zero fun hnone => ?_
        rw [hnone] at hprinted
        have hfull := hzero [c] (by rw [← hprinted]; rfl)
        simp at hfull
      rw [hvalue, ← Nat.toDigits_append_toDigits (by decide) hpos (digit_lt hc), hprinted, hlast]

/-- No number is printed with a superfluous zero before it. -/
theorem eq_nil_of_toDigits {n : Nat} (h : Nat.toDigits 10 n = '0' :: rest) : rest = [] := by
  induction n using Nat.base_induction 10 generalizing rest with
  | hb => decide
  | single m hm =>
    rw [Nat.toDigits_of_lt_base hm] at h
    exact (List.cons.inj h).2.symm
  | digit m k hk hm ih =>
    rw [← Nat.toDigits_append_toDigits (by decide) hm hk] at h
    rcases hfirst : Nat.toDigits 10 m with - | ⟨c, cs⟩
    · exact absurd hfirst Nat.toDigits_ne_nil
    · rw [hfirst] at h
      obtain ⟨rfl, -⟩ := List.cons.inj h
      obtain rfl := ih hfirst
      -- the first digits are zero, which is not printed before others
      have hvalue : Nat.ofDigitChars 10 (Nat.toDigits 10 m) 0 = m := Nat.ofDigitChars_ten_toDigits
      rw [hfirst] at hvalue
      have hmzero : m = 0 := hvalue.symm
      omega

end Number

/-! ### Addresses -/

namespace ServerAddress

variable {a : ServerAddress} {s t port : String} {p : UInt16} {cs digits : List Char}

/-- A port is written with digits of its value, which a plus sign may precede. -/
def WritesPort (p : UInt16) (port : List Char) : Prop :=
  ∃ digits : List Char, (port = digits ∨ port = '+' :: digits) ∧ digits ≠ [] ∧
    (∀ c ∈ digits, c.isDigit) ∧ Nat.ofDigitChars 10 digits 0 = p.toNat

/-- A text writes an address: its last colon stands between the host, which is not empty, and the
port. -/
structure Writes (a : ServerAddress) (port s : String) : Prop where
  text : s = a.host ++ ":" ++ port
  host : a.host ≠ ""
  colon : ':' ∉ port.toList
  port : WritesPort a.port port.toList

theorem port?_plus (h : ∀ c ∈ digits, c.isDigit) (hne : digits ≠ []) :
    port? ('+' :: digits) = port? digits := by
  rcases digits with - | ⟨c, rest⟩
  · exact absurd rfl hne
  · have hplus : c ≠ '+' := by
      rintro rfl
      exact absurd (h '+' List.mem_cons_self) (by decide)
    simp [port?, hplus]

/-- The digits of a port are what a plus sign may precede. -/
theorem port?_eq (cs : List Char) : ∃ digits, (cs = digits ∨ cs = '+' :: digits) ∧
    port? cs = if digits ≠ [] ∧ digits.all Char.isDigit then
      if Nat.ofDigitChars 10 digits 0 < UInt16.size then
        some (UInt16.ofNat (Nat.ofDigitChars 10 digits 0)) else none
      else none := by
  unfold port?
  dsimp only
  split
  · exact ⟨_, .inr rfl, rfl⟩
  · exact ⟨_, .inl rfl, rfl⟩

theorem port?_eq_some_iff : port? cs = some p ↔ WritesPort p cs := by
  constructor
  · intro h
    obtain ⟨digits, hcs, hport⟩ := port?_eq cs
    rw [hport, Option.ite_none_right_eq_some, Option.ite_none_right_eq_some] at h
    obtain ⟨⟨hne, hdigits⟩, hsize, hp⟩ := h
    refine ⟨digits, hcs, hne, List.all_eq_true.1 hdigits, ?_⟩
    rw [← Option.some.inj hp, UInt16.toNat_ofNat', Nat.mod_eq_of_lt hsize]
  · rintro ⟨digits, hcs, hne, hdigits, hvalue⟩
    have hport : port? digits = some p := by
      rw [port?_of_digits hdigits hne (by rw [hvalue]; exact p.toNat_lt), hvalue,
        UInt16.ofNat_toNat]
    rcases hcs with rfl | rfl
    · exact hport
    · rw [port?_plus hdigits hne, hport]

theorem parse_eq_ok : parse s = .ok a ↔ read? s = some a := by
  unfold parse
  split <;> simp_all

theorem parse_eq_error : parse s = .error (.server s) ↔ ∀ a, read? s ≠ some a := by
  rw [← Option.eq_none_iff_forall_ne_some]
  unfold parse
  split <;> simp_all

/-- The texts that are read as an address are those that write it. -/
theorem read?_eq_some_iff : read? s = some a ↔ ∃ port, a.Writes port s := by
  unfold read?
  constructor
  · intro h
    rcases hcut : cutLast ':' s.toList with - | ⟨host, port⟩
    · rw [hcut] at h
      cases h
    · rw [hcut] at h
      dsimp only at h
      split at h
      · cases h
      · next hhost =>
        obtain ⟨p, hp, rfl⟩ := Option.map_eq_some_iff.1 h
        obtain ⟨hparts, hcolon⟩ := cutLast_eq_some_iff.1 hcut
        refine ⟨String.ofList port, ⟨?_, ?_, ?_, ?_⟩⟩
        · rw [← String.toList_inj]
          simp [hparts]
        · simpa using hhost
        · simpa using hcolon
        · simpa using port?_eq_some_iff.1 hp
  · rintro ⟨port, rfl, hhost, hcolon, hport⟩
    have hcut : cutLast ':' (a.host ++ ":" ++ port).toList = some (a.host.toList, port.toList) :=
      cutLast_eq_some_iff.2 ⟨by simp, hcolon⟩
    rw [hcut]
    simp [hhost, port?_eq_some_iff.2 hport]

/-- A port as it is printed: without a plus sign, and without a superfluous zero before it. -/
def PlainPort (port : List Char) : Prop :=
  '+' ∉ port ∧ ∀ rest, port = '0' :: rest → rest = []

theorem toDigits_eq_iff (h : WritesPort p cs) : Nat.toDigits 10 p.toNat = cs ↔ PlainPort cs := by
  constructor
  · rintro rfl
    refine ⟨fun hplus => ?_, fun rest hrest => Number.eq_nil_of_toDigits hrest⟩
    have hdigit := Nat.isDigit_of_mem_toDigits (by decide) (by decide) hplus
    exact absurd hdigit (by decide)
  · rintro ⟨hplus, hzero⟩
    obtain ⟨digits, rfl | rfl, hne, hdigits, hvalue⟩ := h
    · rw [← hvalue]
      exact Number.toDigits_ofDigitChars hne hdigits hzero
    · exact absurd List.mem_cons_self hplus

/-- An address is printed as it was written if the port was. -/
theorem Writes.text_eq_iff (h : a.Writes port s) : a.text = s ↔ PlainPort port.toList := by
  rw [← toDigits_eq_iff h.port, h.text, ← String.toList_inj]
  simp [ServerAddress.text]

theorem parse_text (a : ServerAddress) :
    parse a.text = if a.host = "" then .error (.server a.text) else .ok a := by
  split
  · next hhost => exact parse_eq_error.2 fun a' h => (read?_text.1 h).1 hhost
  · next hhost => exact parse_eq_ok.2 (read?_text.2 ⟨hhost, rfl⟩)

end ServerAddress

/-- **Addresses are read as they are written.**  The texts that are read are those that write an
address, and that address is read; every other text is quoted in an error.  A printed address is
read back unless it has no host, and what is printed is what was read if its port was plain. -/
theorem addresses_read_as_written :
    (∀ (s : String) (a : ServerAddress),
      ServerAddress.parse s = .ok a ↔ ∃ port, a.Writes port s) ∧
    (∀ s : String, ServerAddress.parse s = .error (.server s) ↔
      ¬ ∃ (a : ServerAddress) (port : String), a.Writes port s) ∧
    (∀ a : ServerAddress, ServerAddress.parse a.text =
      if a.host = "" then .error (.server a.text) else .ok a) ∧
    ∀ {s port : String} {a : ServerAddress}, a.Writes port s →
      (a.text = s ↔ ServerAddress.PlainPort port.toList) ∧ ServerAddress.parse a.text = .ok a := by
  refine ⟨fun s a => ?_, fun s => ?_, ServerAddress.parse_text, fun {s port a} h => ?_⟩
  · rw [ServerAddress.parse_eq_ok, ServerAddress.read?_eq_some_iff]
  · rw [ServerAddress.parse_eq_error, not_exists]
    exact forall_congr' fun a => not_congr ServerAddress.read?_eq_some_iff
  · refine ⟨h.text_eq_iff, ?_⟩
    rw [ServerAddress.parse_text, if_neg h.host]

/-- A host with colons, and a port with a plus sign and zeros before it. -/
theorem addresses_read_as_written_padded :
    ServerAddress.parse "::1:+0080" = .ok ⟨"::1", 80⟩ ∧
      ServerAddress.text ⟨"::1", 80⟩ ≠ "::1:+0080" ∧
      ServerAddress.parse (ServerAddress.text ⟨"::1", 80⟩) = .ok ⟨"::1", 80⟩ := by
  have hwrites : ServerAddress.Writes ⟨"::1", 80⟩ "+0080" "::1:+0080" :=
    ⟨by rfl, by decide, by decide, "0080".toList, .inr rfl, by decide,
      List.all_eq_true.1 (by decide), by decide⟩
  obtain ⟨hreads, -, -, hprints⟩ := addresses_read_as_written
  obtain ⟨htext, hagain⟩ := hprints hwrites
  exact ⟨(hreads _ _).2 ⟨_, hwrites⟩, fun h => (htext.1 h).1 (by decide), hagain⟩

/-- The first number that is no port. -/
example : ServerAddress.parse "rs1:65536" = .error (.server "rs1:65536") := by decide +kernel

/-! ### Tables -/

namespace TableName

variable {t t' : TableName} {s s' : String}

/-- A text writes a table name: the qualifier alone, in the namespace `default`, or both parts
around a colon; no part is empty or has a colon. -/
inductive Writes : TableName → String → Prop
  | bare {qualifier : String} (hne : qualifier ≠ "") (hcolon : ':' ∉ qualifier.toList) :
      Writes ⟨defaultSpace, qualifier⟩ qualifier
  | full {space qualifier : String} (hspace : space ≠ "") (hspaceColon : ':' ∉ space.toList)
      (hne : qualifier ≠ "") (hcolon : ':' ∉ qualifier.toList) :
      Writes ⟨space, qualifier⟩ (space ++ ":" ++ qualifier)

theorem parse_eq_ok : parse s = .ok t ↔ read? s = some t := by
  unfold parse
  split <;> simp_all

theorem parse_eq_error : parse s = .error (.table s) ↔ ∀ t, read? s ≠ some t := by
  rw [← Option.eq_none_iff_forall_ne_some]
  unfold parse
  split <;> simp_all

theorem defaultSpace_ne : defaultSpace ≠ "" := by decide

theorem colon_not_mem_defaultSpace : ':' ∉ defaultSpace.toList := by decide

theorem Writes.legible (h : t.Writes s) : t.Legible := by
  cases h with
  | bare hne hcolon => exact ⟨defaultSpace_ne, colon_not_mem_defaultSpace, hne, hcolon⟩
  | full hspace hspaceColon hne hcolon => exact ⟨hspace, hspaceColon, hne, hcolon⟩

/-- The texts that are read as a table name are those that write it. -/
theorem read?_eq_some_iff : read? s = some t ↔ t.Writes s := by
  constructor
  · intro h
    unfold read? at h
    rcases hcut : cutFirst ':' s.toList with - | ⟨space, qualifier⟩
    · rw [hcut] at h
      dsimp only at h
      split at h
      · cases h
      · next hgood =>
        obtain rfl := Option.some.inj h
        simp only [not_or, String.ofList_toList] at hgood ⊢
        exact .bare (by simpa using hgood.2.1) hgood.2.2
    · rw [hcut] at h
      dsimp only at h
      split at h
      · cases h
      · next hgood =>
        obtain rfl := Option.some.inj h
        obtain ⟨hparts, hbefore⟩ := cutFirst_eq_some_iff.1 hcut
        have hs : s = String.ofList space ++ ":" ++ String.ofList qualifier := by
          rw [← String.toList_inj]
          simp [hparts]
        simp only [not_or] at hgood
        rw [hs]
        exact .full (by simpa using hgood.1) (by simpa using hbefore) (by simpa using hgood.2.1)
          (by simpa using hgood.2.2)
  · intro h
    have hlegible := h.legible
    cases h with
    | bare hne hcolon =>
      have hcut : cutFirst ':' s.toList = none := cutFirst_eq_none_iff.2 hcolon
      unfold read?
      rw [hcut]
      simp [hne, hcolon, defaultSpace]
    | @full n q => exact (read?_text (t := ⟨n, q⟩)).2 ⟨hlegible, rfl⟩

theorem parse_text (t : TableName) :
    parse t.text = if t.Legible then .ok t else .error (.table t.text) := by
  split
  · next hlegible => exact parse_eq_ok.2 (read?_text.2 ⟨hlegible, rfl⟩)
  · next hlegible => exact parse_eq_error.2 fun t' h => hlegible (read?_text.1 h).1

/-- How often a text that writes a table name has a colon tells which of the two forms it has. -/
theorem Writes.count_colon (h : t.Writes s) :
    (s.toList.count ':' = 0 ∧ t = ⟨defaultSpace, s⟩) ∨ (s.toList.count ':' = 1 ∧ s = t.text) := by
  cases h with
  | bare hne hcolon => exact .inl ⟨List.count_eq_zero.2 hcolon, rfl⟩
  | full hspace hspaceColon hne hcolon =>
    refine .inr ⟨?_, rfl⟩
    simp [List.count_eq_zero.2 hspaceColon, List.count_eq_zero.2 hcolon]

theorem count_colon_default : ("default:" ++ s).toList.count ':' = s.toList.count ':' + 1 := by
  rw [String.toList_append, List.count_append, Nat.add_comm]
  rfl

theorem Writes.unique (h : t.Writes s) (h' : t'.Writes s) : t = t' :=
  Option.some.inj ((read?_eq_some_iff.2 h).symm.trans (read?_eq_some_iff.2 h'))

/-- Where the namespace `default` is put before a text that writes a table name, it is put before a
qualifier. -/
theorem Writes.of_default (h : t.Writes s) (h' : t'.Writes ("default:" ++ s)) : t = t' := by
  rcases h.count_colon with ⟨-, rfl⟩ | ⟨hone, -⟩
  · have hread : read? (TableName.text ⟨defaultSpace, s⟩) = some t' := read?_eq_some_iff.2 h'
    exact (read?_text.1 hread).2
  · rcases h'.count_colon with ⟨hcount, -⟩ | ⟨hcount, -⟩ <;>
      rw [count_colon_default] at hcount <;> omega

/-- Two texts write the same table name if they are equal, but for the namespace `default`. -/
theorem Writes.eq_iff (h : t.Writes s) (h' : t'.Writes s') :
    t = t' ↔ s = s' ∨ s = "default:" ++ s' ∨ s' = "default:" ++ s := by
  constructor
  · rintro rfl
    rcases h.count_colon with ⟨-, ht⟩ | ⟨-, hs⟩ <;> rcases h'.count_colon with ⟨-, ht'⟩ | ⟨-, hs'⟩
    · exact .inl (congrArg qualifier (ht.symm.trans ht'))
    · rw [ht] at hs'
      exact .inr (.inr hs')
    · rw [ht'] at hs
      exact .inr (.inl hs)
    · exact .inl (hs.trans hs'.symm)
  · rintro (rfl | rfl | rfl)
    · exact h.unique h'
    · exact (h'.of_default h).symm
    · exact h.of_default h'

end TableName

/-- **Tables are read as they are written.**  The texts that are read are those that write a table
name, and that name is read; every other text is quoted in an error.  A printed name is read back
if it is legible, and else refused; and two texts write the same name only if they are equal but
for the namespace `default`. -/
theorem tables_read_as_written :
    (∀ (s : String) (t : TableName), TableName.parse s = .ok t ↔ t.Writes s) ∧
    (∀ s : String, TableName.parse s = .error (.table s) ↔ ¬ ∃ t : TableName, t.Writes s) ∧
    (∀ t : TableName, TableName.parse t.text =
      if t.Legible then .ok t else .error (.table t.text)) ∧
    ∀ {s s' : String} {t t' : TableName}, t.Writes s → t'.Writes s' →
      TableName.parse t.text = .ok t ∧
        (t = t' ↔ s = s' ∨ s = "default:" ++ s' ∨ s' = "default:" ++ s) := by
  refine ⟨fun s t => ?_, fun s => ?_, TableName.parse_text,
    fun {s s' t t'} h h' => ⟨?_, h.eq_iff h'⟩⟩
  · rw [TableName.parse_eq_ok, TableName.read?_eq_some_iff]
  · rw [TableName.parse_eq_error, not_exists]
    exact forall_congr' fun t => not_congr TableName.read?_eq_some_iff
  · rw [TableName.parse_text, if_pos h.legible]

/-- With and without the namespace `default`. -/
theorem tables_read_as_written_default :
    TableName.parse "default:users" = TableName.parse "users" ∧
      TableName.parse "users" = .ok ⟨"default", "users"⟩ ∧
      TableName.parse (TableName.text ⟨"default", "users"⟩) = .ok ⟨"default", "users"⟩ := by
  have hfull : TableName.Writes ⟨"default", "users"⟩ ("default" ++ ":" ++ "users") :=
    .full (by decide) (by decide) (by decide) (by decide)
  have hbare : TableName.Writes ⟨TableName.defaultSpace, "users"⟩ "users" :=
    .bare (by decide) (by decide)
  obtain ⟨hreads, -, -, hprints⟩ := tables_read_as_written
  obtain ⟨hagain, hsame⟩ := hprints hfull hbare
  have hbareRead := (hreads _ _).2 hbare
  have hname := hsame.2 (.inr (.inl rfl))
  exact ⟨((hreads _ _).2 hfull).trans ((congrArg _ hname).trans hbareRead.symm), hbareRead, hagain⟩

/-- The text of a name with a colon in a part has more than one of them, and is refused. -/
example : TableName.parse (TableName.text ⟨"a", "b:c"⟩) = .error (.table "a:b:c") := by
  decide +kernel

end ServerGroups
