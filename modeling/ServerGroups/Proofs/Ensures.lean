/-
ServerGroups/Proofs/Ensures.lean

What a program ensures, told from its requests alone.

A program is a tree of requests, so a statement about all of its runs is a
recursion over that tree.  A `Rule` says, for a state of any type, what a
request needs of the state and what may be answered; `p.Ensures R post x` says
that the program `p`, started in the state `x`, meets the needs of every
request that it comes to, and that it ends in a state that satisfies `post`
unless it fails.

Design.  The rule is a parameter, so that each theory looks at a state of its
own: the registry alone, or the whole world with what happens around it.  The
lemmas here are about sequences, branches and loops, which are the same for
all of them.
-/
import Mathlib.Tactic
import ServerGroups.Program

namespace ServerGroups

universe u

/-- What requests need of a state and what may come of them. -/
structure Rule (σ : Type u) where
  /-- That a request may be made in a state, and that whatever it is answered leads to a state that
  satisfies the condition given. -/
  ask : (q : Request) → (q.Answer → σ → Prop) → σ → Prop
  /-- That a program may fail in a state. -/
  fail : Error → σ → Prop

variable {σ : Type u} {α β : Type}

/-- A rule is monotone if a weaker condition is easier to meet. -/
def Rule.Monotone (R : Rule σ) : Prop :=
  ∀ {q : Request} {post post' : q.Answer → σ → Prop} {x : σ},
    (∀ a y, post a y → post' a y) → R.ask q post x → R.ask q post' x

namespace Program

/-- Every run of a program from a state meets the rule, and ends in a state that satisfies `post`
if the program returns. -/
def Ensures (R : Rule σ) (post : α → σ → Prop) : Program α → σ → Prop
  | done a, x => post a x
  | fail cause, x => R.fail cause x
  | ask q next, x => R.ask q (fun answer y => (next answer).Ensures R post y) x

variable {R : Rule σ} {post post' : α → σ → Prop} {x : σ}

/-! ### Single steps -/

@[simp] theorem ensures_done {a : α} : (done a).Ensures R post x ↔ post a x := Iff.rfl

@[simp] theorem ensures_pure {a : α} : (pure a : Program α).Ensures R post x ↔ post a x := Iff.rfl

@[simp] theorem ensures_fail {cause : Error} :
    (fail cause : Program α).Ensures R post x ↔ R.fail cause x := Iff.rfl

@[simp] theorem ensures_ask {q : Request} {next : q.Answer → Program α} :
    (ask q next).Ensures R post x ↔ R.ask q (fun a y => (next a).Ensures R post y) x := Iff.rfl

@[simp] theorem ensures_call {c : Call} {post : c.Answer → σ → Prop} :
    (call c).Ensures R post x ↔ R.ask (.call c) post x := Iff.rfl

@[simp] theorem ensures_hook {h : Hook} {post : Unit → σ → Prop} :
    (hook h).Ensures R post x ↔ R.ask (.call (.hook h)) post x := Iff.rfl

@[simp] theorem ensures_note {n : Notice} {post : Unit → σ → Prop} :
    (note n).Ensures R post x ↔ R.ask (.note n) post x := Iff.rfl

@[simp] theorem ensures_refuse {cause : Refusal} :
    (refuse cause : Program α).Ensures R post x ↔ R.fail (.refused cause) x := Iff.rfl

theorem ensures_refuseIf {p : Prop} [Decidable p] {cause : Refusal} {post : Unit → σ → Prop} :
    (refuseIf p cause).Ensures R post x ↔
      (p → R.fail (.refused cause) x) ∧ (¬ p → post () x) := by
  unfold refuseIf
  by_cases h : p <;> simp [h]

/-! ### Sequences -/

theorem Ensures.mono (hR : R.Monotone) (h : ∀ a y, post a y → post' a y) {p : Program α} :
    ∀ {x : σ}, p.Ensures R post x → p.Ensures R post' x := by
  induction p with
  | done a => exact fun {x} => h a x
  | fail cause => exact id
  | ask q next ih => exact fun {x} => hR fun a y => ih a

@[simp] theorem ensures_bind {p : Program α} {f : α → Program β} {post : β → σ → Prop} :
    (p >>= f).Ensures R post x ↔ p.Ensures R (fun a y => (f a).Ensures R post y) x := by
  have aux : ∀ p : Program α,
      (p >>= f).Ensures R post = p.Ensures R (fun a y => (f a).Ensures R post y) := by
    intro p
    induction p with
    | done a => rfl
    | fail cause => rfl
    | ask q next ih =>
      funext x
      exact congrArg (fun condition => R.ask q condition x) (funext ih)
  rw [aux p]

@[simp] theorem ensures_map {p : Program α} {f : α → β} {post : β → σ → Prop} :
    (f <$> p).Ensures R post x ↔ p.Ensures R (fun a y => post (f a) y) x := by
  rw [← bind_pure_comp]
  exact ensures_bind

theorem ensures_holding {l : Lock} {body : Program α} :
    (holding l body).Ensures R post x ↔ R.ask (.lock l false .operation)
      (fun _ y => body.Ensures R
        (fun a z => R.ask (.unlock l) (fun _ z' => post a z') z) y) x := by
  simp [holding]

/-- A loop ensures what each of its rounds keeps, and what each round finds out. -/
theorem ensures_forM (hR : R.Monotone) (inv : σ → Prop) (found : α → Prop) {l : List α}
    {f : α → Program Unit}
    (h : ∀ a ∈ l, ∀ y, inv y → (f a).Ensures R (fun _ z => inv z ∧ found a) y) :
    ∀ {x : σ}, inv x → (l.forM f).Ensures R (fun _ z => inv z ∧ ∀ a ∈ l, found a) x := by
  induction l with
  | nil =>
    intro x hx
    exact ⟨hx, fun a ha => absurd ha List.not_mem_nil⟩
  | cons a l ih =>
    intro x hx
    change (f a >>= fun _ => l.forM f).Ensures R (fun _ z => inv z ∧ ∀ b ∈ a :: l, found b) x
    rw [ensures_bind]
    refine (h a (by simp) x hx).mono hR fun _ y hy => ?_
    refine (ih (fun b hb => h b (by simp [hb])) hy.1).mono hR fun _ z hz => ⟨hz.1, ?_⟩
    intro b hb
    rcases List.mem_cons.1 hb with rfl | hb
    · exact hy.2
    · exact hz.2 b hb

end Program

end ServerGroups
