/-
ServerGroups/Proofs/Drains/Turns.lean

A drain from its start to its end, with whatever happens between its passes.

What happens is a list of turns: the next pass of the drain, the passing of
time, or something around the drain, which is a parameter.  `World.after` plays
the turns one after the other.  Once the drain is over a pass changes nothing
any more, so the passes that a drain makes are those of the turns, up to the
last one that it needs.

Design.  A drain is told by the handle that the start of its move answered.  A
move of no servers has no drain, and its handle no number; it is over at once.
-/
import ServerGroups.Proofs.Runs.Drain
import ServerGroups.Proofs.Runs.ServerMove
import ServerGroups.Scenario.Run

namespace ServerGroups

/-- What happens while a drain runs: something around it, the passing of time, or its next pass. -/
inductive Turn (α : Type) where
  | around (what : α)
  | tick (time : Nat)
  | pass
deriving DecidableEq

namespace World

variable {α : Type} {w w' : World}

/-- The next pass of a drain, if it is not over. -/
def nextPass (w : World) : (handle : Option Nat) → World
  | none => w
  | some number =>
    match w.moves[number]? with
    | some m => if m.ending.isNone then w.pass number m else w
    | none => w

/-- The world after a turn. -/
def turn (around : World → α → World) (handle : Option Nat) (w : World) : Turn α → World
  | .around what => around w what
  | .tick time => w.advance time
  | .pass => w.nextPass handle

/-- The world after some turns. -/
def after (around : World → α → World) (handle : Option Nat) (w : World) (turns : List (Turn α)) :
    World :=
  turns.foldl (turn around handle) w

/-- The drain of a move has ended, or there is none. -/
def Over (w : World) (handle : Option Nat) : Prop :=
  ∀ number m, handle = some number → w.moves[number]? = some m → m.ending ≠ none

/-- How many passes the drain of a move has made. -/
def passesOf (w : World) (handle : Option Nat) : Nat :=
  match handle.bind fun number => w.moves[number]? with
  | some m => m.passes
  | none => 0

/-- Waiting for a move; one without a number is over. -/
def await (w : World) : (handle : Option Nat) → Outcome Unit × World
  | none => (.returned (), w)
  | some number => w.operate (.awaitMove number)

variable {around : World → α → World} {handle : Option Nat} {turns turns' : List (Turn α)}

theorem after_append : w.after around handle (turns ++ turns') =
    (w.after around handle turns).after around handle turns' :=
  List.foldl_append

theorem nextPass_of_running {number : Nat} {m : Move} (hm : w.Running number m) :
    w.nextPass (some number) = w.pass number m := by
  simp [nextPass, hm.1, hm.2]

theorem nextPass_of_over (h : w.Over handle) : w.nextPass handle = w := by
  unfold nextPass
  split
  · rfl
  · next number =>
    split
    · next m hm =>
      have hending := h number m rfl hm
      rw [if_neg (by simpa using hending)]
    · rfl

/-- A pass of a drain that is not over. -/
theorem nextPass_cases (w : World) (handle : Option Nat) :
    (w.Over handle ∧ w.nextPass handle = w) ∨
      ∃ number m, handle = some number ∧ w.Running number m ∧
        w.Swept number m (w.nextPass handle) := by
  by_cases h : w.Over handle
  · exact .inl ⟨h, nextPass_of_over h⟩
  · unfold Over at h
    push Not at h
    obtain ⟨number, m, rfl, hm, he⟩ := h
    have hrunning : w.Running number m := ⟨hm, he⟩
    refine .inr ⟨number, m, rfl, hrunning, ?_⟩
    rw [nextPass_of_running hrunning]
    exact swept_pass w number m

/-- Waiting for a move that has been completed returns at once. -/
theorem await_of_completed {number : Nat} {m : Move} (hm : w.moves[number]? = some m)
    (he : m.ending = some .completed) : w.await (some number) = (.returned (), w.letGo) := by
  have hmeet : w.meet (.join number) = (.answered .completed, w) := by
    simp only [meet, hm, he]
  have hrun : run (Coordinator.awaitMove number) w = (.returned (), w) := by
    show run (.ask (.join number) _) w = _
    rw [run, hmeet]
    rfl
  exact (operate_eq (by simp) w).trans (perform_of_returned hrun)

/-- A move that has been started has no servers, or was launched where the membership lock was free;
what the passes of other drains keep holds there. -/
theorem startMove_cases {J : World → Prop} (hn : ∀ v, J v → v.site.registry.Named)
    (hadvance : ∀ v time, J v → J (v.advance time))
    (hpass : ∀ v v' number m, J v → Swept v number m v' → J v')
    {servers : ServerSet} {target : String} (hw : J w)
    (h : w.operate (.startMove servers target) = (.returned handle, w')) :
    (handle = none ∧ servers.toList = []) ∨ ∃ v source x, J v ∧
      Launches servers source target v x ∧ handle = some v.moves.size ∧ w' = x.letGo := by
  let T : Terms := ⟨False, fun _ v => J v, fun _ _ => True⟩
  have hT : T.Stable := ⟨fun hv time => hadvance _ time hv,
    fun {_ v number m} hv _ _ => hpass v _ number m hv (swept_pass v number m)⟩
  have hfound : ∀ v, T.Found (.lock .membership false .operation) w v → J v := by
    rintro v (rfl | ⟨-, hv⟩)
    · exact hw
    · exact hv
  have hstart : (Coordinator.startMove servers target).Ensures T.rule (fun handle x =>
      (handle = none ∧ servers.toList = []) ∨ ∃ (v : World) (source : String), J v ∧
        v.Launches servers source target x ∧ handle = some v.moves.size) w :=
    Terms.ensures_startMove (T := T) False.elim (fun _ _ => hw) False.elim
      (fun v hv => hn v (hfound v hv.found)) (fun _ _ => trivial) (fun _ _ _ _ _ _ => trivial)
      (fun _ _ _ _ _ _ => trivial)
      (fun v source x hv _ hx => .inr ⟨v, source.name, hfound v hv.found, hx, rfl⟩)
      fun x hempty _ => .inl ⟨rfl, hempty⟩
  have hends := Terms.operate_concludes (o := .startMove servers target) hT (by simp) hstart
  rw [h] at hends
  obtain ⟨x, hx | ⟨v, source, hv, hx, rfl⟩, rfl⟩ := hends
  · exact .inl hx
  · exact .inr ⟨v, source, x, hv, hx, rfl, rfl⟩

/-- A move that has been started has no servers, or was launched from a registry in which every
group is stored under its own name. -/
theorem launches_of_startMove (hn : w.site.registry.Named) {servers : ServerSet} {target : String}
    (h : w.operate (.startMove servers target) = (.returned handle, w')) :
    (handle = none ∧ servers.toList = []) ∨ ∃ v source x, v.site.registry.Named ∧
      Launches servers source target v x ∧ handle = some v.moves.size ∧ w' = x.letGo :=
  startMove_cases (J := fun v => v.site.registry.Named) (fun _ hv => hv) (fun _ _ hv => hv)
    (fun v v' number m hv hv' => by rw [hv'.services.1]; exact hv) hn h

end World

end ServerGroups
