/-
ServerGroups/Program.lean

What an operation does, as data: a tree of requests, each followed by one way
to go on for every answer.

A program asks the services, reports, takes and gives back locks, reserves
servers, and starts or awaits the drain of a move.  It ends with a result or
with an error of its own.

Design.  A program says nothing about how its requests are met.  A request that
cannot be met leaves the rest of the program as a value to go on with later,
and a request that fails ends it; neither is written out in an operation.
-/
import ServerGroups.Notice
import ServerGroups.Locks
import ServerGroups.Reservations

namespace ServerGroups

/-- How the drain of a move ended. -/
inductive Ending where
  | completed
  | failed (cause : Error)
  | crashed

/-- A request of a program. -/
inductive Request where
  /-- Calls a service. -/
  | call (call : Call)
  /-- Reports. -/
  | note (notice : Notice)
  /-- Takes a lock, waiting until it is free. -/
  | lock (lock : Lock) (shared : Bool) (holder : Holder)
  /-- Gives a lock of the operation back. -/
  | unlock (lock : Lock)
  /-- Looks at the servers that are being moved. -/
  | reservations
  /-- Reserves servers for a move; they are given back when the operation ends, unless a drain has
  taken them over. -/
  | reserve (servers : ServerSet) (target : String)
  /-- Starts the drain of a move, which takes over the membership lock and the reservation. -/
  | launch (servers : ServerSet) (source target : String)
  /-- Waits until the drain of a move has ended. -/
  | join (move : Nat)

/-- What a request answers. -/
abbrev Request.Answer : Request → Type
  | call c => c.Answer
  | reservations => Reservations
  | launch .. => Nat
  | join _ => Ending
  | note _ | lock .. | unlock _ | reserve .. => Unit

/-- A tree of requests. -/
inductive Program (α : Type) where
  | done (result : α)
  | fail (cause : Error)
  | ask (request : Request) (next : request.Answer → Program α)

namespace Program

variable {α β : Type}

/-! ### Putting programs together -/

/-- The first program, and then the one that its result selects. -/
def bind : Program α → (α → Program β) → Program β
  | done a, f => f a
  | fail e, _ => fail e
  | ask r next, f => ask r fun answer => (next answer).bind f

instance : Monad Program where
  pure := done
  bind := bind

@[simp] theorem bind_done (a : α) (f : α → Program β) : (done a >>= f) = f a := rfl

@[simp] theorem bind_fail (e : Error) (f : α → Program β) :
    ((fail e : Program α) >>= f) = fail e := rfl

@[simp] theorem bind_ask (r : Request) (next : r.Answer → Program α) (f : α → Program β) :
    (ask r next >>= f) = ask r fun answer => next answer >>= f := rfl

theorem bind_pure (p : Program α) : (p >>= pure) = p := by
  induction p with
  | done a => rfl
  | fail e => rfl
  | ask r next ih => exact congrArg (ask r) (funext ih)

theorem bind_assoc {γ : Type} (p : Program α) (f : α → Program β) (g : β → Program γ) :
    ((p >>= f) >>= g) = (p >>= fun a => f a >>= g) := by
  induction p with
  | done a => rfl
  | fail e => rfl
  | ask r next ih => exact congrArg (ask r) (funext ih)

instance : LawfulMonad Program :=
  LawfulMonad.mk' Program (fun p => bind_pure p) (fun _ _ => rfl) bind_assoc

/-! ### Single requests -/

/-- Calls a service. -/
def call (c : Call) : Program c.Answer := ask (.call c) done

/-- Calls a hook, if there is an observer. -/
def hook (h : Hook) : Program Unit := ask (.call (.hook h)) done

/-- Reports. -/
def note (n : Notice) : Program Unit := ask (.note n) done

/-- Refuses to go on. -/
def refuse (cause : Refusal) : Program α := fail (.refused cause)

/-- Refuses to go on if a condition holds. -/
def refuseIf (p : Prop) [Decidable p] (cause : Refusal) : Program Unit :=
  if p then refuse cause else pure ()

/-- Runs a program while holding a lock alone. -/
def holding (l : Lock) (body : Program α) : Program α := do
  ask (.lock l false .operation) done
  let result ← body
  ask (.unlock l) done
  pure result

end Program

end ServerGroups
