/-
ServerGroups/World/Requests.lean

Meeting the requests of programs: a program runs on a world until it ends or
has to wait.

A call through the coordinator is remembered before it meets the faults, and
only then served.
-/
import ServerGroups.World.Basic

namespace ServerGroups

/-- How a request was met. -/
inductive Reply (α : Type) where
  | answered (answer : α)
  | failed (cause : Error)
  | crashed
  | waiting

/-- How far a program came: to a result, to an error, to a crash, or to a request for which it has
to wait, with the rest of the program. -/
inductive Progress (α : Type) where
  | returned (result : α)
  | failed (cause : Error)
  | crashed
  | waiting (rest : Program α)

namespace World

/-! ### Calls -/

/-- Lets the services answer a call, and keeps what they report. -/
def serve (w : World) (c : Call) : Except ServiceError c.Answer × World :=
  let served := w.site.serve c
  let w := served.notices.foldl report { w with site := served.site }
  (served.answer, if served.answer.isOk then w.remember c else w)

/-- Makes a call: it is remembered, it meets the faults of its name, and it is served. -/
def make (w : World) (c : Call) : Reply c.Answer × World :=
  let w := { w with history := { w.history with calls := w.history.calls.push c } }
  let (effect, faults) := Fault.meet c.name w.faults
  let w := { w with faults }
  match effect with
  | some .crashes => (.crashed, w)
  | some (.fails cause) => (.failed (.unavailable cause), w)
  | none =>
    match w.serve c with
    | (.ok answer, w) => (.answered answer, w)
    | (.error cause, w) => (.failed (.unavailable cause), w)

/-- Calls a service; a hook that no one listens to is answered at once. -/
def consult (w : World) : (c : Call) → Reply c.Answer × World
  | .hook h => if w.site.observer.isPresent then w.make (.hook h) else (.answered (), w)
  | c => w.make c

/-- Starts the drain of a move; it takes over the membership lock and the reservation of the
running operation. -/
def launch (w : World) (servers : ServerSet) (source target : String) : World :=
  { w with
    moves := w.moves.push (Move.start w.config servers source target w.now)
    locks := w.locks.handOver .membership .operation (.move w.moves.size)
    held := ∅ }

/-- Meets a request of the running operation. -/
def meet (w : World) : (r : Request) → Reply r.Answer × World
  | .call c => w.consult c
  | .note n => (.answered (), w.report n)
  | .lock lock shared holder =>
    if w.locks.isFree lock shared then
      (.answered (), { w with locks := w.locks.grant ⟨lock, shared, holder⟩ })
    else (.waiting, w)
  | .unlock lock => (.answered (), { w with locks := w.locks.release lock .operation })
  | .reservations => (.answered w.reservations, w)
  | .reserve servers target =>
    match w.reservations.reserve servers target with
    | .ok reservations => (.answered (), { w with reservations, held := servers })
    | .error cause => (.failed (.refused cause), w)
  | .launch servers source target => (.answered w.moves.size, w.launch servers source target)
  | .join number =>
    match w.moves[number]? with
    | some m =>
      match m.ending with
      | some ending => (.answered ending, w)
      | none => (.waiting, w)
    | none => (.answered .completed, w)

/-- Runs a program until it ends or has to wait. -/
def run {α : Type} : Program α → World → Progress α × World
  | .done result, w => (.returned result, w)
  | .fail cause, w => (.failed cause, w)
  | .ask request next, w =>
    match w.meet request with
    | (.answered answer, w) => run (next answer) w
    | (.failed cause, w) => (.failed cause, w)
    | (.crashed, w) => (.crashed, w)
    | (.waiting, w) => (.waiting (.ask request next), w)

/-- Gives back everything that the running operation holds. -/
def letGo (w : World) : World :=
  { w with
    locks := w.locks.releaseAll .operation
    reservations := w.reservations.release w.held
    held := ∅ }

end World

end ServerGroups
