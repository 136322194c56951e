import SolidTrace.Work.Pool

/-!
The scheduler in front of a pool.

A failed dispatch blocks every later one until it is acknowledged.
-/

namespace SolidTrace

structure Scheduler (W : Type) where
  pool : Pool W
  blocked : Bool
  dispatches : Nat

namespace Scheduler

variable {W : Type}

def ofPool (pool : Pool W) : Scheduler W := ⟨pool, false, 0⟩

def dispatch (s : Scheduler W) (c : Command) (w : W) :
    Except DispatchError Unit × Scheduler W × W :=
  if s.blocked then (.error .unacknowledged, s, w)
  else
    match s.pool.dispatch c w with
    | ([], w) => (.ok (), { s with dispatches := s.dispatches + 1 }, w)
    | (failures, w) =>
      (.error (.workers c.kind failures),
        { s with blocked := true, dispatches := s.dispatches + 1 }, w)

/-- Dispatches commands in turn up to the first failure. -/
def dispatchAll (s : Scheduler W) : List Command → W → Except DispatchError Unit × Scheduler W × W
  | [], w => (.ok (), s, w)
  | c :: rest, w =>
    match s.dispatch c w with
    | (.ok (), s, w) => dispatchAll s rest w
    | failed => failed

/-- The phases of an update. -/
def updatePhases : List UInt16 := [1, 2, 3]

def update (s : Scheduler W) (w : W) : Except DispatchError Unit × Scheduler W × W :=
  s.dispatchAll (updatePhases.map Command.update) w

def render (s : Scheduler W) (w : W) : Except DispatchError Unit × Scheduler W × W :=
  s.dispatch (Command.render 0) w

/-- Clears a failure; tells whether there was one. -/
def acknowledge (s : Scheduler W) : Bool × Scheduler W := (s.blocked, { s with blocked := false })

end Scheduler

end SolidTrace
