import SolidTrace.Work.Command

/-!
Worker pools.

A pool runs a command on every slice of a shared state and lists the slices that failed, by worker.
One slice's failure does not keep the others from running.
-/

namespace SolidTrace

inductive SliceError
  /-- The slice gave up with a reason. -/
  | failed (reason : String)
  /-- The slice broke off. -/
  | panicked (reason : String)
deriving DecidableEq, Repr

namespace SliceError

/-- The failure of a slice that broke off, with the text it left if there is one. -/
def ofPanic (text : Option String) : SliceError :=
  panicked (text.getD "non-string panic payload")

def message : SliceError → String
  | failed reason => reason
  | panicked reason => s!"panicked: {reason}"

end SliceError

structure Failure where
  worker : Nat
  phase : UInt16
  error : SliceError
deriving DecidableEq, Repr

namespace Failure

def message (f : Failure) : String := s!"worker {f.worker} (phase {f.phase}): {f.error.message}"

end Failure

/-- The work of slice `index` out of `count` on a shared state. -/
def SliceRunner (W : Type) : Type :=
  Command → (index count : Nat) → W → Except SliceError Unit × W

namespace SliceRunner

variable {W : Type}

/-- Runs one slice; a command to exit is no work. -/
def slice (run : SliceRunner W) (c : Command) (index count : Nat) (w : W) : Option Failure × W :=
  match c.kind with
  | .exit => (none, w)
  | _ =>
    match run c index count w with
    | (.ok (), w) => (none, w)
    | (.error e, w) => (some ⟨index, c.phase, e⟩, w)

/-- Runs the slice with a number after others, and notes its failure behind theirs. -/
def next (run : SliceRunner W) (c : Command) (count : Nat) :
    List Failure × W → (index : Nat) → List Failure × W
  | (failures, w), index =>
    match run.slice c index count w with
    | (none, w) => (failures, w)
    | (some failure, w) => (failures ++ [failure], w)

/-- Runs the slices with the given numbers in turn. -/
def slices (run : SliceRunner W) (c : Command) (count : Nat) (l : List Nat) (w : W) :
    List Failure × W :=
  l.foldl (run.next c count) ([], w)

end SliceRunner

inductive DispatchError
  | workers (kind : CommandKind) (failures : List Failure)
  | unacknowledged
  | spawn (worker : Nat) (reason : String)
deriving DecidableEq, Repr

namespace DispatchError

def message : DispatchError → String
  | workers kind failures =>
    let list := "; ".intercalate (failures.map Failure.message)
    s!"{kind.name} dispatch failed: {list}"
  | unacknowledged => "previous dispatch failure has not been acknowledged"
  | spawn worker reason => s!"failed to spawn worker {worker}: {reason}"

/-- The workers that an error names. -/
def workerIndices : DispatchError → List Nat
  | workers _ failures => failures.map (·.worker)
  | unacknowledged => []
  | spawn worker _ => [worker]

end DispatchError

structure Pool (W : Type) where
  threads : Nat
  dispatch : Command → W → List Failure × W

namespace Pool

variable {W : Type}

/-- Runs the slices one after the other. -/
def inline (threads : Nat) (run : SliceRunner W) : Pool W :=
  let threads := max threads 1
  ⟨threads, fun c w => run.slices c threads (List.range threads) w⟩

/-- Runs the slices on workers that meet before and after every command, and that are not woken by a
command to exit. -/
def threaded (threads : Nat) (run : SliceRunner W) : Pool W :=
  let threads := max threads 1
  ⟨threads, fun c w =>
    if c.kind = .exit then ([], w) else run.slices c threads (List.range threads) w⟩

end Pool

/-- A way to set up a pool for a number of workers. -/
def PoolFactory (W : Type) : Type := Nat → SliceRunner W → Except DispatchError (Pool W)

namespace PoolFactory

variable {W : Type}

def inline : PoolFactory W := fun threads run => .ok (Pool.inline threads run)

def threaded : PoolFactory W := fun threads run => .ok (Pool.threaded threads run)

/-- Never gets its first worker started. -/
def failing (reason : String) : PoolFactory W := fun _ _ => .error (.spawn 0 reason)

end PoolFactory

end SolidTrace
