import SolidTrace.Scene.State
import SolidTrace.Work.Pool
import SolidTrace.Work.Share

/-!
The work of one slice.

A command gives each slice a list of tasks. A task writes one object, one surface or one row of the
frame and nothing else; a slice stops at the first of its tasks that fails.
-/

namespace SolidTrace

inductive Task
  /-- Animates an object up to the time of the update. -/
  | advance (object : Nat)
  /-- Works out where an object stands in the world. -/
  | resolve (object : Nat)
  /-- Places a surface in the world. -/
  | place (surface : Nat)
  /-- Renders a row of the frame. -/
  | draw (row : Nat)
deriving DecidableEq, Repr

/-- What a task writes. -/
inductive Write (S : Type)
  | nothing
  | object (id : Nat) (o : ObjectState S)
  | pose (surface : Nat) (p : Option (Pose S))
  | pixels (l : List Store)

/-- A lookup that misses breaks a slice off. -/
def SliceError.ofFault (f : Fault) : SliceError := .panicked f.message

namespace SceneState

variable {S : Type} [Scalar S]

/-! ### Tasks -/

def advance (s : SceneState S) (object : Nat) : Except SliceError (Write S) := do
  let node ← (fetch s.arena.objects object).mapError .ofFault
  match node.animator with
  | none => return .nothing
  | some animator =>
    let o ← (fetch s.objects object).mapError .ofFault
    let time := s.clock.getD 0
    let about : Animated S := ⟨object, node.placement, node.time⟩
    let placement ← (animator time o.lastTime about o.placement).mapError .panicked
    return .object object { o with placement, lastTime := time }

def resolve (s : SceneState S) (object : Nat) : Except Fault (Write S) := do
  let world ← s.placedWorld object
  return .object object { ← fetch s.objects object with world }

def place (s : SceneState S) (surface : Nat) : Except Fault (Write S) := do
  let node ← fetch s.arena.surfaces surface
  let world ← s.worldOf node.object
  return .pose surface (Pose.place? node.quadric node.clip node.bounds world)

/-- The samples of a row of pixels, pixel by pixel. -/
def rowSamples (s : SceneState S) (y : Nat) : Except Fault (Array Color) := do
  let view ← fetch s.snapshot.cameras s.camera
  let samples ← (List.range s.spec.width).mapM fun x =>
    s.fsaa.offsets.mapM fun (ox, oy) =>
      s.tracer.sample view (Scalar.ofInt x + ox) (Scalar.ofInt y + oy) s.spec.width s.spec.height
  return samples.flatten.toArray

/-- The words of the visible pixels of a row. -/
def rowWords (s : SceneState S) (y : Nat) : Except Fault (List UInt32) := do
  s.kernel.resolve (← s.rowSamples y) s.fsaa.samples s.spec.width

def draw (s : SceneState S) (y : Nat) : Except Fault (Write S) := do
  let stores := s.frame.rowStores y (← s.rowWords y)
  let () ← s.frame.check stores
  return .pixels stores

/-- What a task comes to write. -/
def result (s : SceneState S) : Task → Except SliceError (Write S)
  | .advance object => s.advance object
  | .resolve object => (s.resolve object).mapError .ofFault
  | .place surface => (s.place surface).mapError .ofFault
  | .draw row => (s.draw row).mapError .ofFault

def apply (s : SceneState S) : Write S → SceneState S
  | .nothing => s
  | .object id o => { s with objects := s.objects.setIfInBounds id o }
  | .pose surface p => { s with poses := s.poses.setIfInBounds surface p }
  | .pixels l => { s with frame := s.frame.storeAll l }

/-- Performs tasks in turn up to the first failure. -/
def performAll (s : SceneState S) : List Task → Except SliceError Unit × SceneState S
  | [] => (.ok (), s)
  | t :: rest =>
    match s.result t with
    | .ok w => (s.apply w).performAll rest
    | .error e => (.error e, s)

/-! ### Slices -/

/-- The tasks of all slices in a phase of an update. -/
def phaseTasks (s : SceneState S) (phase : Nat) : Except SliceError (Nat × (Nat → Task)) :=
  match phase with
  | 1 => .ok (s.objects.size, .advance)
  | 2 => .ok (s.objects.size, .resolve)
  | 3 => .ok (s.poses.size, .place)
  | other => .error (.failed s!"unknown update phase {other}")

/-- The items of a slice in a phase; a serial phase is left to the first slice. -/
def items (s : SceneState S) (phase index count total : Nat) : List Nat :=
  if s.options.serialPhase phase then if index = 0 then List.range total else []
  else (share index count total).toList

def tasks (s : SceneState S) (c : Command) (index count : Nat) : Except SliceError (List Task) :=
  match c.kind with
  | .update => do
    let (total, task) ← s.phaseTasks c.phase.toNat
    return (s.items c.phase.toNat index count total).map task
  | .render =>
    if s.camera < s.snapshot.cameras.size then
      .ok (((bands index count s.spec.height s.spec.tileHeight).flatMap Span.toList).map .draw)
    else .error (.failed "current camera out of range")
  | .exit => .ok []

/-- Runs one slice of a command. -/
def runner : SliceRunner (SceneState S) := fun c index count s =>
  match s.tasks c index count with
  | .error e => (.error e, s)
  | .ok l => s.performAll l

end SceneState

end SolidTrace
