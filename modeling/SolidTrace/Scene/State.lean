import SolidTrace.Motion.Drive
import SolidTrace.Scene.Frame
import SolidTrace.Tracing.Shade

/-!
What the workers of a scene share.

Every object has a placement of its own and, worked out from the placements above it, a place in the
world. From these `publish` takes the snapshot that rendering and tracing read.
-/

namespace SolidTrace

structure ObjectState (S : Type) where
  placement : Placement S
  /-- The time to which it has been animated. -/
  lastTime : Int
  world : Transform S

structure SceneState (S : Type) where
  arena : Arena S
  spec : FrameSpec
  /-- The time of the last update; none before the first one. -/
  clock : Option Int
  /-- The cameras as they take turns: the current one is driven. -/
  rig : CameraRig
  /-- The camera from which workers render. -/
  camera : Nat
  objects : Array (ObjectState S)
  poses : Array (Option (Pose S))
  snapshot : Snapshot S
  kernel : Kernel
  fsaa : Fsaa
  options : Options
  frame : Frame

namespace Arena

variable {S : Type}

/-- The objects from an object up to the root, if there are no more than `count`. -/
def climb (a : Arena S) : (count object : Nat) → Except Fault (List Nat)
  | 0, _ => .error .endless
  | count + 1, object => do
    match (← fetch a.objects object).parent with
    | none => return [object]
    | some parent => return object :: (← a.climb count parent)

/-- The objects from an object up to the root. A way over more objects than there are comes back to
one of them, and has no end. -/
def lineage (a : Arena S) (object : Nat) : Except Fault (List Nat) :=
  a.climb (a.objects.size + 1) object

end Arena

namespace SceneState

variable {S : Type} [Scalar S]

/-- A scene before anything is placed. -/
def initial (arena : Arena S) (spec : FrameSpec) (kernel : Kernel) : SceneState S where
  arena
  spec
  clock := none
  rig := CameraRig.ofCount arena.cameras.size
  camera := 0
  objects := arena.objects.map fun o => ⟨o.placement, o.time, Transform.identity⟩
  poses := Array.replicate arena.surfaces.size none
  snapshot := Snapshot.empty
  kernel
  fsaa := .off
  options := Options.none
  frame := Frame.blank (rowStride spec.width kernel.lanes) spec.height

def tracer (s : SceneState S) : Tracer S := ⟨s.arena, s.snapshot, s.options⟩

/-- The map from the frame of an object to that of the one above it. -/
def placeOf (s : SceneState S) (object : Nat) : Except Fault (Transform S) := do
  return (← fetch s.objects object).placement.toTransform

/-- The place in the world as it was last worked out. -/
def worldOf (s : SceneState S) (object : Nat) : Except Fault (Transform S) := do
  return (← fetch s.objects object).world

/-- Where an object stands by the present placements. -/
def placedWorld (s : SceneState S) (object : Nat) : Except Fault (Transform S) := do
  (← s.arena.lineage object).foldrM (fun o t => return t.comp (← s.placeOf o)) Transform.identity

/-! ### Snapshots -/

/-- The box around an array in the world, given its volume. -/
def arrayBox (s : SceneState S) (volume : Volume S) (node : ArrayNode S) : Except Fault (Box S) :=
  match node.object with
  | none => .ok volume.bounds
  | some object => do return volume.bounds.transformed (← s.worldOf object)

/-- The boxes around the arrays in the world. The volumes are taken from the present placements, so
that animated elements stay inside. -/
def arrayBounds (s : SceneState S) : Except Fault (Array (Box S)) := do
  ((← s.arena.measure s.placeOf).zip s.arena.arrays).mapM fun (volume, node) =>
    s.arrayBox volume node

/-- The world as it stands. -/
def currentWorld (s : SceneState S) : Except Fault (Snapshot S) := do
  return {
    poses := s.poses
    arrayBounds := ← s.arrayBounds
    cameras := ← s.arena.cameras.mapM fun c => return ⟨← s.worldOf c.object, c.camera⟩
    lights := ← s.arena.lights.mapM fun l => return ⟨(← s.worldOf l.object).origin, l.light⟩ }

def publish (s : SceneState S) : Except Fault (SceneState S) := do
  return { s with snapshot := ← s.currentWorld }

/-! ### Cameras -/

/-- Moves the current camera, for the seconds since the last update. -/
def drive (s : SceneState S) (time : Int) (action : CameraAction) :
    Except Fault (SceneState S) :=
  if action = .none then return s
  else do
    let c ← fetch s.arena.cameras s.rig.current
    let o ← fetch s.objects c.object
    let placement := action.apply c.camera (secondsSince s.clock time) o.placement
    return { s with objects := s.objects.setIfInBounds c.object { o with placement } }

end SceneState

end SolidTrace
