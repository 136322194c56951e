import SolidTrace.Arena.Compile
import SolidTrace.Scene.Error
import SolidTrace.Scene.Platform
import SolidTrace.Scene.Task
import SolidTrace.Work.Scheduler

/-!
Scenes.

A scene is a compiled document with a pool of workers and a frame. An update moves everything to a
time and publishes a snapshot of the world; rendering and tracing read the snapshot only.
-/

namespace SolidTrace

structure Scene (S : Type) where
  state : SceneState S
  scheduler : Scheduler (SceneState S)
  substrate : Substrate
  /-- The SIMD configuration that was granted last. -/
  simd : LaneConfig
  ledger : Ledger
  allocator : Allocator

/-- A scene that was not set up, and the allocator with everything given back. -/
structure Refusal (S : Type) where
  error : SceneError S
  allocator : Allocator

/-- The pixels of the widest packet. -/
def maxLanes : Nat := 16

namespace FrameSpec

def check (spec : FrameSpec) : Except FrameError Unit :=
  if spec.width = 0 ∨ spec.height = 0 then .error (.noPixels spec.width spec.height)
  else if spec.tileHeight = 0 then .error .noTileHeight
  else .ok ()

/-- The words reserved for a frame: enough for every kernel. -/
def reserved (spec : FrameSpec) : Nat := rowStride spec.width maxLanes * spec.height

end FrameSpec

namespace SceneState

variable {S : Type} [Scalar S]

/-- Puts every object and every surface in its place. -/
def settle (s : SceneState S) : Except SliceError (SceneState S) :=
  match s.performAll ((List.range s.objects.size).map .resolve ++
    (List.range s.poses.size).map .place) with
  | (.ok (), s) => s.publish.mapError .ofFault
  | (.error e, _) => .error e

end SceneState

namespace Scene

variable {S : Type} [Scalar S]

/-! ### Setting up and giving back -/

/-- Gives a compiled document its frame and its workers. What breaks off on the way gives nothing
back. -/
def assemble (compiled : Compiled S) (spec : FrameSpec) (p : Platform S) (allocator : Allocator) :
    Except (Refusal S) (Scene S) := do
  let config ←
    match p.substrate.negotiate LaneConfig.automatic with
    | .ok config => pure config
    | .error e => throw ⟨.lanes e, compiled.ledger.releaseAll allocator⟩
  let (ledger, allocator) ←
    match compiled.ledger.acquire allocator "frame buffer" Layout.pixel spec.reserved with
    | (.ok ledger, allocator) => pure (ledger, allocator)
    | (.error shortage, allocator) =>
      throw ⟨.compile (.outOfMemory shortage), compiled.ledger.releaseAll allocator⟩
  let state ←
    match (SceneState.initial compiled.arena spec (Kernel.select config)).settle with
    | .ok state => pure state
    | .error e => throw ⟨.pool (.outside e), allocator⟩
  match p.pool (max p.threads 1) SceneState.runner with
  | .ok pool => return ⟨state, Scheduler.ofPool pool, p.substrate, config, ledger, allocator⟩
  | .error e => throw ⟨.pool e, ledger.releaseAll allocator⟩

/-- Sets a scene up from a document. -/
def create (document : Document S) (spec : FrameSpec) (p : Platform S) :
    Except (Refusal S) (Scene S) :=
  match spec.check with
  | .error e => .error ⟨.invalidFrame e, p.allocator⟩
  | .ok () =>
    match compile ⟨document, p.registry, p.images⟩ p.allocator with
    | (.error e, allocator) => .error ⟨.compile e, allocator⟩
    | (.ok compiled, allocator) => assemble compiled spec p allocator

/-- Ends a scene and gives back its memory. -/
def release (s : Scene S) : Allocator := s.ledger.releaseAll s.allocator

/-! ### Updating and rendering -/

/-- Moves the scene to a time, and the current camera by an action. The snapshot changes only when
all of it succeeds. -/
def update (s : Scene S) (time : Int) (action : CameraAction) :
    Except EngineError Unit × Scene S :=
  if s.scheduler.blocked then (.error .unacknowledged, s)
  else
    match s.state.drive time action with
    | .error f => (.error (.dispatch (.outside (.ofFault f))), s)
    | .ok driven =>
      match s.scheduler.update { driven with clock := some time } with
      | (.error e, scheduler, state) => (.error (.ofDispatch e), { s with scheduler, state })
      | (.ok (), scheduler, state) =>
        match state.publish with
        | .error f => (.error (.dispatch (.outside (.ofFault f))), { s with scheduler, state })
        | .ok state => (.ok (), { s with scheduler, state })

/-- Renders the snapshot into the frame. -/
def render (s : Scene S) : Except EngineError Unit × Scene S :=
  let (result, scheduler, state) := s.scheduler.render s.state
  (result.mapError .ofDispatch, { s with scheduler, state })

/-- Clears a failure; tells whether there was one. -/
def acknowledge (s : Scene S) : Bool × Scene S :=
  let (pending, scheduler) := s.scheduler.acknowledge
  (pending, { s with scheduler })

def isBlocked (s : Scene S) : Bool := s.scheduler.blocked

/-! ### Settings -/

/-- Asks for a SIMD configuration and gives the one that is used from now on. The frame is cleared
when its rows get another length. -/
def setSimd (s : Scene S) (request : LaneConfig) : Except LaneError LaneConfig × Scene S :=
  match s.substrate.negotiate request with
  | .error e => (.error e, s)
  | .ok config =>
    if config = s.simd then (.ok config, s)
    else
      let kernel := Kernel.select config
      let stride := rowStride s.state.spec.width kernel.lanes
      let frame :=
        if stride = s.state.frame.stride then s.state.frame
        else Frame.blank stride s.state.spec.height
      (.ok config, { s with simd := config, state := { s.state with kernel, frame } })

/-- Asks for an antialiasing level and gives the one that is used from now on. -/
def setFsaa (s : Scene S) (level : Nat) : Fsaa × Scene S :=
  let fsaa := s.substrate.negotiateFsaa level
  (fsaa, { s with state := { s.state with fsaa } })

def setOptions (s : Scene S) (options : Options) : Scene S :=
  { s with state := { s.state with options } }

/-- Turns to the next camera, and has workers render from it. -/
def nextCamera (s : Scene S) : Scene S :=
  let rig := s.state.rig.next
  { s with state := { s.state with rig, camera := rig.current } }

/-! ### Reading -/

def view (s : Scene S) : FrameView := ⟨s.state.spec.width, s.state.spec.height, s.state.frame⟩

/-- Hands the frame with a number to a sink, which keeps it or gives a reason why not. -/
def save {m : Type → Type} [Monad m] (s : Scene S) (number : Nat)
    (sink : Nat → FrameView → m (Except String Unit)) : m (Except EngineError Unit) := do
  return (← sink number s.view).mapError (.sink number)

/-- The nearest hit along a ray. -/
def trace (s : Scene S) (ray : Ray S) : Except Fault (Option (Hit S)) :=
  s.state.tracer.nearest ray Scalar.infinity

/-- The nearest hit through the middle of a pixel. -/
def tracePixel (s : Scene S) (x y : Nat) : Except Fault (Option (Hit S)) :=
  match s.state.snapshot.cameras[s.state.rig.current]? with
  | none => .ok none
  | some view =>
    s.trace (view.primaryRay (Scalar.ofInt x + 0.5) (Scalar.ofInt y + 0.5) s.state.spec.width
      s.state.spec.height)

/-- The box around an array in the world. -/
def arrayBounds? (s : Scene S) (array : Nat) : Option (Box S) :=
  s.state.snapshot.arrayBounds[array]?

def stats (s : Scene S) : Stats := s.state.arena.stats s.ledger.bytes

def allocated (s : Scene S) : Nat := s.allocator.allocated

end Scene

end SolidTrace
