import SolidTrace.Arena.Error
import SolidTrace.Lanes.Substrate
import SolidTrace.Work.Pool

/-!
What can go wrong with a scene.
-/

namespace SolidTrace

inductive FrameError
  /-- A frame without pixels. -/
  | noPixels (width height : Nat)
  | noTileHeight
deriving DecidableEq, Repr

namespace FrameError

def message : FrameError → String
  | noPixels width height => s!"invalid frame: {width}x{height} frame"
  | noTileHeight => "invalid frame: tile height must be positive"

end FrameError

/-- What breaks off outside of the workers. It is put down to worker zero, and to phase zero, which
no update has. -/
def DispatchError.outside (e : SliceError) : DispatchError := .workers .update [⟨0, 0, e⟩]

/-- Why a scene cannot be set up. -/
inductive SceneError (S : Type)
  | invalidFrame (cause : FrameError)
  | compile (cause : CompileError S)
  | lanes (cause : LaneError)
  | pool (cause : DispatchError)
deriving Repr

namespace SceneError

def message {S : Type} [Scalar S] : SceneError S → String
  | invalidFrame cause => cause.message
  | compile cause => cause.message
  | lanes cause => cause.message
  | pool cause =>
    let cause := cause.message
    s!"failed to create worker pool: {cause}"

end SceneError

/-- Why a scene does not do what it is asked for. -/
inductive EngineError
  | dispatch (cause : DispatchError)
  /-- An earlier failure has not been acknowledged. -/
  | unacknowledged
  | sink (number : Nat) (reason : String)
deriving DecidableEq, Repr

namespace EngineError

def ofDispatch : DispatchError → EngineError
  | .unacknowledged => unacknowledged
  | cause => dispatch cause

def message : EngineError → String
  | dispatch cause => cause.message
  | unacknowledged => DispatchError.unacknowledged.message
  | sink number reason => s!"failed to save frame {number}: {reason}"

end EngineError

end SolidTrace
