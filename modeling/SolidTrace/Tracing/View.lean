import SolidTrace.Arena.Basic
import SolidTrace.Surface.Pose

/-!
The world as one update leaves it.
-/

namespace SolidTrace

/-- A camera in the world. -/
structure CameraView (S : Type) where
  toWorld : Transform S
  camera : Camera S

/-- A light in the world. -/
structure LightView (S : Type) where
  position : Vec S
  light : Light S

/-- All that tracing reads of the world. -/
structure Snapshot (S : Type) where
  /-- The surfaces where they stand; none where the map is singular. -/
  poses : Array (Option (Pose S))
  arrayBounds : Array (Box S)
  cameras : Array (CameraView S)
  lights : Array (LightView S)

namespace Snapshot

def empty {S : Type} : Snapshot S := ⟨#[], #[], #[], #[]⟩

end Snapshot

namespace CameraView

variable {S : Type} [Scalar S]

/-- The ray of a camera through a point of a frame, in pixels from its upper left corner. The screen
is one wide and centred on the axis of view, and `y` points up. -/
def primaryRay (v : CameraView S) (px py : S) (width height : Nat) : Ray S :=
  let w : S := Scalar.ofInt (max width 1)
  let sx := px / w - 0.5
  let sy := (Scalar.ofInt height * 0.5 - py) / w
  Ray.through v.toWorld.origin (v.toWorld.applyVec ⟨sx, sy, v.camera.pov⟩)

end CameraView

end SolidTrace
