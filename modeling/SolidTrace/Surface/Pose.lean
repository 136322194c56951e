import SolidTrace.Geometry.Ray
import SolidTrace.Surface.Quadric

/-!
Surfaces placed in the world.

A pose holds a quadric, its clip box and the maps between its frame and the world. `candidates` are
the crossings of a ray with the clipped surface, and `hit` is the record of one of them.
-/

namespace SolidTrace

inductive Side
  /-- The ray arrived from outside the solid. -/
  | outer
  /-- The ray arrived from inside the solid. -/
  | inner
deriving DecidableEq, Repr

structure Hit (S : Type) where
  t : S
  point : Vec S
  /-- The point in the frame of the surface. -/
  place : Vec S
  /-- The unit normal on the side from which the ray came. -/
  normal : Vec S
  side : Side
  surface : Nat
deriving DecidableEq, Repr

structure Pose (S : Type) where
  quadric : Quadric S
  clip : Box S
  toWorld : Transform S
  toLocal : Transform S
  worldBounds : Box S

namespace Pose

variable {S : Type} [Scalar S]

/-- No crossing at this parameter or below counts, so that a ray does not meet again the surface it
starts on. -/
def nearest : S := 1e-6

/-- The slack of the clip test, which keeps crossings on the border of the clip box. -/
def clipTolerance : S := 1e-9

/-- Places a surface; a singular map places none. -/
def place? (quadric : Quadric S) (clip bounds : Box S) (toWorld : Transform S) :
    Option (Pose S) :=
  toWorld.inverse?.map fun toLocal =>
    ⟨quadric, clip, toWorld, toLocal, bounds.transformed toWorld⟩

def inClip (p : Pose S) (point : Vec S) : Bool := p.clip.containsPoint point clipTolerance

/-- Whether a point of the world lies strictly inside the solid. -/
def inside (p : Pose S) (point : Vec S) : Bool :=
  decide (p.quadric.value (p.toLocal.applyPoint point) < 0)

/-- The parameters below `tMax` at which the ray crosses the clipped surface, ascending, each with
its point in the frame of the surface. -/
def candidates (p : Pose S) (ray : Ray S) (tMax : S) : List (S × Vec S) :=
  let o := p.toLocal.applyPoint ray.origin
  let d := p.toLocal.applyVec ray.direction
  (((p.quadric.roots o d).filter fun t => decide (nearest < t) && decide (t < tMax)).map
    fun t => (t, o + d.scale t)).filter fun c => p.inClip c.2

def hit (p : Pose S) (ray : Ray S) (t : S) (place : Vec S) (surface : Nat) : Hit S :=
  let outward := p.toWorld.applyNormal (p.quadric.gradient place)
  let (side, facing) :=
    if outward.dot ray.direction ≤ 0 then (Side.outer, outward) else (Side.inner, -outward)
  ⟨t, ray.pointAt t, place, facing.normalize, side, surface⟩

end Pose

end SolidTrace
