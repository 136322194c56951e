import SolidTrace.Document.Basic

/-!
Driving a camera.
-/

namespace SolidTrace

inductive CameraAction
  | none | forward | back | left | right | up | down | turnLeft | turnRight | tiltUp | tiltDown
deriving DecidableEq, Repr

namespace CameraAction

variable {S : Type} [Scalar S]

/-- The way an action moves a camera in its own frame: `x` right, `y` up, `z` forward. -/
def movement? (c : Camera S) (seconds : S) : CameraAction → Option (Vec S)
  | forward => some ⟨0, 0, c.speed.z * seconds⟩
  | back => some ⟨0, 0, -(c.speed.z * seconds)⟩
  | right => some ⟨c.speed.x * seconds, 0, 0⟩
  | left => some ⟨-(c.speed.x * seconds), 0, 0⟩
  | up => some ⟨0, c.speed.y * seconds, 0⟩
  | down => some ⟨0, -(c.speed.y * seconds), 0⟩
  | _ => Option.none

/-- The angle by which an action turns a camera, and about which axis. -/
def rotation? (c : Camera S) (seconds : S) : CameraAction → Option (Axis × S)
  | turnLeft => some (.y, -(c.turning.y * seconds))
  | turnRight => some (.y, c.turning.y * seconds)
  | tiltUp => some (.x, -(c.turning.x * seconds))
  | tiltDown => some (.x, c.turning.x * seconds)
  | _ => Option.none

/-- Moves a camera along its own axes. -/
def move (p : Placement S) (step : Vec S) : Placement S :=
  let turn := Placement.toTransform ⟨Vec.splat 0, p.rotation, Vec.splat 1⟩
  { p with position := p.position + turn.applyVec step }

/-- Turns a camera; the angle is kept within a full turn. -/
def turn (p : Placement S) (axis : Axis) (step : S) : Placement S :=
  { p with rotation := p.rotation.modify axis fun a => Scalar.wrap (a + step) 360 }

/-- The placement after an action over some seconds. -/
def apply (c : Camera S) (action : CameraAction) (seconds : S) (p : Placement S) : Placement S :=
  match action.movement? c seconds, action.rotation? c seconds with
  | some step, _ => move p step
  | Option.none, some (axis, step) => turn p axis step
  | Option.none, Option.none => p

end CameraAction

/-- The cameras of a scene taken in turn. -/
structure CameraRig where
  current : Nat
  count : Nat
deriving DecidableEq, Repr

namespace CameraRig

def ofCount (count : Nat) : CameraRig := ⟨0, count⟩

def next (r : CameraRig) : CameraRig :=
  if r.count = 0 then r else { r with current := (r.current + 1) % r.count }

end CameraRig

end SolidTrace
