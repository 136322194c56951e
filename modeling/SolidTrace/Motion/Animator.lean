import SolidTrace.Document.Basic

/-!
Animators.

An animator takes a placement from one time to another. Times are milliseconds in 64 signed bits,
and differences of times wrap around.
-/

namespace SolidTrace

/-- The time from `last` to `time`. -/
def elapsed (time last : Int) : Int := (time - last).bmod (Nat.pow 2 64)

/-- The seconds from the last update to a time; none before the first one. -/
def secondsSince {S : Type} [Scalar S] (last? : Option Int) (time : Int) : S :=
  match last? with
  | none => 0
  | some last => Scalar.ofInt (max (elapsed time last) 0) / 1000

/-- What an animator knows of the object it moves. -/
structure Animated (S : Type) where
  object : Nat
  /-- The placement declared. -/
  base : Placement S
  /-- The first time from which it is animated. -/
  created : Int

/-- Takes a placement from `last` to `time`, or breaks off with a text. -/
def Animator (S : Type) : Type :=
  (time last : Int) → Animated S → Placement S → Except String (Placement S)

namespace Animator

variable {S : Type} [Scalar S]

/-- The angle after turning by `step` degrees: in `[0, 360)` however the sum is rounded. -/
def turned (angle step : S) : S :=
  let a := Scalar.wrap (angle + step) 360
  if 360 ≤ a then 0 else a

/-- Turns at a constant rate. -/
def spin (axis : Axis) (degreesPerSecond : S) : Animator S := fun time last _ p =>
  let seconds := Scalar.ofInt (elapsed time last) / 1000
  .ok { p with rotation := p.rotation.modify axis fun a => turned a (degreesPerSecond * seconds) }

/-- Swings about the declared position; without a positive period it stays there. -/
def bob (axis : Axis) (amplitude periodMs : S) : Animator S := fun time _ o p =>
  let phase := if 0 < periodMs then Scalar.ofInt (elapsed time o.created) / periodMs else 0
  let offset := amplitude * Scalar.sin (2 * Scalar.pi * phase)
  .ok { p with position := p.position.modify axis fun _ => o.base.position.get axis + offset }

end Animator

/-- Animators by name. -/
def Registry (S : Type) : Type := Dict (Animator S)

namespace Registry

variable {S : Type} [Scalar S]

def empty : Registry S := Dict.empty

def register (r : Registry S) (name : String) (a : Animator S) : Registry S := Dict.insert r name a

def size (r : Registry S) : Nat := Dict.size r

/-- The animator of a description, or the name that is not registered. -/
def resolve (r : Registry S) : Animation S → Except String (Animator S)
  | .spin axis rate => .ok (Animator.spin axis rate)
  | .bob axis amplitude period => .ok (Animator.bob axis amplitude period)
  | .custom name =>
    match Dict.get? r name with
    | some a => .ok a
    | none => .error name

end Registry

end SolidTrace
