import SolidTrace.Scalar

/-!
Points and vectors of space.
-/

namespace SolidTrace

inductive Axis
  | x | y | z
deriving DecidableEq, Repr

namespace Axis

def all : List Axis := [x, y, z]

end Axis

/-- A point, a vector or a triple of factors or angles, by axis. -/
structure Vec (S : Type) where
  x : S
  y : S
  z : S
deriving BEq, DecidableEq, Repr

/-- A pair of numbers of the plane of a texture. -/
structure Vec2 (S : Type) where
  x : S
  y : S
deriving BEq, DecidableEq, Repr

namespace Vec

variable {S T : Type}

def get (v : Vec S) : Axis → S
  | .x => v.x
  | .y => v.y
  | .z => v.z

def modify (v : Vec S) (a : Axis) (f : S → S) : Vec S :=
  match a with
  | .x => { v with x := f v.x }
  | .y => { v with y := f v.y }
  | .z => { v with z := f v.z }

def splat (a : S) : Vec S := ⟨a, a, a⟩

def map (f : S → T) (v : Vec S) : Vec T := ⟨f v.x, f v.y, f v.z⟩

def zip (f : S → S → T) (v w : Vec S) : Vec T := ⟨f v.x w.x, f v.y w.y, f v.z w.z⟩

def toList (v : Vec S) : List S := [v.x, v.y, v.z]

variable [Scalar S]

instance : Add (Vec S) := ⟨zip (· + ·)⟩
instance : Sub (Vec S) := ⟨zip (· - ·)⟩
instance : Neg (Vec S) := ⟨map (- ·)⟩

def scale (t : S) (v : Vec S) : Vec S := v.map (t * ·)

def dot (v w : Vec S) : S := v.x * w.x + v.y * w.y + v.z * w.z

def norm (v : Vec S) : S := Scalar.sqrt (v.dot v)

/-- The vector divided by its length: no zero vector has a direction, its components become NaN. -/
def normalize (v : Vec S) : Vec S := v.map (· / v.norm)

end Vec

end SolidTrace
