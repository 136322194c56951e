import SolidTrace.Geometry.Transform

/-!
Boxes along the axes.

Extents may be infinite. A box is empty when a lower bound exceeds the upper one on some axis.
`transformed` gives a box around the image: of the eight corners when all extents are finite, and
from the intervals of the three axes when some extent is infinite.
-/

namespace SolidTrace

structure Box (S : Type) where
  min : Vec S
  max : Vec S
deriving BEq, DecidableEq, Repr

namespace Box

variable {S : Type} [Scalar S]

def empty : Box S := ⟨Vec.splat Scalar.infinity, Vec.splat (-Scalar.infinity)⟩

def infinite : Box S := ⟨Vec.splat (-Scalar.infinity), Vec.splat Scalar.infinity⟩

def isEmpty (b : Box S) : Bool := Axis.all.any fun a => decide (b.max.get a < b.min.get a)

def isFinite (b : Box S) : Bool :=
  b.min.toList.all Scalar.isFinite && b.max.toList.all Scalar.isFinite

def includePoint (b : Box S) (p : Vec S) : Box S :=
  ⟨b.min.zip Scalar.lesser p, b.max.zip Scalar.greater p⟩

/-- The smallest box around both; an empty one adds nothing. -/
def join (b other : Box S) : Box S :=
  if other.isEmpty then b else (b.includePoint other.min).includePoint other.max

def intersection (b other : Box S) : Box S :=
  ⟨b.min.zip Scalar.greater other.min, b.max.zip Scalar.lesser other.max⟩

/-- Whether the other box lies in this one with every side moved out by `tol`. -/
def contains (b other : Box S) (tol : S) : Bool :=
  other.isEmpty || Axis.all.all fun a =>
    decide (b.min.get a - tol ≤ other.min.get a) && decide (other.max.get a ≤ b.max.get a + tol)

/-- Whether the point lies in the box with every side moved out by `tol`. -/
def containsPoint (b : Box S) (p : Vec S) (tol : S) : Bool :=
  Axis.all.all fun a =>
    decide (b.min.get a - tol ≤ p.get a) && decide (p.get a ≤ b.max.get a + tol)

/-- The eight corners, `x` varying fastest. -/
def corners (b : Box S) : List (Vec S) :=
  [b.min.z, b.max.z].flatMap fun z =>
    [b.min.y, b.max.y].flatMap fun y => [b.min.x, b.max.x].map fun x => ⟨x, y, z⟩

/-- The interval that an affine form takes over the box: every axis with a coefficient other than
zero contributes the two ends of its interval. -/
def imageInterval (b : Box S) (r : Row S) : S × S :=
  let (lo, hi) := Axis.all.foldl (fun (lo, hi) a =>
    let k := r.linear.get a
    if k == 0 then (lo, hi)
    else
      let p := k * b.min.get a
      let q := k * b.max.get a
      (lo + Scalar.lesser p q, hi + Scalar.greater p q)) (r.w, r.w)
  (if Scalar.isNaN lo then -Scalar.infinity else lo,
    if Scalar.isNaN hi then Scalar.infinity else hi)

def transformed (b : Box S) (t : Transform S) : Box S :=
  if b.isEmpty then b
  else if b.isFinite then (b.corners.map t.applyPoint).foldl includePoint empty
  else
    let x := b.imageInterval t.row0
    let y := b.imageInterval t.row1
    let z := b.imageInterval t.row2
    ⟨⟨x.1, y.1, z.1⟩, ⟨x.2, y.2, z.2⟩⟩

end Box

end SolidTrace
