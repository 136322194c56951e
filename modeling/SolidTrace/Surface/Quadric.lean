import SolidTrace.Geometry.Box

/-!
Quadric surfaces.

Every shape is the zero set of `a x² + b y² + c z² + d z + e` in its own frame, with the solid where
the form is negative. `roots` are the parameters at which a line crosses it, and `localBounds` is a
box around the part of the surface that a clip box keeps.
-/

namespace SolidTrace

/-- The shapes a surface can have, in the frame where `z` is its axis. -/
inductive Shape (S : Type)
  | plane
  | sphere (radius : S)
  | cylinder (radius : S)
  | cone (ratio : S)
  | paraboloid (focal : S)
  | hyperboloid (ratio waist : S)
  | paraCylinder (focal : S)
  | hyperCylinder (ratio waist : S)
  | hyperParaboloid (focal : S)
deriving BEq, DecidableEq, Repr

structure Quadric (S : Type) where
  a : S
  b : S
  c : S
  d : S
  e : S
deriving BEq, DecidableEq, Repr

namespace Shape

variable {S : Type} [Scalar S]

def quadric : Shape S → Quadric S
  | plane => ⟨0, 0, 0, 1, 0⟩
  | sphere radius => ⟨1, 1, 1, 0, -radius * radius⟩
  | cylinder radius => ⟨1, 1, 0, 0, -radius * radius⟩
  | cone ratio => ⟨1, 1, -ratio * ratio, 0, 0⟩
  | paraboloid focal => ⟨1, 1, 0, -focal, 0⟩
  | hyperboloid ratio waist => ⟨1, 1, -ratio * ratio, 0, -waist⟩
  | paraCylinder focal => ⟨1, 0, 0, -focal, 0⟩
  | hyperCylinder ratio waist => ⟨1, 0, -ratio * ratio, 0, -waist⟩
  | hyperParaboloid focal => ⟨1, -1, 0, -focal, 0⟩

end Shape

namespace Quadric

variable {S : Type} [Scalar S]

/-- Below this magnitude a coefficient along a line counts as absent. -/
def linearTolerance : S := 1e-12

def value (q : Quadric S) (p : Vec S) : S :=
  q.a * p.x * p.x + q.b * p.y * p.y + q.c * p.z * p.z + q.d * p.z + q.e

/-- The gradient, which points out of the solid. -/
def gradient (q : Quadric S) (p : Vec S) : Vec S :=
  ⟨2 * q.a * p.x, 2 * q.b * p.y, 2 * q.c * p.z + q.d⟩

/-- The parameters at which the line from `o` along `dir` crosses the quadric, ascending. A line
that touches it has its parameter listed twice. -/
def roots (q : Quadric S) (o dir : Vec S) : List S :=
  let qa := q.a * dir.x * dir.x + q.b * dir.y * dir.y + q.c * dir.z * dir.z
  let qb := 2 * (q.a * o.x * dir.x + q.b * o.y * dir.y + q.c * o.z * dir.z) + q.d * dir.z
  let qc := q.value o
  if Scalar.abs qa < linearTolerance then
    if linearTolerance ≤ Scalar.abs qb then [-qc / qb] else []
  else
    let disc := qb * qb - 4 * qa * qc
    if disc < 0 then []
    else
      -- the sum that does not cancel gives one root, the product of the roots the other
      let k := -0.5 * (qb + Scalar.signum qb * Scalar.sqrt disc)
      let (t1, t2) :=
        if k == 0 then
          let t := -qb / (2 * qa)
          (t, t)
        else (k / qa, qc / k)
      [Scalar.lesser t1 t2, Scalar.greater t1 t2]

end Quadric

namespace Shape

variable {S : Type} [Scalar S]

/-- The side of the plane `z = 0` to which a paraboloid opens. -/
def openingHeights (focal : S) : S × S :=
  if 0 ≤ focal then (0, Scalar.infinity) else (-Scalar.infinity, 0)

/-- A box about the origin in `x` and `y`, and from `low` to `high` in `z`. -/
def upright (rx ry low high : S) : Box S := ⟨⟨-rx, -ry, low⟩, ⟨rx, ry, high⟩⟩

/-- The largest distance from zero that a box reaches along an axis. -/
def reach (clip : Box S) (a : Axis) : S :=
  Scalar.greater (Scalar.abs (clip.min.get a)) (Scalar.abs (clip.max.get a))

/-- The extent of the shape itself at the heights that a clip box keeps. Axes that the shape leaves
open are infinite. -/
def naturalBounds (clip : Box S) : Shape S → Box S
  | plane => upright Scalar.infinity Scalar.infinity 0 0
  | sphere radius =>
    let r := Scalar.abs radius
    upright r r (-r) r
  | cylinder radius =>
    let r := Scalar.abs radius
    upright r r (-Scalar.infinity) Scalar.infinity
  | cone ratio =>
    let r := Scalar.abs ratio * reach clip .z
    upright r r (-Scalar.infinity) Scalar.infinity
  | paraboloid focal =>
    let (low, high) := openingHeights focal
    let r := Scalar.sqrt (Scalar.abs focal * reach clip .z)
    upright r r low high
  | hyperboloid ratio waist =>
    let r := waistRadius ratio waist
    upright r r (-Scalar.infinity) Scalar.infinity
  | paraCylinder focal =>
    let (low, high) := openingHeights focal
    let r := Scalar.sqrt (Scalar.abs focal * reach clip .z)
    upright r Scalar.infinity low high
  | hyperCylinder ratio waist =>
    upright (waistRadius ratio waist) Scalar.infinity (-Scalar.infinity) Scalar.infinity
  | hyperParaboloid focal =>
    let xm := reach clip .x
    let ym := reach clip .y
    let f := Scalar.greater (Scalar.abs focal) Quadric.linearTolerance
    let low := -(ym * ym) / f
    let high := xm * xm / f
    if focal < 0 then upright Scalar.infinity Scalar.infinity (-high) (-low)
    else upright Scalar.infinity Scalar.infinity low high
where
  /-- The radius at the largest height kept. -/
  waistRadius (ratio waist : S) : S :=
    let h := reach clip .z
    Scalar.sqrt (Scalar.greater (ratio * ratio * h * h + waist) 0)

/-- A box around the part of the surface inside the clip box. -/
def localBounds (shape : Shape S) (clip : Box S) : Box S :=
  (naturalBounds clip shape).intersection clip

end Shape

end SolidTrace
