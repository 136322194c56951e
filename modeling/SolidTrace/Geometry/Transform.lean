import SolidTrace.Geometry.Vec

/-!
Affine maps of space as four-by-four matrices.

A point is taken with fourth coordinate one and a direction with zero; the fourth coordinate of the
result is dropped. Composition is the matrix product, so the map written last applies first.
-/

namespace SolidTrace

/-- A row of a matrix; `w` meets the fourth coordinate. -/
structure Row (S : Type) where
  x : S
  y : S
  z : S
  w : S
deriving BEq, DecidableEq, Repr

namespace Row

variable {S : Type} [Scalar S]

def map {T : Type} (f : S → T) (r : Row S) : Row T := ⟨f r.x, f r.y, f r.z, f r.w⟩

def dot (r c : Row S) : S := r.x * c.x + r.y * c.y + r.z * c.z + r.w * c.w

def toList (r : Row S) : List S := [r.x, r.y, r.z, r.w]

/-- The row without its last entry. -/
def linear (r : Row S) : Vec S := ⟨r.x, r.y, r.z⟩

end Row

structure Transform (S : Type) where
  row0 : Row S
  row1 : Row S
  row2 : Row S
  row3 : Row S
deriving BEq, DecidableEq, Repr

namespace Transform

variable {S : Type} [Scalar S]

def identity : Transform S :=
  ⟨⟨1, 0, 0, 0⟩, ⟨0, 1, 0, 0⟩, ⟨0, 0, 1, 0⟩, ⟨0, 0, 0, 1⟩⟩

def translation (v : Vec S) : Transform S :=
  ⟨⟨1, 0, 0, v.x⟩, ⟨0, 1, 0, v.y⟩, ⟨0, 0, 1, v.z⟩, ⟨0, 0, 0, 1⟩⟩

def scaling (v : Vec S) : Transform S :=
  ⟨⟨v.x, 0, 0, 0⟩, ⟨0, v.y, 0, 0⟩, ⟨0, 0, v.z, 0⟩, ⟨0, 0, 0, 1⟩⟩

/-- The rotation about an axis by an angle in radians. -/
def rotation (a : Axis) (angle : S) : Transform S :=
  let s := Scalar.sin angle
  let c := Scalar.cos angle
  match a with
  | .x => ⟨⟨1, 0, 0, 0⟩, ⟨0, c, -s, 0⟩, ⟨0, s, c, 0⟩, ⟨0, 0, 0, 1⟩⟩
  | .y => ⟨⟨c, 0, s, 0⟩, ⟨0, 1, 0, 0⟩, ⟨-s, 0, c, 0⟩, ⟨0, 0, 0, 1⟩⟩
  | .z => ⟨⟨c, -s, 0, 0⟩, ⟨s, c, 0, 0⟩, ⟨0, 0, 1, 0⟩, ⟨0, 0, 0, 1⟩⟩

def toList (m : Transform S) : List S :=
  m.row0.toList ++ m.row1.toList ++ m.row2.toList ++ m.row3.toList

def transpose (m : Transform S) : Transform S :=
  ⟨⟨m.row0.x, m.row1.x, m.row2.x, m.row3.x⟩, ⟨m.row0.y, m.row1.y, m.row2.y, m.row3.y⟩,
    ⟨m.row0.z, m.row1.z, m.row2.z, m.row3.z⟩, ⟨m.row0.w, m.row1.w, m.row2.w, m.row3.w⟩⟩

/-- The product: `m.comp n` applies `n` first. -/
def comp (m n : Transform S) : Transform S :=
  let c := n.transpose
  let times (r : Row S) : Row S := ⟨r.dot c.row0, r.dot c.row1, r.dot c.row2, r.dot c.row3⟩
  ⟨times m.row0, times m.row1, times m.row2, times m.row3⟩

/-- Applies the first three rows to a vector with fourth coordinate `w`. -/
def apply (m : Transform S) (v : Vec S) (w : S) : Vec S :=
  let column : Row S := ⟨v.x, v.y, v.z, w⟩
  ⟨m.row0.dot column, m.row1.dot column, m.row2.dot column⟩

def applyPoint (m : Transform S) (p : Vec S) : Vec S := m.apply p 1

def applyVec (m : Transform S) (v : Vec S) : Vec S := m.apply v 0

def origin (m : Transform S) : Vec S := m.applyPoint (Vec.splat 0)

/-! ### Inverses -/

/-- The matrix of cofactors, transposed. -/
def adjugate (m : Transform S) : Transform S :=
  let m0 := m.row0.x; let m1 := m.row1.x; let m2 := m.row2.x; let m3 := m.row3.x
  let m4 := m.row0.y; let m5 := m.row1.y; let m6 := m.row2.y; let m7 := m.row3.y
  let m8 := m.row0.z; let m9 := m.row1.z; let m10 := m.row2.z; let m11 := m.row3.z
  let m12 := m.row0.w; let m13 := m.row1.w; let m14 := m.row2.w; let m15 := m.row3.w
  ⟨⟨m5 * m10 * m15 - m5 * m11 * m14 - m9 * m6 * m15 + m9 * m7 * m14 + m13 * m6 * m11
        - m13 * m7 * m10,
      -m4 * m10 * m15 + m4 * m11 * m14 + m8 * m6 * m15 - m8 * m7 * m14 - m12 * m6 * m11
        + m12 * m7 * m10,
      m4 * m9 * m15 - m4 * m11 * m13 - m8 * m5 * m15 + m8 * m7 * m13 + m12 * m5 * m11
        - m12 * m7 * m9,
      -m4 * m9 * m14 + m4 * m10 * m13 + m8 * m5 * m14 - m8 * m6 * m13 - m12 * m5 * m10
        + m12 * m6 * m9⟩,
    ⟨-m1 * m10 * m15 + m1 * m11 * m14 + m9 * m2 * m15 - m9 * m3 * m14 - m13 * m2 * m11
        + m13 * m3 * m10,
      m0 * m10 * m15 - m0 * m11 * m14 - m8 * m2 * m15 + m8 * m3 * m14 + m12 * m2 * m11
        - m12 * m3 * m10,
      -m0 * m9 * m15 + m0 * m11 * m13 + m8 * m1 * m15 - m8 * m3 * m13 - m12 * m1 * m11
        + m12 * m3 * m9,
      m0 * m9 * m14 - m0 * m10 * m13 - m8 * m1 * m14 + m8 * m2 * m13 + m12 * m1 * m10
        - m12 * m2 * m9⟩,
    ⟨m1 * m6 * m15 - m1 * m7 * m14 - m5 * m2 * m15 + m5 * m3 * m14 + m13 * m2 * m7
        - m13 * m3 * m6,
      -m0 * m6 * m15 + m0 * m7 * m14 + m4 * m2 * m15 - m4 * m3 * m14 - m12 * m2 * m7
        + m12 * m3 * m6,
      m0 * m5 * m15 - m0 * m7 * m13 - m4 * m1 * m15 + m4 * m3 * m13 + m12 * m1 * m7
        - m12 * m3 * m5,
      -m0 * m5 * m14 + m0 * m6 * m13 + m4 * m1 * m14 - m4 * m2 * m13 - m12 * m1 * m6
        + m12 * m2 * m5⟩,
    ⟨-m1 * m6 * m11 + m1 * m7 * m10 + m5 * m2 * m11 - m5 * m3 * m10 - m9 * m2 * m7
        + m9 * m3 * m6,
      m0 * m6 * m11 - m0 * m7 * m10 - m4 * m2 * m11 + m4 * m3 * m10 + m8 * m2 * m7
        - m8 * m3 * m6,
      -m0 * m5 * m11 + m0 * m7 * m9 + m4 * m1 * m11 - m4 * m3 * m9 - m8 * m1 * m7
        + m8 * m3 * m5,
      m0 * m5 * m10 - m0 * m6 * m9 - m4 * m1 * m10 + m4 * m2 * m9 + m8 * m1 * m6
        - m8 * m2 * m5⟩⟩

/-- The determinant, expanded along the first column. -/
def det (m : Transform S) : S :=
  let a := m.adjugate.row0
  m.row0.x * a.x + m.row1.x * a.y + m.row2.x * a.z + m.row3.x * a.w

/-- The inverse, unless the determinant is zero. -/
def inverse? (m : Transform S) : Option (Transform S) :=
  let d := m.det
  if d == 0 then none
  else
    let a := m.adjugate
    let k := 1 / d
    some ⟨a.row0.map (· * k), a.row1.map (· * k), a.row2.map (· * k), a.row3.map (· * k)⟩

/-- The image of a normal: it stays perpendicular to the images of the vectors it was perpendicular
to. Where the linear part has no inverse the normal is left alone. -/
def applyNormal (m : Transform S) (n : Vec S) : Vec S :=
  let m11 := m.row0.x; let m12 := m.row0.y; let m13 := m.row0.z
  let m21 := m.row1.x; let m22 := m.row1.y; let m23 := m.row1.z
  let m31 := m.row2.x; let m32 := m.row2.y; let m33 := m.row2.z
  let a := m22 * m33 - m32 * m23
  let b := m21 * m33 - m31 * m23
  let c := m21 * m32 - m31 * m22
  let d := m11 * a - m12 * b + m13 * c
  if d == 0 then n
  else
    ⟨Vec.dot ⟨a / d, -b / d, c / d⟩ n,
      Vec.dot ⟨(m13 * m32 - m33 * m12) / d, (m11 * m33 - m31 * m13) / d,
        (m12 * m31 - m32 * m11) / d⟩ n,
      Vec.dot ⟨(m12 * m23 - m22 * m13) / d, (m13 * m21 - m23 * m11) / d,
        (m11 * m22 - m21 * m12) / d⟩ n⟩

end Transform

/-- Where an object stands in its parent: scaled, then turned by degrees about `x`, `y` and `z` in
that order, then moved. -/
structure Placement (S : Type) where
  position : Vec S
  rotation : Vec S
  scale : Vec S
deriving BEq, DecidableEq, Repr

namespace Placement

variable {S : Type} [Scalar S]

def identity : Placement S := ⟨Vec.splat 0, Vec.splat 0, Vec.splat 1⟩

def turn (p : Placement S) (a : Axis) : Transform S :=
  Transform.rotation a (Scalar.radians (p.rotation.get a))

def toTransform (p : Placement S) : Transform S :=
  Transform.translation p.position |>.comp (p.turn .z) |>.comp (p.turn .y) |>.comp (p.turn .x)
    |>.comp (Transform.scaling p.scale)

end Placement

end SolidTrace
