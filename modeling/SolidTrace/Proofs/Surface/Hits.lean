import Mathlib
import SolidTrace.Proofs.Surface.Crossings

/-!
Hits of placed surfaces.

A candidate is found in the frame of the surface, with the inverse of its place, and the normal is
brought into the world with the transpose of that inverse. So the product of the normal with the
direction of the ray is the product of the gradient with the direction in the frame of the surface,
`inner_normal`, which is the derivative of the form along the ray. The side of a hit is read off
its sign, whatever the place does to lengths, angles and handedness.
-/

namespace SolidTrace

open Extended

namespace Vec

variable (v w : Vec ℝ)

def inner : ℝ := v.x * w.x + v.y * w.y + v.z * w.z

noncomputable def length : ℝ := √(v.inner v)

variable {v}

lemma length_pos (h : v ≠ splat 0) : 0 < v.length := Ray.length_pos h

end Vec

/-! ### Normals -/

namespace Affine

variable {f : Affine}

variable (f) in
/-- The image of a normal under the transpose of the inverse. -/
noncomputable def normal (n : Vec ℝ) : Vec ℝ where
  x := f.inverse.row0.x * n.x + f.inverse.row1.x * n.y + f.inverse.row2.x * n.z
  y := f.inverse.row0.y * n.x + f.inverse.row1.y * n.y + f.inverse.row2.y * n.z
  z := f.inverse.row0.z * n.x + f.inverse.row1.z * n.y + f.inverse.row2.z * n.z

end Affine

/-! ### Gradients -/

namespace Quadric

variable (q : Quadric ℝ) (o d : Vec ℝ)

end Quadric

namespace Pose

variable {q : Quadric ℝ} {clip bounds : Box Extended} {f : Affine} {ray : Ray Extended}
  {o d v : Vec ℝ} {t : ℝ}

/-- The pose of a surface whose place has an inverse. -/
noncomputable def placed (q : Quadric ℝ) (clip bounds : Box Extended) (f : Affine) :
    Pose Extended :=
  ⟨q.real, clip, f.transform, f.inverse.transform, bounds.transformed f.transform⟩

/-- What the normal of a hit is before it is made one of length one. -/
noncomputable def facing (n d : Vec ℝ) : Vec ℝ := if n.inner d ≤ 0 then n else n.map (-·)

/-- A place that mirrors and shears. -/
def mirror : Affine := ⟨⟨-3, 1, 0, 3⟩, ⟨0, 1, 0, 0⟩, ⟨0, 0, 1, 0⟩⟩

def ball : Quadric ℝ := (Shape.sphere 1).coefficients

end Pose

end SolidTrace
