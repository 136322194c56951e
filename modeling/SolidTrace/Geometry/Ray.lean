import SolidTrace.Geometry.Box

/-!
Rays and the slab test.

A ray keeps the reciprocals of its direction. `meet?` walks the three pairs of box planes and
narrows an interval of parameters.
-/

namespace SolidTrace

structure Ray (S : Type) where
  origin : Vec S
  /-- The direction, of length one. -/
  direction : Vec S
  /-- One over each component of the direction. -/
  reciprocal : Vec S

namespace Ray

variable {S : Type} [Scalar S]

/-- The ray through a point in a direction of any length. -/
def through (origin direction : Vec S) : Ray S :=
  let d := direction.normalize
  ⟨origin, d, d.map (1 / ·)⟩

def pointAt (r : Ray S) (t : S) : Vec S := r.origin + r.direction.scale t

/-- Narrows an interval of parameters to one pair of planes. A ray parallel to them is inside
throughout or never; a plane reached at no definite parameter leaves its end alone. -/
def clipSlab (r : Ray S) (b : Box S) (a : Axis) (window : S × S) : Option (S × S) :=
  let inv := r.reciprocal.get a
  let o := r.origin.get a
  let (lo, hi) :=
    if inv < 0 then (b.max.get a, b.min.get a) else (b.min.get a, b.max.get a)
  if Scalar.isInfinite inv then
    if o < Scalar.lesser lo hi || Scalar.greater lo hi < o then none else some window
  else
    let t1 := (lo - o) * inv
    let t2 := (hi - o) * inv
    some (if Scalar.isNaN t1 then window.1 else Scalar.greater window.1 t1,
      if Scalar.isNaN t2 then window.2 else Scalar.lesser window.2 t2)

/-- Where the ray enters and leaves the box, from its origin on. -/
def meet? (r : Ray S) (b : Box S) : Option (S × S) := do
  let window ← Axis.all.foldlM (fun window a => r.clipSlab b a window)
    (-Scalar.infinity, Scalar.infinity)
  if window.1 ≤ window.2 ∧ 0 ≤ window.2 then some (Scalar.greater window.1 0, window.2) else none

end Ray

end SolidTrace
