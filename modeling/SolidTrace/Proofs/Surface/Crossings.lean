import SolidTrace.Proofs.Geometry.Slabs
import SolidTrace.Proofs.Surface.Roots

/-!
Crossings of a ray with a placed surface.

Worked out exactly, the candidates of a pose are images of points of the surface, unless a small
leading coefficient is left out.
-/

namespace SolidTrace

open Extended

namespace Pose

/-- Along the ray, the leading coefficient of the form is zero when it counts as absent. -/
def Definite (p : Pose Extended) (ray : Ray Extended) : Prop :=
  let d := p.toLocal.applyVec ray.direction
  let lead := p.quadric.a * d.x * d.x + p.quadric.b * d.y * d.y + p.quadric.c * d.z * d.z
  Scalar.abs lead < Quadric.linearTolerance → lead = 0

variable {q : Quadric ℝ} {clip bounds : Box Extended} {f : Affine} {p : Pose Extended}
  {ray : Ray Extended} {o d : Vec ℝ} {tMax : Extended} {c : Extended × Vec Extended}

lemma nearest_eq : (nearest : Extended) = .real (tenth 6) := decimal_tenth 6

/-- **A crossing of a placed surface is the image of a point of the surface.** -/
theorem exists_of_mem_candidates (hp : place? q.real clip bounds f.transform = some p)
    (hr : ray.Starts o d) (hdef : p.Definite ray) (hc : c ∈ p.candidates ray tMax) :
    ∃ (t : ℝ) (v : Vec ℝ), c = (.real t, v.real) ∧ 0 ≤ t ∧ q.form v = 0 ∧
      f.apply v = o.along d t := by
  -- the inverse map takes the ray to the frame of the surface, where its form vanishes
  obtain ⟨g, hinverse, rfl⟩ := Option.map_eq_some_iff.mp hp
  obtain ⟨hdet, rfl⟩ := Affine.inverse?_transform hinverse
  obtain ⟨x, place⟩ := c
  obtain ⟨hroot, hnear, -, hplace, -⟩ := mem_candidates.mp hc
  simp only [Definite, hr.direction, Affine.applyVec_transform] at hdef
  simp only [hr.origin, hr.direction, Affine.applyPoint_transform, Affine.applyVec_transform]
    at hroot hplace
  have hlead : q.Definite (f.inverse.direct d) := by
    refine (lt_or_ge |q.lead (f.inverse.direct d)| (tenth 12)).imp (fun hlt => ?_) id
    have hzero := hdef (Quadric.tolerance_eq ▸ real_lt_real.mpr hlt)
    rw [zero_eq] at hzero
    exact Extended.real.inj hzero
  obtain ⟨t, rfl, hform⟩ := Quadric.exists_real_of_mem_roots hlead hroot
  rw [nearest_eq, real_lt_real] at hnear
  have hpos : 0 ≤ t := ((tenth_pos 6).trans hnear).le
  refine ⟨t, _, Prod.ext rfl (hplace.trans (Vec.real_add_scale _ _ t)), hpos, hform, ?_⟩
  rw [← f.inverse.apply_along, Affine.apply_inverse hdet]

end Pose

end SolidTrace
