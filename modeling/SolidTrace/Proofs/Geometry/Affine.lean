import Mathlib.Tactic.FieldSimp
import Mathlib.Tactic.Ring
import SolidTrace.Geometry.Ray
import SolidTrace.Proofs.Number.Extended

/-!
Affine maps with real coefficients.

A transform that takes real points to real points, and keeps the fourth coordinate, is an `Affine`
map. Compositions and inverses of such transforms are such transforms, and so is the place of an
object.
-/

namespace SolidTrace

open Extended

namespace Vec

/-- A point or a vector with real coordinates. -/
def real (v : Vec ℝ) : Vec Extended := v.map Extended.real

/-- The point of a line at a parameter. -/
def along (o d : Vec ℝ) (t : ℝ) : Vec ℝ := ⟨o.x + t * d.x, o.y + t * d.y, o.z + t * d.z⟩

lemma get_along (o d : Vec ℝ) (t : ℝ) (a : Axis) :
    (o.along d t).get a = o.get a + t * d.get a := by
  cases a <;> rfl

lemma real_add_scale (o d : Vec ℝ) (t : ℝ) :
    o.real + d.real.scale (.real t) = (o.along d t).real := rfl

end Vec

namespace Row

def real (r : Row ℝ) : Row Extended := r.map Extended.real

def value (r : Row ℝ) (p : Vec ℝ) : ℝ := r.x * p.x + r.y * p.y + r.z * p.z + r.w

def slope (r : Row ℝ) (v : Vec ℝ) : ℝ := r.x * v.x + r.y * v.y + r.z * v.z

end Row

/-- An affine map of space, by its rows. -/
structure Affine where
  row0 : Row ℝ
  row1 : Row ℝ
  row2 : Row ℝ

namespace Affine

variable (f g : Affine)

def apply (p : Vec ℝ) : Vec ℝ := ⟨f.row0.value p, f.row1.value p, f.row2.value p⟩

/-- The linear part of the map. -/
def direct (v : Vec ℝ) : Vec ℝ := ⟨f.row0.slope v, f.row1.slope v, f.row2.slope v⟩

def form : Axis → Row ℝ
  | .x => f.row0
  | .y => f.row1
  | .z => f.row2

lemma get_apply (p : Vec ℝ) (a : Axis) : (f.apply p).get a = (f.form a).value p := by
  cases a <;> rfl

def transform : Transform Extended :=
  ⟨f.row0.real, f.row1.real, f.row2.real, ⟨.real 0, .real 0, .real 0, .real 1⟩⟩

/-- An affine form behind the map. -/
def pull (r : Row ℝ) : Row ℝ where
  x := r.x * f.row0.x + r.y * f.row1.x + r.z * f.row2.x
  y := r.x * f.row0.y + r.y * f.row1.y + r.z * f.row2.y
  z := r.x * f.row0.z + r.y * f.row1.z + r.z * f.row2.z
  w := r.x * f.row0.w + r.y * f.row1.w + r.z * f.row2.w + r.w

/-- The map that applies `g` first. -/
def comp : Affine := ⟨g.pull f.row0, g.pull f.row1, g.pull f.row2⟩

def det : ℝ :=
  f.row0.x * (f.row1.y * f.row2.z - f.row2.y * f.row1.z) +
    f.row1.x * (f.row2.y * f.row0.z - f.row0.y * f.row2.z) +
    f.row2.x * (f.row0.y * f.row1.z - f.row1.y * f.row0.z)

lemma value_pull (r : Row ℝ) (p : Vec ℝ) : (f.pull r).value p = r.value (f.apply p) := by
  simp only [Row.value, pull, apply]
  ring

lemma apply_comp (p : Vec ℝ) : (f.comp g).apply p = f.apply (g.apply p) := by
  simp only [apply, comp, value_pull]

lemma applyPoint_transform (p : Vec ℝ) : f.transform.applyPoint p.real = (f.apply p).real := by
  simp [Transform.applyPoint, Transform.apply, Row.dot, transform, Row.real, Row.map, Vec.real,
    Vec.map, apply, Row.value]

lemma applyVec_transform (v : Vec ℝ) : f.transform.applyVec v.real = (f.direct v).real := by
  simp [Transform.applyVec, Transform.apply, Row.dot, transform, Row.real, Row.map, Vec.real,
    Vec.map, direct, Row.slope]

lemma transform_comp : f.transform.comp g.transform = (f.comp g).transform := by
  simp [Transform.comp, Transform.transpose, Row.dot, transform, Row.real, Row.map, comp, pull]

/-- An affine form with the given coefficients over the determinant, which vanishes where the map
has its translation. -/
noncomputable def quotient (x y z : ℝ) : Row ℝ :=
  ⟨x / f.det, y / f.det, z / f.det,
    -(x * f.row0.w + y * f.row1.w + z * f.row2.w) / f.det⟩

def identity : Affine := ⟨⟨1, 0, 0, 0⟩, ⟨0, 1, 0, 0⟩, ⟨0, 0, 1, 0⟩⟩

@[simp] lemma apply_identity (p : Vec ℝ) : identity.apply p = p := by
  simp [identity, apply, Row.value]

lemma transform_identity : identity.transform = Transform.identity := by
  simp [identity, transform, Transform.identity, Row.real, Row.map]

/-- The rotation about an axis with a sine and a cosine. -/
def rotation (axis : Axis) (s c : ℝ) : Affine :=
  match axis with
  | .x => ⟨⟨1, 0, 0, 0⟩, ⟨0, c, -s, 0⟩, ⟨0, s, c, 0⟩⟩
  | .y => ⟨⟨c, 0, s, 0⟩, ⟨0, 1, 0, 0⟩, ⟨-s, 0, c, 0⟩⟩
  | .z => ⟨⟨c, -s, 0, 0⟩, ⟨s, c, 0, 0⟩, ⟨0, 0, 1, 0⟩⟩

/-- The matrix of cofactors over the determinant. -/
noncomputable def inverse : Affine where
  row0 := f.quotient (f.row1.y * f.row2.z - f.row2.y * f.row1.z)
    (f.row2.y * f.row0.z - f.row0.y * f.row2.z) (f.row0.y * f.row1.z - f.row1.y * f.row0.z)
  row1 := f.quotient (f.row1.z * f.row2.x - f.row1.x * f.row2.z)
    (f.row0.x * f.row2.z - f.row0.z * f.row2.x) (f.row0.z * f.row1.x - f.row0.x * f.row1.z)
  row2 := f.quotient (f.row1.x * f.row2.y - f.row1.y * f.row2.x)
    (f.row0.y * f.row2.x - f.row0.x * f.row2.y) (f.row0.x * f.row1.y - f.row0.y * f.row1.x)

lemma apply_along (o d : Vec ℝ) (t : ℝ) :
    f.apply (o.along d t) = (f.apply o).along (f.direct d) t := by
  simp only [apply, direct, Row.value, Row.slope, Vec.along, Vec.mk.injEq]
  refine ⟨?_, ?_, ?_⟩ <;> ring

variable {f}

lemma apply_inverse (hf : f.det ≠ 0) (p : Vec ℝ) : f.apply (f.inverse.apply p) = p := by
  obtain ⟨x, y, z⟩ := p
  simp only [apply, inverse, quotient, Row.value, Vec.mk.injEq]
  refine ⟨?_, ?_, ?_⟩ <;> field_simp <;> simp only [det] <;> ring

lemma det_transform : f.transform.det = .real f.det := by
  simp only [Transform.det, Transform.adjugate, transform, Row.real, Row.map, real_mul, real_neg,
    real_sub, real_add, det, Extended.real.injEq]
  ring

lemma inverse?_transform {t : Transform Extended} (h : f.transform.inverse? = some t) :
    f.det ≠ 0 ∧ t = f.inverse.transform := by
  unfold Transform.inverse? at h
  simp only [det_transform, zero_eq, beq_real, one_eq] at h
  split_ifs at h with hf
  refine ⟨hf, ?_⟩
  obtain rfl := Option.some.inj h
  simp only [real_div 1 hf, Transform.adjugate, transform, Row.real, Row.map, real_mul, real_neg,
    real_sub, real_add, inverse, quotient, Transform.mk.injEq, Row.mk.injEq, Extended.real.injEq]
  refine ⟨⟨?_, ?_, ?_, ?_⟩, ⟨?_, ?_, ?_, ?_⟩, ⟨?_, ?_, ?_, ?_⟩, ?_, ?_, ?_, ?_⟩
  case refine_16 => field_simp; simp only [det]; ring
  all_goals ring

end Affine

/-- The transform is an affine map with real coefficients. -/
def Transform.IsAffine (t : Transform Extended) : Prop := ∃ f : Affine, t = f.transform

namespace Transform

lemma IsAffine.comp {t u : Transform Extended} (ht : t.IsAffine) (hu : u.IsAffine) :
    (t.comp u).IsAffine := by
  obtain ⟨f, rfl⟩ := ht
  obtain ⟨g, rfl⟩ := hu
  exact ⟨f.comp g, f.transform_comp g⟩

/-- Matrices are multiplied without sines and cosines. -/
lemma IsAffine.comp_exact {sine cosine : ℝ → ℝ} {t u : Transform Extended} (ht : t.IsAffine)
    (hu : u.IsAffine) : IsAffine (Transform.comp (S := Exact sine cosine) t u) := ht.comp hu

lemma isAffine_identity : (identity : Transform Extended).IsAffine :=
  ⟨Affine.identity, Affine.transform_identity.symm⟩

lemma isAffine_translation (v : Vec ℝ) : (translation v.real).IsAffine :=
  ⟨⟨⟨1, 0, 0, v.x⟩, ⟨0, 1, 0, v.y⟩, ⟨0, 0, 1, v.z⟩⟩, by
    simp [translation, Affine.transform, Row.real, Row.map, Vec.real, Vec.map]⟩

lemma isAffine_scaling (v : Vec ℝ) : (scaling v.real).IsAffine :=
  ⟨⟨⟨v.x, 0, 0, 0⟩, ⟨0, v.y, 0, 0⟩, ⟨0, 0, v.z, 0⟩⟩, by
    simp [scaling, Affine.transform, Row.real, Row.map, Vec.real, Vec.map]⟩

/-- A rotation takes real points to real points, whatever sine and cosine are. -/
lemma isAffine_rotation (sine cosine : ℝ → ℝ) (a : Axis) (angle : ℝ) :
    IsAffine (rotation (S := Exact sine cosine) a (real angle)) := by
  refine ⟨Affine.rotation a (sine angle) (cosine angle), ?_⟩
  -- the entries in the extended numbers, where zeros and ones are known to be real
  cases a with
  | x =>
    change (⟨⟨1, 0, 0, 0⟩, ⟨0, real (cosine angle), -real (sine angle), 0⟩,
      ⟨0, real (sine angle), real (cosine angle), 0⟩, ⟨0, 0, 0, 1⟩⟩ : Transform Extended) = _
    simp [Affine.rotation, Affine.transform, Row.real, Row.map]
  | y =>
    change (⟨⟨real (cosine angle), 0, real (sine angle), 0⟩, ⟨0, 1, 0, 0⟩,
      ⟨-real (sine angle), 0, real (cosine angle), 0⟩, ⟨0, 0, 0, 1⟩⟩ : Transform Extended) = _
    simp [Affine.rotation, Affine.transform, Row.real, Row.map]
  | z =>
    change (⟨⟨real (cosine angle), -real (sine angle), 0, 0⟩,
      ⟨real (sine angle), real (cosine angle), 0, 0⟩, ⟨0, 0, 1, 0⟩, ⟨0, 0, 0, 1⟩⟩ :
        Transform Extended) = _
    simp [Affine.rotation, Affine.transform, Row.real, Row.map]

end Transform

/-- The placement has real numbers only. -/
def Placement.IsReal (p : Placement Extended) : Prop :=
  ∃ position rotation scale : Vec ℝ, p = ⟨position.real, rotation.real, scale.real⟩

/-- **A real placement is an affine map**, whatever sine and cosine are. -/
lemma Placement.isAffine_exact (sine cosine : ℝ → ℝ) (position rotation scale : Vec ℝ) :
    Transform.IsAffine (toTransform (S := Exact sine cosine)
      ⟨position.real, rotation.real, scale.real⟩) := by
  have hturn : ∀ a : Axis, Transform.IsAffine (turn (S := Exact sine cosine)
      ⟨position.real, rotation.real, scale.real⟩ a) := by
    intro a
    have hangle : Scalar.radians (Vec.get rotation.real a) =
        Extended.real (rotation.get a * (Real.pi / 180)) := by
      have hpi : (Scalar.pi / 180 : Extended) = .real (Real.pi / 180) := by
        rw [ofNat_eq]
        exact real_div Real.pi (by norm_num)
      rw [Scalar.radians, hpi]
      cases a <;> rfl
    have hrotation := Transform.isAffine_rotation sine cosine a (rotation.get a * (Real.pi / 180))
    rwa [← hangle] at hrotation
  have htranslation :
      Transform.IsAffine (Transform.translation (S := Exact sine cosine) position.real) :=
    Transform.isAffine_translation position
  have hscaling : Transform.IsAffine (Transform.scaling (S := Exact sine cosine) scale.real) :=
    Transform.isAffine_scaling scale
  exact (((htranslation.comp_exact (hturn .z)).comp_exact (hturn .y)).comp_exact
    (hturn .x)).comp_exact hscaling

lemma Placement.IsReal.isAffine {p : Placement Extended} (h : p.IsReal) :
    p.toTransform.IsAffine := by
  obtain ⟨position, rotation, scale, rfl⟩ := h
  exact isAffine_exact Real.sin Real.cos position rotation scale

end SolidTrace
