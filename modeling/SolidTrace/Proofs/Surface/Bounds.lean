import Mathlib.Tactic.Linarith
import SolidTrace.Proofs.Geometry.Enclosure
import SolidTrace.Surface.Pose

/-!
Boxes around surfaces.

The box of a shape and a clip box holds every point of the surface that the clip box keeps. A shape
without a focus or a slope does not have the extent that its box is worked out from: such shapes
are left out, as `Shape.Sturdy` says.
-/

namespace SolidTrace

open Extended

namespace Quadric

def real (q : Quadric ℝ) : Quadric Extended :=
  ⟨.real q.a, .real q.b, .real q.c, .real q.d, .real q.e⟩

def form (q : Quadric ℝ) (p : Vec ℝ) : ℝ :=
  q.a * p.x * p.x + q.b * p.y * p.y + q.c * p.z * p.z + q.d * p.z + q.e

lemma value_real (q : Quadric ℝ) (p : Vec ℝ) : q.real.value p.real = .real (q.form p) := rfl

lemma tolerance_eq : (linearTolerance : Extended) = .real (tenth 12) := decimal_tenth 12

end Quadric

namespace Shape

def real : Shape ℝ → Shape Extended
  | plane => .plane
  | sphere radius => .sphere (.real radius)
  | cylinder radius => .cylinder (.real radius)
  | cone ratio => .cone (.real ratio)
  | paraboloid focal => .paraboloid (.real focal)
  | hyperboloid ratio waist => .hyperboloid (.real ratio) (.real waist)
  | paraCylinder focal => .paraCylinder (.real focal)
  | hyperCylinder ratio waist => .hyperCylinder (.real ratio) (.real waist)
  | hyperParaboloid focal => .hyperParaboloid (.real focal)

def coefficients : Shape ℝ → Quadric ℝ
  | plane => ⟨0, 0, 0, 1, 0⟩
  | sphere radius => ⟨1, 1, 1, 0, -radius * radius⟩
  | cylinder radius => ⟨1, 1, 0, 0, -radius * radius⟩
  | cone ratio => ⟨1, 1, -ratio * ratio, 0, 0⟩
  | paraboloid focal => ⟨1, 1, 0, -focal, 0⟩
  | hyperboloid ratio waist => ⟨1, 1, -ratio * ratio, 0, -waist⟩
  | paraCylinder focal => ⟨1, 0, 0, -focal, 0⟩
  | hyperCylinder ratio waist => ⟨1, 0, -ratio * ratio, 0, -waist⟩
  | hyperParaboloid focal => ⟨1, -1, 0, -focal, 0⟩

lemma quadric_real (s : Shape ℝ) : s.real.quadric = s.coefficients.real := by
  cases s <;> simp [real, quadric, coefficients, Quadric.real]

/-- A focus is not zero, and that of a saddle above the tolerance; a slope is not zero where the
clip box leaves the heights open. -/
def Sturdy (clip : Box Extended) : Shape ℝ → Prop
  | plane | sphere _ | cylinder _ | cone _ => True
  | paraboloid focal | paraCylinder focal => focal ≠ 0
  | hyperboloid ratio _ | hyperCylinder ratio _ => ratio ≠ 0 ∨ reach clip .z ≠ .up
  | hyperParaboloid focal => tenth 12 ≤ |focal|

variable {clip : Box Extended} {p : Vec ℝ}

lemma greater_tolerance {focal : ℝ} (h : tenth 12 ≤ |focal|) :
    Scalar.greater (.real |focal|) (Quadric.linearTolerance : Extended) = .real |focal| := by
  have hnot : ¬Extended.real |focal| < .real (tenth 12) := not_lt.mpr h
  rw [Scalar.greater, Quadric.tolerance_eq, if_neg hnot, if_neg (not_isNaN_real _)]

lemma abs_le_reach (h : clip.Encloses p) (a : Axis) : .real |p.get a| ≤ reach clip a := by
  have ha := h a
  rw [Box.get_real] at ha
  exact real_abs_le ha.1 ha.2

lemma admits_radius_iff {r : Extended} {x : ℝ} :
    (-r = .nan ∨ -r ≤ .real x) ∧ (r = .nan ∨ .real x ≤ r) ↔ r = .nan ∨ .real |x| ≤ r := by
  rcases r with _ | _ | r | _
  · exact iff_of_true ⟨.inl rfl, .inl rfl⟩ (.inl rfl)
  · exact iff_of_false (fun h => h.2.elim Extended.noConfusion id)
      fun h => h.elim Extended.noConfusion id
  · simp [abs_le]
  · exact iff_of_true ⟨.inr (down_le_real x), .inr (real_le_up x)⟩ (.inr (real_le_up |x|))

lemma admits_upright_iff {rx ry low high : Extended} : (upright rx ry low high).Admits p ↔
    (rx = .nan ∨ .real |p.x| ≤ rx) ∧ (ry = .nan ∨ .real |p.y| ≤ ry) ∧
      (low = .nan ∨ low ≤ .real p.z) ∧ (high = .nan ∨ .real p.z ≤ high) := by
  rw [← admits_radius_iff, ← admits_radius_iff (x := p.y)]
  refine ⟨fun h => ⟨h .x, h .y, h .z⟩, fun ⟨hx, hy, hz⟩ a => ?_⟩
  cases a
  · exact hx
  · exact hy
  · exact hz

lemma admits_upright {rx ry low high : Extended} (hx : rx = .nan ∨ .real |p.x| ≤ rx)
    (hy : ry = .nan ∨ .real |p.y| ≤ ry) (hlow : low ≤ .real p.z) (hhigh : .real p.z ≤ high) :
    (upright rx ry low high).Admits p :=
  admits_upright_iff.mpr ⟨hx, hy, .inr hlow, .inr hhigh⟩

lemma abs_le_radius {r x : ℝ} (h : x * x ≤ r * r) : .real |x| ≤ Scalar.abs (Extended.real r) :=
  real_le_real.mpr (abs_le_iff_mul_self_le.mpr h)

lemma le_waistRadius {ratio waist x : ℝ} (h : ratio ≠ 0 ∨ reach clip .z ≠ .up)
    (hclip : clip.Encloses p) (hx : x ^ 2 ≤ ratio * ratio * p.z * p.z + waist) :
    .real |x| ≤ naturalBounds.waistRadius clip (.real ratio) (.real waist) := by
  have hz : .real |p.z| ≤ reach clip .z := abs_le_reach hclip .z
  have hsquare : ratio * ratio * |p.z| * |p.z| = ratio * ratio * p.z * p.z := by
    rw [mul_assoc _ |p.z|, abs_mul_abs_self, ← mul_assoc]
  have hform : .real (ratio * ratio * |p.z| * |p.z|) ≤
      Extended.real (ratio * ratio) * reach clip .z * reach clip .z := by
    rcases eq_or_ne ratio 0 with rfl | hratio
    · rcases real_le_cases hz with hup | ⟨r, hr, -⟩
      · exact absurd hup (h.resolve_left (fun h => h rfl))
      · rw [hr]
        simp
    · exact real_le_mul_mul (mul_self_pos.mpr hratio) (abs_nonneg _) hz
  have hsum := real_le_add hform (show Extended.real waist ≤ .real waist from le_refl waist)
  rw [hsquare] at hsum
  have hroot := real_le_sqrt ((sq_nonneg x).trans hx) (Scalar.le_greater_left (b := 0) hsum)
  have habs : Extended.real |x| ≤ .real √(ratio * ratio * p.z * p.z + waist) := Real.abs_le_sqrt hx
  exact Scalar.Ordered.le_trans _ _ _ habs hroot

lemma le_focalRadius {focal x : ℝ} (hfocal : focal ≠ 0) (hclip : clip.Encloses p)
    (hx : x ^ 2 ≤ focal * p.z) :
    .real |x| ≤ Scalar.sqrt (Scalar.abs (.real focal) * reach clip .z) := by
  have hz : .real |p.z| ≤ reach clip .z := abs_le_reach hclip .z
  have hx' : x ^ 2 ≤ |focal| * |p.z| := hx.trans ((le_abs_self _).trans (abs_mul focal p.z).le)
  have hroot := real_le_sqrt ((sq_nonneg x).trans hx') (real_le_mul (abs_pos.mpr hfocal) hz)
  have habs : Extended.real |x| ≤ .real √(|focal| * |p.z|) := Real.abs_le_sqrt hx'
  exact Scalar.Ordered.le_trans _ _ _ habs hroot

lemma openingHeights_bounds {focal : ℝ} (hfocal : focal ≠ 0) (hz : 0 ≤ focal * p.z) :
    (openingHeights (.real focal : Extended)).1 ≤ .real p.z ∧
      .real p.z ≤ (openingHeights (.real focal : Extended)).2 := by
  simp only [openingHeights, zero_eq, real_le_real, infinity_eq, neg_up]
  split_ifs with hpos
  · have hstrict : 0 < focal := lt_of_le_of_ne hpos hfocal.symm
    exact ⟨nonneg_of_mul_nonneg_right hz hstrict, real_le_up _⟩
  · push Not at hpos
    exact ⟨down_le_real _, nonpos_of_mul_nonneg_right hz hpos⟩

lemma crest_bounds {k : ℝ} (hk : 0 < k) (hclip : clip.Encloses p) :
    -(reach clip .y * reach clip .y) / .real k ≤ .real (-(p.y * p.y) / k) ∧
      .real (p.x * p.x / k) ≤ reach clip .x * reach clip .x / .real k :=
  ⟨div_le_real hk (neg_le_real
      (abs_mul_abs_self p.y ▸ real_le_mul_self (abs_nonneg _) (abs_le_reach hclip .y))),
    real_le_div hk
      (abs_mul_abs_self p.x ▸ real_le_mul_self (abs_nonneg _) (abs_le_reach hclip .x))⟩

lemma saddle_bounds {focal : ℝ} (hfocal : tenth 12 ≤ |focal|) (hclip : clip.Encloses p)
    (hp : p.x * p.x - p.y * p.y = focal * p.z) :
    (naturalBounds clip (real (.hyperParaboloid focal))).Admits p := by
  have hpos : 0 < |focal| := (tenth_pos 12).trans_le hfocal
  obtain ⟨hy, hx⟩ := crest_bounds hpos hclip
  -- the height seen along the opening
  have hheight : ∀ z : ℝ, |focal| * z = p.x * p.x - p.y * p.y →
      -(reach clip .y * reach clip .y) / .real |focal| ≤ .real z ∧
        .real z ≤ reach clip .x * reach clip .x / .real |focal| := by
    intro z hz
    have hlow : -(p.y * p.y) / |focal| ≤ z := by
      rw [div_le_iff₀ hpos]
      nlinarith only [hz, mul_self_nonneg p.x]
    have hhigh : z ≤ p.x * p.x / |focal| := by
      rw [le_div_iff₀ hpos]
      nlinarith only [hz, mul_self_nonneg p.y]
    exact ⟨Scalar.Ordered.le_trans _ _ _ hy (real_le_real.mpr hlow),
      Scalar.Ordered.le_trans _ _ _ (real_le_real.mpr hhigh) hx⟩
  simp only [naturalBounds, real, abs_real, greater_tolerance hfocal, zero_eq, real_lt_real]
  split_ifs with hneg
  · obtain ⟨hlow, hhigh⟩ := hheight (-p.z) (by rw [abs_of_neg hneg, neg_mul_neg, hp])
    refine admits_upright (.inr (real_le_up _)) (.inr (real_le_up _)) ?_ ?_
    · simpa using neg_le_real hhigh
    · simpa using real_le_neg hlow
  · obtain ⟨hlow, hhigh⟩ := hheight p.z (by rw [abs_of_nonneg (not_lt.mp hneg), hp])
    exact admits_upright (.inr (real_le_up _)) (.inr (real_le_up _)) hlow hhigh

/-- The radius of a cone, or none where an open height meets a ratio of zero. -/
lemma le_coneRadius {ratio x z : ℝ} {height : Extended} (hz : .real |z| ≤ height)
    (hx : x * x ≤ ratio * z * (ratio * z)) :
    Scalar.abs (.real ratio) * height = .nan ∨
      .real |x| ≤ Scalar.abs (.real ratio) * height := by
  refine (real_le_mul_of_nonneg (abs_nonneg ratio) hz).imp_right fun hle => ?_
  have habs : Extended.real |x| ≤ .real (|ratio| * |z|) :=
    real_le_real.mpr (abs_mul ratio z ▸ abs_le_iff_mul_self_le.mpr hx)
  exact Scalar.Ordered.le_trans _ _ _ habs hle

/-- The shape at the heights that the clip box keeps, as far as its extent is definite. -/
lemma admits_naturalBounds {s : Shape ℝ} (hs : s.Sturdy clip) (hclip : clip.Encloses p)
    (hp : s.coefficients.form p = 0) : (s.real.naturalBounds clip).Admits p := by
  have hz : .real |p.z| ≤ reach clip .z := abs_le_reach hclip .z
  have hx := mul_self_nonneg p.x
  have hy := mul_self_nonneg p.y
  cases s with
  | plane =>
    simp only [coefficients, Quadric.form] at hp
    have hzero : p.z = 0 := by linarith
    refine admits_upright (.inr (real_le_up _)) (.inr (real_le_up _)) ?_ ?_
    · simp [hzero]
    · simp [hzero]
  | sphere radius =>
    simp only [coefficients, Quadric.form] at hp
    have hz' := mul_self_nonneg p.z
    have hheight := abs_le_radius (r := radius) (x := p.z) (by linarith)
    have hhigh : Extended.real p.z ≤ .real |p.z| := real_le_real.mpr (le_abs_self _)
    have hlow : Extended.real (-|p.z|) ≤ .real p.z := real_le_real.mpr (neg_abs_le _)
    exact admits_upright (.inr (abs_le_radius (by linarith))) (.inr (abs_le_radius (by linarith)))
      (Scalar.Ordered.le_trans _ _ _ (neg_le_real hheight) hlow)
      (Scalar.Ordered.le_trans _ _ _ hhigh hheight)
  | cylinder radius =>
    simp only [coefficients, Quadric.form] at hp
    exact admits_upright (.inr (abs_le_radius (by linarith))) (.inr (abs_le_radius (by linarith)))
      (down_le_real _) (real_le_up _)
  | cone ratio =>
    simp only [coefficients, Quadric.form] at hp
    exact admits_upright (le_coneRadius hz (by linarith)) (le_coneRadius hz (by linarith))
      (down_le_real _) (real_le_up _)
  | paraboloid focal =>
    simp only [coefficients, Quadric.form] at hp
    have hheights := openingHeights_bounds (p := p) hs (by linarith)
    exact admits_upright (.inr (le_focalRadius hs hclip (by linarith)))
      (.inr (le_focalRadius hs hclip (by linarith))) hheights.1 hheights.2
  | hyperboloid ratio waist =>
    simp only [coefficients, Quadric.form] at hp
    exact admits_upright (.inr (le_waistRadius hs hclip (by linarith)))
      (.inr (le_waistRadius hs hclip (by linarith))) (down_le_real _) (real_le_up _)
  | paraCylinder focal =>
    simp only [coefficients, Quadric.form] at hp
    have hheights := openingHeights_bounds (p := p) hs (by linarith)
    exact admits_upright (.inr (le_focalRadius hs hclip (by linarith)))
      (.inr (real_le_up _)) hheights.1 hheights.2
  | hyperCylinder ratio waist =>
    simp only [coefficients, Quadric.form] at hp
    exact admits_upright (.inr (le_waistRadius hs hclip (by linarith))) (.inr (real_le_up _))
      (down_le_real _) (real_le_up _)
  | hyperParaboloid focal =>
    simp only [coefficients, Quadric.form] at hp
    exact saddle_bounds hs hclip (by linarith)

/-- **The box of a surface holds what the clip box keeps of it.** -/
theorem encloses_localBounds {s : Shape ℝ} (hs : s.Sturdy clip) (hclip : clip.Encloses p)
    (hp : s.coefficients.form p = 0) : (s.real.localBounds clip).Encloses p :=
  (admits_naturalBounds hs hclip hp).intersection hclip

end Shape

end SolidTrace
