import SolidTrace.Proofs.Surface.Bounds

/-!
What the boxes of surfaces lose.

The box of a shape holds what the clip box keeps of it but for shapes without a focus or a slope.
`Kept` tells the points of these that are in the box. A paraboloid without a focus is its own axis,
of which the box has the upper half; a hyperboloid without a slope is a tube, of which the box has
nothing but the axis when the heights are open.
-/

namespace SolidTrace

open Extended

namespace Extended

variable {x : Extended} {a : ℝ}

lemma neg_eq_nan_iff : -x = nan ↔ x = nan := by
  rcases x with _ | _ | r | _
  · exact Iff.rfl
  · exact iff_of_false Extended.noConfusion Extended.noConfusion
  · exact iff_of_false Extended.noConfusion Extended.noConfusion
  · exact iff_of_false Extended.noConfusion Extended.noConfusion

lemma neg_le_real_iff : -x ≤ real a ↔ real (-a) ≤ x := by
  rcases x with _ | _ | r | _
  · exact Iff.rfl
  · exact Iff.rfl
  · exact neg_le (a := r)
  · exact iff_of_true (down_le_real a) (real_le_up _)

lemma real_le_neg_iff : real a ≤ -x ↔ x ≤ real (-a) := by
  rcases x with _ | _ | r | _
  · exact Iff.rfl
  · exact iff_of_true (real_le_up a) (down_le_real _)
  · exact le_neg (a := a)
  · exact Iff.rfl

end Extended

/-- The part of a box inside another one holds the points of that one that the box does not keep
out. -/
lemma Box.encloses_intersection_iff {b c : Box Extended} {p : Vec ℝ} (hc : c.Encloses p) :
    (b.intersection c).Encloses p ↔ b.Admits p := by
  refine ⟨fun h a => ?_, fun h => h.intersection hc⟩
  have ha := h a
  have hca := hc a
  rw [intersection, get_zip, get_zip, get_real] at ha
  rw [get_real] at hca
  have hmin := (Scalar.Ordered.definite _ _ hca.1).1
  have hmax := (Scalar.Ordered.definite _ _ hca.2).2
  constructor
  · refine or_iff_not_imp_left.mpr fun hb => ?_
    exact ((Scalar.greater_le_iff (ne_nan_iff.mpr hb) hmin).mp ha.1).1
  · refine or_iff_not_imp_left.mpr fun hb => ?_
    exact ((Scalar.le_lesser_iff (ne_nan_iff.mpr hb) hmax).mp ha.2).1

namespace Shape

variable {clip : Box Extended} {p : Vec ℝ} {s : Shape ℝ}

/-- The heights of a saddle so steep that its focus counts as the tolerance. -/
def InSteepSaddle (clip : Box Extended) (height : ℝ) : Prop :=
  -(reach clip .y * reach clip .y) / .real (tenth 12) ≤ .real height ∧
    .real height ≤ reach clip .x * reach clip .x / .real (tenth 12)

/-- The point of the surface is in the box of the shape. -/
def Kept (clip : Box Extended) (p : Vec ℝ) : Shape ℝ → Prop
  | plane | sphere _ | cylinder _ | cone _ => True
  | paraboloid focal | paraCylinder focal => focal = 0 → 0 ≤ p.z
  | hyperboloid ratio _ => ratio = 0 → reach clip .z = .up → p.x = 0 ∧ p.y = 0
  | hyperCylinder ratio _ => ratio = 0 → reach clip .z = .up → p.x = 0
  | hyperParaboloid focal => |focal| < tenth 12 →
    InSteepSaddle clip (if focal < 0 then -p.z else p.z)

lemma Sturdy.kept (h : s.Sturdy clip) : s.Kept clip p := by
  cases s with
  | paraboloid focal => exact fun h₀ => absurd h₀ h
  | paraCylinder focal => exact fun h₀ => absurd h₀ h
  | hyperboloid ratio waist => exact fun h₀ hup => absurd hup (h.resolve_left fun hne => hne h₀)
  | hyperCylinder ratio waist => exact fun h₀ hup => absurd hup (h.resolve_left fun hne => hne h₀)
  | hyperParaboloid focal => exact fun hlt => absurd h hlt.not_ge
  | _ => trivial

lemma zero_mul_up : Extended.real 0 * .up = .nan := by
  change ofSign (SignType.sign 0 * 1) = .nan
  rw [sign_zero]
  rfl

lemma focalRadius_zero (hclip : clip.Encloses p) :
    Scalar.sqrt (Scalar.abs (.real 0) * reach clip .z) = .nan ∨
      .real |0| ≤ Scalar.sqrt (Scalar.abs (.real 0) * reach clip .z) := by
  rw [abs_real, abs_zero]
  rcases real_le_cases (abs_le_reach hclip .z) with hup | ⟨r, hr, -⟩
  · left
    rw [hup, zero_mul_up]
    rfl
  · right
    rw [hr, real_mul, zero_mul, sqrt_real le_rfl, Real.sqrt_zero]
    exact le_refl (0 : ℝ)

lemma real_zero_admits_iff {x : ℝ} : Extended.real 0 = nan ∨ Extended.real |x| ≤ Extended.real 0 ↔
    x = 0 := by
  simp

/-- Without a slope the radius at open heights is zero, whatever the waist. -/
lemma waistRadius_zero (hup : reach clip .z = .up) (waist : Extended) :
    naturalBounds.waistRadius clip (.real 0) waist = .real 0 := by
  have hsum : Extended.nan * .up + waist = .nan := by
    cases waist <;> rfl
  rw [naturalBounds.waistRadius, hup, real_mul, zero_mul, zero_mul_up, hsum, greater_nan, zero_eq,
    sqrt_real le_rfl, Real.sqrt_zero]

/-- A saddle that is steeper than the tolerance has the heights of one that is as steep. -/
lemma admits_steepSaddle_iff {focal : ℝ} (hclip : clip.Encloses p) (h : |focal| < tenth 12) :
    (naturalBounds clip (real (.hyperParaboloid focal))).Admits p ↔
      InSteepSaddle clip (if focal < 0 then -p.z else p.z) := by
  have hfocus : Scalar.greater (.real |focal|) (Quadric.linearTolerance : Extended) =
      .real (tenth 12) := by
    rw [Scalar.greater, Quadric.tolerance_eq, if_neg (not_isNaN_real _),
      if_pos (real_lt_real.mpr h)]
  obtain ⟨hy, hx⟩ := crest_bounds (tenth_pos 12) hclip
  have hlow := ne_nan_iff.mp (Scalar.Ordered.definite _ _ hy).1
  have hhigh := ne_nan_iff.mp (Scalar.Ordered.definite _ _ hx).2
  simp only [naturalBounds, real, abs_real, hfocus, zero_eq, real_lt_real, InSteepSaddle]
  generalize -(reach clip .y * reach clip .y) / .real (tenth 12) = low at *
  generalize reach clip .x * reach clip .x / .real (tenth 12) = high at *
  split_ifs with hneg
  · simp only [admits_upright_iff, infinity_eq, real_le_up, or_true, true_and, neg_eq_nan_iff, hlow,
      hhigh, false_or, neg_le_real_iff, real_le_neg_iff]
    exact and_comm
  · simp only [admits_upright_iff, infinity_eq, real_le_up, or_true, true_and, hlow, hhigh,
      false_or]

/-- **What is in the box of a surface.** Of what the clip box keeps, the box of the surface holds
the points that are `Kept` and no others. -/
theorem encloses_localBounds_iff (hclip : clip.Encloses p) (hp : s.coefficients.form p = 0) :
    (s.real.localBounds clip).Encloses p ↔ s.Kept clip p := by
  rw [localBounds, Box.encloses_intersection_iff hclip]
  by_cases hs : s.Sturdy clip
  · exact iff_of_true (admits_naturalBounds hs hclip hp) hs.kept
  have hup : ∀ t : ℝ, up = nan ∨ Extended.real t ≤ up := fun t => .inr (real_le_up t)
  have hdown : down = nan ∨ down ≤ Extended.real p.z := .inr (down_le_real _)
  have hx := mul_self_nonneg p.x
  have hy := mul_self_nonneg p.y
  cases s with
  | plane | sphere | cylinder | cone => exact absurd trivial hs
  | paraboloid focal =>
    obtain rfl : focal = 0 := not_not.mp hs
    simp only [coefficients, Quadric.form] at hp
    have hx₀ : p.x = 0 := mul_self_eq_zero.mp (by linarith)
    have hy₀ : p.y = 0 := mul_self_eq_zero.mp (by linarith)
    have hr := focalRadius_zero hclip
    simp only [naturalBounds, real, openingHeights, zero_eq, real_le_real, le_refl, if_true,
      infinity_eq, admits_upright_iff, hx₀, hy₀]
    exact ⟨fun h _ => h.2.2.1.resolve_left Extended.noConfusion,
      fun h => ⟨hr, hr, .inr (h rfl), hup _⟩⟩
  | paraCylinder focal =>
    obtain rfl : focal = 0 := not_not.mp hs
    simp only [coefficients, Quadric.form] at hp
    have hx₀ : p.x = 0 := mul_self_eq_zero.mp (by linarith)
    have hr := focalRadius_zero hclip
    simp only [naturalBounds, real, openingHeights, zero_eq, real_le_real, le_refl, if_true,
      infinity_eq, admits_upright_iff, hx₀]
    exact ⟨fun h _ => h.2.2.1.resolve_left Extended.noConfusion,
      fun h => ⟨hr, hup _, .inr (h rfl), hup _⟩⟩
  | hyperboloid ratio waist =>
    simp only [Sturdy, not_or, not_not] at hs
    obtain ⟨rfl, hreach⟩ := hs
    simp only [naturalBounds, real, waistRadius_zero hreach, infinity_eq, neg_up,
      admits_upright_iff, real_zero_admits_iff]
    exact ⟨fun h _ _ => ⟨h.1, h.2.1⟩, fun h => ⟨(h rfl hreach).1, (h rfl hreach).2, hdown, hup _⟩⟩
  | hyperCylinder ratio waist =>
    simp only [Sturdy, not_or, not_not] at hs
    obtain ⟨rfl, hreach⟩ := hs
    simp only [naturalBounds, real, waistRadius_zero hreach, infinity_eq, neg_up,
      admits_upright_iff, real_zero_admits_iff]
    exact ⟨fun h _ _ => h.1, fun h => ⟨h rfl hreach, hup _, hdown, hup _⟩⟩
  | hyperParaboloid focal =>
    have hlt := not_le.mp hs
    rw [admits_steepSaddle_iff hclip hlt]
    exact ⟨fun h _ => h, fun h => h hlt⟩

/-- **A tube is lost.** Of a hyperboloid with a waist and without a slope, the box holds no point
when the heights are open. -/
theorem not_encloses_tube {waist : ℝ} (hwaist : 0 < waist) (hup : reach clip .z = .up)
    (hclip : clip.Encloses p) (hp : (hyperboloid 0 waist).coefficients.form p = 0) :
    ¬((hyperboloid 0 waist).real.localBounds clip).Encloses p := by
  rw [encloses_localBounds_iff hclip hp]
  intro hkept
  obtain ⟨hx, hy⟩ := hkept rfl hup
  simp only [coefficients, Quadric.form, hx, hy] at hp
  linarith

-- doubles lose the tube as well
example : (hyperboloid 0 1 : Shape Float).quadric.value ⟨1, 0, 0⟩ == 0 ∧
    !((hyperboloid 0 1 : Shape Float).localBounds Box.infinite).containsPoint ⟨1, 0, 0⟩ 0 := by
  decide +kernel

end Shape

end SolidTrace
