import Mathlib.Algebra.QuadraticDiscriminant
import SolidTrace.Proofs.Surface.Bounds
import SolidTrace.Proofs.Tracing.Candidates

/-!
Zeros along a line.

Along a line the form of a quadric is a polynomial of degree two. Worked out exactly, the steady
formula of `roots` gives the zeros of the textbook formula, `zeros`, and with them every crossing of
the line, as long as no coefficient counts as absent that is not zero.

Which coefficients count does not depend on how long the direction is, although the coefficients
do. On a direction that is short enough, or one that is turned but little away from the axis of a
tube, the leading coefficient counts as absent and crossings are missed; for a ball a parameter that
is no crossing stands in their place.
-/

namespace SolidTrace

open Extended

namespace Extended

variable (a b : ℝ)

lemma lesser_real : Scalar.lesser (real a) (real b) = real (min a b) := by
  rw [Scalar.lesser, if_neg (not_isNaN_real a)]
  simp only [real_lt_real]
  split_ifs with hlt
  · rw [min_eq_right hlt.le]
  · rw [min_eq_left (not_lt.mp hlt)]

lemma greater_real : Scalar.greater (real a) (real b) = real (max a b) := by
  rw [Scalar.greater, if_neg (not_isNaN_real a)]
  simp only [real_lt_real]
  split_ifs with hlt
  · rw [max_eq_right hlt.le]
  · rw [max_eq_left (not_lt.mp hlt)]

lemma signum_real : Scalar.signum (real b) = real (if b < 0 then -1 else 1) := by
  have hup : ¬(real 1 / real 0 < real 0) := by
    rw [← one_eq, one_div_zero]
    exact id
  rw [Scalar.signum, if_neg (not_isNaN_real b)]
  simp only [zero_eq, one_eq, real_neg, real_lt_real, Bool.and_eq_true, beq_real, decide_eq_true_eq]
  split_ifs with hneg hzero
  · rfl
  · obtain ⟨rfl, hlt⟩ := hzero
    exact absurd hlt hup
  · rfl

end Extended

/-! ### Polynomials -/

/-- The zeros of `a t² + b t + c`, ascending, with small coefficients taken as absent. A zero at
which the polynomial does not change its sign is listed twice. -/
noncomputable def zeros (a b c : ℝ) : List ℝ :=
  if |a| < tenth 12 then
    if tenth 12 ≤ |b| then [-c / b] else []
  else if discrim a b c < 0 then []
  else
    let s := √(discrim a b c)
    [min ((-b - s) / (2 * a)) ((-b + s) / (2 * a)), max ((-b - s) / (2 * a)) ((-b + s) / (2 * a))]

section

variable {a b c : ℝ}

lemma ne_zero_of_tenth_le {x : ℝ} (h : tenth 12 ≤ |x|) : x ≠ 0 :=
  abs_pos.mp ((tenth_pos 12).trans_le h)

lemma zeros_pairwise (a b c : ℝ) : (zeros a b c).Pairwise (· ≤ ·) := by
  unfold zeros
  split_ifs
  · exact List.pairwise_singleton _ _
  · exact List.Pairwise.nil
  · exact List.Pairwise.nil
  · exact List.pairwise_pair.mpr min_le_max

lemma mem_min_max {t x y : ℝ} : t ∈ [min x y, max x y] ↔ t = x ∨ t = y := by
  rw [List.mem_pair]
  rcases le_total x y with h | h
  · rw [min_eq_left h, max_eq_right h]
  · rw [min_eq_right h, max_eq_left h, or_comm]

/-- The leading term, where its coefficient counts as absent. -/
noncomputable def neglected (a t : ℝ) : ℝ := if tenth 12 ≤ |a| then 0 else a * t ^ 2

lemma neglected_eq_zero (h : a = 0 ∨ tenth 12 ≤ |a|) (t : ℝ) : neglected a t = 0 := by
  rw [neglected]
  rcases h with rfl | ha
  · rw [zero_mul, ite_self]
  · rw [if_pos ha]

/-- **A polynomial is its neglected term at its zeros and nowhere else.** With both coefficients
absent there are no zeros. -/
lemma mem_zeros {t : ℝ} : t ∈ zeros a b c ↔
    (tenth 12 ≤ |a| ∨ tenth 12 ≤ |b|) ∧ a * t ^ 2 + b * t + c = neglected a t := by
  by_cases ha : tenth 12 ≤ |a|
  · rw [zeros, if_neg ha.not_gt, neglected, if_pos ha, and_iff_right (.inl ha), sq]
    split_ifs with hneg
    · have hne : ∀ s : ℝ, discrim a b c ≠ s ^ 2 := fun s hs => hneg.not_ge (hs ▸ sq_nonneg s)
      exact iff_of_false List.not_mem_nil (quadratic_ne_zero_of_discrim_ne_sq hne t)
    · rw [mem_min_max, quadratic_eq_zero_iff (ne_zero_of_tenth_le ha)
        (Real.mul_self_sqrt (not_lt.mp hneg)).symm, or_comm]
  · rw [zeros, if_pos (not_le.mp ha), neglected, if_neg ha, or_iff_right ha]
    split_ifs with hb
    · rw [List.mem_singleton, eq_div_iff (ne_zero_of_tenth_le hb), and_iff_right hb]
      constructor <;> intro h <;> linarith
    · exact iff_of_false List.not_mem_nil fun h => hb h.1

/-- No coefficient counts as absent that is not zero, and the polynomial is not constant. -/
def Decisive (a b : ℝ) : Prop := tenth 12 ≤ |a| ∨ a = 0 ∧ tenth 12 ≤ |b|

/-- A polynomial vanishes at its zeros and nowhere else when nothing is neglected. -/
lemma Decisive.mem_zeros (h : Decisive a b) {t : ℝ} :
    t ∈ zeros a b c ↔ a * t ^ 2 + b * t + c = 0 := by
  rw [SolidTrace.mem_zeros, neglected_eq_zero (h.symm.imp_left And.left),
    and_iff_right (h.imp_right And.right)]

lemma zeros_scale {k : ℝ} (hk : 0 < k) (h : Decisive a b)
    (hscaled : Decisive (k ^ 2 * a) (k * b)) :
    zeros (k ^ 2 * a) (k * b) c = (zeros a b c).map (· / k) := by
  rcases h with ha | ⟨rfl, hb⟩
  · have ha₀ := ne_zero_of_tenth_le ha
    have hlead : tenth 12 ≤ |k ^ 2 * a| :=
      hscaled.resolve_right fun h => mul_ne_zero (pow_pos hk 2).ne' ha₀ h.1
    have hdiscrim : discrim (k ^ 2 * a) (k * b) c = k ^ 2 * discrim a b c := by
      simp only [discrim]
      ring
    have hneg : k ^ 2 * discrim a b c < 0 ↔ discrim a b c < 0 :=
      smul_neg_iff_of_pos_left (pow_pos hk 2)
    have hroot : √(k ^ 2 * discrim a b c) = k * √(discrim a b c) := by
      rw [Real.sqrt_mul (sq_nonneg k), Real.sqrt_sq hk.le]
    have hlow : (-(k * b) - k * √(discrim a b c)) / (2 * (k ^ 2 * a)) =
        (-b - √(discrim a b c)) / (2 * a) / k := by
      field_simp
    have hhigh : (-(k * b) + k * √(discrim a b c)) / (2 * (k ^ 2 * a)) =
        (-b + √(discrim a b c)) / (2 * a) / k := by
      field_simp
    simp only [zeros, if_neg ha.not_gt, if_neg hlead.not_gt, hdiscrim, hneg, hroot, hlow, hhigh,
      min_div_div_right hk.le, max_div_div_right hk.le]
    split_ifs <;> rfl
  · have hsmall : |(0 : ℝ)| < tenth 12 := abs_zero.trans_lt (tenth_pos 12)
    rw [mul_zero] at hscaled ⊢
    have htilt : tenth 12 ≤ |k * b| := (hscaled.resolve_left hsmall.not_ge).2
    simp only [zeros, if_pos hsmall, if_pos hb, if_pos htilt, List.map_singleton]
    rw [mul_comm k b, div_mul_eq_div_div]

/-- The steady formula: the sum that does not cancel gives one zero, the product of the zeros the
other. -/
lemma steady_pair (ha : a ≠ 0) {s k : ℝ} (hs : s * s = discrim a b c) (hpos : 0 ≤ s)
    (hk : k = -(5 / 10) * (b + (if b < 0 then -1 else 1) * s)) :
    (k = 0 → b = 0 ∧ s = 0) ∧ (k ≠ 0 →
      k / a = (-b - s) / (2 * a) ∧ c / k = (-b + s) / (2 * a) ∨
        k / a = (-b + s) / (2 * a) ∧ c / k = (-b - s) / (2 * a)) := by
  rw [discrim] at hs
  split_ifs at hk with hb
  · refine ⟨fun hk₀ => by linarith, fun hk₀ => .inr ⟨?_, ?_⟩⟩
    · rw [hk]
      field_simp
      ring
    · rw [div_eq_div_iff hk₀ (mul_ne_zero two_ne_zero ha), hk]
      linear_combination (1 / 2) * hs
  · refine ⟨fun hk₀ => ⟨by linarith, by linarith⟩, fun hk₀ => .inl ⟨?_, ?_⟩⟩
    · rw [hk]
      field_simp
      ring
    · rw [div_eq_div_iff hk₀ (mul_ne_zero two_ne_zero ha), hk]
      linear_combination (1 / 2) * hs

end

/-! ### Lines -/

namespace Quadric

variable (q : Quadric ℝ) (o d : Vec ℝ)

def lead : ℝ := q.a * d.x * d.x + q.b * d.y * d.y + q.c * d.z * d.z

def tilt : ℝ := 2 * (q.a * o.x * d.x + q.b * o.y * d.y + q.c * o.z * d.z) + q.d * d.z

/-- The leading coefficient is zero when it counts as absent. -/
def Definite : Prop := q.lead d = 0 ∨ tenth 12 ≤ |q.lead d|

lemma form_along (t : ℝ) :
    q.form (o.along d t) = q.lead d * t ^ 2 + q.tilt o d * t + q.form o := by
  simp only [form, Vec.along, lead, tilt]
  ring

/-- **The steady formula is the textbook formula.** -/
lemma roots_real : q.real.roots o.real d.real =
    (zeros (q.lead d) (q.tilt o d) (q.form o)).map Extended.real := by
  have hlead : q.real.a * d.real.x * d.real.x + q.real.b * d.real.y * d.real.y +
      q.real.c * d.real.z * d.real.z = .real (q.lead d) := rfl
  have htilt : 2 * (q.real.a * o.real.x * d.real.x + q.real.b * o.real.y * d.real.y +
      q.real.c * o.real.z * d.real.z) + q.real.d * d.real.z = .real (q.tilt o d) := by
    rw [ofNat_eq]
    rfl
  simp only [roots, hlead, htilt, value_real, abs_real, tolerance_eq, real_lt_real,
    real_le_real]
  generalize q.lead d = a, q.tilt o d = b, q.form o = c
  have hdisc : Extended.real b * .real b - 4 * .real a * .real c = .real (discrim a b c) := by
    rw [ofNat_eq, real_mul, real_mul, real_mul, real_sub, discrim, sq]
  have hhalf : (-0.5 : Extended) = .real (-(5 / 10)) := by
    change Extended.real (-(if true = true then ((5 : ℕ) : ℝ) / 10 ^ 1 else _)) = _
    rw [if_pos rfl, Nat.cast_ofNat, pow_one]
  have hsteady (h : 0 ≤ discrim a b c) : -0.5 * (Extended.real b + Scalar.signum (.real b) *
      Scalar.sqrt (.real (discrim a b c))) =
        .real (-(5 / 10) * (b + (if b < 0 then -1 else 1) * √(discrim a b c))) := by
    rw [hhalf, signum_real, sqrt_real h, real_mul, real_add, real_mul]
  simp only [hdisc, zero_eq, real_lt_real]
  unfold zeros
  split_ifs with hsmall hb hneg hk₀
  · rw [real_neg, real_div _ (ne_zero_of_tenth_le hb)]
    rfl
  · rfl
  · rfl
  all_goals
    have ha := ne_zero_of_tenth_le (not_lt.mp hsmall)
    have hroot := Real.mul_self_sqrt (not_lt.mp hneg)
    obtain ⟨hdouble, hsimple⟩ := steady_pair ha hroot (Real.sqrt_nonneg _) rfl
    rw [hsteady (not_lt.mp hneg), beq_real] at hk₀
  · obtain ⟨rfl, hs⟩ := hdouble hk₀
    rw [hs, ofNat_eq, real_mul, real_neg, real_div _ (mul_ne_zero two_ne_zero ha), lesser_real,
      greater_real]
    simp
  · rw [hsteady (not_lt.mp hneg), real_div _ ha, real_div _ hk₀, lesser_real, greater_real]
    rcases hsimple hk₀ with ⟨hx, hy⟩ | ⟨hx, hy⟩
    · rw [hx, hy]
      rfl
    · rw [hx, hy, min_comm, max_comm]
      rfl

variable {q o d}

lemma mem_roots_iff {x : Extended} : x ∈ q.real.roots o.real d.real ↔
    ∃ t : ℝ, x = .real t ∧ t ∈ zeros (q.lead d) (q.tilt o d) (q.form o) := by
  simp only [roots_real, List.mem_map, and_comm, eq_comm]

/-- **A line crosses a quadric where its form vanishes.** -/
lemma exists_real_of_mem_roots (hd : q.Definite d) {t : Extended}
    (ht : t ∈ q.real.roots o.real d.real) :
    ∃ r : ℝ, t = .real r ∧ q.form (o.along d r) = 0 := by
  obtain ⟨r, rfl, hr⟩ := mem_roots_iff.mp ht
  obtain ⟨-, hzero⟩ := mem_zeros.mp hr
  exact ⟨r, rfl, (form_along q o d r).trans (hzero.trans (neglected_eq_zero hd r))⟩

lemma lead_scale (k : ℝ) : q.lead (d.map (k * ·)) = k ^ 2 * q.lead d := by
  simp only [lead, Vec.map]
  ring

lemma tilt_scale (k : ℝ) : q.tilt o (d.map (k * ·)) = k * q.tilt o d := by
  simp only [tilt, Vec.map]
  ring

lemma value_along (t : ℝ) : q.real.value (o.real + d.real.scale (.real t)) =
    .real (q.lead d * t ^ 2 + q.tilt o d * t + q.form o) := by
  rw [Vec.real_add_scale, value_real, form_along]

/-- **A line crosses a quadric at its roots and nowhere else**, in the order of the line, and a
longer direction divides the parameters. -/
theorem roots_exact (h : Decisive (q.lead d) (q.tilt o d)) :
    (∀ x : Extended, x ∈ q.real.roots o.real d.real ↔
      ∃ t : ℝ, x = .real t ∧ q.real.value (o.real + d.real.scale (.real t)) = 0) ∧
    (q.real.roots o.real d.real).Pairwise (· ≤ ·) ∧
    ∀ k : ℝ, 0 < k → Decisive (q.lead (d.map (k * ·))) (q.tilt o (d.map (k * ·))) →
      q.real.roots o.real (d.real.scale (.real k)) =
        (q.real.roots o.real d.real).map (· / .real k) := by
  refine ⟨fun x => ?_, ?_, fun k hk hscaled => ?_⟩
  · simp only [mem_roots_iff, h.mem_zeros, value_along, zero_eq, Extended.real.injEq]
  · rw [roots_real, List.pairwise_map]
    exact zeros_pairwise _ _ _
  · have hdir : d.real.scale (.real k) = (d.map (k * ·)).real := rfl
    have hdiv : ∀ t : ℝ, Extended.real (t / k) = .real t / .real k :=
      fun t => (real_div t hk.ne').symm
    rw [lead_scale, tilt_scale] at hscaled
    rw [hdir, roots_real, roots_real, lead_scale, tilt_scale, zeros_scale hk h hscaled,
      List.map_map, List.map_map]
    exact List.map_congr_left fun t _ => hdiv t

lemma form_ball (k t : ℝ) :
    (Shape.sphere 1).coefficients.form (Vec.along ⟨0, 0, -3⟩ ⟨0, 0, k⟩ t) =
      (k * t - 3) ^ 2 - 1 := by
  simp only [form, Shape.coefficients, Vec.along]
  ring

/-- **A ball is missed on a short direction.** It is entered at 2 and left at 4; with the direction
divided by `2 ^ 21` the form still vanishes at `2 ^ 21` times these, but the one root lies before
both. -/
theorem roots_short_ball :
    let ball := (Shape.sphere 1).real.quadric
    let origin := Vec.real ⟨0, 0, -3⟩
    let direction := Vec.real ⟨0, 0, 1⟩
    let short := direction.scale (.real (1 / 2 ^ 21))
    ball.roots origin direction = [.real 2, .real 4] ∧
      ball.value (origin + short.scale (.real (2 ^ 22))) = 0 ∧
      ball.value (origin + short.scale (.real (2 ^ 23))) = 0 ∧
      ball.roots origin short = [.real (2 ^ 23 / 3)] ∧
      ball.value (origin + short.scale (.real (2 ^ 23 / 3))) ≠ 0 := by
  intro ball origin direction short
  have hball : ball = (Shape.sphere 1).coefficients.real := Shape.quadric_real _
  have hshort : short = Vec.real ⟨0, 0, 1 / 2 ^ 21⟩ := by
    simp only [short, direction, Vec.scale, Vec.map, Vec.real, real_mul, mul_zero, mul_one]
  have hdiscrim : discrim (1 : ℝ) (-6) 8 = 2 ^ 2 := by
    norm_num [discrim]
  have hroot : √(discrim (1 : ℝ) (-6) 8) = 2 := by
    rw [hdiscrim, Real.sqrt_sq two_pos.le]
  have hvalue (t : ℝ) : ball.value (origin + short.scale (.real t)) =
      .real ((1 / 2 ^ 21 * t - 3) ^ 2 - 1) := by
    rw [hball, hshort, Vec.real_add_scale, value_real, form_ball]
  refine ⟨?_, ?_, ?_, ?_, ?_⟩
  · rw [hball, roots_real]
    norm_num [zeros, lead, tilt, form, Shape.coefficients, tenth, hroot]
    norm_num [hdiscrim]
  · rw [hvalue, zero_eq]
    norm_num
  · rw [hvalue, zero_eq]
    norm_num
  · rw [hball, hshort, roots_real]
    norm_num [zeros, lead, tilt, form, Shape.coefficients, tenth]
  · rw [hvalue, zero_eq]
    norm_num

/-- The line from the centre of a tube, turned but little away from its axis. -/
noncomputable def slant : Vec ℝ := ⟨1 / 2 ^ 21, 0, 1⟩

/-- A line that crosses a tube far away has a leading coefficient that counts as absent. -/
theorem roots_slant_eq_nil :
    let tube := (Shape.cylinder 1).real.quadric
    let centre := Vec.real ⟨0, 0, 0⟩
    tube.value (centre + slant.real.scale (.real (2 ^ 21))) = 0 ∧
      tube.value (centre + slant.real.scale (.real 0)) ≠ 0 ∧ tube.roots centre slant.real = [] := by
  dsimp only
  rw [Shape.quadric_real]
  refine ⟨?_, ?_, ?_⟩
  · rw [Vec.real_add_scale, value_real, zero_eq]
    norm_num [form, Shape.coefficients, Vec.along, slant]
  · rw [Vec.real_add_scale, value_real, zero_eq]
    norm_num [form, Shape.coefficients, Vec.along, slant]
  · have hlead : |(Shape.cylinder 1).coefficients.lead slant| < tenth 12 := by
      norm_num [lead, Shape.coefficients, slant, tenth, abs_lt]
    have htilt : ¬tenth 12 ≤ |(Shape.cylinder 1).coefficients.tilt ⟨0, 0, 0⟩ slant| := by
      norm_num [tilt, Shape.coefficients, slant, tenth]
    rw [roots_real, zeros, if_pos hlead, if_neg htilt, List.map_nil]

end Quadric

end SolidTrace
