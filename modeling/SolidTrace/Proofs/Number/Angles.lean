import Mathlib.Algebra.Order.ToIntervalMod
import SolidTrace.Motion.Animator
import SolidTrace.Proofs.Number.Extended

/-!
Angles in degrees.

In exact arithmetic an angle that is wrapped is the one in `[0, 360)` that differs from it by full
turns, so that it is of no account how often an angle is wrapped while it is added up.
-/

namespace SolidTrace

/-- An angle without its full turns. -/
noncomputable def wrapped (x : ℝ) : ℝ := toIcoMod (p := 360) (by norm_num) 0 x

lemma wrapped_eq_iff {x a : ℝ} : wrapped x = a ↔ (0 ≤ a ∧ a < 360) ∧ ∃ k : ℤ, x = a + 360 * k := by
  rw [wrapped, toIcoMod_eq_iff, zero_add, Set.mem_Ico]
  simp only [zsmul_eq_mul, mul_comm]

section

variable (x y : ℝ)

lemma wrapped_nonneg : 0 ≤ wrapped x := (toIcoMod_mem_Ico' _ x).1

lemma wrapped_lt : wrapped x < 360 := (toIcoMod_mem_Ico' _ x).2

lemma exists_wrapped : ∃ k : ℤ, x = wrapped x + 360 * k := (wrapped_eq_iff.mp rfl).2

variable {x} in
lemma wrapped_of_range (h : 0 ≤ x ∧ x < 360) : wrapped x = x := wrapped_eq_iff.mpr ⟨h, 0, by simp⟩

lemma wrapped_add_turns (k : ℤ) : wrapped (x + 360 * k) = wrapped x := by
  rw [wrapped, mul_comm, ← zsmul_eq_mul]
  exact toIcoMod_add_zsmul _ 0 x k

/-- **Full turns may be left out at any time.** -/
lemma wrapped_wrapped_add : wrapped (wrapped x + y) = wrapped (x + y) := by
  obtain ⟨k, hk⟩ := exists_wrapped x
  have hsum : x + y = wrapped x + y + 360 * k := by linarith
  rw [hsum, wrapped_add_turns]

end

namespace Extended

variable (x y : ℝ)

lemma wrap_remainder : Scalar.wrap (real x) 360 =
    let r := x - 360 * (if 0 ≤ x / 360 then ⌊x / 360⌋ else ⌈x / 360⌉)
    if r < 0 then real (r + 360) else real r := by
  have hrem : Scalar.rem (real x) (real 360) =
      real (x - 360 * (if 0 ≤ x / 360 then ⌊x / 360⌋ else ⌈x / 360⌉)) := rfl
  have habs : |(360 : ℝ)| = 360 := abs_of_nonneg (by norm_num)
  rw [ofNat_eq]
  simp only [Scalar.wrap, hrem, zero_eq, real_lt_real, abs_real, habs, real_add]

/-- **Wrapping leaves out full turns.** -/
lemma wrap_real : Scalar.wrap (real x) 360 = real (wrapped x) := by
  rw [wrap_remainder]
  rcases le_or_gt 0 (x / 360) with hpos | hneg
  · have hlow := Int.floor_le (x / 360)
    have hhigh := Int.lt_floor_add_one (x / 360)
    simp only [if_pos hpos]
    rw [if_neg (by linarith), wrapped_eq_iff.mpr ⟨⟨?_, ?_⟩, ⌊x / 360⌋, ?_⟩]
    · linarith
    · linarith
    · ring
  · have hlow := Int.ceil_lt_add_one (x / 360)
    have hhigh := Int.le_ceil (x / 360)
    simp only [if_neg hneg.not_ge]
    split
    · rw [wrapped_eq_iff.mpr ⟨⟨?_, ?_⟩, ⌈x / 360⌉ - 1, ?_⟩]
      · linarith
      · linarith
      · push_cast
        ring
    · rw [wrapped_eq_iff.mpr ⟨⟨?_, ?_⟩, ⌈x / 360⌉, ?_⟩]
      · linarith
      · linarith
      · ring

lemma turned_real : Animator.turned (real x) (real y) = real (wrapped (x + y)) := by
  have hlt : ¬(360 : Extended) ≤ real (wrapped (x + y)) := by
    rw [ofNat_eq, real_le_real]
    exact (wrapped_lt _).not_ge
  unfold Animator.turned
  rw [real_add, wrap_real]
  exact if_neg hlt

end Extended

end SolidTrace
