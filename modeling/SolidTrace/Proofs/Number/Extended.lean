import Mathlib.Analysis.SpecialFunctions.Complex.Arg
import Mathlib.Analysis.SpecialFunctions.Pow.Real
import Mathlib.Data.Sign.Basic
import SolidTrace.Proofs.Number.Order

/-!
Exact arithmetic.

The extended numbers are the real ones, the two infinities and `nan`, with the operations of
floating-point arithmetic and no rounding. Read over them, the geometry says what it is meant to
say. There is one zero, of positive sign. Texts and colours are of no concern here.
-/

namespace SolidTrace

inductive Extended
  | nan
  | down
  | real (r : ℝ)
  | up

namespace Extended

/-- The infinity of a sign. -/
def ofSign : SignType → Extended
  | .zero => nan
  | .neg => down
  | .pos => up

noncomputable def sign : Extended → SignType
  | nan => 0
  | down => -1
  | real r => SignType.sign r
  | up => 1

protected noncomputable def add : Extended → Extended → Extended
  | real a, real b => real (a + b)
  | up, real _ | real _, up | up, up => up
  | down, real _ | real _, down | down, down => down
  | _, _ => nan

protected def neg : Extended → Extended
  | nan => nan
  | down => up
  | real a => real (-a)
  | up => down

protected noncomputable def mul : Extended → Extended → Extended
  | real a, real b => real (a * b)
  | nan, _ | _, nan => nan
  | a, b => ofSign (a.sign * b.sign)

protected noncomputable def div : Extended → Extended → Extended
  | real a, real b => if b = 0 then ofSign (SignType.sign a) else real (a / b)
  | real _, up | real _, down => real 0
  | up, real b => if 0 ≤ b then up else down
  | down, real b => if 0 ≤ b then down else up
  | _, _ => nan

protected def LE : Extended → Extended → Prop
  | nan, _ | _, nan => False
  | down, _ | _, up => True
  | real a, real b => a ≤ b
  | _, _ => False

protected def LT : Extended → Extended → Prop
  | real a, real b => a < b
  | down, real _ | down, up | real _, up => True
  | _, _ => False

/-- A function of real numbers, which has no value elsewhere. -/
def lift (f : ℝ → ℝ) : Extended → Extended
  | real a => real (f a)
  | _ => nan

def lift₂ (f : ℝ → ℝ → ℝ) : Extended → Extended → Extended
  | real a, real b => real (f a b)
  | _, _ => nan

noncomputable def sqrt : Extended → Extended
  | real a => if a < 0 then nan else real √a
  | up => up
  | _ => nan

noncomputable def abs : Extended → Extended
  | nan => nan
  | real a => real |a|
  | _ => up

noncomputable def floor : Extended → ℤ
  | nan => 0
  | down => -2 ^ 63
  | real a => max (-2 ^ 63) (min ⌊a⌋ (2 ^ 63 - 1))
  | up => 2 ^ 63 - 1

noncomputable def truncate : Extended → ℕ
  | real a => min ⌊a⌋₊ (2 ^ 64 - 1)
  | up => 2 ^ 64 - 1
  | _ => 0

open Classical in
noncomputable instance : Scalar Extended where
  add := Extended.add
  sub a b := a.add b.neg
  mul := Extended.mul
  div := Extended.div
  neg := Extended.neg
  lt := Extended.LT
  le := Extended.LE
  beq a b := @decide (a = b ∧ a ≠ nan) (propDecidable _)
  decLt := fun _ _ => inferInstance
  decLe := fun _ _ => inferInstance
  ofInt n := real n
  ofDecimal m s e := real (if s then m / 10 ^ e else m * 10 ^ e)
  infinity := up
  pi := real Real.pi
  abs := abs
  sqrt := sqrt
  sin := lift Real.sin
  cos := lift Real.cos
  atan2 := lift₂ fun y x => Complex.arg ⟨x, y⟩
  pow := lift₂ (· ^ ·)
  rem := lift₂ fun a b => a - b * (if 0 ≤ a / b then ⌊a / b⌋ else ⌈a / b⌉)
  floor := floor
  truncate := truncate
  decimal _ := ""
  widen _ := real 0
  narrow _ := 0
  checked := false

/-- One over a power of ten. -/
noncomputable def tenth (e : ℕ) : ℝ := 1 / 10 ^ e

lemma tenth_pos (e : ℕ) : 0 < tenth e := one_div_pos.mpr (pow_pos (by norm_num) e)

lemma decimal_tenth (e : ℕ) : (Scalar.ofDecimal 1 true e : Extended) = real (tenth e) := by
  change real (if true = true then ((1 : ℕ) : ℝ) / 10 ^ e else _) = _
  rw [if_pos rfl, Nat.cast_one, tenth]

/-! ### Numbers that are real -/

section

variable (a b : ℝ)

@[simp] lemma ofNat_eq (n : ℕ) [n.AtLeastTwo] :
    (OfNat.ofNat n : Extended) = real (OfNat.ofNat n) := by
  change real ((n : ℤ) : ℝ) = _
  rw [Int.cast_natCast]
  rfl

@[simp] lemma zero_eq : (0 : Extended) = real 0 := congrArg real Int.cast_zero

@[simp] lemma one_eq : (1 : Extended) = real 1 := congrArg real Int.cast_one

@[simp] lemma real_add : real a + real b = real (a + b) := rfl

@[simp] lemma real_mul : real a * real b = real (a * b) := rfl

@[simp] lemma real_neg : -real a = real (-a) := rfl

@[simp] lemma real_sub : real a - real b = real (a - b) := by
  rw [sub_eq_add_neg]
  rfl

@[simp] lemma up_sub : up - real a = up := rfl

@[simp] lemma down_sub : down - real a = down := rfl

lemma real_div {b : ℝ} (hb : b ≠ 0) : real a / real b = real (a / b) := if_neg hb

lemma one_div_zero : (1 : Extended) / real 0 = up := by
  rw [one_eq]
  change (if (0 : ℝ) = 0 then ofSign (SignType.sign 1) else _) = up
  rw [if_pos rfl, sign_one]
  rfl

@[simp] lemma abs_real : Scalar.abs (real a) = real |a| := rfl

lemma sqrt_real {a : ℝ} (ha : 0 ≤ a) : Scalar.sqrt (real a) = real √a := if_neg ha.not_gt

@[simp] lemma sin_real : Scalar.sin (real a) = real (Real.sin a) := rfl

@[simp] lemma real_le_real {a b : ℝ} : real a ≤ real b ↔ a ≤ b := Iff.rfl

@[simp] lemma real_lt_real {a b : ℝ} : real a < real b ↔ a < b := Iff.rfl

@[simp] lemma real_le_up : real a ≤ up := trivial

@[simp] lemma down_le_real : down ≤ real a := trivial

lemma beq_iff {x y : Extended} : (x == y) = true ↔ x = y ∧ x ≠ nan :=
  @decide_eq_true_iff (x = y ∧ x ≠ nan) (Classical.propDecidable _)

@[simp] lemma beq_real {a b : ℝ} : (real a == real b) = true ↔ a = b := by
  simp [beq_iff]

@[simp] lemma infinity_eq : (Scalar.infinity : Extended) = up := rfl

@[simp] lemma neg_up : -up = down := rfl

end

@[simp] lemma isInfinite_real (a : ℝ) : ¬Scalar.isInfinite (real a) = true :=
  fun h => Extended.noConfusion (beq_iff.mp h).1

@[simp] lemma isInfinite_up : Scalar.isInfinite up = true :=
  beq_iff.mpr ⟨rfl, Extended.noConfusion⟩

lemma isNaN_iff {x : Extended} : Scalar.isNaN x = true ↔ x = nan := by
  rw [Scalar.isNaN, Bool.not_eq_true', ← Bool.not_eq_true, beq_iff]
  simp

lemma not_isNaN_real (r : ℝ) : ¬Scalar.isNaN (real r) = true :=
  mt isNaN_iff.mp Extended.noConfusion

lemma greater_nan (x : Extended) : Scalar.greater nan x = x := if_pos (isNaN_iff.mpr rfl)

lemma lesser_nan (x : Extended) : Scalar.lesser nan x = x := if_pos (isNaN_iff.mpr rfl)

lemma ne_nan_iff {x : Extended} : Scalar.isNaN x = false ↔ x ≠ nan := by
  rw [← Bool.not_eq_true, isNaN_iff]

instance : Scalar.Ordered Extended where
  le_trans := by
    intro a b c
    change Extended.LE a b → Extended.LE b c → Extended.LE a c
    rcases a with _ | _ | a | _ <;> rcases b with _ | _ | b | _ <;> rcases c with _ | _ | c | _ <;>
      simp only [Extended.LE, imp_self, implies_true, false_imp_iff, imp_false, not_true_eq_false]
    exact le_trans
  lt_iff := by
    intro a b
    change Extended.LT a b ↔ Extended.LE a b ∧ ¬Extended.LE b a
    rcases a with _ | _ | a | _ <;> rcases b with _ | _ | b | _ <;>
      simp [Extended.LT, Extended.LE]
    exact le_of_lt
  le_total := by
    intro a b ha hb
    rw [ne_nan_iff] at ha hb
    change Extended.LE a b ∨ Extended.LE b a
    rcases a with _ | _ | a | _ <;> rcases b with _ | _ | b | _ <;>
      simp [Extended.LE, le_total] at ha hb ⊢
  definite := by
    intro a b h
    change Extended.LE a b at h
    rw [ne_nan_iff, ne_nan_iff]
    rcases a with _ | _ | a | _ <;> rcases b with _ | _ | b | _ <;> simp [Extended.LE] at h ⊢

/-! ### Bounds on real numbers -/

section

variable {a b k : ℝ}

lemma mul_real_comm (x : Extended) (k : ℝ) : x * real k = real k * x := by
  rcases x with _ | _ | r | _
  · rfl
  · exact congrArg ofSign (mul_comm _ _)
  · exact congrArg real (mul_comm r k)
  · exact congrArg ofSign (mul_comm _ _)

lemma mul_up (hk : 0 < k) : real k * up = up := by
  change ofSign (SignType.sign k * 1) = up
  rw [sign_pos hk]
  rfl

lemma mul_down (hk : 0 < k) : real k * down = down := by
  change ofSign (SignType.sign k * -1) = down
  rw [sign_pos hk]
  rfl

lemma mul_up_of_neg (hk : k < 0) : real k * up = down := by
  change ofSign (SignType.sign k * 1) = down
  rw [sign_neg hk]
  rfl

lemma mul_down_of_neg (hk : k < 0) : real k * down = up := by
  change ofSign (SignType.sign k * -1) = up
  rw [sign_neg hk]
  rfl

lemma real_le_cases {x : Extended} (h : real a ≤ x) : x = up ∨ ∃ r, x = real r ∧ a ≤ r := by
  rcases x with _ | _ | r | _
  · exact h.elim
  · exact h.elim
  · exact .inr ⟨r, rfl, h⟩
  · exact .inl rfl

lemma le_real_cases {x : Extended} (h : x ≤ real a) : x = down ∨ ∃ r, x = real r ∧ r ≤ a := by
  rcases x with _ | _ | r | _
  · exact h.elim
  · exact .inl rfl
  · exact .inr ⟨r, rfl, h⟩
  · exact h.elim

variable {x y : Extended}

lemma real_le_add (hx : real a ≤ x) (hy : real b ≤ y) : real (a + b) ≤ x + y := by
  rcases real_le_cases hx with rfl | ⟨r, rfl, hr⟩ <;>
    rcases real_le_cases hy with rfl | ⟨t, rfl, ht⟩
  · exact real_le_up _
  · exact real_le_up _
  · exact real_le_up _
  · exact add_le_add hr ht

lemma add_le_real (hx : x ≤ real a) (hy : y ≤ real b) : x + y ≤ real (a + b) := by
  rcases le_real_cases hx with rfl | ⟨r, rfl, hr⟩ <;>
    rcases le_real_cases hy with rfl | ⟨t, rfl, ht⟩
  · exact down_le_real _
  · exact down_le_real _
  · exact down_le_real _
  · exact add_le_add hr ht

lemma real_le_mul (hk : 0 < k) (hx : real a ≤ x) : real (k * a) ≤ real k * x := by
  rcases real_le_cases hx with rfl | ⟨r, rfl, hr⟩
  · rw [mul_up hk]
    exact real_le_up _
  · exact mul_le_mul_of_nonneg_left hr hk.le

lemma mul_le_real (hk : 0 < k) (hx : x ≤ real a) : real k * x ≤ real (k * a) := by
  rcases le_real_cases hx with rfl | ⟨r, rfl, hr⟩
  · rw [mul_down hk]
    exact down_le_real _
  · exact mul_le_mul_of_nonneg_left hr hk.le

lemma real_le_mul_of_neg (hk : k < 0) (hx : x ≤ real a) : real (k * a) ≤ real k * x := by
  rcases le_real_cases hx with rfl | ⟨r, rfl, hr⟩
  · rw [mul_down_of_neg hk]
    exact real_le_up _
  · exact mul_le_mul_of_nonpos_left hr hk.le

lemma mul_le_real_of_neg (hk : k < 0) (hx : real a ≤ x) : real k * x ≤ real (k * a) := by
  rcases real_le_cases hx with rfl | ⟨r, rfl, hr⟩
  · rw [mul_up_of_neg hk]
    exact down_le_real _
  · exact mul_le_mul_of_nonpos_left hr hk.le

lemma neg_le_real (hx : real a ≤ x) : -x ≤ real (-a) := by
  rcases real_le_cases hx with rfl | ⟨r, rfl, hr⟩
  · exact down_le_real _
  · exact neg_le_neg hr

lemma real_le_neg (hx : x ≤ real a) : real (-a) ≤ -x := by
  rcases le_real_cases hx with rfl | ⟨r, rfl, hr⟩
  · exact real_le_up _
  · exact neg_le_neg hr

/-- A factor of zero may give no number. -/
lemma real_le_mul_of_nonneg (hk : 0 ≤ k) (hx : real a ≤ x) :
    real k * x = nan ∨ real (k * a) ≤ real k * x := by
  rcases hk.eq_or_lt with rfl | hpos
  · rcases real_le_cases hx with rfl | ⟨r, rfl, -⟩
    · left
      change ofSign (SignType.sign 0 * 1) = nan
      rw [sign_zero]
      rfl
    · right
      rw [real_mul, real_le_real, zero_mul, zero_mul]
  · exact .inr (real_le_mul hpos hx)

lemma real_le_sqrt (ha : 0 ≤ a) (hx : real a ≤ x) : real √a ≤ Scalar.sqrt x := by
  rcases real_le_cases hx with rfl | ⟨r, rfl, hr⟩
  · exact real_le_up _
  · rw [sqrt_real (ha.trans hr)]
    exact Real.sqrt_le_sqrt hr

lemma real_le_mul_self (ha : 0 ≤ a) (hx : real a ≤ x) : real (a * a) ≤ x * x := by
  rcases real_le_cases hx with rfl | ⟨r, rfl, hr⟩
  · exact real_le_up _
  · exact mul_self_le_mul_self ha hr

lemma real_le_mul_mul (hk : 0 < k) (ha : 0 ≤ a) (hx : real a ≤ x) :
    real (k * a * a) ≤ real k * x * x := by
  rcases real_le_cases hx with rfl | ⟨r, rfl, hr⟩
  · rw [mul_up hk]
    exact real_le_up _
  · rw [real_mul, real_mul, real_le_real, mul_assoc, mul_assoc]
    exact mul_le_mul_of_nonneg_left (mul_self_le_mul_self ha hr) hk.le

lemma div_le_real (hk : 0 < k) (hx : x ≤ real a) : x / real k ≤ real (a / k) := by
  rcases le_real_cases hx with rfl | ⟨r, rfl, hr⟩
  · have hdown : down / real k = down := if_pos hk.le
    rw [hdown]
    exact down_le_real _
  · rw [real_div r hk.ne']
    exact div_le_div_of_nonneg_right hr hk.le

lemma real_le_div (hk : 0 < k) (hx : real a ≤ x) : real (a / k) ≤ x / real k := by
  rcases real_le_cases hx with rfl | ⟨r, rfl, hr⟩
  · have hup : up / real k = up := if_pos hk.le
    rw [hup]
    exact real_le_up _
  · rw [real_div r hk.ne']
    exact div_le_div_of_nonneg_right hr hk.le

lemma real_abs_le (hx : x ≤ real a) (hy : real a ≤ y) :
    real |a| ≤ Scalar.greater (Scalar.abs x) (Scalar.abs y) := by
  rcases le_total 0 a with ha | ha
  · refine Scalar.le_greater_right ?_
    rcases real_le_cases hy with rfl | ⟨r, rfl, hr⟩
    · exact real_le_up _
    · rw [abs_real, real_le_real, abs_of_nonneg ha]
      exact hr.trans (le_abs_self r)
  · refine Scalar.le_greater_left ?_
    rcases le_real_cases hx with rfl | ⟨r, rfl, hr⟩
    · exact real_le_up _
    · rw [abs_real, real_le_real, abs_of_nonpos ha]
      exact (neg_le_neg hr).trans (neg_le_abs r)

end

end Extended

/-- The extended numbers with some sine and some cosine. -/
def Exact (_sine _cosine : ℝ → ℝ) : Type := Extended

noncomputable instance (sine cosine : ℝ → ℝ) : Scalar (Exact sine cosine) :=
  { (inferInstance : Scalar Extended) with
    sin := Extended.lift sine
    cos := Extended.lift cosine }

end SolidTrace
