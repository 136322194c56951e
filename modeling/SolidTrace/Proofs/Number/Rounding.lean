import Mathlib.Tactic.Ring
import SolidTrace.Proofs.Number.Multiples

/-!
Rounding to doubles.

A sum of two doubles is the exact sum rounded to 53 bits, in the middle between two such numbers to
the one with the even mantissa, as long as it is not too large. All numbers are counted in units of
the least double, so that rounding is a matter of natural numbers.
-/

namespace SolidTrace

namespace Double

open Float.Model (UnpackedFloat Format totalExponent)
open Float.Model.UnpackedFloat (Sign ExtendedMantissa Accuracy)

/-- The nearest of the multiples of `2 ^ s`, of two the even one, as a multiple. -/
def roundAt (s n : ℕ) : ℕ :=
  if 2 * (n % 2 ^ s) < 2 ^ s then n / 2 ^ s
  else if 2 * (n % 2 ^ s) = 2 ^ s then n / 2 ^ s + n / 2 ^ s % 2
  else n / 2 ^ s + 1

/-- The bits of a number that do not fit into a mantissa. -/
def spare (n : ℕ) : ℕ := n.log2 - 52

/-- The nearest number of 53 bits with zeros behind them. -/
def nearest (n : ℕ) : ℕ := roundAt (spare n) n * 2 ^ spare n

/-! ### Nearest multiples -/

section

variable {s n c : ℕ}

lemma le_roundAt (s n : ℕ) : n / 2 ^ s ≤ roundAt s n := by
  unfold roundAt
  split_ifs <;> omega

lemma roundAt_le_succ (s n : ℕ) : roundAt s n ≤ n / 2 ^ s + 1 := by
  unfold roundAt
  split_ifs <;> omega

lemma roundAt_le (h : n ≤ c * 2 ^ s) : roundAt s n ≤ c := by
  rcases Nat.lt_or_ge (n / 2 ^ s) c with hlt | hge
  · exact (roundAt_le_succ s n).trans hlt
  · -- the number is the multiple itself
    have hmul := Nat.mul_le_of_le_div _ _ _ hge
    obtain rfl : n = c * 2 ^ s := le_antisymm h hmul
    simp [roundAt]

/-- From where on a number is rounded to an even multiple or beyond it. -/
lemma le_roundAt_iff (hc : c % 2 = 0) : c ≤ roundAt s n ↔ 2 * (c * 2 ^ s) ≤ 2 * n + 2 ^ s := by
  have hsplit : n / 2 ^ s * 2 ^ s + n % 2 ^ s = n := Nat.div_add_mod' n (2 ^ s)
  have hmod := Nat.mod_lt n (Nat.two_pow_pos s)
  have hlow := le_roundAt s n
  have hhigh := roundAt_le_succ s n
  rcases lt_trichotomy (n / 2 ^ s + 1) c with hbelow | heq | habove
  · have := Nat.mul_le_mul_right (2 ^ s) hbelow
    rw [Nat.succ_mul, Nat.succ_mul] at this
    constructor <;> omega
  · -- the multiple is the next one, and the one below it is odd
    subst heq
    rw [Nat.succ_mul (n / 2 ^ s)]
    unfold roundAt
    split_ifs <;> omega
  · have := Nat.mul_le_mul_right (2 ^ s) (Nat.le_of_lt_succ habove)
    constructor <;> omega

lemma roundAt_mul (k : ℕ) : roundAt (s + k) (n * 2 ^ k) = roundAt s n := by
  have hpos := Nat.two_pow_pos k
  have hmod : n * 2 ^ k % 2 ^ (s + k) = n % 2 ^ s * 2 ^ k := by
    rw [pow_add, Nat.mul_mod_mul_right]
  have hdiv : n * 2 ^ k / 2 ^ (s + k) = n / 2 ^ s := by
    rw [pow_add, Nat.mul_div_mul_right _ _ hpos]
  have hlt : 2 * (n % 2 ^ s * 2 ^ k) < 2 ^ (s + k) ↔ 2 * (n % 2 ^ s) < 2 ^ s := by
    rw [pow_add, ← Nat.mul_assoc, Nat.mul_lt_mul_right hpos]
  have heq : 2 * (n % 2 ^ s * 2 ^ k) = 2 ^ (s + k) ↔ 2 * (n % 2 ^ s) = 2 ^ s := by
    rw [pow_add, ← Nat.mul_assoc, Nat.mul_left_inj hpos.ne']
  simp only [roundAt, hmod, hdiv, hlt, heq]

end

/-- The bits of an extended mantissa tell where it is among the multiples of `2 ^ s`. -/
structure Extends (em : ExtendedMantissa) (s n : ℕ) : Prop where
  mantissa : em.mantissa = n / 2 ^ s
  round : em.roundBit = true ↔ 2 ^ s ≤ 2 * (n % 2 ^ s)
  sticky : em.stickyBit = true ↔ 2 * (n % 2 ^ s) ≠ 0 ∧ 2 * (n % 2 ^ s) ≠ 2 ^ s

namespace Extends

variable {em : ExtendedMantissa} {s n : ℕ}

lemma exact (n : ℕ) : Extends ⟨n, false, false⟩ 0 n := by
  refine ⟨?_, ?_, ?_⟩ <;> simp [Nat.mod_one]

/-- The bit that is shifted out decides on the half, and what was shifted out before on ties. -/
lemma shiftRightOne (h : Extends em s n) : Extends em.shiftRightOne (s + 1) n := by
  have hpos := Nat.two_pow_pos s
  have hmod := Nat.mod_lt n hpos
  have hsplit : n % 2 ^ (s + 1) = n % 2 ^ s + 2 ^ s * (n / 2 ^ s % 2) := Nat.mod_pow_succ
  have hbit := Nat.mod_two_eq_zero_or_one (n / 2 ^ s)
  refine ⟨?_, ?_, ?_⟩
  · rw [ExtendedMantissa.shiftRightOne, h.mantissa, Nat.div_div_eq_div_mul, pow_succ]
  · rw [ExtendedMantissa.shiftRightOne, h.mantissa, hsplit, pow_succ]
    rcases hbit with hbit | hbit <;> simp [hbit] <;> omega
  · rw [ExtendedMantissa.shiftRightOne, Bool.or_eq_true, h.round, h.sticky, hsplit, pow_succ]
    rcases hbit with hbit | hbit <;> simp [hbit] <;> omega

lemma shift (n s : ℕ) : Extends ((⟨n, false, false⟩ : ExtendedMantissa) >>> s) s n := by
  induction s with
  | zero => exact exact n
  | succ s ih => exact ih.shiftRightOne

lemma rounded (h : Extends em s n) : em.roundedMantissa = roundAt s n := by
  obtain ⟨mantissa, roundBit, stickyBit⟩ := em
  obtain ⟨hmantissa, hround, hsticky⟩ := h
  dsimp only at hmantissa hround hsticky
  subst hmantissa
  unfold roundAt
  cases roundBit <;> cases stickyBit <;>
    simp only [Bool.false_eq_true, false_iff, true_iff] at hround hsticky <;>
    split_ifs <;> first | rfl | omega

end Extends

/-! ### Rounding -/

/-- The nearest number with the sign. -/
def rounded (z : ℤ) : ℤ := z.sign * nearest z.natAbs

/-- What a number with the value `z` is rounded to, in its stored form if it is not too large. -/
def Rounds (z : ℤ) (x : UnpackedFloat) : Prop :=
  units? x = some (rounded z) ∧ (nearest z.natAbs < 2 ^ 2098 → Canonical x)

lemma rounded_apply (s : Sign) (n : ℕ) : rounded (s.apply n) = s.apply (nearest n) := by
  rcases Nat.eq_zero_or_pos n with rfl | hn
  · cases s <;> decide
  · cases s <;> simp [rounded, Sign.apply, Int.sign_eq_one_of_pos, hn]

lemma rounds_apply_iff (s : Sign) (n : ℕ) (x : UnpackedFloat) : Rounds (s.apply n) x ↔
    units? x = some (s.apply (nearest n)) ∧ (nearest n < 2 ^ 2098 → Canonical x) := by
  have habs : (s.apply n).natAbs = n := by cases s <;> simp [Sign.apply]
  rw [Rounds, rounded_apply, habs]

section

variable {m : ℕ} {e : ℤ}

/-- A rounded mantissa that has become too long by one bit ends in a zero. -/
lemma carry {r : ℕ} (h : r ≤ 2 ^ 53) : r / 2 ^ (r.log2 - 52) < 2 ^ 53 ∧
    r / 2 ^ (r.log2 - 52) * 2 ^ (r.log2 - 52) = r ∧
    (2 ^ 52 ≤ r → 2 ^ 52 ≤ r / 2 ^ (r.log2 - 52)) := by
  rcases h.lt_or_eq with hlt | rfl
  · have hlog : r.log2 - 52 = 0 := by
      rcases Nat.eq_zero_or_pos r with rfl | hpos
      · rfl
      · have := (Nat.log2_lt hpos.ne').mpr hlt
        omega
    rw [hlog, pow_zero, Nat.div_one, mul_one]
    exact ⟨hlt, rfl, id⟩
  · rw [Nat.log2_two_pow]
    decide

/-- A mantissa is cut to 53 bits, and once more if it is rounded to a longer one. -/
lemma roundWithAccuracy_eq (s : Sign) (m : ℕ) (he : -1074 ≤ e) :
    let r := roundAt (m.log2 - 52) m
    UnpackedFloat.roundWithAccuracy Format.binary64 s m e .exact =
      if h : r / 2 ^ (r.log2 - 52) = 0 then .zero s
      else .finite s (r / 2 ^ (r.log2 - 52)) (e + (m.log2 - 52 : ℕ) + (r.log2 - 52 : ℕ))
        (Nat.pos_of_ne_zero h) := by
  have hshift : ∀ (r : ℕ) (e' : ℤ), -1074 ≤ e' →
      (Format.binary64.targetExponent (totalExponent r e') - e').toNat = r.log2 - 52 := by
    intro r e' he'
    change (max ((r.log2 : ℤ) + 1 + e' - 53) (-1074) - e').toNat = _
    omega
  have he' : -1074 ≤ e + (m.log2 - 52 : ℕ) := by omega
  unfold UnpackedFloat.roundWithAccuracy UnpackedFloat.shiftToTargetExponent
    UnpackedFloat.shiftToExponent
  simp only [hshift m e he, ExtendedMantissa.ofMantissaAndAccuracy, (Extends.shift m _).rounded,
    hshift _ _ he', (Extends.shift _ _).mantissa]

lemma spare_magnitude (hm : 0 < m) (hlong : 52 ≤ m.log2 ∨ e = -1074) :
    spare (magnitude m e) = m.log2 - 52 + (e + 1074).toNat := by
  rw [spare, magnitude, log2_mul_two_pow hm.ne']
  omega

lemma nearest_magnitude (hm : 0 < m) (he : -1074 ≤ e) (hlong : 52 ≤ m.log2 ∨ e = -1074) :
    nearest (magnitude m e) = magnitude (roundAt (m.log2 - 52) m) (e + (m.log2 - 52 : ℕ)) := by
  have hexp : (e + (m.log2 - 52 : ℕ) + 1074).toNat = m.log2 - 52 + (e + 1074).toNat := by omega
  rw [nearest, spare_magnitude hm hlong, magnitude, roundAt_mul, magnitude, hexp]

lemma roundAt_long (hm : 0 < m) : roundAt (m.log2 - 52) m ≤ 2 ^ 53 ∧
    (52 ≤ m.log2 → 2 ^ 52 ≤ roundAt (m.log2 - 52) m) := by
  constructor
  · refine roundAt_le ((Nat.lt_log2_self).le.trans ?_)
    rw [← pow_add]
    exact Nat.pow_le_pow_right Nat.two_pos (by omega)
  · intro h
    refine le_trans ?_ (le_roundAt _ _)
    rw [Nat.le_div_iff_mul_le (Nat.two_pow_pos _), ← pow_add, Nat.add_sub_cancel' h]
    exact Nat.log2_self_le hm.ne'

/-- **Rounding gives the nearest number.** -/
lemma rounds_roundWithAccuracy (s : Sign) (hm : 0 < m) (he : -1074 ≤ e)
    (hlong : 52 ≤ m.log2 ∨ e = -1074) : Rounds (s.apply (magnitude m e))
      (UnpackedFloat.roundWithAccuracy Format.binary64 s m e .exact) := by
  obtain ⟨hbound, hlead⟩ := roundAt_long hm
  rw [rounds_apply_iff, roundWithAccuracy_eq s m he, nearest_magnitude hm he hlong]
  generalize roundAt (m.log2 - 52) m = r at *
  obtain ⟨hlt, hexact, hfirst⟩ := carry hbound
  generalize hj : r.log2 - 52 = j at *
  generalize hk : m.log2 - 52 = k at *
  have hvalue : magnitude (r / 2 ^ j) (e + (k : ℕ) + (j : ℕ)) = magnitude r (e + (k : ℕ)) := by
    rw [← magnitude_lowered (show (j : ℤ) ≤ e + (k : ℕ) + (j : ℕ) + 1074 by omega), hexact,
      add_sub_cancel_right]
  rw [← hvalue]
  split_ifs with hzero
  · refine ⟨?_, fun _ => trivial⟩
    cases s <;> simp [units?, Sign.apply, magnitude, hzero]
  · refine ⟨rfl, fun hsmall => ?_⟩
    -- only the least exponent goes with a short mantissa
    have hnormal : e + (k : ℕ) + (j : ℕ) = -1074 ∨ 2 ^ 52 ≤ r / 2 ^ j := by
      by_cases hlog : 52 ≤ m.log2
      · exact .inr (hfirst (hlead hlog))
      · by_cases hcarry : 52 ≤ r.log2
        · have hr : r ≠ 0 := by
            rintro rfl
            exact hzero (Nat.zero_div _)
          exact .inr (hfirst ((Nat.le_log2 hr).mp hcarry))
        · exact .inl (by omega)
    refine ⟨hlt, by omega, ?_, hnormal⟩
    by_contra hhigh
    have hlead := hnormal.resolve_left (by omega)
    refine absurd hsmall (not_lt.mpr ?_)
    calc 2 ^ 2098 ≤ 2 ^ (52 + (e + (k : ℕ) + (j : ℕ) + 1074).toNat) :=
          pow_le_pow_right₀ one_le_two (by omega)
      _ = 2 ^ 52 * 2 ^ (e + (k : ℕ) + (j : ℕ) + 1074).toNat := pow_add _ _ _
      _ ≤ magnitude (r / 2 ^ j) (e + (k : ℕ) + (j : ℕ)) := Nat.mul_le_mul_right _ hlead

lemma rounds_round (s : Sign) (hm : 0 < m) (he : -1074 ≤ e) :
    Rounds (s.apply (magnitude m e)) (UnpackedFloat.round Format.binary64 s m e) := by
  have htarget : Format.binary64.targetExponent (totalExponent m e) =
      max ((m.log2 : ℤ) + 1 + e - 53) (-1074) := rfl
  unfold UnpackedFloat.round UnpackedFloat.decreaseExponent
  simp only [htarget, Nat.shiftLeft_eq]
  generalize hk : (e - max ((m.log2 : ℤ) + 1 + e - 53) (-1074)).toNat = k
  have hlog := log2_mul_two_pow hm.ne' k
  rw [← magnitude_lowered (show (k : ℤ) ≤ e + 1074 by omega)]
  exact rounds_roundWithAccuracy s (by positivity) (by omega) (by omega)

lemma nearest_stored (hm : 0 < m) (h : Stored m e) : nearest (magnitude m e) = magnitude m e := by
  have hlog : m.log2 < 53 := (Nat.log2_lt hm.ne').mpr h.lt
  have hlong : 52 ≤ m.log2 ∨ e = -1074 := h.normal.symm.imp_left (Nat.le_log2 hm.ne').mpr
  have hnone : m.log2 - 52 = 0 := by omega
  have hround : roundAt 0 m = m := by simp [roundAt, Nat.mod_one]
  rw [nearest_magnitude hm h.low hlong, hnone, hround, Nat.cast_zero, add_zero]

end

section

variable {m n : ℕ} {e : ℤ}

lemma nearest_le_two_pow {k : ℕ} (h : n < 2 ^ k) : nearest n ≤ 2 ^ k := by
  have hspare : spare n ≤ k := by
    rcases Nat.eq_zero_or_pos n with rfl | hpos
    · exact Nat.zero_le k
    · have := (Nat.log2_lt hpos.ne').mpr h
      unfold spare
      omega
  have hsplit : 2 ^ k = 2 ^ (k - spare n) * 2 ^ spare n := by
    rw [← pow_add, Nat.sub_add_cancel hspare]
  rw [nearest, hsplit]
  exact Nat.mul_le_mul_right _ (roundAt_le (hsplit ▸ h.le))

/-- **Numbers are rounded up to one with an even mantissa from half a step below it on**, and none
below it is rounded beyond. -/
lemma nearest_below (h : Stored m e) (heven : m % 2 = 0) (hlead : 2 ^ 52 < m)
    (hn : n < magnitude m e) : nearest n ≤ magnitude m e ∧
      (magnitude m e ≤ nearest n ↔ 2 * magnitude m e ≤ 2 * n + 2 ^ (e + 1074).toNat) := by
  have hlt : m < 2 ^ 53 := h.lt
  unfold magnitude at *
  generalize (e + 1074).toNat = k at *
  have hpos := Nat.two_pow_pos k
  have hpow : 2 ^ (52 + k) = 2 ^ 52 * 2 ^ k := pow_add 2 52 k
  rcases Nat.lt_or_ge n (2 ^ (52 + k)) with hbelow | habove
  · -- the power of two is in between
    have hnearest := nearest_le_two_pow hbelow
    have hstep := Nat.mul_le_mul_right (2 ^ k) (Nat.succ_le_of_lt hlead)
    rw [Nat.succ_mul] at hstep
    constructor <;> omega
  · have hne : n ≠ 0 := by omega
    have hlog : n.log2 = 52 + k := by
      have hbound : m * 2 ^ k ≤ 2 ^ (52 + k + 1) := by
        rw [pow_succ, hpow]
        have := Nat.mul_le_mul_right (2 ^ k) hlt.le
        omega
      exact (Nat.log2_eq_iff hne).mpr ⟨habove, hn.trans_le hbound⟩
    have hspare : spare n = k := by
      rw [spare, hlog]
      omega
    rw [nearest, hspare, Nat.mul_le_mul_right_iff hpos, Nat.mul_le_mul_right_iff hpos,
      le_roundAt_iff heven]
    exact ⟨roundAt_le hn.le, Iff.rfl⟩

end

/-! ### Sums -/

lemma rounds_normalize (z : ℤ) {e : ℤ} (he : -1074 ≤ e) (s : Sign) :
    Rounds (z * 2 ^ (e + 1074).toNat) (UnpackedFloat.normalize Format.binary64 z e s) := by
  unfold UnpackedFloat.normalize
  rcases lt_trichotomy z 0 with hneg | rfl | hpos
  · have hz : z * 2 ^ (e + 1074).toNat = Sign.negative.apply (magnitude (-z).toNat e) := by
      rw [Sign.apply, magnitude]
      push_cast
      rw [Int.toNat_of_nonneg (by omega)]
      ring
    rw [compare_lt_iff_lt.mpr hneg, hz]
    exact rounds_round .negative (by omega) he
  · rw [compare_eq_iff_eq.mpr rfl, zero_mul]
    exact ⟨rfl, fun _ => trivial⟩
  · have hz : z * 2 ^ (e + 1074).toNat = Sign.positive.apply (magnitude z.toNat e) := by
      rw [Sign.apply, magnitude]
      push_cast
      rw [Int.toNat_of_nonneg (by omega)]
    rw [compare_gt_iff_gt.mpr hpos, hz]
    exact rounds_round .positive (by omega) he

lemma rounds_self {x : UnpackedFloat} {j : ℤ} (h : Canonical x) (hj : units? x = some j) :
    Rounds j x := by
  refine ⟨?_, fun _ => h⟩
  rcases x with _ | _ | _ | ⟨s, m, e, hm⟩ <;> cases hj
  · rfl
  · rw [rounded_apply, nearest_stored hm h]
    rfl

lemma apply_lowered (s : Sign) (m : ℕ) {c e : ℤ} (hc : -1074 ≤ c) (h : c ≤ e) :
    s.apply (m <<< (e - c).toNat : ℕ) * 2 ^ (c + 1074).toNat = s.apply (magnitude m e) := by
  have hexp : e - (e - c).toNat = c := by omega
  rw [← magnitude_lowered (show ((e - c).toNat : ℤ) ≤ e + 1074 by omega), hexp, magnitude,
    Nat.shiftLeft_eq]
  cases s <;> simp [Sign.apply]

/-- **A sum is the nearest number.** -/
lemma rounds_add {x y : UnpackedFloat} {j k : ℤ} (hx : Canonical x) (hy : Canonical y)
    (hj : units? x = some j) (hk : units? y = some k) :
    Rounds (j + k) (UnpackedFloat.add Format.binary64 x y) := by
  rcases x with _ | _ | s | ⟨s, m, e, hm⟩ <;> cases hj <;>
  rcases y with _ | _ | s' | ⟨s', m', e', hm'⟩ <;> cases hk
  · cases s <;> cases s' <;> exact ⟨rfl, fun _ => trivial⟩
  · rw [zero_add]
    exact rounds_self hy rfl
  · rw [add_zero]
    exact rounds_self hx rfl
  · have hc : -1074 ≤ min e e' := le_min hx.low hy.low
    rw [← apply_lowered s m hc (min_le_left e e'), ← apply_lowered s' m' hc (min_le_right e e'),
      ← add_mul]
    exact rounds_normalize _ hc .positive

/-- **The sum of two finite doubles is the exact sum, rounded**, if that is not too large. -/
theorem value_add {x y : Float} {j k : ℤ} (hx : value? x = some j) (hy : value? y = some k)
    (h : nearest (j + k).natAbs < 2 ^ 2098) : value? (x + y) = some (rounded (j + k)) := by
  obtain ⟨hunits, hcanonical⟩ := rounds_add (canonical_unpack _) (canonical_unpack _) hx hy
  exact (congrArg units? (unpack_pack (hcanonical h))).trans hunits

end Double

end SolidTrace
