import Mathlib.Algebra.Order.Field.Power
import Mathlib.Algebra.Order.Field.Rat
import Mathlib.Tactic.Linarith
import Mathlib.Tactic.NormNum
import Mathlib.Tactic.Positivity
import Mathlib.Tactic.GCongr
import Mathlib.Tactic.Ring
import SolidTrace.Number.Decimal

/-!
How many digits the shortest decimal of a double has.

The grids on which it is looked for are no finer than the sixteenth below the leading digit, so its
digits stay below `2 ^ 64`.
-/

namespace SolidTrace

namespace Dyadic

lemma bounds_of_ofDouble? {x : Float} {d : Dyadic} (h : ofDouble? x = some d) :
    d.mantissa < 2 ^ 53 ∧ -1074 ≤ d.exponent ∧ d.exponent ≤ 971 := by
  simp only [ofDouble?] at h
  split_ifs at h with hinf hzero
  · obtain rfl := Option.some.inj h
    have := Nat.mod_lt x.toBits.toNat (show 0 < Nat.pow 2 52 by decide)
    simp only [Nat.pow_eq] at this ⊢
    omega
  · obtain rfl := Option.some.inj h
    have := Nat.mod_lt x.toBits.toNat (show 0 < Nat.pow 2 52 by decide)
    have := Nat.mod_lt (x.toBits.toNat / Nat.pow 2 52) (show 0 < Nat.pow 2 11 by decide)
    simp only [Nat.pow_eq, Int.ofNat_eq_natCast] at *
    omega

end Dyadic

namespace Numeral

/-- Below `2 ^ (e + 1)` no more than `2 ^ 63` steps fit of the grid at the sixteenth digit below the
leading one of `2 ^ e`. -/
def Coarse (e : ℤ) : Prop :=
  Nat.pow 2 (e + 1).toNat * Nat.pow 10 (16 - decimalExponent e).toNat ≤
    Nat.pow 2 63 * Nat.pow 10 (decimalExponent e - 16).toNat * Nat.pow 2 (-(e + 1)).toNat

instance (e : ℤ) : Decidable (Coarse e) := inferInstanceAs (Decidable (_ ≤ _))

lemma coarse_shifted : ∀ i < 2200, Coarse ((i : ℕ) - 1100) := by decide +kernel

lemma coarse {e : ℤ} (hlow : -1100 ≤ e) (hhigh : e < 1100) : Coarse e := by
  have h := coarse_shifted (e + 1100).toNat (by omega)
  rwa [show ((e + 1100).toNat : ℤ) - 1100 = e by omega] at h

lemma zpow_eq {b : ℚ} (hb : b ≠ 0) (e : ℤ) : b ^ e * b ^ (-e).toNat = b ^ e.toNat := by
  rw [← zpow_natCast, ← zpow_natCast, ← zpow_add₀ hb]
  congr 1
  omega

lemma Coarse.two_zpow_le {e : ℤ} (h : Coarse e) :
    (2 : ℚ) ^ (e + 1) ≤ 2 ^ 63 * 10 ^ (decimalExponent e - 16) := by
  have hcast : (2 : ℚ) ^ (e + 1).toNat * 10 ^ (16 - decimalExponent e).toNat ≤
      2 ^ 63 * 10 ^ (decimalExponent e - 16).toNat * 2 ^ (-(e + 1)).toNat := by
    unfold Coarse at h
    simp only [Nat.pow_eq] at h
    exact_mod_cast h
  have htwo := zpow_eq (b := 2) two_ne_zero (e + 1)
  have hten := zpow_eq (b := 10) (by norm_num) (decimalExponent e - 16)
  rw [show -(decimalExponent e - 16) = 16 - decimalExponent e by ring] at hten
  rw [← htwo, ← hten] at hcast
  have hpos : (0 : ℚ) < 2 ^ (-(e + 1)).toNat * 10 ^ (16 - decimalExponent e).toNat := by positivity
  refine le_of_mul_le_mul_right ?_ hpos
  linarith

namespace Cell

variable {c : Cell} {k : ℤ}

lemma mul_zpow_le {steps : ℕ} (h : c.grid k steps ≤ c.side k c.value) :
    (steps : ℚ) * 10 ^ k ≤ c.value * 2 ^ c.exponent := by
  have hcast : (steps : ℚ) * 2 ^ (-c.exponent).toNat * 10 ^ k.toNat ≤
      c.value * 2 ^ c.exponent.toNat * 10 ^ (-k).toNat := by
    unfold grid side at h
    simp only [Nat.pow_eq] at h
    exact_mod_cast h
  have htwo := zpow_eq (b := 2) two_ne_zero c.exponent
  have hten := zpow_eq (b := 10) (by norm_num) k
  rw [← htwo, ← hten] at hcast
  have hpos : (0 : ℚ) < 2 ^ (-c.exponent).toNat * 10 ^ (-k).toNat := by positivity
  refine le_of_mul_le_mul_right ?_ hpos
  linarith

lemma grid_div_le : c.grid k (c.side k c.value / c.grid k 1) ≤ c.side k c.value := by
  have hgrid : c.grid k (c.side k c.value / c.grid k 1) =
      c.side k c.value / c.grid k 1 * c.grid k 1 := by
    simp [grid, Nat.mul_assoc]
  rw [hgrid]
  exact Nat.div_mul_le_self _ _

def binaryExponent (c : Cell) : ℤ := c.value.log2 + c.exponent

lemma le_leading : decimalExponent c.binaryExponent ≤ c.leading := by
  unfold leading binaryExponent
  dsimp only
  split
  · omega
  · exact le_rfl

/-- On no grid in question is the value as many steps from zero as `2 ^ 63`. -/
lemma steps_lt (hlow : -1100 ≤ c.binaryExponent) (hhigh : c.binaryExponent < 1100)
    (hk : c.leading - 16 ≤ k) : c.side k c.value / c.grid k 1 < 2 ^ 63 := by
  rcases Nat.eq_zero_or_pos c.value with hzero | hpos
  · simp [side, hzero]
  · have hsteps := mul_zpow_le (@grid_div_le c k)
    have hvalue : (c.value : ℚ) < 2 ^ ((c.value.log2 : ℤ) + 1) := by
      exact_mod_cast Nat.lt_log2_self
    have htable := (coarse hlow hhigh).two_zpow_le
    have hgrid : (10 : ℚ) ^ (decimalExponent c.binaryExponent - 16) ≤ 10 ^ k := by
      refine zpow_le_zpow_right₀ (by norm_num) ?_
      have := @le_leading c
      omega
    have hchain : ((c.side k c.value / c.grid k 1 : ℕ) : ℚ) * 10 ^ k < 2 ^ 63 * 10 ^ k := by
      calc ((c.side k c.value / c.grid k 1 : ℕ) : ℚ) * 10 ^ k
          ≤ c.value * 2 ^ c.exponent := hsteps
        _ < 2 ^ ((c.value.log2 : ℤ) + 1) * 2 ^ c.exponent := by gcongr
        _ = 2 ^ (c.binaryExponent + 1) := by
            rw [← zpow_add₀ two_ne_zero, binaryExponent]
            congr 1
            ring
        _ ≤ 2 ^ 63 * 10 ^ (decimalExponent c.binaryExponent - 16) := htable
        _ ≤ 2 ^ 63 * 10 ^ k := by gcongr
    exact_mod_cast lt_of_mul_lt_mul_right hchain (by positivity)

lemma onGrid?_le {tie : Tie} {steps : ℕ} (h : c.onGrid? tie k = some steps) :
    steps ≤ c.side k c.value / c.grid k 1 + 1 := by
  unfold onGrid? at h
  dsimp only at h
  split at h
  · have hsteps := Option.some.inj h
    split_ifs at hsteps <;> omega
  · have hsteps := Option.some.inj h
    omega
  · have hsteps := Option.some.inj h
    omega
  · cases h

lemma shortest_lt (tie : Tie) (hlow : -1100 ≤ c.binaryExponent) (hhigh : c.binaryExponent < 1100) :
    (c.shortest tie).1 < 2 ^ 64 := by
  unfold shortest
  dsimp only
  rcases hfound : ((List.range 18).map fun n : ℕ => c.leading + 1 - (n : ℤ)).findSome? fun k =>
    (c.onGrid? tie k).map (·, k) with _ | ⟨steps, k⟩
  · simp
  · obtain ⟨k', hk', hsteps⟩ := List.exists_of_findSome?_eq_some hfound
    obtain ⟨n, hn, rfl⟩ := List.mem_map.mp hk'
    obtain ⟨steps', hgrid, heq⟩ := Option.map_eq_some_iff.mp hsteps
    obtain ⟨rfl, rfl⟩ := Prod.mk.inj heq
    have hle := onGrid?_le hgrid
    have hlt := @steps_lt c (c.leading + 1 - (n : ℤ)) hlow hhigh (by
      have := List.mem_range.mp hn
      omega)
    rw [Option.getD_some]
    omega

end Cell

lemma Cell.binaryExponent_of {d : Dyadic} (hmantissa : d.mantissa < 2 ^ 53)
    (hlow : -1074 ≤ d.exponent) (hhigh : d.exponent ≤ 971) :
    -1100 ≤ (Cell.of d).binaryExponent ∧ (Cell.of d).binaryExponent < 1100 := by
  have hlog : (4 * d.mantissa).log2 < 55 := by
    rcases Nat.eq_zero_or_pos d.mantissa with hzero | hpos
    · rw [hzero]
      decide
    · exact (Nat.log2_lt (by omega)).mpr (by omega)
  have hexponent : (Cell.of d).binaryExponent = (4 * d.mantissa).log2 + (d.exponent - 2) := rfl
  omega

/-- **The digits of a shortest decimal** stay below `2 ^ 64`. -/
theorem shortest_digits_lt (tie : Tie) (x : Float) : (shortest tie x).digits < 2 ^ 64 := by
  unfold shortest
  split
  · simp
  · next d hd =>
    obtain ⟨hmantissa, hlow, hhigh⟩ := Dyadic.bounds_of_ofDouble? hd
    obtain ⟨hlow, hhigh⟩ := Cell.binaryExponent_of hmantissa hlow hhigh
    split
    · simp
    · exact Cell.shortest_lt tie hlow hhigh

lemma shortest_whole (tie : Tie) (x : Float) : (shortest tie x).whole = false := by
  unfold shortest
  split
  · rfl
  · split
    · rfl
    · rfl

end Numeral

end SolidTrace
