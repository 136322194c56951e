import SolidTrace.Number.Double
import SolidTrace.Proofs.Number.Multiples
import SolidTrace.Proofs.Number.Shortest

/-!
Remainders of doubles.

Doubles are read as integers times powers of two and put together again without loss, so that the
remainder of two doubles is the remainder of their values.
-/

namespace SolidTrace

open Double
open Float.Model (UnpackedFloat Format)
open Float.Model.UnpackedFloat (Sign)

namespace Double

lemma unpack_toNat (b : BitVec 64) : UnpackedFloat.unpack Format.binary64 b =
    ofFields (if b.toNat / 2 ^ 63 = 1 then .negative else .positive)
      (b.toNat / 2 ^ 52 % 2 ^ 11) (b.toNat % 2 ^ 52) := by
  have hsign (x : BitVec 1) : Sign.ofBitVec x = if x.toNat = 1 then .negative else .positive := by
    rcases BitVec.eq_zero_or_eq_one x with rfl | rfl <;> rfl
  have hbit : b.toNat / 2 ^ 63 % 2 = b.toNat / 2 ^ 63 := by
    have := b.isLt
    omega
  rw [unpack_eq, hsign, toNat_unpackSign, toNat_unpackExponent, toNat_unpackMantissa, hbit]

lemma units?_ofFields (s : Sign) (field fraction : ℕ) : units? (ofFields s field fraction) =
    if field = 2047 then none
    else if field = 0 then some (s.apply (magnitude fraction (-1074)))
    else some (s.apply (magnitude (2 ^ 52 + fraction) (field - 1075))) := by
  unfold ofFields
  split_ifs with _ _ _ hzero
  · rfl
  · rfl
  · subst hzero
    cases s <;> rfl
  · rfl
  · rfl

end Double

namespace Dyadic

/-- The value in units of the least double. -/
def units (d : Dyadic) : ℤ :=
  (if d.negative then Sign.negative else .positive).apply (magnitude d.mantissa d.exponent)

/-- **Reading keeps the value.** -/
lemma value?_eq (x : Float) : value? x = (ofDouble? x).map units := by
  have hbits : x.toModel.unpack =
      UnpackedFloat.unpack Format.binary64 x.toModel.toBits.toBitVec := rfl
  have hnat : x.toModel.toBits.toBitVec.toNat = x.toBits.toNat := rfl
  rw [value?, hbits, unpack_toNat, units?_ofFields, hnat, ofDouble?]
  simp only [apply_ite (Option.map units), Option.map_none, Option.map_some, units, beq_iff_eq,
    Nat.pow_eq, Nat.add_comm, Int.ofNat_eq_natCast]

lemma value?_ofBits {m : ℕ} {e : ℤ} (negative : Bool) (h : Stored m e) :
    value? (Float.ofBits (UInt64.ofNat ((if negative then 2 ^ 63 else 0) +
      if m < 2 ^ 52 then m else (e + 1075).toNat * 2 ^ 52 + (m - 2 ^ 52)))) =
      some (units ⟨negative, m, e⟩) := by
  obtain ⟨hlt, hlow, hhigh, hnormal⟩ := h
  have hbits (n : ℕ) (hn : n < 2 ^ 64) : value? (Float.ofBits (UInt64.ofNat n)) =
      units? (ofFields (if n / 2 ^ 63 = 1 then .negative else .positive) (n / 2 ^ 52 % 2 ^ 11)
        (n % 2 ^ 52)) := by
    have hnat : (UInt64.ofNat n).toBitVec.toNat = n := Nat.mod_eq_of_lt hn
    have h : (Float.ofBits (UInt64.ofNat n)).toModel.unpack =
        UnpackedFloat.unpack Format.binary64 (UInt64.ofNat n).toBitVec :=
      unpack_pack (canonical_unpack _)
    rw [value?, h, unpack_toNat, hnat]
  generalize hn : (if negative then 2 ^ 63 else 0) +
    (if m < 2 ^ 52 then m else (e + 1075).toNat * 2 ^ 52 + (m - 2 ^ 52)) = n
  have hsign : n / 2 ^ 63 = 1 ↔ negative = true := by
    cases negative <;>
      simp only [Bool.false_eq_true, if_true, if_false, iff_true, iff_false] at hn ⊢ <;>
      split_ifs at hn <;> omega
  have hfield : n / 2 ^ 52 % 2 ^ 11 = if m < 2 ^ 52 then 0 else (e + 1075).toNat := by
    split_ifs at hn ⊢ <;> omega
  have hfraction : n % 2 ^ 52 = if m < 2 ^ 52 then m else m - 2 ^ 52 := by
    split_ifs at hn ⊢ <;> omega
  rw [hbits n (by split_ifs at hn <;> omega), units?_ofFields, hfield, hfraction, units]
  simp only [hsign]
  by_cases hshort : m < 2 ^ 52
  · obtain rfl : e = -1074 := hnormal.resolve_right (by omega)
    simp only [if_pos hshort]
    rfl
  · have hexp : ((e + 1075).toNat : ℤ) - 1075 = e := by omega
    have hmantissa : 2 ^ 52 + (m - 2 ^ 52) = m := by omega
    simp only [if_neg hshort, hexp, hmantissa]
    rw [if_neg (by omega), if_neg (by omega)]

/-- **Writing keeps the value.** -/
lemma value?_toDouble {d : Dyadic} (hm : d.mantissa < 2 ^ 53) (hlow : -1074 ≤ d.exponent)
    (hhigh : d.exponent ≤ 971) : value? d.toDouble = some d.units := by
  obtain ⟨negative, m, e⟩ := d
  dsimp only at hm hlow hhigh
  unfold toDouble normalize
  simp only [Nat.pow_eq]
  generalize hk : min (52 - m.log2) (e + 1074).toNat = k
  rcases Nat.eq_zero_or_pos m with rfl | hpos
  · have h := value?_ofBits negative (m := 0) (e := -1074) ⟨by omega, le_rfl, by omega, .inl rfl⟩
    simpa [units, magnitude] using h
  · have hlog : m.log2 < 53 := (Nat.log2_lt hpos.ne').mpr hm
    have hlog' : (m * 2 ^ k).log2 = m.log2 + k := log2_mul_two_pow hpos.ne' k
    have hpos' : m * 2 ^ k ≠ 0 := by positivity
    have hstored : Stored (m * 2 ^ k) (e - k) := by
      refine ⟨(Nat.log2_lt hpos').mp (by omega), by omega, by omega, ?_⟩
      rcases Nat.lt_or_ge (m.log2 + k) 52 with hshort | hlong
      · exact .inl (by omega)
      · exact .inr ((Nat.le_log2 hpos').mp (by omega))
    have hlowered := magnitude_lowered (m := m) (show (k : ℤ) ≤ e + 1074 by omega)
    rw [value?_ofBits negative hstored, units, hlowered, units]

lemma tmod_apply (s s' : Sign) (m n : ℕ) :
    (s.apply m).tmod (s'.apply n) = s.apply (m % n : ℕ) := by
  rw [Int.ofNat_tmod]
  cases s <;> cases s' <;> simp [Sign.apply, Int.tmod_neg, Int.neg_tmod]

/-- The remainder of dyadic numbers is the remainder of their values, which are brought to the
smaller exponent first. -/
lemma units_rem {p q : Dyadic} (hp : -1074 ≤ p.exponent) (hq : -1074 ≤ q.exponent) :
    (p.rem q).units = p.units.tmod q.units := by
  obtain ⟨s, m, e⟩ := p
  obtain ⟨s', m', e'⟩ := q
  dsimp only at hp hq
  have hlowered : ∀ (r : ℕ) {f : ℤ}, min e e' ≤ f →
      r * Nat.pow 2 (f - min e e').toNat * 2 ^ (min e e' + 1074).toNat = magnitude r f := by
    intro r f h
    have hexp : f - (f - min e e').toNat = min e e' := by omega
    rw [← magnitude_lowered (show ((f - min e e').toNat : ℤ) ≤ f + 1074 by omega), hexp, magnitude,
      Nat.pow_eq]
  have hmod : magnitude (m * Nat.pow 2 (e - min e e').toNat %
      (m' * Nat.pow 2 (e' - min e e').toNat)) (min e e') = magnitude m e % magnitude m' e' := by
    rw [magnitude, ← Nat.mul_mod_mul_right, hlowered m (min_le_left e e'),
      hlowered m' (min_le_right e e')]
  rw [rem, units, hmod, units, units, tmod_apply]

lemma mantissa_rem_lt {p q : Dyadic} (hp : p.mantissa < 2 ^ 53) (hq : q.mantissa < 2 ^ 53)
    (hpos : 0 < q.mantissa) : (p.rem q).mantissa < 2 ^ 53 := by
  unfold rem
  dsimp only
  rcases le_total p.exponent q.exponent with h | h
  · refine (Nat.mod_le _ _).trans_lt ?_
    rw [min_eq_left h, sub_self]
    exact (Nat.mul_one _).trans_lt hp
  · rw [min_eq_right h, sub_self q.exponent, show q.mantissa * Nat.pow 2 (0 : ℤ).toNat = q.mantissa
      from Nat.mul_one _]
    exact (Nat.mod_lt _ hpos).trans hq

/-- **The remainder of doubles is the remainder of their values.** -/
theorem value?_remainder {x n : Float} {j k : ℤ} (hx : value? x = some j) (hn : value? n = some k)
    (hk : k ≠ 0) : value? (remainder x n) = some (j.tmod k) := by
  rw [value?_eq, Option.map_eq_some_iff] at hx hn
  obtain ⟨p, hp, rfl⟩ := hx
  obtain ⟨q, hq, rfl⟩ := hn
  obtain ⟨hpm, hplow, hphigh⟩ := bounds_of_ofDouble? hp
  obtain ⟨hqm, hqlow, hqhigh⟩ := bounds_of_ofDouble? hq
  have hzero : q.mantissa ≠ 0 := by
    rintro hzero
    refine hk ?_
    rw [units, magnitude, hzero, zero_mul]
    split_ifs <;> rfl
  rw [← units_rem hplow hqlow, remainder, hp, hq]
  simp only [if_neg hzero]
  refine value?_toDouble ?_ ?_ ?_
  · exact mantissa_rem_lt hpm hqm (Nat.pos_of_ne_zero hzero)
  · exact le_min hplow hqlow
  · exact (min_le_left _ _).trans hphigh

end Dyadic

end SolidTrace
