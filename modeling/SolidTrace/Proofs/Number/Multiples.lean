import Mathlib
import SolidTrace.Proofs.Number.Order

/-!
Doubles as multiples of the least one.

Every finite double is an integer times `2 ^ -1074`. The forms in which finite doubles are stored
come out of packing unchanged, and they compare as the integers do.
-/

namespace SolidTrace

namespace Double

open Float.Model (UnpackedFloat Format)
open Float.Model.UnpackedFloat (Sign)

/-- The forms in which finite doubles are stored: 53 bits, the first of which is set unless the
exponent is the least one. -/
structure Stored (m : ℕ) (e : ℤ) : Prop where
  lt : m < 2 ^ 53
  low : -1074 ≤ e
  high : e ≤ 971
  normal : e = -1074 ∨ 2 ^ 52 ≤ m

/-- The number `m * 2 ^ e` in units of the least double. -/
def magnitude (m : ℕ) (e : ℤ) : ℕ := m * 2 ^ (e + 1074).toNat

/-- A finite number in a form in which it is stored. -/
def Canonical : UnpackedFloat → Prop
  | .finite _ m e _ => Stored m e
  | _ => True

/-- A finite number in units of the least double. -/
def units? : UnpackedFloat → Option ℤ
  | .zero _ => some 0
  | .finite s m e _ => some (s.apply (magnitude m e))
  | _ => none

/-- The number with a sign, an exponent field and a fraction. -/
def ofFields (s : Sign) (field fraction : ℕ) : UnpackedFloat :=
  if field = 2047 then
    if fraction = 0 then .infinity s else .notANumber
  else if field = 0 then
    if h : fraction = 0 then .zero s else .finite s fraction (-1074) (Nat.pos_of_ne_zero h)
  else .finite s (2 ^ 52 + fraction) (field - 1075) (by omega)

lemma canonical_ofFields {field fraction : ℕ} (s : Sign) (hfield : field < 2 ^ 11)
    (hfraction : fraction < 2 ^ 52) : Canonical (ofFields s field fraction) := by
  unfold ofFields
  split_ifs with hfull hinf hleast hzero
  · trivial
  · trivial
  · trivial
  · exact ⟨by omega, le_rfl, by omega, .inl rfl⟩
  · exact ⟨by omega, by omega, by omega, .inr (by omega)⟩

section

variable (b : BitVec 64)

lemma unpack_eq : UnpackedFloat.unpack Format.binary64 b =
    ofFields (Sign.ofBitVec (@UnpackedFloat.unpackSign Format.binary64 b))
      (@UnpackedFloat.unpackExponent Format.binary64 b).toNat
      (@UnpackedFloat.unpackMantissa Format.binary64 b).toNat := by
  have hfull : ∀ x : BitVec 11, x = -1#11 ↔ x.toNat = 2047 := fun x => BitVec.toNat_eq
  have hzero : ∀ {w : ℕ} (x : BitVec w), x = 0#w ↔ x.toNat = 0 := fun x => by
    rw [BitVec.toNat_eq, BitVec.toNat_zero]
  have hlead : ∀ x : BitVec 52, (1#1 ++ x).toNat = 2 ^ 52 + x.toNat := fun x => by
    rw [BitVec.toNat_append, ← Nat.shiftLeft_add_eq_or_of_lt x.isLt]
    rfl
  have hbias : (Format.binary64.exponentBias : ℤ) + (52 : ℕ) = 1075 := by decide
  unfold UnpackedFloat.unpack ofFields
  simp only [hfull, hzero, hlead, hbias]
  split_ifs with _ _ hleast
  · rfl
  · rfl
  · rfl
  · congr 1
    rw [hleast]
    rfl
  · rfl

lemma toNat_unpackMantissa :
    (@UnpackedFloat.unpackMantissa Format.binary64 b).toNat = b.toNat % 2 ^ 52 := by
  simp [UnpackedFloat.unpackMantissa]

lemma toNat_unpackExponent :
    (@UnpackedFloat.unpackExponent Format.binary64 b).toNat = b.toNat / 2 ^ 52 % 2 ^ 11 := by
  simp [UnpackedFloat.unpackExponent, Nat.shiftRight_eq_div_pow]

lemma toNat_unpackSign :
    (@UnpackedFloat.unpackSign Format.binary64 b).toNat = b.toNat / 2 ^ 63 % 2 := by
  simp [UnpackedFloat.unpackSign, Nat.shiftRight_eq_div_pow]

lemma canonical_unpack : Canonical (UnpackedFloat.unpack Format.binary64 b) := by
  rw [unpack_eq]
  exact canonical_ofFields _ (BitVec.isLt _) (BitVec.isLt _)

end

lemma unpack_packComponents (s : Sign) (exponent : BitVec 11) (mantissa : BitVec 52) :
    UnpackedFloat.unpack Format.binary64
        (UnpackedFloat.packComponents Format.binary64 s exponent mantissa) =
      ofFields s exponent.toNat mantissa.toNat := by
  rw [unpack_eq, UnpackedFloat.unpackSign_packComponents, Sign.ofBitVec_toBitVec,
    UnpackedFloat.unpackExponent_packComponents, UnpackedFloat.unpackMantissa_packComponents]

/-- **Packing loses nothing** of a form that is stored. -/
lemma unpack_pack {x : UnpackedFloat} (h : Canonical x) : (Float.Model.pack x).unpack = x := by
  change UnpackedFloat.unpack Format.binary64 (UnpackedFloat.pack Format.binary64 x) = x
  rcases x with s | _ | s | ⟨s, m, e, hm⟩
  · cases s <;> rfl
  · rfl
  · cases s <;> rfl
  · obtain ⟨hlt, hlow, hhigh, hnormal⟩ := h
    have hbias : (e + Format.binary64.exponentBias + (52 : ℕ)).toNat = (e + 1075).toNat := by
      rw [show (Format.binary64.exponentBias : ℤ) = 1023 from rfl]
      omega
    have hbits : m.log2 + 1 = Format.binary64.mantissaBits ↔ 2 ^ 52 ≤ m := by
      rw [show Format.binary64.mantissaBits = 53 from rfl, ← Nat.le_log2 hm.ne']
      have := Nat.log2_lt hm.ne' |>.mpr hlt
      omega
    unfold UnpackedFloat.pack
    simp only [hbias, hbits]
    rw [if_neg (by omega)]
    split_ifs with hlead
    · rw [unpack_packComponents, BitVec.toNat_ofNat, BitVec.toNat_ofNat, ofFields,
        if_neg (by omega), if_neg (by omega)]
      congr 1 <;> omega
    · -- the exponent is the least one, whose field is zero
      rw [unpack_packComponents, BitVec.toNat_ofNat, BitVec.toNat_ofNat, ofFields,
        if_neg (by omega), if_pos (by omega), dif_neg (by omega)]
      congr 1 <;> omega

section

variable {m m' : ℕ} {e e' : ℤ}

lemma log2_mul_two_pow (hm : m ≠ 0) (k : ℕ) : (m * 2 ^ k).log2 = m.log2 + k := by
  induction k with
  | zero => simp
  | succ k ih =>
    rw [pow_succ', Nat.mul_left_comm, Nat.log2_two_mul (by positivity), ih, Nat.add_assoc]

lemma magnitude_lowered {k : ℕ} (h : k ≤ e + 1074) :
    magnitude (m * 2 ^ k) (e - k) = magnitude m e := by
  have hexp : (e + 1074).toNat = k + (e - k + 1074).toNat := by omega
  rw [magnitude, magnitude, hexp, pow_add, Nat.mul_assoc]

lemma magnitude_lt (h : Stored m e) (h' : Stored m' e') (he : e < e') :
    magnitude m e < magnitude m' e' := by
  have hm : m < 2 ^ 53 := h.lt
  have hm' : 2 ^ 52 ≤ m' := h'.normal.resolve_left (by have := h.low; omega)
  have hlow := h.low
  calc magnitude m e
      < 2 ^ 53 * 2 ^ (e + 1074).toNat := Nat.mul_lt_mul_of_pos_right hm (Nat.two_pow_pos _)
    _ = 2 ^ 52 * 2 ^ ((e + 1074).toNat + 1) := by rw [pow_succ]; omega
    _ ≤ m' * 2 ^ (e' + 1074).toNat :=
      Nat.mul_le_mul hm' (Nat.pow_le_pow_right Nat.two_pos (by omega))

lemma magnitude_le_iff (h : Stored m e) (h' : Stored m' e') :
    magnitude m e ≤ magnitude m' e' ↔ e < e' ∨ e = e' ∧ m ≤ m' := by
  rcases lt_trichotomy e e' with he | rfl | he
  · simp [he, (magnitude_lt h h' he).le]
  · simp [magnitude]
  · simp [he.not_gt, he.ne', magnitude_lt h' h he]

lemma magnitude_pos (hm : 0 < m) (e : ℤ) : 0 < magnitude m e :=
  Nat.mul_pos hm (Nat.two_pow_pos _)

lemma magnitude_lt_limit (h : Stored m e) : magnitude m e < 2 ^ 2098 := by
  have hexp : (e + 1074).toNat ≤ 2045 := by
    have := h.high
    omega
  calc magnitude m e
      < 2 ^ 53 * 2 ^ (e + 1074).toNat := Nat.mul_lt_mul_of_pos_right h.lt (Nat.two_pow_pos _)
    _ = 2 ^ (53 + (e + 1074).toNat) := (pow_add _ _ _).symm
    _ ≤ 2 ^ 2098 := pow_le_pow_right₀ one_le_two (by omega)

/-- Stored numbers compare as the integers do. -/
lemma rank_le_iff {x y : UnpackedFloat} {j k : ℤ} (hx : Canonical x) (hy : Canonical y)
    (hj : units? x = some j) (hk : units? y = some k) : rank x ≤ rank y ↔ j ≤ k := by
  rcases x with _ | _ | _ | ⟨_ | _, m, e, hm⟩ <;>
  rcases y with _ | _ | _ | ⟨_ | _, m', e', hm'⟩ <;>
  simp only [units?, Option.some.injEq, reduceCtorEq] at hj hk <;> subst hj hk
  case finite.negative.finite.negative =>
    have := magnitude_le_iff hy hx
    simp [rank, Sign.apply, Prod.Lex.toLex_le_toLex, this, eq_comm]
  case finite.positive.finite.positive =>
    have := magnitude_le_iff hx hy
    simp [rank, Sign.apply, Prod.Lex.toLex_le_toLex, this]
  case finite.positive.finite.negative =>
    have := magnitude_pos hm e
    simp [rank, Sign.apply, Prod.Lex.toLex_le_toLex]
    omega
  case zero.finite.negative =>
    simp [rank, Sign.apply, Prod.Lex.toLex_le_toLex, (magnitude_pos hm' e').ne']
  case finite.positive.zero =>
    simp [rank, Sign.apply, Prod.Lex.toLex_le_toLex, (magnitude_pos hm e).ne']
  all_goals simp [rank, Sign.apply, Prod.Lex.toLex_le_toLex]

end

/-- The value of a finite double, in units of the least one. -/
def value? (x : Float) : Option ℤ := units? x.toModel.unpack

section

variable {x y : Float} {j k : ℤ}

lemma isNumber_of_value? (h : value? x = some j) : isNumber x.toModel.unpack = true := by
  unfold value? at h
  cases hx : x.toModel.unpack <;> rw [hx] at h <;> first | rfl | cases h

/-- **Finite doubles compare as their values.** -/
lemma le_iff_value (hx : value? x = some j) (hy : value? y = some k) : x ≤ y ↔ j ≤ k := by
  rw [float_le_iff, ← rank_le_iff (canonical_unpack _) (canonical_unpack _) hx hy]
  exact ⟨fun h => h.2.2, fun h => ⟨isNumber_of_value? hx, isNumber_of_value? hy, h⟩⟩

lemma lt_iff_value (hx : value? x = some j) (hy : value? y = some k) : x < y ↔ j < k := by
  rw [float_lt_iff, le_iff_value hx hy, le_iff_value hy hx]
  omega

lemma isFinite_eq : Scalar.isFinite x = (value? x).isSome := by
  have habs : (Scalar.abs x).toModel.unpack = x.toModel.unpack.abs := by
    refine unpack_pack ?_
    have hx : Canonical x.toModel.unpack := canonical_unpack _
    cases h : x.toModel.unpack <;> rw [h] at hx <;> trivial
  have hinf : (Scalar.infinity : Float).toModel.unpack = .infinity .positive := rfl
  have hlt : Scalar.abs x < Scalar.infinity ↔
      x.toModel.unpack.abs.lt (.infinity .positive) = true := by
    rw [← habs, ← hinf]
    exact decide_eq_true_iff
  unfold Scalar.isFinite value?
  rw [Bool.eq_iff_iff, decide_eq_true_iff, hlt]
  cases x.toModel.unpack <;>
    first | exact iff_of_true rfl rfl | exact iff_of_false Bool.false_ne_true Bool.false_ne_true

end

end Double

end SolidTrace
