import Mathlib.Data.Prod.Lex
import Mathlib.Order.Basic
import Mathlib.Tactic.Common
import SolidTrace.Number.Double

/-!
The order of scalars.

`Scalar.Ordered` lists what a search for the least parameter needs of the order: it is total but for
the NaNs, which compare with nothing. Doubles are ordered so.
-/

namespace SolidTrace

/-- Scalars with a total order on all that are not NaNs. -/
class Scalar.Ordered (S : Type) [Scalar S] : Prop where
  le_trans : ∀ a b c : S, a ≤ b → b ≤ c → a ≤ c
  lt_iff : ∀ a b : S, a < b ↔ a ≤ b ∧ ¬ b ≤ a
  le_total : ∀ a b : S, Scalar.isNaN a = false → Scalar.isNaN b = false → a ≤ b ∨ b ≤ a
  definite : ∀ a b : S, a ≤ b → Scalar.isNaN a = false ∧ Scalar.isNaN b = false

namespace Scalar

section

variable {S : Type} [Scalar S] [Scalar.Ordered S] {a b c : S}

lemma le_of_lt (h : a < b) : a ≤ b := ((Ordered.lt_iff a b).mp h).1

lemma not_lt_of_le (h : a ≤ b) : ¬ b < a := fun h' => ((Ordered.lt_iff b a).mp h').2 h

lemma lt_of_lt_of_le (h : a < b) (h' : b ≤ c) : a < c := by
  rw [Ordered.lt_iff] at h ⊢
  exact ⟨Ordered.le_trans a b c h.1 h', fun hca => h.2 (Ordered.le_trans b c a h' hca)⟩

lemma lt_of_le_of_lt (h : a ≤ b) (h' : b < c) : a < c := by
  rw [Ordered.lt_iff] at h' ⊢
  exact ⟨Ordered.le_trans a b c h h'.1, fun hca => h'.2 (Ordered.le_trans c a b hca h)⟩

lemma lt_trans (h : a < b) (h' : b < c) : a < c := lt_of_lt_of_le h (le_of_lt h')

lemma le_of_not_lt (ha : Scalar.isNaN a = false) (hb : Scalar.isNaN b = false) (h : ¬ a < b) :
    b ≤ a := by
  rcases Ordered.le_total a b ha hb with hab | hba
  · by_contra hba
    exact h ((Ordered.lt_iff a b).mpr ⟨hab, hba⟩)
  · exact hba

lemma isNaN_of_lt (h : a < b) : Scalar.isNaN a = false ∧ Scalar.isNaN b = false :=
  Ordered.definite a b (le_of_lt h)

/-- The smaller of two numbers comes before the larger one, unless both are NaNs. -/
lemma lesser_le_greater (h : Scalar.isNaN (Scalar.lesser a b) = false) :
    Scalar.lesser a b ≤ Scalar.greater a b := by
  have hself : ∀ x : S, Scalar.isNaN x = false → x ≤ x := fun x hx =>
    (Ordered.le_total x x hx hx).elim id id
  unfold lesser greater at *
  by_cases hna : Scalar.isNaN a = true
  · simp only [hna, if_true] at h ⊢
    exact hself b h
  · rw [Bool.not_eq_true] at hna
    by_cases hba : b < a
    · by_cases hab : a < b
      · exact absurd hab (not_lt_of_le (le_of_lt hba))
      · simpa [hna, hba, hab] using le_of_lt hba
    · by_cases hab : a < b
      · simpa [hna, hba, hab] using le_of_lt hab
      · simpa [hna, hba, hab] using hself a hna

lemma lesser_le_left (h : a ≤ c) : Scalar.lesser a b ≤ c := by
  unfold lesser
  rw [(Ordered.definite a c h).1, if_neg Bool.false_ne_true]
  split_ifs with hlt
  · exact Ordered.le_trans b a c (le_of_lt hlt) h
  · exact h

lemma lesser_le_right (h : b ≤ c) : Scalar.lesser a b ≤ c := by
  unfold lesser
  split_ifs with hna hlt
  · exact h
  · exact h
  · rw [Bool.not_eq_true] at hna
    exact Ordered.le_trans a b c (le_of_not_lt (Ordered.definite b c h).1 hna hlt) h

lemma le_greater_left (h : c ≤ a) : c ≤ Scalar.greater a b := by
  unfold greater
  rw [(Ordered.definite c a h).2, if_neg Bool.false_ne_true]
  split_ifs with hlt
  · exact Ordered.le_trans c a b h (le_of_lt hlt)
  · exact h

lemma le_greater_right (h : c ≤ b) : c ≤ Scalar.greater a b := by
  unfold greater
  split_ifs with hna hlt
  · exact h
  · exact h
  · rw [Bool.not_eq_true] at hna
    exact Ordered.le_trans c b a h (le_of_not_lt hna (Ordered.definite c b h).2 hlt)

omit [Ordered S] in
lemma le_lesser (ha : c ≤ a) (hb : c ≤ b) : c ≤ Scalar.lesser a b := by
  unfold lesser
  split_ifs <;> assumption

omit [Ordered S] in
lemma greater_le (ha : a ≤ c) (hb : b ≤ c) : Scalar.greater a b ≤ c := by
  unfold greater
  split_ifs <;> assumption

omit [Ordered S] in
lemma lt_lesser (ha : c < a) (hb : c < b) : c < Scalar.lesser a b := by
  unfold lesser
  split_ifs <;> assumption

omit [Ordered S] in
lemma greater_lt (ha : a < c) (hb : b < c) : Scalar.greater a b < c := by
  unfold greater
  split_ifs <;> assumption

lemma isNaN_lesser_eq (h : Scalar.isNaN a = false) : Scalar.isNaN (Scalar.lesser a b) = false := by
  rw [lesser, h, if_neg Bool.false_ne_true]
  split_ifs with hlt
  · exact (isNaN_of_lt hlt).1
  · exact h

lemma isNaN_greater_eq (h : Scalar.isNaN a = false) :
    Scalar.isNaN (Scalar.greater a b) = false := by
  rw [greater, h, if_neg Bool.false_ne_true]
  split_ifs with hlt
  · exact (isNaN_of_lt hlt).2
  · exact h

lemma lt_of_not_le (ha : Scalar.isNaN a = false) (hb : Scalar.isNaN b = false) (h : ¬ a ≤ b) :
    b < a :=
  (Ordered.lt_iff b a).mpr ⟨(Ordered.le_total a b ha hb).resolve_left h, h⟩

lemma le_self_of_isNaN_eq (h : Scalar.isNaN a = false) : a ≤ a :=
  (Ordered.le_total a a h h).elim id id

lemma greater_le_iff (ha : Scalar.isNaN a = false) (hb : Scalar.isNaN b = false) :
    Scalar.greater a b ≤ c ↔ a ≤ c ∧ b ≤ c := by
  refine ⟨fun h => ⟨?_, ?_⟩, fun h => greater_le h.1 h.2⟩
  · exact Ordered.le_trans a _ c (le_greater_left (le_self_of_isNaN_eq ha)) h
  · exact Ordered.le_trans b _ c (le_greater_right (le_self_of_isNaN_eq hb)) h

lemma le_lesser_iff (ha : Scalar.isNaN a = false) (hb : Scalar.isNaN b = false) :
    c ≤ Scalar.lesser a b ↔ c ≤ a ∧ c ≤ b := by
  refine ⟨fun h => ⟨?_, ?_⟩, fun h => le_lesser h.1 h.2⟩
  · exact Ordered.le_trans c _ a h (lesser_le_left (le_self_of_isNaN_eq ha))
  · exact Ordered.le_trans c _ b h (lesser_le_right (le_self_of_isNaN_eq hb))

end

end Scalar

namespace Double

open Float.Model (UnpackedFloat)

/-- The place of a number among the doubles: class, exponent and mantissa. -/
def rank : UnpackedFloat → ℤ ×ₗ ℤ ×ₗ ℤ
  | .notANumber => toLex (0, toLex (0, 0))
  | .infinity .negative => toLex (-2, toLex (0, 0))
  | .infinity .positive => toLex (2, toLex (0, 0))
  | .zero _ => toLex (0, toLex (0, 0))
  | .finite .negative m e _ => toLex (-1, toLex (-e, -m))
  | .finite .positive m e _ => toLex (1, toLex (e, m))

def isNumber : UnpackedFloat → Bool
  | .notANumber => false
  | _ => true

lemma compare_then (e e' : ℤ) (m m' : ℕ) :
    ((compare e e').then (compare m m')).isLE = true ↔ e < e' ∨ e = e' ∧ m ≤ m' := by
  rw [Ordering.isLE_then_iff_or, compare_lt_iff_lt, compare_eq_iff_eq, ← compare_le_iff_le,
    Ordering.isLE_iff_ne_gt]

lemma compare_then_swap (e e' : ℤ) (m m' : ℕ) :
    ((compare e e').then (compare m m')).swap = (compare e' e).then (compare m' m) := by
  rw [Ordering.swap_then, Std.OrientedOrd.eq_swap (a := e'), Std.OrientedOrd.eq_swap (a := m')]

lemma le_iff_rank (x y : UnpackedFloat) :
    x.le y = true ↔ isNumber x = true ∧ isNumber y = true ∧ rank x ≤ rank y := by
  rcases x with (_ | _) | _ | _ | ⟨_ | _, m, e, hm⟩ <;>
  rcases y with (_ | _) | _ | _ | ⟨_ | _, m', e', hm'⟩
  all_goals dsimp only [UnpackedFloat.le, UnpackedFloat.compare, isNumber, rank]
  case finite.negative.finite.negative =>
    rw [Option.any_some, compare_then_swap, compare_then]
    simp [Prod.Lex.toLex_le_toLex, eq_comm]
  case finite.positive.finite.positive =>
    rw [Option.any_some, compare_then]
    simp [Prod.Lex.toLex_le_toLex]
  all_goals simp [Prod.Lex.toLex_le_toLex, compare]

lemma compare_swap (x y : UnpackedFloat) : y.compare x = (x.compare y).map Ordering.swap := by
  rcases x with (_ | _) | _ | _ | ⟨_ | _, m, e, hm⟩ <;>
  rcases y with (_ | _) | _ | _ | ⟨_ | _, m', e', hm'⟩
  case finite.negative.finite.negative =>
    dsimp only [UnpackedFloat.compare, Option.map_some]
    rw [compare_then_swap, compare_then_swap, compare_then_swap]
  case finite.positive.finite.positive =>
    dsimp only [UnpackedFloat.compare, Option.map_some]
    rw [compare_then_swap]
  all_goals rfl

lemma lt_iff_le (x y : UnpackedFloat) :
    x.lt y = true ↔ x.le y = true ∧ ¬ y.le x = true := by
  unfold UnpackedFloat.lt UnpackedFloat.le
  rw [compare_swap x y]
  rcases x.compare y with _ | _ | _ | _ <;> decide

lemma beq_self_iff (x : UnpackedFloat) : x.beq x = true ↔ isNumber x = true := by
  have hfinite : ∀ (m : ℕ) (e : ℤ), (compare e e).then (compare m m) = .eq := by
    intro m e
    rw [compare_eq_iff_eq.mpr (rfl : e = e), compare_eq_iff_eq.mpr (rfl : m = m)]
    rfl
  rw [show x.beq x = (x.compare x == some .eq) from rfl]
  rcases x with (_ | _) | _ | _ | ⟨_ | _, m, e, hm⟩
  case finite.negative =>
    dsimp only [UnpackedFloat.compare]
    rw [hfinite]
    exact Iff.rfl
  case finite.positive =>
    dsimp only [UnpackedFloat.compare]
    rw [hfinite]
    exact Iff.rfl
  all_goals exact Iff.rfl

section

variable (a b : Float)

lemma float_le_iff : a ≤ b ↔ isNumber a.toModel.unpack = true ∧ isNumber b.toModel.unpack = true ∧
    rank a.toModel.unpack ≤ rank b.toModel.unpack := by
  rw [← le_iff_rank]
  exact decide_eq_true_iff

lemma float_lt_iff : a < b ↔ a ≤ b ∧ ¬ b ≤ a := by
  have hlt : a < b ↔ a.toModel.unpack.lt b.toModel.unpack = true := decide_eq_true_iff
  rw [hlt, lt_iff_le, float_le_iff, float_le_iff, le_iff_rank, le_iff_rank]

lemma float_isNaN : Scalar.isNaN a = false ↔ isNumber a.toModel.unpack = true := by
  rw [← beq_self_iff, Scalar.isNaN, Bool.not_eq_false']
  exact Iff.rfl

end

end Double

open Double in
/-- **Doubles are ordered.** -/
instance : Scalar.Ordered Float where
  le_trans a b c hab hbc := by
    obtain ⟨ha, -, hab⟩ := (float_le_iff a b).mp hab
    obtain ⟨-, hc, hbc⟩ := (float_le_iff b c).mp hbc
    exact (float_le_iff a c).mpr ⟨ha, hc, hab.trans hbc⟩
  lt_iff := float_lt_iff
  le_total a b ha hb := by
    rw [float_isNaN] at ha hb
    rcases le_total (rank a.toModel.unpack) (rank b.toModel.unpack) with h | h
    · exact Or.inl ((float_le_iff a b).mpr ⟨ha, hb, h⟩)
    · exact Or.inr ((float_le_iff b a).mpr ⟨hb, ha, h⟩)
  definite a b h := by
    obtain ⟨ha, hb, -⟩ := (float_le_iff a b).mp h
    exact ⟨(float_isNaN a).mpr ha, (float_isNaN b).mpr hb⟩

end SolidTrace
