import SolidTrace.Motion.Animator
import SolidTrace.Motion.Drive
import SolidTrace.Proofs.Motion.Animation
import SolidTrace.Proofs.Number.Remainder
import SolidTrace.Proofs.Number.Rounding

/-!
Angles of doubles.

An angle that is wrapped lies between zero and a full turn. A full turn itself comes out where an
angle is below zero by so little that the sum with a full turn is rounded up; a spin leaves it out,
and a camera that is turned does not.
-/

namespace SolidTrace

namespace Double

/-- A full turn in units of the least double. -/
def fullTurn : ℕ := magnitude (360 * 2 ^ 44) (-44)

/-- Half the step between the doubles below a full turn, `2 ^ -45`. -/
def edge : Float := 1 / 35184372088832

/-- The edge in units of the least double. -/
def edgeUnits : ℕ := magnitude (2 ^ 52) (-97)

lemma value?_zero : value? (0 : Float) = some 0 := rfl

lemma value?_fullTurn : value? (360 : Float) = some fullTurn := by
  have h : (360 : Float).toModel.unpack = .finite .positive (360 * 2 ^ 44) (-44) (by decide) := rfl
  rw [value?, h]
  rfl

lemma value?_neg_edge : value? (-edge) = some (-(edgeUnits : ℤ)) := by
  have h : (-edge).toModel.unpack = .finite .negative (2 ^ 52) (-97) (by decide) := rfl
  rw [value?, h]
  rfl

lemma two_mul_edgeUnits : 2 * edgeUnits = 2 ^ (-44 + 1074 : ℤ).toNat := by
  have hexp : (-44 + 1074 : ℤ).toNat = 1 + (52 + (-97 + 1074 : ℤ).toNat) := rfl
  rw [edgeUnits, magnitude, hexp, pow_add, pow_add, pow_one]

lemma stored_fullTurn : Stored (360 * 2 ^ 44) (-44) :=
  ⟨by decide, by decide, by decide, .inr (by decide)⟩

/-- **A number below a full turn is rounded to one within the edge**, and is not rounded beyond. -/
lemma nearest_below_fullTurn {n : ℕ} (h : n < fullTurn) :
    nearest n ≤ fullTurn ∧ (fullTurn ≤ nearest n ↔ fullTurn ≤ n + edgeUnits) := by
  obtain ⟨hle, hiff⟩ := nearest_below stored_fullTurn (by decide) (by decide) h
  rw [← two_mul_edgeUnits] at hiff
  exact ⟨hle, hiff.trans (by rw [fullTurn]; omega)⟩

section

variable {x : Float} {j : ℤ}

lemma fullTurn_pos : 0 < fullTurn := magnitude_pos (by decide) _

lemma value?_rem (hx : value? x = some j) :
    value? (Scalar.rem x 360) = some (j.tmod fullTurn) :=
  Dyadic.value?_remainder hx value?_fullTurn (by have := fullTurn_pos; omega)

lemma tmod_fullTurn (j : ℤ) : -fullTurn < j.tmod fullTurn ∧ j.tmod fullTurn < fullTurn := by
  have hpos : (0 : ℤ) < fullTurn := by exact_mod_cast fullTurn_pos
  exact ⟨Int.lt_tmod_of_pos j hpos, Int.tmod_lt_of_pos j hpos⟩

lemma value?_wrap_of_nonneg (hx : value? x = some j) (h : 0 ≤ j.tmod fullTurn) :
    value? (Scalar.wrap x 360) = some (j.tmod fullTurn) := by
  have hlt : ¬ Scalar.rem x 360 < 0 := by
    rw [lt_iff_value (value?_rem hx) value?_zero]
    omega
  have hwrap : Scalar.wrap x 360 = Scalar.rem x 360 := if_neg hlt
  rw [hwrap, value?_rem hx]

/-- A remainder below zero is moved up by a full turn, and rounded. -/
lemma value?_wrap_of_neg (hx : value? x = some j) (h : j.tmod fullTurn < 0) :
    value? (Scalar.wrap x 360) = some ((nearest (j.tmod fullTurn + fullTurn).toNat : ℕ) : ℤ) := by
  have hlt : Scalar.rem x 360 < 0 := (lt_iff_value (value?_rem hx) value?_zero).mpr h
  have habs : Scalar.abs (360 : Float) = 360 := by decide +kernel
  obtain ⟨hlow, -⟩ := tmod_fullTurn j
  have hnat : (j.tmod fullTurn + fullTurn).natAbs = (j.tmod fullTurn + fullTurn).toNat := by omega
  have hsmall : nearest (j.tmod fullTurn + fullTurn).natAbs < 2 ^ 2098 :=
    (nearest_below_fullTurn (by omega)).1.trans_lt (magnitude_lt_limit stored_fullTurn)
  have hwrap : Scalar.wrap x 360 = Scalar.rem x 360 + Scalar.abs 360 := if_pos hlt
  rw [hwrap, habs, value_add (value?_rem hx) value?_fullTurn hsmall, rounded,
    Int.sign_eq_one_of_pos (by omega), one_mul, hnat]

/-- **An angle is wrapped into the range from zero to a full turn**, and below a full turn but where
its remainder is below zero by no more than the edge. -/
lemma wrap_range (h : Scalar.isFinite x = true) :
    0 ≤ Scalar.wrap x 360 ∧ Scalar.wrap x 360 ≤ 360 ∧
      (Scalar.wrap x 360 < 360 ↔ ¬ (-edge ≤ Scalar.rem x 360 ∧ Scalar.rem x 360 < 0)) := by
  rw [isFinite_eq, Option.isSome_iff_exists] at h
  obtain ⟨j, hx⟩ := h
  obtain ⟨hlow, hhigh⟩ := tmod_fullTurn j
  rw [le_iff_value value?_neg_edge (value?_rem hx), lt_iff_value (value?_rem hx) value?_zero]
  rcases lt_or_ge (j.tmod fullTurn) 0 with hneg | hpos
  · have hwrap := value?_wrap_of_neg hx hneg
    obtain ⟨hle, hiff⟩ := nearest_below_fullTurn
      (show (j.tmod fullTurn + fullTurn).toNat < fullTurn by omega)
    rw [le_iff_value value?_zero hwrap, le_iff_value hwrap value?_fullTurn,
      lt_iff_value hwrap value?_fullTurn]
    omega
  · have hwrap := value?_wrap_of_nonneg hx hpos
    rw [le_iff_value value?_zero hwrap, le_iff_value hwrap value?_fullTurn,
      lt_iff_value hwrap value?_fullTurn]
    omega

lemma isNaN_wrap (h : Scalar.isFinite x = false) : Scalar.isNaN (Scalar.wrap x 360) = true := by
  have hnone : Dyadic.ofDouble? x = none := by
    rw [isFinite_eq, Dyadic.value?_eq] at h
    simpa using h
  have hrem : Scalar.rem x 360 = 0 / 0 := by
    change Dyadic.remainder x 360 = 0 / 0
    unfold Dyadic.remainder
    rw [hnone]
  have hlt : ¬ (0 / 0 : Float) < 0 := by decide +kernel
  have hwrap : Scalar.wrap x 360 = 0 / 0 := by
    rw [← hrem] at hlt ⊢
    exact if_neg hlt
  rw [hwrap]
  decide +kernel

end

/-- An angle that is a number lies between zero and a full turn. -/
def InTurn (a : Float) : Prop := Scalar.isNaN a = false → 0 ≤ a ∧ a ≤ 360

/-- An angle that is a number is not below zero, and is below a full turn. -/
def BelowTurn (a : Float) : Prop := Scalar.isNaN a = false → 0 ≤ a ∧ a < 360

lemma BelowTurn.inTurn {a : Float} (h : BelowTurn a) : InTurn a := fun hnumber =>
  ⟨(h hnumber).1, Scalar.le_of_lt (h hnumber).2⟩

lemma inTurn_wrap (x : Float) : InTurn (Scalar.wrap x 360) := by
  intro hnumber
  cases h : Scalar.isFinite x with
  | false => cases hnumber.symm.trans (isNaN_wrap h)
  | true => exact ⟨(wrap_range h).1, (wrap_range h).2.1⟩

/-- **A spin leaves out the full turn.** -/
lemma turned_range {a step : Float} (h : Scalar.isFinite (a + step) = true) :
    0 ≤ Animator.turned a step ∧ Animator.turned a step < 360 := by
  obtain ⟨hlow, hhigh, -⟩ := wrap_range h
  obtain ⟨hnumber, hturn⟩ := Scalar.Ordered.definite _ _ hhigh
  unfold Animator.turned
  dsimp only
  split_ifs with hfull
  · exact ⟨by decide +kernel, by decide +kernel⟩
  · exact ⟨hlow, Scalar.lt_of_not_le hturn hnumber hfull⟩

lemma belowTurn_turned (a step : Float) : BelowTurn (Animator.turned a step) := by
  intro hnumber
  cases h : Scalar.isFinite (a + step) with
  | true => exact turned_range h
  | false =>
    have hnan := isNaN_wrap h
    have hsame : Animator.turned a step = Scalar.wrap (a + step) 360 :=
      if_neg fun hfull => Bool.false_ne_true ((Scalar.Ordered.definite _ _ hfull).2.symm.trans hnan)
    rw [hsame, hnan] at hnumber
    cases hnumber

end Double

open Double

namespace CameraAction

variable {S : Type} [Scalar S] {c : Camera S} {seconds step : S} {axis : Axis}
  {action : CameraAction}

lemma rotation_apply (h : action.rotation? c seconds = some (axis, step)) (p : Placement S) :
    (action.apply c seconds p).rotation =
      p.rotation.modify axis fun a => Scalar.wrap (a + step) 360 := by
  cases action with
  | turnLeft | turnRight | tiltUp | tiltDown =>
    obtain ⟨rfl, rfl⟩ := Prod.mk.inj (Option.some.inj h)
    rfl
  | _ => cases h

end CameraAction

/-- **Where a turned camera looks.** An action that turns a camera leaves the angle that it changes
between zero and a full turn, as long as its sum with the step is finite, and below a full turn but
where the remainder of that sum is below zero by no more than `2 ^ -45`. A spin, which leaves out
the full turn, always ends below it. -/
theorem turned_angles :
    (∀ (c : Camera Float) (action : CameraAction) (seconds : Float) (p : Placement Float)
      (axis : Axis) (step : Float), action.rotation? c seconds = some (axis, step) →
      Scalar.isFinite (p.rotation.get axis + step) = true →
        let a := (action.apply c seconds p).rotation.get axis
        let r := Scalar.rem (p.rotation.get axis + step) 360
        0 ≤ a ∧ a ≤ 360 ∧ (a < 360 ↔ ¬ (-edge ≤ r ∧ r < 0))) ∧
    ∀ (axis : Axis) (rate : Float) (time last : ℤ) (o : Animated Float) (p : Placement Float),
      Scalar.isFinite (p.rotation.get axis + rate * (Scalar.ofInt (elapsed time last) / 1000)) =
        true →
      ∃ q, Animator.spin axis rate time last o p = .ok q ∧
        0 ≤ q.rotation.get axis ∧ q.rotation.get axis < 360 := by
  refine ⟨fun c action seconds p axis step hstep h => ?_, fun axis rate time last o p h => ?_⟩
  · dsimp only
    rw [CameraAction.rotation_apply hstep, Vec.get_modify_self]
    exact wrap_range h
  · refine ⟨_, rfl, ?_⟩
    dsimp only
    rw [Vec.get_modify_self]
    exact turned_range h

/-- Three turns after which a camera looks to where a full turn ends: by three tenths of a degree to
the right, and then back by one and by two. -/
theorem turned_angles_fullTurn :
    let c : Camera Float := ⟨0, 1, 1, Vec.splat 1, Vec.splat 1⟩
    let p := CameraAction.turnLeft.apply c 0.1 (CameraAction.turnRight.apply c 0.3 .identity)
    (CameraAction.turnLeft.apply c 0.2 p).rotation.y = 360 ∧
      Animator.turned p.rotation.y (-(c.turning.y * 0.2)) = 0 := by
  decide +kernel

end SolidTrace
