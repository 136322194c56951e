import Mathlib.Data.List.Chain
import SolidTrace.Arena.Basic
import SolidTrace.Proofs.Number.Angles

/-!
Animations as functions of time.

A spin adds what it turns by since the time at which it was called last; a bob goes by the declared
position each time. Called at any times, forwards or backwards, both come to what the last time
alone says: the steps of a spin add up to the way from its first time to its last one, and full
turns left out on the way are of no account.
-/

namespace SolidTrace

open Extended

variable {S : Type}

/-- The time between two times can be told in 64 signed bits. -/
def Near (last time : ℤ) : Prop := -2 ^ 63 ≤ time - last ∧ time - last < 2 ^ 63

lemma elapsed_of_near {last time : ℤ} (h : Near last time) : elapsed time last = time - last := by
  unfold Near at h
  refine Int.bmod_eq_of_le ?_ ?_
  · norm_num
    omega
  · norm_num
    omega

/-- An object goes to a time as its animator says, if it has one. With the placement goes the time
to which the object has been animated. -/
def ObjectNode.moved (node : ObjectNode S) (id : ℕ) (x : Placement S × ℤ) (time : ℤ) :
    Except String (Placement S × ℤ) :=
  match node.animator with
  | none => .ok x
  | some animator =>
    (animator time x.2 ⟨id, node.placement, node.time⟩ x.1).map fun placement => (placement, time)

namespace Vec

variable {v : Vec S} {a b : Axis}

lemma get_modify_self (f : S → S) : (v.modify a f).get a = f (v.get a) := by cases a <;> rfl

lemma get_modify_of_ne (h : b ≠ a) (f : S → S) : (v.modify a f).get b = v.get b := by
  cases a <;> cases b <;> first | rfl | exact absurd rfl h

lemma modify_modify (f g : S → S) : (v.modify a f).modify a g = v.modify a (g ∘ f) := by
  cases a <;> rfl

lemma modify_of_get {x : S} (h : v.get a = x) : (v.modify a fun _ => x) = v := by
  cases a <;> cases h <;> rfl

end Vec

namespace Placement

def turnedTo (p : Placement Extended) (axis : Axis) (angle : ℝ) : Placement Extended :=
  { p with rotation := p.rotation.modify axis fun _ => real angle }

def shiftedTo (p : Placement Extended) (axis : Axis) (coordinate : ℝ) : Placement Extended :=
  { p with position := p.position.modify axis fun _ => real coordinate }

variable {p : Placement Extended} {axis : Axis} {r : ℝ}

lemma turnedTo_of_get (h : p.rotation.get axis = real r) : p.turnedTo axis r = p := by
  rw [turnedTo, Vec.modify_of_get h]

lemma shiftedTo_of_get (h : p.position.get axis = real r) : p.shiftedTo axis r = p := by
  rw [shiftedTo, Vec.modify_of_get h]

end Placement

namespace Animator

variable {axis : Axis} {rate amplitude period angle coordinate base : ℝ} {time last created : ℤ}
  {object : ℕ} {about : Animated Extended} {declared p : Placement Extended}

lemma seconds_eq (t : ℤ) : (Scalar.ofInt t / 1000 : Extended) = real (t / 1000) := by
  rw [ofNat_eq]
  exact real_div _ (by norm_num)

lemma spin_eq (h : Near last time) :
    spin axis (real rate) time last about (p.turnedTo axis angle) =
      .ok (p.turnedTo axis (wrapped (angle + rate * ((time - last : ℤ) / 1000)))) := by
  unfold spin Placement.turnedTo
  simp only [seconds_eq, elapsed_of_near h, real_mul, Vec.modify_modify, Function.comp_def,
    turned_real]

/-- The periods that are over after a time. A period that is not positive stands still. -/
noncomputable def periods (period : ℝ) (t : ℤ) : ℝ := if 0 < period then t / period else 0

lemma periods_eq (t : ℤ) :
    (if (0 : Extended) < real period then Scalar.ofInt t / real period else 0) =
      real (periods period t) := by
  simp only [periods, zero_eq, real_lt_real]
  split
  · next hpos => exact real_div _ hpos.ne'
  · rfl

lemma bob_eq (hbase : declared.position.get axis = real base) :
    bob axis (real amplitude) (real period) time last ⟨object, declared, created⟩
        (p.shiftedTo axis coordinate) =
      .ok (p.shiftedTo axis
        (base + amplitude * Real.sin (2 * Real.pi * periods period (elapsed time created)))) := by
  have hpi : (Scalar.pi : Extended) = real Real.pi := rfl
  unfold bob Placement.shiftedTo
  simp only [periods_eq, hpi, ofNat_eq, real_mul, sin_real, hbase, real_add, Vec.modify_modify,
    Function.comp_def]

end Animator

section

variable {node : ObjectNode Extended} {id : ℕ} {axis : Axis} {rate amplitude period base : ℝ}
  {y : Placement Extended × ℤ} {time : ℤ}

/-- **The steps of a spin add up** to the way from its first time to its last one. -/
lemma moved_spin (hnode : node.animator = some (.spin axis (real rate))) {times : List ℤ}
    (hlast : times.getLast? = some time) {last : ℤ} (hnear : (last :: times).IsChain Near)
    {angle : ℝ}
    (h : times.foldlM (node.moved id) (node.placement.turnedTo axis angle, last) = .ok y) :
    y = (node.placement.turnedTo axis (wrapped (angle + rate * ((time - last : ℤ) / 1000))),
      time) := by
  induction times generalizing last angle with
  | nil => cases hlast
  | cons t times ih =>
    obtain ⟨hfirst, hrest⟩ := List.isChain_cons_cons.mp hnear
    have hmoved : node.moved id (node.placement.turnedTo axis angle, last) t = .ok
        (node.placement.turnedTo axis (wrapped (angle + rate * ((t - last : ℤ) / 1000))), t) := by
      simp only [ObjectNode.moved, hnode, Animator.spin_eq hfirst]
      rfl
    rw [List.foldlM_cons, hmoved] at h
    cases times with
    | nil =>
      obtain rfl := Option.some.inj hlast
      exact (Except.ok.inj h).symm
    | cons t' times =>
      rw [ih hlast hrest h, wrapped_wrapped_add]
      congr 3
      push_cast
      ring

/-- **A bob forgets where it was.** -/
lemma moved_bob (hnode : node.animator = some (.bob axis (real amplitude) (real period)))
    (hbase : node.placement.position.get axis = real base) {times : List ℤ}
    (hlast : times.getLast? = some time) (hnear : Near node.time time) {last : ℤ} {coordinate : ℝ}
    (h : times.foldlM (node.moved id) (node.placement.shiftedTo axis coordinate, last) = .ok y) :
    y = (node.placement.shiftedTo axis
      (base + amplitude * Real.sin (2 * Real.pi * Animator.periods period (time - node.time))),
      time) := by
  induction times generalizing last coordinate with
  | nil => cases hlast
  | cons t times ih =>
    have hmoved : node.moved id (node.placement.shiftedTo axis coordinate, last) t = .ok
        (node.placement.shiftedTo axis (base + amplitude *
          Real.sin (2 * Real.pi * Animator.periods period (elapsed t node.time))), t) := by
      simp only [ObjectNode.moved, hnode, Animator.bob_eq hbase]
      rfl
    rw [List.foldlM_cons, hmoved] at h
    cases times with
    | nil =>
      obtain rfl := Option.some.inj hlast
      rw [← elapsed_of_near hnear]
      exact (Except.ok.inj h).symm
    | cons t' times => exact ih hlast h

end

end SolidTrace
