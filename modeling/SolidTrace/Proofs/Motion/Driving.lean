import SolidTrace.Motion.Drive
import SolidTrace.Proofs.Geometry.Affine
import SolidTrace.Proofs.Motion.Animation

/-!
Driving by time.

An action moves a camera at a constant speed in its own frame, or turns it at a constant rate. In
exact arithmetic the seconds of several steps may therefore be added up, whatever sine and cosine
are: a movement does not turn the frame in which it goes on, and full turns are of no account.
-/

namespace SolidTrace

open Extended

namespace CameraAction

/-- The action that goes back. -/
def opposite : CameraAction → CameraAction
  | .none => .none
  | forward => back
  | back => forward
  | left => right
  | right => left
  | up => down
  | down => up
  | turnLeft => turnRight
  | turnRight => turnLeft
  | tiltUp => tiltDown
  | tiltDown => tiltUp

/-- Whether an action turns a camera; the others move it, if they do anything. -/
def turns : CameraAction → Bool
  | turnLeft | turnRight | tiltUp | tiltDown => true
  | _ => false

section

variable {S : Type} [Scalar S] {action : CameraAction}

/-- **A camera that is moved is not turned.** -/
lemma apply_of_moves (h : action.turns = false) (c : Camera S) (seconds : S) (p : Placement S) :
    (action.apply c seconds p).rotation = p.rotation ∧
      (action.apply c seconds p).scale = p.scale := by
  cases action <;> first | exact ⟨rfl, rfl⟩ | cases h

/-- **A camera that is turned stays where it is.** -/
lemma apply_of_turns (h : action.turns = true) (c : Camera S) (seconds : S) (p : Placement S) :
    (action.apply c seconds p).position = p.position ∧
      (action.apply c seconds p).scale = p.scale := by
  cases action <;> first | exact ⟨rfl, rfl⟩ | cases h

end

end CameraAction

/-! ### Motions -/

/-- What an action does to a camera every second. -/
inductive Motion
  | rest
  /-- Moves it along its own axes. -/
  | along (velocity : Vec ℝ)
  /-- Turns it about an axis. -/
  | about (axis : Axis) (rate : ℝ)

/-- The motion of an action, by the speed of the camera and the rates at which it turns. -/
def CameraAction.motion (speed turning : Vec ℝ) : CameraAction → Motion
  | .none => .rest
  | forward => .along ⟨0, 0, speed.z⟩
  | back => .along ⟨0, 0, -speed.z⟩
  | right => .along ⟨speed.x, 0, 0⟩
  | left => .along ⟨-speed.x, 0, 0⟩
  | up => .along ⟨0, speed.y, 0⟩
  | down => .along ⟨0, -speed.y, 0⟩
  | turnLeft => .about .y (-turning.y)
  | turnRight => .about .y turning.y
  | tiltUp => .about .x (-turning.x)
  | tiltDown => .about .x turning.x

def Motion.reversed : Motion → Motion
  | .rest => .rest
  | .along velocity => .along (velocity.map (- ·))
  | .about axis rate => .about axis (-rate)

lemma CameraAction.motion_opposite (speed turning : Vec ℝ) (action : CameraAction) :
    action.opposite.motion speed turning = (action.motion speed turning).reversed := by
  cases action <;> simp [opposite, motion, Motion.reversed, Vec.map]

/-- Real coordinates and angles. -/
structure Station where
  position : Vec ℝ
  rotation : Vec ℝ

namespace Station

def place {sine cosine : ℝ → ℝ} (x : Station) (scale : Vec (Exact sine cosine)) :
    Placement (Exact sine cosine) :=
  ⟨x.position.real, x.rotation.real, scale⟩

/-- Where a motion comes to in some seconds, in a frame. -/
noncomputable def after (frame : Vec ℝ → Affine) (seconds : ℝ) (x : Station) : Motion → Station
  | .rest => x
  | .along velocity =>
    { x with position := x.position.along ((frame x.rotation).direct velocity) seconds }
  | .about axis rate =>
    { x with rotation := x.rotation.modify axis fun a => wrapped (a + seconds * rate) }

/-- The coordinates are the same, and the angles but for full turns. -/
structure Agrees (x y : Station) : Prop where
  position : x.position = y.position
  rotation : ∀ axis, ∃ k : ℤ, x.rotation.get axis = y.rotation.get axis + 360 * k

variable (frame : Vec ℝ → Affine) (s t : ℝ) (x : Station)

/-- **The seconds add up.** -/
lemma after_after (m : Motion) :
    (x.after frame s m).after frame t m = x.after frame (s + t) m := by
  cases m with
  | rest => rfl
  | along velocity =>
    simp only [after, Vec.along, mk.injEq, Vec.mk.injEq, and_true]
    refine ⟨?_, ?_, ?_⟩ <;> ring
  | about axis rate =>
    simp only [after, Vec.modify_modify, Function.comp_def, wrapped_wrapped_add]
    congr 3
    ext a
    ring_nf

/-- **The motion back comes back.** -/
lemma agrees_reversed (m : Motion) : ((x.after frame s m).after frame s m.reversed).Agrees x := by
  have hsame : ∀ axis, ∃ k : ℤ, x.rotation.get axis = x.rotation.get axis + 360 * k :=
    fun axis => ⟨0, by rw [Int.cast_zero, mul_zero, add_zero]⟩
  cases m with
  | rest => exact ⟨rfl, hsame⟩
  | along velocity =>
    refine ⟨?_, hsame⟩
    obtain ⟨⟨px, py, pz⟩, rotation⟩ := x
    simp only [after, Motion.reversed, Vec.along, Vec.map, Affine.direct, Row.slope, Vec.mk.injEq]
    refine ⟨?_, ?_, ?_⟩ <;> ring
  | about axis rate =>
    refine ⟨rfl, fun b => ?_⟩
    simp only [after, Motion.reversed, Vec.modify_modify, Function.comp_def, wrapped_wrapped_add]
    rcases eq_or_ne b axis with rfl | hne
    · obtain ⟨k, hk⟩ := exists_wrapped (x.rotation.get b)
      have hback : x.rotation.get b + s * rate + s * -rate = x.rotation.get b := by ring
      refine ⟨-k, ?_⟩
      rw [Vec.get_modify_self, hback]
      push_cast
      linarith
    · obtain ⟨k, hk⟩ := hsame b
      exact ⟨k, by rw [Vec.get_modify_of_ne hne, ← hk]⟩

end Station

variable {sine cosine : ℝ → ℝ}

lemma exists_heading (sine cosine : ℝ → ℝ) (rotation : Vec ℝ) : ∃ f : Affine,
    Placement.toTransform (S := Exact sine cosine) ⟨Vec.splat 0, rotation.real, Vec.splat 1⟩ =
      f.transform := by
  have hzero : (Vec.splat 0 : Vec Extended) = Vec.real ⟨0, 0, 0⟩ := congrArg Vec.splat zero_eq
  have hone : (Vec.splat 1 : Vec Extended) = Vec.real ⟨1, 1, 1⟩ := congrArg Vec.splat one_eq
  have h := Placement.isAffine_exact sine cosine ⟨0, 0, 0⟩ rotation ⟨1, 1, 1⟩
  rw [← hzero, ← hone] at h
  exact h

/-- The frame in which a camera drives. -/
noncomputable def heading (sine cosine : ℝ → ℝ) (rotation : Vec ℝ) : Affine :=
  (exists_heading sine cosine rotation).choose

namespace CameraAction

lemma move_place (x : Station) (scale : Vec (Exact sine cosine)) (velocity : Vec ℝ) (s : ℝ) :
    move (x.place scale) (velocity.map (s * ·)).real =
      (x.after (heading sine cosine) s (.along velocity)).place scale := by
  have hheading := (exists_heading sine cosine x.rotation).choose_spec
  have hdirect : (heading sine cosine x.rotation).direct (velocity.map (s * ·)) =
      ((heading sine cosine x.rotation).direct velocity).map (s * ·) := by
    simp only [Affine.direct, Row.slope, Vec.map, Vec.mk.injEq]
    refine ⟨?_, ?_, ?_⟩ <;> ring
  have hstep : Transform.applyVec (S := Exact sine cosine)
      (Placement.toTransform ⟨Vec.splat 0, x.rotation.real, Vec.splat 1⟩)
        (velocity.map (s * ·)).real =
      (((heading sine cosine x.rotation).direct velocity).map (s * ·)).real := by
    rw [hheading, ← hdirect]
    exact Affine.applyVec_transform _ _
  unfold move
  dsimp only [Station.place]
  rw [hstep]
  rfl

lemma turn_place (x : Station) (scale : Vec (Exact sine cosine)) (axis : Axis) (rate s : ℝ) :
    turn (x.place scale) axis (real (s * rate)) =
      (x.after (heading sine cosine) s (.about axis rate)).place scale := by
  have hwrap : ∀ a : ℝ, Scalar.wrap (HAdd.hAdd (α := Exact sine cosine)
      (β := Exact sine cosine) (real a) (real (s * rate))) 360 = real (wrapped (a + s * rate)) :=
    fun a => wrap_real (a + s * rate)
  cases axis <;>
    · simp only [turn, Station.place, Station.after, Vec.real, Vec.map, Vec.modify, hwrap]
      rfl

lemma apply_place {c : Camera (Exact sine cosine)} {speed turning : Vec ℝ}
    (hspeed : c.speed = speed.real) (hturning : c.turning = turning.real) (action : CameraAction)
    (x : Station) (scale : Vec (Exact sine cosine)) (s : ℝ) :
    action.apply c (real s) (x.place scale) =
      (x.after (heading sine cosine) s (action.motion speed turning)).place scale := by
  have hzero : (0 : Exact sine cosine) = real 0 := zero_eq
  have hmul : ∀ a : ℝ, HMul.hMul (α := Exact sine cosine) (β := Exact sine cosine) (real a)
      (real s) = real (s * a) := fun a => congrArg real (mul_comm a s)
  have hneg : ∀ a : ℝ, Neg.neg (α := Exact sine cosine) (real a) = real (-a) := fun _ => rfl
  -- both ways in which an action can come to its motion
  have hmove : ∀ velocity, action.movement? c (real s) = some (velocity.map (s * ·)).real →
      action.apply c (real s) (x.place scale) =
        (x.after (heading sine cosine) s (.along velocity)).place scale := by
    intro velocity h
    rw [← move_place]
    unfold apply
    rw [h]
  have hturn : ∀ axis rate, action.movement? c (real s) = Option.none →
      action.rotation? c (real s) = some (axis, real (s * rate)) →
      action.apply c (real s) (x.place scale) =
        (x.after (heading sine cosine) s (.about axis rate)).place scale := by
    intro axis rate hnone h
    rw [← turn_place]
    unfold apply
    rw [hnone, h]
  cases action with
  | none => rfl
  | turnLeft | turnRight | tiltUp | tiltDown =>
    refine hturn _ _ rfl ?_
    simp only [rotation?, hturning, Vec.real, Vec.map, hmul, hneg, mul_neg]
    rfl
  | forward | back | right | left | up | down =>
    refine hmove _ ?_
    simp only [movement?, hspeed, Vec.real, Vec.map, hzero, hmul, hneg, mul_neg, mul_zero]
    rfl

section

variable {c : Camera (Exact sine cosine)} {speed turning : Vec ℝ} (hspeed : c.speed = speed.real)
  (hturning : c.turning = turning.real) (action : CameraAction) (x : Station)
  (scale : Vec (Exact sine cosine))

include hspeed hturning

/-- **Driving twice is driving for the sum of the seconds.** -/
lemma apply_apply (s t : ℝ) : action.apply c (real t) (action.apply c (real s) (x.place scale)) =
    action.apply c (real (s + t)) (x.place scale) := by
  simp only [apply_place hspeed hturning, Station.after_after]

/-- **The opposite action comes back.** -/
lemma apply_opposite (s : ℝ) : ∃ y : Station, y.Agrees x ∧
    action.opposite.apply c (real s) (action.apply c (real s) (x.place scale)) = y.place scale := by
  simp only [apply_place hspeed hturning, motion_opposite]
  exact ⟨_, Station.agrees_reversed _ s x _, rfl⟩

end

end CameraAction

/-! ### Runs -/

/-- A time is not before another one, and not too far from it. -/
def Ahead (last time : ℤ) : Prop := last ≤ time ∧ Near last time

lemma Ahead.refl (time : ℤ) : Ahead time time := ⟨le_refl time, by simp [Near]⟩

section

variable {S : Type} [Scalar S]

/-- An update takes a camera further, and sets the clock. -/
def CameraAction.driven (c : Camera S) (action : CameraAction) (x : Option ℤ × Placement S)
    (time : ℤ) : Option ℤ × Placement S :=
  (some time, action.apply c (secondsSince x.1 time) x.2)

end

lemma secondsSince_of_ahead {last time : ℤ} (h : Ahead last time) :
    (secondsSince (some last) time : Exact sine cosine) = real ((time - last : ℤ) / 1000) := by
  change (Scalar.ofInt (max (elapsed time last) 0) / 1000 : Extended) = _
  rw [elapsed_of_near h.2, max_eq_left (sub_nonneg.mpr h.1), Animator.seconds_eq]

lemma secondsSince_first (clock : Option ℤ) (time : ℤ) :
    (secondsSince clock time : Exact sine cosine) = secondsSince (some (clock.getD time)) time := by
  cases clock with
  | none =>
    have hzero : (0 : Exact sine cosine) = real 0 := zero_eq
    rw [Option.getD_none, secondsSince_of_ahead (.refl time), sub_self, Int.cast_zero, zero_div]
    exact hzero
  | some last => rfl

namespace CameraAction

/-- **The times in between are of no account.** -/
lemma foldl_driven {c : Camera (Exact sine cosine)} {speed turning : Vec ℝ}
    (hspeed : c.speed = speed.real) (hturning : c.turning = turning.real) (action : CameraAction)
    (scale : Vec (Exact sine cosine)) {times : List ℤ} {time : ℤ}
    (hlast : times.getLast? = some time) {last : ℤ} (h : (last :: times).IsChain Ahead)
    (x : Station) : times.foldl (driven c action) (some last, x.place scale) =
      (some time, action.apply c (real ((time - last : ℤ) / 1000)) (x.place scale)) := by
  induction times generalizing last x with
  | nil => cases hlast
  | cons t times ih =>
    obtain ⟨hfirst, hrest⟩ := List.isChain_cons_cons.mp h
    rw [List.foldl_cons, driven, secondsSince_of_ahead hfirst]
    cases times with
    | nil =>
      obtain rfl := Option.some.inj hlast
      rfl
    | cons t' times =>
      rw [apply_place hspeed hturning, ih hlast hrest, ← apply_place hspeed hturning,
        apply_apply hspeed hturning]
      congr 3
      push_cast
      ring

/-- **All that counts is the time since the update before**, or since the first one if there was
none. -/
lemma foldl_driven_first {c : Camera (Exact sine cosine)} {speed turning : Vec ℝ}
    (hspeed : c.speed = speed.real) (hturning : c.turning = turning.real) (action : CameraAction)
    (x : Station) (scale : Vec (Exact sine cosine)) {clock : Option ℤ} {first time : ℤ}
    {times : List ℤ} (hlast : (first :: times).getLast? = some time)
    (h : (clock.getD first :: first :: times).IsChain Ahead) :
    (first :: times).foldl (driven c action) (clock, x.place scale) = (some time,
      action.apply c (real ((time - clock.getD first : ℤ) / 1000)) (x.place scale)) := by
  rw [← foldl_driven hspeed hturning action scale hlast h x, List.foldl_cons, driven,
    secondsSince_first clock]
  rfl

end CameraAction

end SolidTrace
