import SolidTrace.Proofs.Compile.Expansion
import SolidTrace.Proofs.Scene.Stances

/-!
Animated objects by the clock.

An object that spins or bobs, and that no action moves, has a course: its placement at every time.
Whichever updates a scene has gone through, its object is where its course has it at the time of the
last one.
-/

namespace SolidTrace

open Extended

/-- The course of an object: the turning of an angle at a rate of degrees a second, or the swing of
a coordinate in a period of milliseconds. -/
inductive Course
  | spin (axis : Axis) (base rate : ℝ)
  | bob (axis : Axis) (base amplitude period : ℝ)

namespace Course

/-- The object is declared to go on the course. -/
def Declared : Course → ObjectNode Extended → Prop
  | spin axis base rate, node =>
    node.animator = some (.spin axis (real rate)) ∧ node.placement.rotation.get axis = real base
  | bob axis base amplitude period, node =>
    node.animator = some (.bob axis (real amplitude) (real period)) ∧
      node.placement.position.get axis = real base

/-- The times that an animator on the course takes the difference of can be told apart. A spin goes
from each time to the next, and a bob from the first to the last. -/
def Unwrapped (course : Course) (created : ℤ) (times : List ℤ) : Prop :=
  match course with
  | spin .. => (created :: times).IsChain Near
  | bob .. => ∀ time ∈ times.getLast?, Near created time

/-- **Where the course leads at a time.** The angle is the one within a full turn; all else is as
declared. -/
inductive Holds (node : ObjectNode Extended) (time : ℤ) : Course → Placement Extended → Prop
  | spin {axis : Axis} {base rate angle : ℝ} (k : ℤ) (hrange : 0 ≤ angle ∧ angle < 360)
      (hangle : angle = base + rate * ((time - node.time : ℤ) / 1000) + 360 * k) :
      Holds node time (.spin axis base rate) (node.placement.turnedTo axis angle)
  | bob {axis : Axis} {base amplitude period : ℝ} :
      Holds node time (.bob axis base amplitude period) (node.placement.shiftedTo axis
        (base + amplitude * Real.sin (2 * Real.pi *
          if 0 < period then (time - node.time : ℤ) / period else 0)))

variable {course : Course} {node : ObjectNode Extended} {time : ℤ}

/-- Two angles within a full turn that differ by full turns are equal. -/
lemma Holds.unique {p q : Placement Extended} (hp : course.Holds node time p)
    (hq : course.Holds node time q) : p = q := by
  cases hp with
  | bob =>
    cases hq
    rfl
  | @spin _ _ _ angle k hrange hangle =>
    obtain @⟨_, _, _, angle', k', hrange', hangle'⟩ := hq
    have hturns : angle = angle' + 360 * ((k - k' : ℤ) : ℝ) := by
      push_cast
      linarith
    have hequal : angle = angle' := by
      rw [← wrapped_of_range hrange, hturns, wrapped_add_turns, wrapped_of_range hrange']
    rw [hequal]

/-- **The times in between are of no account.** -/
lemma Declared.holds_moved (h : course.Declared node) {times : List ℤ}
    (hlast : times.getLast? = some time) (hunwrapped : course.Unwrapped node.time times) {id : ℕ}
    {y : Placement Extended × ℤ}
    (hy : times.foldlM (node.moved id) (node.placement, node.time) = .ok y) :
    course.Holds node time y.1 ∧ y.2 = time := by
  cases course with
  | spin axis base rate =>
    obtain ⟨hanimator, hbase⟩ := h
    rw [← Placement.turnedTo_of_get hbase] at hy
    obtain rfl := moved_spin hanimator hlast hunwrapped hy
    obtain ⟨k, hk⟩ := exists_wrapped (base + rate * ((time - node.time : ℤ) / 1000))
    refine ⟨.spin (-k) ⟨wrapped_nonneg _, wrapped_lt _⟩ ?_, rfl⟩
    push_cast at hk ⊢
    linarith
  | bob axis base amplitude period =>
    obtain ⟨hanimator, hbase⟩ := h
    rw [← Placement.shiftedTo_of_get hbase] at hy
    obtain rfl := moved_bob hanimator hbase hlast (hunwrapped time hlast) hy
    exact ⟨.bob, rfl⟩

/-- A history of updates that succeed, and of anything else, with the last update at a time. The
object is on its course all the while. -/
structure Followed (course : Course) (s : Scene Extended) (id : ℕ) (created : ℤ)
    (history : List Operation) (time : ℤ) : Prop where
  spared : s.Spares id history
  last : (updateTimes history).getLast? = some time
  unwrapped : course.Unwrapped created (updateTimes history)

end Course

namespace Scene

variable {document : Document Extended} {spec : FrameSpec} {p : Platform Extended}
  {s : Scene Extended}

lemma holds_of_followed (hpool : p.pool = PoolFactory.inline ∨ p.pool = PoolFactory.threaded)
    (h : create document spec p = .ok s) {id : ℕ} {node : ObjectNode Extended}
    (hnode : s.state.arena.objects[id]? = some node) {course : Course}
    (hcourse : course.Declared node) {history : List Operation} {time : ℤ}
    (hhistory : course.Followed s id node.time history time) :
    ∃ o, (s.after history).state.objects[id]? = some o ∧ o.lastTime = time ∧
      course.Holds node time o.placement := by
  have hstance : s.state.stance? id = some (node.placement, node.time) := by
    rw [(stance_create h).2, hnode]
    rfl
  obtain ⟨y, hy, hafter⟩ :=
    moved_after (inShape_create hpool h).pool hnode hhistory.spared hstance
  obtain ⟨hholds, htime⟩ := hcourse.holds_moved hhistory.last hhistory.unwrapped hy
  obtain ⟨o, ho, rfl⟩ := Option.map_eq_some_iff.mp hafter
  exact ⟨o, ho, htime, hholds⟩

/-- **Animation is a function of time.** Take an object that is declared to spin or to bob, and any
updates that succeed, forwards or backwards, in which no action moves it; whatever else is asked of
the scene, the object is afterwards where its course has it at the time of the last update. Updates
that end at one time leave it at one place. -/
theorem follows_course (hpool : p.pool = PoolFactory.inline ∨ p.pool = PoolFactory.threaded)
    (h : create document spec p = .ok s) {id : ℕ} {node : ObjectNode Extended}
    (hnode : s.state.arena.objects[id]? = some node) {course : Course}
    (hcourse : course.Declared node) :
    (∀ history time, course.Followed s id node.time history time →
      ∃ o, (s.after history).state.objects[id]? = some o ∧ o.lastTime = time ∧
        course.Holds node time o.placement) ∧
      ∀ first second time, course.Followed s id node.time first time →
        course.Followed s id node.time second time →
          ∃ o o', (s.after first).state.objects[id]? = some o ∧
            (s.after second).state.objects[id]? = some o' ∧ o.placement = o'.placement := by
  refine ⟨fun history time => holds_of_followed hpool h hnode hcourse,
    fun first second time hfirst hsecond => ?_⟩
  obtain ⟨o, ho, -, hholds⟩ := holds_of_followed hpool h hnode hcourse hfirst
  obtain ⟨o', ho', -, hholds'⟩ := holds_of_followed hpool h hnode hcourse hsecond
  exact ⟨o, o', ho, ho', hholds.unique hholds'⟩

end Scene

namespace Beacon

/-- A camera that turns by a right angle every second, from the first second on. -/
noncomputable def document : Document Extended where
  version := "1"
  materials := Dict.empty
  textures := Dict.empty
  library := Dict.empty
  root := ⟨[.camera ⟨none, ⟨Vec.splat 0, ⟨0, 30, 0⟩, Vec.splat 1⟩, none, some (.spin .y 90), 1000⟩
    ⟨0, 1, 1, Camera.defaultSpeed, Camera.defaultTurning⟩], []⟩

noncomputable def platform : Platform Extended :=
  ⟨Pair.allocator, PoolFactory.threaded, 2, ⟨[⟨1, 1⟩], Fsaa.all⟩, Registry.empty,
    fun _ => .error ""⟩

/-- On to the third second, and then back again. -/
def history : List Operation := [.update 3000 .none, .nextCamera, .update 2500 .none]

lemma exists_scene : ∃ s node, Scene.create document ⟨3, 2, 1⟩ platform = .ok s ∧
    s.state.arena.objects[0]? = some node ∧ (Course.spin .y 30 90).Declared node ∧
      node.time = 1000 ∧ s.Spares 0 history := by
  have hdeclared : (Scene.create document ⟨3, 2, 1⟩ platform).toOption.bind (fun s =>
      s.state.arena.objects[0]?.map fun n => (n.animator, n.placement.rotation, n.time)) =
        some (some (.spin .y 90), ⟨0, 30, 0⟩, 1000) := by
    with_unfolding_all rfl
  have hupdated : (Scene.create document ⟨3, 2, 1⟩ platform).toOption.any (fun s =>
      decide ((s.update 3000 .none).1 = .ok ()) && decide
        (((s.after [.update 3000 .none, .nextCamera]).update 2500 .none).1 = .ok ())) = true := by
    decide +kernel
  rcases hs : Scene.create document ⟨3, 2, 1⟩ platform with e | s
  · rw [hs] at hupdated
    cases hupdated
  rw [hs] at hdeclared hupdated
  obtain ⟨node, hnode, heq⟩ := Option.map_eq_some_iff.mp hdeclared
  obtain ⟨hanimator, hrotation, htime⟩ : node.animator = some (.spin .y 90) ∧
      node.placement.rotation = ⟨0, 30, 0⟩ ∧ node.time = 1000 := by
    simpa using heq
  simp only [Except.toOption, Option.any_some, Bool.and_eq_true, decide_eq_true_eq] at hupdated
  refine ⟨s, node, rfl, hnode, ⟨?_, ?_⟩, htime, ?_⟩
  · rw [hanimator, ofNat_eq]
  · rw [hrotation, ← ofNat_eq]
    rfl
  · -- an action that does nothing moves nothing
    refine Scene.eachUpdate_cons.mpr ⟨?_, Scene.eachUpdate_cons.mpr ⟨by rintro _ _ ⟨⟩,
      Scene.eachUpdate_cons.mpr ⟨?_, Scene.eachUpdate_nil _ _⟩⟩⟩
    · rintro time action ⟨⟩
      exact ⟨hupdated.1, fun h => h.1 rfl⟩
    · rintro time action ⟨⟩
      exact ⟨hupdated.2, fun h => h.1 rfl⟩

end Beacon

/-- A beacon has come to an angle of 165 degrees when it has been taken on and back again. -/
theorem follows_course_beacon : ∃ s node o,
    Scene.create Beacon.document ⟨3, 2, 1⟩ Beacon.platform = .ok s ∧
      s.state.arena.objects[0]? = some node ∧ (Course.spin .y 30 90).Declared node ∧
      (Course.spin .y 30 90).Followed s 0 node.time Beacon.history 2500 ∧
      (s.after Beacon.history).state.objects[0]? = some o ∧
      o.placement = node.placement.turnedTo .y 165 := by
  obtain ⟨s, node, hs, hnode, hdeclared, htime, hspared⟩ := Beacon.exists_scene
  have hfollowed : (Course.spin .y 30 90).Followed s 0 node.time Beacon.history 2500 := by
    refine ⟨hspared, rfl, ?_⟩
    rw [htime]
    exact .cons_cons (by norm_num [Near]) (.cons_cons (by norm_num [Near]) (.singleton _))
  obtain ⟨o, ho, -, hholds⟩ :=
    (Scene.follows_course (.inr rfl) hs hnode hdeclared).1 Beacon.history 2500 hfollowed
  refine ⟨s, node, o, hs, hnode, hdeclared, hfollowed, ho, ?_⟩
  generalize o.placement = placement at hholds ⊢
  obtain ⟨k, ⟨hlow, hhigh⟩, hk⟩ := hholds
  rw [htime] at hk
  push_cast at hk
  obtain rfl : k = 0 := by
    have habove : (-1 : ℝ) < k := by linarith
    have hbelow : (k : ℝ) < 1 := by linarith
    norm_cast at habove hbelow
    omega
  rw [hk]
  norm_num

end SolidTrace
