import SolidTrace.Proofs.Compile.Expansion
import SolidTrace.Proofs.Motion.Turning
import SolidTrace.Proofs.Scene.Stances

/-!
Angles over the history of a scene.

An angle of an object changes in two ways only: an action turns the current camera, and an animator
takes the object to the time of an update. What both of them see to, and nothing undoes, holds from
the first turn on, whatever is asked of the scene afterwards and whether it succeeds or not.
-/

namespace SolidTrace

variable {S : Type}

/-- An animator keeps what holds of an angle. -/
def Animator.Keeps (P : S → Prop) (axis : Axis) (animator : Animator S) : Prop :=
  ∀ time last o p q, animator time last o p = .ok q → P (p.rotation.get axis) →
    P (q.rotation.get axis)

/-- An animator turns its object or swings it. -/
inductive Animator.Plain [Scalar S] : Animator S → Prop
  | spin (axis : Axis) (rate : S) : Plain (.spin axis rate)
  | bob (axis : Axis) (amplitude period : S) : Plain (.bob axis amplitude period)

/-- Neither the animator of an object nor the cameras that hang on it undo what holds of an
angle. -/
structure Arena.Keeps [Scalar S] (arena : Arena S) (P : S → Prop) (id : ℕ) (axis : Axis) :
    Prop where
  animated : ∀ node, arena.objects[id]? = some node → ∀ animator ∈ node.animator,
    animator.Keeps P axis
  turned : (∀ a step, P (Scalar.wrap (a + step) 360)) ∨ ∀ c ∈ arena.cameras, c.object ≠ id

namespace SceneState

/-- An object has an angle of which something holds. -/
def Heads (P : S → Prop) (id : ℕ) (axis : Axis) (s : SceneState S) : Prop :=
  ∃ x, s.stance? id = some x ∧ P (x.1.rotation.get axis)

/-- Something holds of an angle of an object in an arena. -/
structure Steady (arena : Arena S) (P : S → Prop) (id : ℕ) (axis : Axis) (s : SceneState S) :
    Prop where
  arena : s.arena = arena
  heads : s.Heads P id axis

end SceneState

section

variable [Scalar S] {P : S → Prop} {id : ℕ} {axis : Axis}

lemma Animator.keeps_bob (axis' : Axis) (amplitude period : S) :
    (Animator.bob axis' amplitude period).Keeps P axis := by
  intro time last o p q h hp
  obtain rfl := Except.ok.inj h
  exact hp

lemma Animator.keeps_spin (hP : ∀ a step, P (turned a step)) (axis' : Axis) (rate : S) :
    (Animator.spin axis' rate).Keeps P axis := by
  intro time last o p q h hp
  obtain rfl := Except.ok.inj h
  rcases eq_or_ne axis axis' with rfl | hne
  · dsimp only
    rw [Vec.get_modify_self]
    exact hP _ _
  · dsimp only
    rwa [Vec.get_modify_of_ne hne]

lemma Animator.Plain.keeps (hP : ∀ a step, P (turned a step)) {animator : Animator S}
    (h : animator.Plain) : animator.Keeps P axis := by
  cases h with
  | spin axis' rate => exact keeps_spin hP axis' rate
  | bob axis' amplitude period => exact keeps_bob axis' amplitude period

lemma CameraAction.apply_keeps (hP : ∀ a step, P (Scalar.wrap (a + step) 360)) (c : Camera S)
    (action : CameraAction) (seconds : S) {p : Placement S} (hp : P (p.rotation.get axis)) :
    P ((action.apply c seconds p).rotation.get axis) := by
  rcases h : action.rotation? c seconds with _ | ⟨axis', step⟩
  · have hmoves : action.turns = false := by cases action <;> first | rfl | cases h
    rwa [(apply_of_moves hmoves c seconds p).1]
  · rw [rotation_apply h]
    rcases eq_or_ne axis axis' with rfl | hne
    · rw [Vec.get_modify_self]
      exact hP _ _
    · rwa [Vec.get_modify_of_ne hne]

/-! ### States -/

variable {arena : Arena S}

namespace SceneState

variable {s t : SceneState S}

omit [Scalar S] in
lemma Steady.congr (h : s.Steady arena P id axis) (harena : t.arena = s.arena)
    (hstance : t.stance? id = s.stance? id) : t.Steady arena P id axis := by
  obtain ⟨x, hx, hp⟩ := h.heads
  exact ⟨harena.trans h.arena, x, hstance.trans hx, hp⟩

variable (hkeeps : arena.Keeps P id axis)

include hkeeps

/-- **Tasks undo nothing.** -/
lemma Steady.result (h : s.Steady arena P id axis) {task : Task} {w : Write S}
    (hw : s.result task = .ok w) : (s.apply w).Steady arena P id axis := by
  have harena := ((Accords.refl s).apply w).arena
  by_cases htask : task.animated? = some id
  · obtain ⟨x, hx, hp⟩ := h.heads
    refine ⟨harena.trans h.arena, ?_⟩
    cases task with
    | advance object =>
      obtain rfl := Option.some.inj htask
      obtain ⟨node, hnode, ⟨-, rfl⟩ | ⟨animator, o, placement, hanimator, ho, hplacement, rfl⟩⟩ :=
        advance_ok hw
      · exact ⟨x, hx, hp⟩
      · rw [stance?, ho] at hx
        obtain rfl := Option.some.inj hx
        exact ⟨_, stance_apply_self ho _,
          hkeeps.animated node (h.arena ▸ hnode) animator hanimator _ _ _ _ _ hplacement hp⟩
    | _ => cases htask
  · exact h.congr harena (stance_result hw htask)

lemma Steady.performAll (h : s.Steady arena P id axis) (l : List Task) :
    (s.performAll l).2.Steady arena P id axis := by
  induction l generalizing s with
  | nil => exact h
  | cons task l ih =>
    rw [performAll_cons]
    rcases hw : s.result task with e | w
    · exact h
    · exact ih (h.result hkeeps hw)

lemma Steady.runner (h : s.Steady arena P id axis) (c : Command) (index count : ℕ) :
    (runner c index count s).2.Steady arena P id axis := by
  unfold SceneState.runner
  split
  · exact h
  · exact h.performAll hkeeps _

/-- **Actions undo nothing.** -/
lemma Steady.driven (h : s.Steady arena P id axis) (time : ℤ) (action : CameraAction) :
    (s.driven time action).Steady arena P id axis := by
  have harena := (s.accords_driven time action).arena
  by_cases hdrives : s.Drives action id
  · obtain ⟨-, c, hc, rfl⟩ := hdrives
    obtain ⟨x, hx, hp⟩ := h.heads
    have hturned := hkeeps.turned.resolve_right fun hnone =>
      hnone c (h.arena ▸ Array.mem_of_getElem? hc) rfl
    exact ⟨harena.trans h.arena, _, stance_driven hc hx time action,
      action.apply_keeps hturned c.camera _ hp⟩
  · exact h.congr harena (stance_driven_of_not hdrives time)

end SceneState

/-! ### Scenes -/

namespace Scene

variable {s : Scene S} (hpool : s.scheduler.pool.Runs SceneState.runner)

include hpool

lemma steady_dispatch (hkeeps : arena.Keeps P id axis) (c : Command) (w : SceneState S)
    (hw : w.Steady arena P id axis) :
    (s.scheduler.pool.dispatch c w).2.Steady arena P id axis :=
  hpool.dispatch_keeps (P := fun w => w.Steady arena P id axis)
    (fun i n _ hw => hw.runner hkeeps c i n) hw

lemma steady_perform (hkeeps : arena.Keeps P id axis) (h : s.state.Steady arena P id axis)
    (op : Operation) : (s.perform op).state.Steady arena P id axis := by
  rcases htime : op.time? with _ | time
  · obtain ⟨haccords, hstance⟩ := rests_perform hpool htime
    exact h.congr haccords.arena (hstance id)
  · obtain ⟨action, rfl⟩ := Operation.eq_update htime
    exact (update_keeps ((h.driven hkeeps time action).congr rfl rfl)
      (fun c _ => steady_dispatch hpool hkeeps c) (fun _ _ hw _ => hw.congr rfl rfl) h).2

/-- **Nothing undoes it**, through any history. -/
lemma steady_after (hkeeps : arena.Keeps P id axis) (h : s.state.Steady arena P id axis)
    (history : List Operation) : (s.after history).state.Steady arena P id axis :=
  (after_keeps (P := fun t => t.scheduler.pool.Runs SceneState.runner ∧
      t.state.Steady arena P id axis)
    (fun t op ht => ⟨t.pool_perform op ▸ ht.1, steady_perform ht.1 hkeeps ht.2 op⟩)
    ⟨hpool, h⟩ history).2

/-- An update that is not refused turns the current camera, which hangs on an object. -/
structure Turns (s : Scene S) (id : ℕ) (axis : Axis) (time : ℤ) (action : CameraAction) :
    Prop where
  accepted : s.isBlocked = false
  turned : ∃ c step, s.state.arena.cameras[s.state.rig.current]? = some c ∧ c.object = id ∧
    action.rotation? c.camera (secondsSince s.state.clock time) = some (axis, step)

/-- **What holds of turned angles holds from a turn on.** -/
lemma steady_turned (hkeeps : arena.Keeps P id axis)
    (hP : ∀ a step, P (Scalar.wrap (a + step) 360))
    (h : s.state.Steady arena (fun _ => True) id axis) {time : ℤ} {action : CameraAction}
    (hturns : s.Turns id axis time action) :
    (s.perform (.update time action)).state.Steady arena P id axis := by
  obtain ⟨c, step, hc, rfl, hstep⟩ := hturns.turned
  obtain ⟨x, hx, -⟩ := h.heads
  have hdrive : { s.state.driven time action with clock := some time }.Steady arena P c.object
      axis := by
    refine ⟨((s.state.accords_driven time action).arena).trans h.arena, _,
      SceneState.stance_driven hc hx time action, ?_⟩
    dsimp only
    rw [CameraAction.rotation_apply hstep, Vec.get_modify_self]
    exact hP _ _
  -- the camera hangs on an object that is there, so that it can be driven
  obtain ⟨o, ho, -⟩ := Option.map_eq_some_iff.mp hx
  exact update_open_keeps hdrive (fun c _ => steady_dispatch hpool hkeeps c)
    (fun _ _ hw _ => hw.congr rfl rfl) hturns.accepted
    (SceneState.drive_eq_of_getElem? hc ho time action)

/-- **What holds of spun angles holds after an update.** -/
lemma steady_spun (hP : ∀ a step, P (Animator.turned a step))
    (h : s.state.Steady arena (fun _ => True) id axis) {node : ObjectNode S}
    (hnode : arena.objects[id]? = some node) {rate : S}
    (hspin : node.animator = some (.spin axis rate)) {time : ℤ} {action : CameraAction}
    (hok : (s.update time action).1 = .ok ()) :
    (s.perform (.update time action)).state.Steady arena P id axis := by
  have htrue : arena.Keeps (fun _ => True) id axis := ⟨by simp [Animator.Keeps], .inl (by simp)⟩
  have hdrive := h.driven htrue time action
  have hanimates := update_animates hpool hok
  obtain ⟨x, hx, -⟩ := hdrive.heads
  obtain ⟨y, hy, hstance⟩ := hanimates.moved id node x (hdrive.arena ▸ hnode) hx
  refine ⟨hanimates.arena.trans hdrive.arena, y, hstance, ?_⟩
  unfold ObjectNode.moved at hy
  rw [hspin] at hy
  obtain rfl := Except.ok.inj hy
  dsimp only
  rw [Vec.get_modify_self]
  exact hP _ _

end Scene

end

/-! ### Doubles -/

open Double

/-- **An angle that has been turned stays within a full turn.** Take a scene of doubles, and an
object that spins, bobs or is not animated. From the first update on that turns a camera on the
object about an axis, the angle is between zero and a full turn, unless it is no number, whatever is
asked of the scene afterwards; and so is an angle that spins, from the first update on that
succeeds. That one is below a full turn after each update that succeeds, and all the time if no
camera hangs on the object. -/
theorem Scene.turned_stays {document : Document Float} {spec : FrameSpec} {p : Platform Float}
    {s : Scene Float} (hpool : p.pool = PoolFactory.inline ∨ p.pool = PoolFactory.threaded)
    (h : create document spec p = .ok s) {id : ℕ} {node : ObjectNode Float}
    (hnode : s.state.arena.objects[id]? = some node)
    (hplain : ∀ animator ∈ node.animator, animator.Plain) (axis : Axis) :
    (∀ before time action later, (s.after before).Turns id axis time action →
      (s.after (before ++ .update time action :: later)).state.Heads InTurn id axis) ∧
    ∀ rate, node.animator = some (.spin axis rate) → ∀ before time action later,
      ((s.after before).update time action).1 = .ok () →
        (s.after (before ++ [.update time action])).state.Heads BelowTurn id axis ∧
        (s.after (before ++ .update time action :: later)).state.Heads InTurn id axis ∧
        ((∀ c ∈ s.state.arena.cameras, c.object ≠ id) →
          (s.after (before ++ .update time action :: later)).state.Heads BelowTurn id axis) := by
  have hruns := (inShape_create hpool h).pool
  have hruns' (history : List Operation) :
      (s.after history).scheduler.pool.Runs SceneState.runner := s.pool_after history ▸ hruns
  have hkeeps {P : Float → Prop} (hspin : ∀ a step, P (Animator.turned a step))
      (hturn : (∀ a step, P (Scalar.wrap (a + step) 360)) ∨
        ∀ c ∈ s.state.arena.cameras, c.object ≠ id) : s.state.arena.Keeps P id axis := by
    refine ⟨fun node' hnode' animator hanimator => ?_, hturn⟩
    obtain rfl := Option.some.inj (hnode.symm.trans hnode')
    exact (hplain animator hanimator).keeps hspin
  have hdeclared : s.state.stance? id = some (node.placement, node.time) := by
    rw [(stance_create h).2, hnode]
    rfl
  have hthere (history : List Operation) :
      (s.after history).state.Steady s.state.arena (fun _ => True) id axis :=
    steady_after hruns (hkeeps (fun _ _ => trivial) (.inl fun _ _ => trivial))
      ⟨rfl, _, hdeclared, trivial⟩ history
  have hnext (before : List Operation) (op : Operation) (later : List Operation) :
      s.after (before ++ op :: later) = (s.after (before ++ [op])).after later := by
    rw [← after_append, List.append_assoc, List.singleton_append]
  have hlast (before : List Operation) (op : Operation) :
      s.after (before ++ [op]) = (s.after before).perform op := s.after_append before [op]
  have hkeepsIn : s.state.arena.Keeps InTurn id axis :=
    hkeeps (fun a step => (belowTurn_turned a step).inTurn) (.inl fun a step => inTurn_wrap _)
  -- the turn or the spin brings the angle into its range, and every later operation keeps it there
  refine ⟨fun before time action later hturns => ?_,
    fun rate hspin before time action later hok => ?_⟩
  · have hturned := steady_turned (hruns' before) hkeepsIn (fun a step => inTurn_wrap (a + step))
      (hthere before) hturns
    rw [← hlast] at hturned
    rw [hnext]
    exact (steady_after (hruns' _) hkeepsIn hturned later).heads
  · have hspun := steady_spun (hruns' before) belowTurn_turned (hthere before) hnode hspin hok
    rw [← hlast] at hspun
    obtain ⟨x, hx, hbelow⟩ := hspun.heads
    rw [hnext before _ later]
    refine ⟨hspun.heads, ?_, fun hcameras => ?_⟩
    · exact (steady_after (hruns' _) hkeepsIn ⟨hspun.arena, x, hx, hbelow.inTurn⟩ later).heads
    · have hkeepsBelow := hkeeps belowTurn_turned (.inr hcameras)
      exact (steady_after (hruns' _) hkeepsBelow hspun later).heads

/-! ### A camera that looks back -/

namespace Lookout

/-- A camera at the origin that turns by a degree every second. -/
def document : Document Float where
  version := "1"
  materials := Dict.empty
  textures := Dict.empty
  library := Dict.empty
  root := ⟨[.camera ⟨none, Placement.identity, none, none, 0⟩
    ⟨0, 1, 1, Camera.defaultSpeed, Vec.splat 1⟩], []⟩

def platform : Platform Float :=
  ⟨Pair.allocator, PoolFactory.threaded, 2, ⟨[⟨1, 1⟩], Fsaa.all⟩, Registry.empty,
    fun _ => .error ""⟩

/-- To the right, and back again in two steps. -/
def history : List Operation :=
  [.update 0 .none, .update 300 .turnRight, .update 400 .turnLeft, .update 600 .turnLeft]

end Lookout

/-- A camera that has been turned by three tenths of a degree, and back by one and by two, is
within a full turn, but not below it: the tenths are rounded, and so is the full turn that is
added. -/
theorem turned_stays_fullTurn : ∃ s node,
    Scene.create Lookout.document ⟨3, 2, 1⟩ Lookout.platform = .ok s ∧
      s.state.arena.objects[0]? = some node ∧ node.animator = none ∧
      (s.after [.update 0 .none]).Turns 0 .y 300 .turnRight ∧
      (s.after Lookout.history).state.Heads InTurn 0 .y ∧
      (s.after Lookout.history).state.Heads (· = 360) 0 .y := by
  have hrun : (Scene.create Lookout.document ⟨3, 2, 1⟩ Lookout.platform).toOption.any (fun s =>
      let t := s.after [.update 0 .none]
      s.state.arena.objects[0]?.any (fun n => n.animator.isNone) && !t.isBlocked &&
        decide (t.state.arena.cameras[t.state.rig.current]?.map (fun c => c.object) = some 0) &&
        decide (((s.after Lookout.history).state.stance? 0).map
          (fun x => x.1.rotation.y) = some 360)) = true := by
    decide +kernel
  rcases hs : Scene.create Lookout.document ⟨3, 2, 1⟩ Lookout.platform with e | s
  · rw [hs] at hrun
    cases hrun
  rw [hs] at hrun
  simp only [Except.toOption, Option.any_some, Bool.and_eq_true, Bool.not_eq_true',
    decide_eq_true_eq, Option.any_eq_true, Option.isNone_iff_eq_none,
    Option.map_eq_some_iff] at hrun
  obtain ⟨⟨⟨⟨node, hnode, hanimator⟩, hopen⟩, c, hc, hobject⟩, x, hx, hangle⟩ := hrun
  have hturns : (s.after [.update 0 .none]).Turns 0 .y 300 .turnRight :=
    ⟨hopen, c, _, hc, hobject, rfl⟩
  have hstays := (Scene.turned_stays (.inr rfl) hs hnode (by simp [hanimator]) .y).1
    [.update 0 .none] 300 .turnRight [.update 400 .turnLeft, .update 600 .turnLeft] hturns
  exact ⟨s, node, rfl, hnode, hanimator, hturns, hstays, x, hx, hangle⟩

end SolidTrace
