import SolidTrace.Proofs.Compile.Expansion
import SolidTrace.Proofs.Scene.Publication
import SolidTrace.Proofs.Scene.Stances

/-!
Cameras that are driven by updates.

The clock of a scene shows the time of the last update that was not refused, and each update drives
the current camera for the time since. As the seconds of an action add up, a camera that goes on
with one action gets as far in many updates as in one.
-/

namespace SolidTrace

open Extended

namespace Scene

section

variable {S : Type} [Scalar S] {s : Scene S}

/-- The time of the last update of a history that is not refused. -/
def lastUpdate (s : Scene S) : List Operation → Option ℤ
  | [] => none
  | op :: history =>
    ((s.perform op).lastUpdate history).or (if s.isBlocked then none else op.time?)

/-- An update sets the clock before a phase can fail. -/
lemma Reached.clock_update (hs : s.Reached) (hopen : s.isBlocked = false) (time : ℤ)
    (action : CameraAction) : (s.update time action).2.state.clock = some time := by
  have hkeeps : ∀ c (w : SceneState S), w.clock = some time →
      (s.scheduler.pool.dispatch c w).2.clock = some time := fun c w hw =>
    (hs.inShape.pool.writes c w).keeps (P := fun w => w.clock = some time)
      (fun v w hv => (((SceneState.Accords.refl v).apply w).clock).trans hv) hw
  exact update_open_keeps (P := fun w => w.clock = some time) rfl (fun c _ => hkeeps c)
    (fun _ _ hw _ => hw) hopen (hs.founded.drive_eq time action)

lemma Reached.clock_perform (hs : s.Reached) (op : Operation) :
    (s.perform op).state.clock =
      (if s.isBlocked then none else op.time?).or s.state.clock := by
  rcases htime : op.time? with _ | time
  · rw [(rests_perform hs.inShape.pool htime).1.clock, ite_self, Option.none_or]
  · obtain ⟨action, rfl⟩ := Operation.eq_update htime
    rcases hopen : s.isBlocked with _ | _
    · exact hs.clock_update hopen time action
    · change (s.update time action).2.state.clock = _
      rw [(refused hopen time action).1]
      rfl

/-- **The clock shows the time of the last update** that was not refused. -/
lemma Reached.clock_after (hs : s.Reached) (history : List Operation) :
    (s.after history).state.clock = (s.lastUpdate history).or s.state.clock := by
  induction history generalizing s with
  | nil => rfl
  | cons op history ih =>
    change ((s.perform op).after history).state.clock = _
    rw [ih (hs.perform op), hs.clock_perform, lastUpdate, Option.or_assoc]

end

end Scene

variable {sine cosine : ℝ → ℝ}

/-- What one action does to a camera at a station. -/
structure CameraAction.Steady (action : CameraAction) (c : Camera (Exact sine cosine))
    (x : Station) (scale : Vec (Exact sine cosine)) : Prop where
  /-- The seconds add up. -/
  added : ∀ s t : ℝ, action.apply c (real t) (action.apply c (real s) (x.place scale)) =
    action.apply c (real (s + t)) (x.place scale)
  /-- The opposite action leads back, but for full turns. -/
  reversed : ∀ s : ℝ, ∃ y : Station, y.Agrees x ∧
    action.opposite.apply c (real s) (action.apply c (real s) (x.place scale)) = y.place scale
  /-- A movement turns nothing. -/
  moved : action.turns = false → ∀ s : ℝ,
    (action.apply c (real s) (x.place scale)).rotation = x.rotation.real ∧
      (action.apply c (real s) (x.place scale)).scale = scale
  /-- A turn moves nothing. -/
  turned : action.turns = true → ∀ s : ℝ,
    (action.apply c (real s) (x.place scale)).position = x.position.real ∧
      (action.apply c (real s) (x.place scale)).scale = scale

lemma CameraAction.steady {c : Camera (Exact sine cosine)} {speed turning : Vec ℝ}
    (hspeed : c.speed = speed.real) (hturning : c.turning = turning.real) (action : CameraAction)
    (x : Station) (scale : Vec (Exact sine cosine)) : action.Steady c x scale where
  added := apply_apply hspeed hturning action x scale
  reversed := apply_opposite hspeed hturning action x scale
  moved h s := apply_of_moves h c (real s) (x.place scale)
  turned h s := apply_of_turns h c (real s) (x.place scale)

namespace Scene

variable {s : Scene (Exact sine cosine)}

/-- The current camera has real speeds, and its object stands at a station without an animator. -/
structure Parked (s : Scene (Exact sine cosine)) (c : CameraNode (Exact sine cosine))
    (x : Station) (scale : Vec (Exact sine cosine)) : Prop where
  current : s.state.arena.cameras[s.state.rig.current]? = some c
  speed : ∃ v : Vec ℝ, c.camera.speed = v.real
  turning : ∃ v : Vec ℝ, c.camera.turning = v.real
  unanimated : ∃ node, s.state.arena.objects[c.object]? = some node ∧ node.animator = none
  standing : ∃ o, s.state.objects[c.object]? = some o ∧ o.placement = x.place scale

/-- A camera that goes on with one action gets as far as in a single update. -/
lemma parked_after (hpool : s.scheduler.pool.Runs SceneState.runner)
    {c : CameraNode (Exact sine cosine)} {x : Station} {scale : Vec (Exact sine cosine)}
    (h : s.Parked c x scale) {action : CameraAction} {history : List Operation}
    (hhistory : s.Steers action history) {first time : ℤ} {times : List ℤ}
    (htimes : updateTimes history = first :: times)
    (hlast : (first :: times).getLast? = some time)
    (hahead : (s.state.clock.getD first :: first :: times).IsChain Ahead) :
    ∃ o, (s.after history).state.objects[c.object]? = some o ∧
      o.placement = action.apply c.camera
        (real ((time - s.state.clock.getD first : ℤ) / 1000)) (x.place scale) := by
  obtain ⟨speed, hspeed⟩ := h.speed
  obtain ⟨turning, hturning⟩ := h.turning
  obtain ⟨node, hnode, hanimator⟩ := h.unanimated
  obtain ⟨o, ho, hplacement⟩ := h.standing
  have hstance : s.state.stance? c.object = some (x.place scale, o.lastTime) := by
    rw [SceneState.stance?, ho, ← hplacement]
    rfl
  have hafter := driven_after hpool h.current hnode hanimator hhistory hstance
  rw [htimes, CameraAction.foldl_driven_first hspeed hturning action x scale hlast hahead] at hafter
  obtain ⟨o', ho', heq⟩ := Option.map_eq_some_iff.mp hafter
  exact ⟨o', ho', congrArg Prod.fst heq⟩

/-- **Driving does not depend on the frame rate, and can be undone.** Whatever sine and cosine are,
the seconds of an action add up, the opposite action leads back but for full turns, movements turn
nothing and turns move nothing. So take a scene after any history, a camera in it without an
animator, and updates that succeed, all with one action and without a turn to the next camera, at
times of which none is before the one before it. They take the camera as far as the action does in
the seconds from the last update before them, or from the first of them if there was none, to the
last of them. -/
theorem driven_by_time {sine cosine : ℝ → ℝ} :
    (∀ (c : Camera (Exact sine cosine)) (speed turning : Vec ℝ), c.speed = speed.real →
      c.turning = turning.real → ∀ (action : CameraAction) (x : Station)
        (scale : Vec (Exact sine cosine)), action.Steady c x scale) ∧
    ∀ (document : Document (Exact sine cosine)) (spec : FrameSpec)
      (p : Platform (Exact sine cosine)) (a : Scene (Exact sine cosine)),
      p.pool = PoolFactory.inline ∨ p.pool = PoolFactory.threaded → create document spec p = .ok a →
      ∀ (before history : List Operation) (c : CameraNode (Exact sine cosine)) (x : Station)
        (scale : Vec (Exact sine cosine)) (action : CameraAction) (first time : ℤ)
        (times : List ℤ),
        (a.after before).Parked c x scale → (a.after before).Steers action history →
        updateTimes history = first :: times → (first :: times).getLast? = some time →
        ((a.lastUpdate before).getD first :: first :: times).IsChain Ahead →
          ∃ o, ((a.after before).after history).state.objects[c.object]? = some o ∧
            o.placement = action.apply c.camera
              (real ((time - (a.lastUpdate before).getD first : ℤ) / 1000)) (x.place scale) := by
  refine ⟨fun c speed turning hspeed hturning => CameraAction.steady hspeed hturning, ?_⟩
  intro document spec p a hpool h before history c x scale action first time times hparked hsteers
    htimes hlast hahead
  have hruns := (inShape_create hpool h).pool
  have hclock : (a.after before).state.clock = a.lastUpdate before := by
    rw [(Reached.created hpool h).clock_after, (stance_create h).1, Option.or_none]
  rw [← hclock] at hahead ⊢
  exact parked_after (a.pool_after before ▸ hruns) hparked hsteers htimes hlast hahead

end Scene

namespace Tour

noncomputable def document : Document (Exact Real.sin Real.cos) where
  version := "1"
  materials := Dict.empty
  textures := Dict.empty
  library := Dict.empty
  root := ⟨[.camera ⟨none, Placement.identity, none, none, 0⟩
    ⟨0, 1, 1, Camera.defaultSpeed, Camera.defaultTurning⟩], []⟩

noncomputable def platform : Platform (Exact Real.sin Real.cos) :=
  ⟨Pair.allocator, PoolFactory.threaded, 2, ⟨[⟨1, 1⟩], Fsaa.all⟩, Registry.empty,
    fun _ => .error ""⟩

/-- Two turns, one after a quarter of the time of both. -/
def history : List Operation := [.update 1500 .turnRight, .acknowledge, .update 3000 .turnRight]

lemma exists_scene : ∃ a c, Scene.create document ⟨3, 2, 1⟩ platform = .ok a ∧
    (a.after [.update 1000 .none]).Parked c ⟨⟨0, 0, 0⟩, ⟨0, 0, 0⟩⟩ (Vec.splat 1) ∧
      (a.after [.update 1000 .none]).Steers .turnRight history ∧
        a.lastUpdate [.update 1000 .none] = some 1000 := by
  have hdeclared : (Scene.create document ⟨3, 2, 1⟩ platform).toOption.bind (fun a =>
      let s := a.after [.update 1000 .none]
      s.state.arena.cameras[s.state.rig.current]?.bind fun c =>
        s.state.arena.objects[c.object]?.bind fun n => s.state.objects[c.object]?.map fun o =>
          (c.camera.speed, c.camera.turning, n.animator, o.placement)) =
        some (Vec.splat 1, Vec.splat 45, none, Placement.identity) := by
    with_unfolding_all rfl
  have hupdated : (Scene.create document ⟨3, 2, 1⟩ platform).toOption.any (fun a =>
      let s := a.after [.update 1000 .none]
      decide ((s.update 1500 .turnRight).1 = .ok ()) && decide
        (((s.after [.update 1500 .turnRight, .acknowledge]).update 3000 .turnRight).1 = .ok ()) &&
          !a.isBlocked) = true := by
    decide +kernel
  rcases ha : Scene.create document ⟨3, 2, 1⟩ platform with e | a
  · rw [ha] at hupdated
    cases hupdated
  rw [ha] at hdeclared hupdated
  simp only [Except.toOption, Option.any_some, Bool.and_eq_true, decide_eq_true_eq,
    Bool.not_eq_true'] at hupdated
  obtain ⟨⟨hfirst, hsecond⟩, hopen⟩ := hupdated
  simp only [Except.toOption, Option.bind_some] at hdeclared
  obtain ⟨c, hc, hdeclared⟩ := Option.bind_eq_some_iff.mp hdeclared
  obtain ⟨node, hnode, hdeclared⟩ := Option.bind_eq_some_iff.mp hdeclared
  obtain ⟨o, ho, hdeclared⟩ := Option.map_eq_some_iff.mp hdeclared
  simp only [Prod.mk.injEq] at hdeclared
  obtain ⟨hspeed, hturning, hanimator, hplacement⟩ := hdeclared
  refine ⟨a, c, rfl, ⟨hc, ⟨⟨1, 1, 1⟩, ?_⟩, ⟨⟨45, 45, 45⟩, ?_⟩, ⟨node, hnode, hanimator⟩, o, ho, ?_⟩,
    ⟨?_, by decide⟩, ?_⟩
  · exact hspeed.trans (congrArg Vec.splat one_eq)
  · exact hturning.trans (congrArg Vec.splat (ofNat_eq 45))
  · rw [hplacement]
    exact congrArg (fun z => Placement.mk (Vec.splat z) (Vec.splat z) (Vec.splat 1)) zero_eq
  · refine Scene.eachUpdate_cons.mpr ⟨?_, Scene.eachUpdate_cons.mpr ⟨by rintro _ _ ⟨⟩,
      Scene.eachUpdate_cons.mpr ⟨?_, Scene.eachUpdate_nil _ _⟩⟩⟩
    · rintro time action ⟨⟩
      exact ⟨hfirst, rfl⟩
    · rintro time action ⟨⟩
      exact ⟨hsecond, rfl⟩
  · rw [Scene.lastUpdate, hopen]
    rfl

end Tour

/-- A camera that has been turned at two times has been turned for the two seconds since the update
before them, and could be turned back. -/
theorem driven_by_time_tour : ∃ a c o, Scene.create Tour.document ⟨3, 2, 1⟩ Tour.platform = .ok a ∧
    (a.after [.update 1000 .none]).Parked c ⟨⟨0, 0, 0⟩, ⟨0, 0, 0⟩⟩ (Vec.splat 1) ∧
      CameraAction.turnRight.Steady c.camera ⟨⟨0, 0, 0⟩, ⟨0, 0, 0⟩⟩ (Vec.splat 1) ∧
      ((a.after [.update 1000 .none]).after Tour.history).state.objects[c.object]? = some o ∧
        o.placement = CameraAction.turnRight.apply c.camera (real 2)
          (Station.place ⟨⟨0, 0, 0⟩, ⟨0, 0, 0⟩⟩ (Vec.splat 1)) := by
  obtain ⟨a, c, ha, hparked, hsteers, hlast⟩ := Tour.exists_scene
  have hahead : (((a.lastUpdate [.update 1000 .none]).getD 1500 : ℤ) :: 1500 :: [3000]).IsChain
      Ahead := by
    rw [hlast]
    exact .cons_cons (by norm_num [Ahead, Near])
      (.cons_cons (by norm_num [Ahead, Near]) (.singleton _))
  obtain ⟨o, ho, hplacement⟩ := Scene.driven_by_time.2 Tour.document ⟨3, 2, 1⟩ Tour.platform a
    (.inr rfl) ha [.update 1000 .none] Tour.history c ⟨⟨0, 0, 0⟩, ⟨0, 0, 0⟩⟩ (Vec.splat 1)
    .turnRight 1500 3000 [3000] hparked hsteers rfl rfl hahead
  obtain ⟨speed, hspeed⟩ := hparked.speed
  obtain ⟨turning, hturning⟩ := hparked.turning
  have hsteady := Scene.driven_by_time.1 c.camera speed turning hspeed hturning .turnRight
    ⟨⟨0, 0, 0⟩, ⟨0, 0, 0⟩⟩ (Vec.splat 1)
  refine ⟨a, c, o, ha, hparked, hsteady, ho, ?_⟩
  have hseconds : (((3000 - 1000 : ℤ) : ℝ) / 1000) = 2 := by norm_num
  rw [hplacement, hlast, Option.getD_some, hseconds]

end SolidTrace
