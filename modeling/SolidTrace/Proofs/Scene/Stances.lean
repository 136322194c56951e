import SolidTrace.Proofs.Motion.Driving
import SolidTrace.Proofs.Scene.Configuration
import SolidTrace.Proofs.Scene.Settled

/-!
Who moves an object, and when.

The stance of an object is its own placement, with the time to which it has been animated. An update
that succeeds changes it twice at most: first by the action, if the current camera hangs on the
object, and then by its animator, once. No other operation moves anything.
-/

namespace SolidTrace

variable {S : Type}

/-- The object that a task animates. -/
def Task.animated? : Task → Option ℕ
  | .advance object => some object
  | _ => none

namespace SceneState

/-- The placement of an object, and the time to which it has been animated. -/
def stance? (s : SceneState S) (id : ℕ) : Option (Placement S × ℤ) :=
  s.objects[id]?.map fun o => (o.placement, o.lastTime)

/-- One state has the arena, the camera and the time of another one. -/
structure Accords (t s : SceneState S) : Prop where
  arena : t.arena = s.arena
  rig : t.rig = s.rig
  clock : t.clock = s.clock

/-- One state comes from another one by animating every object once, to a time. -/
structure Animates (t s : SceneState S) (time : ℤ) : Prop where
  arena : t.arena = s.arena
  rig : t.rig = s.rig
  clock : t.clock = some time
  moved : ∀ id node x, s.arena.objects[id]? = some node → s.stance? id = some x →
    ∃ y, node.moved id x time = .ok y ∧ t.stance? id = some y

variable {s t : SceneState S} {id : ℕ}

lemma Accords.refl (s : SceneState S) : s.Accords s := ⟨rfl, rfl, rfl⟩

lemma Accords.trans {u : SceneState S} (h : u.Accords t) (h' : t.Accords s) : u.Accords s :=
  ⟨h.arena.trans h'.arena, h.rig.trans h'.rig, h.clock.trans h'.clock⟩

lemma Accords.apply (h : t.Accords s) (w : Write S) : (t.apply w).Accords s := by
  cases w with
  | nothing => exact h
  | object id o => exact ⟨h.arena, h.rig, h.clock⟩
  | pose surface p => exact ⟨h.arena, h.rig, h.clock⟩
  | pixels l => exact ⟨h.arena, h.rig, h.clock⟩

lemma stance_apply_of_ne {object : ℕ} (h : object ≠ id) (o : ObjectState S) :
    (s.apply (.object object o)).stance? id = s.stance? id := by
  dsimp only [apply, stance?]
  rw [Array.getElem?_setIfInBounds_ne h]

lemma stance_apply_self {o : ObjectState S} (h : s.objects[id]? = some o) (o' : ObjectState S) :
    (s.apply (.object id o')).stance? id = some (o'.placement, o'.lastTime) := by
  dsimp only [apply, stance?]
  rw [Array.getElem?_setIfInBounds_self_of_lt (Array.getElem?_eq_some_iff.mp h).1]
  rfl

variable [Scalar S]

/-- **A task moves the object that it animates**, and no other one. -/
lemma stance_result {task : Task} {w : Write S} (h : s.result task = .ok w)
    (htask : task.animated? ≠ some id) : (s.apply w).stance? id = s.stance? id := by
  cases task with
  | advance object =>
    have hne : object ≠ id := fun heq => htask (congrArg some heq)
    obtain ⟨node, -, ⟨-, rfl⟩ | ⟨animator, o, placement, -, -, -, rfl⟩⟩ := advance_ok h
    · rfl
    · exact stance_apply_of_ne hne _
  | resolve object =>
    obtain ⟨o, world, ho, -, rfl⟩ := resolve_ok h
    by_cases heq : object = id
    · subst heq
      rw [stance_apply_self ho, stance?, ho]
      rfl
    · exact stance_apply_of_ne heq _
  | place surface =>
    obtain ⟨n, -, rfl⟩ := place_ok h
    rfl
  | draw row =>
    obtain ⟨-, rfl⟩ := draw_ok (mapError_eq_ok.mp h)
    rfl

lemma stance_advance {w : Write S} (h : s.result (.advance id) = .ok w) {node : ObjectNode S}
    (hnode : s.arena.objects[id]? = some node) {x : Placement S × ℤ} (hx : s.stance? id = some x) :
    ∃ y, node.moved id x (s.clock.getD 0) = .ok y ∧ (s.apply w).stance? id = some y := by
  obtain ⟨node', hnode', hmoved⟩ := advance_ok h
  obtain rfl := Option.some.inj (hnode.symm.trans hnode')
  unfold ObjectNode.moved
  obtain ⟨hnone, rfl⟩ | ⟨animator, o, placement, hanimator, ho, hplacement, rfl⟩ := hmoved
  · rw [hnone]
    exact ⟨x, rfl, hx⟩
  · rw [stance?, ho] at hx
    obtain rfl := Option.some.inj hx
    rw [hanimator]
    dsimp only
    rw [hplacement]
    exact ⟨_, rfl, stance_apply_self ho _⟩

/-! ### Tasks in turn -/

/-- Tasks leave the arena, the camera and the clock, wherever they stop. -/
lemma accords_performAll {l : List Task} {r : Except SliceError Unit}
    (h : s.performAll l = (r, t)) : t.Accords s := by
  have hkept := performAll_keeps (P := fun t => t.Accords s) (fun _ w h => h.apply w) (.refl s) l
  rwa [h] at hkept

lemma stance_performAll {l : List Task} (hl : ∀ task ∈ l, task.animated? ≠ some id)
    {r : Except SliceError Unit} (h : s.performAll l = (r, t)) : t.stance? id = s.stance? id := by
  induction l generalizing s with
  | nil =>
    obtain rfl : s = t := congrArg Prod.snd h
    rfl
  | cons task l ih =>
    rw [performAll_cons] at h
    rcases hw : s.result task with e | w
    · rw [hw] at h
      obtain rfl : s = t := congrArg Prod.snd h
      rfl
    · rw [hw] at h
      exact (ih (fun t ht => hl t (List.mem_cons_of_mem _ ht)) h).trans
        (stance_result hw (hl task List.mem_cons_self))

lemma stance_performAll_map {task : ℕ → Task} (htask : ∀ k, (task k).animated? = none)
    {l : List ℕ} {r : Except SliceError Unit} (h : s.performAll (l.map task) = (r, t)) :
    t.stance? id = s.stance? id := by
  refine stance_performAll (fun t ht heq => ?_) h
  obtain ⟨k, -, rfl⟩ := List.mem_map.mp ht
  cases (htask k).symm.trans heq

lemma stance_advanceAll {l : List ℕ} (hnodup : l.Nodup) (hid : id ∈ l)
    (h : s.performAll (l.map .advance) = (.ok (), t)) {node : ObjectNode S}
    (hnode : s.arena.objects[id]? = some node) {x : Placement S × ℤ} (hx : s.stance? id = some x) :
    ∃ y, node.moved id x (s.clock.getD 0) = .ok y ∧ t.stance? id = some y := by
  induction l generalizing s with
  | nil => cases hid
  | cons k l ih =>
    obtain ⟨hk, hnodup⟩ := List.nodup_cons.mp hnodup
    rw [List.map_cons, performAll_cons] at h
    rcases hw : s.result (.advance k) with e | w
    · rw [hw] at h
      cases congrArg Prod.fst h
    rw [hw] at h
    have hperform : (s.apply w).performAll (l.map .advance) = (.ok (), t) := h
    rcases eq_or_ne id k with rfl | hne
    · -- its own turn: none of the later tasks is about it
      obtain ⟨y, hy, hstance⟩ := stance_advance hw hnode hx
      refine ⟨y, hy, ?_⟩
      refine (stance_performAll (fun task htask heq => ?_) hperform).trans hstance
      obtain ⟨j, hj, rfl⟩ := List.mem_map.mp htask
      exact hk (Option.some.inj heq ▸ hj)
    · have haccords := (Accords.refl s).apply w
      have hsame : (s.apply w).stance? id = s.stance? id :=
        stance_result hw fun heq => hne (Option.some.inj heq).symm
      rw [← haccords.clock]
      exact ih hnodup ((List.mem_cons.mp hid).resolve_left hne) hperform (haccords.arena ▸ hnode)
        (hsame.trans hx)

/-- **The three phases of an update** animate every object once. -/
lemma animates_of_phases {time : ℤ} (hclock : s.clock = some time) {w₁ w₂ : SceneState S}
    {surfaces objects : List ℕ}
    (hanimate : s.performAll ((List.range s.objects.size).map .advance) = (.ok (), w₁))
    (hresolve : w₁.performAll (objects.map .resolve) = (.ok (), w₂))
    (hplace : w₂.performAll (surfaces.map .place) = (.ok (), t)) : t.Animates s time := by
  have haccords := ((accords_performAll hplace).trans (accords_performAll hresolve)).trans
    (accords_performAll hanimate)
  refine ⟨haccords.arena, haccords.rig, haccords.clock.trans hclock, fun id node x hnode hx => ?_⟩
  have hid : id < s.objects.size := by
    obtain ⟨o, ho, -⟩ := Option.map_eq_some_iff.mp hx
    exact (Array.getElem?_eq_some_iff.mp ho).1
  obtain ⟨y, hy, hstance⟩ :=
    stance_advanceAll List.nodup_range (List.mem_range.mpr hid) hanimate hnode hx
  rw [hclock] at hy
  refine ⟨y, hy, ?_⟩
  rw [stance_performAll_map (fun _ => rfl) hplace, stance_performAll_map (fun _ => rfl) hresolve,
    hstance]

lemma rests_runner_render (index count : ℕ) (s : SceneState S) :
    (runner (Command.render 0) index count s).2.Accords s ∧
      ∀ id, (runner (Command.render 0) index count s).2.stance? id = s.stance? id := by
  unfold runner
  split
  · exact ⟨.refl s, fun _ => rfl⟩
  · next l hl =>
    refine ⟨accords_performAll rfl, ?_⟩
    dsimp only [tasks, Command.render] at hl
    split at hl
    · obtain rfl := Except.ok.inj hl
      exact fun id => stance_performAll_map (fun _ => rfl) rfl
    · cases hl

lemma rests_settle (h : s.settle = .ok t) :
    t.Accords s ∧ ∀ id, t.stance? id = s.stance? id := by
  obtain ⟨u, world, hperform, -, rfl⟩ := exists_settle h
  have haccords := accords_performAll hperform
  refine ⟨⟨haccords.arena, haccords.rig, haccords.clock⟩, fun id => ?_⟩
  refine stance_performAll (t := u) (fun task htask heq => ?_) hperform
  rcases List.mem_append.mp htask with hmem | hmem
  · obtain ⟨k, -, rfl⟩ := List.mem_map.mp hmem
    cases heq
  · obtain ⟨k, -, rfl⟩ := List.mem_map.mp hmem
    cases heq

/-- An action moves an object if the current camera hangs on it. -/
def Drives (s : SceneState S) (action : CameraAction) (id : ℕ) : Prop :=
  action ≠ .none ∧ ∃ c, s.arena.cameras[s.rig.current]? = some c ∧ c.object = id

lemma accords_driven (s : SceneState S) (time : ℤ) (action : CameraAction) :
    (s.driven time action).Accords s := by
  obtain ⟨objects, hdrive⟩ := s.exists_driven time action
  rw [hdrive]
  exact ⟨rfl, rfl, rfl⟩

lemma stance_driven_of_not {action : CameraAction} (h : ¬ s.Drives action id) (time : ℤ) :
    (s.driven time action).stance? id = s.stance? id := by
  unfold driven
  split
  · rfl
  · next haction =>
    split
    · rfl
    · next c hc =>
      have hne : c.object ≠ id := fun heq => h ⟨haction, c, hc, heq⟩
      dsimp only [stance?]
      rw [Array.getElem?_modify, if_neg hne]

/-- **An action moves the object of the current camera.** -/
lemma stance_driven {c : CameraNode S} (hc : s.arena.cameras[s.rig.current]? = some c)
    {x : Placement S × ℤ} (hx : s.stance? c.object = some x) (time : ℤ) (action : CameraAction) :
    (s.driven time action).stance? c.object =
      some (action.apply c.camera (secondsSince s.clock time) x.1, x.2) := by
  obtain ⟨o, ho, rfl⟩ := Option.map_eq_some_iff.mp hx
  unfold driven
  split
  · next hnone =>
    rw [hnone]
    exact hx
  · rw [hc]
    dsimp only [stance?]
    rw [Array.getElem?_modify, if_pos rfl, ho]
    rfl

end SceneState

/-! ### Operations -/

namespace Scene

variable [Scalar S] {s : Scene S} {id : ℕ}

/-- **An update that succeeds** moves the camera by the action, and then animates every object
once. -/
lemma update_animates (hpool : s.scheduler.pool.Runs SceneState.runner) {time : ℤ}
    {action : CameraAction} (hok : (s.update time action).1 = .ok ()) :
    (s.perform (.update time action)).state.Animates (s.state.driven time action) time := by
  generalize ht : s.perform (.update time action) = t
  cases updates_of_eq (Prod.ext hok ht) with
  | published _ h hworld =>
    obtain ⟨w₁, w₂, h₁, h₂, h₃⟩ := Scheduler.update_ok h
    have hphases := SceneState.animates_of_phases rfl (SceneState.phase_range hpool rfl h₁)
      (SceneState.phase_range hpool rfl h₂) (SceneState.phase_range hpool rfl h₃)
    exact ⟨hphases.arena, hphases.rig, hphases.clock, hphases.moved⟩

lemma accords_update (hpool : s.scheduler.pool.Runs SceneState.runner) {time : ℤ}
    {action : CameraAction} (hok : (s.update time action).1 = .ok ()) :
    (s.perform (.update time action)).state.Accords { s.state with clock := some time } := by
  have hanimates := update_animates hpool hok
  have hdrive := s.state.accords_driven time action
  exact ⟨hanimates.arena.trans hdrive.arena, hanimates.rig.trans hdrive.rig, hanimates.clock⟩

lemma stance_update_of_not (hpool : s.scheduler.pool.Runs SceneState.runner) {time : ℤ}
    {action : CameraAction} (hok : (s.update time action).1 = .ok ())
    (hspared : ¬ s.state.Drives action id) {node : ObjectNode S}
    (hnode : s.state.arena.objects[id]? = some node) {x : Placement S × ℤ}
    (hx : s.state.stance? id = some x) : ∃ y, node.moved id x time = .ok y ∧
      (s.perform (.update time action)).state.stance? id = some y := by
  have hanimates := update_animates hpool hok
  exact hanimates.moved id node x ((s.state.accords_driven time action).arena ▸ hnode)
    ((SceneState.stance_driven_of_not hspared time).trans hx)

/-- An update moves the object of the current camera by the action, if it has no animator. -/
lemma stance_update_of_camera (hpool : s.scheduler.pool.Runs SceneState.runner) {time : ℤ}
    {action : CameraAction} (hok : (s.update time action).1 = .ok ()) {c : CameraNode S}
    (hc : s.state.arena.cameras[s.state.rig.current]? = some c) {node : ObjectNode S}
    (hnode : s.state.arena.objects[c.object]? = some node) (hanimator : node.animator = none)
    {x : Placement S × ℤ} (hx : s.state.stance? c.object = some x) :
    (s.perform (.update time action)).state.stance? c.object =
      some (action.apply c.camera (secondsSince s.state.clock time) x.1, x.2) := by
  have hanimates := update_animates hpool hok
  obtain ⟨y, hy, hstance⟩ := hanimates.moved c.object node _
    ((s.state.accords_driven time action).arena ▸ hnode)
    (SceneState.stance_driven hc hx time action)
  unfold ObjectNode.moved at hy
  rw [hanimator] at hy
  exact hstance.trans (congrArg some (Except.ok.inj hy).symm)

/-- **Operations other than updates move nothing**, and pass no time. -/
lemma rests_perform (hpool : s.scheduler.pool.Runs SceneState.runner) {op : Operation}
    (hop : op.time? = none) :
    (s.perform op).state.Accords { s.state with rig := s.state.rig.turned op } ∧
      ∀ id, (s.perform op).state.stance? id = s.state.stance? id := by
  cases op with
  | update time action => cases hop
  | render =>
    refine (s.scheduler.dispatch_keeps (P := fun w => w.Accords s.state ∧
      ∀ id, w.stance? id = s.state.stance? id) (fun w hw => ?_) ⟨.refl _, fun _ => rfl⟩).2
    refine hpool.dispatch_keeps (P := fun w => w.Accords s.state ∧
      ∀ id, w.stance? id = s.state.stance? id) (fun index count w hw => ?_) hw
    obtain ⟨haccords, hstance⟩ := w.rests_runner_render index count
    exact ⟨haccords.trans hw.1, fun id => (hstance id).trans (hw.2 id)⟩
  | acknowledge => exact ⟨.refl _, fun _ => rfl⟩
  | setSimd request =>
    dsimp only [perform]
    unfold setSimd
    split
    · exact ⟨.refl _, fun _ => rfl⟩
    · split
      · exact ⟨.refl _, fun _ => rfl⟩
      · exact ⟨⟨rfl, rfl, rfl⟩, fun _ => rfl⟩
  | setFsaa level => exact ⟨⟨rfl, rfl, rfl⟩, fun _ => rfl⟩
  | setOptions options => exact ⟨⟨rfl, rfl, rfl⟩, fun _ => rfl⟩
  | nextCamera => exact ⟨⟨rfl, rfl, rfl⟩, fun _ => rfl⟩

lemma stance_create {document : Document S} {spec : FrameSpec} {p : Platform S}
    (h : create document spec p = .ok s) : s.state.clock = none ∧ ∀ id,
      s.state.stance? id = s.state.arena.objects[id]?.map fun n => (n.placement, n.time) := by
  obtain ⟨c, kernel, -, hs, -⟩ := create_ok h
  obtain ⟨haccords, hstance⟩ := SceneState.rests_settle hs
  refine ⟨haccords.clock, fun id => ?_⟩
  rw [hstance, haccords.arena]
  dsimp only [SceneState.stance?, SceneState.initial]
  rw [Array.getElem?_map, Option.map_map]
  rfl

/-! ### Histories -/

/-- Every update of a history succeeds, and no action moves the object. -/
def Spares (s : Scene S) (id : ℕ) (history : List Operation) : Prop :=
  EachUpdate (fun t time action => (t.update time action).1 = .ok () ∧ ¬ t.state.Drives action id)
    s history

/-- Every update of a history succeeds, with one action for one camera. -/
structure Steers (s : Scene S) (action : CameraAction) (history : List Operation) : Prop where
  updates : EachUpdate (fun t time a => (t.update time a).1 = .ok () ∧ a = action) s history
  camera : .nextCamera ∉ history

/-- **An object that is spared goes from update to update as its animator says.** -/
lemma moved_after (hpool : s.scheduler.pool.Runs SceneState.runner) {node : ObjectNode S}
    (hnode : s.state.arena.objects[id]? = some node) {history : List Operation}
    (h : s.Spares id history) {x : Placement S × ℤ} (hx : s.state.stance? id = some x) :
    ∃ y, (updateTimes history).foldlM (node.moved id) x = .ok y ∧
      (s.after history).state.stance? id = some y := by
  induction history generalizing s x with
  | nil => exact ⟨x, rfl, hx⟩
  | cons op history ih =>
    obtain ⟨hfirst, hrest⟩ := eachUpdate_cons.mp h
    have hnext : (s.perform op).scheduler.pool.Runs SceneState.runner :=
      s.pool_perform op ▸ hpool
    rcases htime : op.time? with _ | time
    · obtain ⟨haccords, hstance⟩ := rests_perform hpool htime
      obtain ⟨y, hy, hafter⟩ := ih hnext (haccords.arena ▸ hnode) hrest ((hstance id).trans hx)
      exact ⟨y, by rwa [updateTimes, List.filterMap_cons_none htime], hafter⟩
    · obtain ⟨action, rfl⟩ := Operation.eq_update htime
      obtain ⟨hok, hspared⟩ := hfirst time action rfl
      obtain ⟨x', hx', hstance⟩ := stance_update_of_not hpool hok hspared hnode hx
      obtain ⟨y, hy, hafter⟩ := ih hnext ((accords_update hpool hok).arena ▸ hnode) hrest hstance
      refine ⟨y, ?_, hafter⟩
      rw [updateTimes, List.filterMap_cons_some htime, List.foldlM_cons, hx']
      exact hy

/-- **The current camera goes from update to update as the action says**, if its object has no
animator. -/
lemma driven_after (hpool : s.scheduler.pool.Runs SceneState.runner) {c : CameraNode S}
    (hc : s.state.arena.cameras[s.state.rig.current]? = some c) {node : ObjectNode S}
    (hnode : s.state.arena.objects[c.object]? = some node) (hanimator : node.animator = none)
    {action : CameraAction} {history : List Operation} (h : s.Steers action history)
    {x : Placement S × ℤ} (hx : s.state.stance? c.object = some x) :
    (s.after history).state.stance? c.object = some
      (((updateTimes history).foldl (action.driven c.camera) (s.state.clock, x.1)).2, x.2) := by
  -- only an update moves the camera, and every other operation leaves its clock as well
  induction history generalizing s x with
  | nil => exact hx
  | cons op history ih =>
    obtain ⟨hfirst, hrest⟩ := eachUpdate_cons.mp h.updates
    obtain ⟨hop, hcamera⟩ := not_or.mp (mt List.mem_cons.mpr h.camera)
    have hnext : (s.perform op).scheduler.pool.Runs SceneState.runner :=
      s.pool_perform op ▸ hpool
    rcases htime : op.time? with _ | time
    · obtain ⟨haccords, hstance⟩ := rests_perform hpool htime
      have hrig : (s.perform op).state.rig = s.state.rig := by
        rw [haccords.rig]
        cases op with
        | nextCamera => exact absurd rfl hop
        | _ => rfl
      have hlater := ih hnext (by rw [haccords.arena, hrig]; exact hc) (haccords.arena ▸ hnode)
        ⟨hrest, hcamera⟩ ((hstance _).trans hx)
      rw [haccords.clock] at hlater
      rwa [updateTimes, List.filterMap_cons_none htime]
    · obtain ⟨a, rfl⟩ := Operation.eq_update htime
      obtain ⟨hok, rfl⟩ := hfirst time a rfl
      have haccords := accords_update hpool hok
      have hlater := ih hnext (by rw [haccords.arena, haccords.rig]; exact hc)
        (haccords.arena ▸ hnode) ⟨hrest, hcamera⟩
          (stance_update_of_camera hpool hok hc hnode hanimator hx)
      rw [haccords.clock] at hlater
      rwa [updateTimes, List.filterMap_cons_some htime, List.foldl_cons]

end Scene

end SolidTrace
