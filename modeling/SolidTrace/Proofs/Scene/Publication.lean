import SolidTrace.Proofs.Scene.History
import SolidTrace.Proofs.Scene.Movement
import SolidTrace.Proofs.Scene.Rendering
import SolidTrace.Proofs.Scene.Shown

/-!
What failed and refused operations leave alone.

While a failure stands, updating and rendering are refused and change nothing. An update that fails
half-way has moved objects, and yet leaves the picture of the last one that succeeded. In a history
the snapshot is that of the last successful update, whatever was refused or failed since.
-/

namespace SolidTrace

namespace Scheduler

variable {W : Type} {P : W → Prop} {s s' : Scheduler W} {w w' : W} {e : DispatchError}

lemma dispatch_error {c : Command} (hopen : s.blocked = false)
    (h : s.dispatch c w = (.error e, s', w')) :
    s'.blocked = true ∧ s'.pool = s.pool ∧ (s.pool.dispatch c w).1 ≠ [] ∧
      e = .workers c.kind (s.pool.dispatch c w).1 := by
  unfold dispatch at h
  rw [hopen, if_neg Bool.false_ne_true] at h
  split at h
  · cases congrArg Prod.fst h
  · next failures v hne hd =>
    obtain rfl : DispatchError.workers c.kind failures = e := Except.error.inj (congrArg Prod.fst h)
    obtain rfl := congrArg (fun r => r.2.1) h
    rw [hd]
    exact ⟨rfl, rfl, hne, rfl⟩

/-- The first dispatch that fails blocks the scheduler. It begins in a state with all that the
dispatches before it keep. -/
lemma dispatchAll_error {l : List Command} (hopen : s.blocked = false) (hw : P w)
    (hkeeps : ∀ c ∈ l, ∀ w, P w → P (s.pool.dispatch c w).2)
    (h : s.dispatchAll l w = (.error e, s', w')) :
    s'.blocked = true ∧ s'.pool = s.pool ∧ ∃ c ∈ l, ∃ v, P v ∧ (s.pool.dispatch c v).1 ≠ [] ∧
      e = .workers c.kind (s.pool.dispatch c v).1 := by
  induction l generalizing s w with
  | nil => cases congrArg Prod.fst h
  | cons c l ih =>
    unfold dispatchAll at h
    split at h
    · next s₁ w₁ hd =>
      obtain ⟨hnil, hs₁⟩ : s.pool.dispatch c w = ([], w₁) ∧
          s₁ = { s with dispatches := s.dispatches + 1 } := by
        have hnil := dispatch_ok hd
        rw [dispatch_of_nil hopen hnil] at hd
        exact ⟨hnil, (congrArg (fun r => r.2.1) hd).symm⟩
      subst hs₁
      have hw₁ := hkeeps c List.mem_cons_self w hw
      rw [hnil] at hw₁
      obtain ⟨hblocked, hpool, c', hc', hfailures⟩ :=
        ih (s := { s with dispatches := s.dispatches + 1 }) hopen hw₁
          (fun c' hc' => hkeeps c' (List.mem_cons_of_mem _ hc')) h
      exact ⟨hblocked, hpool, c', List.mem_cons_of_mem _ hc', hfailures⟩
    · obtain ⟨hblocked, hpool, hfailures⟩ := dispatch_error hopen h
      exact ⟨hblocked, hpool, c, List.mem_cons_self, w, hw, hfailures⟩

end Scheduler

variable {S : Type}

namespace SceneState

/-- One state retains what another one is seen by: the arena, the size of the picture and the
snapshot. -/
structure Retains (t s : SceneState S) : Prop where
  arena : t.arena = s.arena
  spec : t.spec = s.spec
  snapshot : t.snapshot = s.snapshot

section

variable {s t u : SceneState S}

lemma Retains.refl (s : SceneState S) : s.Retains s := ⟨rfl, rfl, rfl⟩

lemma Retains.trans (h : u.Retains t) (h' : t.Retains s) : u.Retains s :=
  ⟨h.arena.trans h'.arena, h.spec.trans h'.spec, h.snapshot.trans h'.snapshot⟩

lemma Shows.retains (h : t.Shows s) : t.Retains s := by
  rw [h]
  exact ⟨rfl, rfl, rfl⟩

lemma retains_apply (s : SceneState S) (w : Write S) : (s.apply w).Retains s := by
  cases w with
  | nothing => exact .refl s
  | object id o => exact ⟨rfl, rfl, rfl⟩
  | pose surface p => exact ⟨rfl, rfl, rfl⟩
  | pixels l => exact ⟨rfl, rfl, rfl⟩

end

variable [Scalar S]

lemma retains_runner (c : Command) (index count : ℕ) (s : SceneState S) :
    (runner c index count s).2.Retains s :=
  runner_keeps (P := fun t => t.Retains s) (fun t w ht => (t.retains_apply w).trans ht) c index
    count (.refl s)

lemma shows_driven (s : SceneState S) (time : Int) (action : CameraAction) :
    ({ s.driven time action with clock := some time } : SceneState S).Shows s := by
  unfold driven
  split
  · rfl
  · split
    · rfl
    · rfl

end SceneState

namespace Scene

variable [Scalar S] {s t : Scene S}

/-- **While a failure stands, nothing is updated or rendered**, and nothing changes. -/
lemma refused (h : s.isBlocked = true) (time : Int) (action : CameraAction) :
    s.update time action = (.error .unacknowledged, s) ∧
      s.render = (.error .unacknowledged, s) := by
  have hblocked : s.scheduler.blocked = true := h
  have hrender : s.scheduler.render s.state = (.error .unacknowledged, s.scheduler, s.state) :=
    if_pos hblocked
  refine ⟨if_pos hblocked, ?_⟩
  unfold render
  rw [hrender]
  rfl

/-! ### Updates that fail -/

/-- An update that fails blocks the scene, and leaves what shows the same. -/
lemma Founded.update_error (hs : s.Founded) (hruns : s.scheduler.pool.Runs SceneState.runner)
    (hopen : s.isBlocked = false) {time : Int} {action : CameraAction} {e : EngineError}
    (h : s.update time action = (.error e, t)) :
    t.isBlocked = true ∧ t.scheduler.pool = s.scheduler.pool ∧ t.substrate = s.substrate ∧
      t.state.Shows s.state ∧ ∃ failures, e = .dispatch (.workers .update failures) := by
  have hphases : ∀ c ∈ Scheduler.updatePhases.map Command.update, ∀ w : SceneState S,
      w.Shows s.state → (s.scheduler.pool.dispatch c w).2.Shows s.state := by
    intro c hc w hw
    obtain ⟨phase, -, rfl⟩ := List.mem_map.mp hc
    exact hruns.dispatch_keeps (P := fun w => w.Shows s.state)
      (fun index count w hw => (SceneState.shows_runner phase index count w).trans hw) hw
  have hshows := (Scheduler.dispatchAll_keeps hphases (s.state.shows_driven time action)).2
  have hfollows := follows_phases hruns time action
  cases updates_of_eq h with
  | refused hblocked => exact absurd hblocked (hopen ▸ Bool.false_ne_true)
  | undriven _ hdrive => cases (hs.drive_eq time action).symm.trans hdrive
  | stopped _ hstop =>
    unfold Scheduler.update at hstop
    rw [hstop] at hshows
    obtain ⟨hstopped, hpool, c, hc, v, -, -, rfl⟩ := Scheduler.dispatchAll_error
      (P := fun w => w.Shows s.state) hopen (s.state.shows_driven time action) hphases hstop
    obtain ⟨phase, -, rfl⟩ := List.mem_map.mp hc
    exact ⟨hstopped, hpool, rfl, hshows, _, rfl⟩
  | unpublished _ hover hworld =>
    rw [hover] at hfollows
    cases (hs.currentWorld_eq hfollows).symm.trans hworld

lemma render_congr {R : SceneState S → SceneState S → Prop} (hR : SceneState.RenderedAlike R)
    (hruns : s.scheduler.pool.Runs SceneState.runner)
    (hpool : t.scheduler.pool = s.scheduler.pool) (hblocked : t.isBlocked = s.isBlocked)
    (h : R t.state s.state) :
    t.render.1 = s.render.1 ∧ R t.render.2.state s.render.2.state := by
  have hdispatch := Scheduler.dispatch_simulates (c := Command.render 0) hpool hblocked h
    (hruns.dispatch_simulates (fun index count w v hwv => hR.runner hwv index count) h)
  exact ⟨congrArg (Except.mapError EngineError.ofDispatch) hdispatch.1, hdispatch.2⟩

/-- A scene whose update has failed: it is blocked, and answers as it did before. -/
structure Stalled (t s : Scene S) : Prop where
  blocked : t.isBlocked = true
  substrate : t.substrate = s.substrate
  /-- The snapshot, the frame, the camera and the settings are the same. -/
  state : t.state.Shows s.state
  view : t.view = s.view
  bounds : ∀ array, t.arrayBounds? array = s.arrayBounds? array
  trace : ∀ ray, t.trace ray = s.trace ray
  tracePixel : ∀ x y, t.tracePixel x y = s.tracePixel x y
  result : t.acknowledge.2.render.1 = s.render.1
  rendered : t.acknowledge.2.render.2.view = s.render.2.view

omit [Scalar S] in
lemma view_of_shows (h : t.state.Shows s.state) : t.view = s.view := by
  unfold view
  rw [h]

/-- **An update that fails leaves a stalled scene.** -/
lemma Founded.stalled_of_error (hs : s.Founded) (hruns : s.scheduler.pool.Runs SceneState.runner)
    (hopen : s.isBlocked = false) {time : Int} {action : CameraAction} {e : EngineError}
    (h : s.update time action = (.error e, t)) : t.Stalled s := by
  obtain ⟨hblocked, hpool, hsubstrate, hshows, -⟩ := hs.update_error hruns hopen h
  have htrace : ∀ ray, t.trace ray = s.trace ray := by
    intro ray
    unfold trace
    rw [hshows.tracer]
  have hrender := render_congr (t := t.acknowledge.2) SceneState.renderedAlike_shows hruns hpool
    hopen.symm hshows
  refine ⟨hblocked, hsubstrate, hshows, view_of_shows hshows, fun array => ?_, htrace,
    fun x y => ?_, hrender.1, view_of_shows hrender.2⟩
  · unfold arrayBounds?
    rw [hshows.snapshot]
  · unfold tracePixel
    rw [funext htrace, hshows]

/-! ### Histories -/

/-- No update of a history succeeds. -/
def Quiet (s : Scene S) (history : List Operation) : Prop :=
  ∀ (before : List Operation) (time : Int) (action : CameraAction) (later : List Operation),
    history = before ++ .update time action :: later →
      ((s.after before).update time action).1 ≠ .ok ()

lemma quiet_cons {op : Operation} {history : List Operation} :
    s.Quiet (op :: history) ↔
      (∀ time action, op = .update time action → (s.update time action).1 ≠ .ok ()) ∧
        (s.perform op).Quiet history :=
  eachUpdate_cons (P := fun s time action => (s.update time action).1 ≠ .ok ())

lemma Reached.retains_perform (hs : s.Reached) {op : Operation}
    (h : ∀ time action, op = .update time action → (s.update time action).1 ≠ .ok ()) :
    (s.perform op).state.Retains s.state := by
  cases op with
  | update time action =>
    change (s.update time action).2.state.Retains s.state
    rcases hopen : s.isBlocked with _ | _
    · rcases hu : s.update time action with ⟨e | u, t⟩
      · exact (hs.founded.update_error hs.inShape.pool hopen hu).2.2.2.1.retains
      · exact absurd (congrArg Prod.fst hu) (h time action rfl)
    · rw [(refused hopen time action).1]
      exact .refl _
  | render =>
    exact (Scheduler.dispatch_keeps (P := fun w : SceneState S => w.Retains s.state)
      (fun w hw => hs.inShape.pool.dispatch_keeps (P := fun w => w.Retains s.state)
        (fun index count w hw => (SceneState.retains_runner _ index count w).trans hw) hw)
      (.refl _)).2
  | acknowledge => exact .refl _
  | setSimd request =>
    change (s.setSimd request).2.state.Retains s.state
    unfold setSimd
    split
    · exact .refl _
    · split
      · exact .refl _
      · exact ⟨rfl, rfl, rfl⟩
  | setFsaa level => exact ⟨rfl, rfl, rfl⟩
  | setOptions options => exact ⟨rfl, rfl, rfl⟩
  | nextCamera => exact ⟨rfl, rfl, rfl⟩

/-- **A history without a successful update publishes nothing.** -/
lemma Reached.retains_after (hs : s.Reached) {history : List Operation} (h : s.Quiet history) :
    (s.after history).state.Retains s.state := by
  induction history generalizing s with
  | nil => exact .refl _
  | cons op history ih =>
    obtain ⟨hfirst, hrest⟩ := quiet_cons.mp h
    exact (ih (hs.perform op) hrest).trans (hs.retains_perform hfirst)

/-- A history is quiet, or it has a last update that succeeds. -/
lemma quiet_or_last (s : Scene S) (history : List Operation) :
    s.Quiet history ∨ ∃ before time action later t,
      history = before ++ .update time action :: later ∧
        (s.after before).update time action = (.ok (), t) ∧ t.Quiet later := by
  induction history generalizing s with
  | nil => exact .inl (eachUpdate_nil (fun t time action => (t.update time action).1 ≠ .ok ()) s)
  | cons op history ih =>
    -- the last success is in the rest of the history, or else it is this operation
    rcases ih (s.perform op) with hrest | ⟨before, time, action, later, t, rfl, hupdate, hquiet⟩
    · by_cases hop : ∃ time action, op = .update time action ∧ (s.update time action).1 = .ok ()
      · obtain ⟨time, action, rfl, hok⟩ := hop
        exact .inr ⟨[], time, action, history, _, rfl, Prod.ext hok rfl, hrest⟩
      · push Not at hop
        exact .inl (quiet_cons.mpr ⟨hop, hrest⟩)
    · exact .inr ⟨op :: before, time, action, later, t, rfl, hupdate, hquiet⟩

/-- What is asked of one scene is answered for the snapshot of another one. Traces and pictures are
those of the other one where the settings that they depend on are. -/
structure Answers (t s : Scene S) : Prop where
  state : t.state.Retains s.state
  bounds : ∀ array, t.arrayBounds? array = s.arrayBounds? array
  trace : t.state.options = s.state.options → ∀ ray, t.trace ray = s.trace ray
  tracePixel : t.state.options = s.state.options → t.state.rig.current = s.state.rig.current →
    ∀ x y, t.tracePixel x y = s.tracePixel x y
  render : t.state.options = s.state.options → t.state.rig.current = s.state.rig.current →
    t.state.fsaa = s.state.fsaa → t.acknowledge.2.render.1 = s.acknowledge.2.render.1 ∧
      (s.acknowledge.2.render.1 = .ok () → ∃ rows,
        t.acknowledge.2.render.2.state.picture.rows = .ok rows ∧
          s.acknowledge.2.render.2.state.picture.rows = .ok rows)

lemma Reached.rows_render (hs : s.Reached) (h : s.render.1 = .ok ()) :
    s.render.2.state.picture.rows = .ok ((List.range s.state.spec.height).map fun y =>
      (List.range s.state.spec.width).map fun x => s.state.pixelWord x y) := by
  obtain ⟨c, hc, hstate⟩ := exists_renders hs.inShape (b := s.render.2) (Prod.ext h rfl)
  rw [← hstate]
  exact (hc.painted hs.inShape.framed).rows hs.inShape.framed

lemma Reached.answers (ht : t.Reached) (hs : s.Reached) (h : t.state.Retains s.state)
    (hpool : t.scheduler.pool = s.scheduler.pool) : t.Answers s := by
  have htrace : t.state.options = s.state.options → ∀ ray, t.trace ray = s.trace ray := by
    intro hoptions ray
    unfold trace SceneState.tracer
    rw [h.arena, h.snapshot, hoptions]
  refine ⟨h, fun array => ?_, htrace, fun hoptions hcamera x y => ?_,
    fun hoptions hcamera hfsaa => ?_⟩
  · unfold arrayBounds?
    rw [h.snapshot]
  · unfold tracePixel
    rw [h.snapshot, hcamera, h.spec, funext (htrace hoptions)]
  · have halike : s.state.Alike t.state :=
      ⟨h.arena, h.snapshot, by rw [ht.founded.camera, hcamera, hs.founded.camera], hfsaa, hoptions,
        by rw [h.spec], by rw [h.spec]⟩
    have hresult := (render_congr (t := t.acknowledge.2) (s := s.acknowledge.2)
      SceneState.renderedAlike_matches hs.inShape.pool hpool rfl
      ⟨halike, h.spec, ht.inShape.framed, hs.inShape.framed⟩).1
    refine ⟨hresult, fun hok => ⟨_, ht.acknowledged.rows_render (hresult.trans hok), ?_⟩⟩
    rw [hs.acknowledged.rows_render hok]
    dsimp only [acknowledge]
    rw [h.spec]
    simp only [halike.pixelWord]

end Scene

/-- **What has been published stays until an update succeeds.** While a failure stands, updates and
renderings are refused and change nothing. An update that fails blocks the scene, which answers as
it did before; so does one whose workers get as far as they like in any order. In every history the
scene answers for the snapshot of the last update that succeeded, when all was in its place, and for
the present one if there is none. A scene starts with a snapshot of the placements of its
document. -/
theorem published_kept {S : Type} [Scalar S] {s : Scene S} (h : s.Reached) :
    (s.isBlocked = true → ∀ time action,
      s.update time action = (.error .unacknowledged, s) ∧
        s.render = (.error .unacknowledged, s)) ∧
      (s.isBlocked = false → ∀ time action e t, s.update time action = (.error e, t) →
        t.Stalled s ∧ ∃ failures, e = .dispatch (.workers .update failures)) ∧
      (∀ (t : SceneState S) phase count schedule, t.Shows s.state →
        ((Crew.start t (Command.update phase) count).run schedule).state.Shows s.state) ∧
      (∀ history, s.Quiet history ∧ (s.after history).Answers s ∨
        ∃ before time action later t, history = before ++ .update time action :: later ∧
          (s.after before).update time action = (.ok (), t) ∧ t.Settled ∧ t.Quiet later ∧
            (s.after history).Answers t) ∧
      ∀ document spec p, Scene.create document spec p = .ok s →
        ∃ (c : Compiled S) (kernel : Kernel),
          (compile ⟨document, p.registry, p.images⟩ p.allocator).1 = .ok c ∧
            s.state = (SceneState.initial c.arena spec kernel).located.posed.published := by
  have hruns := h.inShape.pool
  refine ⟨Scene.refused, fun hopen time action e t hu => ?_, fun t phase count schedule ht => ?_,
    fun history => ?_, fun document spec p hp => ?_⟩
  · have hfailed := h.founded.update_error hruns hopen hu
    exact ⟨h.founded.stalled_of_error hruns hopen hu, hfailed.2.2.2.2⟩
  · exact (Crew.run_shows t phase count schedule).trans ht
  · rcases s.quiet_or_last history with hquiet | ⟨before, time, action, later, t, rfl, hu, hquiet⟩
    · exact .inl ⟨hquiet,
        (h.after history).answers h (h.retains_after hquiet) (s.pool_after history)⟩
    · have hbefore := h.after before
      have ht : t.Reached := by
        have hupdated := hbefore.updated time action
        rwa [hu] at hupdated
      have hafter : s.after (before ++ .update time action :: later) = t.after later := by
        rw [Scene.after_append]
        change ((s.after before).update time action).2.after later = t.after later
        rw [hu]
      refine .inr ⟨before, time, action, later, t, rfl, hu, ?_, hquiet, ?_⟩
      · exact Scene.settled_update hbefore.inShape.pool hbefore.founded.wellFormed
          hbefore.founded.populated hu
      · rw [hafter]
        exact (ht.after later).answers ht (ht.retains_after hquiet) (t.pool_after later)
  · obtain ⟨c, kernel, hc, hstate, -⟩ := Scene.create_ok hp
    refine ⟨c, kernel, hc, Except.ok.inj (hstate.symm.trans ?_)⟩
    exact SceneState.settle_eq ((compile_records hc).wellFormed (compile_supplied hc))
      (Scene.populated_initial ..)

namespace Room

/-- An animator that leaves its object in place for a while, and then breaks off. -/
def stumble : Animator Float := fun time _ _ placement =>
  if time < 50 then .ok placement else .error "lost"

/-- A camera that stumbles. -/
def unsteady : Document Float :=
  { Pair.copied with root := ⟨[.camera { Pair.header with animation := some (.custom "stumble") }
    ⟨0, 0.5, 1, Camera.defaultSpeed, Camera.defaultTurning⟩], []⟩ }

/-- The platform of a room with the animator. -/
def equipped : Platform Float := { platform with registry := .register .empty "stumble" stumble }

end Room

/-- A camera that has been updated once stumbles: the next update fails, further ones are refused,
and after an acknowledgement the room is rendered as if nothing had been. -/
theorem published_kept_stumble : ∃ a b : Scene Float, a.Reached ∧ a.isBlocked = false ∧
    a.update 60 .forward =
        (.error (.dispatch (.workers .update [⟨0, 1, .panicked "lost"⟩])), b) ∧ b.Stalled a ∧
      b.update 70 .none = (.error .unacknowledged, b) ∧ b.acknowledge.2.render.1 = .ok () := by
  have hchecked : (Scene.create Room.unsteady Room.spec Room.equipped).toOption.any (fun s =>
      let a := (s.update 40 .forward).2
      !a.isBlocked && a.render.1.isOk && decide ((a.update 60 .forward).1 =
        .error (.dispatch (.workers .update [⟨0, 1, .panicked "lost"⟩])))) = true := by
    decide +kernel
  rcases hs : Scene.create Room.unsteady Room.spec Room.equipped with refusal | s
  · rw [hs] at hchecked
    cases hchecked
  rw [hs] at hchecked
  simp only [Except.toOption, Option.any_some, Bool.and_eq_true, Bool.not_eq_true',
    decide_eq_true_eq] at hchecked
  have ha : (s.update 40 .forward).2.Reached := (Scene.Reached.created (.inr rfl) hs).updated ..
  generalize (s.update 40 .forward).2 = a at ha hchecked
  obtain ⟨⟨hopen, hrender⟩, hfailed⟩ := hchecked
  rcases hu : a.update 60 .forward with ⟨e | u, b⟩
  · rw [hu] at hfailed
    obtain rfl := Except.error.inj hfailed
    obtain ⟨hstalled, -⟩ := (published_kept ha).2.1 hopen 60 .forward _ b hu
    have hb : b.Reached := by
      have hupdated := ha.updated 60 .forward
      rwa [hu] at hupdated
    obtain ⟨hrefused, -⟩ := (published_kept hb).1 hstalled.blocked 70 .none
    refine ⟨a, b, ha, hopen, hu, hstalled, hrefused, ?_⟩
    rw [hstalled.result]
    rcases hr : a.render.1 with e | u
    · rw [hr] at hrender
      cases hrender
    · rfl
  · rw [hu] at hfailed
    cases hfailed

end SolidTrace
