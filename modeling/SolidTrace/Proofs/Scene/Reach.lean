import SolidTrace.Proofs.Scene.Dispatch
import SolidTrace.Proofs.Scene.Rows
import SolidTrace.Proofs.Scene.World
import SolidTrace.Scene.Basic

/-!
The scenes that a program can come to.

A scene is set up from a document with one of the two kinds of pools, and then used in any order.
Its frame always has the shape that its kernel asks for.
-/

namespace SolidTrace

/-! ### Pools -/

namespace SliceRunner

variable {W : Type} {P : W → Prop} {E : Failure → Prop} {r : SliceRunner W} {c : Command} {n : ℕ}

lemma slice_cases (h : ∀ i w, P w → P (r c i n w).2) {i : ℕ} {w : W} (hw : P w)
    (hfailure : ∀ e, (r c i n w).1 = .error e → E ⟨i, c.phase, e⟩) :
    P (r.slice c i n w).2 ∧ ∀ f ∈ (r.slice c i n w).1, E f := by
  have hrun := h i w hw
  unfold slice
  split
  · exact ⟨hw, nofun⟩
  · rcases hr : r c i n w with ⟨e | u, w'⟩
    · rw [hr] at hrun hfailure
      refine ⟨hrun, fun f hf => ?_⟩
      obtain rfl := Option.some.inj hf
      exact hfailure e rfl
    · rw [hr] at hrun
      exact ⟨hrun, nofun⟩

/-- **Slices in turn**: what every slice keeps holds after all of them, and what holds of every
failure holds of all that are noted. -/
lemma slices_cases (h : ∀ i w, P w → P (r c i n w).2) {l : List ℕ}
    (hfailure : ∀ i ∈ l, ∀ w e, P w → (r c i n w).1 = .error e → E ⟨i, c.phase, e⟩) {w : W}
    (hw : P w) : P (r.slices c n l w).2 ∧ ∀ f ∈ (r.slices c n l w).1, E f := by
  have hfold : ∀ m ⊆ l, ∀ failures w, P w → (∀ f ∈ failures, E f) →
      P (m.foldl (r.next c n) (failures, w)).2 ∧
        ∀ f ∈ (m.foldl (r.next c n) (failures, w)).1, E f := by
    intro m
    induction m with
    | nil => exact fun _ _ _ hw hfailures => ⟨hw, hfailures⟩
    | cons i m ih =>
      intro hm failures w hw hfailures
      obtain ⟨hkept, hfailed⟩ := slice_cases h hw (hfailure i (hm List.mem_cons_self) w · hw)
      rw [List.foldl_cons, next_eq]
      refine ih (fun j hj => hm (List.mem_cons_of_mem _ hj)) _ _ hkept fun f hf => ?_
      rcases List.mem_append.mp hf with hf | hf
      · exact hfailures f hf
      · exact hfailed f (Option.mem_toList.mp hf)
  exact hfold l (List.Subset.refl l) [] w hw nofun

lemma slices_keeps (h : ∀ i w, P w → P (r c i n w).2) (l : List ℕ) {w : W} (hw : P w) :
    P (r.slices c n l w).2 :=
  (slices_cases (E := fun _ => True) h (fun _ _ _ _ _ _ => trivial) hw).1

end SliceRunner

/-- A pool of one of the two kinds. -/
def Pool.Runs {W : Type} (p : Pool W) (r : SliceRunner W) : Prop :=
  ∃ n, p = Pool.inline n r ∨ p = Pool.threaded n r

namespace Pool.Runs

variable {W : Type} {p : Pool W} {r : SliceRunner W}

lemma threads_pos (h : p.Runs r) : 0 < p.threads := by
  obtain ⟨n, rfl | rfl⟩ := h
  · exact Nat.lt_of_lt_of_le Nat.zero_lt_one (Nat.le_max_right n 1)
  · exact Nat.lt_of_lt_of_le Nat.zero_lt_one (Nat.le_max_right n 1)

lemma dispatch (h : p.Runs r) (c : Command) (w : W) :
    (c.kind = .exit ∧ p.dispatch c w = ([], w)) ∨
      p.dispatch c w = r.slices c p.threads (List.range p.threads) w := by
  obtain ⟨n, rfl | rfl⟩ := h
  · exact .inr rfl
  · by_cases hexit : c.kind = .exit
    · exact .inl ⟨hexit, if_pos hexit⟩
    · exact .inr (if_neg hexit)

lemma dispatch_keeps {P : W → Prop} {c : Command} (h : p.Runs r)
    (hr : ∀ i n w, P w → P (r c i n w).2) {w : W} (hw : P w) : P (p.dispatch c w).2 := by
  rcases h.dispatch c w with ⟨-, hd⟩ | hd
  · rwa [hd]
  · rw [hd]
    exact SliceRunner.slices_keeps (fun i => hr i p.threads) _ hw

end Pool.Runs

lemma PoolFactory.runs {W : Type} {f : PoolFactory W}
    (hf : f = PoolFactory.inline ∨ f = PoolFactory.threaded) {n : ℕ} {r : SliceRunner W}
    {p : Pool W} (hp : f n r = .ok p) : p.Runs r := by
  refine ⟨n, ?_⟩
  rcases hf with rfl | rfl
  · exact .inl (Except.ok.inj hp).symm
  · exact .inr (Except.ok.inj hp).symm

namespace Scheduler

variable {W : Type} {P : W → Prop} {s : Scheduler W}

lemma dispatch_ok {s' : Scheduler W} {c : Command} {w w' : W}
    (h : s.dispatch c w = (.ok (), s', w')) : s.pool.dispatch c w = ([], w') := by
  unfold dispatch at h
  split at h
  · cases congrArg Prod.fst h
  · split at h
    · next v hd =>
      have hstate : v = w' := congrArg (fun r => r.2.2) h
      rw [hd, hstate]
    · cases congrArg Prod.fst h

lemma dispatch_keeps {c : Command} (h : ∀ w, P w → P (s.pool.dispatch c w).2) {w : W} (hw : P w) :
    (s.dispatch c w).2.1.pool = s.pool ∧ P (s.dispatch c w).2.2 := by
  have hpool := h w hw
  unfold dispatch
  split
  · exact ⟨rfl, hw⟩
  · split
    · next hd => exact ⟨rfl, by rwa [hd] at hpool⟩
    · next hd => exact ⟨rfl, by rwa [hd] at hpool⟩

lemma dispatchAll_keeps {l : List Command}
    (h : ∀ c ∈ l, ∀ w, P w → P (s.pool.dispatch c w).2) {w : W} (hw : P w) :
    (s.dispatchAll l w).2.1.pool = s.pool ∧ P (s.dispatchAll l w).2.2 := by
  induction l generalizing s w with
  | nil => exact ⟨rfl, hw⟩
  | cons c l ih =>
    have hfirst := dispatch_keeps (h c List.mem_cons_self) hw
    unfold dispatchAll
    split
    · next s' w' hd =>
      rw [hd] at hfirst
      obtain ⟨hpool, hw'⟩ := hfirst
      dsimp only at hpool hw'
      have hrest := ih (s := s') (fun c hc => hpool ▸ h c (List.mem_cons_of_mem _ hc)) hw'
      exact ⟨hrest.1.trans hpool, hrest.2⟩
    · exact hfirst

end Scheduler

/-! ### Frames in shape -/

variable {S : Type}

namespace SceneState

lemma Framed.apply {s : SceneState S} (h : s.Framed) (w : Write S) : (s.apply w).Framed := by
  cases w with
  | nothing => exact h
  | object id o => exact ⟨h.stride, h.size⟩
  | pose surface p => exact ⟨h.stride, h.size⟩
  | pixels l =>
    refine ⟨?_, ?_⟩
    · exact (s.frame.storeAll_stride l).trans h.stride
    · dsimp only [SceneState.apply]
      rw [Frame.storeAll_size, Frame.storeAll_stride]
      exact h.size

variable [Scalar S] {s : SceneState S}

lemma performAll_keeps {P : SceneState S → Prop} (h : ∀ s w, P s → P (s.apply w)) (hs : P s)
    (l : List Task) : P (s.performAll l).2 := by
  induction l generalizing s with
  | nil => exact hs
  | cons t l ih =>
    unfold SceneState.performAll
    split
    · exact ih (h s _ hs)
    · exact hs

lemma runner_keeps {P : SceneState S → Prop} (h : ∀ s w, P s → P (s.apply w)) (c : Command)
    (i n : ℕ) (hs : P s) : P (runner c i n s).2 := by
  unfold runner
  split
  · exact hs
  · exact performAll_keeps h hs _

lemma Framed.runner (c : Command) (i n : ℕ) (s : SceneState S) (h : s.Framed) :
    (SceneState.runner c i n s).2.Framed :=
  runner_keeps (fun _ w h => h.apply w) c i n h

/-- A state that is settled comes from the tasks of the objects and the surfaces, and a snapshot. -/
lemma exists_settle {t : SceneState S} (h : s.settle = .ok t) :
    ∃ (u : SceneState S) (world : Snapshot S),
      s.performAll ((List.range s.objects.size).map .resolve ++
        (List.range s.poses.size).map .place) = (.ok (), u) ∧
        u.currentWorld = .ok world ∧ t = { u with snapshot := world } := by
  unfold settle at h
  split at h
  · next u hu =>
    rcases hpublish : u.publish with f | v
    · rw [hpublish] at h
      cases h
    · rw [hpublish] at h
      obtain rfl : v = t := Except.ok.inj h
      obtain ⟨world, hworld, rfl⟩ := exists_publish hpublish
      exact ⟨u, world, hu, hworld, rfl⟩
  · cases h

lemma settle_keeps {P : SceneState S → Prop} (h : ∀ s w, P s → P (s.apply w))
    (hsnapshot : ∀ (s : SceneState S) world, P s → P { s with snapshot := world }) (hs : P s)
    {t : SceneState S} (ht : s.settle = .ok t) : P t := by
  obtain ⟨u, world, hu, -, rfl⟩ := exists_settle ht
  have hperform := performAll_keeps h hs ((List.range s.objects.size).map .resolve ++
    (List.range s.poses.size).map .place)
  rw [hu] at hperform
  exact hsnapshot u world hperform

lemma exists_driven (s : SceneState S) (time : Int) (action : CameraAction) :
    ∃ objects, s.driven time action = { s with objects } := by
  unfold driven
  split
  · exact ⟨s.objects, rfl⟩
  · split
    · exact ⟨s.objects, rfl⟩
    · exact ⟨_, rfl⟩

lemma Framed.driven (h : s.Framed) (time : Int) (action : CameraAction) :
    (s.driven time action).Framed := by
  obtain ⟨objects, hdriven⟩ := s.exists_driven time action
  rw [hdriven]
  exact ⟨h.stride, h.size⟩

lemma framed_initial (arena : Arena S) (spec : FrameSpec) (kernel : Kernel) :
    (initial arena spec kernel).Framed :=
  ⟨rfl, Array.size_replicate⟩

lemma Framed.run {c : Crew S} (h : c.state.Framed) (schedule : List ℕ) :
    (c.run schedule).state.Framed := by
  refine Crew.run_keeps (P := fun c => c.state.Framed) (fun c i c' hc hmoves => ?_) h schedule
  cases hmoves with
  | stay => exact hc
  | write => exact hc.apply _
  | take => exact hc
  | fail => exact hc

end SceneState

/-! ### Scenes -/

namespace Scene

variable [Scalar S]

/-- The scenes that are set up with one of the two kinds of pools, and what their operations make of
them. -/
inductive Reached : Scene S → Prop
  | created {document : Document S} {spec : FrameSpec} {p : Platform S} {s : Scene S}
      (hpool : p.pool = PoolFactory.inline ∨ p.pool = PoolFactory.threaded)
      (h : create document spec p = .ok s) : Reached s
  | updated {s : Scene S} (h : Reached s) (time : Int) (action : CameraAction) :
      Reached (s.update time action).2
  | rendered {s : Scene S} (h : Reached s) : Reached s.render.2
  /-- Some workers have got somewhere with the frame. -/
  | drawn {s : Scene S} (h : Reached s) (count : ℕ) (schedule : List ℕ) :
      Reached { s with state := ((Crew.start s.state (Command.render 0) count).run schedule).state }
  | acknowledged {s : Scene S} (h : Reached s) : Reached s.acknowledge.2
  | withSimd {s : Scene S} (h : Reached s) (request : LaneConfig) : Reached (s.setSimd request).2
  | withFsaa {s : Scene S} (h : Reached s) (level : ℕ) : Reached (s.setFsaa level).2
  | withOptions {s : Scene S} (h : Reached s) (options : Options) : Reached (s.setOptions options)
  | withCamera {s : Scene S} (h : Reached s) : Reached s.nextCamera

/-- The frame is in shape, and the pool runs the slices of the scene. -/
structure InShape (s : Scene S) : Prop where
  framed : s.state.Framed
  pool : s.scheduler.pool.Runs SceneState.runner

variable {s : Scene S}

lemma InShape.dispatch (h : s.InShape) (c : Command) (w : SceneState S) (hw : w.Framed) :
    (s.scheduler.pool.dispatch c w).2.Framed :=
  h.pool.dispatch_keeps (SceneState.Framed.runner c) hw

lemma create_assembled {document : Document S} {spec : FrameSpec} {p : Platform S}
    (h : create document spec p = .ok s) :
    ∃ (c : Compiled S) (config : LaneConfig) (state : SceneState S) (pool : Pool (SceneState S))
      (ledger : Ledger) (before after : Allocator),
      compile ⟨document, p.registry, p.images⟩ p.allocator = (.ok c, before) ∧
        p.substrate.negotiate LaneConfig.automatic = .ok config ∧
        c.ledger.acquire before "frame buffer" Layout.pixel spec.reserved = (.ok ledger, after) ∧
        (SceneState.initial c.arena spec (Kernel.select config)).settle = .ok state ∧
        p.pool (max p.threads 1) SceneState.runner = .ok pool ∧
        s = ⟨state, .ofPool pool, p.substrate, config, ledger, after⟩ := by
  unfold create at h
  split at h
  · cases h
  · split at h
    · cases h
    · next c allocator hc =>
      unfold assemble at h
      rcases hconfig : p.substrate.negotiate LaneConfig.automatic with e | config
      · rw [hconfig] at h
        cases h
      rcases hledger : c.ledger.acquire allocator "frame buffer" Layout.pixel spec.reserved with
        ⟨e | ledger, allocator'⟩
      · rw [hconfig, hledger] at h
        cases h
      rcases hstate : (SceneState.initial c.arena spec (Kernel.select config)).settle with e | state
      · simp only [hconfig, hledger, hstate, pure_bind] at h
        cases h
      rcases hp : p.pool (max p.threads 1) SceneState.runner with e | pool
      · simp only [hconfig, hledger, hstate, hp, pure_bind] at h
        cases h
      · simp only [hconfig, hledger, hstate, hp, pure_bind] at h
        exact ⟨c, config, state, pool, ledger, allocator, allocator', hc, rfl, hledger, hstate, rfl,
          (Except.ok.inj h).symm⟩

/-- A scene that is set up has a settled state of the arena that was compiled, and the pool that was
asked for. -/
lemma create_ok {document : Document S} {spec : FrameSpec} {p : Platform S}
    (h : create document spec p = .ok s) : ∃ (c : Compiled S) (kernel : Kernel),
      (compile ⟨document, p.registry, p.images⟩ p.allocator).1 = .ok c ∧
        (SceneState.initial c.arena spec kernel).settle = .ok s.state ∧
          p.pool (max p.threads 1) SceneState.runner = .ok s.scheduler.pool := by
  obtain ⟨c, config, state, pool, ledger, before, after, hc, -, -, hstate, hpool, rfl⟩ :=
    create_assembled h
  exact ⟨c, Kernel.select config, congrArg Prod.fst hc, hstate, hpool⟩

lemma inShape_create {document : Document S} {spec : FrameSpec} {p : Platform S}
    (hpool : p.pool = PoolFactory.inline ∨ p.pool = PoolFactory.threaded)
    (h : create document spec p = .ok s) : s.InShape := by
  obtain ⟨c, kernel, -, hstate, hp⟩ := create_ok h
  exact ⟨SceneState.settle_keeps (fun _ w hs => hs.apply w) (fun _ _ hs => ⟨hs.stride, hs.size⟩)
    (SceneState.framed_initial ..) hstate, PoolFactory.runs hpool hp⟩

/-- All that an update can come to. -/
inductive Updates (s : Scene S) (time : Int) (action : CameraAction) :
    Except EngineError Unit → Scene S → Prop
  /-- An earlier failure stands. -/
  | refused (h : s.isBlocked = true) : Updates s time action (.error .unacknowledged) s
  /-- There is no camera to be driven. -/
  | undriven {f : Fault} (hopen : s.isBlocked = false) (h : s.state.drive time action = .error f) :
      Updates s time action (.error (.dispatch (.outside (.ofFault f)))) s
  /-- A phase fails. -/
  | stopped {e : DispatchError} {scheduler : Scheduler (SceneState S)} {state : SceneState S}
      (hopen : s.isBlocked = false)
      (h : s.scheduler.update { s.state.driven time action with clock := some time } =
        (.error e, scheduler, state)) :
      Updates s time action (.error (.ofDispatch e)) { s with scheduler, state }
  /-- The phases are over, and the world cannot be taken. -/
  | unpublished {f : Fault} {scheduler : Scheduler (SceneState S)} {state : SceneState S}
      (hopen : s.isBlocked = false)
      (h : s.scheduler.update { s.state.driven time action with clock := some time } =
        (.ok (), scheduler, state)) (hworld : state.currentWorld = .error f) :
      Updates s time action (.error (.dispatch (.outside (.ofFault f)))) { s with scheduler, state }
  /-- The phases are over, and the world is published. -/
  | published {scheduler : Scheduler (SceneState S)} {state : SceneState S} {world : Snapshot S}
      (hopen : s.isBlocked = false)
      (h : s.scheduler.update { s.state.driven time action with clock := some time } =
        (.ok (), scheduler, state)) (hworld : state.currentWorld = .ok world) :
      Updates s time action (.ok ())
        { s with scheduler, state := { state with snapshot := world } }

theorem updates (s : Scene S) (time : Int) (action : CameraAction) :
    s.Updates time action (s.update time action).1 (s.update time action).2 := by
  unfold update
  rcases hblocked : s.scheduler.blocked with _ | _
  · rw [if_neg Bool.false_ne_true]
    rcases hdrive : s.state.drive time action with f | t
    · exact .undriven hblocked hdrive
    · obtain rfl := SceneState.drive_ok hdrive
      dsimp only
      rcases hphases :
          s.scheduler.update { s.state.driven time action with clock := some time } with
        ⟨e | u, scheduler, state⟩
      · exact .stopped hblocked hphases
      · dsimp only
        unfold SceneState.publish
        rcases hworld : state.currentWorld with f | world
        · exact .unpublished hblocked hphases hworld
        · exact .published hblocked hphases hworld
  · rw [if_pos rfl]
    exact .refused hblocked

lemma updates_of_eq {time : Int} {action : CameraAction} {r : Except EngineError Unit} {t : Scene S}
    (h : s.update time action = (r, t)) : s.Updates time action r t := by
  have hupdates := s.updates time action
  rwa [h] at hupdates

section

variable {P : SceneState S → Prop} {time : Int} {action : CameraAction}
  (hdrive : P { s.state.driven time action with clock := some time })
  (hdispatch : ∀ c ∈ Scheduler.updatePhases.map Command.update, ∀ w, P w →
    P (s.scheduler.pool.dispatch c w).2)
  (hpublish : ∀ w world, P w → w.currentWorld = .ok world → P { w with snapshot := world })

include hdrive hdispatch hpublish

/-- An update that is not refused comes to what driving, the phases and publishing keep, if the
camera can be driven. -/
lemma update_eq_or_keeps : (s.update time action).2 = s ∧
      (s.isBlocked = true ∨ ∃ f, s.state.drive time action = .error f) ∨
    (s.update time action).2.scheduler.pool = s.scheduler.pool ∧
      P (s.update time action).2.state := by
  have hkeeps := Scheduler.dispatchAll_keeps hdispatch hdrive
  have hupdates := s.updates time action
  generalize (s.update time action).1 = r at hupdates
  generalize (s.update time action).2 = t at hupdates ⊢
  cases hupdates with
  | refused hblocked => exact .inl ⟨rfl, .inl hblocked⟩
  | undriven _ h => exact .inl ⟨rfl, .inr ⟨_, h⟩⟩
  | stopped _ h | unpublished _ h =>
    unfold Scheduler.update at h
    rw [h] at hkeeps
    exact .inr hkeeps
  | published _ h hworld =>
    unfold Scheduler.update at h
    rw [h] at hkeeps
    exact .inr ⟨hkeeps.1, hpublish _ _ hkeeps.2 hworld⟩

/-- What driving, the phases of an update and publishing keep holds after an update. -/
lemma update_keeps (hs : P s.state) :
    (s.update time action).2.scheduler.pool = s.scheduler.pool ∧
      P (s.update time action).2.state := by
  rcases update_eq_or_keeps hdrive hdispatch hpublish with ⟨heq, -⟩ | hkept
  · rw [heq]
    exact ⟨rfl, hs⟩
  · exact hkept

/-- What is so once the camera has been driven is kept by an update that is not refused. -/
lemma update_open_keeps (hopen : s.isBlocked = false)
    (hdriven : s.state.drive time action = .ok (s.state.driven time action)) :
    P (s.update time action).2.state := by
  rcases update_eq_or_keeps hdrive hdispatch hpublish with ⟨-, hblocked | ⟨f, hf⟩⟩ | hkept
  · exact absurd (hopen.symm.trans hblocked) Bool.false_ne_true
  · cases hf.symm.trans hdriven
  · exact hkept.2

end

lemma InShape.update (h : s.InShape) (time : Int) (action : CameraAction) :
    (s.update time action).2.InShape := by
  have hdrive := h.framed.driven time action
  obtain ⟨hpool, hframed⟩ := update_keeps (P := SceneState.Framed) ⟨hdrive.stride, hdrive.size⟩
    (fun c _ => h.dispatch c) (fun _ _ hw _ => ⟨hw.stride, hw.size⟩) h.framed
  exact ⟨hframed, hpool ▸ h.pool⟩

lemma InShape.render (h : s.InShape) : s.render.2.InShape := by
  have hkeeps := s.scheduler.dispatch_keeps (h.dispatch (Command.render 0)) h.framed
  exact ⟨hkeeps.2, hkeeps.1 ▸ h.pool⟩

lemma InShape.setSimd (h : s.InShape) (request : LaneConfig) : (s.setSimd request).2.InShape := by
  unfold Scene.setSimd
  split
  · exact h
  · split
    · exact h
    · refine ⟨?_, h.pool⟩
      dsimp only
      split
      · next hstride => exact ⟨hstride.symm, h.framed.size⟩
      · exact ⟨rfl, Array.size_replicate⟩

/-- **A frame stays in shape.** -/
lemma Reached.inShape (h : s.Reached) : s.InShape := by
  induction h with
  | created hpool h => exact inShape_create hpool h
  | updated _ time action ih => exact ih.update time action
  | rendered _ ih => exact ih.render
  | drawn _ count schedule ih => exact ⟨SceneState.Framed.run ih.framed schedule, ih.pool⟩
  | acknowledged _ ih => exact ⟨ih.framed, ih.pool⟩
  | withSimd _ request ih => exact ih.setSimd request
  | withFsaa _ level ih => exact ⟨⟨ih.framed.stride, ih.framed.size⟩, ih.pool⟩
  | withOptions _ options ih => exact ⟨⟨ih.framed.stride, ih.framed.size⟩, ih.pool⟩
  | withCamera _ ih => exact ⟨⟨ih.framed.stride, ih.framed.size⟩, ih.pool⟩

end Scene

end SolidTrace
