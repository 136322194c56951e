import Mathlib.Data.Nat.ModEq
import Mathlib.Logic.Function.Iterate
import Mathlib.Logic.Relation
import SolidTrace.Proofs.Compile.Walk
import SolidTrace.Proofs.Lanes.Negotiation
import SolidTrace.Proofs.Scene.Memory

/-!
The configuration of a scene.

The SIMD configuration, the kernel, the rows of the frame, the current camera and the camera that
workers render from are stored apart, and some of them are changed together. `Arranged` is how they
belong together; each operation keeps it, whatever the pool is: all that is asked of a pool is that
it changes the scene by nothing but the writes of slices.
-/

namespace SolidTrace

variable {S : Type}

namespace CameraRig

lemma next_iterate {r : CameraRig} (h : r.current < r.count) (k : ℕ) :
    next^[k] r = ⟨(r.current + k) % r.count, r.count⟩ := by
  induction k with
  | zero => rw [Function.iterate_zero_apply, Nat.add_zero, Nat.mod_eq_of_lt h]
  | succ k ih =>
    rw [Function.iterate_succ_apply', ih, next, if_neg (by dsimp only; omega)]
    dsimp only
    rw [Nat.mod_add_mod, Nat.add_assoc]

def turned (r : CameraRig) : Operation → CameraRig
  | .nextCamera => r.next
  | _ => r

end CameraRig

/-- One state comes from another one by writes. -/
def SceneState.Leads : SceneState S → SceneState S → Prop :=
  Relation.ReflTransGen fun s t => ∃ w, t = s.apply w

/-- A pool that changes a state by nothing but writes. -/
def Pool.Writes (p : Pool (SceneState S)) : Prop :=
  ∀ c (s : SceneState S), s.Leads (p.dispatch c s).2

lemma SceneState.Leads.keeps {P : SceneState S → Prop} {s t : SceneState S} (hst : s.Leads t)
    (h : ∀ s w, P s → P (s.apply w)) (hs : P s) : P t := by
  induction hst with
  | refl => exact hs
  | tail _ hw ih =>
    obtain ⟨w, rfl⟩ := hw
    exact h _ w ih

lemma Pool.Runs.writes [Scalar S] {p : Pool (SceneState S)} (h : p.Runs SceneState.runner) :
    p.Writes := by
  intro c s
  have happly : ∀ t w, s.Leads t → s.Leads (t.apply w) := fun t w ht => ht.tail ⟨w, rfl⟩
  exact h.dispatch_keeps (fun i n _ => SceneState.runner_keeps happly c i n) .refl

/-! ### Arranged states -/

namespace SceneState

/-- The kernel is the one for a configuration, the frame has its shape, the cameras are those of the
arena, and workers render from the current one. -/
structure Arranged (config : LaneConfig) (frame : FrameSpec) (cameras : CameraRig)
    (s : SceneState S) : Prop where
  spec : s.spec = frame
  rig : s.rig = cameras
  camera : s.camera = s.rig.current
  kernel : s.kernel = Kernel.select config
  framed : s.Framed
  count : s.arena.cameras.size = cameras.count

/-- The snapshot has a view for every camera. -/
def Viewed (s : SceneState S) : Prop := s.snapshot.cameras.size = s.arena.cameras.size

variable {config : LaneConfig} {spec : FrameSpec} {rig : CameraRig} {s : SceneState S}

lemma Arranged.apply (h : s.Arranged config spec rig) (w : Write S) :
    (s.apply w).Arranged config spec rig := by
  have hframed := h.framed.apply w
  cases w with
  | nothing => exact h
  | object id o => exact { h with framed := hframed }
  | pose surface p => exact { h with framed := hframed }
  | pixels l => exact { h with framed := hframed }

lemma Viewed.apply (h : s.Viewed) (w : Write S) : (s.apply w).Viewed := by
  cases w with
  | nothing => exact h
  | object id o => exact h
  | pose surface p => exact h
  | pixels l => exact h

variable [Scalar S]

omit [Scalar S] in
lemma Arranged.published (h : s.Arranged config spec rig) (world : Snapshot S) :
    Arranged config spec rig { s with snapshot := world } :=
  { h with framed := ⟨h.framed.stride, h.framed.size⟩ }

lemma viewed_of_currentWorld {world : Snapshot S} (h : s.currentWorld = .ok world) :
    Viewed { s with snapshot := world } := by
  obtain ⟨bounds, -, h⟩ := exists_of_bind_eq_ok h
  obtain ⟨views, hviews, h⟩ := exists_of_bind_eq_ok h
  obtain ⟨lights, -, h⟩ := exists_of_bind_eq_ok h
  obtain rfl := Except.ok.inj h
  exact size_of_mapM_eq_ok hviews

lemma Arranged.driven (h : s.Arranged config spec rig) (time : Int) (action : CameraAction) :
    Arranged config spec rig { s.driven time action with clock := some time } := by
  obtain ⟨objects, hdrive⟩ := s.exists_driven time action
  rw [hdrive]
  exact { h with framed := ⟨h.framed.stride, h.framed.size⟩ }

lemma Viewed.driven (h : s.Viewed) (time : Int) (action : CameraAction) :
    Viewed { s.driven time action with clock := some time } := by
  obtain ⟨objects, hdrive⟩ := s.exists_driven time action
  rw [hdrive]
  exact h

lemma arranged_settle {arena : Arena S} {t : SceneState S}
    (h : (initial arena spec (Kernel.select config)).settle = .ok t) :
    t.Arranged config spec (.ofCount arena.cameras.size) := by
  have hinitial : (initial arena spec (Kernel.select config)).Arranged config spec
      (.ofCount arena.cameras.size) := ⟨rfl, rfl, rfl, rfl, framed_initial .., rfl⟩
  exact settle_keeps (fun _ w h => h.apply w) (fun _ world h => h.published world) hinitial h

lemma viewed_settle {t : SceneState S} (h : s.settle = .ok t) : t.Viewed := by
  obtain ⟨u, world, -, hworld, rfl⟩ := exists_settle h
  exact viewed_of_currentWorld hworld

/-- The samples of a pixel from a camera, in the order of their offsets. -/
def viewSamples (s : SceneState S) (view : CameraView S) (x y : ℕ) : Except Fault (List Color) :=
  s.fsaa.offsets.mapM fun (ox, oy) =>
    s.tracer.sample view (Scalar.ofInt x + ox) (Scalar.ofInt y + oy) s.spec.width s.spec.height

lemma Renders.visible {view : CameraView S} (hs : s.Framed)
    (hview : s.snapshot.cameras[s.camera]? = some view) {count : ℕ} {c : Crew S}
    (h : s.Renders count c) {x y : ℕ} (hx : x < s.spec.width) (hy : y < s.spec.height) :
    ∃ samples, s.viewSamples view x y = .ok samples ∧
      c.state.picture.pixel x y = .ok (resolvePixel samples) := by
  obtain ⟨samples, hsamples, hword⟩ := (h.painted hs).visible x hx y hy
  unfold pixelSamples at hsamples
  rw [fetch_eq_ok hview, ok_bind] at hsamples
  exact ⟨samples, hsamples, hword⟩

end SceneState

/-! ### Scenes -/

namespace Scene

/-- The scene has the given substrate, a configuration on offer there, and a pool that only writes;
its state is arranged for the configuration and has been published. -/
structure Ordered (offer : Substrate) (spec : FrameSpec) (rig : CameraRig) (s : Scene S) :
    Prop where
  substrate : s.substrate = offer
  supported : offer.supports s.simd = true
  writes : s.scheduler.pool.Writes
  arranged : s.state.Arranged s.simd spec rig
  viewed : s.state.Viewed

variable [Scalar S] {substrate : Substrate} {spec : FrameSpec} {rig : CameraRig} {s : Scene S}

lemma Ordered.update (h : s.Ordered substrate spec rig) (time : Int) (action : CameraAction) :
    (s.update time action).2.Ordered substrate spec rig := by
  let P : SceneState S → Prop := fun w => w.Arranged s.simd spec rig ∧ w.Viewed
  have hdispatch : ∀ c w, P w → P (s.scheduler.pool.dispatch c w).2 := fun c w hw =>
    (h.writes c w).keeps (P := P) (fun _ v hw => ⟨hw.1.apply v, hw.2.apply v⟩) hw
  have hdrive : P { s.state.driven time action with clock := some time } :=
    ⟨h.arranged.driven time action, h.viewed.driven time action⟩
  obtain ⟨hpool, harranged, hviewed⟩ := update_keeps (P := P) hdrive (fun c _ => hdispatch c)
    (fun _ world hw hworld => ⟨hw.1.published world, SceneState.viewed_of_currentWorld hworld⟩)
    ⟨h.arranged, h.viewed⟩
  -- the configuration and the substrate are no part of the state
  rw [s.update_eq]
  exact ⟨h.substrate, h.supported, hpool ▸ h.writes, harranged, hviewed⟩

omit [Scalar S] in
lemma Ordered.render (h : s.Ordered substrate spec rig) :
    s.render.2.Ordered substrate spec rig := by
  let P : SceneState S → Prop := fun w => w.Arranged s.simd spec rig ∧ w.Viewed
  have hdispatch : ∀ w, P w → P (s.scheduler.pool.dispatch (Command.render 0) w).2 := fun w hw =>
    (h.writes _ w).keeps (P := P) (fun _ v hw => ⟨hw.1.apply v, hw.2.apply v⟩) hw
  obtain ⟨hpool, harranged, hviewed⟩ :=
    s.scheduler.dispatch_keeps hdispatch ⟨h.arranged, h.viewed⟩
  exact ⟨h.substrate, h.supported, hpool ▸ h.writes, harranged, hviewed⟩

omit [Scalar S] in
/-- The configuration, the kernel and the rows of the frame change together, or not at all. -/
lemma Ordered.setSimd (h : s.Ordered substrate spec rig) (request : LaneConfig) :
    (s.setSimd request).2.Ordered substrate spec rig := by
  unfold Scene.setSimd
  split
  · exact h
  · next config hconfig =>
    split
    · exact h
    · refine { h with
        supported := h.substrate ▸ Substrate.supports_negotiate hconfig
        arranged := { h.arranged with kernel := rfl, framed := ?_ } }
      dsimp only
      split
      · next hstride => exact ⟨hstride.symm, h.arranged.framed.size⟩
      · exact ⟨rfl, Array.size_replicate⟩

omit [Scalar S] in
lemma Ordered.nextCamera (h : s.Ordered substrate spec rig) :
    s.nextCamera.Ordered substrate spec rig.next := by
  have hcount : s.state.arena.cameras.size = rig.next.count := by
    rw [h.arranged.count]
    unfold CameraRig.next
    split <;> rfl
  refine { h with arranged := { h.arranged with
    rig := congrArg CameraRig.next h.arranged.rig
    camera := rfl
    framed := ⟨h.arranged.framed.stride, h.arranged.framed.size⟩
    count := hcount } }

/-- **One operation** keeps a scene in order. -/
lemma Ordered.perform (h : s.Ordered substrate spec rig) (op : Operation) :
    (s.perform op).Ordered substrate spec (rig.turned op) := by
  have hframed := h.arranged.framed
  cases op with
  | update time action => exact h.update time action
  | render => exact h.render
  | acknowledge => exact { h with }
  | setSimd request => exact h.setSimd request
  | setFsaa level =>
    exact { h with arranged := { h.arranged with framed := ⟨hframed.stride, hframed.size⟩ } }
  | setOptions options =>
    exact { h with arranged := { h.arranged with framed := ⟨hframed.stride, hframed.size⟩ } }
  | nextCamera => exact h.nextCamera

lemma Ordered.after (h : s.Ordered substrate spec rig) (history : List Operation) :
    (s.after history).Ordered substrate spec
      (CameraRig.next^[history.count .nextCamera] rig) := by
  induction history generalizing s rig with
  | nil => exact h
  | cons op history ih =>
    have hrest := ih (h.perform op)
    cases op with
    | nextCamera =>
      rw [List.count_cons_self, Function.iterate_succ_apply]
      exact hrest
    | update time action => exact hrest
    | render => exact hrest
    | acknowledge => exact hrest
    | setSimd request => exact hrest
    | setFsaa level => exact hrest
    | setOptions options => exact hrest

lemma ordered_create {document : Document S} {p : Platform S}
    (hpool : ∀ n pool, p.pool n SceneState.runner = .ok pool → pool.Writes)
    (h : create document spec p = .ok s) : ∃ cameras, 0 < cameras ∧
      s.Ordered p.substrate spec (.ofCount cameras) ∧
        ∃ block, s.ledger.entries.head? = some ⟨"frame buffer", block⟩ ∧
          block.size = 4 * spec.reserved := by
  obtain ⟨c, config, state, pool, ledger, before, after, hc, hconfig, hledger, hstate, hp, rfl⟩ :=
    create_assembled h
  obtain ⟨block, hblock, rfl⟩ := Ledger.acquire_ok hledger
  exact ⟨_, compile_cameras (congrArg Prod.fst hc),
    ⟨rfl, Substrate.supports_negotiate hconfig, hpool _ _ hp, SceneState.arranged_settle hstate,
      SceneState.viewed_settle hstate⟩, block, rfl, hblock.trans (Nat.mul_comm ..)⟩

/-- A request in a word, answered by a word. -/
def request (s : Scene S) (word : UInt32) : Except LaneError UInt32 × Scene S :=
  ((s.setSimd (.unpack word)).1.map LaneConfig.pack, (s.setSimd (.unpack word)).2)

omit [Scalar S] in
lemma request_error {word : UInt32} {e : LaneError} {u : Scene S}
    (h : s.request word = (.error e, u)) : u = s := by
  unfold request setSimd at h
  split at h
  · exact (congrArg Prod.snd h).symm
  · split at h
    · cases congrArg Prod.fst h
    · cases congrArg Prod.fst h

omit [Scalar S] in
lemma request_ok {word answer : UInt32} {u : Scene S} (h : s.request word = (.ok answer, u)) :
    ∃ config, s.substrate.negotiate (.unpack word) = .ok config ∧ answer = config.pack ∧
      u.substrate = s.substrate ∧ u.simd = config := by
  unfold request setSimd at h
  split at h
  · cases congrArg Prod.fst h
  · next config hconfig =>
    refine ⟨config, hconfig, ?_⟩
    split at h
    · next hsame =>
      obtain ⟨ha, rfl⟩ := Prod.mk.inj h
      exact ⟨(Except.ok.inj ha).symm, rfl, hsame.symm⟩
    · obtain ⟨ha, rfl⟩ := Prod.mk.inj h
      exact ⟨(Except.ok.inj ha).symm, rfl, rfl⟩

omit [Scalar S] in
lemma request_of_simd {word : UInt32} (h : s.substrate.negotiate (.unpack word) = .ok s.simd) :
    s.request word = (.ok s.simd.pack, s) := by
  unfold request setSimd
  rw [h]
  dsimp only
  rw [if_pos rfl]
  rfl

lemma simd_after {before later : List Operation} {request config : LaneConfig}
    (h : (s.after before).substrate.negotiate request = .ok config)
    (hlater : ∀ op ∈ later, ∀ request, op ≠ .setSimd request) :
    (s.after (before ++ .setSimd request :: later)).simd = config := by
  rw [after_append]
  generalize s.after before = s at h
  have hgranted : (s.setSimd request).2.simd = config := by
    unfold setSimd
    rw [h]
    dsimp only
    split
    · next hsame => exact hsame.symm
    · rfl
  have hkept : ∀ t : Scene S, t.simd = config → (t.after later).simd = config := by
    induction later with
    | nil => exact fun _ ht => ht
    | cons op later ih =>
      intro t ht
      refine ih (fun op hop => hlater op (List.mem_cons_of_mem _ hop)) _ ?_
      cases op with
      | setSimd other => exact absurd rfl (hlater _ List.mem_cons_self other)
      | update time action =>
        change (t.update time action).2.simd = config
        rw [t.update_eq, ht]
      | _ => exact ht
  exact hkept _ hgranted

/-- A scene is configured as was said when it was set up. -/
structure Configured (offer : Substrate) (spec : FrameSpec) (t : Scene S) : Prop where
  substrate : t.substrate = offer
  /-- The configuration in use is on offer, and the kernel is the one for it. -/
  supported : offer.supports t.simd = true
  kernel : t.state.kernel = Kernel.select t.simd
  /-- Rows are as short as whole packets of the kernel allow. -/
  stride : IsLeast {n | t.state.kernel.lanes ∣ n ∧ spec.width ≤ n} t.state.frame.stride
  size : t.state.frame.words.size = t.state.frame.stride * spec.height
  /-- The bytes of the frame fit into its buffer. -/
  reserved : ∃ block, t.ledger.entries.head? = some ⟨"frame buffer", block⟩ ∧
    4 * t.state.frame.stride * spec.height ≤ block.size
  /-- There is a current camera; workers have the same one, and render what it sees. -/
  current : t.state.rig.current < t.state.rig.count
  camera : t.state.camera = t.state.rig.current
  rendered : ∃ view, t.state.snapshot.cameras[t.state.rig.current]? = some view ∧
    ∀ count c, t.state.Renders count c → ∀ x < spec.width, ∀ y < spec.height,
      ∃ samples, t.state.viewSamples view x y = .ok samples ∧
        c.state.picture.pixel x y = .ok (resolvePixel samples)
  /-- Whatever is done later, the cameras take turns. -/
  turned : ∀ later, (t.after later).state.rig =
    ⟨(t.state.rig.current + later.count .nextCamera) % t.state.rig.count, t.state.rig.count⟩
  refused : ∀ word e u, t.request word = (.error e, u) → u = t
  /-- What is granted is granted again, in the words of the request and of the answer, and that
  changes nothing. -/
  granted : ∀ word answer u, t.request word = (.ok answer, u) →
    u.request word = (.ok answer, u) ∧ u.request answer = (.ok answer, u)

lemma Configured.stride_eq {offer : Substrate} {t : Scene S} (h : t.Configured offer spec) :
    t.state.frame.stride = rowStride spec.width (Kernel.select t.simd).lanes := by
  rw [← h.kernel]
  exact h.stride.unique (isLeast_rowStride _ t.state.kernel.lanes_pos)

/-- The longest rows that a frame can get are reserved for. -/
lemma stride_le_reserved (spec : FrameSpec) (config : LaneConfig) :
    4 * rowStride spec.width (Kernel.select config).lanes * spec.height ≤ 4 * spec.reserved := by
  have hlanes := (Kernel.select config).lanes_pos
  have hle := rowStride_le_of_dvd spec.width hlanes (by decide) (Kernel.lanes_select_dvd config)
  unfold FrameSpec.reserved maxLanes
  rw [Nat.mul_assoc]
  exact Nat.mul_le_mul_left 4 (Nat.mul_le_mul_right _ hle)

lemma Ordered.configured {offer : Substrate} {t : Scene S} (h : t.Ordered offer spec rig)
    (hfixed : offer.Fixed) (hrig : rig.current < rig.count) {block : Block}
    (hblock : t.ledger.entries.head? = some ⟨"frame buffer", block⟩)
    (hsize : block.size = 4 * spec.reserved) : t.Configured offer spec := by
  have hafter := h.after
  obtain ⟨rfl, hsupported, -, ⟨rfl, rfl, hshared, hkernel, hframed, hcount⟩, hviewed⟩ := h
  have hcamera : t.state.rig.current < t.state.snapshot.cameras.size := by
    rw [hviewed, hcount]
    exact hrig
  -- what is stored is read off the order; the rest follows for every later scene
  refine
    { substrate := rfl
      supported := hsupported
      kernel := hkernel
      stride := ?_
      size := hframed.size
      reserved := ⟨block, hblock, ?_⟩
      current := hrig
      camera := hshared
      rendered := ?_
      turned := fun later => ?_
      refused := fun word e u => request_error
      granted := fun word answer u hu => ?_ }
  · rw [hframed.stride]
    exact isLeast_rowStride _ t.state.kernel.lanes_pos
  · rw [hsize, hframed.stride, hkernel]
    exact stride_le_reserved ..
  · have hview := Array.getElem?_eq_getElem hcamera
    refine ⟨_, hview, fun count c hc x hx y hy => hc.visible hframed ?_ hx hy⟩
    rw [hshared, hview]
  · rw [(hafter later).arranged.rig, CameraRig.next_iterate hrig]
  · obtain ⟨config, hconfig, rfl, hsubstrate, rfl⟩ := request_ok hu
    have hself : u.substrate.negotiate (.unpack u.simd.pack) = .ok u.simd := by
      rw [LaneConfig.unpack_pack, hsubstrate]
      exact hfixed.negotiate_self (Substrate.supports_negotiate hconfig)
    rw [← hsubstrate] at hconfig
    exact ⟨request_of_simd hconfig, request_of_simd hself⟩

/-- **The configuration of a scene is kept.** A scene that is set up on a fixed substrate, before a
pool that changes it by nothing but the writes of slices, is configured as was said after every
history, whatever succeeds of it. -/
theorem configuration_kept {document : Document S} {spec : FrameSpec} {p : Platform S} {s : Scene S}
    (hfixed : p.substrate.Fixed)
    (hpool : ∀ n pool, p.pool n SceneState.runner = .ok pool → pool.Writes)
    (h : create document spec p = .ok s) (history : List Operation) :
    (s.after history).Configured p.substrate spec := by
  obtain ⟨cameras, hcameras, hordered, block, hblock, hsize⟩ := ordered_create hpool h
  have hledger := (s.after_memory history).1
  have hstart : (CameraRig.ofCount cameras).current < (CameraRig.ofCount cameras).count := hcameras
  refine (hordered.after history).configured hfixed ?_ (by rwa [hledger]) hsize
  rw [CameraRig.next_iterate hstart]
  exact Nat.mod_lt _ hcameras

end Scene

namespace Room

/-- The platform of a room on a machine with kernels of two widths; a pair with a zero does not
count. -/
def varied : Platform Float := { platform with substrate := .ofPairs [⟨2, 1⟩, ⟨4, 1⟩, ⟨0, 3⟩] }

/-- The wide kernel is asked for. -/
def widening : List Operation := [.render, .setSimd ⟨4, 1⟩, .nextCamera, .render]

/-- A kernel that is not there is asked for, and then the narrow one. -/
def narrowing : List Operation :=
  [.setSimd ⟨2, 2⟩, .setSimd ⟨2, 1⟩, .update 40 .forward, .nextCamera, .render]

end Room

/-- A room keeps its configuration, with rows of sixteen pixels at first and rows of eight after
that. -/
theorem configuration_kept_room : ∃ s, Scene.create Room.document Room.spec Room.varied = .ok s ∧
    (s.after Room.widening).simd = ⟨4, 1⟩ ∧
      (s.after Room.widening).state.frame.stride = 16 ∧
      (s.after (Room.widening ++ Room.narrowing)).simd = ⟨2, 1⟩ ∧
      (s.after (Room.widening ++ Room.narrowing)).state.frame.stride = 8 ∧
      (s.after (Room.widening ++ Room.narrowing)).state.frame.words.size = 16 ∧
      (s.after (Room.widening ++ Room.narrowing)).Configured Room.varied.substrate Room.spec := by
  have hautomatic : Room.varied.substrate.negotiate LaneConfig.automatic = .ok ⟨4, 1⟩ := by cbv
  have hcreated : (Scene.create Room.document Room.spec Room.varied).isOk = true := by
    unfold Scene.create Scene.assemble
    rw [hautomatic]
    decide +kernel
  rcases hs : Scene.create Room.document Room.spec Room.varied with e | s
  · rw [hs] at hcreated
    cases hcreated
  have hpool : ∀ n pool, Room.varied.pool n SceneState.runner = .ok pool → pool.Writes :=
    fun n pool hp => (PoolFactory.runs (.inr rfl) hp).writes
  have hkept := fun history => Scene.configuration_kept (.ofPairs _) hpool hs history
  -- each of the two pairs is granted as it is, whatever has been before
  have hgranted : ∀ before config, Room.varied.substrate.supports config = true →
      (s.after before).substrate.negotiate config = .ok config := fun before config hconfig =>
    (hkept before).substrate.symm ▸ (Substrate.Fixed.ofPairs _).negotiate_self hconfig
  have hwide : (s.after Room.widening).simd = ⟨4, 1⟩ := by
    rw [show Room.widening = [.render] ++ .setSimd ⟨4, 1⟩ :: [.nextCamera, .render] from rfl]
    refine Scene.simd_after (hgranted _ _ ?_) (by simp)
    exact Substrate.supports_ofPairs_iff.mpr (by decide)
  have hnarrow : (s.after (Room.widening ++ Room.narrowing)).simd = ⟨2, 1⟩ := by
    rw [show Room.widening ++ Room.narrowing = (Room.widening ++ [.setSimd ⟨2, 2⟩]) ++
      .setSimd ⟨2, 1⟩ :: [.update 40 .forward, .nextCamera, .render] from rfl]
    refine Scene.simd_after (hgranted _ _ ?_) (by simp)
    exact Substrate.supports_ofPairs_iff.mpr (by decide)
  have hstride : (s.after (Room.widening ++ Room.narrowing)).state.frame.stride = 8 := by
    rw [(hkept _).stride_eq, hnarrow]
    decide
  refine ⟨s, rfl, hwide, ?_, hnarrow, hstride, ?_, hkept _⟩
  · rw [(hkept _).stride_eq, hwide]
    decide
  · rw [(hkept _).size, hstride]
    decide

end SolidTrace
