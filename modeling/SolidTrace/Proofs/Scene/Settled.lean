import SolidTrace.Proofs.Arena.WellFormed
import SolidTrace.Proofs.Scene.Reach
import SolidTrace.Proofs.Work.Share

/-!
What an update settles.

A phase without a failure is a list of tasks performed one after the other, in which every item
comes up, however it is shared out. After the second phase every object has its place by the
placements above it; after the third one every surface stands at the place of its object. The
snapshot published then is the world of the placements of that moment.
-/

namespace SolidTrace

variable {S : Type}

lemma CameraRig.next_of_pos {r : CameraRig} (h : 0 < r.count) :
    r.next = ⟨(r.current + 1) % r.count, r.count⟩ :=
  if_neg h.ne'

namespace SceneState

/-- One state has the arena and the cameras of another one, and as many entries. -/
structure Follows (t s : SceneState S) : Prop where
  arena : t.arena = s.arena
  rig : t.rig = s.rig
  camera : t.camera = s.camera
  objects : t.objects.size = s.objects.size
  poses : t.poses.size = s.poses.size

section

variable {s t u : SceneState S}

lemma Follows.refl (s : SceneState S) : s.Follows s := ⟨rfl, rfl, rfl, rfl, rfl⟩

lemma Follows.trans (h : u.Follows t) (h' : t.Follows s) : u.Follows s :=
  ⟨h.arena.trans h'.arena, h.rig.trans h'.rig, h.camera.trans h'.camera,
    h.objects.trans h'.objects, h.poses.trans h'.poses⟩

lemma Populated.follows (h : s.Populated) (ht : t.Follows s) : t.Populated where
  objects := by rw [ht.objects, ht.arena, h.objects]
  poses := by rw [ht.poses, ht.arena, h.poses]

lemma follows_apply (s : SceneState S) (w : Write S) : (s.apply w).Follows s := by
  cases w with
  | nothing => exact .refl s
  | object id o => exact ⟨rfl, rfl, rfl, Array.size_setIfInBounds, rfl⟩
  | pose surface p => exact ⟨rfl, rfl, rfl, rfl, Array.size_setIfInBounds⟩
  | pixels l => exact ⟨rfl, rfl, rfl, rfl, rfl⟩

end

variable [Scalar S] {s t : SceneState S}

lemma follows_performAll (s : SceneState S) (l : List Task) : (s.performAll l).2.Follows s :=
  performAll_keeps (P := fun t => t.Follows s) (fun t w ht => (t.follows_apply w).trans ht)
    (.refl s) l

lemma follows_runner (c : Command) (i n : ℕ) (s : SceneState S) :
    (runner c i n s).2.Follows s :=
  runner_keeps (P := fun t => t.Follows s) (fun t w ht => (t.follows_apply w).trans ht) c i n
    (.refl s)

lemma follows_driven (s : SceneState S) (time : Int) (action : CameraAction) :
    (s.driven time action).Follows s := by
  unfold driven
  split
  · exact .refl s
  · split
    · exact .refl s
    · exact ⟨rfl, rfl, rfl, Array.size_modify, rfl⟩

/-! ### Phases -/

lemma performAll_cons (s : SceneState S) (task : Task) (l : List Task) :
    s.performAll (task :: l) =
      match s.result task with
      | .ok w => (s.apply w).performAll l
      | .error e => (.error e, s) :=
  rfl

lemma performAll_append {l : List Task} (h : s.performAll l = (.ok (), t)) (m : List Task) :
    s.performAll (l ++ m) = t.performAll m := by
  induction l generalizing s with
  | nil =>
    obtain rfl : s = t := congrArg Prod.snd h
    rfl
  | cons task l ih =>
    rw [performAll_cons] at h
    rw [List.cons_append, performAll_cons]
    rcases hw : s.result task with e | w
    · rw [hw] at h
      cases congrArg Prod.fst h
    · rw [hw] at h
      exact ih h

lemma performAll_slices {c : Command} {count : ℕ} {f : ℕ → List Task} {l : List ℕ}
    (hf : ∀ i, s.tasks c i count = .ok (f i))
    (h : l.foldl (runner.next c count) ([], s) = ([], t)) :
    s.performAll (l.flatMap f) = (.ok (), t) := by
  induction l generalizing s with
  | nil =>
    obtain rfl : s = t := congrArg Prod.snd h
    rfl
  | cons i l ih =>
    rw [List.foldl_cons, SliceRunner.next_eq, List.nil_append] at h
    have hfailures := SliceRunner.failures_eq_nil _ _ _ _ h
    rcases hslice : runner.slice c i count s with ⟨failure, s₁⟩
    rw [hslice] at h hfailures
    obtain rfl : failure = none := Option.toList_eq_nil_iff.mp hfailures
    obtain ⟨tasks, htasks, hperform⟩ := slice_eq_none hslice
    obtain rfl : tasks = f i := Except.ok.inj (htasks.symm.trans (hf i))
    have hf₁ : ∀ j, s₁.tasks c j count = .ok (f j) := by
      intro j
      have hs₁ : (s.performAll (f i)).2 = s₁ := congrArg Prod.snd hperform
      rw [← hf j, ← hs₁]
      exact tasks_performAll ..
    rw [List.flatMap_cons, performAll_append hperform]
    exact ih hf₁ h

omit [Scalar S] in
/-- **The slices of a phase share out its items**, whether the phase is serial or not. -/
lemma flatMap_items (s : SceneState S) (phase : ℕ) {count : ℕ} (total : ℕ) (hcount : 0 < count) :
    ((List.range count).flatMap fun i => s.items phase i count total) = List.range total := by
  unfold items
  split
  · obtain ⟨n, rfl⟩ := Nat.exists_eq_add_of_lt hcount
    rw [Nat.zero_add, List.range_succ_eq_map, List.flatMap_cons, List.flatMap_map]
    have hrest : ((List.range n).flatMap fun i =>
        if i.succ = 0 then List.range total else []) = [] := by
      rw [List.flatMap_eq_nil_iff]
      exact fun i _ => if_neg i.succ_ne_zero
    rw [hrest, List.append_nil]
    rfl
  · exact flatMap_share total hcount

omit [Scalar S] in
lemma tasks_update {phase : UInt16} {total : ℕ} {task : ℕ → Task}
    (h : s.phaseTasks phase.toNat = .ok (total, task)) (index count : ℕ) :
    s.tasks (Command.update phase) index count =
      .ok ((s.items phase.toNat index count total).map task) := by
  unfold tasks
  rw [show (Command.update phase).kind = .update from rfl]
  dsimp only
  rw [show (Command.update phase).phase = phase from rfl, h]
  rfl

/-- **A phase without a failure puts its task to every item**, to each of them once. -/
lemma phase_range {p : Pool (SceneState S)} (hp : p.Runs runner) {phase : UInt16} {total : ℕ}
    {task : ℕ → Task} (hphase : s.phaseTasks phase.toNat = .ok (total, task))
    (h : p.dispatch (Command.update phase) s = ([], t)) :
    s.performAll ((List.range total).map task) = (.ok (), t) := by
  have hslices : runner.slices (Command.update phase) p.threads (List.range p.threads) s =
      ([], t) := by
    rcases hp.dispatch (Command.update phase) s with ⟨hexit, -⟩ | hd
    · cases hexit
    · rwa [hd] at h
  rw [← s.flatMap_items phase.toNat total hp.threads_pos, List.map_flatMap]
  exact performAll_slices (fun i => tasks_update hphase i p.threads) hslices

/-- What a task makes of its item, and leaves to the others, holds of all items in the end. -/
lemma performAll_covers {task : ℕ → Task} {Q : SceneState S → Prop} {P : SceneState S → ℕ → Prop}
    (hstep : ∀ s k w, Q s → s.result (task k) = .ok w →
      Q (s.apply w) ∧ P (s.apply w) k ∧ ∀ j, P s j → P (s.apply w) j)
    {l : List ℕ} (hs : Q s) (h : s.performAll (l.map task) = (.ok (), t)) :
    Q t ∧ (∀ k ∈ l, P t k) ∧ ∀ j, P s j → P t j := by
  induction l generalizing s with
  | nil =>
    obtain rfl : s = t := congrArg Prod.snd h
    exact ⟨hs, nofun, fun _ hj => hj⟩
  | cons k l ih =>
    rw [List.map_cons, performAll_cons] at h
    rcases hw : s.result (task k) with e | w
    · rw [hw] at h
      cases congrArg Prod.fst h
    · rw [hw] at h
      obtain ⟨hq, hk, hkeep⟩ := hstep s k w hs hw
      obtain ⟨ht, hl, hrest⟩ := ih hq h
      exact ⟨ht, List.forall_mem_cons.mpr ⟨hrest k hk, hl⟩, fun j hj => hrest j (hkeep j hj)⟩

lemma getElem?_setIfInBounds_of_lt {α : Type} {xs : Array α} {i : ℕ} (h : i < xs.size) (a : α)
    (j : ℕ) : (xs.setIfInBounds i a)[j]? = if i = j then some a else xs[j]? := by
  split
  · next heq => rw [← heq, Array.getElem?_setIfInBounds_self_of_lt h]
  · next hne => rw [Array.getElem?_setIfInBounds_ne hne]

/-! ### Objects and surfaces -/

/-- What animating an object comes to: nothing without an animator, and else a placement at the time
of the clock. -/
lemma advance_ok {object : ℕ} {w : Write S} (h : s.result (.advance object) = .ok w) :
    ∃ node, s.arena.objects[object]? = some node ∧
      (node.animator = none ∧ w = .nothing ∨ ∃ animator o placement,
        node.animator = some animator ∧ s.objects[object]? = some o ∧
          animator (s.clock.getD 0) o.lastTime ⟨object, node.placement, node.time⟩ o.placement =
            .ok placement ∧
          w = .object object { o with placement, lastTime := s.clock.getD 0 }) := by
  dsimp only [result, advance] at h
  obtain ⟨node, hn, h⟩ := exists_of_bind_eq_ok h
  refine ⟨node, getElem?_of_fetch (mapError_eq_ok.mp hn), ?_⟩
  split at h
  · next hnone => exact .inl ⟨hnone, (Except.ok.inj h).symm⟩
  · next animator hanimator =>
    obtain ⟨o, ho, h⟩ := exists_of_bind_eq_ok h
    obtain ⟨placement, hp, h⟩ := exists_of_bind_eq_ok h
    exact .inr ⟨animator, o, placement, hanimator, getElem?_of_fetch (mapError_eq_ok.mp ho),
      mapError_eq_ok.mp hp, (Except.ok.inj h).symm⟩

/-- The object is where the placements above it put it. -/
def Placed (s : SceneState S) (object : ℕ) : Prop := s.worldAt object = s.worldFrom object

lemma worldFrom_congr (ha : t.arena = s.arena) (h : ∀ o, t.placeAt o = s.placeAt o) (object : ℕ) :
    t.worldFrom object = s.worldFrom object := by
  unfold worldFrom
  rw [ha, funext h]

lemma resolve_ok {object : ℕ} {w : Write S} (h : s.result (.resolve object) = .ok w) :
    ∃ o world, s.objects[object]? = some o ∧ s.placedWorld object = .ok world ∧
      w = .object object { o with world } := by
  obtain ⟨world, hworld, h⟩ := exists_of_bind_eq_ok (mapError_eq_ok.mp h)
  obtain ⟨o, ho, h⟩ := exists_of_bind_eq_ok h
  exact ⟨o, world, getElem?_of_fetch ho, hworld, (Except.ok.inj h).symm⟩

/-- **An object finds where it stands.** -/
lemma result_resolve (ha : s.arena.WellFormed) (hs : s.Populated) {object : ℕ} {o : ObjectState S}
    (ho : s.objects[object]? = some o) :
    s.result (.resolve object) = .ok (.object object { o with world := s.worldFrom object }) := by
  dsimp only [result, resolve]
  rw [placedWorld_eq ha hs (Array.getElem?_eq_some_iff.mp ho).1, ok_bind, fetch_eq_ok ho]
  rfl

lemma placeAt_resolve {object : ℕ} {node : ObjectState S} (h : s.objects[object]? = some node)
    (world : Transform S) (o : ℕ) :
    (s.apply (.object object { node with world })).placeAt o = s.placeAt o := by
  have hlt := (Array.getElem?_eq_some_iff.mp h).1
  dsimp only [apply, placeAt]
  rw [getElem?_setIfInBounds_of_lt hlt]
  split
  · next heq =>
    rw [← heq, h]
    rfl
  · rfl

lemma worldAt_resolve {object : ℕ} (h : object < s.objects.size) (node : ObjectState S) (o : ℕ) :
    (s.apply (.object object node)).worldAt o =
      if object = o then node.world else s.worldAt o := by
  dsimp only [apply, worldAt]
  rw [getElem?_setIfInBounds_of_lt h]
  split <;> rfl

lemma placed_resolve (ha : s.arena.WellFormed) (hs : s.Populated) {object : ℕ} {w : Write S}
    (h : s.result (.resolve object) = .ok w) :
    (s.apply w).Placed object ∧ ∀ o, s.Placed o → (s.apply w).Placed o := by
  obtain ⟨node, -, hnode, -, -⟩ := resolve_ok h
  obtain rfl := Except.ok.inj ((result_resolve ha hs hnode).symm.trans h)
  have hlt := (Array.getElem?_eq_some_iff.mp hnode).1
  have hworld := worldFrom_congr (s := s)
    (t := s.apply (.object object { node with world := s.worldFrom object })) rfl
    (placeAt_resolve hnode _)
  unfold Placed
  refine ⟨?_, fun o ho => ?_⟩
  · rw [worldAt_resolve hlt, if_pos rfl, hworld]
  · rw [worldAt_resolve hlt, hworld]
    split
    · next heq => rw [heq]
    · exact ho

/-- The surface stands at the place of its object. -/
def Posed (s : SceneState S) (surface : ℕ) : Prop :=
  ∀ n, s.arena.surfaces[surface]? = some n →
    s.poses[surface]? = some (Pose.place? n.quadric n.clip n.bounds (s.worldAt n.object))

lemma place_ok {surface : ℕ} {w : Write S} (h : s.result (.place surface) = .ok w) :
    ∃ n, s.arena.surfaces[surface]? = some n ∧
      w = .pose surface (Pose.place? n.quadric n.clip n.bounds (s.worldAt n.object)) := by
  obtain ⟨n, hn, h⟩ := exists_of_bind_eq_ok (mapError_eq_ok.mp h)
  obtain ⟨world, hworld, h⟩ := exists_of_bind_eq_ok h
  obtain rfl := worldOf_ok hworld
  exact ⟨n, getElem?_of_fetch hn, (Except.ok.inj h).symm⟩

lemma posed_place (hs : s.Populated) {surface : ℕ} {w : Write S}
    (h : s.result (.place surface) = .ok w) :
    (s.apply w).Posed surface ∧ ∀ k, s.Posed k → (s.apply w).Posed k := by
  obtain ⟨node, hnode, rfl⟩ := place_ok h
  have hlt : surface < s.poses.size := by
    rw [hs.poses]
    exact (Array.getElem?_eq_some_iff.mp hnode).1
  have hget := fun p k => getElem?_setIfInBounds_of_lt hlt p k
  refine ⟨fun n hn => ?_, fun k hk n hn => ?_⟩
  · obtain rfl := Option.some.inj (hnode.symm.trans hn)
    dsimp only [apply]
    rw [hget, if_pos rfl]
    rfl
  · dsimp only [apply]
    rw [hget]
    split
    · next heq =>
      subst heq
      obtain rfl := Option.some.inj (hnode.symm.trans hn)
      rfl
    · exact hk n hn

/-! ### Settled states -/

/-- Every object and every surface is in its place. -/
structure Settled (s : SceneState S) : Prop where
  populated : s.Populated
  placed : ∀ o < s.objects.size, s.Placed o
  posed : ∀ k < s.poses.size, s.Posed k

lemma Placed.of_objects_eq {o : ℕ} (h : s.Placed o) (ha : t.arena = s.arena)
    (ho : t.objects = s.objects) : t.Placed o := by
  unfold Placed at *
  rw [worldFrom_congr ha (fun o => by rw [placeAt, placeAt, ho]), ← h, worldAt, worldAt, ho]

/-- Once all objects have their places and after them all surfaces, the state is settled. -/
lemma settled_of_performAll {objects surfaces : List ℕ} (ha : s.arena.WellFormed)
    (hs : s.Populated) (ho : ∀ o < s.objects.size, o ∈ objects)
    (hk : ∀ k < s.poses.size, k ∈ surfaces)
    (hresolve : s.performAll (objects.map .resolve) = (.ok (), t)) {u : SceneState S}
    (hplace : t.performAll (surfaces.map .place) = (.ok (), u)) : u.Settled := by
  have ht : t.Follows s := by
    have h := s.follows_performAll (objects.map .resolve)
    rwa [hresolve] at h
  have hu : u.Follows t := by
    have h := t.follows_performAll (surfaces.map .place)
    rwa [hplace] at h
  obtain ⟨-, hplaced, -⟩ := performAll_covers (Q := fun v => v.Follows s) (P := Placed)
    (fun v k w hv hw => ⟨(v.follows_apply w).trans hv,
      placed_resolve (hv.arena ▸ ha) (hs.follows hv) hw⟩) (.refl s) hresolve
  -- surfaces are placed where the objects are, and move none of them
  obtain ⟨⟨-, harena, hobjects⟩, hposed, -⟩ := performAll_covers
    (Q := fun u => u.Populated ∧ u.arena = t.arena ∧ u.objects = t.objects) (P := Posed)
    (fun v k w hv hw => by
      obtain ⟨n, -, hpose⟩ := place_ok hw
      refine ⟨⟨hv.1.follows (v.follows_apply w), ?_⟩, posed_place hv.1 hw⟩
      rw [hpose]
      exact hv.2)
    ⟨hs.follows ht, rfl, rfl⟩ hplace
  refine ⟨(hs.follows ht).follows hu, fun o h => ?_, fun k h => ?_⟩
  · refine (hplaced o (ho o ?_)).of_objects_eq harena hobjects
    rwa [hu.objects, ht.objects] at h
  · refine hposed k (hk k ?_)
    rwa [hu.poses, ht.poses] at h

lemma exists_performAll (s : SceneState S) (task : ℕ → Task) (l : List ℕ)
    (h : ∀ k ∈ l, ∀ t : SceneState S, t.Follows s → ∃ w, t.result (task k) = .ok w) :
    ∃ t, s.performAll (l.map task) = (.ok (), t) := by
  have hrun : ∀ m ⊆ l, ∀ t : SceneState S, t.Follows s →
      ∃ u, t.performAll (m.map task) = (.ok (), u) := by
    intro m
    induction m with
    | nil => exact fun _ t _ => ⟨t, rfl⟩
    | cons k m ih =>
      intro hm t ht
      obtain ⟨w, hw⟩ := h k (hm List.mem_cons_self) t ht
      rw [List.map_cons, performAll_cons, hw]
      exact ih (fun j hj => hm (List.mem_cons_of_mem _ hj)) _ ((t.follows_apply w).trans ht)
  exact hrun l (List.Subset.refl l) s (.refl s)

lemma exists_resolve (ha : s.arena.WellFormed) (hs : s.Populated) {object : ℕ}
    (h : object < s.objects.size) : ∃ w, s.result (.resolve object) = .ok w :=
  ⟨_, result_resolve ha hs (Array.getElem?_eq_getElem h)⟩

lemma exists_place (ha : s.arena.WellFormed) (hs : s.Populated) {surface : ℕ}
    (h : surface < s.poses.size) : ∃ w, s.result (.place surface) = .ok w := by
  rw [hs.poses] at h
  have hn := Array.getElem?_eq_getElem h
  have ho := object_lt ha hs (e := .surface surface) h (by rw [Arena.elementObject?, hn]; rfl)
  dsimp only [result, place]
  rw [fetch_eq_ok hn, ok_bind, worldOf_eq ho]
  exact ⟨_, rfl⟩

lemma Settled.published (h : s.Settled) : s.published.Settled :=
  ⟨⟨h.populated.objects, h.populated.poses⟩, fun o ho => h.placed o ho, fun k hk => h.posed k hk⟩

lemma follows_settle (h : s.settle = .ok t) : t.Follows s :=
  settle_keeps (P := fun t => t.Follows s) (fun t w ht => (t.follows_apply w).trans ht)
    (fun _ _ ht => ⟨ht.arena, ht.rig, ht.camera, ht.objects, ht.poses⟩) (.refl s) h

/-- **A well-formed arena can be settled.** -/
lemma settled_settle (ha : s.arena.WellFormed) (hs : s.Populated) :
    ∃ t, s.settle = .ok t ∧ t.Settled ∧ t.snapshot = t.worldNow := by
  obtain ⟨t, ht⟩ := exists_performAll s .resolve (List.range s.objects.size)
    fun k hk t ht => exists_resolve (ht.arena ▸ ha) (hs.follows ht)
      (ht.objects ▸ List.mem_range.mp hk)
  have hfollows : t.Follows s := by
    have h := s.follows_performAll ((List.range s.objects.size).map .resolve)
    rwa [ht] at h
  obtain ⟨u, hu⟩ := exists_performAll t .place (List.range s.poses.size)
    fun k hk u hu => exists_place (by rwa [hu.arena, hfollows.arena])
      ((hs.follows hfollows).follows hu)
      (by rw [hu.poses, hfollows.poses]; exact List.mem_range.mp hk)
  have hsettled := settled_of_performAll ha hs (fun o ho => List.mem_range.mpr ho)
    (fun k hk => List.mem_range.mpr hk) ht hu
  have harena : u.arena = s.arena := by
    have h := t.follows_performAll ((List.range s.poses.size).map .place)
    rw [hu] at h
    exact h.arena.trans hfollows.arena
  refine ⟨u.published, ?_, hsettled.published, rfl⟩
  unfold settle
  rw [performAll_append ht, hu]
  dsimp only
  rw [publish_eq (harena ▸ ha) hsettled.populated]
  rfl

end SceneState

/-! ### Updates -/

namespace Scheduler

variable {W : Type} {s s' : Scheduler W} {w w' : W}

lemma dispatchAll_cons_ok {c : Command} {l : List Command}
    (h : s.dispatchAll (c :: l) w = (.ok (), s', w')) :
    ∃ (s₁ : Scheduler W) (w₁ : W), s₁.pool = s.pool ∧ s.pool.dispatch c w = ([], w₁) ∧
      s₁.dispatchAll l w₁ = (.ok (), s', w') := by
  unfold dispatchAll at h
  split at h
  · next s₁ w₁ hd =>
    have hpool := (dispatch_keeps (s := s) (P := fun _ => True) (c := c) (fun _ _ => trivial)
      (w := w) trivial).1
    rw [hd] at hpool
    exact ⟨s₁, w₁, hpool, dispatch_ok hd, h⟩
  · next hne =>
    exact absurd h (hne s' w')

lemma update_ok (h : s.update w = (.ok (), s', w')) :
    ∃ w₁ w₂, s.pool.dispatch (Command.update 1) w = ([], w₁) ∧
      s.pool.dispatch (Command.update 2) w₁ = ([], w₂) ∧
        s.pool.dispatch (Command.update 3) w₂ = ([], w') := by
  obtain ⟨s₁, w₁, h₁, hd₁, h⟩ := dispatchAll_cons_ok h
  obtain ⟨s₂, w₂, h₂, hd₂, h⟩ := dispatchAll_cons_ok h
  obtain ⟨s₃, w₃, h₃, hd₃, h⟩ := dispatchAll_cons_ok h
  obtain rfl : w₃ = w' := congrArg (fun r => r.2.2) h
  rw [h₁] at hd₂
  rw [h₂, h₁] at hd₃
  exact ⟨w₁, w₂, hd₁, hd₂, hd₃⟩

end Scheduler

namespace Scene

variable [Scalar S] {s s' : Scene S}

/-- The snapshot is the world of a settled state. -/
structure Settled (s : Scene S) : Prop where
  state : s.state.Settled
  snapshot : s.state.snapshot = s.state.worldNow

lemma follows_clock (s : Scene S) (time : Int) (action : CameraAction) :
    ({ s.state.driven time action with clock := some time } : SceneState S).Follows s.state :=
  have hdrive := s.state.follows_driven time action
  ⟨hdrive.arena, hdrive.rig, hdrive.camera, hdrive.objects, hdrive.poses⟩

lemma follows_dispatch (hpool : s.scheduler.pool.Runs SceneState.runner) (v : SceneState S)
    (c : Command) (w : SceneState S) (hw : w.Follows v) :
    (s.scheduler.pool.dispatch c w).2.Follows v :=
  hpool.dispatch_keeps (P := fun w => w.Follows v)
    (fun i n w hw => (SceneState.follows_runner c i n w).trans hw) hw

/-- **An update that succeeds settles the scene.** -/
theorem settled_update (hpool : s.scheduler.pool.Runs SceneState.runner)
    (ha : s.state.arena.WellFormed) (hs : s.state.Populated) {time : Int} {action : CameraAction}
    (h : s.update time action = (.ok (), s')) : s'.Settled := by
  cases updates_of_eq h with
  | published hopen hphases hworld =>
    next scheduler state world =>
    obtain ⟨w₁, w₂, h₁, h₂, h₃⟩ := Scheduler.update_ok hphases
    have hfirst := follows_dispatch hpool s.state (Command.update 1)
      { s.state.driven time action with clock := some time } (s.follows_clock time action)
    rw [h₁] at hfirst
    have hsecond := follows_dispatch hpool w₁ (Command.update 2) w₁ (.refl w₁)
    rw [h₂] at hsecond
    have hthird := follows_dispatch hpool w₁ (Command.update 3) w₂ hsecond
    rw [h₃] at hthird
    have hresolve := SceneState.phase_range hpool rfl h₂
    have hplace := SceneState.phase_range hpool rfl h₃
    have hsettled := SceneState.settled_of_performAll (hfirst.arena ▸ ha) (hs.follows hfirst)
      (fun o ho => List.mem_range.mpr ho)
      (fun k hk => List.mem_range.mpr (hsecond.poses ▸ hk)) hresolve hplace
    have harena := hthird.arena.trans hfirst.arena
    have hcurrent := SceneState.currentWorld_eq (harena ▸ ha) hsettled.populated
    obtain rfl := Except.ok.inj (hworld.symm.trans hcurrent)
    exact ⟨hsettled.published, rfl⟩

/-! ### Scenes that can be reached -/

/-- The phases of an update leave the arena and the cameras as they are, wherever they stop. -/
lemma follows_phases (hpool : s.scheduler.pool.Runs SceneState.runner) (time : Int)
    (action : CameraAction) : (s.scheduler.update
      { s.state.driven time action with clock := some time }).2.2.Follows s.state := by
  exact (Scheduler.dispatchAll_keeps (P := fun w : SceneState S => w.Follows s.state)
    (fun c _ => follows_dispatch hpool s.state c) (s.follows_clock time action)).2

lemma follows_update (hpool : s.scheduler.pool.Runs SceneState.runner) (time : Int)
    (action : CameraAction) : (s.update time action).2.state.Follows s.state :=
  (update_keeps (P := fun w => w.Follows s.state) (s.follows_clock time action)
    (fun c _ => follows_dispatch hpool s.state c)
    (fun _ _ hw _ => ⟨hw.arena, hw.rig, hw.camera, hw.objects, hw.poses⟩) (.refl _)).2

omit [Scalar S] in
lemma follows_setSimd (request : LaneConfig) : (s.setSimd request).2.state.Follows s.state := by
  unfold setSimd
  split
  · exact .refl _
  · split
    · exact .refl _
    · exact ⟨rfl, rfl, rfl, rfl, rfl⟩

/-- The state is that of a document that was compiled, with an entry for each object and each
surface. The cameras that take turns are those of the document, and workers render from the current
one. -/
structure Founded (s : Scene S) : Prop where
  compiled : ∃ (w : Workshop S) (allocator : Allocator) (c : Compiled S),
    (compile w allocator).1 = .ok c ∧ s.state.arena = c.arena
  populated : s.state.Populated
  cameras : s.state.rig.count = s.state.arena.cameras.size
  current : s.state.rig.current < s.state.rig.count
  camera : s.state.camera = s.state.rig.current

lemma Founded.follows (h : s.Founded) (hs : s'.state.Follows s.state) : s'.Founded where
  compiled := hs.arena ▸ h.compiled
  populated := h.populated.follows hs
  cameras := by rw [hs.rig, hs.arena, h.cameras]
  current := hs.rig ▸ h.current
  camera := by rw [hs.rig, hs.camera, h.camera]

lemma Founded.nextCamera (h : s.Founded) : s.nextCamera.Founded where
  compiled := h.compiled
  populated := ⟨h.populated.objects, h.populated.poses⟩
  cameras := by
    unfold Scene.nextCamera
    dsimp only
    rw [CameraRig.next_of_pos (Nat.zero_lt_of_lt h.current), h.cameras]
  current := by
    unfold Scene.nextCamera
    dsimp only
    rw [CameraRig.next_of_pos (Nat.zero_lt_of_lt h.current)]
    exact Nat.mod_lt _ (Nat.zero_lt_of_lt h.current)
  camera := rfl

lemma Founded.wellFormed (h : s.Founded) : s.state.arena.WellFormed := by
  obtain ⟨w, allocator, c, hc, harena⟩ := h.compiled
  rw [harena]
  exact (compile_records hc).wellFormed (compile_supplied hc)

lemma Founded.drive_eq (h : s.Founded) (time : Int) (action : CameraAction) :
    s.state.drive time action = .ok (s.state.driven time action) :=
  SceneState.drive_eq h.wellFormed h.populated (h.cameras ▸ h.current) time action

lemma Founded.currentWorld_eq (h : s.Founded) {w : SceneState S} (hw : w.Follows s.state) :
    w.currentWorld = .ok w.worldNow :=
  SceneState.currentWorld_eq (hw.arena ▸ h.wellFormed) (h.populated.follows hw)

lemma populated_initial (arena : Arena S) (spec : FrameSpec) (kernel : Kernel) :
    (SceneState.initial arena spec kernel).Populated :=
  ⟨Array.size_map, Array.size_replicate⟩

/-- **A scene starts settled.** -/
theorem settled_create {document : Document S} {spec : FrameSpec} {p : Platform S}
    (h : create document spec p = .ok s) : s.Founded ∧ s.Settled := by
  obtain ⟨c, kernel, hc, hs, -⟩ := create_ok h
  have hinitial := populated_initial c.arena spec kernel
  have hfollows := SceneState.follows_settle hs
  obtain ⟨t, ht, hsettled, hsnapshot⟩ := SceneState.settled_settle
    (s := SceneState.initial c.arena spec kernel)
    ((compile_records hc).wellFormed (compile_supplied hc)) hinitial
  obtain rfl := Except.ok.inj (ht.symm.trans hs)
  refine ⟨?_, hsettled, hsnapshot⟩
  exact
    { compiled := ⟨_, _, c, hc, hfollows.arena⟩
      populated := hinitial.follows hfollows
      cameras := by rw [hfollows.rig, hfollows.arena]; rfl
      current := by rw [hfollows.rig]; exact compile_cameras hc
      camera := by rw [hfollows.rig, hfollows.camera]; rfl }

/-- **A scene stays that of a compiled document.** -/
lemma Reached.founded (h : s.Reached) : s.Founded := by
  induction h with
  | created hpool h => exact (settled_create h).1
  | updated h time action ih => exact ih.follows (follows_update h.inShape.pool time action)
  | @rendered s h ih =>
    have hkeeps := s.scheduler.dispatch_keeps
      (follows_dispatch h.inShape.pool s.state (Command.render 0)) (.refl s.state)
    exact ih.follows hkeeps.2
  | @drawn s h count schedule ih =>
    refine ih.follows (Crew.run_keeps (P := fun c => c.state.Follows s.state)
      (fun c i c' hc hmoves => ?_) (.refl s.state) schedule)
    cases hmoves with
    | stay => exact hc
    | write => exact (SceneState.follows_apply _ _).trans hc
    | take => exact hc
    | fail => exact hc
  | acknowledged h ih => exact ih.follows (.refl _)
  | withSimd h request ih => exact ih.follows (follows_setSimd request)
  | withFsaa h level ih => exact ih.follows ⟨rfl, rfl, rfl, rfl, rfl⟩
  | withOptions h options ih => exact ih.follows ⟨rfl, rfl, rfl, rfl, rfl⟩
  | withCamera h ih => exact ih.nextCamera

end Scene

end SolidTrace
