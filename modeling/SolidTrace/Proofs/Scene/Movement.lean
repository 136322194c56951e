import Mathlib.Data.List.Induction
import SolidTrace.Proofs.Compile.Invariant
import SolidTrace.Proofs.Scene.Bounds
import SolidTrace.Proofs.Scene.Phase

/-!
What an update comes to.

`SceneState.movedTo` is an update told in one go: every object is animated once, places in the world
are found from the root down, surfaces stand at the places of their objects, and the snapshot shows
the surfaces, the boxes around the arrays, the cameras and the lights as they stand then. The three
phases go by plans whose last states are the three stages of it, so that workers in any number and
any order come to just this state.
-/

namespace SolidTrace

open scoped List

variable {S : Type}

/-- The animator never breaks off. -/
def Animator.Calm (animator : Animator S) : Prop :=
  ∀ time last about placement, ∃ next, animator time last about placement = .ok next

/-- No object breaks an update off. -/
def Arena.Calm (a : Arena S) : Prop :=
  ∀ (id : ℕ) (node : ObjectNode S) (animator : Animator S), a.objects[id]? = some node →
    node.animator = some animator → animator.Calm

/-- No animator of the registry breaks off. -/
def Registry.Calm (r : Registry S) : Prop :=
  ∀ name animator, Dict.get? r name = some animator → animator.Calm

lemma Registry.calm_empty [Scalar S] : (Registry.empty : Registry S).Calm := nofun

/-- The animators of descriptions are those that never break off, and those of the registry. -/
lemma Registry.Calm.resolve [Scalar S] {r : Registry S} (h : r.Calm) {d : Animation S}
    {animator : Animator S} (hr : r.resolve d = .ok animator) : animator.Calm := by
  cases d with
  | spin axis rate =>
    obtain rfl := Except.ok.inj hr
    exact fun _ _ _ _ => ⟨_, rfl⟩
  | bob axis amplitude period =>
    obtain rfl := Except.ok.inj hr
    exact fun _ _ _ _ => ⟨_, rfl⟩
  | custom name =>
    unfold Registry.resolve at hr
    rcases ha : Dict.get? r name with _ | a
    · simp [ha] at hr
    · simp only [ha, Except.ok.injEq] at hr
      exact h name animator (ha.trans (congrArg some hr))

/-- **A calm registry makes calm arenas.** -/
theorem compile_calm [Scalar S] {w : Workshop S} (h : w.registry.Calm) {allocator : Allocator}
    {c : Compiled S} (hc : (compile w allocator).1 = .ok c) : c.arena.Calm := by
  refine Build.Invariant.compiled (.of_arena (fun a node hnode ha id n animator hn hanimator => ?_)
    (fun _ _ _ _ ha => ha) fun a a' hobjects _ ha => ?_) nofun hc
  · rcases getElem?_push_cases hn with hn | ⟨-, rfl⟩
    · exact ha id n animator hn hanimator
    · obtain ⟨d, hd⟩ := hnode animator hanimator
      exact h.resolve hd
  · unfold Arena.Calm
    rw [hobjects]
    exact ha

namespace SceneState

variable [Scalar S]

/-! ### The stages of an update -/

/-- An object taken by its animator from its own last time to another; without one it stays. -/
def advanced (a : Arena S) (time : Int) (id : ℕ) (o : ObjectState S) : ObjectState S :=
  match a.objects[id]? with
  | none => o
  | some node =>
    match node.animator with
    | none => o
    | some animator =>
      match animator time o.lastTime ⟨id, node.placement, node.time⟩ o.placement with
      | .ok placement => { o with placement, lastTime := time }
      | .error _ => o

/-- Every object animated, once. -/
def animated (s : SceneState S) (time : Int) : SceneState S :=
  { s with clock := some time, objects := s.objects.mapIdx (advanced s.arena time) }

/-- The places of the objects in the world, from the root down. -/
def worlds (s : SceneState S) : Array (Transform S) :=
  (List.range s.objects.size).foldl (fun known id =>
    let above := (s.arena.objects[id]?.bind (·.parent)).bind (known[·]?)
    known.push ((above.getD Transform.identity).comp (s.placeAt id))) #[]

/-- Every object at its place in the world. -/
def located (s : SceneState S) : SceneState S :=
  { s with objects := s.objects.zipWith (fun o world => { o with world }) s.worlds }

/-- Every surface at the place of its object. -/
def posed (s : SceneState S) : SceneState S :=
  { s with poses := s.arena.surfaces.map fun n =>
      Pose.place? n.quadric n.clip n.bounds (s.worldAt n.object) }

/-- **The state moved to a time**, with its snapshot. -/
def movedTo (s : SceneState S) (time : Int) : SceneState S :=
  (s.animated time).located.posed.published

variable {s t : SceneState S}

lemma worldFrom_eq_comp {id : ℕ}
    (h : ∀ p, s.arena.objects[id]?.bind (·.parent) = some p → p < id) :
    s.worldFrom id = (((s.arena.objects[id]?.bind (·.parent)).map s.worldFrom).getD
      Transform.identity).comp (s.placeAt id) := by
  rw [worldFrom, Arena.ancestry]
  rcases hparent : s.arena.objects[id]?.bind (·.parent) with _ | p
  · rfl
  · simp only [h p hparent, if_true]
    rfl

/-- **Going up from each object finds the places that are known from the root down.** -/
lemma worlds_getElem? (ha : s.arena.WellFormed) {id : ℕ} (hid : id < s.objects.size) :
    s.worlds[id]? = some (s.worldFrom id) := by
  have hparent : ∀ id p : ℕ, s.arena.objects[id]?.bind (·.parent) = some p → p < id := by
    intro id p hp
    obtain ⟨node, hnode, hp⟩ := Option.bind_eq_some_iff.mp hp
    exact ha.parent_lt hnode hp
  have hknown : s.worlds = ((List.range s.objects.size).map s.worldFrom).toArray := by
    unfold worlds
    induction s.objects.size with
    | zero => rfl
    | succ n ih =>
      rw [List.range_succ, List.foldl_append, ih, List.foldl_cons, List.foldl_nil, List.map_append,
        List.map_singleton, ← List.push_toArray, worldFrom_eq_comp (hparent n)]
      dsimp only
      rcases hp : s.arena.objects[n]?.bind (·.parent) with _ | p
      · rfl
      · rw [Option.bind_some, Option.map_some, List.getElem?_toArray, List.getElem?_map,
          List.getElem?_range (hparent n p hp)]
        rfl
  rw [hknown, List.getElem?_toArray, List.getElem?_map, List.getElem?_range hid]
  rfl

lemma located_eq (ha : s.arena.WellFormed) : s.located = { s with
    objects := s.objects.mapIdx fun id o => { o with world := s.worldFrom id } } := by
  have hobjects : s.objects.zipWith (fun o world => { o with world }) s.worlds =
      s.objects.mapIdx fun id o => { o with world := s.worldFrom id } := by
    refine Array.ext_getElem? fun id => ?_
    rw [Array.getElem?_zipWith, Array.getElem?_mapIdx]
    rcases ho : s.objects[id]? with _ | o
    · rfl
    · rw [worlds_getElem? ha (Array.getElem?_eq_some_iff.mp ho).1]
      rfl
  unfold located
  rw [hobjects]

/-! ### The writes of a phase -/

/-- What the task of an item comes to write, as things stand. -/
def planned (s : SceneState S) (task : ℕ → Task) (k : ℕ) : Write S :=
  match s.result (task k) with
  | .ok w => w
  | .error _ => .nothing

lemma planned_of_ok {task : ℕ → Task} {k : ℕ} {w : Write S} (h : s.result (task k) = .ok w) :
    s.planned task k = w := by
  unfold planned
  rw [h]

omit [Scalar S] in
lemma setIfInBounds_mapIdx {α : Type} {xs : Array α} {f : ℕ → α → α} {l : List ℕ} {k : ℕ} {x : α}
    (hx : xs[k]? = some x) :
    (xs.mapIdx fun j y => if j ∈ l then f j y else y).setIfInBounds k (f k x) =
      xs.mapIdx fun j y => if j ∈ l ++ [k] then f j y else y := by
  have hk := (Array.getElem?_eq_some_iff.mp hx).1
  refine Array.ext_getElem? fun j => ?_
  rw [getElem?_setIfInBounds_of_lt (by rwa [Array.size_mapIdx]), Array.getElem?_mapIdx,
    Array.getElem?_mapIdx]
  by_cases hj : k = j
  · rw [← hj, hx]
    simp
  · simp [hj, Ne.symm hj]

omit [Scalar S] in
lemma mapIdx_of_eq_self {α : Type} {xs : Array α} {f : ℕ → α → α} {l : List ℕ} {k : ℕ} {x : α}
    (hx : xs[k]? = some x) (hsame : f k x = x) :
    (xs.mapIdx fun j y => if j ∈ l then f j y else y) =
      xs.mapIdx fun j y => if j ∈ l ++ [k] then f j y else y := by
  refine Array.ext_getElem? fun j => ?_
  rw [Array.getElem?_mapIdx, Array.getElem?_mapIdx]
  by_cases hj : k = j
  · rw [← hj, hx]
    simp [hsame]
  · simp [Ne.symm hj]

omit [Scalar S] in
/-- Writes to objects leave all else alone, and each object is changed by its own write only. -/
lemma applyAll_objects {write : ℕ → Write S} {f : ℕ → ObjectState S → ObjectState S}
    (h : ∀ k o, s.objects[k]? = some o →
      write k = .object k (f k o) ∨ write k = .nothing ∧ f k o = o)
    {l : List ℕ} (hl : ∀ k ∈ l, k < s.objects.size) :
    s.applyAll (l.map write) = { s with
      objects := s.objects.mapIdx fun k o => if k ∈ l then f k o else o } := by
  induction l using List.reverseRecOn with
  | nil =>
    have hnone : s.objects.mapIdx (fun _ o => o) = s.objects := Array.ext_getElem? (by simp)
    simp [applyAll, hnone]
  | append_singleton l k ih =>
    have ih := ih fun j hj => hl j (List.mem_append_left _ hj)
    have hk := hl k (List.mem_append_right _ (List.mem_singleton_self k))
    have hget := Array.getElem?_eq_getElem hk
    rw [List.map_append, applyAll_append, ih]
    dsimp only [applyAll, List.map, List.foldl]
    rcases h k _ hget with hwrite | ⟨hwrite, hsame⟩
    · rw [hwrite]
      dsimp only [apply]
      rw [setIfInBounds_mapIdx hget]
    · rw [hwrite]
      dsimp only [apply]
      rw [mapIdx_of_eq_self hget hsame]

omit [Scalar S] in
lemma applyAll_poses {write : ℕ → Write S} {f : ℕ → Option (Pose S)}
    (h : ∀ k < s.poses.size, write k = .pose k (f k)) {l : List ℕ}
    (hl : ∀ k ∈ l, k < s.poses.size) :
    s.applyAll (l.map write) = { s with
      poses := s.poses.mapIdx fun k p => if k ∈ l then f k else p } := by
  induction l using List.reverseRecOn with
  | nil =>
    have hnone : s.poses.mapIdx (fun _ p => p) = s.poses := Array.ext_getElem? (by simp)
    simp [applyAll, hnone]
  | append_singleton l k ih =>
    have ih := ih fun j hj => hl j (List.mem_append_left _ hj)
    have hk := hl k (List.mem_append_right _ (List.mem_singleton_self k))
    rw [List.map_append, applyAll_append, ih]
    dsimp only [applyAll, List.map, List.foldl]
    rw [h k hk]
    dsimp only [apply]
    rw [setIfInBounds_mapIdx (f := fun k _ => f k) (Array.getElem?_eq_getElem hk)]

omit [Scalar S] in
lemma follows_applyAll (s : SceneState S) (l : List (Write S)) : (s.applyAll l).Follows s := by
  induction l generalizing s with
  | nil => exact .refl s
  | cons w l ih => exact (ih (s.apply w)).trans (s.follows_apply w)

/-! ### Plans -/

lemma advance_result {time : Int} (hclock : s.clock = some time) (ha : s.arena.Calm)
    (hs : s.Populated) {k : ℕ} {o : ObjectState S} (ho : s.objects[k]? = some o) :
    s.result (.advance k) = .ok (.object k (advanced s.arena time k o)) ∨
      s.result (.advance k) = .ok .nothing ∧ advanced s.arena time k o = o := by
  have hk : k < s.arena.objects.size := hs.objects ▸ (Array.getElem?_eq_some_iff.mp ho).1
  have hnode := Array.getElem?_eq_getElem hk
  dsimp only [result, advance]
  unfold advanced
  rw [fetch_mapError_bind hnode, hnode, hclock]
  dsimp only
  rcases hanimator : s.arena.objects[k].animator with _ | animator
  · exact .inr ⟨rfl, rfl⟩
  · obtain ⟨next, hnext⟩ := ha k _ animator hnode hanimator time o.lastTime
      ⟨k, s.arena.objects[k].placement, s.arena.objects[k].time⟩ o.placement
    left
    dsimp only
    rw [fetch_mapError_bind ho, hnext, Option.getD_some, hnext]
    rfl

lemma advance_congr (ha : t.arena = s.arena) (hclock : t.clock = s.clock) {k : ℕ}
    {o : ObjectState S} (ho : s.objects[k]? = some o) (ht : t.objects[k]? = some o) :
    t.result (.advance k) = s.result (.advance k) := by
  dsimp only [result, advance]
  rw [ha, hclock, fetch_eq_ok ho, fetch_eq_ok ht]

omit [Scalar S] in
lemma mapIdx_of_perm {α : Type} {xs : Array α} {f : ℕ → α → α} {done : List ℕ}
    (h : done ~ List.range xs.size) :
    (xs.mapIdx fun k x => if k ∈ done then f k x else x) = xs.mapIdx f := by
  refine Array.ext_getElem? fun j => ?_
  rw [Array.getElem?_mapIdx, Array.getElem?_mapIdx]
  rcases hj : xs[j]? with _ | x
  · rfl
  · have hmem : j ∈ done :=
      h.mem_iff.mpr (List.mem_range.mpr (Array.getElem?_eq_some_iff.mp hj).1)
    simp [hmem]

/-- **Objects are animated by a plan.** -/
lemma plan_advance {time : Int} (hclock : s.clock = some time) (ha : s.arena.Calm)
    (hs : s.Populated) :
    s.Plan .advance s.objects.size (s.planned .advance) (s.animated time) := by
  have hwrite : ∀ k o, s.objects[k]? = some o →
      s.planned .advance k = .object k (advanced s.arena time k o) ∨
        s.planned .advance k = .nothing ∧ advanced s.arena time k o = o := by
    intro k o ho
    rcases advance_result hclock ha hs ho with hresult | ⟨hresult, hsame⟩
    · exact .inl (planned_of_ok hresult)
    · exact .inr ⟨planned_of_ok hresult, hsame⟩
  refine ⟨fun k hk => ?_, fun done k hdone hk hnew => ?_, fun done hdone => ?_⟩
  · rcases hwrite k _ (Array.getElem?_eq_getElem hk) with hw | ⟨hw, -⟩
    · rw [hw]
      rfl
    · rw [hw]
      rfl
  · have ho := Array.getElem?_eq_getElem hk
    have hwritten := applyAll_objects hwrite hdone
    generalize s.applyAll (done.map (s.planned .advance)) = t at hwritten ⊢
    have harena : t.arena = s.arena := by rw [hwritten]
    have hsame : t.clock = s.clock := by rw [hwritten]
    have hopen : t.objects[k]? = some s.objects[k] := by simp [hwritten, hnew, ho]
    rw [advance_congr harena hsame ho hopen]
    rcases advance_result hclock ha hs ho with hresult | ⟨hresult, -⟩
    · rw [planned_of_ok hresult, hresult]
    · rw [planned_of_ok hresult, hresult]
  · have hlt : ∀ k ∈ done, k < s.objects.size := fun k hk =>
      List.mem_range.mp (hdone.mem_iff.mp hk)
    rw [applyAll_objects hwrite hlt, mapIdx_of_perm hdone, animated, hclock]

lemma applyAll_resolve (ha : s.arena.WellFormed) (hs : s.Populated) {done : List ℕ}
    (hdone : ∀ k ∈ done, k < s.objects.size) :
    s.applyAll (done.map (s.planned .resolve)) = { s with
      objects := s.objects.mapIdx fun k o =>
        if k ∈ done then { o with world := s.worldFrom k } else o } :=
  applyAll_objects (fun _ _ ho => .inl (planned_of_ok (result_resolve ha hs ho))) hdone

lemma placeAt_applyAll_resolve (ha : s.arena.WellFormed) (hs : s.Populated) {done : List ℕ}
    (hdone : ∀ k ∈ done, k < s.objects.size) (o : ℕ) :
    (s.applyAll (done.map (s.planned .resolve))).placeAt o = s.placeAt o := by
  rw [applyAll_resolve ha hs hdone, placeAt, placeAt, Array.getElem?_mapIdx, Option.map_map]
  congr 2
  funext x
  dsimp only [Function.comp]
  split <;> rfl

/-- **Objects find their places by a plan.** -/
lemma plan_resolve (ha : s.arena.WellFormed) (hs : s.Populated) :
    s.Plan .resolve s.objects.size (s.planned .resolve) s.located := by
  refine ⟨fun k hk => ?_, fun done k hdone hk hnew => ?_, fun done hdone => ?_⟩
  · rw [planned_of_ok (result_resolve ha hs (Array.getElem?_eq_getElem hk))]
    rfl
  · have ho := Array.getElem?_eq_getElem hk
    have hwritten := applyAll_resolve ha hs hdone
    have hplace := placeAt_applyAll_resolve ha hs hdone
    have hfollows := s.follows_applyAll (done.map (s.planned .resolve))
    generalize s.applyAll (done.map (s.planned .resolve)) = t at hwritten hplace hfollows ⊢
    have hopen : t.objects[k]? = some s.objects[k] := by simp [hwritten, hnew, ho]
    rw [result_resolve (hfollows.arena ▸ ha) (hs.follows hfollows) hopen,
      planned_of_ok (result_resolve ha hs ho), worldFrom_congr hfollows.arena hplace]
  · have hlt : ∀ k ∈ done, k < s.objects.size := fun k hk =>
      List.mem_range.mp (hdone.mem_iff.mp hk)
    rw [applyAll_resolve ha hs hlt, mapIdx_of_perm hdone, located_eq ha]

lemma result_place (ha : s.arena.WellFormed) (hs : s.Populated) {k : ℕ} (hk : k < s.poses.size) :
    ∃ p, s.posed.poses[k]? = some p ∧ s.result (.place k) = .ok (.pose k p) := by
  obtain ⟨w, hw⟩ := exists_place ha hs hk
  obtain ⟨n, hn, rfl⟩ := place_ok hw
  refine ⟨_, ?_, hw⟩
  rw [posed, Array.getElem?_map, hn]
  rfl

lemma applyAll_place (ha : s.arena.WellFormed) (hs : s.Populated) {done : List ℕ}
    (hdone : ∀ k ∈ done, k < s.poses.size) :
    s.applyAll (done.map (s.planned .place)) = { s with
      poses := s.poses.mapIdx fun k p =>
        if k ∈ done then s.posed.poses[k]?.getD none else p } := by
  refine applyAll_poses (fun k hk => ?_) hdone
  obtain ⟨p, hp, hresult⟩ := result_place ha hs hk
  rw [planned_of_ok hresult, hp]
  rfl

/-- **Surfaces are placed by a plan.** -/
lemma plan_place (ha : s.arena.WellFormed) (hs : s.Populated) :
    s.Plan .place s.poses.size (s.planned .place) s.posed := by
  refine ⟨fun k hk => ?_, fun done k hdone hk hnew => ?_, fun done hdone => ?_⟩
  · obtain ⟨p, -, hresult⟩ := result_place ha hs hk
    rw [planned_of_ok hresult]
    rfl
  · obtain ⟨p, -, hresult⟩ := result_place ha hs hk
    rw [applyAll_place ha hs hdone, planned_of_ok hresult, ← hresult]
    rfl
  · have hlt : ∀ k ∈ done, k < s.poses.size := fun k hk =>
      List.mem_range.mp (hdone.mem_iff.mp hk)
    have hsize : s.posed.poses.size = s.poses.size := by
      rw [posed, Array.size_map, hs.poses]
    have hposes : (s.poses.mapIdx fun k _ => s.posed.poses[k]?.getD none) = s.posed.poses := by
      refine Array.ext (by rw [Array.size_mapIdx, hsize]) fun j hj hj' => ?_
      rw [Array.getElem_mapIdx, Array.getElem?_eq_getElem hj']
      rfl
    rw [applyAll_place ha hs hlt,
      mapIdx_of_perm (f := fun k _ => s.posed.poses[k]?.getD none) hdone, hposes]
    rfl

/-! ### Updates -/

omit [Scalar S] in
lemma follows_animated (s : SceneState S) (time : Int) : (s.animated time).Follows s :=
  ⟨rfl, rfl, rfl, Array.size_mapIdx, rfl⟩

lemma follows_located (ha : s.arena.WellFormed) : s.located.Follows s := by
  rw [located_eq ha]
  exact ⟨rfl, rfl, rfl, Array.size_mapIdx, rfl⟩

lemma populated_posed (hs : s.Populated) : s.posed.Populated := ⟨hs.objects, Array.size_map⟩

lemma settle_eq (ha : s.arena.WellFormed) (hs : s.Populated) :
    s.settle = .ok s.located.posed.published := by
  have hfollows := follows_located ha
  have hlocated := hs.follows hfollows
  have hresolve := (plan_resolve ha hs).performAll_range
  have hplace := (plan_place (s := s.located) ha hlocated).performAll_range
  rw [hfollows.poses] at hplace
  unfold settle
  rw [performAll_append hresolve, hplace]
  dsimp only
  rw [publish_eq (s := s.located.posed) ha (populated_posed hlocated)]
  rfl

end SceneState

namespace Scheduler

variable {W : Type} {s : Scheduler W} {w w₁ w₂ w₃ : W}

lemma dispatch_of_nil {c : Command} (hopen : s.blocked = false)
    (h : s.pool.dispatch c w = ([], w₁)) :
    s.dispatch c w = (.ok (), { s with dispatches := s.dispatches + 1 }, w₁) := by
  simp [dispatch, hopen, h]

lemma update_of_nil (hopen : s.blocked = false)
    (h₁ : s.pool.dispatch (Command.update 1) w = ([], w₁))
    (h₂ : s.pool.dispatch (Command.update 2) w₁ = ([], w₂))
    (h₃ : s.pool.dispatch (Command.update 3) w₂ = ([], w₃)) :
    ∃ s', s.update w = (.ok (), s', w₃) := by
  have hsecond := dispatch_of_nil (s := { s with dispatches := s.dispatches + 1 }) hopen h₂
  have hthird := dispatch_of_nil (s := { s with dispatches := s.dispatches + 1 + 1 }) hopen h₃
  refine ⟨{ s with dispatches := s.dispatches + 1 + 1 + 1 }, ?_⟩
  simp only [update, updatePhases, List.map, dispatchAll, dispatch_of_nil hopen h₁, hsecond, hthird]

end Scheduler

/-- Workers of a number get through the three phases of an update to a time, one phase after the
other. -/
structure Crew.Updates [Scalar S] (s : SceneState S) (time : Int) (count : ℕ)
    (first second third : Crew S) : Prop where
  animate : Crew.Ends { s with clock := some time } (Command.update 1) count first
  resolve : Crew.Ends first.state (Command.update 2) count second
  place : Crew.Ends second.state (Command.update 3) count third

open SceneState in
/-- **An update does not depend on how it is shared out.** Take any state of a compiled document
whose animators do not break off, with any options, and any time. Workers in any number who go on in
any order within each phase all get through, and what is published then is the state moved to that
time. While places are found the placements stay, and while surfaces are placed the objects do, so
that it is of no account when a worker reads them. Every run of workers can be brought to its end,
and the pools end with the same state. -/
theorem update_determined [Scalar S] {w : Workshop S} {allocator : Allocator} {c : Compiled S}
    (hc : (compile w allocator).1 = .ok c) (hcalm : c.arena.Calm) {s : SceneState S}
    (harena : s.arena = c.arena) (hs : s.Populated) (time : Int) :
    (∀ count first second third, 0 < count → Crew.Updates s time count first second third →
      first.Done ∧ second.Done ∧ third.Done ∧ third.state.publish = .ok (s.movedTo time) ∧
        (∀ schedule o, ((Crew.start first.state (Command.update 2) count).run
          schedule).state.placeAt o = first.state.placeAt o) ∧
        ∀ schedule, ((Crew.start second.state (Command.update 3) count).run
          schedule).state.objects = second.state.objects) ∧
      (∀ (t : SceneState S) command count schedule, ∃ more,
        Crew.Ends t command count ((Crew.start t command count).run (schedule ++ more))) ∧
      ∀ scheduler : Scheduler (SceneState S), scheduler.blocked = false →
        scheduler.pool.Runs runner → ∃ scheduler' t,
          scheduler.update { s with clock := some time } = (.ok (), scheduler', t) ∧
            t.publish = .ok (s.movedTo time) := by
  have ha : s.arena.WellFormed :=
    harena ▸ (compile_records hc).wellFormed (compile_supplied hc)
  have hs₁ : (s.animated time).Populated := hs.follows (s.follows_animated time)
  have hs₂ : (s.animated time).located.Populated := hs₁.follows (follows_located ha)
  have hpublish : (s.animated time).located.posed.publish = .ok (s.movedTo time) :=
    publish_eq ha (populated_posed hs₂)
  have hplan₁ := plan_advance (s := { s with clock := some time }) rfl (harena ▸ hcalm)
    ⟨hs.objects, hs.poses⟩
  have hplan₂ := plan_resolve (s := s.animated time) ha hs₁
  have hplan₃ := plan_place (s := (s.animated time).located) ha hs₂
  have hphase₂ : (s.animated time).phaseTasks (2 : UInt16).toNat =
      .ok ((s.animated time).objects.size, .resolve) := rfl
  have hphase₃ : (s.animated time).located.phaseTasks (3 : UInt16).toNat =
      .ok ((s.animated time).located.poses.size, .place) := rfl
  refine ⟨fun count first second third hcount hupdates => ?_, fun t command count schedule => ?_,
    fun scheduler hopen hruns => ?_⟩
  · obtain ⟨hdone₁, hfirst⟩ := hplan₁.ends rfl hcount hupdates.animate
    change first.state = s.animated time at hfirst
    have hends₂ := hupdates.resolve
    rw [hfirst] at hends₂
    obtain ⟨hdone₂, hsecond⟩ := hplan₂.ends hphase₂ hcount hends₂
    have hends₃ := hupdates.place
    rw [hsecond] at hends₃
    obtain ⟨hdone₃, hthird⟩ := hplan₃.ends hphase₃ hcount hends₃
    refine ⟨hdone₁, hdone₂, hdone₃, hthird ▸ hpublish, fun schedule o => ?_, fun schedule => ?_⟩
    · obtain ⟨done, loads, hon⟩ := hplan₂.run hphase₂ hcount schedule
      rw [hfirst, hon.state]
      exact placeAt_applyAll_resolve (s := s.animated time) ha hs₁
        (fun k hk => hon.lt_total (List.mem_append_left _ hk)) o
    · obtain ⟨done, loads, hon⟩ := hplan₃.run hphase₃ hcount schedule
      have hplaced := applyAll_place (s := (s.animated time).located) ha hs₂
        fun k hk => hon.lt_total (List.mem_append_left _ hk)
      rw [hsecond, hon.state, hplaced]
  · obtain ⟨more, hover⟩ := Crew.exists_over ((Crew.start t command count).run schedule)
    rw [← Crew.run_append] at hover
    exact ⟨more, hover, _, rfl⟩
  · obtain ⟨scheduler', hupdate⟩ := Scheduler.update_of_nil hopen (hplan₁.dispatch rfl hruns)
      (hplan₂.dispatch hphase₂ hruns) (hplan₃.dispatch hphase₃ hruns)
    exact ⟨scheduler', _, hupdate, hpublish⟩

/-! ### A carousel -/

namespace Carousel

/-- A copy of the pair of spheres that makes a quarter turn in a second. -/
def document : Document Float :=
  Pair.document (.copy { Pair.header with animation := some (.spin .y 90) } "pair")

/-- The state before anything has moved. -/
def initial (c : Compiled Float) : SceneState Float :=
  .initial c.arena ⟨3, 2, 1⟩ (Kernel.select LaneConfig.automatic)

end Carousel

/-- Three workers give the pair of spheres a quarter turn. -/
theorem update_determined_carousel : ∃ (c : Compiled Float) (first second third : Crew Float)
    (moved : SceneState Float),
    (compile (Pair.workshop Carousel.document) Pair.allocator).1 = .ok c ∧ c.arena.Calm ∧
      (Carousel.initial c).Populated ∧
      Crew.Updates (Carousel.initial c) 1000 3 first second third ∧ third.Done ∧
      third.state.publish = .ok moved ∧ moved = (Carousel.initial c).movedTo 1000 ∧
      (moved.objects[1]?.any fun o =>
        o.lastTime == 1000 && o.placement.rotation.y == 90) = true ∧
      moved.snapshot.poses.size = 2 ∧ moved.snapshot.arrayBounds.size = 2 := by
  have hturned : (compile (Pair.workshop Carousel.document) Pair.allocator).1.toOption.any (fun c =>
      let moved := (Carousel.initial c).movedTo 1000
      (moved.objects[1]?.any fun o => o.lastTime == 1000 && o.placement.rotation.y == 90) &&
        moved.snapshot.poses.size == 2 && moved.snapshot.arrayBounds.size == 2) = true := by
    decide +kernel
  rcases hc : (compile (Pair.workshop Carousel.document) Pair.allocator).1 with e | c
  · rw [hc] at hturned
    cases hturned
  rw [hc] at hturned
  simp only [Except.toOption, Option.any_some, Bool.and_eq_true, beq_iff_eq] at hturned
  obtain ⟨⟨hturned, hposes⟩, hbounds⟩ := hturned
  have hcalm : c.arena.Calm := compile_calm Registry.calm_empty hc
  have hpopulated : (Carousel.initial c).Populated := Scene.populated_initial ..
  obtain ⟨hends, hexists, -⟩ :=
    update_determined hc hcalm (s := Carousel.initial c) rfl hpopulated 1000
  obtain ⟨more, hfirst⟩ :=
    hexists { Carousel.initial c with clock := some 1000 } (Command.update 1) 3 []
  obtain ⟨more₂, hsecond⟩ := hexists _ (Command.update 2) 3 []
  obtain ⟨more₃, hthird⟩ := hexists _ (Command.update 3) 3 []
  have hupdates := Crew.Updates.mk hfirst hsecond hthird
  obtain ⟨-, -, hdone, hstate, -⟩ := hends 3 _ _ _ (by decide) hupdates
  exact ⟨c, _, _, _, _, rfl, hcalm, hpopulated, hupdates, hdone, hstate, rfl, hturned, hposes,
    hbounds⟩

end SolidTrace
