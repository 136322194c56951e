import SolidTrace.Proofs.Arena.Sweep

/-!
The world of a scene.

What stands where is looked up in the tables of a scene, and a lookup outside of a table is a fault.
The functions of this module read the same tables without faults: where something is missing they
give what comes to hand. On a scene whose tables go with its arena nothing is missing, and there the
two agree. `worldNow` is the snapshot that such a scene publishes.
-/

namespace SolidTrace

variable {S : Type}

namespace SceneState

/-- Every object and every surface has its entry. -/
structure Populated (s : SceneState S) : Prop where
  objects : s.objects.size = s.arena.objects.size
  poses : s.poses.size = s.arena.surfaces.size

variable [Scalar S] {s t : SceneState S}

/-- The map from the frame of an object to that of the one above it. -/
def placeAt (s : SceneState S) (object : ℕ) : Transform S :=
  (s.objects[object]?.map fun o => o.placement.toTransform).getD Transform.identity

/-- The place in the world as it was last worked out. -/
def worldAt (s : SceneState S) (object : ℕ) : Transform S :=
  (s.objects[object]?.map (·.world)).getD Transform.identity

/-- Where the placements of an object and of those above it put it in the world. -/
def worldFrom (s : SceneState S) (object : ℕ) : Transform S :=
  (s.arena.ancestry object).foldr (fun o t => t.comp (s.placeAt o)) Transform.identity

lemma placeOf_eq {object : ℕ} (h : object < s.objects.size) :
    s.placeOf object = .ok (s.placeAt object) := by
  have ho := Array.getElem?_eq_getElem h
  rw [placeOf, placeAt, fetch_eq_ok ho, ho]
  rfl

lemma worldOf_eq {object : ℕ} (h : object < s.objects.size) :
    s.worldOf object = .ok (s.worldAt object) := by
  have ho := Array.getElem?_eq_getElem h
  rw [worldOf, worldAt, fetch_eq_ok ho, ho]
  rfl

lemma worldOf_ok {object : ℕ} {world : Transform S} (h : s.worldOf object = .ok world) :
    world = s.worldAt object := by
  obtain ⟨o, ho, h⟩ := exists_of_bind_eq_ok h
  rw [worldAt, getElem?_of_fetch ho]
  exact (Except.ok.inj h).symm

/-- **Every object finds its place.** -/
lemma placedWorld_eq (ha : s.arena.WellFormed) (hs : s.Populated) {object : ℕ}
    (h : object < s.objects.size) : s.placedWorld object = .ok (s.worldFrom object) := by
  rw [hs.objects] at h
  have hmem := fun o ho => Arena.lt_size_of_mem_ancestry ha (o := o) h ho
  unfold placedWorld worldFrom
  rw [Arena.lineage_eq ha h, ok_bind]
  generalize s.arena.ancestry object = l at hmem
  induction l with
  | nil => rfl
  | cons o l ih =>
    have ho : o < s.objects.size := hs.objects ▸ hmem o List.mem_cons_self
    rw [List.foldrM_cons, ih fun o' ho' => hmem o' (List.mem_cons_of_mem _ ho'), ok_bind,
      placeOf_eq ho]
    rfl

/-- The box of an array, moved to where the object of the array stands in the world. -/
def boxNow (s : SceneState S) (bounds : Box S) (n : ArrayNode S) : Box S :=
  match n.object with
  | none => bounds
  | some object => bounds.transformed (s.worldAt object)

/-- The boxes around the arrays in the world, by the present placements. -/
def boundsNow (s : SceneState S) : Array (Box S) :=
  s.arena.arrays.map fun n => s.boxNow (s.arena.boundsOf s.placeAt n) n

/-- The surfaces, arrays, cameras and lights where they stand. -/
def worldNow (s : SceneState S) : Snapshot S where
  poses := s.poses
  arrayBounds := s.boundsNow
  cameras := s.arena.cameras.map fun c => ⟨s.worldAt c.object, c.camera⟩
  lights := s.arena.lights.map fun l => ⟨(s.worldAt l.object).origin, l.light⟩

/-- The state with its world as the snapshot. -/
def published (s : SceneState S) : SceneState S := { s with snapshot := s.worldNow }

omit [Scalar S] in
lemma object_lt (ha : s.arena.WellFormed) (hs : s.Populated) {e : Element} (he : s.arena.Has e)
    {o : ℕ} (ho : s.arena.elementObject? e = some o) : o < s.objects.size :=
  hs.objects ▸ ha.object_lt he ho

lemma arrayBox_eq (ha : s.arena.WellFormed) (hs : s.Populated) {i : ℕ} {n : ArrayNode S}
    (hn : s.arena.arrays[i]? = some n) (volume : Volume S) :
    s.arrayBox volume n = .ok (s.boxNow volume.bounds n) := by
  unfold arrayBox boxNow
  cases hobject : n.object with
  | none => rfl
  | some object =>
    have hroot : ¬i = Arena.root := by
      rw [← ha.object_eq_none_iff i n hn, hobject]
      exact Option.some_ne_none object
    have hlt : object < s.objects.size :=
      object_lt ha hs (e := .array i) ⟨Nat.pos_of_ne_zero hroot, Arena.lt_size_of_getElem? hn⟩
        (by rw [Arena.elementObject?, hn, Option.bind_some, hobject])
    dsimp only
    rw [worldOf_eq hlt]
    rfl

lemma arrayBounds_eq (ha : s.arena.WellFormed) (hs : s.Populated) :
    s.arrayBounds = .ok s.boundsNow := by
  have hmeasured : s.arena.measure s.placeOf = .ok (s.arena.arrays.mapIdx fun i n =>
      ⟨s.arena.boundsOf s.placeAt n, s.arena.extentOf s.placeAt i⟩) :=
    Arena.measure_eq_ok ha fun o ho => placeOf_eq (hs.objects ▸ ho)
  have hbox : ∀ (i : ℕ) (x : Volume S × ArrayNode S), (Array.zip (s.arena.arrays.mapIdx fun i n =>
      ⟨s.arena.boundsOf s.placeAt n, s.arena.extentOf s.placeAt i⟩) s.arena.arrays)[i]? = some x →
        s.arrayBox x.1 x.2 = .ok (s.boxNow x.1.bounds x.2) := fun i x hx =>
    arrayBox_eq ha hs (Array.getElem?_zip_eq_some.mp hx).2 x.1
  unfold arrayBounds
  rw [hmeasured, ok_bind]
  refine (array_mapM_eq_ok hbox).trans (congrArg Except.ok (Array.ext_getElem? fun i => ?_))
  rw [boundsNow, Array.getElem?_map, Array.getElem?_map, Array.zip_eq_zipWith,
    Array.getElem?_zipWith, Array.getElem?_mapIdx]
  cases s.arena.arrays[i]? <;> rfl

/-- **The world can be taken as it stands.** -/
theorem currentWorld_eq (ha : s.arena.WellFormed) (hs : s.Populated) :
    s.currentWorld = .ok s.worldNow := by
  have hcamera : ∀ (i : ℕ) (c : CameraNode S), s.arena.cameras[i]? = some c →
      (do return ⟨← s.worldOf c.object, c.camera⟩ : Except Fault (CameraView S)) =
        .ok ⟨s.worldAt c.object, c.camera⟩ := by
    intro i c hc
    have hlt := object_lt ha hs (e := .camera i) (Arena.lt_size_of_getElem? hc)
      (by rw [Arena.elementObject?, hc]; rfl)
    rw [worldOf_eq hlt]
    rfl
  have hlight : ∀ (i : ℕ) (l : LightNode S), s.arena.lights[i]? = some l →
      (do return ⟨(← s.worldOf l.object).origin, l.light⟩ : Except Fault (LightView S)) =
        .ok ⟨(s.worldAt l.object).origin, l.light⟩ := by
    intro i l hl
    have hlt := object_lt ha hs (e := .light i) (Arena.lt_size_of_getElem? hl)
      (by rw [Arena.elementObject?, hl]; rfl)
    rw [worldOf_eq hlt]
    rfl
  unfold currentWorld
  rw [arrayBounds_eq ha hs, ok_bind, array_mapM_eq_ok hcamera, ok_bind, array_mapM_eq_ok hlight]
  rfl

lemma publish_eq (ha : s.arena.WellFormed) (hs : s.Populated) : s.publish = .ok s.published := by
  rw [publish, currentWorld_eq ha hs]
  rfl

lemma exists_publish (h : s.publish = .ok t) :
    ∃ world, s.currentWorld = .ok world ∧ t = { s with snapshot := world } := by
  obtain ⟨world, hworld, h⟩ := exists_of_bind_eq_ok h
  exact ⟨world, hworld, (Except.ok.inj h).symm⟩

/-- The state with the object of the current camera moved by an action. -/
def driven (s : SceneState S) (time : Int) (action : CameraAction) : SceneState S :=
  if action = .none then s
  else
    match s.arena.cameras[s.rig.current]? with
    | none => s
    | some c =>
      { s with objects := s.objects.modify c.object fun o =>
          { o with placement := action.apply c.camera (secondsSince s.clock time) o.placement } }

omit [Scalar S] in
lemma modify_eq_setIfInBounds {α : Type} {xs : Array α} {i : ℕ} (h : i < xs.size) (f : α → α) :
    xs.modify i f = xs.setIfInBounds i (f xs[i]) := by
  refine Array.ext_getElem? fun j => ?_
  rw [Array.getElem?_modify, Array.getElem?_setIfInBounds]
  by_cases hj : i = j
  · subst hj
    rw [if_pos rfl, if_pos rfl, if_pos h, Array.getElem?_eq_getElem h]
    rfl
  · rw [if_neg hj, if_neg hj]

/-- A camera that is there and hangs on an object can be driven. -/
lemma drive_eq_of_getElem? {c : CameraNode S} (hc : s.arena.cameras[s.rig.current]? = some c)
    {o : ObjectState S} (ho : s.objects[c.object]? = some o) (time : Int) (action : CameraAction) :
    s.drive time action = .ok (s.driven time action) := by
  have hlt := (Array.getElem?_eq_some_iff.mp ho).1
  obtain rfl : s.objects[c.object] = o := (Array.getElem?_eq_some_iff.mp ho).2
  unfold drive driven
  split
  · rfl
  · rw [hc, fetch_eq_ok hc, ok_bind, fetch_eq_ok ho, ok_bind]
    dsimp only
    rw [modify_eq_setIfInBounds hlt]
    rfl

/-- **The current camera can be driven.** -/
theorem drive_eq (ha : s.arena.WellFormed) (hs : s.Populated)
    (hcamera : s.rig.current < s.arena.cameras.size) (time : Int) (action : CameraAction) :
    s.drive time action = .ok (s.driven time action) := by
  have hc := Array.getElem?_eq_getElem hcamera
  have hlt := object_lt ha hs (e := .camera s.rig.current) hcamera
    (by rw [Arena.elementObject?, hc]; rfl)
  exact drive_eq_of_getElem? hc (Array.getElem?_eq_getElem hlt) time action

lemma drive_ok {time : Int} {action : CameraAction} (h : s.drive time action = .ok t) :
    t = s.driven time action := by
  by_cases haction : action = .none
  · rw [driven, if_pos haction]
    rw [drive, if_pos haction] at h
    exact (Except.ok.inj h).symm
  · have hdrive := h
    rw [drive, if_neg haction] at hdrive
    obtain ⟨c, hc, hdrive⟩ := exists_of_bind_eq_ok hdrive
    obtain ⟨o, ho, -⟩ := exists_of_bind_eq_ok hdrive
    have heq := drive_eq_of_getElem? (getElem?_of_fetch hc) (getElem?_of_fetch ho) time action
    exact Except.ok.inj (h.symm.trans heq)

end SceneState

end SolidTrace
