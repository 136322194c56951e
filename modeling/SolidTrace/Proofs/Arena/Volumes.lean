import SolidTrace.Proofs.Arena.WellFormed
import SolidTrace.Proofs.Geometry.Containment
import SolidTrace.Scene.State

/-!
Volumes of arrays.

The volumes are worked out from the last array to the first, so that those of the arrays in an array
are there when its own is. What an element holds, moved to where the element stands, is in the
volume of its array; from there it goes up, level by level.
-/

namespace SolidTrace

open Extended

namespace Arena

/-! ### Objects above one another -/

section

variable {S : Type} {a : Arena S}

/-- The objects from an object up to the root. An object stands below one with a smaller number. -/
def ancestry (a : Arena S) (object : ℕ) : List ℕ :=
  match a.objects[object]?.bind (·.parent) with
  | none => [object]
  | some parent => object :: if parent < object then a.ancestry parent else []
termination_by object

lemma climb_eq (ha : a.WellFormed) {count object : ℕ} (hobject : object < a.objects.size)
    (hcount : object < count) : a.climb count object = .ok (a.ancestry object) := by
  induction count generalizing object with
  | zero => omega
  | succ count ih =>
    have hnode := Array.getElem?_eq_getElem hobject
    rw [climb, ancestry, fetch_eq_ok hnode, ok_bind, hnode, Option.bind_some]
    cases hparent : a.objects[object].parent with
    | none => rfl
    | some parent =>
      have hlt := ha.parent_lt hnode hparent
      dsimp only
      rw [ih (by omega) (by omega), if_pos hlt]
      rfl

/-- **The way up from an object ends**, and no lookup on it misses. -/
theorem lineage_eq (ha : a.WellFormed) {object : ℕ} (hobject : object < a.objects.size) :
    a.lineage object = .ok (a.ancestry object) :=
  climb_eq ha hobject (by omega)

lemma lt_size_of_mem_ancestry (ha : a.WellFormed) {object o : ℕ}
    (hobject : object < a.objects.size) (ho : o ∈ a.ancestry object) : o < a.objects.size := by
  induction object using Nat.strong_induction_on with
  | _ object ih =>
    rw [ancestry, Array.getElem?_eq_getElem hobject, Option.bind_some] at ho
    cases hparent : a.objects[object].parent with
    | none =>
      rw [hparent] at ho
      exact List.mem_singleton.mp ho ▸ hobject
    | some parent =>
      have hlt := ha.parent_lt (Array.getElem?_eq_getElem hobject) hparent
      rw [hparent] at ho
      dsimp only at ho
      rw [if_pos hlt] at ho
      rcases List.mem_cons.mp ho with rfl | ho
      · exact hobject
      · exact ih parent hlt (by omega) ho

end

/-! ### Later arrays first -/

section

variable {S : Type} [Scalar S] (a : Arena S) (place : ℕ → Transform S)

/-- The volumes with that of one more array. -/
def enterVolume (volumes : Array (Volume S)) (id : ℕ) : Array (Volume S) :=
  match a.arrays[id]? with
  | none => volumes
  | some node => volumes.setIfInBounds id (a.volumeOf place volumes node)

/-- The volumes once those of the arrays from `first` on are there. -/
def volumesFrom (first : ℕ) : Array (Volume S) :=
  (List.range' first (a.arrays.size - first)).reverse.foldl (a.enterVolume place)
    (Array.replicate a.arrays.size Volume.empty)

variable {a place}

lemma volumesFrom_of_lt {i : ℕ} (h : i < a.arrays.size) :
    a.volumesFrom place i = a.enterVolume place (a.volumesFrom place (i + 1)) i := by
  have hcount : a.arrays.size - i = a.arrays.size - (i + 1) + 1 := by omega
  rw [volumesFrom, hcount, List.range'_succ, List.reverse_cons, List.foldl_append]
  rfl

lemma size_enterVolume (volumes : Array (Volume S)) (id : ℕ) :
    (a.enterVolume place volumes id).size = volumes.size := by
  unfold enterVolume
  split
  · rfl
  · exact Array.size_setIfInBounds

lemma size_volumesFrom (first : ℕ) : (a.volumesFrom place first).size = a.arrays.size := by
  unfold volumesFrom
  induction (List.range' first (a.arrays.size - first)).reverse using List.reverseRecOn with
  | nil => exact Array.size_replicate
  | append_singleton l id ih => rw [List.foldl_append, List.foldl_cons, List.foldl_nil,
      size_enterVolume, ih]

lemma getElem?_enterVolume {volumes : Array (Volume S)} {id j : ℕ} (h : id ≠ j) :
    (a.enterVolume place volumes id)[j]? = volumes[j]? := by
  unfold enterVolume
  split
  · rfl
  · exact Array.getElem?_setIfInBounds_ne h

lemma volumesFrom_getElem? {first j : ℕ} (hj : first ≤ j) (hsize : j < a.arrays.size) :
    (a.volumesFrom place first)[j]? = (a.volumesFrom place 0)[j]? := by
  induction first with
  | zero => rfl
  | succ first ih =>
    rw [← ih (by omega), volumesFrom_of_lt (i := first) (by omega),
      getElem?_enterVolume (by omega)]

omit [Scalar S] in
lemma elementBox?_congr {volumes volumes' : Array (Volume S)} {e : Element}
    (h : ∀ i, e = .array i → volumes[i]? = volumes'[i]?) :
    a.elementBox? volumes e = a.elementBox? volumes' e := by
  cases e with
  | array i => simp only [elementBox?, h i rfl]
  | surface s => rfl
  | camera c => rfl
  | light l => rfl

lemma volumeOf_congr {volumes volumes' : Array (Volume S)} {n : ArrayNode S}
    (h : ∀ j, .array j ∈ n.elements → volumes[j]? = volumes'[j]?) :
    a.volumeOf place volumes n = a.volumeOf place volumes' n := by
  unfold volumeOf
  refine congrArg Volume.ofBoxes (List.filterMap_congr fun ⟨e, counts⟩ hx => ?_)
  have hmem : e ∈ n.elements := (List.of_mem_zip hx).1
  have hbox : a.elementBox? volumes e = a.elementBox? volumes' e :=
    elementBox?_congr fun j hj => h j (hj ▸ hmem)
  dsimp only
  rw [hbox]

omit [Scalar S] in
lemma elementObject?_of_elementBox? {volumes : Array (Volume S)} {e : Element}
    {b : Box S} {o : ℕ} (h : a.elementBox? volumes e = some (b, o)) :
    a.elementObject? e = some o := by
  cases e with
  | surface s =>
    obtain ⟨n, hn, hbox⟩ := Option.map_eq_some_iff.mp h
    rw [elementObject?, hn]
    exact congrArg some (congrArg Prod.snd hbox)
  | array i =>
    simp only [elementBox?, Option.bind_eq_bind, Option.bind_eq_some_iff, Option.pure_def,
      Option.some.injEq, Prod.mk.injEq] at h
    obtain ⟨n, hn, v, -, object, hobject, -, rfl⟩ := h
    rw [elementObject?, hn]
    exact hobject
  | camera c => cases h
  | light l => cases h

/-! ### No lookup misses -/

omit [Scalar S] in
lemma elementBox_eq {volumes : Array (Volume S)}
    (hsize : volumes.size = a.arrays.size) {e : Element} (he : a.Has e) :
    a.elementBox volumes e = .ok (a.elementBox? volumes e) := by
  cases e with
  | surface s =>
    have hnode := Array.getElem?_eq_getElem (show s < a.surfaces.size from he)
    rw [elementBox, elementBox?, fetch_eq_ok hnode, ok_bind, hnode]
    rfl
  | array i =>
    obtain ⟨node, hnode⟩ : ∃ node, a.arrays[i]? = some node := ⟨_, Array.getElem?_eq_getElem he.2⟩
    have hvolume := Array.getElem?_eq_getElem (hsize.symm ▸ he.2 : i < volumes.size)
    rw [elementBox, elementBox?, fetch_eq_ok hnode, ok_bind, hnode, hvolume]
    cases hobject : node.object with
    | none =>
      simp only [Option.bind_eq_bind, Option.bind_some, hobject, Option.bind_none]
      rfl
    | some object =>
      simp only [Option.bind_eq_bind, Option.bind_some, hobject, fetch_eq_ok hvolume]
      rfl
  | camera c => rfl
  | light l => rfl

variable {place' : ℕ → Except Fault (Transform S)}

lemma measureArray_eq (ha : a.WellFormed) (hplace : ∀ o < a.objects.size, place' o = .ok (place o))
    {volumes : Array (Volume S)} (hsize : volumes.size = a.arrays.size) {i : ℕ} {n : ArrayNode S}
    (hn : a.arrays[i]? = some n) :
    a.measureArray place' volumes n = .ok (a.volumeOf place volumes n) := by
  unfold measureArray volumeOf Volume.ofBoxes
  rw [List.foldl_filterMap]
  refine foldlM_zipIdx_eq_ok 0 (ha.included_length i n hn) (fun v k e counts he hcounts => ?_) _
  have hmem := List.mem_of_getElem? he
  rw [Nat.zero_add]
  dsimp only [ArrayNode.counts]
  rw [elementBox_eq hsize (ha.entry i n e hn hmem), ok_bind, hcounts]
  rcases hbox : a.elementBox? volumes e with _ | ⟨box, object⟩
  · rfl
  · have hobject : object < a.objects.size :=
      ha.object_lt (ha.entry i n e hn hmem) (elementObject?_of_elementBox? hbox)
    dsimp only
    rw [hplace object hobject]
    rfl

/-- **All arrays are measured without a miss** where the objects have their places. -/
theorem measure_eq (ha : a.WellFormed)
    (hplace : ∀ o < a.objects.size, place' o = .ok (place o)) :
    a.measure place' = .ok (a.volumesFrom place 0) := by
  unfold measure volumesFrom
  rw [Nat.sub_zero, ← List.range_eq_range']
  refine foldlM_eq_ok (P := fun volumes => volumes.size = a.arrays.size)
    (fun id hid volumes h => ?_) Array.size_replicate
  have hnode := Array.getElem?_eq_getElem (List.mem_range.mp (List.mem_reverse.mp hid))
  refine ⟨?_, (size_enterVolume volumes id).trans h⟩
  rw [fetch_eq_ok hnode, ok_bind, measureArray_eq ha hplace h hnode, enterVolume, hnode]
  rfl

lemma volumes_eq (ha : a.WellFormed) : a.volumes place = a.volumesFrom place 0 := by
  rw [volumes, measure_eq ha fun _ _ => rfl]
  rfl

/-- The volume of an array is worked out from the volumes of those in it. -/
lemma volumes_getElem? (ha : a.WellFormed) {i : ℕ} {n : ArrayNode S}
    (hn : a.arrays[i]? = some n) :
    (a.volumes place)[i]? = some (a.volumeOf place (a.volumes place) n) := by
  have hi := lt_size_of_getElem? hn
  -- the arrays in this one come after it, so that their volumes are there already
  have hlater : a.volumeOf place (a.volumesFrom place (i + 1)) n =
      a.volumeOf place (a.volumesFrom place 0) n := by
    refine volumeOf_congr fun j hj => volumesFrom_getElem? ?_ ?_
    · exact ha.nested i j n hn hj
    · exact (ha.entry i n (.array j) hn hj).2
  rw [volumes_eq ha, ← volumesFrom_getElem? (Nat.le_refl i) hi, volumesFrom_of_lt hi, enterVolume,
    hn]
  dsimp only
  rw [hlater, Array.getElem?_setIfInBounds_self_of_lt]
  rw [size_volumesFrom]
  exact hi

end

/-! ### What volumes hold -/

end Arena

namespace Volume

section

variable {S : Type} [Scalar S] (boxes : List (Box S × Bool))

lemma extent_ofBoxes : (ofBoxes boxes).extent = (boxes.map Prod.fst).foldl Box.join Box.empty := by
  unfold ofBoxes
  rw [show (Box.empty : Box S) = Volume.empty.extent from rfl]
  generalize (Volume.empty : Volume S) = v
  induction boxes generalizing v with
  | nil => rfl
  | cons b boxes ih => exact ih _

lemma bounds_ofBoxes : (ofBoxes boxes).bounds =
    ((boxes.filter Prod.snd).map Prod.fst).foldl Box.join Box.empty := by
  unfold ofBoxes
  rw [show (Box.empty : Box S) = Volume.empty.bounds from rfl]
  generalize (Volume.empty : Volume S) = v
  induction boxes generalizing v with
  | nil => rfl
  | cons b boxes ih =>
    obtain ⟨box, included⟩ := b
    cases included <;> exact ih _

end

variable {p : Vec ℝ}

/-- The extent holds the point, and so do the bounds where it counts. -/
def Holds (v : Volume Extended) (p : Vec ℝ) (counts : Bool) : Prop :=
  v.extent.Encloses p ∧ (counts = true → v.bounds.Encloses p)

lemma holds_ofBoxes {boxes : List (Box Extended × Bool)} {b : Box Extended × Bool} (hb : b ∈ boxes)
    (h : b.1.Encloses p) : (ofBoxes boxes).Holds p b.2 := by
  rw [Holds, extent_ofBoxes, bounds_ofBoxes]
  refine ⟨Box.spans_foldl_join (List.mem_map_of_mem hb) h _, fun hcounts => ?_⟩
  exact Box.spans_foldl_join (List.mem_map_of_mem (List.mem_filter.mpr ⟨hb, hcounts⟩)) h _

lemma contains_ofBoxes {boxes : List (Box Extended × Bool)} {b : Box Extended × Bool}
    (hb : b ∈ boxes) (h : b.1.isEmpty = false → b.1.Definite) :
    (ofBoxes boxes).extent.contains b.1 0 = true ∧
      (b.2 = true → (ofBoxes boxes).bounds.contains b.1 0 = true) := by
  rw [extent_ofBoxes, bounds_ofBoxes]
  refine ⟨Box.contains_foldl_join (List.mem_map_of_mem hb) h _, fun hcounts => ?_⟩
  exact Box.contains_foldl_join (List.mem_map_of_mem (List.mem_filter.mpr ⟨hb, hcounts⟩)) h _

end Volume

namespace Arena

/-- The place in the world of what stands under the objects of an object and above. -/
noncomputable def worldMap (a : Arena Extended) (place : ℕ → Affine) (object : ℕ) : Affine :=
  (a.ancestry object).foldr (fun o f => f.comp (place o)) Affine.identity

/-- The place in the world of a point of the frame of an array on an object. -/
noncomputable def above (a : Arena Extended) (place : ℕ → Affine) (object : Option ℕ)
    (p : Vec ℝ) : Vec ℝ :=
  object.elim p fun o => (a.worldMap place o).apply p

variable {a : Arena Extended} {place : ℕ → Affine} {p : Vec ℝ}

lemma worldMap_apply {o : ℕ} {node : ObjectNode Extended} (ho : a.objects[o]? = some node)
    (hlt : ∀ parent, node.parent = some parent → parent < o) :
    (a.worldMap place o).apply p = a.above place node.parent ((place o).apply p) := by
  have hparent : a.objects[o]?.bind (·.parent) = node.parent := by rw [ho, Option.bind_some]
  unfold worldMap ancestry
  rw [hparent]
  cases hnode : node.parent with
  | none => simp [above, Affine.apply_comp]
  | some parent => simp [above, Affine.apply_comp, hlt parent hnode, worldMap]

/-- The volumes where the maps put the objects. -/
noncomputable def volumesUnder (a : Arena Extended) (place : ℕ → Affine) :
    Array (Volume Extended) :=
  a.volumes fun o => (place o).transform

/-- The box of the element holds a point that comes to lie there in the world. -/
def Reaches (a : Arena Extended) (place : ℕ → Affine) (e : Element) (p : Vec ℝ) : Prop :=
  ∃ b o q, a.elementBox? (a.volumesUnder place) e = some (b, o) ∧ b.Encloses q ∧
    (a.worldMap place o).apply q = p

variable {i k : ℕ} {n : ArrayNode Extended} {e : Element}

lemma Reaches.holds (ha : a.WellFormed) (hn : a.arrays[i]? = some n)
    (he : n.elements[k]? = some e) {counts : Bool} (hk : n.included[k]? = some counts)
    (h : a.Reaches place e p) :
    ∃ v q, (a.volumesUnder place)[i]? = some v ∧ v.Holds q counts ∧
      a.above place n.object q = p := by
  obtain ⟨b, o, q, hbox, hq, hp⟩ := h
  obtain ⟨o', node, ho', hnode, hparent, hlt⟩ := ha.parent i n e hn (List.mem_of_getElem? he)
  obtain rfl : o = o' :=
    Option.some.inj ((elementObject?_of_elementBox? hbox).symm.trans ho')
  refine ⟨_, (place o).apply q, volumes_getElem? ha hn, ?_, ?_⟩
  · refine Volume.holds_ofBoxes (b := (b.transformed (place o).transform, counts)) ?_
      (hq.transformed (place o))
    refine List.mem_filterMap.mpr ⟨(e, counts), ?_, ?_⟩
    · exact List.mem_of_getElem? (List.getElem?_zip_eq_some.mpr ⟨he, hk⟩)
    · exact congrArg (Option.map _) hbox
  · rw [← hparent, ← worldMap_apply hnode hlt, hp]

/-- What a surface holds is held by the boxes of all elements that it is under. -/
lemma Reaches.under (ha : a.WellFormed) {s : ℕ} (hs : a.Under e s)
    (he : a.Has e) (h : a.Reaches place (.surface s) p) : a.Reaches place e p := by
  induction hs with
  | surface s => exact h
  | @array i s n e hn hmem hunder ih =>
    obtain ⟨k, hk⟩ := List.getElem?_of_mem hmem
    obtain ⟨counts, hcounts⟩ : ∃ counts, n.included[k]? = some counts := by
      have hlt := (List.getElem?_eq_some_iff.mp hk).1
      rw [← ha.included_length i n hn] at hlt
      exact ⟨_, List.getElem?_eq_getElem hlt⟩
    -- the extent holds it whether or not the element counts for the bounds
    obtain ⟨v, q, hv, hq, hp⟩ := (ih (ha.entry i n e hn hmem) h).holds ha hn hk hcounts
    obtain ⟨o, ho⟩ : ∃ o, n.object = some o := by
      rw [← Option.ne_none_iff_exists', Ne, ha.object_eq_none_iff i n hn]
      exact he.1.ne'
    refine ⟨v.extent, o, q, ?_, hq.1, ?_⟩
    · simp [elementBox?, hn, hv, ho]
    · rw [← hp, ho]
      rfl

end Arena

end SolidTrace
