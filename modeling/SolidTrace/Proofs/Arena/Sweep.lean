import SolidTrace.Proofs.Arena.Extents

/-!
Volumes from the top down.

What the volume of an array is can be said without a table: its extent is the join of the boxes of
all its elements, each moved to where the element stands, and the box of an array in it is the
extent of that one. A table in which every volume is worked out from the table itself holds nothing
else, since an array comes before those in it. Both the table that is filled from the last array to
the first and the volumes that compiled arrays were given are such tables.
-/

namespace SolidTrace

namespace Arena

variable {S : Type} [Scalar S]

section

variable (a : Arena S) (place : ℕ → Transform S)

/-- The box of an element where its object stands, given the extents of arrays. Cameras and lights
have none. -/
def movedBox? (extent : ℕ → Box S) : Element → Option (Box S)
  | .surface s => a.surfaces[s]?.map fun n => n.bounds.transformed (place n.object)
  | .array j => (a.arrays[j]?.bind (·.object)).map fun o => (extent j).transformed (place o)
  | .camera _ | .light _ => none

/-- The join of the boxes of elements where they stand. -/
def hull (extent : ℕ → Box S) (elements : List Element) : Box S :=
  (elements.filterMap (a.movedBox? place extent)).foldl Box.join Box.empty

/-- The extent of an array, for which all elements count. -/
def extentOf (i : ℕ) : Box S :=
  a.hull place (fun j => if i < j ∧ j < a.arrays.size then extentOf j else Box.empty)
    (a.elements i)
termination_by a.arrays.size - i

/-- The bounds of an array, for which only those elements count that are included. -/
def boundsOf (n : ArrayNode S) : Box S :=
  a.hull place (a.extentOf place) (((n.elements.zip n.included).filter Prod.snd).map Prod.fst)

end

variable {a : Arena S} {place : ℕ → Transform S} {i : ℕ} {n : ArrayNode S}

/-- Every volume of the table is the one that follows from the table. -/
structure Tabulates (a : Arena S) (place : ℕ → Transform S) (volumes : Array (Volume S)) :
    Prop where
  size_eq : volumes.size = a.arrays.size
  entry : ∀ (i : ℕ) (n : ArrayNode S), a.arrays[i]? = some n →
    volumes[i]? = some (a.volumeOf place volumes n)

/-- **There is one table.** The last arrays have no arrays in them, and the others only later
ones. -/
theorem Tabulates.unique (ha : a.WellFormed) {v w : Array (Volume S)} (hv : a.Tabulates place v)
    (hw : a.Tabulates place w) : v = w := by
  have hlater : ∀ k i, a.arrays.size ≤ i + k → v[i]? = w[i]? := by
    intro k
    induction k with
    | zero =>
      intro i hi
      have hvi : v.size ≤ i := by rw [hv.size_eq]; omega
      have hwi : w.size ≤ i := by rw [hw.size_eq]; omega
      rw [Array.getElem?_eq_none hvi, Array.getElem?_eq_none hwi]
    | succ k ih =>
      intro i hi
      cases hn : a.arrays[i]? with
      | none =>
        have hle : a.arrays.size ≤ i := Array.getElem?_eq_none_iff.mp hn
        exact ih i (by omega)
      | some n =>
        rw [hv.entry i n hn, hw.entry i n hn]
        refine congrArg some (volumeOf_congr fun j hj => ih j ?_)
        have hlt : i < j := ha.nested i j n hn hj
        omega
  exact Array.ext_getElem? fun i => hlater a.arrays.size i (Nat.le_add_left ..)

lemma tabulates_volumes (ha : a.WellFormed) : a.Tabulates place (a.volumes place) where
  size_eq := by rw [volumes_eq ha, size_volumesFrom]
  entry _ _ hn := volumes_getElem? ha hn

lemma tabulates_givenVolumes (h : ∀ (i : ℕ) (n : ArrayNode S), a.arrays[i]? = some n → n.Sized a) :
    a.Tabulates a.declared a.givenVolumes where
  size_eq := by rw [givenVolumes, Array.size_map]
  entry i n hn := by
    have hsized : n.volume = a.volumeOf a.declared a.givenVolumes n := h i n hn
    rw [← hsized, givenVolumes, Array.getElem?_map, hn, Option.map_some]

lemma movedBox?_congr {extent extent' : ℕ → Box S} {e : Element}
    (h : ∀ j, e = .array j → extent j = extent' j) :
    a.movedBox? place extent e = a.movedBox? place extent' e := by
  cases e with
  | array j => simp only [movedBox?, h j rfl]
  | surface s => rfl
  | camera c => rfl
  | light l => rfl

/-- The extent of an array from those of the arrays in it, which all come after it. -/
lemma extentOf_eq (ha : a.WellFormed) (hn : a.arrays[i]? = some n) :
    a.extentOf place i = a.hull place (a.extentOf place) n.elements := by
  rw [extentOf, elements_eq hn, hull, hull]
  refine congrArg (List.foldl _ _) (List.filterMap_congr fun e he => ?_)
  refine movedBox?_congr fun j hj => ?_
  subst hj
  have hafter : i < j := ha.nested i j n hn he
  have hthere : j < a.arrays.size := (ha.entry i n (.array j) hn he).2
  rw [if_pos ⟨hafter, hthere⟩]

lemma movedBox?_eq {volumes : Array (Volume S)} {extent : ℕ → Box S}
    (h : ∀ j < a.arrays.size, volumes[j]?.map (·.extent) = some (extent j)) (e : Element) :
    a.movedBox? place extent e =
      (a.elementBox? volumes e).map fun (box, object) => box.transformed (place object) := by
  cases e with
  | surface s => rw [movedBox?, elementBox?, Option.map_map]; rfl
  | array j =>
    rw [movedBox?, elementBox?]
    cases hm : a.arrays[j]? with
    | none => rfl
    | some m =>
      obtain ⟨v, hv, hextent⟩ := Option.map_eq_some_iff.mp (h j (lt_size_of_getElem? hm))
      cases hobject : m.object <;> simp [hv, hextent, hobject]
  | camera c => rfl
  | light l => rfl

/-- What counts of marked boxes, and all of them, go by what counts of the marked elements. -/
lemma marked_filterMap {α β : Type} (f : α → Option β) (l : List (α × Bool)) :
    (l.filterMap fun x => (f x.1).map (·, x.2)).map Prod.fst = (l.map Prod.fst).filterMap f ∧
      ((l.filterMap fun x => (f x.1).map (·, x.2)).filter Prod.snd).map Prod.fst =
        ((l.filter Prod.snd).map Prod.fst).filterMap f := by
  induction l with
  | nil => exact ⟨rfl, rfl⟩
  | cons x l ih =>
    obtain ⟨e, counts⟩ := x
    cases hf : f e <;> cases counts <;> simp [hf, ih]

lemma volumeOf_eq {volumes : Array (Volume S)} {extent : ℕ → Box S}
    (h : ∀ j < a.arrays.size, volumes[j]?.map (·.extent) = some (extent j))
    (hlength : n.included.length = n.elements.length) :
    a.volumeOf place volumes n =
      ⟨a.hull place extent (((n.elements.zip n.included).filter Prod.snd).map Prod.fst),
        a.hull place extent n.elements⟩ := by
  have hboxes : a.volumeOf place volumes n = Volume.ofBoxes ((n.elements.zip n.included).filterMap
      fun x => (a.movedBox? place extent x.1).map (·, x.2)) := by
    simp only [volumeOf, movedBox?_eq h, Option.map_map]
    rfl
  obtain ⟨hall, hcount⟩ := marked_filterMap (a.movedBox? place extent) (n.elements.zip n.included)
  rw [List.map_fst_zip hlength.ge] at hall
  have hbounds := Volume.bounds_ofBoxes ((n.elements.zip n.included).filterMap
    fun x => (a.movedBox? place extent x.1).map (·, x.2))
  have hextent := Volume.extent_ofBoxes ((n.elements.zip n.included).filterMap
    fun x => (a.movedBox? place extent x.1).map (·, x.2))
  rw [hboxes, hull, hull, ← hcount, ← hall, ← hbounds, ← hextent]

/-- The boxes of the recursion make up a table. -/
lemma tabulates_extentOf (ha : a.WellFormed) : a.Tabulates place
    (a.arrays.mapIdx fun i n => ⟨a.boundsOf place n, a.extentOf place i⟩) where
  size_eq := Array.size_mapIdx
  entry i n hn := by
    have hextent : ∀ j < a.arrays.size, (a.arrays.mapIdx fun i n =>
        (⟨a.boundsOf place n, a.extentOf place i⟩ : Volume S))[j]?.map (·.extent) =
          some (a.extentOf place j) := by
      intro j hj
      rw [Array.getElem?_mapIdx, Array.getElem?_eq_getElem hj]
      rfl
    rw [volumeOf_eq hextent (ha.included_length i n hn), ← extentOf_eq ha hn,
      Array.getElem?_mapIdx, hn]
    rfl

/-- **What the arrays measure**, where every object has its place. -/
theorem measure_eq_ok (ha : a.WellFormed) {place' : ℕ → Except Fault (Transform S)}
    (hplace : ∀ o < a.objects.size, place' o = .ok (place o)) : a.measure place' =
      .ok (a.arrays.mapIdx fun i n => ⟨a.boundsOf place n, a.extentOf place i⟩) := by
  rw [measure_eq ha hplace, ← volumes_eq ha,
    (tabulates_volumes ha).unique ha (tabulates_extentOf ha)]

end Arena

/-- **The sweep over the arrays does what the walk over the document did.** Where the objects are
declared to stand it gives every array the volume that it was compiled with. Wherever else they are
put, the extent of an array joins the boxes of its surfaces and the extents of the arrays in it,
where these stand, and its bounds join those of them that are included. -/
theorem compile_volumes {S : Type} [Scalar S] {w : Workshop S} {allocator : Allocator}
    {c : Compiled S} (h : (compile w allocator).1 = .ok c) :
    c.arena.volumes c.arena.declared = c.arena.arrays.map (·.volume) ∧
    ∀ (place : ℕ → Transform S) (i : ℕ) (n : ArrayNode S), c.arena.arrays[i]? = some n →
      c.arena.extentOf place i = c.arena.hull place (c.arena.extentOf place) n.elements ∧
      (c.arena.volumes place)[i]? =
        some ⟨c.arena.boundsOf place n, c.arena.extentOf place i⟩ := by
  have hrecords := compile_records h
  have hwell := hrecords.wellFormed (compile_supplied h)
  refine ⟨?_, fun place i n hn => ⟨Arena.extentOf_eq hwell hn, ?_⟩⟩
  · exact (Arena.tabulates_volumes hwell).unique hwell
      (Arena.tabulates_givenVolumes fun _ _ => hrecords.sized)
  · rw [(Arena.tabulates_volumes hwell).unique hwell (Arena.tabulates_extentOf hwell),
      Array.getElem?_mapIdx, hn]
    rfl

/-- The sweep over a copy of a pair of spheres. -/
theorem compile_pair_volumes : ∃ c n,
    (compile (Pair.workshop Pair.copied) Pair.allocator).1 = .ok c ∧
      c.arena.arrays[1]? = some n ∧ n.elements = [.surface 0, .surface 1] ∧
      c.arena.volumes c.arena.declared = c.arena.arrays.map (·.volume) ∧
      (c.arena.volumes c.arena.declared)[1]? =
        some ⟨c.arena.boundsOf c.arena.declared n, c.arena.extentOf c.arena.declared 1⟩ := by
  obtain ⟨c, hc⟩ := Pair.exists_compiled
  have helements : ((compile (Pair.workshop Pair.copied) Pair.allocator).1.toOption.bind fun c =>
      c.arena.arrays[1]?.map ArrayNode.elements) = some [.surface 0, .surface 1] := by
    decide +kernel
  rw [hc] at helements
  obtain ⟨n, hn, hne⟩ := Option.map_eq_some_iff.mp helements
  exact ⟨c, n, hc, hn, hne, (compile_volumes hc).1, ((compile_volumes hc).2 _ 1 n hn).2⟩

end SolidTrace
