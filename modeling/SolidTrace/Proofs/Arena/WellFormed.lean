import Mathlib.Algebra.Ring.Nat
import SolidTrace.Proofs.Arena.Sound
import SolidTrace.Proofs.Compile.Trims

/-!
Well-formed arenas.

While a document is walked, an array has its place in the table but neither elements nor surfaces,
and surfaces lack the trims of the arrays that are not closed yet. `WellFormed` is what holds when
the walk is over. It is read off the record of the document: every array has a record of its own,
below the root by `Records.each`, and the census says that every entry is named by one element.
-/

namespace SolidTrace

variable {S : Type}

namespace Arena

/-- An element stands for an entry other than the root. -/
def Has (a : Arena S) : Element → Prop
  | .surface s => s < a.surfaces.size
  | .array i => Arena.root < i ∧ i < a.arrays.size
  | .camera c => c < a.cameras.size
  | .light l => l < a.lights.size

structure WellFormed (a : Arena S) : Prop where
  root_lt : Arena.root < a.arrays.size
  /-- Every array but the root hangs on an object. -/
  object_eq_none_iff : ∀ (i : ℕ) (n : ArrayNode S), a.arrays[i]? = some n →
    (n.object = none ↔ i = Arena.root)
  /-- The object of an element stands below that of the array, and after it. -/
  parent : ∀ (i : ℕ) (n : ArrayNode S) (e : Element), a.arrays[i]? = some n → e ∈ n.elements →
    ∃ o node, a.elementObject? e = some o ∧ a.objects[o]? = some node ∧ node.parent = n.object ∧
      ∀ p, node.parent = some p → p < o
  /-- An array comes after the one that it stands in. -/
  nested : ∀ (i j : ℕ) (n : ArrayNode S), a.arrays[i]? = some n → .array j ∈ n.elements → i < j
  entry : ∀ (i : ℕ) (n : ArrayNode S) (e : Element), a.arrays[i]? = some n → e ∈ n.elements →
    a.Has e
  /-- Every entry but the root is the element at one position of one array. -/
  place : ∀ e, a.Has e → ∃! x : ℕ × ℕ, (a.elements x.1)[x.2]? = some e
  surface_place : ∀ (s : ℕ) (n : SurfaceNode S), a.surfaces[s]? = some n →
    (a.elements n.array)[n.position]? = some (.surface s)
  /-- Every object is that of the element at one position of one array. -/
  object_place : ∀ o < a.objects.size, ∃! x : ℕ × ℕ, ∃ e, (a.elements x.1)[x.2]? = some e ∧
    a.elementObject? e = some o
  objects_size : a.objects.size = (a.arrays.toList.map fun n => n.elements.length).sum
  included_length : ∀ (i : ℕ) (n : ArrayNode S), a.arrays[i]? = some n →
    n.included.length = n.elements.length
  /-- Cameras and lights do not count for the volume. -/
  included : ∀ (i : ℕ) (n : ArrayNode S) (q k : ℕ), a.arrays[i]? = some n →
    n.elements[q]? = some (.camera k) ∨ n.elements[q]? = some (.light k) →
      n.included[q]? = some false
  /-- The surfaces of an array are those in it and below, and follow one another. -/
  surfaces : ∀ (i : ℕ) (n : ArrayNode S), a.arrays[i]? = some n →
    (∃ first count, n.surfaces = List.range' first count) ∧
      ∀ s, s ∈ n.surfaces ↔ a.Under (.array i) s
  root_surfaces : ∀ n, a.arrays[Arena.root]? = some n → n.surfaces = List.range a.surfaces.size
  operand : ∀ (s r : ℕ) (n : SurfaceNode S) (t : Trim ℕ ℕ), a.surfaces[s]? = some n → t ∈ n.trims →
    t.operand? = some r → r < a.surfaces.size
  /-- What an array collects cuts only the surfaces in it and below. -/
  collection : ∀ (s i : ℕ) (n : SurfaceNode S), a.surfaces[s]? = some n → .accum i ∈ n.trims →
    a.Under (.array i) s
  accumulator : ∀ (i : ℕ) (n : ArrayNode S), a.arrays[i]? = some n →
    n.accumulator.Nodup ∧ ∀ s ∈ n.accumulator, .surface s ∈ n.elements
  material : ∀ (s : ℕ) (n : SurfaceNode S), a.surfaces[s]? = some n →
    n.outer.material < a.materials.size ∧ n.inner.material < a.materials.size
  texture : a.Supplied

variable [Scalar S] {d : Document S} {a : Arena S} {lo hi : Marks} {object : Option ℕ}
  {path : String} {forced : Option Override} {trims : List (Trim ℕ ℕ)} {content : Assembly S}

/-! ### The record of an array -/

/-- What is recorded of one array, as far as its place in the whole goes: the object that it hangs
on comes before its own entries. -/
def RecordedAt (d : Document S) (a : Arena S) (object : Option ℕ) (lo hi : Marks)
    (content : Assembly S) : Prop :=
  (∀ p, object = some p → p < lo.objects) ∧
    ∃ path forced trims, a.Records d lo hi object path forced trims content

/-- **Every array has a record.** The first one between the marks has that of the whole, and the
others hang on objects. -/
theorem Records.each (h : a.Records d lo hi object path forced trims content)
    (hobject : ∀ p, object = some p → p < lo.objects) {i : ℕ} (h₁ : lo.arrays ≤ i)
    (h₂ : i < hi.arrays) :
    ∃ object' lo' hi' content', lo'.arrays = i ∧ a.RecordedAt d object' lo' hi' content' ∧
      (i = lo.arrays ∧ object' = object ∨ lo.arrays < i ∧ object'.isSome) := by
  induction h with
  | @mk lo hi object path forced trims content n outcome cut own node closes first last own_eq
      stands nested sized ih =>
    by_cases hi₀ : i = lo.arrays
    · exact ⟨object, lo, hi, content, hi₀.symm, ⟨hobject, path, forced, trims,
        .mk cut own node closes first last own_eq stands nested sized⟩, Or.inl ⟨hi₀, rfl⟩⟩
    · obtain ⟨q, hq, hle, hlt⟩ := exists_mark_between (f := fun q => (cut q).arrays) (s := i)
        (by rw [first, Marks.addArray_arrays]; omega) (by rw [last]; exact h₂)
      obtain ⟨p, inner, he, hp, hinner⟩ := stands_of_array closes stands hq hle hlt
      obtain ⟨object', lo', hi', content', hlo', hrec, hplace⟩ :=
        ih q p inner hp hinner (fun p hp => by
          obtain rfl := Option.some.inj hp
          exact Nat.lt_succ_self _) hle hlt
      refine ⟨object', lo', hi', content', hlo', hrec, Or.inr ⟨by omega, ?_⟩⟩
      rcases hplace with ⟨-, rfl⟩ | ⟨-, hsome⟩
      · rfl
      · exact hsome

/-- The surfaces in an array and below are those between its marks. -/
theorem Records.under_iff (h : a.Records d lo hi object path forced trims content) {s : ℕ} :
    a.Under (.array lo.arrays) s ↔ lo.surfaces ≤ s ∧ s < hi.surfaces := by
  induction h with
  | @mk lo hi object path forced trims content n outcome cut own node closes first last own_eq
      stands nested sized ih =>
    have hcut : ∀ {q}, q < content.parts.length → lo.surfaces ≤ (cut q).surfaces ∧
        (cut (q + 1)).surfaces ≤ hi.surfaces := by
      intro q hq
      have hfirst := (cut_le closes.length stands (Nat.zero_le q) hq.le).surfaces
      have hlast := (cut_le closes.length stands (show q + 1 ≤ _ from hq) (Nat.le_refl _)).surfaces
      rw [first] at hfirst
      rw [last] at hlast
      exact ⟨hfirst, hlast⟩
    -- down the elements, whose marks lie between those of the array
    constructor
    · intro hunder
      cases hunder with
      | @array _ _ n' e node' mem under =>
        obtain rfl := Option.some.inj (node.symm.trans node')
        obtain ⟨q, hq⟩ := List.mem_iff_getElem?.mp mem
        have hlt : q < content.parts.length := closes.length ▸ (List.getElem?_eq_some_iff.mp hq).1
        obtain ⟨hfirst, hlast⟩ := hcut hlt
        cases e with
        | surface s' =>
          cases under
          obtain ⟨rfl, hnext, -⟩ := surface_stands closes stands hq
          rw [hnext] at hlast
          exact ⟨hfirst, hlast⟩
        | array j =>
          obtain ⟨rfl, p, inner, hp, hinner⟩ := array_stands closes stands hq
          obtain ⟨hle, hlt⟩ := (ih q p inner hp hinner).mp under
          exact ⟨hfirst.trans hle, hlt.trans_le hlast⟩
        | camera => cases under
        | light => cases under
    · rintro ⟨h₁, h₂⟩
      obtain ⟨q, hq, hle, hlt⟩ := exists_mark_between (f := fun q => (cut q).surfaces) (s := s)
        (by rw [first]; exact h₁) (by rw [last]; exact h₂)
      rcases stands_of_surface closes stands hq hle hlt with he | ⟨p, inner, he, hp, hinner⟩
      · exact .array node (List.mem_of_getElem? he) (.surface s)
      · exact .array node (List.mem_of_getElem? he) ((ih q p inner hp hinner).mpr ⟨hle, hlt⟩)

omit [Scalar S] in
/-- A surface is in every array on the way down to it. -/
lemma Levels.under {levels : List (Level S)} (h : a.Levels d levels) {l : Level S}
    {above : List (Level S)} (hl : levels = l :: above) {e : Element} (he : l.element? = some e)
    {s : ℕ} (hs : a.Under e s) : ∀ m ∈ levels, a.Under (.array m.array) s := by
  induction h generalizing l above e with
  | nil => cases hl
  | @cons l' above' rest array node content ih =>
    obtain ⟨rfl, rfl⟩ := List.cons.inj hl
    have hhere : a.Under (.array l'.array) s := .array node (List.mem_of_getElem? he) hs
    intro m hm
    rcases List.mem_cons.mp hm with rfl | hm
    · exact hhere
    · cases above' with
      | nil => cases hm
      | cons l'' above'' => exact ih rfl (arrayBelow?_cons.mp array) hhere m hm

/-! ### Single arrays -/

lemma nodup_of_mapM_eq_some {α β : Type} {f : α → Option β} {l : List α} {r : List β}
    (h : l.mapM f = some r) (hl : l.Nodup)
    (hf : ∀ x x' y, f x = some y → f x' = some y → x = x') : r.Nodup := by
  induction l generalizing r with
  | nil =>
    obtain rfl := Option.some.inj h
    exact List.nodup_nil
  | cons x l ih =>
    obtain ⟨y, ys, hy, hys, rfl⟩ := mapM_cons_eq_some.mp h
    obtain ⟨hx, hl⟩ := List.nodup_cons.mp hl
    refine List.nodup_cons.mpr ⟨fun hmem => hx ?_, ih hys hl⟩
    obtain ⟨x', hx', hy'⟩ := mem_of_mapM_eq_some hys hmem
    exact hf x x' y hy hy' ▸ hx'

section

variable {n : ArrayNode S} {q s : ℕ} (h : a.RecordedAt d object lo hi content)
  (hn : a.arrays[lo.arrays]? = some n)

include h hn

lemma RecordedAt.object_eq : n.object = object := by
  obtain ⟨-, path, forced, trims, hrec⟩ := h
  obtain ⟨n', hn', hobject⟩ := hrec.entry
  obtain rfl := Option.some.inj (hn.symm.trans hn')
  exact hobject

lemma RecordedAt.surfaces_eq :
    n.surfaces = List.range' lo.surfaces (hi.surfaces - lo.surfaces) := by
  obtain ⟨-, path, forced, trims, hrec⟩ := h
  cases hrec with
  | mk cut own node closes =>
    obtain rfl := Option.some.inj (hn.symm.trans node)
    exact closes.surfaces

lemma RecordedAt.parent {e : Element} (he : e ∈ n.elements) : ∃ o node,
    a.elementObject? e = some o ∧ a.objects[o]? = some node ∧ node.parent = n.object ∧
      ∀ p, node.parent = some p → p < o := by
  have hobject := h.object_eq hn
  obtain ⟨hbefore, path, forced, trims, hrec⟩ := h
  cases hrec with
  | mk cut own node closes first last own_eq stands nested =>
    obtain rfl := Option.some.inj (hn.symm.trans node)
    obtain ⟨q, hq⟩ := List.mem_iff_getElem?.mp he
    have hlt : q < content.parts.length := closes.length ▸ (List.getElem?_eq_some_iff.mp hq).1
    obtain ⟨e', p, he', hp, hs⟩ := exists_stands closes stands hlt
    obtain rfl := Option.some.inj (hq.symm.trans he')
    have hle := (cut_le closes.length stands (Nat.zero_le q) hlt.le).objects
    rw [first, Marks.addArray_objects] at hle
    have hstands : ∀ {path : String} {header : Header S},
        ObjectNode.Stands a (cut q).objects object path header →
          a.elementObject? e = some (cut q).objects → ∃ o node, a.elementObject? e = some o ∧
            a.objects[o]? = some node ∧ node.parent = n.object ∧
              ∀ p, node.parent = some p → p < o := by
      rintro path header ⟨animator, hnode⟩ ho
      exact ⟨_, _, ho, hnode, hobject.symm, fun p hp => (hbefore p hp).trans_le hle⟩
    generalize hcut : cut (q + 1) = next at hs
    cases hs with
    | camera object node => exact hstands object (by simp [elementObject?, node])
    | light object node => exact hstands object (by simp [elementObject?, node])
    | surface object node hn' => exact hstands object (by simp [elementObject?, node, hn'.object])
    | array hinner hle object =>
      obtain ⟨n', hn', ho⟩ := (nested q p _ hp hinner).entry
      rw [Marks.addObject_arrays] at hn'
      exact hstands object (by simp [elementObject?, hn', ho])

lemma RecordedAt.surface (he : n.elements[q]? = some (.surface s)) :
    ∃ node o parent surface forced path trims, a.surfaces[s]? = some node ∧
      node.Stands a o ⟨lo.arrays, parent, q⟩ surface forced path trims := by
  obtain ⟨-, path, forced, trims, hrec⟩ := h
  cases hrec with
  | mk cut own node closes first last own_eq stands nested =>
    obtain rfl := Option.some.inj (hn.symm.trans node)
    obtain ⟨e, p, he', hp, hs⟩ := exists_stands closes stands
      (closes.length ▸ (List.getElem?_eq_some_iff.mp he).1)
    obtain rfl := Option.some.inj (he.symm.trans he')
    generalize hcut : cut (q + 1) = next at hs
    cases hs with
    | surface object node hs => exact ⟨_, _, _, _, _, _, _, node, hs⟩

lemma RecordedAt.included {k : ℕ}
    (he : n.elements[q]? = some (.camera k) ∨ n.elements[q]? = some (.light k)) :
    n.included[q]? = some false := by
  obtain ⟨-, path, forced, trims, hrec⟩ := h
  cases hrec with
  | @mk _ _ _ _ _ _ _ _ outcome cut own node closes first last own_eq stands nested =>
    obtain rfl := Option.some.inj (hn.symm.trans node)
    have hfits := Program.run_fits closes.run
    have hlt : q < content.parts.length := by
      rw [← closes.length]
      exact he.elim (fun he => (List.getElem?_eq_some_iff.mp he).1)
        fun he => (List.getElem?_eq_some_iff.mp he).1
    obtain ⟨e, p, he', hp, hs⟩ := exists_stands closes stands hlt
    have hkind : p.kind = .other := by
      generalize cut (q + 1) = next at hs
      rcases he with he | he
      · obtain rfl := Option.some.inj (he.symm.trans he')
        cases hs
        rfl
      · obtain rfl := Option.some.inj (he.symm.trans he')
        cases hs
        rfl
    rw [closes.included]
    obtain ⟨counts, hcounts⟩ : ∃ counts, outcome.included[q]? = some counts :=
      ⟨_, List.getElem?_eq_getElem (by rw [hfits.included_length, List.length_map]; exact hlt)⟩
    cases counts with
    | false => exact hcounts
    | true =>
      obtain ⟨kind, hk, hgeometry⟩ := hfits.geometry q hcounts
      rw [List.getElem?_map, hp, Option.map_some, Option.some.injEq, hkind] at hk
      rw [← hk] at hgeometry
      cases hgeometry

lemma RecordedAt.accumulator :
    n.accumulator.Nodup ∧ ∀ s ∈ n.accumulator, .surface s ∈ n.elements := by
  obtain ⟨-, path, forced, trims, hrec⟩ := h
  cases hrec with
  | mk cut own node closes first last own_eq stands nested =>
    obtain rfl := Option.some.inj (hn.symm.trans node)
    constructor
    · refine nodup_of_mapM_eq_some closes.accumulator (Program.run_fits closes.run).nodup
        fun q q' s hq hq' => ?_
      rw [ArrayNode.surfaceAt?_eq_some] at hq hq'
      obtain ⟨-, -, node, hnode, -, hposition, -⟩ := surface_stands closes stands hq
      obtain ⟨-, -, node', hnode', -, hposition', -⟩ := surface_stands closes stands hq'
      obtain rfl := Option.some.inj (hnode.symm.trans hnode')
      exact hposition.symm.trans hposition'
    · intro s hs
      obtain ⟨q, -, hq⟩ := mem_of_mapM_eq_some closes.accumulator hs
      exact List.mem_of_getElem? (ArrayNode.surfaceAt?_eq_some.mp hq)

end

/-! ### Every entry once -/

omit [Scalar S] in
lemma lt_size_of_elements {i q : ℕ} {e : Element} (he : (a.elements i)[q]? = some e) :
    i < a.arrays.size := by
  by_contra hi
  rw [elements, Array.getElem?_eq_none (by omega)] at he
  cases he

omit [Scalar S] in
lemma mem_entries_iff {e : Element} : e ∈ Marks.entries Marks.start.addArray a.marks ↔ a.Has e := by
  cases e
  all_goals
    simp only [Marks.entries, Marks.span, Has, Marks.start, marks, root, List.mem_append,
      List.mem_map, List.mem_range'_1, Marks.addArray_surfaces, Marks.addArray_arrays,
      Marks.addArray_cameras, Marks.addArray_lights]
    simp
  omega

section

variable (h : a.Records d .start a.marks none path none [] d.root)

include h

/-- The elements of an arena stand for its entries but the root, each for one of its own. -/
lemma Records.perm_entries : ((List.range a.arrays.size).flatMap fun i =>
    (a.elements i).flatMap fun e => [e]).Perm (Marks.entries Marks.start.addArray a.marks) := by
  rw [List.range_eq_range']
  exact h.census census_elements

lemma Records.perm_objects : ((List.range a.arrays.size).flatMap fun i =>
    (a.elements i).flatMap fun e => (a.elementObject? e).toList).Perm
      (List.range a.objects.size) := by
  rw [List.range_eq_range', List.range_eq_range']
  exact h.census census_objects

/-- An array of the arena has a record, and hangs on an object unless it is the root. -/
lemma Records.recordedAt {i : ℕ} {n : ArrayNode S} (hn : a.arrays[i]? = some n) :
    ∃ object lo hi content, lo.arrays = i ∧ a.RecordedAt d object lo hi content ∧
      (object = none ↔ i = Arena.root) := by
  obtain ⟨object, lo, hi, content, hlo, hrec, hplace⟩ :=
    h.each (fun p hp => by cases hp) (Nat.zero_le i) (lt_size_of_getElem? hn)
  refine ⟨object, lo, hi, content, hlo, hrec, ?_⟩
  rcases hplace with ⟨rfl, rfl⟩ | ⟨hlt, hsome⟩
  · exact iff_of_true rfl rfl
  · refine iff_of_false (fun hnone => ?_) (Nat.ne_of_gt hlt)
    rw [hnone] at hsome
    cases hsome

lemma Records.length_objects {i : ℕ} {n : ArrayNode S} (hn : a.arrays[i]? = some n) :
    (n.elements.flatMap fun e => (a.elementObject? e).toList).length = n.elements.length := by
  obtain ⟨object, lo, hi, content, rfl, hrec, -⟩ := h.recordedAt hn
  have hone : ∀ e ∈ n.elements, (a.elementObject? e).toList.length = 1 := by
    intro e he
    obtain ⟨o, -, ho, -⟩ := hrec.parent hn he
    rw [ho]
    rfl
  rw [List.length_flatMap, List.map_congr_left hone]
  simp

lemma Records.objects_size :
    a.objects.size = (a.arrays.toList.map fun n => n.elements.length).sum := by
  have hlength := h.perm_objects.length_eq
  rw [List.length_range, List.length_flatMap] at hlength
  rw [← hlength]
  congr 1
  refine List.ext_getElem (by simp) fun i hi hi' => ?_
  have hlt : i < a.arrays.size := by simpa using hi
  have hn := Array.getElem?_eq_getElem hlt
  simp only [List.getElem_map, List.getElem_range, Array.getElem_toList]
  rw [elements_eq hn, h.length_objects hn]

lemma Records.place {e : Element} (he : a.Has e) :
    ∃! x : ℕ × ℕ, (a.elements x.1)[x.2]? = some e := by
  refine (existsUnique_congr fun x => ?_).mp
    (existsUnique_place h.perm_entries nodup_entries (mem_entries_iff.mpr he))
  constructor
  · rintro ⟨-, e', he', hmem⟩
    rwa [List.mem_singleton.mp hmem]
  · exact fun he' => ⟨lt_size_of_elements he', e, he', List.mem_singleton_self e⟩

lemma Records.object_place {o : ℕ} (ho : o < a.objects.size) :
    ∃! x : ℕ × ℕ, ∃ e, (a.elements x.1)[x.2]? = some e ∧ a.elementObject? e = some o := by
  refine (existsUnique_congr fun x => ?_).mp
    (existsUnique_place h.perm_objects List.nodup_range (List.mem_range.mpr ho))
  constructor
  · rintro ⟨-, e, he, hmem⟩
    exact ⟨e, he, Option.mem_toList.mp hmem⟩
  · rintro ⟨e, he, hmem⟩
    exact ⟨lt_size_of_elements he, e, he, Option.mem_toList.mpr hmem⟩

lemma Records.surface {s : ℕ} {n : SurfaceNode S} (hn : a.surfaces[s]? = some n) :
    ∃ o spot surface forced path trims,
      (a.elements spot.array)[spot.position]? = some (.surface s) ∧
        n.Stands a o spot surface forced path trims := by
  obtain ⟨⟨i, q⟩, hplace, -⟩ := h.place (e := .surface s) (lt_size_of_getElem? hn)
  have hm := Array.getElem?_eq_getElem (lt_size_of_elements hplace)
  obtain ⟨object, lo, hi, content, rfl, hrec, -⟩ := h.recordedAt hm
  have he := hplace
  rw [elements_eq hm] at he
  obtain ⟨n', o, parent, surface, forced, path, trims, hn', hs⟩ := hrec.surface hm he
  obtain rfl := Option.some.inj (hn.symm.trans hn')
  exact ⟨o, ⟨lo.arrays, parent, q⟩, surface, forced, path, trims, hplace, hs⟩

lemma Records.surface_place {s : ℕ} {n : SurfaceNode S} (hn : a.surfaces[s]? = some n) :
    (a.elements n.array)[n.position]? = some (.surface s) := by
  obtain ⟨o, spot, surface, forced, path, trims, hplace, hs⟩ := h.surface hn
  rwa [hs.array, hs.position]

lemma Records.materials {s : ℕ} {n : SurfaceNode S} (hn : a.surfaces[s]? = some n) :
    n.outer.material < a.materials.size ∧ n.inner.material < a.materials.size := by
  obtain ⟨o, spot, surface, forced, path, trims, -, hs⟩ := h.surface hn
  obtain ⟨m, hm, -⟩ := hs.outer.material
  obtain ⟨m', hm', -⟩ := hs.inner.material
  exact ⟨lt_size_of_getElem? hm, lt_size_of_getElem? hm'⟩

lemma Records.collection {s i : ℕ} {n : SurfaceNode S} (hn : a.surfaces[s]? = some n)
    (ht : .accum i ∈ n.trims) : a.Under (.array i) s := by
  obtain ⟨hsurfaces, -⟩ := h.reaches .nil rfl rfl
  obtain ⟨l, above, hl, he⟩ := hsurfaces s (Nat.zero_le _) (lt_size_of_getElem? hn)
  obtain ⟨n', hn', -, -, htrims, -⟩ := hl.shows h he
  obtain rfl := Option.some.inj (hn.symm.trans hn')
  obtain ⟨lists, hlists, hflat⟩ := Option.map_eq_some_iff.mp htrims
  obtain ⟨own, hown, ht⟩ := List.mem_flatten.mp (hflat ▸ ht)
  obtain ⟨m, hm, hmown⟩ := mem_of_mapM_eq_some hlists hown
  obtain ⟨ts, -, hmap⟩ := Option.bind_eq_some_iff.mp hmown
  obtain ⟨t', -, hres⟩ := mem_of_mapM_eq_some hmap ht
  cases t' with
  | outer p =>
    obtain ⟨r, -, hr⟩ := Option.map_eq_some_iff.mp hres
    cases hr
  | inner p =>
    obtain ⟨r, -, hr⟩ := Option.map_eq_some_iff.mp hres
    cases hr
  | accum u =>
    obtain rfl : m.array = i := Trim.accum.inj (Option.some.inj hres)
    exact hl.under rfl he (.surface s) m hm

/-- **Recorded arenas are well-formed.** -/
theorem Records.wellFormed (hs : a.Supplied) : a.WellFormed := by
  have hsound := h.sound
  refine
    { root_lt := hsound.root
      object_eq_none_iff := fun i n hn => ?_
      parent := fun i n e hn he => ?_
      nested := fun i j n hn hj => (hsound.array i j n hn hj).1
      entry := fun i n e hn he => ?_
      place := fun e he => h.place he
      surface_place := fun s n hn => h.surface_place hn
      object_place := fun o ho => h.object_place ho
      objects_size := h.objects_size
      included_length := hsound.included
      included := fun i n q k hn he => ?_
      surfaces := fun i n hn => ?_
      root_surfaces := fun n hn => ?_
      operand := hsound.operand
      collection := fun s i n hn ht => h.collection hn ht
      accumulator := fun i n hn => ?_
      material := fun s n hn => h.materials hn
      texture := hs }
  case refine_1 =>
    obtain ⟨object, lo, hi, content, rfl, hrec, hroot⟩ := h.recordedAt hn
    rw [hrec.object_eq hn, hroot]
  case refine_2 =>
    obtain ⟨object, lo, hi, content, rfl, hrec, -⟩ := h.recordedAt hn
    exact hrec.parent hn he
  case refine_3 =>
    rw [← mem_entries_iff, ← h.perm_entries.mem_iff]
    refine List.mem_flatMap.mpr ⟨i, List.mem_range.mpr (lt_size_of_getElem? hn), ?_⟩
    rw [elements_eq hn]
    exact List.mem_flatMap.mpr ⟨e, he, List.mem_singleton_self e⟩
  case refine_4 =>
    obtain ⟨object, lo, hi, content, rfl, hrec, -⟩ := h.recordedAt hn
    exact hrec.included hn he
  case refine_5 =>
    obtain ⟨object, lo, hi, content, rfl, hrec, -⟩ := h.recordedAt hn
    obtain ⟨path', forced, trims, hrecords⟩ := hrec.2
    refine ⟨⟨_, _, hrec.surfaces_eq hn⟩, fun s => ?_⟩
    rw [hrec.surfaces_eq hn, hrecords.under_iff, List.mem_range'_1]
    omega
  case refine_6 =>
    have hrec : a.RecordedAt d none .start a.marks d.root := ⟨nofun, _, _, _, h⟩
    rw [hrec.surfaces_eq hn, List.range_eq_range']
    rfl
  case refine_7 =>
    obtain ⟨object, lo, hi, content, rfl, hrec, -⟩ := h.recordedAt hn
    exact hrec.accumulator hn

end

omit [Scalar S] in
lemma WellFormed.object_lt (h : a.WellFormed) {e : Element} (he : a.Has e) {o : ℕ}
    (ho : a.elementObject? e = some o) : o < a.objects.size := by
  obtain ⟨⟨i, q⟩, hplace, -⟩ := h.place e he
  have hm := Array.getElem?_eq_getElem (lt_size_of_elements hplace)
  dsimp only at hplace
  rw [elements_eq hm] at hplace
  obtain ⟨o', node, ho', hnode, -⟩ := h.parent _ _ _ hm (List.mem_of_getElem? hplace)
  obtain rfl := Option.some.inj (ho.symm.trans ho')
  exact lt_size_of_getElem? hnode

omit [Scalar S] in
/-- An object comes after the one above it. -/
lemma WellFormed.parent_lt (h : a.WellFormed) {o p : ℕ} {node : ObjectNode S}
    (ho : a.objects[o]? = some node) (hp : node.parent = some p) : p < o := by
  obtain ⟨⟨i, q⟩, ⟨e, he, hobject⟩, -⟩ := h.object_place o (lt_size_of_getElem? ho)
  have hm := Array.getElem?_eq_getElem (lt_size_of_elements he)
  dsimp only at he
  rw [elements_eq hm] at he
  obtain ⟨o', node', ho', hnode, -, hlt⟩ := h.parent _ _ _ hm (List.mem_of_getElem? he)
  obtain rfl := Option.some.inj (hobject.symm.trans ho')
  obtain rfl := Option.some.inj (ho.symm.trans hnode)
  exact hlt p hp

end Arena

/-- **Compiled arenas are well-formed.** -/
theorem compile_wellFormed [Scalar S] {w : Workshop S} {allocator : Allocator} {c : Compiled S}
    (h : (compile w allocator).1 = .ok c) : c.arena.WellFormed :=
  (compile_records h).wellFormed (compile_supplied h)

/-- A copy of a pair of spheres compiles to a root and the array of the pair, with objects for
camera, array and spheres. -/
theorem compile_wellFormed_pair : ∃ c,
    (compile (Pair.workshop Pair.copied) Pair.allocator).1 = .ok c ∧
      c.arena.arrays.toList.map ArrayNode.elements =
        [[.camera 0, .array 1], [.surface 0, .surface 1]] ∧ c.arena.WellFormed := by
  obtain ⟨c, hc⟩ := Pair.exists_compiled
  have helements : ((compile (Pair.workshop Pair.copied) Pair.allocator).1.toOption.map fun c =>
      c.arena.arrays.toList.map ArrayNode.elements) =
        some [[.camera 0, .array 1], [.surface 0, .surface 1]] := by
    decide +kernel
  rw [hc] at helements
  exact ⟨c, hc, Option.some.inj helements, compile_wellFormed hc⟩

end SolidTrace
