import SolidTrace.Proofs.Arena.Census

/-!
Arenas that can be walked.

In a recorded arena every reference leads to an entry, and the arrays form a tree: each but the root
stands in exactly one array, which comes before it.
-/

namespace SolidTrace

variable {S : Type}

def Trim.operand? : Trim ℕ ℕ → Option ℕ
  | .outer s | .inner s => some s
  | .accum _ => none

/-- A surface is an element, or stands in the array that is one, or below. -/
inductive Arena.Under (a : Arena S) : Element → ℕ → Prop
  | surface (s : ℕ) : Under a (.surface s) s
  | array {i s : ℕ} {n : ArrayNode S} {e : Element} (node : a.arrays[i]? = some n)
      (mem : e ∈ n.elements) (under : Under a e s) : Under a (.array i) s

namespace Arena

/-- The arrays that stand in an array, in their order. -/
def children (a : Arena S) (i : ℕ) : List ℕ :=
  match a.arrays[i]? with
  | none => []
  | some n => n.elements.filterMap Element.array?

lemma children_eq {a : Arena S} {i : ℕ} {n : ArrayNode S} (hn : a.arrays[i]? = some n) :
    a.children i = n.elements.filterMap Element.array? := by
  unfold children
  rw [hn]

lemma mem_children {a : Arena S} {i j : ℕ} {n : ArrayNode S} (hn : a.arrays[i]? = some n) :
    j ∈ a.children i ↔ .array j ∈ n.elements := by
  rw [children_eq hn, List.mem_filterMap]
  constructor
  · rintro ⟨e, he, hj⟩
    cases e with
    | array => exact Option.some.inj hj ▸ he
    | surface => cases hj
    | camera => cases hj
    | light => cases hj
  · exact fun h => ⟨_, h, rfl⟩

/-- Every reference leads to an entry, and the arrays form a tree below the root. -/
structure Sound (a : Arena S) : Prop where
  root : 0 < a.arrays.size
  surface : ∀ (i s : ℕ) (n : ArrayNode S), a.arrays[i]? = some n → .surface s ∈ n.elements →
    s < a.surfaces.size
  array : ∀ (i j : ℕ) (n : ArrayNode S), a.arrays[i]? = some n → .array j ∈ n.elements →
    i < j ∧ j < a.arrays.size
  included : ∀ (i : ℕ) (n : ArrayNode S), a.arrays[i]? = some n →
    n.included.length = n.elements.length
  accumulator : ∀ (i : ℕ) (n : ArrayNode S), a.arrays[i]? = some n →
    ∀ s ∈ n.accumulator, s < a.surfaces.size
  operand : ∀ (s r : ℕ) (n : SurfaceNode S) (t : Trim ℕ ℕ), a.surfaces[s]? = some n → t ∈ n.trims →
    t.operand? = some r → r < a.surfaces.size
  collection : ∀ (s i : ℕ) (n : SurfaceNode S), a.surfaces[s]? = some n → .accum i ∈ n.trims →
    i < a.arrays.size
  placed : ∀ s < a.surfaces.size, ∃ (i : ℕ) (n : ArrayNode S), a.arrays[i]? = some n ∧
    .surface s ∈ n.elements
  tree : (Arena.root :: (List.range a.arrays.size).flatMap a.children).Perm
    (List.range a.arrays.size)

variable [Scalar S] {d : Document S} {a : Arena S} {lo hi : Marks} {object : Option ℕ}
  {path : String} {forced : Option Override} {trims : List (Trim ℕ ℕ)} {content : Assembly S}

/-- Between its marks, an array and the children of all arrays there are all arrays there. -/
lemma Records.tree (h : a.Records d lo hi object path forced trims content) :
    (lo.arrays :: (List.range' lo.arrays (hi.arrays - lo.arrays)).flatMap a.children).Perm
      (List.range' lo.arrays (hi.arrays - lo.arrays)) := by
  have hchildren : a.children = fun i => (a.elements i).flatMap fun e => e.array?.toList := by
    funext i
    rw [children, elements, ← List.filterMap_eq_flatMap_toList]
    rcases a.arrays[i]? with _ | n
    · rfl
    · rfl
  rw [hchildren]
  have hspan :
      lo.arrays :: Marks.span Marks.arrays lo.addArray hi = Marks.span Marks.arrays lo hi :=
    span_succ rfl h.addArray_le.arrays
  exact ((h.census census_arrays).cons lo.arrays).trans (.of_eq hspan)

lemma lt_size_of_getElem? {α : Type} {t : Array α} {i : ℕ} {x : α} (h : t[i]? = some x) :
    i < t.size := (Array.getElem?_eq_some_iff.mp h).1

lemma Records.elements (h : a.Records d lo hi object path forced trims content) :
    ∃ n, a.arrays[lo.arrays]? = some n ∧ n.included.length = n.elements.length ∧
      (∀ s, .surface s ∈ n.elements → s < a.surfaces.size) ∧
      (∀ j, .array j ∈ n.elements → lo.arrays < j ∧ j < a.arrays.size) ∧
      ∀ s ∈ n.accumulator, s < a.surfaces.size := by
  cases h with
  | @mk _ _ _ _ _ _ _ n outcome cut own node closes first last own_eq stands nested =>
    have hsurface : ∀ {s}, .surface s ∈ n.elements → s < a.surfaces.size := by
      intro s hs
      obtain ⟨q, hq⟩ := List.mem_iff_getElem?.mp hs
      obtain ⟨-, -, node, hnode, -⟩ := surface_stands closes stands hq
      exact lt_size_of_getElem? hnode
    refine ⟨n, node, ?_, fun s => hsurface, fun j hj => ?_, fun s hs => ?_⟩
    · rw [closes.included, (Program.run_fits closes.run).included_length, List.length_map,
        closes.length]
    · obtain ⟨q, hq⟩ := List.mem_iff_getElem?.mp hj
      obtain ⟨rfl, p, inner, hp, hinner⟩ := array_stands closes stands hq
      have hcut := (cut_le closes.length stands (Nat.zero_le q)
        (List.getElem?_eq_some_iff.mp hp).1.le).arrays
      rw [first] at hcut
      cases nested q p inner hp hinner with
      | mk _ _ hnode => exact ⟨hcut, lt_size_of_getElem? hnode⟩
    · obtain ⟨q, -, hq⟩ := mem_of_mapM_eq_some closes.accumulator hs
      exact hsurface (List.mem_of_getElem? (ArrayNode.surfaceAt?_eq_some.mp hq))

section

variable (h : a.Records d .start a.marks none path none [] d.root)

include h

lemma Records.array_elements {i : ℕ} {n : ArrayNode S} (hn : a.arrays[i]? = some n) :
    n.included.length = n.elements.length ∧
      (∀ s, .surface s ∈ n.elements → s < a.surfaces.size) ∧
      (∀ j, .array j ∈ n.elements → i < j ∧ j < a.arrays.size) ∧
      ∀ s ∈ n.accumulator, s < a.surfaces.size := by
  obtain ⟨-, harrays⟩ := h.reaches .nil rfl rfl
  obtain ⟨levels, hlevels, hi⟩ := harrays i (Nat.zero_le _) (lt_size_of_getElem? hn)
  obtain ⟨lo, hi, content, trims, rfl, -, -, -, object, path, forced, hrec⟩ := hlevels.ends h hi
  obtain ⟨n', hn', hrest⟩ := hrec.elements
  obtain rfl := Option.some.inj (hn.symm.trans hn')
  exact hrest

lemma Records.surfaceAt_lt {i p s : ℕ} {n : ArrayNode S} (hn : a.arrays[i]? = some n)
    (hs : n.surfaceAt? p = some s) : s < a.surfaces.size :=
  (h.array_elements hn).2.1 _ (List.mem_of_getElem? (ArrayNode.surfaceAt?_eq_some.mp hs))

/-- A trim comes from an array above its surface. -/
lemma Records.exists_resolve {s : ℕ} {n : SurfaceNode S} {t : Trim ℕ ℕ}
    (hn : a.surfaces[s]? = some n) (ht : t ∈ n.trims) :
    ∃ (i : ℕ) (m : ArrayNode S) (t' : Program.LocalTrim), a.arrays[i]? = some m ∧
      m.resolve? i t' = some t := by
  obtain ⟨hsurfaces, -⟩ := h.reaches .nil rfl rfl
  obtain ⟨l, above, hl, he⟩ := hsurfaces s (Nat.zero_le _) (lt_size_of_getElem? hn)
  obtain ⟨n', hn', -, -, htrims, -⟩ := hl.shows h he
  obtain rfl := Option.some.inj (hn.symm.trans hn')
  obtain ⟨lists, hlists, hflat⟩ := Option.map_eq_some_iff.mp htrims
  obtain ⟨own, hown, ht⟩ := List.mem_flatten.mp (hflat ▸ ht)
  obtain ⟨m, hm, hmown⟩ := mem_of_mapM_eq_some hlists hown
  obtain ⟨ts, -, hmap⟩ := Option.bind_eq_some_iff.mp hmown
  obtain ⟨t', -, hres⟩ := mem_of_mapM_eq_some hmap ht
  exact ⟨m.array, m.node, t', hl.node_of_mem hm, hres⟩

/-- **Recorded arenas can be walked.** -/
theorem Records.sound : a.Sound := by
  refine ⟨?_, fun i s n hn => (h.array_elements hn).2.1 s,
    fun i j n hn => (h.array_elements hn).2.2.1 j, fun i n hn => (h.array_elements hn).1,
    fun i n hn => (h.array_elements hn).2.2.2, fun s r n t hn ht hr => ?_,
    fun s i n hn ht => ?_, fun s hs => ?_, ?_⟩
  · have hle := h.addArray_le.arrays
    exact hle
  · obtain ⟨i, m, t', hm, hres⟩ := h.exists_resolve hn ht
    cases t' with
    | outer p =>
      obtain ⟨s', hs', rfl⟩ := Option.map_eq_some_iff.mp hres
      exact Option.some.inj hr ▸ h.surfaceAt_lt hm hs'
    | inner p =>
      obtain ⟨s', hs', rfl⟩ := Option.map_eq_some_iff.mp hres
      exact Option.some.inj hr ▸ h.surfaceAt_lt hm hs'
    | accum u =>
      obtain rfl := Option.some.inj hres
      cases hr
  · obtain ⟨j, m, t', hm, hres⟩ := h.exists_resolve hn ht
    cases t' with
    | outer p =>
      obtain ⟨s', -, hs'⟩ := Option.map_eq_some_iff.mp hres
      cases hs'
    | inner p =>
      obtain ⟨s', -, hs'⟩ := Option.map_eq_some_iff.mp hres
      cases hs'
    | accum u =>
      obtain rfl : j = i := Trim.accum.inj (Option.some.inj hres)
      exact lt_size_of_getElem? hm
  · obtain ⟨hsurfaces, -⟩ := h.reaches .nil rfl rfl
    obtain ⟨l, above, hl, he⟩ := hsurfaces s (Nat.zero_le _) hs
    exact ⟨l.array, l.node, hl.node_of_mem List.mem_cons_self, List.mem_of_getElem? he⟩
  · rw [List.range_eq_range']
    exact h.tree

end

end Arena

end SolidTrace
