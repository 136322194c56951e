import Mathlib.Data.List.Nodup
import SolidTrace.Proofs.Arena.Levels

/-!
Entries and the elements that name them.

The elements of the arrays of an arena name its entries. `Records.census` counts them: between two
marks, the elements of all arrays there name what was entered there, each entry once. What is
counted is left open, so that arrays, objects and elements are counted by one induction.
-/

namespace SolidTrace

variable {S : Type}

def Arena.elements (a : Arena S) (i : ℕ) : List Element := (a.arrays[i]?.map (·.elements)).getD []

lemma Arena.elements_eq {a : Arena S} {i : ℕ} {n : ArrayNode S} (hn : a.arrays[i]? = some n) :
    a.elements i = n.elements := by
  rw [elements, hn]
  rfl

def Element.array? : Element → Option ℕ
  | .array i => some i
  | .surface _ | .camera _ | .light _ => none

section

variable {α β : Type} {names : α → List β} {y : β}

lemma place_unique {l : List α} (h : (l.flatMap names).Nodup) {q r : ℕ} {x x' : α}
    (hq : l[q]? = some x) (hr : l[r]? = some x') (hx : y ∈ names x) (hx' : y ∈ names x') :
    q = r := by
  have hpairs := (List.nodup_flatMap.mp h).2
  rw [List.pairwise_iff_getElem] at hpairs
  obtain ⟨hqlt, rfl⟩ := List.getElem?_eq_some_iff.mp hq
  obtain ⟨hrlt, rfl⟩ := List.getElem?_eq_some_iff.mp hr
  rcases Nat.lt_trichotomy q r with hlt | heq | hlt
  · exact (hpairs q r hqlt hrlt hlt hx hx').elim
  · exact heq
  · exact (hpairs r q hrlt hqlt hlt hx' hx).elim

/-- Where the rows of a table name everything in a list once, each name has one place. -/
lemma existsUnique_place {rows : ℕ → List α} {m : ℕ} {l : List β}
    (h : ((List.range m).flatMap fun i => (rows i).flatMap names).Perm l) (hl : l.Nodup)
    (hy : y ∈ l) : ∃! x : ℕ × ℕ, x.1 < m ∧ ∃ e, (rows x.1)[x.2]? = some e ∧ y ∈ names e := by
  have hnodup := h.nodup_iff.mpr hl
  obtain ⟨i, hi, hrow⟩ := List.mem_flatMap.mp (h.mem_iff.mpr hy)
  obtain ⟨e, he, hye⟩ := List.mem_flatMap.mp hrow
  obtain ⟨q, hq⟩ := List.mem_iff_getElem?.mp he
  rw [List.mem_range] at hi
  refine ⟨(i, q), ⟨hi, e, hq, hye⟩, ?_⟩
  rintro ⟨i', q'⟩ ⟨hi', e', hq', hye'⟩
  have hrow' : y ∈ (rows i').flatMap names :=
    List.mem_flatMap.mpr ⟨e', List.mem_of_getElem? hq', hye'⟩
  obtain rfl : i' = i :=
    place_unique hnodup (List.getElem?_range hi') (List.getElem?_range hi) hrow' hrow
  have hinner := (List.nodup_flatMap.mp hnodup).1 i' (List.mem_range.mpr hi)
  obtain rfl : q' = q := place_unique hinner hq' hq hye' hye
  rfl

end

variable [Scalar S] {d : Document S} {a : Arena S}

/-- What elements name, and a list of all that can be named between two marks: what is entered for
an element comes first, and what is below it after that. -/
structure Census {β : Type} (d : Document S) (a : Arena S) (names : Element → List β)
    (between : Marks → Marks → List β) : Prop where
  nil : ∀ m, between m m = []
  append : ∀ {lo mid hi : Marks}, lo ≤ mid → mid ≤ hi →
    (between lo mid ++ between mid hi).Perm (between lo hi)
  leaf : ∀ {spot : Build.Spot} {path : String} {forced : Option Override} {trims : List (Trim ℕ ℕ)}
    {lo hi : Marks} {e : Element} {p : Part S}, e.Stands d a spot path forced trims lo hi p →
      e.array? = none → (names e).Perm (between lo hi)
  array : ∀ {lo hi : Marks} {n : ArrayNode S}, a.arrays[lo.arrays]? = some n →
    n.object = some lo.objects → lo.addObject.addArray ≤ hi →
      (names (.array lo.arrays) ++ between lo.addObject.addArray hi).Perm (between lo hi)

section

variable {β : Type} {names : Element → List β} {between : Marks → Marks → List β} {lo hi : Marks}
  {object : Option ℕ} {path : String} {forced : Option Override} {trims : List (Trim ℕ ℕ)}
  {content : Assembly S}

lemma Element.Stands.arrays_eq {spot : Build.Spot} {e : Element} {p : Part S}
    (h : e.Stands d a spot path forced trims lo hi p) (he : e.array? = none) :
    hi.arrays = lo.arrays := by
  cases h with
  | camera => rfl
  | light => rfl
  | surface => rfl
  | array => cases he

/-- **Every entry is named once.** The elements of the arrays between two marks name what there is
to be named between them, but for the first array itself. -/
theorem Arena.Records.census (hc : Census d a names between)
    (h : a.Records d lo hi object path forced trims content) :
    ((List.range' lo.arrays (hi.arrays - lo.arrays)).flatMap fun i =>
      (a.elements i).flatMap names).Perm (between lo.addArray hi) := by
  induction h with
  | @mk lo hi object path forced trims content n outcome cut own node closes first last own_eq
      stands nested sized ih =>
    -- the elements before a position, with what is below them
    have hbefore : ∀ m ≤ content.parts.length, ((n.elements.take m).flatMap names ++
        (List.range' (cut 0).arrays ((cut m).arrays - (cut 0).arrays)).flatMap fun i =>
          (a.elements i).flatMap names).Perm (between (cut 0) (cut m)) := by
      intro m hm
      induction m with
      | zero => simp [hc.nil]
      | succ m ihm =>
        obtain ⟨e, p, he, hp, hs⟩ := exists_stands closes stands hm
        have hle := cut_le closes.length stands (Nat.zero_le m) (by omega)
        have hle' := cut_le closes.length stands (Nat.le_add_right m 1) hm
        have hhere : (names e ++ (List.range' (cut m).arrays
            ((cut (m + 1)).arrays - (cut m).arrays)).flatMap fun i =>
              (a.elements i).flatMap names).Perm (between (cut m) (cut (m + 1))) := by
          rcases harray : e.array? with _ | i
          · simpa [hs.arrays_eq harray] using hc.leaf hs harray
          · generalize hcut : cut (m + 1) = next at hs
            cases hs with
            | array hinner hle object =>
              obtain ⟨n', hn', hobject'⟩ := (nested m p _ hp hinner).entry
              subst hcut
              exact ((ih m p _ hp hinner).append_left _).trans (hc.array hn' hobject' hle)
            | camera => cases harray
            | light => cases harray
            | surface => cases harray
        rw [← range'_append_range' hle.arrays hle'.arrays, List.take_add_one, he,
          List.flatMap_append, List.flatMap_append]
        refine List.Perm.trans ?_ (((ihm (by omega)).append hhere).trans (hc.append hle hle'))
        simp only [Option.toList_some, List.flatMap_singleton, List.append_assoc]
        refine List.Perm.append_left _ ?_
        rw [← List.append_assoc, ← List.append_assoc]
        exact List.perm_append_comm.append_right _
    have hall := hbefore _ (Nat.le_refl _)
    rw [List.take_of_length_le closes.length.le, first, last] at hall
    have hle := (cut_le closes.length stands (Nat.zero_le _)
      (Nat.le_refl content.parts.length)).arrays
    rw [first, last, Marks.addArray_arrays] at hle
    rw [Marks.addArray_arrays] at hall
    rw [show hi.arrays - lo.arrays = (hi.arrays - (lo.arrays + 1)) + 1 by omega,
      List.range'_succ, List.flatMap_cons, Arena.elements_eq node]
    exact hall

end

/-- The numbers from one mark of a table to the next. -/
def Marks.span (table : Marks → ℕ) (lo hi : Marks) : List ℕ :=
  List.range' (table lo) (table hi - table lo)

/-- The elements that can stand for the entries between two marks. -/
def Marks.entries (lo hi : Marks) : List Element :=
  (span Marks.surfaces lo hi).map .surface ++ (span Marks.arrays lo hi).map .array ++
    (span Marks.cameras lo hi).map .camera ++ (span Marks.lights lo hi).map .light

section

variable {lo mid hi : Marks} {table : Marks → ℕ}

lemma span_self : Marks.span table lo lo = [] := by simp [Marks.span]

lemma span_append (h : table lo ≤ table mid) (h' : table mid ≤ table hi) :
    Marks.span table lo mid ++ Marks.span table mid hi = Marks.span table lo hi :=
  range'_append_range' h h'

lemma span_succ (h : table mid = table lo + 1) (h' : table mid ≤ table hi) :
    table lo :: Marks.span table mid hi = Marks.span table lo hi := by
  rw [Marks.span, Marks.span, show table hi - table lo = (table hi - table mid) + 1 by omega,
    List.range'_succ, h]

lemma span_of_eq (h : table hi = table lo) : Marks.span table lo hi = [] := by
  simp [Marks.span, h]

lemma span_of_succ (h : table hi = table lo + 1) : Marks.span table lo hi = [table lo] := by
  simp [Marks.span, h]

lemma nodup_span : (Marks.span table lo hi).Nodup := List.nodup_range'

lemma nodup_entries : (Marks.entries lo hi).Nodup := by
  have hmap : ∀ (table : Marks → ℕ) {f : ℕ → Element}, Function.Injective f →
      ((Marks.span table lo hi).map f).Nodup := fun _ _ hf => nodup_span.map hf
  have hsurfaces := hmap Marks.surfaces fun i j h => Element.surface.inj h
  have harrays := hmap Marks.arrays fun i j h => Element.array.inj h
  have hcameras := hmap Marks.cameras fun i j h => Element.camera.inj h
  have hlights := hmap Marks.lights fun i j h => Element.light.inj h
  refine ((hsurfaces.append harrays ?_).append hcameras ?_).append hlights ?_
  all_goals
    rw [List.disjoint_left]
    intro e he he'
    cases e <;> simp at he he'

end

lemma census_arrays : Census d a (fun e => e.array?.toList) (Marks.span Marks.arrays) where
  nil _ := span_self
  append h h' := .of_eq (span_append h.arrays h'.arrays)
  leaf hs he := by
    rw [he, span_of_eq (hs.arrays_eq he)]
    rfl
  array _ _ hle := .of_eq (span_succ rfl hle.arrays)

lemma census_objects : Census d a (fun e => (a.elementObject? e).toList)
    (Marks.span Marks.objects) where
  nil _ := span_self
  append h h' := .of_eq (span_append h.objects h'.objects)
  leaf hs he := by
    cases hs with
    | camera object node =>
      rw [span_of_succ rfl, Arena.elementObject?, node]
      rfl
    | light object node =>
      rw [span_of_succ rfl, Arena.elementObject?, node]
      rfl
    | surface object node stands =>
      rw [span_of_succ rfl, Arena.elementObject?, node, Option.map_some, stands.object]
      rfl
    | array => cases he
  array hn hobject hle := by
    rw [Arena.elementObject?, hn, Option.bind_some, hobject]
    exact .of_eq (span_succ rfl hle.objects)

lemma census_elements : Census d a (fun e => [e]) Marks.entries where
  nil _ := by simp [Marks.entries, span_self]
  append h h' := by
    simp only [Marks.entries, ← span_append h.surfaces h'.surfaces,
      ← span_append h.arrays h'.arrays, ← span_append h.cameras h'.cameras,
      ← span_append h.lights h'.lights, List.map_append]
    rw [List.perm_iff_count]
    intro e
    simp only [List.count_append]
    omega
  leaf hs he := by
    cases hs with
    | camera => simp [Marks.entries, Marks.span]
    | light => simp [Marks.entries, Marks.span]
    | surface => simp [Marks.entries, Marks.span]
    | array => cases he
  array {lo hi n} _ _ hle := by
    have hspan : Marks.span Marks.arrays lo hi =
        lo.arrays :: Marks.span Marks.arrays lo.addObject.addArray hi :=
      (span_succ rfl hle.arrays).symm
    simp only [Marks.entries, hspan, List.map_cons, List.append_assoc, List.cons_append,
      List.nil_append]
    exact List.perm_middle.symm

end SolidTrace
