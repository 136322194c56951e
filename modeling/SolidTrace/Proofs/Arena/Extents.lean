import SolidTrace.Proofs.Arena.Volumes
import SolidTrace.Proofs.Compile.Walk

/-!
Extents of compiled arrays.

A compiled array has the volume of its elements where they are declared to stand, `Records.sized`.
So its extent holds the boxes of all elements and its bounds those of the elements that count, level
by level.
-/

namespace SolidTrace

open Extended

lemma Box.definite_of_transformed {b : Box Extended} {t : Transform Extended}
    (h : (b.transformed t).isEmpty = false) : (b.transformed t).Definite := by
  cases hb : b.isEmpty with
  | true =>
    rw [isEmpty_transformed hb] at h
    cases h
  | false => exact definite_transformed hb t

namespace Arena

section

variable {S : Type} [Scalar S] {d : Document S} {a : Arena S} {path : String}

/-- **Every array has been given the volume of its elements.** -/
theorem Records.sized (h : a.Records d .start a.marks none path none [] d.root) {i : ℕ}
    {n : ArrayNode S} (hn : a.arrays[i]? = some n) : n.Sized a := by
  obtain ⟨object, lo, hi, content, rfl, ⟨-, path', forced, trims, hrecords⟩, -⟩ :=
    h.recordedAt hn
  cases hrecords with
  | mk cut own node closes first last own_eq stands nested sized =>
    obtain rfl := Option.some.inj (hn.symm.trans node)
    exact sized

end

variable {a : Arena Extended} {n : ArrayNode Extended}

lemma contains_of_sized (hn : n.Sized a) {k : ℕ} {e : Element} (he : n.elements[k]? = some e)
    {counts : Bool} (hk : n.included[k]? = some counts) {b : Box Extended} {o : ℕ}
    (hb : a.elementBox? a.givenVolumes e = some (b, o)) :
    n.volume.extent.contains (b.transformed (a.declared o)) 0 = true ∧
      (counts = true → n.volume.bounds.contains (b.transformed (a.declared o)) 0 = true) := by
  rw [hn, volumeOf]
  refine Volume.contains_ofBoxes (b := (b.transformed (a.declared o), counts))
    (List.mem_filterMap.mpr ⟨(e, counts), ?_, ?_⟩) Box.definite_of_transformed
  · exact List.mem_of_getElem? (List.getElem?_zip_eq_some.mpr ⟨he, hk⟩)
  · exact congrArg (Option.map _) hb

end Arena

/-- **Boxes are moved and joined without loss.** The image of a box holds the image of every point
in it, and that of an empty box is empty. A join holds the points of its boxes and lies in every box
that holds those of them that are not empty. So the volume of a compiled array holds the boxes of
its elements, where they are declared to stand. -/
theorem boxes_conservative :
    (∀ (b : Box Extended) (f : Affine) (p : Vec ℝ), b.Spans p.real →
      (b.transformed f.transform).Spans (f.transform.applyPoint p.real)) ∧
    (∀ (b : Box Extended) (t : Transform Extended), b.isEmpty = true →
      (b.transformed t).isEmpty = true) ∧
    (∀ boxes : List (Box Extended),
      (∀ b ∈ boxes, ∀ p : Vec Extended, b.Spans p → (boxes.foldl Box.join Box.empty).Spans p) ∧
      ∀ c : Box Extended, (∀ b ∈ boxes, b.isEmpty = false → c.contains b 0 = true) →
        c.contains (boxes.foldl Box.join Box.empty) 0 = true) ∧
    ∀ (w : Workshop Extended) (allocator : Allocator) (c : Compiled Extended),
      (compile w allocator).1 = .ok c → ∀ (i k o : ℕ) (n : ArrayNode Extended) (e : Element)
        (b : Box Extended), c.arena.arrays[i]? = some n → n.elements[k]? = some e →
        c.arena.elementBox? c.arena.givenVolumes e = some (b, o) →
          n.volume.extent.contains (b.transformed (c.arena.declared o)) 0 = true ∧
            (n.included[k]? = some true →
              n.volume.bounds.contains (b.transformed (c.arena.declared o)) 0 = true) := by
  refine ⟨fun b f p h => ?_, fun b t h => Box.isEmpty_transformed h t, fun boxes => ⟨?_, ?_⟩, ?_⟩
  · rw [f.applyPoint_transform]
    exact Box.Encloses.transformed h f
  · exact fun b hb p h => Box.spans_foldl_join hb h _
  · exact fun c h => Box.contains_foldl_join_empty h
  · intro w allocator c hc i k o n e b hn he hb
    have hrecords := compile_records hc
    have hlength := (hrecords.wellFormed (compile_supplied hc)).included_length i n hn
    obtain ⟨counts, hcounts⟩ : ∃ counts, n.included[k]? = some counts :=
      ⟨_, List.getElem?_eq_getElem (hlength ▸ (List.getElem?_eq_some_iff.mp he).1)⟩
    obtain ⟨hextent, hbounds⟩ := Arena.contains_of_sized (hrecords.sized hn) he hcounts hb
    refine ⟨hextent, fun hk => hbounds ?_⟩
    exact Option.some.inj (hcounts.symm.trans hk)

lemma Build.clipBound_real {r : ℝ} (h : |r| < 10 ^ 30) : clipBound (real r) = real r := by
  obtain ⟨hlow, hhigh⟩ := abs_lt.mp h
  have hunbounded : (unbounded : Extended) = real (10 ^ 30) := by
    change real (if false = true then _ else ((1 : ℕ) : ℝ) * 10 ^ 30) = _
    rw [if_neg Bool.false_ne_true, Nat.cast_one, one_mul]
  simp only [clipBound, hunbounded, real_neg, real_le_real, if_neg hlow.not_ge, if_neg hhigh.not_ge]

namespace Ball

noncomputable def header : Header Extended := ⟨none, Placement.identity, none, none, 0⟩

noncomputable def surface : Surface Extended where
  shape := .sphere 1
  clip := ⟨Vec.splat (.real (-1)), Vec.splat (.real 1)⟩
  outer := ⟨Mapping.identity, "m"⟩
  inner := ⟨Mapping.identity, "m"⟩

noncomputable def document : Document Extended where
  version := "1"
  materials := Dict.empty.insert "m" ⟨.plain, "t", 1, 1, 1, 0, 0, 0, none, none⟩
  textures := Dict.empty.insert "t" (.color 0)
  library := Dict.empty
  root := ⟨[.camera header ⟨0, 1, 1, Camera.defaultSpeed, Camera.defaultTurning⟩,
    .surface header surface], []⟩

noncomputable def workshop : Workshop Extended := ⟨document, Registry.empty, fun _ => .error ""⟩

def allocator : Allocator := .heap (Heap.ofBudget none)

lemma clipBox_eq (path : String) : Build.clipBox surface.clip path = .ok surface.clip := by
  have hbound : ∀ r : ℝ, |r| = 1 → Build.clipBound (real r) = real r := fun r hr =>
    Build.clipBound_real (by rw [hr]; norm_num)
  have hmin : surface.clip.min.map Build.clipBound = surface.clip.min := by
    simp [surface, Vec.splat, Vec.map, hbound]
  have hmax : surface.clip.max.map Build.clipBound = surface.clip.max := by
    simp [surface, Vec.splat, Vec.map, hbound]
  have hkeep : ∀ a : Axis, ¬((Scalar.isNaN (surface.clip.min.get a) ||
      Scalar.isNaN (surface.clip.max.get a) ||
        decide (surface.clip.max.get a < surface.clip.min.get a)) = true) := fun a => by
    cases a <;> simp [surface, Vec.splat, Vec.get, not_isNaN_real]
  simp only [Build.clipBox, hmin, hmax, hkeep]
  rfl

lemma exists_compiled : ∃ c, (compile workshop allocator).1 = .ok c ∧
    c.arena.arrays.toList.map ArrayNode.elements = [[.camera 0, .surface 0]] ∧
    c.arena.surfaces.size = 1 := by
  have hread : (compile workshop allocator).1.toOption.map (fun c =>
      (c.arena.arrays.toList.map ArrayNode.elements, c.arena.surfaces.size)) =
        some ([[.camera 0, .surface 0]], 1) := by
    simp only [compile, Build.document, Build.array, Build.arrayFilled, Build.parts, Build.part,
      Build.surface, workshop, document, clipBox_eq]
    decide +kernel
  rcases hc : (compile workshop allocator).1 with e | c
  · rw [hc] at hread
    cases hread
  · rw [hc] at hread
    obtain ⟨helements, hsize⟩ := Prod.mk.inj (Option.some.inj hread)
    exact ⟨c, rfl, helements, hsize⟩

end Ball

/-- The root of a compiled document holds the box of a ball in it. -/
theorem boxes_conservative_ball : ∃ c n b o,
    (compile Ball.workshop Ball.allocator).1 = .ok c ∧ c.arena.arrays[0]? = some n ∧
      c.arena.elementBox? c.arena.givenVolumes (.surface 0) = some (b, o) ∧
      n.volume.extent.contains (b.transformed (c.arena.declared o)) 0 = true := by
  obtain ⟨c, hc, helements, hsize⟩ := Ball.exists_compiled
  obtain ⟨n, hn, hne⟩ : ∃ n, c.arena.arrays[0]? = some n ∧
      n.elements = [.camera 0, .surface 0] := by
    have hfirst := congrArg (·[0]?) helements
    simpa using hfirst
  obtain ⟨s, hs⟩ : ∃ s, c.arena.surfaces[0]? = some s :=
    ⟨_, Array.getElem?_eq_getElem (hsize ▸ Nat.zero_lt_one)⟩
  have hbox : c.arena.elementBox? c.arena.givenVolumes (.surface 0) =
      some (s.bounds, s.object) := by
    rw [Arena.elementBox?, hs, Option.map_some]
  refine ⟨c, n, s.bounds, s.object, hc, hn, hbox, ?_⟩
  exact (boxes_conservative.2.2.2 Ball.workshop Ball.allocator c hc 0 1 s.object n (.surface 0)
    s.bounds hn (by rw [hne]; rfl) hbox).1

end SolidTrace
