import SolidTrace.Proofs.Arena.Levels
import SolidTrace.Proofs.Compile.Expansion
import SolidTrace.Proofs.Compile.Walk

/-!
What the trims of a compiled surface mean.

Compilation leaves one flat list of trims on each surface. It is what the programs of the arrays
above the surface say of the positions on the way down to it, the innermost array first, and so a
point of the surface survives the list exactly when it survives at every level.
-/

namespace SolidTrace

variable {S : Type}

/-- What a level asks of a point of the surface `s`: it lies outside of what the program cuts away
the inside of and inside of what it cuts away the outside of, and where the position is cut by what
the array collects, it lies outside of every surface collected but `s`. -/
structure Level.Keeps (l : Level S) (s : ℕ) (inside : ℕ → Bool) : Prop where
  outer : ∀ ts q r, l.localTrims? = some ts → .outer q ∈ ts → l.node.surfaceAt? q = some r →
    inside r = false
  inner : ∀ ts q r, l.localTrims? = some ts → .inner q ∈ ts → l.node.surfaceAt? q = some r →
    inside r = true
  accum : ∀ ts, l.localTrims? = some ts → .accum () ∈ ts → ∀ r ∈ l.node.accumulator, r ≠ s →
    inside r = false

/-- The flat lists of trims of an arena mean the programs of the document. -/
structure Arena.Flattens (d : Document S) (a : Arena S) : Prop where
  /-- Every surface stands at the end of a chain of positions. -/
  surfaces : ∀ (s : ℕ) (n : SurfaceNode S), a.surfaces[s]? = some n → ∃ l above,
    a.Levels d (l :: above) ∧ l.element? = some (.surface s) ∧ l.array = n.array ∧
      l.position = n.position
  /-- Its trims are those of the levels of the chain, the innermost first. -/
  trims : ∀ (s : ℕ) (n : SurfaceNode S) (l : Level S) (above : List (Level S)),
    a.surfaces[s]? = some n → a.Levels d (l :: above) → l.element? = some (.surface s) →
      chainTrims? (l :: above) = some n.trims
  /-- Every array stands at the end of a chain of positions. -/
  arrays : ∀ (i : ℕ) (n : ArrayNode S), a.arrays[i]? = some n → ∃ above, a.Levels d above ∧
    arrayBelow? above = some i
  /-- Its accumulator is what its program collects. -/
  accumulator : ∀ (i : ℕ) (n : ArrayNode S) (above : List (Level S)), a.arrays[i]? = some n →
    a.Levels d above → arrayBelow? above = some i → ∃ content outcome,
      contentBelow? d above = some content ∧
      Program.run (content.parts.map Part.kind) content.relations = .ok outcome ∧
      outcome.accumulator.mapM n.surfaceAt? = some n.accumulator
  /-- A point survives the trims of a surface when every level keeps it. -/
  passes : ∀ (s : ℕ) (n : SurfaceNode S) (l : Level S) (above : List (Level S)),
    a.surfaces[s]? = some n → a.Levels d (l :: above) → l.element? = some (.surface s) →
      ∀ inside : ℕ → Bool, passesTrims s n.trims a.collected inside = true ↔
        ∀ m ∈ l :: above, m.Keeps s inside
  /-- No surface is trimmed by itself. -/
  spares : ∀ (s : ℕ) (n : SurfaceNode S), a.surfaces[s]? = some n →
    .outer s ∉ n.trims ∧ .inner s ∉ n.trims

section

variable {a : Arena S} {s : ℕ} {inside : ℕ → Bool} {l : Level S}

lemma Level.keeps_iff (hnode : a.arrays[l.array]? = some l.node) {own : List (Trim ℕ ℕ)}
    (hown : l.trims? = some own) :
    (∀ t ∈ own, t.keeps s a.collected inside = true) ↔ l.Keeps s inside := by
  obtain ⟨ts, hts, hmap⟩ := Option.bind_eq_some_iff.mp hown
  have hcollected : a.collected l.array = l.node.accumulator := by
    simp [Arena.collected, hnode]
  constructor
  · intro h
    refine ⟨fun ts' q r hts' hq hr => ?_, fun ts' q r hts' hq hr => ?_,
      fun ts' hts' hacc r hr hne => ?_⟩
    all_goals obtain rfl := Option.some.inj (hts.symm.trans hts')
    · obtain ⟨t, ht, hres⟩ := exists_of_mapM_eq_some hmap hq
      obtain rfl : .outer r = t := by simpa [ArrayNode.resolve?, hr] using hres
      simpa [Trim.keeps] using h _ ht
    · obtain ⟨t, ht, hres⟩ := exists_of_mapM_eq_some hmap hq
      obtain rfl : .inner r = t := by simpa [ArrayNode.resolve?, hr] using hres
      simpa [Trim.keeps] using h _ ht
    · obtain ⟨t, ht, hres⟩ := exists_of_mapM_eq_some hmap hacc
      obtain rfl : .accum l.array = t := by simpa [ArrayNode.resolve?] using hres
      have hall := h _ ht
      simp only [Trim.keeps, hcollected, Bool.not_eq_true', List.any_eq_false, Bool.and_eq_true,
        bne_iff_ne, ne_eq, not_and, Bool.not_eq_true] at hall
      exact hall r hr hne
  · intro h t ht
    obtain ⟨t', ht', hres⟩ := mem_of_mapM_eq_some hmap ht
    cases t' with
    | outer q =>
      obtain ⟨r, hr, rfl⟩ := Option.map_eq_some_iff.mp hres
      simp [Trim.keeps, h.outer ts q r hts ht' hr]
    | inner q =>
      obtain ⟨r, hr, rfl⟩ := Option.map_eq_some_iff.mp hres
      simp [Trim.keeps, h.inner ts q r hts ht' hr]
    | accum u =>
      obtain rfl := Option.some.inj hres
      simp only [Trim.keeps, hcollected, Bool.not_eq_true', List.any_eq_false, Bool.and_eq_true,
        bne_iff_ne, ne_eq, not_and, Bool.not_eq_true]
      exact fun r hr hne => h.accum ts hts ht' r hr hne

lemma Arena.Levels.passes {d : Document S} {levels : List (Level S)} (h : a.Levels d levels)
    {trims : List (Trim ℕ ℕ)} (htrims : chainTrims? levels = some trims) :
    passesTrims s trims a.collected inside = true ↔ ∀ m ∈ levels, m.Keeps s inside := by
  induction h generalizing trims with
  | nil =>
    obtain rfl := Option.some.inj htrims
    simp [passesTrims]
  | @cons l above rest array node content ih =>
    obtain ⟨own, rest, hown, hrest, rfl⟩ := chainTrims?_cons.mp htrims
    have hhere : (∀ t ∈ own, t.keeps s a.collected inside = true) ↔ l.Keeps s inside :=
      Level.keeps_iff node hown
    have habove := ih hrest
    simp only [passesTrims, List.all_append, Bool.and_eq_true, List.forall_mem_cons] at habove ⊢
    rw [habove, ← hhere, List.all_eq_true]

end

variable [Scalar S]

/-- **Flat trims mean nested programs.** -/
theorem compile_flattens {w : Workshop S} {allocator : Allocator} {c : Compiled S}
    (h : (compile w allocator).1 = .ok c) : c.arena.Flattens w.document := by
  have hrec := compile_records h
  obtain ⟨hsurfaces, harrays⟩ := hrec.reaches .nil rfl rfl
  have hshows : ∀ {s n l above}, c.arena.surfaces[s]? = some n →
      c.arena.Levels w.document (l :: above) → l.element? = some (.surface s) →
      n.array = l.array ∧ n.position = l.position ∧ chainTrims? (l :: above) = some n.trims ∧
        Spares s n.trims := by
    intro s n l above hn hl he
    obtain ⟨n', hn', hrest⟩ := hl.shows hrec he
    obtain rfl := Option.some.inj (hn.symm.trans hn')
    exact hrest
  refine ⟨fun s n hn => ?_, fun s n l above hn hl he => (hshows hn hl he).2.2.1,
    fun i n hn => ?_, fun i n above hn habove hi => ?_, fun s n l above hn hl he inside => ?_,
    fun s n hn => ?_⟩
  · obtain ⟨l, above, hl, he⟩ := hsurfaces s (Nat.zero_le _) (Array.getElem?_eq_some_iff.mp hn).1
    obtain ⟨harray, hposition, -⟩ := hshows hn hl he
    exact ⟨l, above, hl, he, harray.symm, hposition.symm⟩
  · exact harrays i (Nat.zero_le _) (Array.getElem?_eq_some_iff.mp hn).1
  · obtain ⟨lo, hi, content, trims, rfl, hmade, -, -, object, path, forced, hrec⟩ :=
      habove.ends hrec hi
    cases hrec with
    | @mk _ _ _ _ _ _ _ n' outcome cut own hnode closes =>
      obtain rfl := Option.some.inj (hn.symm.trans hnode)
      exact ⟨content, outcome, hmade, closes.run, closes.accumulator⟩
  · exact hl.passes (hshows hn hl he).2.2.1
  · obtain ⟨l, above, hl, he⟩ := hsurfaces s (Nat.zero_le _) (Array.getElem?_eq_some_iff.mp hn).1
    have hspares := (hshows hn hl he).2.2.2
    exact ⟨fun hmem => (hspares _ hmem).1 rfl, fun hmem => (hspares _ hmem).2 rfl⟩

/-- In a copy of a pair of spheres the first one lacks what is inside the second one. -/
theorem compile_pair_flattens : ∃ c,
    (compile (Pair.workshop Pair.copied) Pair.allocator).1 = .ok c ∧
      c.arena.surfaces.toList.map SurfaceNode.trims = [[.outer 1], []] ∧
      c.arena.Flattens Pair.copied := by
  obtain ⟨c, hc⟩ := Pair.exists_compiled
  have htrims : ((compile (Pair.workshop Pair.copied) Pair.allocator).1.toOption.map fun c =>
      c.arena.surfaces.toList.map SurfaceNode.trims) = some [[.outer 1], []] := by
    decide +kernel
  rw [hc] at htrims
  exact ⟨c, hc, Option.some.inj htrims, compile_flattens hc⟩

end SolidTrace
