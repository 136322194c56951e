import SolidTrace.Proofs.Arena.Records
import SolidTrace.Proofs.Lookup
import SolidTrace.Proofs.Program.Outcome

/-!
The levels above a surface.

A surface stands at a position of an array, which stands at a position of another one, up to the
root. `Levels` are such chains of positions, the innermost first, each with the array of the
document that the array of the arena was made from. Every surface and every array has one, and along
it the program of each array says what is cut away there.
-/

namespace SolidTrace

variable {S : Type}

section

variable {α β : Type} {f : α → Option β} {l : List α} {r : List β}

lemma mapM_cons_eq_some {x : α} :
    (x :: l).mapM f = some r ↔ ∃ y ys, f x = some y ∧ l.mapM f = some ys ∧ r = y :: ys := by
  simp only [List.mapM_cons, Option.pure_def, Option.bind_eq_bind, Option.bind_eq_some_iff,
    Option.some.injEq]
  constructor
  · rintro ⟨y, hy, ys, hys, rfl⟩
    exact ⟨y, ys, hy, hys, rfl⟩
  · rintro ⟨y, ys, hy, hys, rfl⟩
    exact ⟨y, hy, ys, hys, rfl⟩

lemma mem_of_mapM_eq_some (h : l.mapM f = some r) {y : β} (hy : y ∈ r) : ∃ x ∈ l, f x = some y := by
  induction l generalizing r with
  | nil =>
    obtain rfl := Option.some.inj h
    cases hy
  | cons x l ih =>
    obtain ⟨y', ys, hx, hys, rfl⟩ := mapM_cons_eq_some.mp h
    rcases List.mem_cons.mp hy with rfl | hy
    · exact ⟨x, List.mem_cons_self, hx⟩
    · obtain ⟨x', hx', hf⟩ := ih hys hy
      exact ⟨x', List.mem_cons_of_mem _ hx', hf⟩

lemma exists_of_mapM_eq_some (h : l.mapM f = some r) {x : α} (hx : x ∈ l) :
    ∃ y ∈ r, f x = some y := by
  induction l generalizing r with
  | nil => cases hx
  | cons x' l ih =>
    obtain ⟨y', ys, hy', hys, rfl⟩ := mapM_cons_eq_some.mp h
    rcases List.mem_cons.mp hx with rfl | hx
    · exact ⟨y', List.mem_cons_self, hy'⟩
    · obtain ⟨y, hy, hf⟩ := ih hys hx
      exact ⟨y, List.mem_cons_of_mem _ hy, hf⟩

end

/-! ### Chains of positions -/

/-- A position of an array. -/
structure Level (S : Type) where
  array : ℕ
  /-- The entry of the array. -/
  node : ArrayNode S
  /-- What the array was made from. -/
  content : Assembly S
  position : ℕ

namespace Level

def element? (l : Level S) : Option Element := l.node.elements[l.position]?

def part? (l : Level S) : Option (Part S) := l.content.parts[l.position]?

/-- The materials that the part puts on the surfaces below it. -/
def override? (l : Level S) : Option Override := l.part?.bind (·.header.materials)

/-- What the program of the array says. -/
def outcome? (l : Level S) : Option Program.Outcome :=
  (Program.run (l.content.parts.map Part.kind) l.content.relations).toOption

/-- What the program says of the position, by position. -/
def localTrims? (l : Level S) : Option (List Program.LocalTrim) := do
  (← l.outcome?).trims[l.position]?

/-- What the program says of the position, with surfaces and array found. -/
def trims? (l : Level S) : Option (List (Trim ℕ ℕ)) := do
  (← l.localTrims?).mapM (l.node.resolve? l.array)

end Level

/-- The array at the end of a chain: the root, or the one at the innermost position. -/
def arrayBelow? : List (Level S) → Option ℕ
  | [] => some Arena.root
  | l :: _ =>
    match l.element? with
    | some (.array i) => some i
    | _ => none

lemma arrayBelow?_cons {l : Level S} {above : List (Level S)} {i : ℕ} :
    arrayBelow? (l :: above) = some i ↔ l.element? = some (.array i) := by
  rw [show arrayBelow? (l :: above) =
    match l.element? with
    | some (.array i) => some i
    | _ => none from rfl]
  split <;> simp_all

/-- What the array at the end of a chain was made from. -/
def contentBelow? (d : Document S) : List (Level S) → Option (Assembly S)
  | [] => some d.root
  | l :: _ => do (← l.part?).array? d

/-- Chains of positions, each in the array at the one after it, up to the root. -/
inductive Arena.Levels (d : Document S) (a : Arena S) : List (Level S) → Prop
  | nil : Levels d a []
  | cons {l : Level S} {above : List (Level S)} (rest : Levels d a above)
      (array : arrayBelow? above = some l.array) (node : a.arrays[l.array]? = some l.node)
      (content : contentBelow? d above = some l.content) : Levels d a (l :: above)

lemma Arena.Levels.node_of_mem {d : Document S} {a : Arena S} {levels : List (Level S)}
    (h : a.Levels d levels) {l : Level S} (hl : l ∈ levels) : a.arrays[l.array]? = some l.node := by
  induction h with
  | nil => cases hl
  | cons rest array node content ih =>
    rcases List.mem_cons.mp hl with rfl | hl
    · exact node
    · exact ih hl

/-- The trims of all levels of a chain, the innermost first. -/
def chainTrims? (levels : List (Level S)) : Option (List (Trim ℕ ℕ)) :=
  (levels.mapM Level.trims?).map List.flatten

lemma chainTrims?_cons {l : Level S} {above : List (Level S)} {trims : List (Trim ℕ ℕ)} :
    chainTrims? (l :: above) = some trims ↔ ∃ own rest, l.trims? = some own ∧
      chainTrims? above = some rest ∧ trims = own ++ rest := by
  constructor
  · intro h
    obtain ⟨r, hr, rfl⟩ := Option.map_eq_some_iff.mp h
    obtain ⟨own, rest, hown, hrest, rfl⟩ := mapM_cons_eq_some.mp hr
    exact ⟨own, rest.flatten, hown, by rw [chainTrims?, hrest, Option.map_some], rfl⟩
  · rintro ⟨own, rest, hown, hrest, rfl⟩
    obtain ⟨r, hr, rfl⟩ := Option.map_eq_some_iff.mp hrest
    exact Option.map_eq_some_iff.mpr ⟨own :: r, mapM_cons_eq_some.mpr ⟨own, r, hown, hr, rfl⟩, rfl⟩

/-- The materials in force at the end of a chain: those of the innermost part that puts any. -/
def chainOverride? (levels : List (Level S)) : Option Override := levels.findSome? Level.override?

lemma chainOverride?_cons {l : Level S} {above : List (Level S)} {p : Part S}
    (hp : l.part? = some p) :
    chainOverride? (l :: above) = (p.header.materials <|> chainOverride? above) := by
  rw [chainOverride?, List.findSome?_cons, Level.override?, hp, Option.bind_some]
  rcases p.header.materials with _ | o
  · rfl
  · rfl

/-- No trim of the list compares with the surface. -/
def Spares (s : ℕ) (trims : List (Trim ℕ ℕ)) : Prop := ∀ t ∈ trims, t ≠ .outer s ∧ t ≠ .inner s

lemma spares_append {s : ℕ} {l l' : List (Trim ℕ ℕ)} (h : Spares s l) (h' : Spares s l') :
    Spares s (l ++ l') := fun t ht => (List.mem_append.mp ht).elim (h t) (h' t)

/-! ### The elements of one array -/

lemma ArrayNode.surfaceAt?_eq_some {n : ArrayNode S} {q s : ℕ} :
    n.surfaceAt? q = some s ↔ n.elements[q]? = some (.surface s) := by
  unfold surfaceAt?
  split <;> simp_all

lemma Level.trims?_eq_own {l : Level S} {lo hi : Marks} {object : Option ℕ} {path : String}
    {outcome : Program.Outcome} {own : ℕ → List (Trim ℕ ℕ)} {i : ℕ}
    (closes : l.node.Closes object path l.content lo hi outcome) (hi' : i = l.array)
    (own_eq : ∀ (q : ℕ) (ts : List Program.LocalTrim), outcome.trims[q]? = some ts →
      ts.mapM (l.node.resolve? i) = some (own q))
    (hq : l.position < l.content.parts.length) :
    l.trims? = some (own l.position) ∧ ∃ ts, outcome.trims[l.position]? = some ts ∧
      ts.mapM (l.node.resolve? i) = some (own l.position) := by
  subst hi'
  obtain ⟨ts, hts⟩ : ∃ ts, outcome.trims[l.position]? = some ts :=
    ⟨_, List.getElem?_eq_getElem
      (by rw [(Program.run_fits closes.run).trims_length, List.length_map]; exact hq)⟩
  have hown := own_eq l.position ts hts
  refine ⟨?_, ts, hts, hown⟩
  simp [Level.trims?, Level.localTrims?, Level.outcome?, closes.run, Except.toOption, hts, hown]

variable [Scalar S]

section

variable {d : Document S} {a : Arena S} {lo hi : Marks} {object : Option ℕ} {path : String}
  {forced : Option Override} {content : Assembly S} {n : ArrayNode S} {outcome : Program.Outcome}
  {cut : ℕ → Marks} {own : ℕ → List (Trim ℕ ℕ)} {array q s i : ℕ}
  (closes : n.Closes object path content lo hi outcome)
  (stands : ∀ (q : ℕ) (e : Element) (p : Part S), n.elements[q]? = some e →
    content.parts[q]? = some p →
    e.Stands d a ⟨array, object, q⟩ path forced (own q) (cut q) (cut (q + 1)) p)

include closes stands

lemma exists_stands (hq : q < content.parts.length) : ∃ e p, n.elements[q]? = some e ∧
    content.parts[q]? = some p ∧
    e.Stands d a ⟨array, object, q⟩ path forced (own q) (cut q) (cut (q + 1)) p :=
  have he := List.getElem?_eq_getElem (closes.length.ge.trans_lt' hq)
  have hp := List.getElem?_eq_getElem hq
  ⟨_, _, he, hp, stands q _ _ he hp⟩

lemma surface_stands (he : n.elements[q]? = some (.surface s)) :
    s = (cut q).surfaces ∧ cut (q + 1) = (cut q).addObject.addSurface ∧
      ∃ node, a.surfaces[s]? = some node ∧ node.array = array ∧ node.position = q ∧
        node.trims = own q := by
  obtain ⟨e, p, he', -, hs⟩ := exists_stands closes stands
    (closes.length ▸ (List.getElem?_eq_some_iff.mp he).1)
  obtain rfl := Option.some.inj (he.symm.trans he')
  generalize hcut : cut (q + 1) = next at hs
  cases hs with
  | surface object node hn => exact ⟨rfl, rfl, _, node, hn.array, hn.position, hn.trims⟩

lemma array_stands (he : n.elements[q]? = some (.array i)) :
    i = (cut q).arrays ∧ ∃ p inner, content.parts[q]? = some p ∧ p.array? d = some inner := by
  obtain ⟨e, p, he', hp, hs⟩ := exists_stands closes stands
    (closes.length ▸ (List.getElem?_eq_some_iff.mp he).1)
  obtain rfl := Option.some.inj (he.symm.trans he')
  generalize hcut : cut (q + 1) = next at hs
  cases hs with
  | array hinner => exact ⟨rfl, p, _, hp, hinner⟩

/-- Surfaces between the marks of a position stand there, or in an array there. -/
lemma stands_of_surface (hq : q < content.parts.length) (h : (cut q).surfaces ≤ s)
    (h' : s < (cut (q + 1)).surfaces) : n.elements[q]? = some (.surface s) ∨
      ∃ p inner, n.elements[q]? = some (.array (cut q).arrays) ∧ content.parts[q]? = some p ∧
        p.array? d = some inner := by
  obtain ⟨e, p, he, hp, hs⟩ := exists_stands closes stands hq
  generalize hcut : cut (q + 1) = next at hs h'
  cases hs with
  | camera => simp only [Marks.addCamera_surfaces, Marks.addObject_surfaces] at h'; omega
  | light => simp only [Marks.addLight_surfaces, Marks.addObject_surfaces] at h'; omega
  | surface =>
    simp only [Marks.addSurface_surfaces, Marks.addObject_surfaces] at h'
    obtain rfl : s = (cut q).surfaces := by omega
    exact Or.inl he
  | array hinner => exact Or.inr ⟨p, _, he, hp, hinner⟩

lemma stands_of_array (hq : q < content.parts.length) (h : (cut q).arrays ≤ i)
    (h' : i < (cut (q + 1)).arrays) : ∃ p inner, n.elements[q]? = some (.array (cut q).arrays) ∧
      content.parts[q]? = some p ∧ p.array? d = some inner := by
  obtain ⟨e, p, he, hp, hs⟩ := exists_stands closes stands hq
  generalize hcut : cut (q + 1) = next at hs h'
  cases hs with
  | camera => simp only [Marks.addCamera_arrays, Marks.addObject_arrays] at h'; omega
  | light => simp only [Marks.addLight_arrays, Marks.addObject_arrays] at h'; omega
  | surface => simp only [Marks.addSurface_arrays, Marks.addObject_arrays] at h'; omega
  | array hinner => exact ⟨p, _, he, hp, hinner⟩

/-- What the program puts on a position compares with surfaces of other positions. -/
lemma own_spares {l : List Program.LocalTrim} {here : List (Trim ℕ ℕ)}
    (hl : outcome.trims[q]? = some l) (hown : l.mapM (n.resolve? array) = some here)
    (h : (cut q).surfaces ≤ s) (h' : s < (cut (q + 1)).surfaces) : Spares s here := by
  have hfits := Program.run_fits closes.run
  have hq : q < content.parts.length := by
    have := (List.getElem?_eq_some_iff.mp hl).1
    rwa [hfits.trims_length, List.length_map] at this
  have hother : ∀ t ∈ l, ∀ p, Program.operand? t = some p → n.surfaceAt? p ≠ some s := by
    intro t ht p hp hsurf
    have he := ArrayNode.surfaceAt?_eq_some.mp hsurf
    have hne := (hfits.operand q l t p hl ht hp).2
    have hplt : p < content.parts.length := closes.length ▸ (List.getElem?_eq_some_iff.mp he).1
    obtain ⟨rfl, hcut, -⟩ := surface_stands closes stands he
    -- the surfaces of an earlier or a later position lie beyond the marks of this one
    rcases Nat.lt_or_gt_of_ne hne with hlt | hgt
    · have hle := (cut_le closes.length stands (show p + 1 ≤ q from hlt) hq.le).surfaces
      rw [hcut] at hle
      simp only [Marks.addSurface_surfaces, Marks.addObject_surfaces] at hle
      omega
    · have hle := (cut_le closes.length stands (show q + 1 ≤ p from hgt) hplt.le).surfaces
      omega
  intro t' ht'
  obtain ⟨t, ht, hres⟩ := mem_of_mapM_eq_some hown ht'
  have hnot := hother t ht
  cases t with
  | outer p =>
    obtain ⟨r, hr, rfl⟩ := Option.map_eq_some_iff.mp hres
    refine ⟨fun heq => hnot p rfl ?_, by simp⟩
    rw [hr, Trim.outer.inj heq]
  | inner p =>
    obtain ⟨r, hr, rfl⟩ := Option.map_eq_some_iff.mp hres
    refine ⟨by simp, fun heq => hnot p rfl ?_⟩
    rw [hr, Trim.inner.inj heq]
  | accum u =>
    obtain rfl := Option.some.inj hres
    exact ⟨by simp, by simp⟩

end

/-! ### Chains in a recorded arena -/

namespace Arena

variable {d : Document S} {a : Arena S}

/-- What is recorded of the array at the end of a chain, with the trims of the chain. -/
structure Ends (d : Document S) (a : Arena S) (above : List (Level S)) (lo hi : Marks)
    (content : Assembly S) (trims : List (Trim ℕ ℕ)) : Prop where
  made : contentBelow? d above = some content
  chain : chainTrims? above = some trims
  spares : ∀ s, lo.surfaces ≤ s → s < hi.surfaces → Spares s trims
  records : ∃ object path forced, a.Records d lo hi object path forced trims content

/-- The array at the end of every chain is recorded, under the materials in force there. -/
theorem Levels.forced {hi : Marks} {path : String}
    (h₀ : a.Records d .start hi none path none [] d.root) {above : List (Level S)}
    (h : a.Levels d above) {i : ℕ} (hi' : arrayBelow? above = some i) :
    ∃ lo hi content trims, lo.arrays = i ∧ a.Ends d above lo hi content trims ∧
      ∃ object path, a.Records d lo hi object path (chainOverride? above) trims content := by
  -- from the root down: the array at the end is recorded between the marks of its position
  induction h generalizing i with
  | nil =>
    obtain rfl := Option.some.inj hi'
    exact ⟨.start, hi, _, _, rfl, ⟨rfl, rfl, fun _ _ _ _ ht => (nomatch ht), _, _, _, h₀⟩, _, _, h₀⟩
  | @cons l above rest array node content ih =>
    obtain ⟨lo, hi, content', trims, hlo, hends, object, path, hrec⟩ := ih array
    obtain rfl : content' = l.content := Option.some.inj (hends.made.symm.trans content)
    cases hrec with
    | @mk _ _ _ _ _ _ _ n outcome cut own hnode closes first last own_eq stands nested =>
      rw [hlo, node] at hnode
      obtain rfl := Option.some.inj hnode
      have he : l.node.elements[l.position]? = some (.array i) := arrayBelow?_cons.mp hi'
      obtain ⟨rfl, p, inner, hp, hinner⟩ := array_stands closes stands he
      have hq : l.position < l.content.parts.length := (List.getElem?_eq_some_iff.mp hp).1
      obtain ⟨hl, ts, hts, hown⟩ := Level.trims?_eq_own closes hlo own_eq hq
      have hbelow := nested _ p inner hp hinner
      refine ⟨(cut l.position).addObject, cut (l.position + 1), inner, own l.position ++ trims, rfl,
        ⟨?_, chainTrims?_cons.mpr ⟨_, _, hl, hends.chain, rfl⟩, fun s h₁ h₂ => ?_, _, _, _, hbelow⟩,
        _, _, chainOverride?_cons hp ▸ hbelow⟩
      · simp [contentBelow?, Level.part?, hp, hinner]
      · have hfirst := (cut_le closes.length stands (Nat.zero_le l.position) hq.le).surfaces
        have hlast := (cut_le closes.length stands (show l.position + 1 ≤ _ from hq)
          (Nat.le_refl _)).surfaces
        rw [first] at hfirst
        rw [last] at hlast
        exact spares_append (own_spares closes stands hts hown h₁ h₂)
          (hends.spares s (hfirst.trans h₁) (h₂.trans_le hlast))

/-- The array at the end of every chain is recorded. -/
theorem Levels.ends {hi : Marks} {path : String}
    (h₀ : a.Records d .start hi none path none [] d.root) {above : List (Level S)}
    (h : a.Levels d above) {i : ℕ} (hi' : arrayBelow? above = some i) :
    ∃ lo hi content trims, lo.arrays = i ∧ a.Ends d above lo hi content trims := by
  obtain ⟨lo, hi, content, trims, hlo, hends, -⟩ := h.forced h₀ hi'
  exact ⟨lo, hi, content, trims, hlo, hends⟩

/-- The surface at the end of every chain carries the trims of the chain. -/
theorem Levels.shows {hi : Marks} {path : String}
    (h₀ : a.Records d .start hi none path none [] d.root) {l : Level S}
    {above : List (Level S)} (h : a.Levels d (l :: above)) {s : ℕ}
    (hl : l.element? = some (.surface s)) :
    ∃ n, a.surfaces[s]? = some n ∧ n.array = l.array ∧ n.position = l.position ∧
      chainTrims? (l :: above) = some n.trims ∧ Spares s n.trims := by
  cases h with
  | cons rest array node content =>
    obtain ⟨lo, hi, content', trims, hlo, hmade, hchain, hspares, object, path, forced, hrec⟩ :=
      rest.ends h₀ array
    obtain rfl : content' = l.content := Option.some.inj (hmade.symm.trans content)
    cases hrec with
    | @mk _ _ _ _ _ _ _ n outcome cut own hnode closes first last own_eq stands nested =>
      rw [hlo, node] at hnode
      obtain rfl := Option.some.inj hnode
      have hq : l.position < l.content.parts.length :=
        closes.length ▸ (List.getElem?_eq_some_iff.mp hl).1
      obtain ⟨hown, ts, hts, hmap⟩ := Level.trims?_eq_own closes hlo own_eq hq
      obtain ⟨rfl, hcut, n, hn, harray, hposition, htrims⟩ := surface_stands closes stands hl
      have hnext : (cut l.position).surfaces < (cut (l.position + 1)).surfaces := by simp [hcut]
      have hfirst := (cut_le closes.length stands (Nat.zero_le l.position) hq.le).surfaces
      have hlast := (cut_le closes.length stands (show l.position + 1 ≤ _ from hq)
        (Nat.le_refl _)).surfaces
      rw [first] at hfirst
      rw [last] at hlast
      refine ⟨n, hn, harray.trans hlo, hposition, ?_, ?_⟩
      · exact chainTrims?_cons.mpr ⟨_, _, hown, hchain, htrims⟩
      · rw [htrims]
        exact spares_append (own_spares closes stands hts hmap (Nat.le_refl _) hnext)
          (hspares _ hfirst (hnext.trans_le hlast))

/-- The element at the end of every chain stands for the part there, under the materials in force
above it. -/
theorem Levels.stands {hi : Marks} {path : String}
    (h₀ : a.Records d .start hi none path none [] d.root) {l : Level S}
    {above : List (Level S)} (h : a.Levels d (l :: above)) :
    l.node.elements.length = l.content.parts.length ∧ ∀ e p, l.element? = some e →
      l.part? = some p → ∃ object path trims lo hi, e.Stands d a ⟨l.array, object, l.position⟩ path
        (chainOverride? above) trims lo hi p := by
  cases h with
  | cons rest array node content =>
    obtain ⟨lo, hi, content', trims, hlo, hends, object, path, hrec⟩ := rest.forced h₀ array
    obtain rfl : content' = l.content := Option.some.inj (hends.made.symm.trans content)
    cases hrec with
    | @mk _ _ _ _ _ _ _ n outcome cut own hnode closes first last own_eq stands =>
      rw [hlo, node] at hnode
      obtain rfl := Option.some.inj hnode
      exact ⟨closes.length, fun e p he hp => ⟨_, _, _, _, _, hlo ▸ stands _ e p he hp⟩⟩

/-- Chains lead from a recorded array to every surface and every array between its marks. -/
theorem Records.reaches {lo hi : Marks} {object : Option ℕ} {path : String}
    {forced : Option Override} {trims : List (Trim ℕ ℕ)} {content : Assembly S}
    (h : a.Records d lo hi object path forced trims content) {above : List (Level S)}
    (habove : a.Levels d above) (harray : arrayBelow? above = some lo.arrays)
    (hcontent : contentBelow? d above = some content) :
    (∀ s, lo.surfaces ≤ s → s < hi.surfaces → ∃ l rest, a.Levels d (l :: rest) ∧
      l.element? = some (.surface s)) ∧
    ∀ i, lo.arrays ≤ i → i < hi.arrays → ∃ levels, a.Levels d levels ∧
      arrayBelow? levels = some i := by
  induction h generalizing above with
  | @mk lo hi object path forced trims content n outcome cut own node closes first last own_eq
      stands nested sized ih =>
    -- the chain with one position more
    have hlevels : ∀ q, a.Levels d (⟨lo.arrays, n, content, q⟩ :: above) := fun q =>
      .cons habove harray node hcontent
    have hbelow := fun (q : ℕ) (p : Part S) (inner : Assembly S)
        (he : n.elements[q]? = some (Element.array (cut q).arrays))
        (hp : content.parts[q]? = some p) (hinner : p.array? d = some inner) =>
      ih q p inner hp hinner (hlevels q) (arrayBelow?_cons.mpr he)
        (by simp [contentBelow?, Level.part?, hp, hinner])
    constructor
    · intro s h₁ h₂
      obtain ⟨q, hq, hle, hlt⟩ := exists_mark_between (f := fun q => (cut q).surfaces) (s := s)
        (by rw [first]; exact h₁) (by rw [last]; exact h₂)
      rcases stands_of_surface closes stands hq hle hlt with he | ⟨p, inner, he, hp, hinner⟩
      · exact ⟨_, _, hlevels q, he⟩
      · exact (hbelow q p inner he hp hinner).1 s hle hlt
    · intro i h₁ h₂
      by_cases hi₀ : i = lo.arrays
      · exact ⟨above, habove, hi₀ ▸ harray⟩
      obtain ⟨q, hq, hle, hlt⟩ := exists_mark_between (f := fun q => (cut q).arrays) (s := i)
        (by rw [first, Marks.addArray_arrays]; omega) (by rw [last]; exact h₂)
      obtain ⟨p, inner, he, hp, hinner⟩ := stands_of_array closes stands hq hle hlt
      exact (hbelow q p inner he hp hinner).2 i hle hlt

end Arena

end SolidTrace
