import SolidTrace.Proofs.Compile.Closing
import SolidTrace.Proofs.Compile.Expansion
import SolidTrace.Proofs.Compile.Traversal
import SolidTrace.Proofs.Compile.Walk
import SolidTrace.Proofs.Arena.Sound
import SolidTrace.Surface.Pose

/-!
The materials of a compiled scene.

Materials and textures are entered where they are used first and found by name from then on. What
construction keeps (`Arena.Exact`) is that the entries are what the document declares under their
names, that no name is entered twice, and that every entry is used: a texture by a material, and a
material by a side of a surface. The names that the sides show are told by the chains of positions
above the surfaces, `chainMaterial?`: that of the innermost part with materials of its own to put on
what is below it, or else that of the side.
-/

namespace SolidTrace

variable {S : Type}

def Surface.face (s : Surface S) : Side → Face S
  | .outer => s.outer
  | .inner => s.inner

def SurfaceNode.face (n : SurfaceNode S) : Side → FaceNode S
  | .outer => n.outer
  | .inner => n.inner

def Override.material (o : Override) : Side → String
  | .outer => o.outer
  | .inner => o.inner

/-- The name of the material that a side of the surface at the end of a chain shows. -/
def chainMaterial? (side : Side) (levels : List (Level S)) : Option String :=
  match levels.head?.bind Level.part? with
  | some (.surface _ s) =>
    some (((chainOverride? levels).map (·.material side)).getD (s.face side).material)
  | _ => none

lemma chainMaterial?_of_surface {l : Level S} {above : List (Level S)} {header : Header S}
    {s : Surface S} (side : Side) (hp : l.part? = some (.surface header s)) :
    chainMaterial? side (l :: above) =
      some (((header.materials <|> chainOverride? above).map (·.material side)).getD
        (s.face side).material) := by
  rw [chainMaterial?, List.head?_cons, Option.bind_some, hp, chainOverride?_cons hp]
  rfl

/-! ### Tables -/

/-- No two entries of the table have the same name. -/
def Distinct {α : Type} (name : α → String) (t : Array α) : Prop :=
  ∀ (i j : ℕ) (x y : α), t[i]? = some x → t[j]? = some y → name x = name y → i = j

lemma Distinct.push {α : Type} {name : α → String} {t : Array α} {x : α} (h : Distinct name t)
    (hx : ∀ (i : ℕ) (y : α), t[i]? = some y → name y ≠ name x) : Distinct name (t.push x) := by
  intro i j y z hy hz hname
  rcases getElem?_push_cases hy with hy | ⟨rfl, hyx⟩
  · rcases getElem?_push_cases hz with hz | ⟨rfl, hzx⟩
    · exact h i j y z hy hz hname
    · exact absurd (hname.trans (congrArg name hzx)) (hx i y hy)
  · rcases getElem?_push_cases hz with hz | ⟨rfl, -⟩
    · exact absurd (hname.symm.trans (congrArg name hyx)) (hx j z hz)
    · rfl

/-- The texture is the one that the document declares under its name, loaded. -/
def TextureNode.Loaded [Scalar S] (w : Workshop S) (t : TextureNode S) : Prop :=
  ∃ source, w.document.textures.get? t.name = some source ∧
    Texture.load w.images source = .ok t.texture

/-- The material is the one that the document declares under its name, with its texture found. -/
def MaterialNode.Declared (w : Workshop S) (a : Arena S) (n : MaterialNode S) : Prop :=
  ∃ m t, w.document.materials.get? n.name = some m ∧
    n = Build.materialNode m n.name n.texture ∧
    a.textures[n.texture]? = some t ∧ t.name = m.texture

lemma MaterialNode.Declared.kept {w : Workshop S} {a a' : Arena S} {n : MaterialNode S}
    (h : n.Declared w a) (ha : Kept a.textures a'.textures) : n.Declared w a' := by
  obtain ⟨m, t, hm, hn, ht, hname⟩ := h
  exact ⟨m, t, hm, hn, ha _ _ ht, hname⟩

namespace Arena

/-- The second arena has the materials and textures of the first one, and its surfaces show the
same ones of them. -/
structure LooksLike (a a' : Arena S) : Prop where
  materials : a'.materials = a.materials
  textures : a'.textures = a.textures
  surfaces : ∀ s : ℕ, a'.surfaces[s]?.map SurfaceNode.face = a.surfaces[s]?.map SurfaceNode.face

lemma LooksLike.refl (a : Arena S) : a.LooksLike a := ⟨rfl, rfl, fun _ => rfl⟩

lemma LooksLike.trans {a b c : Arena S} (h : a.LooksLike b) (h' : b.LooksLike c) : a.LooksLike c :=
  ⟨h'.materials.trans h.materials, h'.textures.trans h.textures,
    fun s => (h'.surfaces s).trans (h.surfaces s)⟩

variable [Scalar S] {w : Workshop S} {a a' : Arena S}

/-- Materials and textures are entered as they are declared, each name once. -/
structure Catalogued (w : Workshop S) (a : Arena S) : Prop where
  material : ∀ (i : ℕ) (n : MaterialNode S), a.materials[i]? = some n → n.Declared w a
  texture : ∀ (i : ℕ) (t : TextureNode S), a.textures[i]? = some t → t.Loaded w
  materials_distinct : Distinct MaterialNode.name a.materials
  textures_distinct : Distinct TextureNode.name a.textures

/-- Every texture is that of a material. -/
def Worn (a : Arena S) : Prop :=
  ∀ i < a.textures.size, ∃ (j : ℕ) (n : MaterialNode S), a.materials[j]? = some n ∧ n.texture = i

/-- Every material is that of a side of a surface. -/
def Shown (a : Arena S) : Prop :=
  ∀ i < a.materials.size, ∃ (s : ℕ) (n : SurfaceNode S) (side : Side), a.surfaces[s]? = some n ∧
    (n.face side).material = i

/-- The materials and textures are those that are declared and used. -/
structure Exact (w : Workshop S) (a : Arena S) : Prop extends Catalogued w a where
  worn : a.Worn
  shown : a.Shown

lemma Catalogued.congr (h : a.Catalogued w) (hm : a'.materials = a.materials)
    (ht : a'.textures = a.textures) : a'.Catalogued w where
  material i n hn := (h.material i n (hm ▸ hn)).kept (ht ▸ .refl _)
  texture i t htex := h.texture i t (ht ▸ htex)
  materials_distinct := hm ▸ h.materials_distinct
  textures_distinct := ht ▸ h.textures_distinct

lemma Exact.looksLike (h : a.Exact w) (ha : a.LooksLike a') : a'.Exact w where
  toCatalogued := h.toCatalogued.congr ha.materials ha.textures
  worn i hi := by
    rw [ha.materials]
    exact h.worn i (ha.textures ▸ hi)
  shown i hi := by
    obtain ⟨s, n, side, hn, hside⟩ := h.shown i (ha.materials ▸ hi)
    have hface := ha.surfaces s
    rw [hn, Option.map_some, Option.map_eq_some_iff] at hface
    obtain ⟨n', hn', hsame⟩ := hface
    exact ⟨s, n', side, hn', by rw [hsame, hside]⟩

end Arena

/-! ### Steps -/

namespace Build

variable [Scalar S] {w : Workshop S} {b b' : Builder S}

/-- The texture that is found is the only one that may be new. -/
lemma texture_catalogued {name material : String} {id : ℕ}
    (h : texture w name material b = .ok id b') (hb : b.arena.Catalogued w) :
    b'.arena.Catalogued w ∧ b'.arena.materials = b.arena.materials ∧
      ∀ i < b'.arena.textures.size, i < b.arena.textures.size ∨ i = id := by
  rcases texture_cases h with ⟨rfl, -⟩ | ⟨hnew, source, t, b₁, hsource, hload, -, rfl, rfl⟩
  · exact ⟨hb, rfl, fun i hi => .inl hi⟩
  · refine ⟨⟨fun i n hn => (hb.material i n hn).kept (.push _ _), fun i t' ht' => ?_,
      hb.materials_distinct, hb.textures_distinct.push hnew⟩, rfl, fun i hi => ?_⟩
    · rcases getElem?_push_cases ht' with ht' | ⟨-, rfl⟩
      · exact hb.texture i t' ht'
      · exact ⟨source, hsource, hload⟩
    · rw [Array.size_push] at hi
      omega

/-- The material that is found is the only one that may be new, and a new texture is its own. -/
lemma material_catalogued {name path : String} {id : ℕ} (h : material w name path b = .ok id b')
    (hb : b.arena.Catalogued w) (hworn : b.arena.Worn) :
    b'.arena.Catalogued w ∧ b'.arena.Worn ∧
      ∀ i < b'.arena.materials.size, i < b.arena.materials.size ∨ i = id := by
  rcases material_cases h with ⟨rfl, -⟩ | ⟨hnew, m, place, b₁, hm, htexture, rfl, rfl⟩
  · exact ⟨hb, hworn, fun i hi => .inl hi⟩
  obtain ⟨-, t, ht, hname⟩ := texture_ok htexture
  obtain ⟨hb₁, hsame, hcount⟩ := texture_catalogued htexture hb
  refine ⟨⟨fun i n hn => ?_, hb₁.texture, hb₁.materials_distinct.push ?_, hb₁.textures_distinct⟩,
    fun i hi => ?_, fun i hi => ?_⟩
  · rcases getElem?_push_cases hn with hn | ⟨-, rfl⟩
    · exact hb₁.material i n hn
    · exact ⟨m, t, hm, rfl, ht, hname⟩
  · rw [hsame]
    exact hnew
  · -- a texture that has come in is that of the material that comes in
    rcases hcount i hi with hi | rfl
    · obtain ⟨j, n, hn, htex⟩ := hworn i hi
      exact ⟨j, n, Kept.push _ _ j n (hsame ▸ hn), htex⟩
    · exact ⟨_, _, Array.getElem?_push_size, rfl⟩
  · rw [Array.size_push, hsame] at hi
    rw [hsame]
    omega

lemma face_catalogued {f : Face S} {forced : Option String} {path : String} {n : FaceNode S}
    (h : face w f forced path b = .ok n b') (hb : b.arena.Catalogued w) (hworn : b.arena.Worn) :
    b'.arena.Catalogued w ∧ b'.arena.Worn ∧
      ∀ i < b'.arena.materials.size, i < b.arena.materials.size ∨ i = n.material := by
  obtain ⟨id, b₁, h₁, h⟩ := bind_eq_ok.mp h
  obtain ⟨rfl, rfl⟩ := pure_eq_ok.mp h
  exact material_catalogued h₁ hb hworn

/-- New materials are shown by the surface that they are entered for. -/
lemma surface_exact {s : Surface S} {object : ℕ} {spot : Spot} {forced : Option Override}
    {path : String} {r : ℕ × SurfaceNode S} (h : surface w s object spot forced path b = .ok r b')
    (hb : b.arena.Exact w) : b'.arena.Exact w := by
  obtain ⟨id, n⟩ := r
  obtain ⟨b₁, b₂, houter, hinner, -, -, rfl, rfl⟩ := surface_cases h
  obtain ⟨hb₁, hworn₁, hcount₁⟩ := face_catalogued houter hb.toCatalogued hb.worn
  obtain ⟨hb₂, hworn₂, hcount₂⟩ := face_catalogued hinner hb₁ hworn₁
  have hsurfaces : b₂.arena.surfaces = b.arena.surfaces :=
    ((face_ok houter).1.trans (face_ok hinner).1).surfaces
  refine ⟨hb₂.congr rfl rfl, hworn₂, fun i hi => ?_⟩
  have hnode : (b₂.arena.surfaces.push n)[b₂.arena.surfaces.size]? = some n :=
    Array.getElem?_push_size
  rcases hcount₂ i hi with hi | rfl
  · rcases hcount₁ i hi with hi | rfl
    · obtain ⟨s', n', side, hn', hside⟩ := hb.shown i hi
      exact ⟨s', n', side, Kept.push _ _ s' n' (hsurfaces ▸ hn'), hside⟩
    · exact ⟨_, n, .outer, hnode, rfl⟩
  · exact ⟨_, n, .inner, hnode, rfl⟩

/-! ### The walk -/

/-- The construction leaves surfaces that show what they did before. -/
def SameLooks (b b' : Builder S) : Prop := b.arena.LooksLike b'.arena

omit [Scalar S] in
lemma composes_sameLooks : Composes (SameLooks (S := S)) :=
  ⟨fun _ => .refl _, fun h h' => h.trans h'⟩

omit [Scalar S] in
lemma Leads.sameLooks {α : Type} {x : Build S α}
    (h : ∀ b a b', x b = .ok a b' → ∃ objects arrays cameras lights,
      b'.arena = { b.arena with objects, arrays, cameras, lights }) : Leads SameLooks x := by
  intro b a b' hx
  obtain ⟨objects, arrays, cameras, lights, ha⟩ := h b a b' hx
  unfold SameLooks
  rw [ha]
  exact ⟨rfl, rfl, fun _ => rfl⟩

omit [Scalar S] in
lemma acquire_sameLooks (label : String) (layout : Layout) (count : ℕ) :
    Leads (SameLooks (S := S)) (acquire label layout count) :=
  .sameLooks fun _ _ _ h => ⟨_, _, _, _, acquire_ok h⟩

omit [Scalar S] in
lemma modifyArena_sameLooks {f : Arena S → Arena S} (hf : ∀ a : Arena S, a.LooksLike (f a)) :
    Leads SameLooks (modifyArena f) := by
  intro b u b' h
  obtain rfl := modifyArena_eq_ok.mp h
  exact hf b.arena

omit [Scalar S] in
lemma trimSurface_sameLooks (trims : List (Trim ℕ ℕ)) (s : ℕ) :
    Leads (SameLooks (S := S)) (trimSurface trims s) := by
  intro b u b' h
  refine ⟨?_, ?_, fun i => ?_⟩
  all_goals rw [trimSurface_ok h]
  · rfl
  · rfl
  · rw [Arena.trimmed_surfaces_getElem?, Option.map_map]
    rfl

lemma closeArray_sameLooks (array : ℕ) (path : String) (occupants : List (Occupant S))
    (relations : List Relation) :
    Leads SameLooks (closeArray array path occupants relations) := by
  have hR : Composes (SameLooks (S := S)) := composes_sameLooks
  have htrims : ∀ x : Occupant S × List Program.LocalTrim,
      Leads SameLooks (trimPosition occupants path array x.1 x.2) := by
    intro x
    unfold trimPosition
    split
    · exact hR.pure _
    · exact hR.bind (hR.ofExcept _) fun own => hR.forM (trimSurface_sameLooks own)
  unfold closeArray
  split
  · refine hR.bind (hR.pure _) fun outcome => hR.bind (hR.forM htrims) fun _ => ?_
    refine hR.bind (hR.ofExcept _) fun accumulator => ?_
    refine hR.bind (acquire_sameLooks _ _ _) fun _ => ?_
    refine hR.bind (modifyArena_sameLooks fun a => ?_) fun _ => hR.pure _
    exact ⟨rfl, rfl, fun _ => rfl⟩
  · exact .throw_bind _ _

/-- The construction keeps the tables exact. -/
def Exacts (w : Workshop S) (b b' : Builder S) : Prop := b.arena.Exact w → b'.arena.Exact w

lemma composes_exacts : Composes (Exacts w) := ⟨fun _ => id, fun h h' => h' ∘ h⟩

lemma Leads.exacts {α : Type} {x : Build S α} (h : Leads SameLooks x) : Leads (Exacts w) x :=
  fun b a b' hx hb => hb.looksLike (h b a b' hx)

/-- **All of construction keeps the tables exact.** -/
theorem traversal_exacts (w : Workshop S) : Traversal w fun _ x => Leads (Exacts w) x where
  pure := composes_exacts.pure
  throw := .throw
  bind := composes_exacts.bind
  getArena := composes_exacts.getArena
  object header parent path := by
    refine Leads.exacts (.sameLooks fun b id b' h => ?_)
    obtain ⟨-, animator, ha⟩ := object_ok h
    exact ⟨_, _, _, _, ha⟩
  surface s object spot forced path b r b' h hb := surface_exact h hb
  camera c object := by
    refine Leads.exacts (.sameLooks fun b id b' h => ?_)
    obtain ⟨-, ha⟩ := camera_ok h
    exact ⟨_, _, _, _, ha⟩
  light l object := by
    refine Leads.exacts (.sameLooks fun b id b' h => ?_)
    obtain ⟨-, ha⟩ := light_ok h
    exact ⟨_, _, _, _, ha⟩
  arrayFilled object path count fill relations hfill := by
    have hopen : Leads (SameLooks (S := S)) (openArray object path count) := by
      refine .sameLooks fun b id b' h => ?_
      obtain ⟨-, n, ha, -⟩ := openArray_ok h
      exact ⟨_, _, _, _, ha⟩
    exact composes_exacts.bind hopen.exacts fun id => composes_exacts.bind (hfill _)
      fun occupants => (closeArray_sameLooks _ _ _ _).exacts
  acquireTables b u b' h hb := acquireTables_ok h ▸ hb

end Build

lemma compile_exact [Scalar S] {w : Workshop S} {allocator : Allocator} {c : Compiled S}
    (h : (compile w allocator).1 = .ok c) : c.arena.Exact w := by
  obtain ⟨b, hb, rfl⟩ := compile_document h
  refine (Build.traversal_exacts w).document _ _ _ hb ?_
  exact ⟨⟨nofun, nofun, nofun, nofun⟩, nofun, nofun⟩

/-! ### What the sides show -/

namespace Arena

variable {d : Document S} {a : Arena S}

/-- A side of a surface shows the material of the name. -/
def UsesMaterial (d : Document S) (a : Arena S) (name : String) : Prop :=
  ∃ levels side, a.Levels d levels ∧ chainMaterial? side levels = some name

/-- A material that is shown has the texture of the name. -/
def UsesTexture (d : Document S) (a : Arena S) (name : String) : Prop :=
  ∃ material m, a.UsesMaterial d material ∧ d.materials.get? material = some m ∧ m.texture = name

/-- Names of materials are resolved: the sides of surfaces show what their chains name, entries are
as declared, and a name has one entry when it is used and none otherwise. -/
structure Resolves [Scalar S] (w : Workshop S) (a : Arena S) : Prop where
  /-- Every surface stands at the end of a chain. -/
  reached : ∀ s < a.surfaces.size, ∃ l above, a.Levels w.document (l :: above) ∧
    l.element? = some (.surface s)
  /-- The sides of the surface show the materials that its chain names. -/
  shows : ∀ (s : ℕ) (n : SurfaceNode S) (l : Level S) (above : List (Level S)) (side : Side),
    a.surfaces[s]? = some n → a.Levels w.document (l :: above) → l.element? = some (.surface s) →
      ∃ m, a.materials[(n.face side).material]? = some m ∧
        chainMaterial? side (l :: above) = some m.name
  material : ∀ (i : ℕ) (m : MaterialNode S), a.materials[i]? = some m → m.Declared w a
  texture : ∀ (i : ℕ) (t : TextureNode S), a.textures[i]? = some t → t.Loaded w
  material_once : ∀ name, a.UsesMaterial w.document name →
    ∃! i : ℕ, ∃ m, a.materials[i]? = some m ∧ m.name = name
  material_used : ∀ (i : ℕ) (m : MaterialNode S), a.materials[i]? = some m →
    a.UsesMaterial w.document m.name
  texture_once : ∀ name, a.UsesTexture w.document name →
    ∃! i : ℕ, ∃ t, a.textures[i]? = some t ∧ t.name = name
  texture_used : ∀ (i : ℕ) (t : TextureNode S), a.textures[i]? = some t →
    a.UsesTexture w.document t.name

end Arena

variable [Scalar S] {d : Document S} {a : Arena S} {l : Level S} {above : List (Level S)}

lemma Element.Stands.shows {spot : Build.Spot} {path : String} {trims : List (Trim ℕ ℕ)}
    {lo hi : Marks} {s : ℕ} {p : Part S} (hp : l.part? = some p)
    (h : (Element.surface s).Stands d a spot path (chainOverride? above) trims lo hi p) :
    ∃ n, a.surfaces[s]? = some n ∧ ∀ side, ∃ m, a.materials[(n.face side).material]? = some m ∧
      chainMaterial? side (l :: above) = some m.name := by
  cases h with
  | @surface header s n object node stands =>
    refine ⟨n, node, fun side => ?_⟩
    rw [chainMaterial?_of_surface side hp]
    cases side with
    | outer =>
      obtain ⟨m, hm, hname⟩ := stands.outer.material
      exact ⟨m, hm, congrArg some hname.symm⟩
    | inner =>
      obtain ⟨m, hm, hname⟩ := stands.inner.material
      exact ⟨m, hm, congrArg some hname.symm⟩

lemma Element.Stands.exists_surface {spot : Build.Spot} {path : String} {forced : Option Override}
    {trims : List (Trim ℕ ℕ)} {lo hi : Marks} {e : Element} {header : Header S} {s : Surface S}
    (h : e.Stands d a spot path forced trims lo hi (.surface header s)) : ∃ i, e = .surface i := by
  cases h with
  | surface => exact ⟨_, rfl⟩
  | array hcontent => cases hcontent

namespace Arena

variable {path : String} {hi : Marks} (h₀ : a.Records d .start hi none path none [] d.root)

include h₀

lemma Levels.shows_material (h : a.Levels d (l :: above)) {s : ℕ}
    (hl : l.element? = some (.surface s)) :
    ∃ n, a.surfaces[s]? = some n ∧ ∀ side, ∃ m, a.materials[(n.face side).material]? = some m ∧
      chainMaterial? side (l :: above) = some m.name := by
  obtain ⟨hlength, hstands⟩ := h.stands h₀
  have hlt : l.position < l.content.parts.length :=
    hlength ▸ (List.getElem?_eq_some_iff.mp hl).1
  have hp : l.part? = some l.content.parts[l.position] := List.getElem?_eq_getElem hlt
  obtain ⟨object, path, trims, lo, hi, hs⟩ := hstands _ _ hl hp
  exact hs.shows hp

lemma UsesMaterial.exists_entry {name : String} (h : a.UsesMaterial d name) :
    ∃ (i : ℕ) (m : MaterialNode S), a.materials[i]? = some m ∧ m.name = name := by
  obtain ⟨levels, side, hlevels, hname⟩ := h
  rcases levels with _ | ⟨l, above⟩
  · cases hname
  have hpart : ∃ header s, l.part? = some (.surface header s) := by
    unfold chainMaterial? at hname
    split at hname
    · next header s hp => exact ⟨header, s, hp⟩
    · cases hname
  obtain ⟨header, s, hp⟩ := hpart
  obtain ⟨hlength, hstands⟩ := hlevels.stands h₀
  have hlt : l.position < l.node.elements.length :=
    hlength ▸ (List.getElem?_eq_some_iff.mp hp).1
  have hl : l.element? = some l.node.elements[l.position] := List.getElem?_eq_getElem hlt
  obtain ⟨object, path, trims, lo, hi, hs⟩ := hstands _ _ hl hp
  obtain ⟨i, hi'⟩ := hs.exists_surface
  obtain ⟨n, -, hshows⟩ := hlevels.shows_material h₀ (hi' ▸ hl)
  obtain ⟨m, hm, hmname⟩ := hshows side
  exact ⟨_, m, hm, Option.some.inj (hmname.symm.trans hname)⟩

end Arena

/-- **Materials are resolved.** In a compiled arena every side of every surface shows the material
that its chain names; entries are as declared, and every name that is used has one entry. -/
theorem compile_resolves {w : Workshop S} {allocator : Allocator} {c : Compiled S}
    (h : (compile w allocator).1 = .ok c) : c.arena.Resolves w := by
  have hrec := compile_records h
  have hexact := compile_exact h
  have hreached : ∀ s < c.arena.surfaces.size, ∃ l above, c.arena.Levels w.document (l :: above) ∧
      l.element? = some (.surface s) := fun s hs =>
    (hrec.reaches .nil rfl rfl).1 s (Nat.zero_le _) hs
  have hshows : ∀ (s : ℕ) (n : SurfaceNode S) (l : Level S) (above : List (Level S)) (side : Side),
      c.arena.surfaces[s]? = some n → c.arena.Levels w.document (l :: above) →
        l.element? = some (.surface s) →
          ∃ m, c.arena.materials[(n.face side).material]? = some m ∧
            chainMaterial? side (l :: above) = some m.name := by
    intro s n l above side hn hl he
    obtain ⟨n', hn', hside⟩ := hl.shows_material hrec he
    obtain rfl := Option.some.inj (hn.symm.trans hn')
    exact hside side
  have hused : ∀ (i : ℕ) (m : MaterialNode S), c.arena.materials[i]? = some m →
      c.arena.UsesMaterial w.document m.name := by
    intro i m hm
    obtain ⟨s, n, side, hn, rfl⟩ := hexact.shown i (Arena.lt_size_of_getElem? hm)
    obtain ⟨l, above, hl, he⟩ := hreached s (Arena.lt_size_of_getElem? hn)
    obtain ⟨m', hm', hname⟩ := hshows s n l above side hn hl he
    obtain rfl := Option.some.inj (hm.symm.trans hm')
    exact ⟨_, side, hl, hname⟩
  refine ⟨hreached, hshows, hexact.material, hexact.texture, fun name hname => ?_, hused,
    fun name hname => ?_, fun i t ht => ?_⟩
  · obtain ⟨i, m, hm, rfl⟩ := hname.exists_entry hrec
    refine ⟨i, ⟨m, hm, rfl⟩, ?_⟩
    rintro j ⟨n, hn, hsame⟩
    exact hexact.materials_distinct j i n m hn hm hsame
  · obtain ⟨material, m, hmaterial, hm, rfl⟩ := hname
    obtain ⟨i, n, hn, rfl⟩ := hmaterial.exists_entry hrec
    obtain ⟨m', t, hm', -, ht, htname⟩ := hexact.material i n hn
    obtain rfl := Option.some.inj (hm.symm.trans hm')
    refine ⟨n.texture, ⟨t, ht, htname⟩, ?_⟩
    rintro j ⟨t', ht', hsame⟩
    exact hexact.textures_distinct j n.texture t' t ht' ht (hsame.trans htname.symm)
  · obtain ⟨j, n, hn, rfl⟩ := hexact.worn i (Arena.lt_size_of_getElem? ht)
    obtain ⟨m, t', hm, -, ht', hname⟩ := hexact.material j n hn
    obtain rfl := Option.some.inj (ht.symm.trans ht')
    exact ⟨n.name, m, hused j n hn, hm, hname.symm⟩

namespace Pair

/-- A copy of the pair with a material of its own for the inner sides. -/
def painted : Document Float :=
  let d := document (.copy { header with materials := some ⟨"m", "n"⟩ } "pair")
  { d with materials := d.materials.insert "n" ⟨.metal, "t", 1, 1, 1, 0, 0, 0, none, some 8⟩ }

end Pair

/-- In a painted copy of a pair of spheres both show one material outside and the other one inside,
and the materials have one texture. -/
theorem compile_pair_resolves : ∃ c,
    (compile (Pair.workshop Pair.painted) Pair.allocator).1 = .ok c ∧
      (c.arena.surfaces.toList.map fun n => (n.outer.material, n.inner.material)) =
        [(0, 1), (0, 1)] ∧
      (c.arena.materials.toList.map fun m => (m.name, m.texture)) = [("m", 0), ("n", 0)] ∧
      c.arena.Resolves (Pair.workshop Pair.painted) := by
  have htables : ((compile (Pair.workshop Pair.painted) Pair.allocator).1.toOption.map fun c =>
      (c.arena.surfaces.toList.map fun n => (n.outer.material, n.inner.material),
        c.arena.materials.toList.map fun m => (m.name, m.texture))) =
          some ([(0, 1), (0, 1)], [("m", 0), ("n", 0)]) := by
    decide +kernel
  rcases hc : (compile (Pair.workshop Pair.painted) Pair.allocator).1 with e | c
  · rw [hc] at htables
    cases htables
  · rw [hc] at htables
    obtain ⟨hsurfaces, hmaterials⟩ := Prod.mk.injEq .. ▸ Option.some.inj htables
    exact ⟨c, rfl, hsurfaces, hmaterials, compile_resolves hc⟩

end SolidTrace
