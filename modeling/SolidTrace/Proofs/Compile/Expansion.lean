import Mathlib.Data.List.Forall2
import SolidTrace.Number.Double
import SolidTrace.Proofs.Compile.Steps

/-!
Copies of library arrays are expansions.

`Document.Expands` replaces one copy, anywhere in the root or in the library, by the array that it
names. Compilation does not tell the two documents apart, unless it finds an array inside itself.
The walks over both documents are followed side by side. They carry different lists of the arrays
under way: the second walk may go on where the first one stops for recursion, and `Follows` leaves
that case open.
-/

namespace SolidTrace

variable {S : Type}

/-! ### Replacing a copy -/

/-- One copy in a part, or the part itself, is replaced by the array that it names. -/
inductive Part.Expands (library : Dict (Assembly S)) : Part S → Part S → Prop
  | copy {h : Header S} {name : String} {a : Assembly S} (ha : library.get? name = some a) :
      Expands library (.copy h name) (.assembly h a.parts a.relations)
  | within {h : Header S} {before after : List (Part S)} {relations : List Relation}
      {p q : Part S} (hp : Expands library p q) :
      Expands library (.assembly h (before ++ p :: after) relations)
        (.assembly h (before ++ q :: after) relations)

/-- One copy in an array is replaced by the array that it names. -/
inductive Assembly.Expands (library : Dict (Assembly S)) : Assembly S → Assembly S → Prop
  | within {before after : List (Part S)} {relations : List Relation} {p q : Part S}
      (hp : p.Expands library q) :
      Expands library ⟨before ++ p :: after, relations⟩ ⟨before ++ q :: after, relations⟩

/-- One copy in the root or in an array of the library is replaced by the array that it names. -/
inductive Document.Expands (d : Document S) : Document S → Prop
  | root {root : Assembly S} (h : d.root.Expands d.library root) : Expands d { d with root }
  | library {key : String} {a b : Assembly S} (ha : d.library.get? key = some a)
      (h : a.Expands d.library b) : Expands d { d with library := d.library.insert key b }

/-- The same part, or one with a copy replaced. -/
def Part.Near (library : Dict (Assembly S)) (p q : Part S) : Prop := q = p ∨ p.Expands library q

/-- The same array, or one with a copy replaced. -/
def Assembly.Near (library : Dict (Assembly S)) (a b : Assembly S) : Prop :=
  List.Forall₂ (Part.Near library) a.parts b.parts ∧ b.relations = a.relations

section

variable {library : Dict (Assembly S)}

lemma near_refl (l : List (Part S)) : List.Forall₂ (Part.Near library) l l :=
  List.forall₂_same.mpr fun _ _ => Or.inl rfl

lemma near_within {before after : List (Part S)} {p q : Part S} (h : p.Expands library q) :
    List.Forall₂ (Part.Near library) (before ++ p :: after) (before ++ q :: after) :=
  List.rel_append (near_refl before) (.cons (Or.inr h) (near_refl after))

lemma Assembly.Near.refl (a : Assembly S) : a.Near library a := ⟨near_refl a.parts, rfl⟩

lemma Assembly.Expands.near {a b : Assembly S} (h : a.Expands library b) : a.Near library b := by
  cases h with
  | within hp => exact ⟨near_within hp, rfl⟩

end

/-! ### Constructions side by side -/

namespace Build

variable {α β : Type}

/-- The second construction does what the first one does, unless the first one finds an array inside
itself. -/
def Follows (x y : Build S α) : Prop :=
  ∀ b, y b = x b ∨ ∃ name path b', x b = .error (.recursiveInstance name path) b'

lemma Follows.refl (x : Build S α) : Follows x x := fun _ => Or.inl rfl

lemma Follows.bind {x y : Build S α} {f g : α → Build S β} (h : Follows x y)
    (hf : ∀ a, Follows (f a) (g a)) : Follows (x >>= f) (y >>= g) := by
  intro b
  rcases h b with h | ⟨name, path, b', h⟩
  · rcases hx : x b with ⟨a, b₁⟩ | ⟨e, b₁⟩
    · rcases hf a b₁ with hfa | ⟨name, path, b', hfa⟩
      · exact Or.inl (by simp [Bind.bind, EStateM.bind, h, hx, hfa])
      · exact Or.inr ⟨name, path, b', by simp [Bind.bind, EStateM.bind, hx, hfa]⟩
    · exact Or.inl (by simp [Bind.bind, EStateM.bind, h, hx])
  · exact Or.inr ⟨name, path, b', by simp [Bind.bind, EStateM.bind, h]⟩

/-- A construction that stops for recursion is followed by everything. -/
lemma Follows.of_recursive (name path : String) (y : Build S α) :
    Follows (throw (.recursiveInstance name path)) y :=
  fun b => Or.inr ⟨name, path, b, rfl⟩

end Build

/-- The two workshops differ in the root and the library of their documents only. -/
structure Workshop.Alike (w v : Workshop S) : Prop where
  registry : v.registry = w.registry
  images : v.images = w.images
  materials : v.document.materials = w.document.materials
  textures : v.document.textures = w.document.textures

namespace Build

variable [Scalar S] {w v : Workshop S}

lemma texture_alike (h : w.Alike v) : texture v = texture w := by
  funext name material
  simp only [texture, h.textures, h.images]

lemma material_alike (h : w.Alike v) : material v = material w := by
  funext name path
  simp only [material, h.materials, texture_alike h]

lemma surface_alike (h : w.Alike v) : surface v = surface w := by
  funext s object spot forced path
  simp only [surface, face, material_alike h]

lemma object_alike (h : w.Alike v) : object v = object w := by
  funext header parent path
  simp only [object, h.registry]

lemma arrayFilled_follows {fill fill' : Spot → Build S (List (Occupant S))}
    (h : ∀ spot, Follows (fill spot) (fill' spot)) (object : Option Nat) (path : String)
    (count : Nat) (relations : List Relation) :
    Follows (arrayFilled object path count fill relations)
      (arrayFilled object path count fill' relations) := by
  refine .bind (.refl _) fun id => .bind (h _) fun occupants => .refl _

/-- Copies entered by `c'` follow those entered by `c`. -/
def CopyFollows (c c' : CopyBuild S) : Prop :=
  ∀ object path forced name, Follows (c object path forced name) (c' object path forced name)

/-- An array written out, with copies entered by `c'`, follows a copy of it entered by `c`. -/
def OutlineFollows (library : Dict (Assembly S)) (v : Workshop S) (c c' : CopyBuild S) : Prop :=
  ∀ object path forced name a, library.get? name = some a →
    Follows (c object path forced name) (array v c' (some object) path forced a.parts a.relations)

section

variable {library : Dict (Assembly S)} {c c' : CopyBuild S}

mutual

/-- Entering a part with a copy replaced follows entering the part. -/
theorem part_follows (h : w.Alike v) (hc : CopyFollows c c')
    (ho : OutlineFollows library v c c') (spot : Spot) (path : String) (forced : Option Override) :
    ∀ p q : Part S, p.Near library q →
      Follows (part w c spot path forced p) (part v c' spot path forced q)
  | .camera header c₁, q, hq => by
    obtain rfl : q = _ := by
      rcases hq with rfl | hq
      · rfl
      · cases hq
    simp only [part, object_alike h]
    exact .refl _
  | .light header l, q, hq => by
    obtain rfl : q = _ := by
      rcases hq with rfl | hq
      · rfl
      · cases hq
    simp only [part, object_alike h]
    exact .refl _
  | .surface header s, q, hq => by
    obtain rfl : q = _ := by
      rcases hq with rfl | hq
      · rfl
      · cases hq
    simp only [part, object_alike h, surface_alike h]
    exact .refl _
  | .copy header name, q, hq => by
    rcases hq with rfl | hq
    · simp only [part, object_alike h]
      exact .bind (.refl _) fun o => .bind (hc _ _ _ _) fun _ => .refl _
    · cases hq with
      | copy ha =>
        simp only [part, object_alike h]
        exact .bind (.refl _) fun o => .bind (ho _ _ _ _ _ ha) fun _ => .refl _
  | .assembly header content relations, q, hq => by
    obtain ⟨content', rfl, hp⟩ : ∃ content', q = .assembly header content' relations ∧
        List.Forall₂ (Part.Near library) content content' := by
      rcases hq with rfl | hq
      · exact ⟨content, rfl, near_refl content⟩
      · cases hq with
        | within hp => exact ⟨_, rfl, near_within hp⟩
    simp only [part, object_alike h, hp.length_eq]
    refine .bind (.refl _) fun o => .bind ?_ fun _ => .refl _
    exact arrayFilled_follows
      (fun spot => parts_follows h hc ho spot _ _ content content' hp) _ _ _ _

/-- Entering parts with a copy replaced follows entering the parts. -/
theorem parts_follows (h : w.Alike v) (hc : CopyFollows c c')
    (ho : OutlineFollows library v c c') (spot : Spot) (path : String) (forced : Option Override) :
    ∀ ps qs : List (Part S), List.Forall₂ (Part.Near library) ps qs →
      Follows (parts w c spot path forced ps) (parts v c' spot path forced qs)
  | [], _, .nil => .refl _
  | p :: ps, q :: qs, .cons hp hps => by
    simp only [parts]
    exact .bind (part_follows h hc ho spot path forced p q hp) fun _ =>
      .bind (parts_follows h hc ho _ path forced ps qs hps) fun _ => .refl _

end

lemma array_follows (h : w.Alike v) (hc : CopyFollows c c') (ho : OutlineFollows library v c c')
    (object : Option Nat) (path : String) (forced : Option Override) {a b : Assembly S}
    (hab : a.Near library b) :
    Follows (array w c object path forced a.parts a.relations)
      (array v c' object path forced b.parts b.relations) := by
  simp only [array, hab.1.length_eq, hab.2]
  exact arrayFilled_follows (fun spot => parts_follows h hc ho spot _ _ _ _ hab.1) _ _ _ _

end

/-- The libraries have the same names, and their arrays differ at most in a copy replaced. -/
def LibraryNear (library library' : Dict (Assembly S)) : Prop :=
  ∀ name, Option.Rel (Assembly.Near library) (library.get? name) (library'.get? name)

/-- Where both libraries have an array, copies on both sides need to be compared only outside of
itself. -/
lemma copyFollows_of {bound bound' : ℕ} {active active' : List String}
    (hl : LibraryNear w.document.library v.document.library)
    (hin : ∀ object path forced name a b, w.document.library.get? name = some a →
      v.document.library.get? name = some b → a.Near w.document.library b → name ∉ active →
      Follows (copy w bound active object path forced name)
        (copy v bound' active' object path forced name)) :
    CopyFollows (copy w bound active) (copy v bound' active') := by
  intro object path forced name
  have hn := hl name
  rcases hw : w.document.library.get? name with _ | a
  · rw [hw] at hn
    have hv : v.document.library.get? name = none := by
      rcases hv : v.document.library.get? name with _ | b
      · rfl
      · rw [hv] at hn; cases hn
    rw [copy_of_get?_eq_none hw, copy_of_get?_eq_none hv]
    exact .refl _
  · by_cases hm : name ∈ active
    · rw [copy_of_mem hw hm]
      exact .of_recursive _ _ _
    · rw [hw] at hn
      rcases hv : v.document.library.get? name with _ | b
      · rw [hv] at hn; cases hn
      · rw [hv] at hn
        obtain ⟨hab⟩ := hn
        exact hin _ _ _ _ a b hw hv hab hm

/-- **Copies on both sides.** The second walk may be inside fewer arrays than the first one, and may
go deeper. -/
theorem copy_follows (h : w.Alike v)
    (hl : LibraryNear w.document.library v.document.library) :
    ∀ (bound bound' : ℕ) (active active' : List String), bound ≤ bound' → active' ⊆ active →
      CopyFollows (copy w bound active) (copy v bound' active') ∧
        OutlineFollows w.document.library v (copy w bound active) (copy v bound' active') := by
  intro bound
  -- on the bound of the first walk: it stops for recursion where the second one may go on
  induction bound with
  | zero =>
    intro bound' active active' _ _
    refine ⟨copyFollows_of hl fun object path forced name a b hw _ _ _ => ?_,
      fun object path forced name a ha => ?_⟩
    · rw [copy_zero hw]
      exact .of_recursive _ _ _
    · rw [copy_zero ha]
      exact .of_recursive _ _ _
  | succ bound ih =>
    intro bound' active active' hb hsub
    refine ⟨copyFollows_of hl fun object path forced name a b hw hv hab hm => ?_,
      fun object path forced name a ha => ?_⟩
    · have hm' : name ∉ active' := fun hmem => hm (hsub hmem)
      obtain ⟨deeper, rfl⟩ : ∃ deeper, bound' = deeper + 1 := ⟨bound' - 1, by omega⟩
      obtain ⟨hc, ho⟩ := ih deeper (name :: active) (name :: active') (by omega)
        (List.cons_subset_cons name hsub)
      rw [copy_succ hw hm, copy_succ hv hm']
      exact array_follows h hc ho _ _ _ hab
    · by_cases hm : name ∈ active
      · rw [copy_of_mem ha hm]
        exact .of_recursive _ _ _
      · -- the array written out is not under way for the second walk
        obtain ⟨hc, ho⟩ := ih bound' (name :: active) active' (by omega)
          (List.subset_cons_of_subset name hsub)
        rw [copy_succ ha hm]
        exact array_follows h hc ho _ _ _ (.refl a)

lemma document_follows (h : w.Alike v)
    (hl : LibraryNear w.document.library v.document.library)
    (hs : v.document.library.size = w.document.library.size)
    (hr : w.document.root.Near w.document.library v.document.root) :
    Follows (document w) (document v) := by
  obtain ⟨hc, ho⟩ := copy_follows h hl w.document.library.size v.document.library.size [] []
    (le_of_eq hs.symm) (List.Subset.refl [])
  exact .bind (array_follows h hc ho _ _ _ hr) fun _ => .refl _

end Build

namespace Document

variable {d d' : Document S}

lemma Expands.alike (h : d.Expands d') (registry : Registry S) (images : ImageSource) :
    Workshop.Alike ⟨d, registry, images⟩ ⟨d', registry, images⟩ := by
  cases h <;> exact ⟨rfl, rfl, rfl, rfl⟩

lemma Expands.root_near (h : d.Expands d') : d.root.Near d.library d'.root := by
  cases h with
  | root h => exact h.near
  | library => exact .refl _

lemma Expands.library_near (h : d.Expands d') : Build.LibraryNear d.library d'.library := by
  intro name
  cases h with
  | root =>
    rcases d.library.get? name with _ | a
    · exact .none
    · exact .some (.refl a)
  | @library key a b ha h =>
    rw [Dict.get?_insert]
    split
    · next hk =>
      subst hk
      rw [ha]
      exact .some h.near
    · rcases d.library.get? name with _ | a
      · exact .none
      · exact .some (.refl a)

lemma Expands.library_size (h : d.Expands d') : d'.library.size = d.library.size := by
  cases h with
  | root => rfl
  | library ha => exact Dict.size_insert _ ha

end Document

/-- **Copies are expansions.** A document with a copy replaced by the array that it names compiles
to the same arena with the same blocks, or fails with the same error, and leaves the allocator as
the document itself does, unless the document is refused for an array inside itself. -/
theorem compile_expands [Scalar S] {d d' : Document S} (hd : d.Expands d') (registry : Registry S)
    (images : ImageSource) (allocator : Allocator)
    (hr : ∀ name path,
      (compile ⟨d, registry, images⟩ allocator).1 ≠ .error (.recursiveInstance name path)) :
    compile ⟨d', registry, images⟩ allocator = compile ⟨d, registry, images⟩ allocator := by
  have hf := Build.document_follows (hd.alike registry images) hd.library_near hd.library_size
    hd.root_near ⟨Arena.empty, Ledger.empty, allocator⟩
  rcases hf with heq | ⟨name, path, b, herr⟩
  · simp only [compile, heq]
  · exact absurd (by simp only [compile, herr]) (hr name path)

/-! ### A pair of spheres -/

namespace Pair

/-- Nothing but what the part itself is. -/
def header : Header Float := ⟨none, Placement.identity, none, none, 0⟩

def sphere : Part Float :=
  .surface header ⟨.sphere 1, Surface.noClip, ⟨Mapping.identity, "m"⟩, ⟨Mapping.identity, "m"⟩⟩

/-- Two spheres with a box around them, of which the first one lacks what is inside the second
one. -/
def assembly : Assembly Float :=
  ⟨[sphere, sphere], [⟨0, .minusOuter, 1⟩, ⟨-1, .boundArray, -1⟩]⟩

def camera : Part Float :=
  .camera header ⟨0, 0.5, 1, Camera.defaultSpeed, Camera.defaultTurning⟩

def document (p : Part Float) : Document Float where
  version := "1"
  materials := Dict.empty.insert "m" ⟨.plain, "t", 1, 1, 1, 0, 0, 0, none, none⟩
  textures := Dict.empty.insert "t" (.color 0)
  library := Dict.empty.insert "pair" assembly
  root := ⟨[camera, p], []⟩

/-- The document with a copy of the pair. -/
def copied : Document Float := document (.copy header "pair")

/-- The document with the pair in place of the copy. -/
def written : Document Float := document (.assembly header assembly.parts assembly.relations)

def workshop (d : Document Float) : Workshop Float := ⟨d, Registry.empty, fun _ => .error ""⟩

def allocator : Allocator := .heap (Heap.ofBudget none)

lemma copied_expands : copied.Expands written := by
  have hget : copied.library.get? "pair" = some assembly :=
    (Dict.get?_insert ..).trans (if_pos rfl)
  exact .root (@Assembly.Expands.within _ _ [camera] [] _ _ _ (.copy hget))

lemma exists_compiled : ∃ c, (compile (workshop copied) allocator).1 = .ok c := by
  have hok : (compile (workshop copied) allocator).1.isOk = true := by decide +kernel
  rcases hc : (compile (workshop copied) allocator).1 with e | c
  · rw [hc] at hok
    cases hok
  · exact ⟨c, rfl⟩

end Pair

/-- A copy of a pair of spheres, and the pair. -/
theorem compile_pair :
    Pair.copied.Expands Pair.written ∧
      (∀ name path, (compile (Pair.workshop Pair.copied) Pair.allocator).1 ≠
        .error (.recursiveInstance name path)) ∧
      compile (Pair.workshop Pair.written) Pair.allocator =
        compile (Pair.workshop Pair.copied) Pair.allocator := by
  obtain ⟨c, hc⟩ := Pair.exists_compiled
  have hr : ∀ name path, (compile (Pair.workshop Pair.copied) Pair.allocator).1 ≠
      .error (.recursiveInstance name path) := by
    intro name path herr
    cases hc.symm.trans herr
  exact ⟨Pair.copied_expands, hr, compile_expands Pair.copied_expands _ _ _ hr⟩

end SolidTrace
