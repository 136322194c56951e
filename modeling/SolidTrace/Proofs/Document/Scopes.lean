import Mathlib.Data.Set.Card
import SolidTrace.Proofs.Arena.Records

/-!
The expansion of a document.

With every copy read as the array that it names, the root of a document is a tree of arrays, without
end where an array is a copy of itself. A `Scope` is an array at its place in that tree, and an
address is the positions that lead there. What makes a document valid is said of this tree alone,
not of its construction.
-/

namespace SolidTrace

variable {S : Type}

/-- An array at its place in the expansion: below copies of the library arrays `active`, and under
the innermost override. -/
structure Scope (S : Type) where
  active : List String
  forced : Option Override
  content : Assembly S

namespace Part

/-- The library array that a part is a copy of. -/
def copied : Part S → List String
  | .copy _ name => [name]
  | .camera _ _ | .light _ _ | .surface _ _ | .assembly _ _ _ => []

/-- The array that a part stands for, at the place that it has inside of the part. -/
def scope? (d : Document S) (active : List String) (forced : Option Override) (p : Part S) :
    Option (Scope S) :=
  (p.array? d).map fun content => ⟨p.copied ++ active, p.header.materials <|> forced, content⟩

def isCamera : Part S → Bool
  | .camera _ _ => true
  | .light _ _ | .surface _ _ | .assembly _ _ _ | .copy _ _ => false

def isLight : Part S → Bool
  | .light _ _ => true
  | .camera _ _ | .surface _ _ | .assembly _ _ _ | .copy _ _ => false

end Part

/-- The root of the expansion. -/
def Document.scope (d : Document S) : Scope S := ⟨[], none, d.root⟩

namespace Scope

variable (d : Document S)

/-- The array at an address. -/
def descend? (s : Scope S) : List ℕ → Option (Scope S)
  | [] => some s
  | q :: address => do
    let p ← s.content.parts[q]?
    let inner ← p.scope? d s.active s.forced
    inner.descend? address

/-- The second array is the first one or below it. -/
def Below (s inner : Scope S) : Prop := ∃ address, s.descend? d address = some inner

/-- The places, below an array or in it, of the parts that are asked for: the address of their array
and their position there. -/
def places (s : Scope S) (asked : Part S → Bool) : Set (List ℕ × ℕ) :=
  {x | ∃ inner p, s.descend? d x.1 = some inner ∧ inner.content.parts[x.2]? = some p ∧
    asked p = true}

/-- How many parts of the expansion of an array are asked for. -/
noncomputable def count (s : Scope S) (asked : Part S → Bool) : ℕ∞ := (s.places d asked).encard

variable {d} {active : List String} {forced : Option Override} {p : Part S} {ps : List (Part S)}
  {relations : List Relation} {asked : Part S → Bool}

lemma Below.refl (s : Scope S) : s.Below d s := ⟨[], rfl⟩

lemma descend?_cons {s : Scope S} {q : ℕ} {address : List ℕ} {inner : Scope S} :
    s.descend? d (q :: address) = some inner ↔ ∃ p between, s.content.parts[q]? = some p ∧
      p.scope? d s.active s.forced = some between ∧ between.descend? d address = some inner := by
  simp only [descend?, Option.bind_eq_bind, Option.bind_eq_some_iff]
  constructor
  · rintro ⟨p, hp, between, hbetween, h⟩
    exact ⟨p, between, hp, hbetween, h⟩
  · rintro ⟨p, between, hp, hbetween, h⟩
    exact ⟨p, hp, between, hbetween, h⟩

lemma Below.of_mem {s between inner : Scope S} (hp : p ∈ s.content.parts)
    (hbetween : p.scope? d s.active s.forced = some between) (h : between.Below d inner) :
    s.Below d inner := by
  obtain ⟨q, hq, hget⟩ := List.getElem_of_mem hp
  obtain ⟨address, haddress⟩ := h
  exact ⟨q :: address, descend?_cons.mpr
    ⟨p, between, List.getElem?_eq_some_iff.mpr ⟨hq, hget⟩, hbetween, haddress⟩⟩

lemma forall_below_iff {s : Scope S} {P : Scope S → Prop} :
    (∀ inner, s.Below d inner → P inner) ↔ P s ∧ ∀ p ∈ s.content.parts, ∀ between,
      p.scope? d s.active s.forced = some between → ∀ inner, between.Below d inner → P inner := by
  constructor
  · intro h
    exact ⟨h s (.refl s), fun p hp between hbetween inner hinner =>
      h inner (.of_mem hp hbetween hinner)⟩
  · rintro ⟨hs, h⟩ inner ⟨address | ⟨q, address⟩, haddress⟩
    · cases haddress
      exact hs
    · obtain ⟨p, between, hp, hbetween, haddress⟩ := descend?_cons.mp haddress
      exact h p (List.mem_of_getElem? hp) between hbetween inner ⟨address, haddress⟩

lemma mem_places_nil {s : Scope S} {k : ℕ} :
    ([], k) ∈ s.places d asked ↔ ∃ p, s.content.parts[k]? = some p ∧ asked p = true := by
  constructor
  · rintro ⟨inner, p, hinner, hp⟩
    obtain rfl : s = inner := Option.some.inj hinner
    exact ⟨p, hp⟩
  · rintro ⟨p, hp⟩
    exact ⟨s, p, rfl, hp⟩

lemma mem_places_cons {s : Scope S} {q : ℕ} {address : List ℕ} {k : ℕ} :
    (q :: address, k) ∈ s.places d asked ↔ ∃ p between, s.content.parts[q]? = some p ∧
      p.scope? d s.active s.forced = some between ∧ (address, k) ∈ between.places d asked := by
  constructor
  · rintro ⟨inner, p, hinner, hp⟩
    obtain ⟨p', between, hp', hbetween, hinner⟩ := descend?_cons.mp hinner
    exact ⟨p', between, hp', hbetween, inner, p, hinner, hp⟩
  · rintro ⟨p', between, hp', hbetween, inner, p, hinner, hp⟩
    exact ⟨inner, p, descend?_cons.mpr ⟨p', between, hp', hbetween, hinner⟩, hp⟩

lemma count_nil : count d ⟨active, forced, ⟨[], relations⟩⟩ asked = 0 := by
  rw [count, Set.encard_eq_zero, Set.eq_empty_iff_forall_notMem]
  rintro ⟨_ | ⟨q, address⟩, k⟩ h
  · obtain ⟨_, hp, -⟩ := mem_places_nil.mp h
    cases hp
  · obtain ⟨_, _, hp, -⟩ := mem_places_cons.mp h
    cases hp

/-- The number of parts asked for in one part and its expansion. -/
noncomputable def partCount (d : Document S) (active : List String) (forced : Option Override)
    (asked : Part S → Bool) (p : Part S) : ℕ∞ :=
  (if asked p then 1 else 0) + (p.scope? d active forced).elim 0 fun inner => inner.count d asked

/-- Where a place comes to lie when a part is put before those of its array. -/
def shift : List ℕ × ℕ → List ℕ × ℕ
  | ([], k) => ([], k + 1)
  | (q :: address, k) => ((q + 1) :: address, k)

lemma shift_injective : Function.Injective shift := by
  rintro ⟨_ | ⟨q, address⟩, k⟩ ⟨_ | ⟨q', address'⟩, k'⟩ h <;> simp_all [shift]

lemma shift_ne_first {x : List ℕ × ℕ} : shift x ≠ ([], 0) := by
  rcases x with ⟨_ | ⟨q, address⟩, k⟩ <;> simp [shift]

lemma shift_ne_below_first {x : List ℕ × ℕ} {address : List ℕ} {k : ℕ} :
    shift x ≠ (0 :: address, k) := by
  rcases x with ⟨_ | ⟨q, address⟩, k⟩ <;> simp [shift]

/-- Where a place comes to lie when its array is the first part of another one. -/
def enclose (x : List ℕ × ℕ) : List ℕ × ℕ := (0 :: x.1, x.2)

lemma enclose_injective : Function.Injective enclose := by
  rintro ⟨address, k⟩ ⟨address', k'⟩ h
  simp_all [enclose]

/-- A part asked for is the first part, or below it, or among the other parts or below them. -/
lemma places_cons : places d ⟨active, forced, ⟨p :: ps, relations⟩⟩ asked =
    {x | x = ([], 0) ∧ asked p = true} ∪
      (enclose '' {x | ∃ inner, p.scope? d active forced = some inner ∧ x ∈ inner.places d asked} ∪
        shift '' places d ⟨active, forced, ⟨ps, relations⟩⟩ asked) := by
  ext ⟨_ | ⟨_ | q, address⟩, k⟩
  case nil =>
    rcases k with _ | k
    · simp [mem_places_nil, enclose, shift_ne_first]
    · rw [show ([], k + 1) = shift ([], k) from rfl]
      simp only [Set.mem_union, shift_injective.mem_set_image]
      simp [mem_places_nil, enclose, shift]
  case cons.zero => simp [mem_places_cons, enclose, shift_ne_below_first]
  case cons.succ =>
    rw [show ((q + 1) :: address, k) = shift (q :: address, k) from rfl]
    simp only [Set.mem_union, shift_injective.mem_set_image]
    simp [mem_places_cons, enclose, shift]

/-- **Counting** goes part by part. -/
theorem count_cons : count d ⟨active, forced, ⟨p :: ps, relations⟩⟩ asked =
    partCount d active forced asked p + count d ⟨active, forced, ⟨ps, relations⟩⟩ asked := by
  have hfirst : {x : List ℕ × ℕ | x = ([], 0) ∧ asked p = true}.encard =
      if asked p then 1 else 0 := by
    split
    · next h => simp [h]
    · next h => simp [h]
  have hbelow : {x | ∃ inner, p.scope? d active forced = some inner ∧
      x ∈ inner.places d asked}.encard =
        (p.scope? d active forced).elim 0 fun inner => inner.count d asked := by
    rcases p.scope? d active forced with _ | inner
    · simp
    · simp [count]
  rw [count, places_cons, Set.encard_union_eq, Set.encard_union_eq, shift_injective.encard_image,
    enclose_injective.encard_image, hfirst, hbelow, partCount, add_assoc]
  · rfl
  · rw [Set.disjoint_left]
    rintro _ ⟨x, -, rfl⟩ ⟨y, -, hy⟩
    exact shift_ne_below_first hy
  · rw [Set.disjoint_left]
    rintro _ ⟨rfl, -⟩ (⟨y, -, hy⟩ | ⟨y, -, hy⟩)
    · cases hy
    · exact shift_ne_first hy

end Scope

variable [Scalar S]

/-- The clip bounds, infinite from `unbounded` on, are numbers and do not cross on any axis. -/
def Surface.Clips (s : Surface S) : Prop :=
  ∀ axis, Scalar.isNaN (Build.clipBound (s.clip.min.get axis)) = false ∧
    Scalar.isNaN (Build.clipBound (s.clip.max.get axis)) = false ∧
    Build.clipBound (s.clip.min.get axis) ≤ Build.clipBound (s.clip.max.get axis)

/-- A texture is declared and can be loaded. -/
def Workshop.Loads (w : Workshop S) (name : String) : Prop :=
  ∃ source texture, w.document.textures.get? name = some source ∧
    Texture.load w.images source = .ok texture

/-- A material is declared, and its texture can be loaded. -/
def Workshop.Provides (w : Workshop S) (name : String) : Prop :=
  ∃ m, w.document.materials.get? name = some m ∧ w.Loads m.texture

/-- What is asked of a part below copies of the arrays `active` and under an override. -/
structure Part.Valid (w : Workshop S) (active : List String) (forced : Option Override)
    (p : Part S) : Prop where
  /-- It is a copy of no array but one of the library that it does not stand in. -/
  copied : ∀ name ∈ p.copied, (w.document.library.get? name).isSome ∧ name ∉ active
  /-- Its animator is known. -/
  animated : ∀ name, p.header.animation = some (.custom name) →
    (Dict.get? w.registry name).isSome
  clipped : ∀ h s, p = .surface h s → s.Clips
  /-- The materials of both sides can be had, the innermost override before those of the part. -/
  covered : ∀ h s, p = .surface h s →
    w.Provides (((h.materials <|> forced).map (·.outer)).getD s.outer.material) ∧
      w.Provides (((h.materials <|> forced).map (·.inner)).getD s.inner.material)

/-- What is asked of an array: of its parts, and of its program by what they are. -/
structure Scope.Valid (w : Workshop S) (s : Scope S) : Prop where
  parts : ∀ p ∈ s.content.parts, p.Valid w s.active s.forced
  program : ∃ outcome, Program.run (s.content.parts.map Part.kind) s.content.relations = .ok outcome

/-- What is asked of a document. -/
structure Workshop.Valid (w : Workshop S) : Prop where
  scopes : ∀ s, w.document.scope.Below w.document s → s.Valid w
  one_le_cameras : 1 ≤ w.document.scope.count w.document Part.isCamera
  cameras_le : w.document.scope.count w.document Part.isCamera ≤ maxCameras
  lights_le : w.document.scope.count w.document Part.isLight ≤ maxLights

end SolidTrace
