import Mathlib.Data.Nat.Basic
import Mathlib.Order.Basic
import Mathlib.Tactic.Common
import Mathlib.Tactic.Simps.Basic
import SolidTrace.Arena.Compile

/-!
Arenas that grow.

`Marks` say how many entries the tables of an arena have, so that two marks bound the entries that
came in between. An arena `Grows` into one that has all its entries in their places, and `Agrees`
compares two arenas between marks, where the surfaces may have been trimmed.
-/

namespace SolidTrace

variable {S : Type}

/-- Every entry of the first table is in its place in the second one. -/
def Kept {α : Type} (t t' : Array α) : Prop :=
  ∀ (i : ℕ) (x : α), t[i]? = some x → t'[i]? = some x

section

variable {α : Type} {t t' t'' : Array α}

lemma Kept.refl (t : Array α) : Kept t t := fun _ _ h => h

lemma Kept.trans (h : Kept t t') (h' : Kept t' t'') : Kept t t'' := fun i x hx => h' i x (h i x hx)

lemma Kept.push (t : Array α) (x : α) : Kept t (t.push x) := by
  intro i y hy
  obtain ⟨hi, rfl⟩ := Array.getElem?_eq_some_iff.mp hy
  rw [Array.getElem?_push, if_neg (by omega)]
  exact hy

lemma getElem?_push_cases {x y : α} {i : ℕ} (h : (t.push x)[i]? = some y) :
    t[i]? = some y ∨ i = t.size ∧ y = x := by
  rw [Array.getElem?_push] at h
  split at h
  · next hi => exact Or.inr ⟨hi, (Option.some.inj h).symm⟩
  · exact Or.inl h

lemma Kept.getElem? {i : ℕ} (h : Kept t t') (hi : i < t.size) : t'[i]? = t[i]? := by
  rw [h i t[i] (Array.getElem?_eq_getElem hi), Array.getElem?_eq_getElem hi]

end

lemma range'_append_range' {l m n : ℕ} (h : l ≤ m) (h' : m ≤ n) :
    List.range' l (m - l) ++ List.range' m (n - m) = List.range' l (n - l) := by
  obtain ⟨i, rfl⟩ := Nat.exists_eq_add_of_le h
  obtain ⟨j, rfl⟩ := Nat.exists_eq_add_of_le h'
  rw [Nat.add_sub_cancel_left, Nat.add_sub_cancel_left, List.range'_append_1,
    Nat.add_assoc, Nat.add_sub_cancel_left]

/-- Numbers of entries: where the next object, surface, array, camera and light go. -/
structure Marks where
  objects : ℕ
  surfaces : ℕ
  arrays : ℕ
  cameras : ℕ
  lights : ℕ

namespace Marks

def start : Marks := ⟨0, 0, 0, 0, 0⟩

@[simps]
def addObject (m : Marks) : Marks := { m with objects := m.objects + 1 }

@[simps]
def addSurface (m : Marks) : Marks := { m with surfaces := m.surfaces + 1 }

@[simps]
def addArray (m : Marks) : Marks := { m with arrays := m.arrays + 1 }

@[simps]
def addCamera (m : Marks) : Marks := { m with cameras := m.cameras + 1 }

@[simps]
def addLight (m : Marks) : Marks := { m with lights := m.lights + 1 }

/-- No table has more entries at the first marks than at the second ones. -/
structure Le (m n : Marks) : Prop where
  objects : m.objects ≤ n.objects
  surfaces : m.surfaces ≤ n.surfaces
  arrays : m.arrays ≤ n.arrays
  cameras : m.cameras ≤ n.cameras
  lights : m.lights ≤ n.lights

instance : LE Marks := ⟨Le⟩

variable {m n k : Marks}

lemma le_refl (m : Marks) : m ≤ m :=
  ⟨Nat.le_refl _, Nat.le_refl _, Nat.le_refl _, Nat.le_refl _, Nat.le_refl _⟩

lemma le_trans (h : m ≤ n) (h' : n ≤ k) : m ≤ k :=
  ⟨h.objects.trans h'.objects, h.surfaces.trans h'.surfaces, h.arrays.trans h'.arrays,
    h.cameras.trans h'.cameras, h.lights.trans h'.lights⟩

lemma le_addObject (m : Marks) : m ≤ m.addObject := by constructor <;> simp

lemma le_addArray (m : Marks) : m ≤ m.addArray := by constructor <;> simp

lemma le_of_steps {cut : ℕ → Marks} {n : ℕ} (h : ∀ q < n, cut q ≤ cut (q + 1)) {q r : ℕ}
    (hqr : q ≤ r) (hr : r ≤ n) : cut q ≤ cut r := by
  induction r, hqr using Nat.le_induction with
  | base => exact le_refl _
  | succ r hqr ih => exact le_trans (ih (by omega)) (h r (by omega))

end Marks

/-- Puts trims behind those that a surface has. -/
@[simps]
def SurfaceNode.addTrims (n : SurfaceNode S) (l : List (Trim ℕ ℕ)) : SurfaceNode S :=
  { n with trims := n.trims ++ l }

lemma SurfaceNode.addTrims_nil (n : SurfaceNode S) : n.addTrims [] = n := by
  cases n
  simp [SurfaceNode.addTrims]

lemma SurfaceNode.addTrims_addTrims (n : SurfaceNode S) (l l' : List (Trim ℕ ℕ)) :
    (n.addTrims l).addTrims l' = n.addTrims (l ++ l') := by
  simp [SurfaceNode.addTrims]

namespace Arena

def marks (a : Arena S) : Marks :=
  ⟨a.objects.size, a.surfaces.size, a.arrays.size, a.cameras.size, a.lights.size⟩

/-- Every material finds its texture. -/
def Supplied (a : Arena S) : Prop :=
  ∀ (i : ℕ) (m : MaterialNode S), a.materials[i]? = some m → m.texture < a.textures.size

/-- The second arena has every entry of the first one in its place, and does not lack textures that
the first one does not lack. -/
structure Grows (a a' : Arena S) : Prop where
  objects : Kept a.objects a'.objects
  surfaces : Kept a.surfaces a'.surfaces
  arrays : Kept a.arrays a'.arrays
  cameras : Kept a.cameras a'.cameras
  lights : Kept a.lights a'.lights
  materials : Kept a.materials a'.materials
  textures : Kept a.textures a'.textures
  supplied : a.Supplied → a'.Supplied

/-- Between marks the two arenas have the same entries, but for `ext` behind the trims of the
surfaces of the second one. -/
structure Agrees (a : Arena S) (ext : List (Trim ℕ ℕ)) (lo hi : Marks) (a' : Arena S) : Prop where
  objects : ∀ i, lo.objects ≤ i → i < hi.objects → a'.objects[i]? = a.objects[i]?
  surfaces : ∀ i, lo.surfaces ≤ i → i < hi.surfaces →
    a'.surfaces[i]? = a.surfaces[i]?.map (·.addTrims ext)
  arrays : ∀ i, lo.arrays ≤ i → i < hi.arrays → a'.arrays[i]? = a.arrays[i]?
  cameras : ∀ i, lo.cameras ≤ i → i < hi.cameras → a'.cameras[i]? = a.cameras[i]?
  lights : ∀ i, lo.lights ≤ i → i < hi.lights → a'.lights[i]? = a.lights[i]?
  materials : Kept a.materials a'.materials

variable {a b c : Arena S} {lo hi : Marks}

lemma Grows.refl (a : Arena S) : a.Grows a :=
  ⟨.refl _, .refl _, .refl _, .refl _, .refl _, .refl _, .refl _, id⟩

lemma Grows.trans (h : a.Grows b) (h' : b.Grows c) : a.Grows c :=
  ⟨h.objects.trans h'.objects, h.surfaces.trans h'.surfaces, h.arrays.trans h'.arrays,
    h.cameras.trans h'.cameras, h.lights.trans h'.lights, h.materials.trans h'.materials,
    h.textures.trans h'.textures, h'.supplied ∘ h.supplied⟩

/-- An arena that grows changes nothing below its marks. -/
lemma Grows.agrees (h : a.Grows b) (hm : hi ≤ a.marks) : a.Agrees [] lo hi b where
  objects i _ hlt := h.objects.getElem? (hlt.trans_le hm.objects)
  surfaces i _ hlt := by
    rw [h.surfaces.getElem? (hlt.trans_le hm.surfaces)]
    simp [SurfaceNode.addTrims_nil]
  arrays i _ hlt := h.arrays.getElem? (hlt.trans_le hm.arrays)
  cameras i _ hlt := h.cameras.getElem? (hlt.trans_le hm.cameras)
  lights i _ hlt := h.lights.getElem? (hlt.trans_le hm.lights)
  materials := h.materials

lemma grows_object (a : Arena S) (n : ObjectNode S) :
    a.Grows { a with objects := a.objects.push n } :=
  { Grows.refl a with objects := .push _ _ }

lemma grows_surface (a : Arena S) (n : SurfaceNode S) :
    a.Grows { a with surfaces := a.surfaces.push n } :=
  { Grows.refl a with surfaces := .push _ _ }

lemma grows_array (a : Arena S) (n : ArrayNode S) :
    a.Grows { a with arrays := a.arrays.push n } :=
  { Grows.refl a with arrays := .push _ _ }

lemma grows_camera (a : Arena S) (n : CameraNode S) :
    a.Grows { a with cameras := a.cameras.push n } :=
  { Grows.refl a with cameras := .push _ _ }

lemma grows_light (a : Arena S) (n : LightNode S) :
    a.Grows { a with lights := a.lights.push n } :=
  { Grows.refl a with lights := .push _ _ }

lemma marks_object (a : Arena S) (n : ObjectNode S) :
    marks { a with objects := a.objects.push n } = a.marks.addObject := by
  simp [marks, Marks.addObject]

lemma marks_surface (a : Arena S) (n : SurfaceNode S) :
    marks { a with surfaces := a.surfaces.push n } = a.marks.addSurface := by
  simp [marks, Marks.addSurface]

lemma marks_array (a : Arena S) (n : ArrayNode S) :
    marks { a with arrays := a.arrays.push n } = a.marks.addArray := by
  simp [marks, Marks.addArray]

lemma marks_camera (a : Arena S) (n : CameraNode S) :
    marks { a with cameras := a.cameras.push n } = a.marks.addCamera := by
  simp [marks, Marks.addCamera]

lemma marks_light (a : Arena S) (n : LightNode S) :
    marks { a with lights := a.lights.push n } = a.marks.addLight := by
  simp [marks, Marks.addLight]

lemma Agrees.mono {ext : List (Trim ℕ ℕ)} {lo' hi' : Marks} (h : a.Agrees ext lo hi b)
    (hl : lo ≤ lo') (hh : hi' ≤ hi) : a.Agrees ext lo' hi' b where
  objects i h₁ h₂ := h.objects i (hl.objects.trans h₁) (h₂.trans_le hh.objects)
  surfaces i h₁ h₂ := h.surfaces i (hl.surfaces.trans h₁) (h₂.trans_le hh.surfaces)
  arrays i h₁ h₂ := h.arrays i (hl.arrays.trans h₁) (h₂.trans_le hh.arrays)
  cameras i h₁ h₂ := h.cameras i (hl.cameras.trans h₁) (h₂.trans_le hh.cameras)
  lights i h₁ h₂ := h.lights i (hl.lights.trans h₁) (h₂.trans_le hh.lights)
  materials := h.materials

end Arena

end SolidTrace
