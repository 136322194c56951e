import SolidTrace.Proofs.Program.Order
import SolidTrace.Proofs.Tracing.Culling

/-!
Arenas that are traced alike.

Where two arenas differ in the order of trims and of collected surfaces only, a lookup that one
search makes may be left out by the other one, since both stop at the first trim that a point does
not survive. But wherever both come to a result it is the same, whatever the snapshot; and where all
lookups are in range, both do.
-/

namespace SolidTrace

open scoped List

variable {S : Type}

/-- Surfaces with the same trims in other orders. -/
structure SurfaceNode.Shuffled (n n' : SurfaceNode S) : Prop where
  eq : n' = { n with trims := n'.trims }
  trims : n.trims ~ n'.trims

/-- Arrays that collect the same surfaces in other orders. -/
structure ArrayNode.Shuffled (n n' : ArrayNode S) : Prop where
  eq : n' = { n with accumulator := n'.accumulator }
  accumulator : n.accumulator ~ n'.accumulator

lemma SurfaceNode.Shuffled.refl (n : SurfaceNode S) : n.Shuffled n := ⟨rfl, .refl _⟩

lemma ArrayNode.Shuffled.refl (n : ArrayNode S) : n.Shuffled n := ⟨rfl, .refl _⟩

/-- Arenas that agree except for the order inside of trims and of collected surfaces. -/
structure Arena.Shuffled (a a' : Arena S) : Prop where
  objects : a'.objects = a.objects
  surfaces : List.Forall₂ SurfaceNode.Shuffled a.surfaces.toList a'.surfaces.toList
  arrays : List.Forall₂ ArrayNode.Shuffled a.arrays.toList a'.arrays.toList
  cameras : a'.cameras = a.cameras
  lights : a'.lights = a.lights
  materials : a'.materials = a.materials
  textures : a'.textures = a.textures

namespace Arena.Shuffled

variable {a a' : Arena S}

lemma refl (a : Arena S) : a.Shuffled a :=
  ⟨rfl, List.forall₂_same.mpr fun n _ => .refl n, List.forall₂_same.mpr fun n _ => .refl n, rfl,
    rfl, rfl, rfl⟩

lemma size_surfaces (h : a.Shuffled a') : a'.surfaces.size = a.surfaces.size := by
  simpa using h.surfaces.length_eq.symm

lemma size_arrays (h : a.Shuffled a') : a'.arrays.size = a.arrays.size := by
  simpa using h.arrays.length_eq.symm

end Arena.Shuffled

/-- Where both computations have a result, it is the same. -/
def Concur {ε α : Type} (x y : Except ε α) : Prop := ∀ a b, x = .ok a → y = .ok b → a = b

namespace Concur

variable {ε α β γ : Type}

lemma refl (x : Except ε α) : Concur x x := fun _ _ h h' => Except.ok.inj (h.symm.trans h')

lemma bind {x y : Except ε α} {f g : α → Except ε β} (h : Concur x y)
    (hf : ∀ a, Concur (f a) (g a)) : Concur (x >>= f) (y >>= g) := by
  intro b c hb hc
  rcases x with e | a
  · cases hb
  rcases y with e | a'
  · cases hc
  obtain rfl := h a a' rfl rfl
  exact hf a b c hb hc

lemma foldlM {f g : β → γ → Except ε β} (h : ∀ b c, Concur (f b c) (g b c)) (l : List γ) (b : β) :
    Concur (l.foldlM f b) (l.foldlM g b) := by
  induction l generalizing b with
  | nil => exact .refl _
  | cons c l ih => exact (h b c).bind ih

lemma fetch {R : α → α → Prop} {xs ys : Array α} (h : List.Forall₂ R xs.toList ys.toList) (i : ℕ)
    {f g : α → Except Fault β} (hf : ∀ a b, R a b → Concur (f a) (g b)) :
    Concur (SolidTrace.fetch xs i >>= f) (SolidTrace.fetch ys i >>= g) := by
  rcases hx : SolidTrace.fetch xs i with e | a
  · exact fun _ _ h => nomatch h
  rcases hy : SolidTrace.fetch ys i with e | b
  · exact fun _ _ _ h => nomatch h
  refine hf a b ?_
  have ha := getElem?_of_fetch hx
  have hb := getElem?_of_fetch hy
  rw [← Array.getElem?_toList, List.getElem?_eq_some_iff] at ha hb
  obtain ⟨hi, rfl⟩ := ha
  obtain ⟨hj, rfl⟩ := hb
  exact h.get hi hj

end Concur

namespace Tracer

variable [Scalar S] {t : Tracer S} {a : Arena S} {owner : ℕ} {point : Vec S}

lemma clearOf_ok {l : List ℕ} {b : Bool} (h : t.clearOf owner point l = .ok b) :
    if b then ∀ s ∈ l, s ≠ owner → t.insideSurface point s = .ok false
    else ∃ s ∈ l, s ≠ owner ∧ t.insideSurface point s = .ok true := by
  induction l with
  | nil =>
    obtain rfl := Except.ok.inj h
    exact fun s hs => nomatch hs
  | cons s l ih =>
    unfold clearOf at h
    rcases hs : t.insideSurface point s with e | inside
    · rw [hs] at h
      cases h
    rw [hs, ok_bind] at h
    split at h
    · next hcut =>
      obtain rfl := Except.ok.inj h
      obtain ⟨hne, rfl⟩ : s ≠ owner ∧ inside = true := by simpa using hcut
      exact ⟨s, List.mem_cons_self, hne, hs⟩
    · next hclear =>
      have hrest := ih h
      have hout : s ≠ owner → inside = false := by simpa using hclear
      cases b with
      | true => exact List.forall_mem_cons.mpr ⟨fun hne => hs.trans (by rw [hout hne]), hrest⟩
      | false =>
        obtain ⟨r, hr, hcut⟩ := hrest
        exact ⟨r, List.mem_cons_of_mem _ hr, hcut⟩

lemma trimsKeep_ok {l : List (Trim ℕ ℕ)} {b : Bool} (h : t.trimsKeep owner point l = .ok b) :
    if b then ∀ x ∈ l, t.trimKeeps owner point x = .ok true
    else ∃ x ∈ l, t.trimKeeps owner point x = .ok false := by
  induction l with
  | nil =>
    obtain rfl := Except.ok.inj h
    exact fun x hx => nomatch hx
  | cons x l ih =>
    unfold trimsKeep at h
    rcases hx : t.trimKeeps owner point x with e | _ | _
    · rw [hx] at h
      cases h
    · rw [hx] at h
      obtain rfl := Except.ok.inj h
      exact ⟨x, List.mem_cons_self, hx⟩
    · rw [hx] at h
      have hrest := ih h
      cases b with
      | true => exact List.forall_mem_cons.mpr ⟨hx, hrest⟩
      | false =>
        obtain ⟨y, hy, hfalse⟩ := hrest
        exact ⟨y, List.mem_cons_of_mem _ hy, hfalse⟩

def within (t : Tracer S) (a : Arena S) : Tracer S := { t with arena := a }

lemma concur_clearOf {l l' : List ℕ} (h : l ~ l') :
    Concur (t.clearOf owner point l) ((t.within a).clearOf owner point l') := by
  intro b c hb hc
  have hb := clearOf_ok hb
  have hc := clearOf_ok hc
  cases b with
  | true =>
    cases c with
    | true => rfl
    | false =>
      obtain ⟨s, hs, hne, hinside⟩ := hc
      cases (hb s (h.mem_iff.mpr hs) hne).symm.trans hinside
  | false =>
    cases c with
    | true =>
      obtain ⟨s, hs, hne, hinside⟩ := hb
      cases (hc s (h.mem_iff.mp hs) hne).symm.trans hinside
    | false => rfl

variable (h : t.arena.Shuffled a)

include h

lemma concur_trimKeeps (x : Trim ℕ ℕ) :
    Concur (t.trimKeeps owner point x) ((t.within a).trimKeeps owner point x) := by
  cases x with
  | outer s => exact .refl _
  | inner s => exact .refl _
  | accum i => exact Concur.fetch h.arrays i fun n n' hn => concur_clearOf hn.accumulator

lemma concur_trimsKeep {l l' : List (Trim ℕ ℕ)} (hl : l ~ l') :
    Concur (t.trimsKeep owner point l) ((t.within a).trimsKeep owner point l') := by
  intro b c hb hc
  have hb := trimsKeep_ok hb
  have hc := trimsKeep_ok hc
  cases b with
  | true =>
    cases c with
    | true => rfl
    | false =>
      obtain ⟨x, hx, hcut⟩ := hc
      exact (concur_trimKeeps h x _ _ (hb x (hl.mem_iff.mpr hx)) hcut)
  | false =>
    cases c with
    | true =>
      obtain ⟨x, hx, hcut⟩ := hb
      exact concur_trimKeeps h x _ _ hcut (hc x (hl.mem_iff.mp hx))
    | false => rfl

lemma concur_firstKept (ray : Ray S) (s : ℕ) {l l' : List (Trim ℕ ℕ)} (hl : l ~ l')
    (candidates : List (S × Vec S)) : Concur (t.firstKept ray s l candidates)
      ((t.within a).firstKept ray s l' candidates) := by
  induction candidates with
  | nil => exact .refl _
  | cons c candidates ih =>
    unfold firstKept
    refine .bind (concur_trimsKeep h hl) fun kept => ?_
    split
    · exact .refl _
    · exact ih

lemma concur_hitSurface (ray : Ray S) (limit : S) (s : ℕ) :
    Concur (t.hitSurface ray limit s) ((t.within a).hitSurface ray limit s) := by
  refine .bind (.refl _) fun pose => ?_
  cases pose with
  | none => exact .refl _
  | some pose =>
    exact Concur.fetch h.surfaces s fun n n' hn =>
      .bind (concur_firstKept h ray s hn.trims _) fun _ => .refl _

lemma concur_element (ray : Ray S) (tMax : S) (s : Search S) (e : Element) :
    Concur (t.element ray tMax s e) ((t.within a).element ray tMax s e) := by
  cases e with
  | surface id => exact .bind (concur_hitSurface h ray _ id) fun _ => .refl _
  | array id => exact .refl _
  | camera id => exact .refl _
  | light id => exact .refl _

lemma concur_elements (ray : Ray S) (tMax : S) {n n' : ArrayNode S} (hn : n.Shuffled n')
    (culled : Bool) (s : Search S) : Concur (t.elements ray tMax n culled s)
      ((t.within a).elements ray tMax n' culled s) := by
  rw [hn.eq]
  unfold elements
  refine Concur.foldlM (fun s c => ?_) _ s
  have hlook : ∀ skip, Concur (if skip = true then pure s else t.element ray tMax s c.1)
      (if skip = true then pure s else (t.within a).element ray tMax s c.1) := by
    intro skip
    split
    · exact .refl _
    · exact concur_element h ray tMax s c.1
  dsimp only
  split
  · exact .bind (.refl _) hlook
  · exact .bind (.refl _) hlook

lemma concur_step (ray : Ray S) (tMax : S) (s : Search S) :
    Concur (t.step ray tMax s) ((t.within a).step ray tMax s) := by
  unfold step
  split
  · exact .refl _
  · next i rest _ =>
    refine Concur.fetch h.arrays i fun n n' hn => .bind ?_ fun culled =>
      concur_elements h ray tMax hn culled _
    rw [hn.eq]
    exact .refl _

lemma concur_run (ray : Ray S) (tMax : S) (count : ℕ) (s : Search S) :
    Concur (t.run ray tMax count s) ((t.within a).run ray tMax count s) := by
  induction count generalizing s with
  | zero => exact .refl _
  | succ count ih =>
    unfold run
    split
    · exact .refl _
    · exact .bind (concur_step h ray tMax s) ih

/-- **Shuffled arenas are traced alike**, with any snapshot. -/
theorem concur_nearest (ray : Ray S) (tMax : S) :
    Concur (t.nearest ray tMax) ((t.within a).nearest ray tMax) := by
  unfold nearest
  rw [show (t.within a).arena.arrays.size = t.arena.arrays.size from h.size_arrays]
  exact .bind (concur_run h ray tMax _ _) fun _ => .refl _

/-- Where no lookup can miss, both have the same result. -/
lemma nearest_shuffled (hsound : t.arena.Sound) (hsound' : a.Sound)
    (hfits : t.snapshot.Fits t.arena) (ray : Ray S) (tMax : S) :
    ∃ best, t.nearest ray tMax = .ok best ∧ (t.within a).nearest ray tMax = .ok best := by
  have hfits' : (t.within a).snapshot.Fits (t.within a).arena :=
    ⟨hfits.poses.trans h.size_surfaces.symm, hfits.arrayBounds.trans h.size_arrays.symm⟩
  obtain ⟨best, hbest⟩ : ∃ best, t.nearest ray tMax = .ok best := ⟨_, nearest_eq hfits hsound⟩
  obtain ⟨best', hbest'⟩ : ∃ best, (t.within a).nearest ray tMax = .ok best :=
    ⟨_, nearest_eq hfits' hsound'⟩
  obtain rfl := concur_nearest h ray tMax best best' hbest hbest'
  exact ⟨best, hbest, hbest'⟩

end Tracer

end SolidTrace
