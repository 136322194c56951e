import Mathlib.Data.List.Basic
import SolidTrace.Proofs.Compile.Steps
import SolidTrace.Proofs.Program.Outcome

/-!
What closing an array does to the arena.

The program of the array puts trims on the surfaces of its elements, those below nested arrays
included. The blocks of surfaces of the elements are apart, so that a surface gets the trims of one
position only, and surfaces of other arrays get none.
-/

namespace SolidTrace

variable {S : Type}

namespace Arena

/-- The arena with trims put behind those of its surfaces. -/
def trimmed (a : Arena S) (f : ℕ → List (Trim ℕ ℕ)) : Arena S :=
  { a with surfaces := a.surfaces.mapIdx fun s n => n.addTrims (f s) }

variable (a : Arena S) (f g : ℕ → List (Trim ℕ ℕ))

lemma trimmed_surfaces_getElem? (s : ℕ) :
    (a.trimmed f).surfaces[s]? = a.surfaces[s]?.map (·.addTrims (f s)) := by
  simp [trimmed]

lemma trimmed_eq_self (h : ∀ s, f s = []) : a.trimmed f = a := by
  have hs : (a.trimmed f).surfaces = a.surfaces := by
    refine Array.ext_getElem? fun s => ?_
    simp [trimmed_surfaces_getElem?, h, SurfaceNode.addTrims_nil]
  rw [show a.trimmed f = { a with surfaces := (a.trimmed f).surfaces } from rfl, hs]

lemma trimmed_trimmed : (a.trimmed f).trimmed g = a.trimmed fun s => f s ++ g s := by
  have hs : ((a.trimmed f).trimmed g).surfaces = (a.trimmed fun s => f s ++ g s).surfaces := by
    refine Array.ext_getElem? fun s => ?_
    simp [trimmed_surfaces_getElem?, Function.comp_def, SurfaceNode.addTrims_addTrims]
  rw [show (a.trimmed f).trimmed g = { a with surfaces := ((a.trimmed f).trimmed g).surfaces } from
    rfl, hs]
  rfl

end Arena

lemma mapM_eq_some {α β ε : Type} {f : α → Except ε β} {g : α → Option β}
    (h : ∀ x y, f x = .ok y → g x = some y) {l : List α} {r : List β} (hl : l.mapM f = .ok r) :
    l.mapM g = some r := by
  induction l generalizing r with
  | nil =>
    cases hl
    rfl
  | cons x l ih =>
    rw [List.mapM_cons] at hl ⊢
    rcases hx : f x with e | y
    · rw [hx] at hl
      cases hl
    rcases hr : l.mapM f with e | ys
    · rw [hx, hr] at hl
      cases hl
    rw [hx, hr] at hl
    cases hl
    rw [h x y hx, ih hr]
    rfl

namespace Build

variable {b b' : Builder S} {u : Unit}

lemma forM_cons_eq_ok {α : Type} {f : α → Build S Unit} {x : α} {l : List α} :
    (x :: l).forM f b = .ok u b' ↔ ∃ b₁, f x b = .ok () b₁ ∧ l.forM f b₁ = .ok u b' := by
  rw [show (x :: l).forM f = (f x >>= fun _ => l.forM f) from rfl, bind_eq_ok]
  constructor
  · rintro ⟨⟨⟩, b₁, h⟩
    exact ⟨b₁, h⟩
  · rintro ⟨b₁, h⟩
    exact ⟨(), b₁, h⟩

lemma trimSurface_ok {trims : List (Trim ℕ ℕ)} {s : ℕ} (h : trimSurface trims s b = .ok u b') :
    b'.arena = b.arena.trimmed fun i => if i = s then trims else [] := by
  obtain ⟨_, b₁, h₁, h⟩ := bind_eq_ok.mp h
  obtain rfl := modifyArena_eq_ok.mp h
  have hs : b₁.arena.surfaces.modify s (fun n => { n with trims := n.trims ++ trims }) =
      (b₁.arena.trimmed fun i => if i = s then trims else []).surfaces := by
    refine Array.ext_getElem? fun i => ?_
    rw [Arena.trimmed_surfaces_getElem?, Array.getElem?_modify]
    by_cases his : s = i
    · rw [if_pos his, if_pos his.symm]
      rfl
    · rw [if_neg his, if_neg (Ne.symm his)]
      simp [SurfaceNode.addTrims_nil]
  rw [hs, acquire_ok h₁]
  rfl

/-- Every surface of a list without repetition gets the trims once. -/
lemma trimSurfaces_ok {trims : List (Trim ℕ ℕ)} {l : List ℕ} (hl : l.Nodup)
    (h : l.forM (trimSurface trims) b = .ok u b') :
    b'.arena = b.arena.trimmed fun s => if s ∈ l then trims else [] := by
  induction l generalizing b with
  | nil =>
    obtain ⟨-, rfl⟩ := pure_eq_ok.mp h
    exact (Arena.trimmed_eq_self _ _ fun s => by simp).symm
  | cons i l ih =>
    obtain ⟨b₁, h₁, h⟩ := forM_cons_eq_ok.mp h
    obtain ⟨hi, hl⟩ := List.nodup_cons.mp hl
    rw [ih hl h, trimSurface_ok h₁, Arena.trimmed_trimmed]
    congr 1
    funext s
    by_cases hs : s = i
    · subst hs
      simp [hi]
    · simp [hs]

variable {occupants : List (Occupant S)} {path : String} {array : ℕ}

lemma trimPosition_ok {o : Occupant S} {trims : List Program.LocalTrim} (ho : o.surfaces.Nodup)
    (h : trimPosition occupants path array o trims b = .ok u b') :
    ∃ own, trims.mapM (resolveTrim occupants path array) = .ok own ∧
      b'.arena = b.arena.trimmed fun s => if s ∈ o.surfaces then own else [] := by
  unfold trimPosition at h
  rcases trims with _ | ⟨t, trims⟩
  · rw [if_pos (by rfl)] at h
    obtain ⟨-, rfl⟩ := pure_eq_ok.mp h
    exact ⟨[], rfl, (Arena.trimmed_eq_self _ _ fun s => by simp).symm⟩
  · rw [if_neg (by simp)] at h
    obtain ⟨own, b₁, h₁, h⟩ := bind_eq_ok.mp h
    obtain ⟨hown, rfl⟩ := ofExcept_eq_ok.mp h₁
    exact ⟨own, hown, trimSurfaces_ok ho h⟩

/-- Positions with surfaces apart: the surfaces of each get its trims, and no others get any. -/
lemma trimPositions_ok {l : List (Occupant S × List Program.LocalTrim)}
    (hn : ∀ x ∈ l, x.1.surfaces.Nodup)
    (hd : l.Pairwise fun x y => List.Disjoint x.1.surfaces y.1.surfaces)
    (h : l.forM (fun x => trimPosition occupants path array x.1 x.2) b = .ok u b') :
    ∃ (own : ℕ → List (Trim ℕ ℕ)) (f : ℕ → List (Trim ℕ ℕ)), b'.arena = b.arena.trimmed f ∧
      (∀ q x, l[q]? = some x → x.2.mapM (resolveTrim occupants path array) = .ok (own q) ∧
        ∀ s ∈ x.1.surfaces, f s = own q) ∧
      ∀ s, (∀ x ∈ l, s ∉ x.1.surfaces) → f s = [] := by
  induction l generalizing b with
  | nil =>
    obtain ⟨-, rfl⟩ := pure_eq_ok.mp h
    exact ⟨fun _ => [], fun _ => [], (Arena.trimmed_eq_self _ _ fun _ => rfl).symm, by simp,
      by simp⟩
  | cons x l ih =>
    obtain ⟨b₁, h₁, h⟩ := forM_cons_eq_ok.mp h
    obtain ⟨hx, hd⟩ := List.pairwise_cons.mp hd
    obtain ⟨here, hhere, ha₁⟩ := trimPosition_ok (hn x List.mem_cons_self) h₁
    obtain ⟨own, f, ha, hown, hnone⟩ := ih (fun y hy => hn y (List.mem_cons_of_mem _ hy)) hd h
    -- a surface is at one position only, so its trims are those of that position
    refine ⟨fun q => q.casesOn here own, fun s => (if s ∈ x.1.surfaces then here else []) ++ f s,
      ?_, ?_, ?_⟩
    · rw [ha, ha₁, Arena.trimmed_trimmed]
    · rintro (_ | q) y hy
      · obtain rfl := Option.some.inj hy
        refine ⟨hhere, fun s hs => ?_⟩
        simp [hs, hnone s fun y hy hsy => hx y hy hs hsy]
      · obtain ⟨hres, hsurf⟩ := hown q y hy
        refine ⟨hres, fun s hs => ?_⟩
        have hsx : s ∉ x.1.surfaces := fun hsx => hx y (List.mem_of_getElem? hy) hsx hs
        simp [hsx, hsurf s hs]
    · intro s hs
      have hsx := hs x List.mem_cons_self
      simp [hsx, hnone s fun y hy => hs y (List.mem_cons_of_mem _ hy)]

end Build

variable [Scalar S]

/-- The volume of the occupants that the program counts, and their extent. -/
def Build.volumeOf (occupants : List (Occupant S)) (outcome : Program.Outcome) : Volume S :=
  Volume.ofBoxes ((occupants.zip outcome.included).filterMap fun x => x.1.placed?.map (·, x.2))

/-- The entry of an array after its program has been run on the occupants. -/
@[simps]
def ArrayNode.complete (n : ArrayNode S) (occupants : List (Occupant S))
    (outcome : Program.Outcome) (accumulator : List ℕ) : ArrayNode S where
  object := n.object
  path := n.path
  elements := occupants.map Occupant.element
  surfaces := occupants.flatMap Occupant.surfaces
  bounded := outcome.bounded
  included := outcome.included
  accumulator := accumulator
  volume := Build.volumeOf occupants outcome

namespace Build

/-- What closing does: the array is completed, and the surfaces of each position have got what the
program says of it. -/
structure Closed (occupants : List (Occupant S)) (path : String) (array : ℕ)
    (relations : List Relation) (outcome : Program.Outcome) (accumulator : List ℕ)
    (own f : ℕ → List (Trim ℕ ℕ)) (a a' : Arena S) : Prop where
  run : Program.run (occupants.map Occupant.kind) relations = .ok outcome
  accumulator_eq : outcome.accumulator.mapM (surfaceAt occupants path) = .ok accumulator
  own_eq : ∀ (q : ℕ) (l : List Program.LocalTrim), outcome.trims[q]? = some l →
    l.mapM (resolveTrim occupants path array) = .ok (own q)
  inside : ∀ (q : ℕ) (o : Occupant S), occupants[q]? = some o → ∀ s ∈ o.surfaces, f s = own q
  outside : ∀ s, (∀ o ∈ occupants, s ∉ o.surfaces) → f s = []
  arena : a' = { a.trimmed f with
    arrays := a.arrays.modify array fun n => n.complete occupants outcome accumulator }

variable {b b' : Builder S} {occupants : List (Occupant S)} {path : String} {array : ℕ}
  {relations : List Relation}

/-- **Closing an array.** -/
theorem closeArray_ok {r : Nested S}
    (hn : ∀ o ∈ occupants, o.surfaces.Nodup)
    (hd : occupants.Pairwise fun o o' => List.Disjoint o.surfaces o'.surfaces)
    (h : closeArray array path occupants relations b = .ok r b') :
    r.id = array ∧ r.surfaces = occupants.flatMap Occupant.surfaces ∧
      ∃ outcome accumulator own f, r.extent = (volumeOf occupants outcome).extent ∧
        Closed occupants path array relations outcome accumulator own f b.arena b'.arena := by
  unfold closeArray at h
  rcases hrun : Program.run (occupants.map Occupant.kind) relations with ⟨index, cause⟩ | outcome
  · simp only [hrun] at h
    obtain ⟨_, _, h₁, -⟩ := bind_eq_ok.mp h
    exact (throw_eq_ok.mp h₁).elim
  simp only [hrun] at h
  obtain ⟨outcome', b₁, h₁, h⟩ := bind_eq_ok.mp h
  obtain ⟨rfl, rfl⟩ := pure_eq_ok.mp h₁
  obtain ⟨_, b₂, h₂, h⟩ := bind_eq_ok.mp h
  obtain ⟨accumulator, b₃, h₃, h⟩ := bind_eq_ok.mp h
  obtain ⟨hacc, rfl⟩ := ofExcept_eq_ok.mp h₃
  obtain ⟨_, b₄, h₄, h⟩ := bind_eq_ok.mp h
  obtain ⟨_, b₅, h₅, h⟩ := bind_eq_ok.mp h
  obtain ⟨rfl, rfl⟩ := pure_eq_ok.mp h
  obtain rfl := modifyArena_eq_ok.mp h₅
  have hlen : outcome.trims.length = occupants.length := by
    rw [(Program.run_fits hrun).trims_length, List.length_map]
  have hfst : (occupants.zip outcome.trims).map Prod.fst = occupants :=
    List.map_fst_zip hlen.ge
  have hd' : (occupants.zip outcome.trims).Pairwise
      fun x y => List.Disjoint x.1.surfaces y.1.surfaces := by
    refine List.Pairwise.of_map Prod.fst (S := fun o o' => List.Disjoint o.surfaces o'.surfaces)
      (fun _ _ h => h) ?_
    rw [hfst]
    exact hd
  obtain ⟨own, f, ha, hown, hnone⟩ := trimPositions_ok (l := occupants.zip outcome.trims)
    (fun x hx => hn x.1 (hfst ▸ List.mem_map_of_mem hx)) hd' h₂
  have hzip : ∀ q o l, occupants[q]? = some o → outcome.trims[q]? = some l →
      (occupants.zip outcome.trims)[q]? = some (o, l) := fun q o l ho hl =>
    List.getElem?_zip_eq_some.mpr ⟨ho, hl⟩
  refine ⟨rfl, rfl, outcome, accumulator, own, f, rfl, hrun, hacc, fun q l hl => ?_,
    fun q o ho => ?_, fun s hs => ?_, ?_⟩
  · have hq : q < occupants.length := hlen ▸ (List.getElem?_eq_some_iff.mp hl).1
    exact (hown q _ (hzip q _ l (List.getElem?_eq_getElem hq) hl)).1
  · have hq : q < outcome.trims.length := hlen ▸ (List.getElem?_eq_some_iff.mp ho).1
    exact (hown q _ (hzip q o _ ho (List.getElem?_eq_getElem hq))).2
  · exact hnone s fun x hx => hs x.1 (hfst ▸ List.mem_map_of_mem hx)
  · rw [acquire_ok h₄, ha]
    rfl

section

variable {outcome : Program.Outcome} {accumulator : List ℕ} {own f : ℕ → List (Trim ℕ ℕ)}
  {a a' : Arena S}

lemma Closed.marks (h : Closed occupants path array relations outcome accumulator own f a a') :
    a'.marks = a.marks := by
  obtain rfl := h.arena
  simp [Arena.marks, Arena.trimmed]

lemma Closed.node (h : Closed occupants path array relations outcome accumulator own f a a')
    {n : ArrayNode S} (hn : a.arrays[array]? = some n) :
    a'.arrays[array]? = some (n.complete occupants outcome accumulator) := by
  obtain rfl := h.arena
  rw [Array.getElem?_modify, if_pos rfl, hn]
  rfl

lemma Closed.agrees (h : Closed occupants path array relations outcome accumulator own f a a')
    {lo hi : Marks} {q : ℕ} {o : Occupant S} (ho : occupants[q]? = some o)
    (hs : ∀ s, lo.surfaces ≤ s → s < hi.surfaces → s ∈ o.surfaces) (ha : array < lo.arrays) :
    a.Agrees (own q) lo hi a' := by
  obtain rfl := h.arena
  refine ⟨fun _ _ _ => rfl, fun s h₁ h₂ => ?_, fun i h₁ _ => ?_, fun _ _ _ => rfl,
    fun _ _ _ => rfl, .refl _⟩
  · rw [← h.inside q o ho s (hs s h₁ h₂)]
    exact Arena.trimmed_surfaces_getElem? a f s
  · rw [Array.getElem?_modify, if_neg (by omega)]

lemma Closed.grows (h : Closed occupants path array relations outcome accumulator own f a a')
    {a₀ : Arena S} (h₀ : a₀.Grows a) (hs : ∀ o ∈ occupants, ∀ s ∈ o.surfaces, a₀.surfaces.size ≤ s)
    (ha : a₀.arrays.size ≤ array) : a₀.Grows a' := by
  obtain rfl := h.arena
  refine ⟨h₀.objects, fun s n hn => ?_, fun i n hn => ?_, h₀.cameras, h₀.lights, h₀.materials,
    h₀.textures, h₀.supplied⟩
  · obtain ⟨hlt, -⟩ := Array.getElem?_eq_some_iff.mp hn
    have hf : f s = [] := h.outside s fun o ho hmem => by
      have := hs o ho s hmem
      omega
    refine (Arena.trimmed_surfaces_getElem? a f s).trans ?_
    rw [h₀.surfaces s n hn, hf, Option.map_some, SurfaceNode.addTrims_nil]
  · obtain ⟨hlt, -⟩ := Array.getElem?_eq_some_iff.mp hn
    rw [Array.getElem?_modify, if_neg (by omega)]
    exact h₀.arrays i n hn

end

end Build

end SolidTrace
