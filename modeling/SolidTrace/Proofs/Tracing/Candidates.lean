import SolidTrace.Proofs.Arena.Sound
import SolidTrace.Proofs.Lookup
import SolidTrace.Proofs.Number.Order
import SolidTrace.Tracing.Nearest

/-!
Candidates of one surface.

Where the arena is sound and the snapshot has an entry for each surface and each array, no lookup
misses, and the test of a surface is the search of a list: the first of the candidates below a limit
that survives its trims. Candidates ascend, so it is one with the least parameter.
-/

namespace SolidTrace

variable {S : Type}

/-- The snapshot has an entry for each surface and each array. -/
structure Snapshot.Fits (s : Snapshot S) (a : Arena S) : Prop where
  poses : s.poses.size = a.surfaces.size
  arrayBounds : s.arrayBounds.size = a.arrays.size

namespace Tracer

variable [Scalar S]

/-- Whether a point lies inside a surface, where it has a place. -/
def insideAt (t : Tracer S) (point : Vec S) (s : ℕ) : Bool :=
  match t.snapshot.poses[s]? with
  | some (some pose) => pose.inside point
  | _ => false

/-- Whether the point of a ray at a parameter survives the trims of a surface. -/
def passes (t : Tracer S) (ray : Ray S) (s : ℕ) (n : SurfaceNode S) (p : S) : Bool :=
  passesTrims s n.trims t.arena.collected (t.insideAt (ray.pointAt p))

/-- A candidate of a surface in some place: a parameter below `tMax` and a point in the frame of the
surface, which survives the trims of the surface. -/
structure Survives (t : Tracer S) (ray : Ray S) (tMax : S) (s : ℕ) (pose : Pose S) (c : S × Vec S) :
    Prop where
  placed : t.snapshot.poses[s]? = some (some pose)
  candidate : c ∈ pose.candidates ray tMax
  passes : ∃ n, t.arena.surfaces[s]? = some n ∧ t.passes ray s n c.1 = true

/-- The hit of the first candidate of a surface below a limit that survives. -/
def closest? (t : Tracer S) (ray : Ray S) (limit : S) (s : ℕ) : Option (Hit S) :=
  match t.snapshot.poses[s]?, t.arena.surfaces[s]? with
  | some (some pose), some n =>
    ((pose.candidates ray limit).find? fun c => t.passes ray s n c.1).map fun c =>
      pose.hit ray c.1 c.2 s
  | _, _ => none

end Tracer

lemma Snapshot.Fits.exists_pose {s : Snapshot S} {a : Arena S} (h : s.Fits a) {i : ℕ}
    (hi : i < a.surfaces.size) : ∃ pose, s.poses[i]? = some pose :=
  ⟨_, Array.getElem?_eq_getElem (h.poses.ge.trans_lt' hi)⟩

namespace Tracer

section

variable [Scalar S] {t : Tracer S} (hf : t.snapshot.Fits t.arena)

include hf

lemma insideSurface_eq (point : Vec S) {s : ℕ} (hs : s < t.arena.surfaces.size) :
    t.insideSurface point s = .ok (t.insideAt point s) := by
  obtain ⟨pose, hp⟩ := hf.exists_pose hs
  unfold insideSurface insideAt
  rw [fetch_eq_ok hp, hp]
  cases pose <;> rfl

lemma clearOf_eq (owner : ℕ) (point : Vec S) {l : List ℕ}
    (hl : ∀ s ∈ l, s < t.arena.surfaces.size) :
    t.clearOf owner point l = .ok (!l.any fun s => s != owner && t.insideAt point s) := by
  induction l with
  | nil => rfl
  | cons s l ih =>
    obtain ⟨hs, hl⟩ := List.forall_mem_cons.mp hl
    unfold clearOf
    rw [ih hl, insideSurface_eq hf point hs, List.any_cons]
    by_cases ho : s = owner
    · subst ho
      simp [bind, Except.bind]
    · cases t.insideAt point s <;> simp [bind, Except.bind, pure, Except.pure, ho]

variable (ha : t.arena.Sound)

include ha

lemma trimsKeep_eq (point : Vec S) {s : ℕ} {n : SurfaceNode S} (hn : t.arena.surfaces[s]? = some n)
    {l : List (Trim ℕ ℕ)} (hl : ∀ x ∈ l, x ∈ n.trims) :
    t.trimsKeep s point l = .ok (passesTrims s l t.arena.collected (t.insideAt point)) := by
  induction l with
  | nil => rfl
  | cons x l ih =>
    obtain ⟨hx, hl⟩ := List.forall_mem_cons.mp hl
    have hkeeps : t.trimKeeps s point x =
        .ok (x.keeps s t.arena.collected (t.insideAt point)) := by
      cases x with
      | outer r =>
        simp only [trimKeeps, insideSurface_eq hf point (ha.operand s r n _ hn hx rfl)]
        rfl
      | inner r => exact insideSurface_eq hf point (ha.operand s r n _ hn hx rfl)
      | accum i =>
        have hi := Array.getElem?_eq_getElem (ha.collection s i n hn hx)
        simp only [trimKeeps, fetch_eq_ok hi]
        refine (clearOf_eq hf s point (ha.accumulator i _ hi)).trans ?_
        simp [Trim.keeps, Arena.collected, hi]
    unfold trimsKeep
    rw [hkeeps, ih hl]
    cases hb : x.keeps s t.arena.collected (t.insideAt point) <;>
      simp [bind, Except.bind, pure, Except.pure, passesTrims, hb]

lemma firstKept_eq (ray : Ray S) {s : ℕ} {n : SurfaceNode S} (hn : t.arena.surfaces[s]? = some n)
    (l : List (S × Vec S)) :
    t.firstKept ray s n.trims l = .ok (l.find? fun c => t.passes ray s n c.1) := by
  induction l with
  | nil => rfl
  | cons c l ih =>
    unfold firstKept
    rw [trimsKeep_eq hf ha (ray.pointAt c.1) hn fun _ h => h, ih, List.find?_cons]
    cases hb : t.passes ray s n c.1 <;>
      simp [bind, Except.bind, pure, Except.pure, show passesTrims s n.trims t.arena.collected
        (t.insideAt (ray.pointAt c.1)) = _ from hb]

lemma hitSurface_eq (ray : Ray S) (limit : S) {s : ℕ} (hs : s < t.arena.surfaces.size) :
    t.hitSurface ray limit s = .ok (t.closest? ray limit s) := by
  obtain ⟨pose, hp⟩ := hf.exists_pose hs
  have hn := Array.getElem?_eq_getElem hs
  unfold hitSurface closest?
  rw [fetch_eq_ok hp, fetch_eq_ok hn, hp, hn]
  cases pose with
  | none => rfl
  | some pose =>
    simp only [bind, Except.bind, firstKept_eq hf ha ray hn]
    rfl

end

end Tracer

section

variable [Scalar S]

lemma Pose.mem_candidates {pose : Pose S} {ray : Ray S} {tMax : S} {c : S × Vec S} :
    c ∈ pose.candidates ray tMax ↔
      c.1 ∈ pose.quadric.roots (pose.toLocal.applyPoint ray.origin)
        (pose.toLocal.applyVec ray.direction) ∧
      Pose.nearest < c.1 ∧ c.1 < tMax ∧
      c.2 = pose.toLocal.applyPoint ray.origin +
        (pose.toLocal.applyVec ray.direction).scale c.1 ∧ pose.inClip c.2 = true := by
  simp only [Pose.candidates, List.mem_filter, List.mem_map, Bool.and_eq_true, decide_eq_true_eq]
  constructor
  · rintro ⟨⟨x, ⟨hx, h₁, h₂⟩, rfl⟩, hclip⟩
    exact ⟨hx, h₁, h₂, rfl, hclip⟩
  · rintro ⟨hx, h₁, h₂, hc, hclip⟩
    exact ⟨⟨c.1, ⟨hx, h₁, h₂⟩, Prod.ext rfl hc.symm⟩, hclip⟩

/-- Under a lower limit those candidates survive that are below it. -/
lemma Tracer.survives_iff {t : Tracer S} {ray : Ray S} {tMax limit : S} {s : ℕ} {pose : Pose S}
    {c : S × Vec S} (h : ∀ x, x < limit → x < tMax) :
    t.Survives ray limit s pose c ↔ t.Survives ray tMax s pose c ∧ c.1 < limit := by
  constructor
  · rintro ⟨hp, hc, hn⟩
    obtain ⟨hx, h₁, h₂, hrest⟩ := Pose.mem_candidates.mp hc
    exact ⟨⟨hp, Pose.mem_candidates.mpr ⟨hx, h₁, h _ h₂, hrest⟩, hn⟩, h₂⟩
  · rintro ⟨⟨hp, hc, hn⟩, hlt⟩
    obtain ⟨hx, h₁, -, hrest⟩ := Pose.mem_candidates.mp hc
    exact ⟨hp, Pose.mem_candidates.mpr ⟨hx, h₁, hlt, hrest⟩, hn⟩

lemma Tracer.closest?_eq_none {t : Tracer S} {ray : Ray S} {limit : S} {s : ℕ}
    (h : t.closest? ray limit s = none) (pose : Pose S) (c : S × Vec S) :
    ¬ t.Survives ray limit s pose c := by
  rintro ⟨hp, hc, n, hn, hpass⟩
  simp only [closest?, hp, hn, Option.map_eq_none_iff, List.find?_eq_none] at h
  exact h c hc hpass

variable [Scalar.Ordered S]

lemma Quadric.roots_pairwise (q : Quadric S) (o dir : Vec S) :
    (q.roots o dir).Pairwise fun x y => Scalar.isNaN x = false → x ≤ y := by
  unfold roots
  dsimp only
  split
  · split <;> simp
  · split
    · simp
    · split <;> simpa using Scalar.lesser_le_greater

lemma Pose.candidates_pairwise (pose : Pose S) (ray : Ray S) (tMax : S) :
    (pose.candidates ray tMax).Pairwise fun c c' => c.1 ≤ c'.1 := by
  unfold candidates
  refine List.Pairwise.filter _ (List.pairwise_map.mpr ?_)
  refine ((Quadric.roots_pairwise _ _ _).filter _).imp_of_mem fun hx _ hle => hle ?_
  simp only [List.mem_filter, Bool.and_eq_true, decide_eq_true_eq] at hx
  exact (Scalar.isNaN_of_lt hx.2.1).2

lemma find?_least {α : Type} {key : α → S} {l : List α} (hl : l.Pairwise fun x y => key x ≤ key y)
    {p : α → Bool} {x y : α} (hx : l.find? p = some x) (hy : y ∈ l) (hp : p y = true) :
    ¬ key y < key x := by
  obtain ⟨hpx, before, after, rfl, hbefore⟩ := List.find?_eq_some_iff_append.mp hx
  intro hlt
  rcases List.mem_append.mp hy with hy | hy
  · exact absurd (hbefore y hy) (by simp [hp])
  · rcases List.mem_cons.mp hy with rfl | hy
    · exact Scalar.not_lt_of_le (Scalar.le_of_lt hlt) hlt
    · have hle := (List.pairwise_cons.mp (List.pairwise_append.mp hl).2.1).1 y hy
      exact Scalar.not_lt_of_le hle hlt

namespace Tracer

variable {t : Tracer S} {ray : Ray S} {limit : S} {s : ℕ}

lemma closest?_eq_some {hit : Hit S} (h : t.closest? ray limit s = some hit) :
    ∃ pose c, t.Survives ray limit s pose c ∧ hit = pose.hit ray c.1 c.2 s ∧
      ∀ pose' c', t.Survives ray limit s pose' c' → ¬ c'.1 < c.1 := by
  unfold closest? at h
  split at h
  · next pose n hp hn =>
    obtain ⟨c, hc, rfl⟩ := Option.map_eq_some_iff.mp h
    refine ⟨pose, c, ⟨hp, List.mem_of_find?_eq_some hc, n, hn, ?_⟩, rfl, fun pose' c' h' => ?_⟩
    · simpa using List.find?_some hc
    · obtain ⟨hp', hc', n', hn', hpass⟩ := h'
      obtain rfl : pose = pose' := by rw [hp] at hp'; exact Option.some.inj (Option.some.inj hp')
      obtain rfl : n = n' := Option.some.inj (hn.symm.trans hn')
      exact find?_least (pose.candidates_pairwise ray limit) hc hc' hpass
  · cases h

end Tracer

end

end SolidTrace
