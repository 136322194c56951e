import Mathlib.Data.List.Flatten
import Mathlib.Data.List.Perm.Subperm
import SolidTrace.Proofs.Tracing.Search

/-!
Search without culling.

Without culling the search is exhaustive. `Least` says that the best hit so far is a least one of
the surfaces seen; looking at an element keeps it. `Visits` ties the arrays that have come up to the
stack, by the tree that arrays form; a step keeps it, and when as many arrays have come up as there
are, it has all of them.
-/

namespace SolidTrace

variable {S : Type} [Scalar S]

namespace Tracer

/-- The best hit is that of a survivor, and no survivor of a surface that has been seen comes before
it. -/
structure Least (t : Tracer S) (ray : Ray S) (tMax : S) (seen : ℕ → Prop)
    (best : Option (Hit S)) : Prop where
  hit : ∀ h, best = some h → ∃ s pose c, t.Survives ray tMax s pose c ∧
    h = pose.hit ray c.1 c.2 s
  least : ∀ s pose c, seen s → t.Survives ray tMax s pose c → ¬ c.1 < best.elim tMax Hit.t

lemma Least.mono {t : Tracer S} {ray : Ray S} {tMax : S} {seen seen' : ℕ → Prop}
    {best : Option (Hit S)} (h : t.Least ray tMax seen best) (hs : ∀ i, seen' i → seen i) :
    t.Least ray tMax seen' best :=
  ⟨h.hit, fun i pose c hi => h.least i pose c (hs i hi)⟩

section

variable [Scalar.Ordered S] {t : Tracer S} {ray : Ray S} {tMax : S} {seen : ℕ → Prop}

lemma Least.limit_lt {s : Search S} (h : t.Least ray tMax seen s.best) {x : S}
    (hx : x < s.limit tMax) : x < tMax := by
  unfold Search.limit at hx
  rcases hb : s.best with _ | hit
  · rwa [hb] at hx
  · rw [hb] at hx
    obtain ⟨i, pose, c, hc, rfl⟩ := h.hit hit hb
    exact Scalar.lt_trans hx (Pose.mem_candidates.mp hc.candidate).2.2.1

lemma look_limit_lt (s : Search S) (e : Element) {x : S}
    (hx : x < (t.look ray tMax s e).limit tMax) : x < s.limit tMax := by
  cases e with
  | surface id =>
    rcases hc : t.closest? ray (s.limit tMax) id with _ | hit
    · rwa [look_of_eq_none hc] at hx
    · rw [look_of_eq_some hc] at hx
      obtain ⟨pose, c, hsurvives, rfl, -⟩ := closest?_eq_some hc
      exact Scalar.lt_trans hx (Pose.mem_candidates.mp hsurvives.candidate).2.2.1
  | array id => exact hx
  | camera id => exact hx
  | light id => exact hx

lemma Least.look {s : Search S} (h : t.Least ray tMax seen s.best) (e : Element) :
    t.Least ray tMax (fun i => seen i ∨ e = .surface i) (t.look ray tMax s e).best := by
  cases e with
  | surface id =>
    have hbelow : ∀ x, x < s.limit tMax → x < tMax := fun x => h.limit_lt
    rcases hc : t.closest? ray (s.limit tMax) id with _ | hit
    · rw [look_of_eq_none hc]
      refine ⟨h.hit, fun i pose c hi hsurvives => ?_⟩
      rcases hi with hi | hi
      · exact h.least i pose c hi hsurvives
      · obtain rfl := Element.surface.inj hi
        exact fun hlt => closest?_eq_none hc pose c ((survives_iff hbelow).mpr ⟨hsurvives, hlt⟩)
    · rw [look_of_eq_some hc]
      obtain ⟨pose, c, hsurvives, rfl, hfirst⟩ := closest?_eq_some hc
      obtain ⟨hmax, hlt⟩ := (survives_iff hbelow).mp hsurvives
      refine ⟨fun hit' hhit => ⟨id, pose, c, hmax, (Option.some.inj hhit).symm⟩,
        fun i pose' c' hi hsurvives' hbefore => ?_⟩
      have hlt' : c'.1 < s.limit tMax := Scalar.lt_trans hbefore hlt
      rcases hi with hi | hi
      · exact h.least i pose' c' hi hsurvives' hlt'
      · obtain rfl := Element.surface.inj hi
        exact hfirst pose' c' ((survives_iff hbelow).mpr ⟨hsurvives', hlt'⟩) hbefore
  | array id => exact ⟨h.hit, fun i pose c hi => h.least i pose c (hi.resolve_right (by simp))⟩
  | camera id => exact ⟨h.hit, fun i pose c hi => h.least i pose c (hi.resolve_right (by simp))⟩
  | light id => exact ⟨h.hit, fun i pose c hi => h.least i pose c (hi.resolve_right (by simp))⟩

lemma Least.foldl_look {s : Search S} (h : t.Least ray tMax seen s.best) (l : List Element) :
    t.Least ray tMax (fun i => seen i ∨ .surface i ∈ l) (l.foldl (t.look ray tMax) s).best := by
  induction l generalizing s seen with
  | nil => exact h.mono fun i hi => hi.resolve_right (by simp)
  | cons e l ih =>
    refine (ih (h.look e)).mono fun i hi => ?_
    rcases hi with hi | hi
    · exact Or.inl (Or.inl hi)
    · rcases List.mem_cons.mp hi with hi | hi
      · exact Or.inl (Or.inr hi.symm)
      · exact Or.inr hi

end

/-- The state of a search in which the arrays of a list have come up. -/
structure Visits (t : Tracer S) (ray : Ray S) (tMax : S) (visited : List ℕ) (s : Search S) :
    Prop where
  tree : (visited ++ s.stack).Perm (Arena.root :: visited.flatMap t.arena.children)
  nodup : visited.Nodup
  inRange : ∀ i ∈ visited, i < t.arena.arrays.size
  least : t.Least ray tMax
    (fun i => ∃ j ∈ visited, ∃ n : ArrayNode S, t.arena.arrays[j]? = some n ∧
      .surface i ∈ n.elements) s.best

section

variable {t : Tracer S} {ray : Ray S} {tMax : S} {visited : List ℕ} {s : Search S}

/-- No array comes up twice, those on the stack included. -/
lemma Visits.subperm (ha : t.arena.Sound) (h : t.Visits ray tMax visited s) :
    (visited ++ s.stack).Subperm (List.range t.arena.arrays.size) := by
  obtain ⟨l, hperm, hsub⟩ : visited.Subperm (List.range t.arena.arrays.size) :=
    List.subperm_of_subset h.nodup fun i hi => List.mem_range.mpr (h.inRange i hi)
  have hchildren : (visited.flatMap t.arena.children).Subperm
      ((List.range t.arena.arrays.size).flatMap t.arena.children) :=
    (hperm.symm.flatMap_right _).subperm.trans (hsub.flatMap _).subperm
  exact h.tree.subperm.trans (((List.subperm_cons _).mpr hchildren).trans ha.tree.subperm)

lemma Visits.stack_inRange (ha : t.arena.Sound) (h : t.Visits ray tMax visited s) :
    s.InRange t.arena := fun _ hi =>
  List.mem_range.mp ((h.subperm ha).subset (List.mem_append_right visited hi))

lemma Visits.length_le (ha : t.arena.Sound) (h : t.Visits ray tMax visited s) :
    visited.length + s.stack.length ≤ t.arena.arrays.size := by
  simpa using (h.subperm ha).length_le

/-- With an empty stack all arrays have come up: an array is the root, or stands in an earlier one.
-/
lemma Visits.perm_range (ha : t.arena.Sound) (h : t.Visits ray tMax visited s) (hs : s.stack = []) :
    visited.Perm (List.range t.arena.arrays.size) := by
  have htree := h.tree
  rw [hs, List.append_nil] at htree
  have hall : ∀ i < t.arena.arrays.size, i ∈ visited := by
    intro i hi
    induction i using Nat.strong_induction_on with
    | h i ih =>
      refine htree.mem_iff.mpr ?_
      rcases List.mem_cons.mp (ha.tree.mem_iff.mpr (List.mem_range.mpr hi)) with rfl | hchild
      · exact List.mem_cons_self
      · obtain ⟨j, hj, hij⟩ := List.mem_flatMap.mp hchild
        have hn := Array.getElem?_eq_getElem (List.mem_range.mp hj)
        have hlt := (ha.array j i _ hn ((Arena.mem_children hn).mp hij)).1
        exact List.mem_cons_of_mem _
          (List.mem_flatMap.mpr ⟨j, ih j hlt (List.mem_range.mp hj), hij⟩)
  refine (List.perm_ext_iff_of_nodup h.nodup List.nodup_range).mpr fun i => ?_
  rw [List.mem_range]
  exact ⟨h.inRange i, hall i⟩

lemma visits_start (t : Tracer S) (ray : Ray S) (tMax : S) :
    t.Visits ray tMax [] ⟨[Arena.root], none⟩ where
  tree := .refl _
  nodup := List.nodup_nil
  inRange _ hi := nomatch hi
  least := ⟨fun _ hh => (nomatch hh), fun _ _ _ ⟨_, hj, _⟩ => (nomatch hj)⟩

variable [Scalar.Ordered S]

lemma Visits.step (ha : t.arena.Sound) (hc : t.options.contains Options.noCulling = true)
    (h : t.Visits ray tMax visited s) {i : ℕ} {rest : List ℕ} (hs : s.stack = i :: rest) :
    t.Visits ray tMax (visited ++ [i]) (t.advance ray tMax s) := by
  have hi : i < t.arena.arrays.size := h.stack_inRange ha i (hs ▸ List.mem_cons_self)
  obtain ⟨n, hn⟩ : ∃ n, t.arena.arrays[i]? = some n := ⟨_, Array.getElem?_eq_getElem hi⟩
  have hdistinct : (visited ++ i :: rest).Nodup := by
    obtain ⟨l, hperm, hsub⟩ := h.subperm ha
    exact hs ▸ hperm.nodup_iff.mp (hsub.nodup List.nodup_range)
  rw [advance_of_noCulling ha hc hs hn]
  refine ⟨?_, ?_, fun j hj => ?_, ?_⟩
  · -- the array gives way to its children, which no other one has
    have htree := h.tree
    rw [hs] at htree
    rw [foldl_look_stack, ← Arena.children_eq hn]
    rw [List.perm_iff_count] at htree ⊢
    intro x
    have hx := htree x
    simp only [List.count_append, List.count_cons, List.count_nil, List.count_reverse,
      List.flatMap_append, List.flatMap_cons, List.flatMap_nil, List.append_nil] at hx ⊢
    omega
  · exact hdistinct.sublist ((List.Sublist.refl visited).append (by simp))
  · rcases List.mem_append.mp hj with hj | hj
    · exact h.inRange j hj
    · exact List.mem_singleton.mp hj ▸ hi
  · refine (h.least.foldl_look (s := { s with stack := rest }) n.elements).mono fun j hj => ?_
    obtain ⟨k, hk, m, hm, he⟩ := hj
    rcases List.mem_append.mp hk with hk | hk
    · exact Or.inl ⟨k, hk, m, hm, he⟩
    · obtain rfl := List.mem_singleton.mp hk
      obtain rfl : m = n := Option.some.inj (hm.symm.trans hn)
      exact Or.inr he

lemma Visits.drain (hf : t.snapshot.Fits t.arena) (ha : t.arena.Sound)
    (hc : t.options.contains Options.noCulling = true) (h : t.Visits ray tMax visited s) {count : ℕ}
    (hcount : t.arena.arrays.size ≤ visited.length + count) :
    (t.drain ray tMax count s).stack = [] ∧
      t.Visits ray tMax (visited ++ t.popped ray tMax count s) (t.drain ray tMax count s) := by
  induction count generalizing visited s with
  | zero =>
    have hle := h.length_le ha
    have hnil : s.stack = [] := List.length_eq_zero_iff.mp (by omega)
    exact ⟨hnil, by simpa [Tracer.drain, popped] using h⟩
  | succ count ih =>
    rcases hs : s.stack with _ | ⟨i, rest⟩
    · rw [drain_nil hs]
      exact ⟨hs, by simpa [popped, hs] using h⟩
    · have hpopped : t.popped ray tMax (count + 1) s =
          i :: t.popped ray tMax count (t.advance ray tMax s) := by
        simp only [popped, hs, step_eq hf ha (h.stack_inRange ha)]
      have henough : t.arena.arrays.size ≤ (visited ++ [i]).length + count := by
        rw [List.length_append, List.length_singleton]
        omega
      have hnext := ih (h.step ha hc hs) henough
      rw [drain_cons hs, hpopped, List.append_cons]
      exact hnext

/-- **Exhaustive search.** Without culling, a search of as many arrays as there are or more ends
with an empty stack, every array has come up once, and the best hit is a least one of all surfaces.
-/
theorem exhaustive (hf : t.snapshot.Fits t.arena) (ha : t.arena.Sound)
    (hc : t.options.contains Options.noCulling = true) (ray : Ray S) (tMax : S) {count : ℕ}
    (hcount : t.arena.arrays.size ≤ count) :
    ∃ best, t.drain ray tMax count ⟨[Arena.root], none⟩ = ⟨[], best⟩ ∧
      (t.popped ray tMax count ⟨[Arena.root], none⟩).Perm (List.range t.arena.arrays.size) ∧
      t.Least ray tMax (fun s => s < t.arena.surfaces.size) best := by
  have henough : t.arena.arrays.size ≤ ([] : List ℕ).length + count := by simpa using hcount
  obtain ⟨hstack, hvisits⟩ := (visits_start t ray tMax).drain hf ha hc henough
  rw [List.nil_append] at hvisits
  have hperm := hvisits.perm_range ha hstack
  rcases hd : t.drain ray tMax count ⟨[Arena.root], none⟩ with ⟨stack, best⟩
  rw [hd] at hstack hvisits
  obtain rfl : stack = [] := hstack
  refine ⟨best, rfl, hperm, hvisits.least.mono fun s hs => ?_⟩
  obtain ⟨i, n, hn, he⟩ := ha.placed s hs
  exact ⟨i, hperm.mem_iff.mpr (List.mem_range.mpr (Arena.lt_size_of_getElem? hn)), n, hn, he⟩

end

end Tracer

end SolidTrace
