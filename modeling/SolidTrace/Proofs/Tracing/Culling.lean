import SolidTrace.Proofs.Compile.Trims
import SolidTrace.Proofs.Tracing.Exhaustive

/-!
Search with culling.

Culling passes over elements below which nothing survives under the limit. Such elements are `Idle`,
and they stay so, since the limit only goes down. The search with culling is followed by the one
without: the stack of the latter has idle arrays more, and what they push is idle again, so that
both have the same best hit all along.
-/

namespace SolidTrace

variable {S : Type}

/-- The first list has entries of a kind more than the second one. -/
inductive Thinned {α : Type} (p : α → Prop) : List α → List α → Prop
  | nil : Thinned p [] []
  | keep {x : α} {l l' : List α} (h : Thinned p l l') : Thinned p (x :: l) (x :: l')
  | drop {x : α} {l l' : List α} (hx : p x) (h : Thinned p l l') : Thinned p (x :: l) l'

section

variable {α : Type} {p q : α → Prop} {l l' : List α}

lemma Thinned.refl (p : α → Prop) (l : List α) : Thinned p l l := by
  induction l with
  | nil => exact .nil
  | cons x l ih => exact .keep ih

lemma Thinned.mono (h : Thinned p l l') (hpq : ∀ x, p x → q x) : Thinned q l l' := by
  induction h with
  | nil => exact .nil
  | keep _ ih => exact .keep ih
  | drop hx _ ih => exact .drop (hpq _ hx) ih

end

namespace Tracer

variable [Scalar S]

/-- Nothing at an element survives below a limit. -/
def Idle (t : Tracer S) (ray : Ray S) (tMax limit : S) (e : Element) : Prop :=
  ∀ s pose c, t.arena.Under e s → t.Survives ray tMax s pose c → ¬ c.1 < limit

/-- Every survivor below an element that counts for the box of a bounded array lies behind the place
where the ray enters the box of the array. -/
def BoxesHold (t : Tracer S) (ray : Ray S) (tMax : S) : Prop :=
  ∀ (i : ℕ) (n : ArrayNode S) (b : Box S), t.arena.arrays[i]? = some n → n.bounded = true →
    t.snapshot.arrayBounds[i]? = some b →
    ∀ (q : ℕ) (e : Element), n.elements[q]? = some e → n.included[q]? = some true →
      ∀ s pose c, t.arena.Under e s → t.Survives ray tMax s pose c →
        ∃ enter exit, ray.meet? b = some (enter, exit) ∧ enter ≤ c.1

section

variable {t : Tracer S} {ray : Ray S} {tMax limit : S}

lemma Idle.mono {e : Element} (h : t.Idle ray tMax limit e) {limit' : S}
    (hl : ∀ x, x < limit' → x < limit) : t.Idle ray tMax limit' e :=
  fun s pose c hs hc hlt => h s pose c hs hc (hl _ hlt)

lemma Idle.child {i : ℕ} {n : ArrayNode S} {e : Element} (h : t.Idle ray tMax limit (.array i))
    (hn : t.arena.arrays[i]? = some n) (he : e ∈ n.elements) : t.Idle ray tMax limit e :=
  fun s pose c hs hc => h s pose c (.array hn he hs) hc

end

/-! ### Searches side by side -/

/-- The second search has the best hit of the first one, and its stack but for idle arrays. -/
structure Trails (t : Tracer S) (ray : Ray S) (tMax : S) (s s' : Search S) : Prop where
  best : s'.best = s.best
  stack : Thinned (fun i => t.Idle ray tMax (s.limit tMax) (.array i)) s.stack s'.stack
  below : ∀ x, x < s.limit tMax → x < tMax

lemma Trails.limit {t : Tracer S} {ray : Ray S} {tMax : S} {s s' : Search S}
    (h : t.Trails ray tMax s s') : s'.limit tMax = s.limit tMax := by
  unfold Search.limit
  rw [h.best]

section

variable [Scalar.Ordered S] {t : Tracer S} {ray : Ray S} {tMax : S} {s s' : Search S}

lemma Trails.look (h : t.Trails ray tMax s s') (e : Element) :
    t.Trails ray tMax (t.look ray tMax s e) (t.look ray tMax s' e) := by
  have hlimit : ∀ x, x < (t.look ray tMax s e).limit tMax → x < s.limit tMax :=
    fun x => look_limit_lt s e
  refine ⟨?_, ?_, fun x hx => h.below x (hlimit x hx)⟩
  · cases e with
    | surface id =>
      rcases hc : t.closest? ray (s.limit tMax) id with _ | hit
      · rw [look_of_eq_none hc, look_of_eq_none (h.limit ▸ hc), h.best]
      · rw [look_of_eq_some hc, look_of_eq_some (h.limit ▸ hc)]
    | array id => exact h.best
    | camera id => exact h.best
    | light id => exact h.best
  · have hstack : ∀ r : Search S, (t.look ray tMax r e).stack = e.array?.toList ++ r.stack := by
      intro r
      have hfold : ([e].foldl (t.look ray tMax) r).stack = ([e].filterMap Element.array?).reverse ++
          r.stack := foldl_look_stack [e] r
      simp only [List.foldl_cons, List.foldl_nil] at hfold
      rw [hfold]
      cases e <;> rfl
    rw [hstack, hstack]
    have hrest := h.stack.mono fun i (hi : t.Idle ray tMax _ (.array i)) => hi.mono hlimit
    cases e with
    | array id => exact .keep hrest
    | surface id => exact hrest
    | camera id => exact hrest
    | light id => exact hrest

/-- Only the first search looks at an element, which is idle. -/
lemma Trails.look_idle (h : t.Trails ray tMax s s') {e : Element}
    (he : t.Idle ray tMax (s.limit tMax) e) : t.Trails ray tMax (t.look ray tMax s e) s' := by
  cases e with
  | surface id =>
    rcases hc : t.closest? ray (s.limit tMax) id with _ | hit
    · rwa [look_of_eq_none hc]
    · obtain ⟨pose, c, hsurvives, -, -⟩ := closest?_eq_some hc
      obtain ⟨hmax, hlt⟩ := (survives_iff h.below).mp hsurvives
      exact absurd hlt (he id pose c (.surface id) hmax)
  | array id => exact ⟨h.best, .drop he h.stack, h.below⟩
  | camera id => exact h
  | light id => exact h

lemma Trails.foldl_look (h : t.Trails ray tMax s s') {limit : S}
    (hlimit : ∀ x, x < s.limit tMax → x < limit) (culled : Bool) (l : List (Element × Bool))
    (hl : ∀ x ∈ l, (culled && x.2) = true → t.Idle ray tMax limit x.1) :
    t.Trails ray tMax ((l.map Prod.fst).foldl (t.look ray tMax) s)
      ((l.filterMap fun x => if culled && x.2 then none else some x.1).foldl
        (t.look ray tMax) s') := by
  induction l generalizing s s' with
  | nil => exact h
  | cons x l ih =>
    obtain ⟨hx, hl⟩ := List.forall_mem_cons.mp hl
    have hnext : ∀ y, y < (t.look ray tMax s x.1).limit tMax → y < limit :=
      fun y hy => hlimit y (look_limit_lt s x.1 hy)
    rw [List.map_cons, List.foldl_cons, List.filterMap_cons]
    by_cases hskip : (culled && x.2) = true
    · rw [if_pos hskip]
      exact ih (h.look_idle ((hx hskip).mono hlimit)) hnext hl
    · rw [if_neg hskip]
      exact ih (h.look x.1) hnext hl

end

/-! ### Steps -/

section

variable [Scalar.Ordered S] {t : Tracer S} {ray : Ray S} {tMax : S} {s s' : Search S} {o : Options}
  {i : ℕ} {rest rest' : List ℕ}

lemma idle_of_culls (hb : t.BoxesHold ray tMax) (hf : t.snapshot.Fits t.arena) {n : ArrayNode S}
    (hn : t.arena.arrays[i]? = some n) {limit : S} (hc : t.culls ray limit i n = true)
    {q : ℕ} {e : Element} (he : n.elements[q]? = some e) (hq : n.included[q]? = some true) :
    t.Idle ray tMax limit e := by
  obtain ⟨b, hbox⟩ : ∃ b, t.snapshot.arrayBounds[i]? = some b :=
    ⟨_, Array.getElem?_eq_getElem (hf.arrayBounds.ge.trans_lt' (Arena.lt_size_of_getElem? hn))⟩
  simp only [culls, hbox, Option.bind_some, Bool.and_eq_true, Bool.not_eq_true',
    Bool.or_eq_false_iff, Bool.not_eq_false'] at hc
  obtain ⟨⟨-, hbounded⟩, hmeet⟩ := hc
  intro s pose c hunder hsurvives
  obtain ⟨enter, exit, hray, hle⟩ := hb i n b hn hbounded hbox q e he hq s pose c hunder hsurvives
  rw [hray] at hmeet
  exact Scalar.not_lt_of_le (Scalar.Ordered.le_trans _ _ _ (of_decide_eq_true hmeet) hle)

lemma Trails.advance (hf : t.snapshot.Fits t.arena) (ha : t.arena.Sound)
    (ho : o.contains Options.noCulling = true) (hb : t.BoxesHold ray tMax)
    (h : t.Trails ray tMax s s') (hs : s.stack = i :: rest) (hs' : s'.stack = i :: rest')
    (hi : i < t.arena.arrays.size)
    (hrest : Thinned (fun i => t.Idle ray tMax (s.limit tMax) (.array i)) rest rest') :
    t.Trails ray tMax ((t.withOptions o).advance ray tMax s)
      (t.advance ray tMax s') := by
  obtain ⟨n, hn⟩ : ∃ n, t.arena.arrays[i]? = some n := ⟨_, Array.getElem?_eq_getElem hi⟩
  have hlen := ha.included i n hn
  have hpopped : t.Trails ray tMax { s with stack := rest } { s' with stack := rest' } :=
    ⟨h.best, hrest, h.below⟩
  have hadvance : (t.withOptions o).advance ray tMax s =
      n.elements.foldl (t.look ray tMax) { s with stack := rest } :=
    advance_of_noCulling (t := t.withOptions o) ha ho hs hn
  rw [hadvance]
  simp only [Tracer.advance, hs', hn, h.limit]
  rw [← List.map_fst_zip hlen.ge]
  refine hpopped.foldl_look (fun x hx => hx) _ _ fun x hx hskip => ?_
  obtain ⟨hculls, hincluded⟩ := Bool.and_eq_true_iff.mp hskip
  obtain ⟨q, hq⟩ := List.mem_iff_getElem?.mp hx
  obtain ⟨he, hinc⟩ := List.getElem?_zip_eq_some.mp hq
  exact idle_of_culls hb hf hn hculls he (hinc.trans (congrArg some hincluded))

lemma Trails.advance_idle (ha : t.arena.Sound) (ho : o.contains Options.noCulling = true)
    (h : t.Trails ray tMax s s') (hs : s.stack = i :: rest) (hi : i < t.arena.arrays.size)
    (hidle : t.Idle ray tMax (s.limit tMax) (.array i))
    (hrest : Thinned (fun i => t.Idle ray tMax (s.limit tMax) (.array i)) rest s'.stack) :
    t.Trails ray tMax ((t.withOptions o).advance ray tMax s) s' := by
  obtain ⟨n, hn⟩ : ∃ n, t.arena.arrays[i]? = some n := ⟨_, Array.getElem?_eq_getElem hi⟩
  have hpopped : t.Trails ray tMax { s with stack := rest } s' := ⟨h.best, hrest, h.below⟩
  have hadvance : (t.withOptions o).advance ray tMax s =
      n.elements.foldl (t.look ray tMax) { s with stack := rest } :=
    advance_of_noCulling (t := t.withOptions o) ha ho hs hn
  rw [hadvance]
  have hall : (n.elements.map fun e => (e, true)).map Prod.fst = n.elements := by
    simp [Function.comp_def]
  have hnone : ((n.elements.map fun e => (e, true)).filterMap fun x =>
      if true && x.2 then none else some x.1) = [] := by simp
  have hfold := hpopped.foldl_look (fun x hx => hx) true (n.elements.map fun e => (e, true))
    fun x hx _ => by
      obtain ⟨e, he, rfl⟩ := List.mem_map.mp hx
      exact hidle.child hn he
  rwa [hall, hnone] at hfold

/-- The second search ends with the best hit of the first one, and no later. -/
lemma Trails.drain (hf : t.snapshot.Fits t.arena) (ha : t.arena.Sound)
    (ho : o.contains Options.noCulling = true) (hb : t.BoxesHold ray tMax)
    (h : t.Trails ray tMax s s') (hrange : s.InRange t.arena) {n : ℕ}
    (hend : ((t.withOptions o).drain ray tMax n s).stack = []) :
    ∃ m ≤ n, (t.drain ray tMax m s').stack = [] ∧
      (t.drain ray tMax m s').best = ((t.withOptions o).drain ray tMax n s).best := by
  -- the second stack is the first one without idle arrays, so only a kept array costs it a step
  induction n generalizing s s' with
  | zero =>
    have hnil := h.stack
    rw [show s.stack = [] from hend] at hnil
    generalize hs' : s'.stack = stack' at hnil
    cases hnil with
    | nil => exact ⟨0, Nat.le_refl _, hs', h.best⟩
  | succ n ih =>
    have hadvance : ((t.withOptions o).advance ray tMax s).InRange t.arena :=
      advance_inRange (t := t.withOptions o) ha hrange
    have hstack := h.stack
    generalize hs : s.stack = stack at hstack
    generalize hs' : s'.stack = stack' at hstack
    cases hstack with
    | nil =>
      refine ⟨0, Nat.zero_le _, hs', ?_⟩
      rw [drain_nil hs]
      exact h.best
    | @keep i rest rest' hrest =>
      have hi : i < t.arena.arrays.size := hrange i (hs ▸ List.mem_cons_self)
      rw [drain_cons hs] at hend ⊢
      obtain ⟨m, hm, hm'⟩ := ih (h.advance hf ha ho hb hs hs' hi hrest) hadvance hend
      rw [← drain_cons hs'] at hm'
      exact ⟨m + 1, by omega, hm'⟩
    | @drop i rest _ hidle hrest =>
      have hi : i < t.arena.arrays.size := hrange i (hs ▸ List.mem_cons_self)
      rw [drain_cons hs] at hend ⊢
      obtain ⟨m, hm, hm'⟩ := ih (h.advance_idle ha ho hs hi hidle (hs' ▸ hrest)) hadvance hend
      exact ⟨m, by omega, hm'⟩

end

/-! ### The nearest hit -/

/-- The result of an exhaustive search: it is there when some candidate survives, it is the hit of a
survivor, no survivor has a smaller parameter, and every array comes up exactly once. -/
structure Exhausts (t : Tracer S) (ray : Ray S) (tMax : S) (result : Option (Hit S)) : Prop where
  found : result.isSome = true ↔ ∃ s pose c, t.Survives ray tMax s pose c
  hit : ∀ h, result = some h → ∃ s pose c, t.Survives ray tMax s pose c ∧ h.t = c.1 ∧
    h = pose.hit ray c.1 c.2 s
  least : ∀ h, result = some h → ∀ s pose c, t.Survives ray tMax s pose c → h.t ≤ c.1
  once : ∀ count, t.arena.arrays.size ≤ count →
    t.run ray tMax count ⟨[Arena.root], none⟩ = .ok ⟨[], result⟩ ∧
      (t.popped ray tMax count ⟨[Arena.root], none⟩).Perm (List.range t.arena.arrays.size)

variable {t : Tracer S} {ray : Ray S} {tMax : S}

lemma nearest_eq (hf : t.snapshot.Fits t.arena) (ha : t.arena.Sound) :
    t.nearest ray tMax =
      .ok (t.drain ray tMax t.arena.arrays.size ⟨[Arena.root], none⟩).best := by
  unfold nearest
  rw [run_eq hf ha (Search.start_inRange ha)]
  rfl

variable [Scalar.Ordered S]

lemma Least.exhausts (hf : t.snapshot.Fits t.arena) (ha : t.arena.Sound)
    (hc : t.options.contains Options.noCulling = true) {best : Option (Hit S)}
    (hbest : t.drain ray tMax t.arena.arrays.size ⟨[Arena.root], none⟩ = ⟨[], best⟩)
    (h : t.Least ray tMax (fun s => s < t.arena.surfaces.size) best) :
    t.Exhausts ray tMax best := by
  have hplaced : ∀ {s pose c}, t.Survives ray tMax s pose c → s < t.arena.surfaces.size := by
    rintro s pose c ⟨-, -, n, hn, -⟩
    exact Arena.lt_size_of_getElem? hn
  have hbound : ∀ {s pose c}, t.Survives ray tMax s pose c → ¬ c.1 < best.elim tMax Hit.t :=
    fun hs => h.least _ _ _ (hplaced hs) hs
  have hrange : ∀ {s pose c}, t.Survives ray tMax s pose c →
      Pose.nearest < c.1 ∧ c.1 < tMax := by
    intro s pose c hs
    obtain ⟨-, hnear, hmax, -⟩ := Pose.mem_candidates.mp hs.candidate
    exact ⟨hnear, hmax⟩
  -- a hit where something survives, of a survivor, the least one, and every array once
  refine ⟨⟨fun hsome => ?_, ?_⟩, fun hit hh => ?_, ?_, fun count hcount => ⟨?_, ?_⟩⟩
  · obtain ⟨hit, hh⟩ := Option.isSome_iff_exists.mp hsome
    obtain ⟨s, pose, c, hs, -⟩ := h.hit hit hh
    exact ⟨s, pose, c, hs⟩
  · rintro ⟨s, pose, c, hs⟩
    cases best with
    | none => exact absurd (hrange hs).2 (hbound hs)
    | some hit => rfl
  · obtain ⟨s, pose, c, hs, rfl⟩ := h.hit hit hh
    exact ⟨s, pose, c, hs, rfl, rfl⟩
  · rintro hit rfl s pose c hs
    obtain ⟨s', pose', c', hs', rfl⟩ := h.hit _ rfl
    exact Scalar.le_of_not_lt (Scalar.isNaN_of_lt (hrange hs).1).2
      (Scalar.isNaN_of_lt (hrange hs').1).2 (hbound hs)
  · rw [run_eq hf ha (Search.start_inRange ha), drain_of_le (by rw [hbest]) hcount, hbest]
  · obtain ⟨-, -, hperm, -⟩ := exhaustive hf ha hc ray tMax hcount
    exact hperm

end Tracer

/-- **Culled search is exhaustive search.** In a compiled scene under a snapshot of its shape, the
search without culling finds a least survivor and takes every array once. Where boxes hold what they
bound, culling changes nothing. -/
theorem nearest_exhausts [Scalar S] [Scalar.Ordered S] {w : Workshop S} {allocator : Allocator}
    {c : Compiled S} (hc : (compile w allocator).1 = .ok c) {t : Tracer S} (ha : t.arena = c.arena)
    (hf : t.snapshot.Fits c.arena) (ray : Ray S) (tMax : S) :
    (t.options.contains Options.noCulling = true →
      ∃ result, t.nearest ray tMax = .ok result ∧ t.Exhausts ray tMax result) ∧
    (t.BoxesHold ray tMax → ∀ o : Options, o.contains Options.noCulling = true →
      t.nearest ray tMax = (t.withOptions o).nearest ray tMax) := by
  have hsound : t.arena.Sound := ha ▸ (compile_records hc).sound
  rw [← ha] at hf
  refine ⟨fun hoptions => ?_, fun hboxes o ho => ?_⟩
  · obtain ⟨best, hdrain, -, hleast⟩ := t.exhaustive hf hsound hoptions ray tMax (Nat.le_refl _)
    refine ⟨best, ?_, hleast.exhausts hf hsound hoptions hdrain⟩
    rw [Tracer.nearest_eq hf hsound, hdrain]
  · obtain ⟨best, hdrain, -⟩ := (t.withOptions o).exhaustive hf hsound ho ray tMax (Nat.le_refl _)
    have htrails : t.Trails ray tMax ⟨[Arena.root], none⟩ ⟨[Arena.root], none⟩ :=
      ⟨rfl, .refl _ _, fun _ h => h⟩
    obtain ⟨m, hm, hstack, hbest⟩ := htrails.drain hf hsound ho hboxes
      (Search.start_inRange hsound) (by rw [hdrain])
    have hsame : t.drain ray tMax t.arena.arrays.size ⟨[Arena.root], none⟩ =
        t.drain ray tMax m ⟨[Arena.root], none⟩ := Tracer.drain_of_le hstack hm
    rw [Tracer.nearest_eq hf hsound, Tracer.nearest_eq (t := t.withOptions o) hf hsound, hsame]
    exact congrArg Except.ok hbest

/-! ### A ray through a pair of spheres -/

namespace Pair

def pose : Pose Float :=
  ⟨(Shape.sphere 1).quadric, Surface.noClip, Transform.identity, Transform.identity, Surface.noClip⟩

/-- Both spheres about the origin, and large boxes around the arrays. -/
def snapshot : Snapshot Float where
  poses := Array.replicate 2 (some pose)
  arrayBounds := Array.replicate 2 Surface.noClip
  cameras := #[]
  lights := #[]

/-- The ray along the third axis, from three before the origin. -/
def ray : Ray Float := Ray.through ⟨0, 0, -3⟩ ⟨0, 0, 1⟩

def tracer (a : Arena Float) : Tracer Float := ⟨a, snapshot, Options.none⟩

lemma boxesHold (a : Arena Float) : (tracer a).BoxesHold ray 100 := by
  intro i n b _ _ hb q e _ _ s pose c _ hsurvives
  obtain rfl : b = Surface.noClip := by
    have hbounds : (Array.replicate 2 Surface.noClip)[i]? = some b := hb
    rw [Array.getElem?_replicate] at hbounds
    split at hbounds
    · exact (Option.some.inj hbounds).symm
    · cases hbounds
  have hmeet : (ray.meet? Surface.noClip).any (fun w => decide (w.1 ≤ Pose.nearest)) = true := by
    decide +kernel
  rcases hray : ray.meet? Surface.noClip with _ | ⟨enter, exit⟩
  · rw [hray] at hmeet
    cases hmeet
  · rw [hray] at hmeet
    have hlt := (Pose.mem_candidates.mp hsurvives.candidate).2.1
    exact ⟨enter, exit, rfl, Scalar.Ordered.le_trans _ _ _ (of_decide_eq_true hmeet)
      (Scalar.le_of_lt hlt)⟩

end Pair

/-- The ray meets the pair of spheres, with culling and without. -/
theorem nearest_pair : ∃ c,
    (compile (Pair.workshop Pair.copied) Pair.allocator).1 = .ok c ∧
      Pair.snapshot.Fits c.arena ∧ (Pair.tracer c.arena).BoxesHold Pair.ray 100 ∧
      ∃ h, (Pair.tracer c.arena).nearest Pair.ray 100 = .ok (some h) ∧
        ((Pair.tracer c.arena).withOptions Options.noCulling).nearest Pair.ray 100 = .ok (some h) ∧
        ((Pair.tracer c.arena).withOptions Options.noCulling).Exhausts Pair.ray 100 (some h) := by
  obtain ⟨c, hc⟩ := Pair.exists_compiled
  have hsizes : ((compile (Pair.workshop Pair.copied) Pair.allocator).1.toOption.map fun c =>
      (c.arena.surfaces.size, c.arena.arrays.size)) = some (2, 2) := by
    decide +kernel
  have hfound : ((compile (Pair.workshop Pair.copied) Pair.allocator).1.toOption.any fun c =>
      ((Pair.tracer c.arena).nearest Pair.ray 100).toOption.any Option.isSome) = true := by
    decide +kernel
  rw [hc] at hsizes hfound
  have hsizes := Option.some.inj hsizes
  have hfits : Pair.snapshot.Fits c.arena := by
    refine ⟨?_, ?_⟩
    · exact (Array.size_replicate ..).trans (congrArg Prod.fst hsizes).symm
    · exact (Array.size_replicate ..).trans (congrArg Prod.snd hsizes).symm
  have hculled := nearest_exhausts (t := Pair.tracer c.arena) hc rfl hfits Pair.ray 100
  have hall := nearest_exhausts (t := (Pair.tracer c.arena).withOptions Options.noCulling) hc rfl
    hfits Pair.ray 100
  have hoptions : Options.noCulling.contains Options.noCulling = true := by decide
  obtain ⟨result, hresult, hexhausts⟩ := hall.1 hoptions
  have hsame := (hculled.2 (Pair.boxesHold c.arena) Options.noCulling hoptions).trans hresult
  have hsome : result.isSome = true := by
    simpa [Except.toOption, hsame] using hfound
  obtain ⟨h, rfl⟩ := Option.isSome_iff_exists.mp hsome
  exact ⟨c, hc, hfits, Pair.boxesHold c.arena, h, hsame, hresult, hexhausts⟩

end SolidTrace
