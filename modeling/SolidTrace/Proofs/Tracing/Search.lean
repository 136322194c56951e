import SolidTrace.Proofs.Tracing.Candidates

/-!
The search over the arrays of a scene.

`advance` is the step of the search where no lookup misses. One lemma tells what looking at an
element does to the best hit, and one what it does to the stack. From them follows what a whole
search does: without culling every array comes up once, and the hit left at the end is a least one.
-/

namespace SolidTrace

variable {S : Type}

/-- The elements that are searched: all of them, or those that do not count for the box. -/
def ArrayNode.searched (n : ArrayNode S) (culled : Bool) : List Element :=
  (n.elements.zip n.included).filterMap fun x => if culled && x.2 then none else some x.1

lemma ArrayNode.searched_false {n : ArrayNode S} (h : n.included.length = n.elements.length) :
    n.searched false = n.elements := by
  rw [searched]
  simp only [Bool.false_and, Bool.false_eq_true, if_false, List.filterMap_eq_map']
  exact List.map_fst_zip h.ge

lemma ArrayNode.mem_searched {n : ArrayNode S} {culled : Bool} {e : Element}
    (h : e ∈ n.searched culled) : e ∈ n.elements := by
  obtain ⟨x, hx, he⟩ := List.mem_filterMap.mp h
  split at he
  · cases he
  · exact Option.some.inj he ▸ (List.of_mem_zip hx).1

/-- Arrays of the stack are entries. -/
def Search.InRange (s : Search S) (a : Arena S) : Prop := ∀ i ∈ s.stack, i < a.arrays.size

lemma Search.start_inRange {a : Arena S} (ha : a.Sound) :
    (⟨[Arena.root], none⟩ : Search S).InRange a := fun i hi => by
  rw [List.mem_singleton.mp hi]
  exact ha.root

namespace Tracer

variable [Scalar S]

def withOptions (t : Tracer S) (o : Options) : Tracer S := { t with options := o }

/-- Whether an array is passed over. -/
def culls (t : Tracer S) (ray : Ray S) (limit : S) (i : ℕ) (n : ArrayNode S) : Bool :=
  !(t.options.contains Options.noCulling || !n.bounded) &&
    match t.snapshot.arrayBounds[i]?.bind ray.meet? with
    | none => true
    | some (enter, _) => decide (limit ≤ enter)

/-- Looks at one element. -/
def look (t : Tracer S) (ray : Ray S) (tMax : S) (s : Search S) : Element → Search S
  | .surface id =>
    match t.closest? ray (s.limit tMax) id with
    | none => s
    | some hit => { s with best := some hit }
  | .array id => { s with stack := id :: s.stack }
  | .camera _ | .light _ => s

/-- Searches the next array. -/
def advance (t : Tracer S) (ray : Ray S) (tMax : S) (s : Search S) : Search S :=
  match s.stack with
  | [] => s
  | i :: rest =>
    match t.arena.arrays[i]? with
    | none => s
    | some n =>
      (n.searched (t.culls ray (s.limit tMax) i n)).foldl (t.look ray tMax) { s with stack := rest }

/-- Searches at most `count` arrays. -/
def drain (t : Tracer S) (ray : Ray S) (tMax : S) : (count : ℕ) → Search S → Search S
  | 0, s => s
  | count + 1, s => if s.stack.isEmpty then s else t.drain ray tMax count (t.advance ray tMax s)

/-- The arrays that come up in a search of at most `count` arrays, in their order. -/
def popped (t : Tracer S) (ray : Ray S) (tMax : S) : (count : ℕ) → Search S → List ℕ
  | 0, _ => []
  | count + 1, s =>
    match s.stack with
    | [] => []
    | i :: _ =>
      match t.step ray tMax s with
      | .error _ => [i]
      | .ok next => i :: t.popped ray tMax count next

section

variable {t : Tracer S} {ray : Ray S} {tMax : S}

lemma look_of_eq_none {s : Search S} {id : ℕ} (h : t.closest? ray (s.limit tMax) id = none) :
    t.look ray tMax s (.surface id) = s := by
  simp only [look, h]

lemma look_of_eq_some {s : Search S} {id : ℕ} {hit : Hit S}
    (h : t.closest? ray (s.limit tMax) id = some hit) :
    t.look ray tMax s (.surface id) = { s with best := some hit } := by
  simp only [look, h]

lemma foldl_look_stack (l : List Element) (s : Search S) :
    (l.foldl (t.look ray tMax) s).stack = (l.filterMap Element.array?).reverse ++ s.stack := by
  induction l generalizing s with
  | nil => rfl
  | cons e l ih =>
    rw [List.foldl_cons, ih, List.filterMap_cons]
    cases e with
    | surface id =>
      rcases hc : t.closest? ray (s.limit tMax) id with _ | hit
      · rw [look_of_eq_none hc]
        rfl
      · rw [look_of_eq_some hc]
        rfl
    | array id => simp [look, Element.array?]
    | camera id => rfl
    | light id => rfl

lemma advance_of_noCulling (ha : t.arena.Sound) (hc : t.options.contains Options.noCulling = true)
    {s : Search S} {i : ℕ} {rest : List ℕ} (hs : s.stack = i :: rest) {n : ArrayNode S}
    (hn : t.arena.arrays[i]? = some n) :
    t.advance ray tMax s = n.elements.foldl (t.look ray tMax) { s with stack := rest } := by
  have hculls : t.culls ray (s.limit tMax) i n = false := by simp [culls, hc]
  simp only [advance, hs, hn, hculls, ArrayNode.searched_false (ha.included i n hn)]

lemma advance_inRange (ha : t.arena.Sound) {s : Search S} (hs : s.InRange t.arena) :
    (t.advance ray tMax s).InRange t.arena := by
  unfold advance
  split
  · exact hs
  · next i rest hstack =>
    split
    · exact hs
    · next n hn =>
      intro j hj
      rw [foldl_look_stack] at hj
      rcases List.mem_append.mp hj with hj | hj
      · rw [List.mem_reverse, List.mem_filterMap] at hj
        obtain ⟨e, he, hej⟩ := hj
        cases e with
        | array k => exact Option.some.inj hej ▸ (ha.array i k n hn (ArrayNode.mem_searched he)).2
        | surface => cases hej
        | camera => cases hej
        | light => cases hej
      · exact hs j (hstack ▸ List.mem_cons_of_mem _ hj)

lemma drain_nil {s : Search S} (hs : s.stack = []) (n : ℕ) : t.drain ray tMax n s = s := by
  cases n with
  | zero => rfl
  | succ n =>
    unfold drain
    rw [if_pos (by rw [hs]; rfl)]

lemma drain_cons {s : Search S} {i : ℕ} {rest : List ℕ} (hs : s.stack = i :: rest) (n : ℕ) :
    t.drain ray tMax (n + 1) s = t.drain ray tMax n (t.advance ray tMax s) := by
  rw [drain, if_neg (by simp [hs])]

lemma drain_of_le {s : Search S} {m n : ℕ} (h : (t.drain ray tMax m s).stack = []) (hmn : m ≤ n) :
    t.drain ray tMax n s = t.drain ray tMax m s := by
  induction m generalizing n s with
  | zero => exact drain_nil h n
  | succ m ih =>
    obtain ⟨n, rfl⟩ : ∃ n', n = n' + 1 := ⟨n - 1, by omega⟩
    rcases hs : s.stack with _ | ⟨i, rest⟩
    · rw [drain_nil hs, drain_nil hs]
    · rw [drain_cons hs] at h ⊢
      rw [drain_cons hs]
      exact ih h (by omega)

end

section

variable {t : Tracer S} {ray : Ray S} {tMax : S} (hf : t.snapshot.Fits t.arena)

include hf

lemma culled_eq {limit : S} {i : ℕ} {n : ArrayNode S} (hi : i < t.arena.arrays.size) :
    t.culled ray limit i n = .ok (t.culls ray limit i n) := by
  obtain ⟨b, hb⟩ : ∃ b, t.snapshot.arrayBounds[i]? = some b :=
    ⟨_, Array.getElem?_eq_getElem (hf.arrayBounds.ge.trans_lt' hi)⟩
  unfold culled culls
  rw [hb]
  split
  · next h => simp [h]
  · next h =>
    rw [fetch_eq_ok hb]
    simp only [bind, Except.bind, Option.bind_some, Bool.not_eq_true _ ▸ h, Bool.not_false,
      Bool.true_and]
    rcases ray.meet? b with _ | ⟨enter, exit⟩ <;> rfl

variable (ha : t.arena.Sound)

include ha

lemma element_eq {s : Search S} {e : Element}
    (he : ∀ id, e = .surface id → id < t.arena.surfaces.size) :
    t.element ray tMax s e = .ok (t.look ray tMax s e) := by
  cases e with
  | surface id =>
    simp only [element, look, hitSurface_eq hf ha ray (s.limit tMax) (he id rfl)]
    simp only [bind, Except.bind]
    cases t.closest? ray (s.limit tMax) id <;> rfl
  | array id => rfl
  | camera id => rfl
  | light id => rfl

lemma elements_eq {n : ArrayNode S} {culled : Bool} {s : Search S}
    (hn : n.included.length = n.elements.length)
    (hs : ∀ id, .surface id ∈ n.elements → id < t.arena.surfaces.size) :
    t.elements ray tMax n culled s = .ok ((n.searched culled).foldl (t.look ray tMax) s) := by
  unfold elements ArrayNode.searched
  rw [List.foldl_filterMap]
  refine foldlM_zipIdx_eq_ok 0 hn (fun s k e counts he hcounts => ?_) s
  have hlook : t.element ray tMax s e = .ok (t.look ray tMax s e) :=
    element_eq hf ha fun id h => hs id (h ▸ List.mem_of_getElem? he)
  rw [Nat.zero_add]
  dsimp only [ArrayNode.counts]
  rw [hcounts]
  cases culled
  · exact hlook
  · cases counts
    · exact hlook
    · rfl

lemma step_eq {s : Search S} (hs : s.InRange t.arena) :
    t.step ray tMax s = .ok (t.advance ray tMax s) := by
  unfold step advance
  rcases hstack : s.stack with _ | ⟨i, rest⟩
  · rfl
  · have hi := hs i (hstack ▸ List.mem_cons_self)
    have hn := Array.getElem?_eq_getElem hi
    simp only [fetch_eq_ok hn, hn, bind, Except.bind, culled_eq hf hi]
    exact elements_eq hf ha (ha.included i _ hn) fun id => ha.surface i id _ hn

lemma run_eq {s : Search S} (hs : s.InRange t.arena) (count : ℕ) :
    t.run ray tMax count s = .ok (t.drain ray tMax count s) := by
  induction count generalizing s with
  | zero => rfl
  | succ count ih =>
    unfold run drain
    split
    · rfl
    · rw [step_eq hf ha hs]
      exact ih (advance_inRange ha hs)

end

end Tracer

end SolidTrace
