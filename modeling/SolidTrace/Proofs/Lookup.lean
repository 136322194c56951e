import Mathlib.Data.List.Forall2
import Mathlib.Data.List.Perm.Subperm
import SolidTrace.Dict
import SolidTrace.Fault

/-!
Lookups that do not miss, the keys of a dictionary, traversals that succeed, and places between
marks.
-/

namespace SolidTrace

lemma fetch_eq_ok {α : Type} {table : Array α} {i : ℕ} {x : α} (h : table[i]? = some x) :
    fetch table i = .ok x := by
  unfold fetch
  rw [h]

lemma getElem?_of_fetch {α : Type} {table : Array α} {i : ℕ} {x : α} (h : fetch table i = .ok x) :
    table[i]? = some x := by
  unfold fetch at h
  split at h
  · next hx => rw [hx, Except.ok.inj h]
  · cases h

lemma fetch_mapError_bind {α β ε : Type} {table : Array α} {i : ℕ} {x : α} (h : table[i]? = some x)
    (e : Fault → ε) (f : α → Except ε β) : ((fetch table i).mapError e >>= f) = f x := by
  rw [fetch_eq_ok h]
  rfl

namespace Dict

variable {α : Type} {d : Dict α} {name : String}

lemma mem_keys_of_isSome (h : (d.get? name).isSome) : name ∈ d.keys := by
  obtain ⟨x, hx⟩ := Option.isSome_iff_exists.mp h
  obtain ⟨before, after, heq, -⟩ := List.lookup_eq_some_iff.mp hx
  simp [keys, heq]

/-- As many keys as there are entries are all keys. -/
lemma mem_of_size_le {names : List String} (hd : names.Nodup)
    (hin : ∀ n ∈ names, (d.get? n).isSome) (hsize : d.size ≤ names.length)
    (h : (d.get? name).isSome) : name ∈ names := by
  have hsub : names.Subperm d.keys :=
    List.subperm_of_subset hd fun n hn => mem_keys_of_isSome (hin n hn)
  have hlength : d.keys.length ≤ names.length := by simpa [keys, size] using hsize
  exact (hsub.perm_of_length_le hlength).mem_iff.mpr (mem_keys_of_isSome h)

end Dict

lemma ok_bind {ε α β : Type} (a : α) (f : α → Except ε β) : (Except.ok a >>= f) = f a := rfl

lemma exists_of_bind_eq_ok {ε α β : Type} {x : Except ε α} {f : α → Except ε β} {b : β}
    (h : (x >>= f) = .ok b) : ∃ a, x = .ok a ∧ f a = .ok b := by
  cases x with
  | error e => cases h
  | ok a => exact ⟨a, rfl, h⟩

lemma mapError_eq_ok {ε ε' α : Type} {x : Except ε α} {f : ε → ε'} {a : α} :
    x.mapError f = .ok a ↔ x = .ok a := by
  cases x with
  | error e => exact ⟨nofun, nofun⟩
  | ok b => exact ⟨fun h => congrArg _ (Except.ok.inj h), fun h => congrArg _ (Except.ok.inj h)⟩

lemma mapM_eq_ok_iff {ε α β : Type} {f : α → Except ε β} {l : List α} {r : List β} :
    l.mapM f = .ok r ↔ List.Forall₂ (fun a b => f a = .ok b) l r := by
  induction l generalizing r with
  | nil =>
    rw [List.forall₂_nil_left_iff, List.mapM_nil]
    exact ⟨fun h => (Except.ok.inj h).symm, fun h => h ▸ rfl⟩
  | cons a l ih =>
    rw [List.mapM_cons, List.forall₂_cons_left_iff]
    constructor
    · intro h
      rcases ha : f a with e | b
      · rw [ha] at h
        cases h
      · rcases hl : l.mapM f with e | bs
        · rw [ha, hl] at h
          cases h
        · rw [ha, hl] at h
          exact ⟨b, bs, rfl, ih.mp hl, (Except.ok.inj h).symm⟩
    · rintro ⟨b, bs, hb, hbs, rfl⟩
      rw [hb, ih.mpr hbs]
      rfl

lemma exists_of_mapM_eq_error {ε α β : Type} {f : α → Except ε β} {l : List α} {e : ε}
    (h : l.mapM f = .error e) : ∃ a ∈ l, f a = .error e := by
  induction l with
  | nil => cases h
  | cons a l ih =>
    rw [List.mapM_cons] at h
    rcases ha : f a with e' | b
    · rw [ha] at h
      exact ⟨a, List.mem_cons_self, ha.trans (congrArg _ (Except.error.inj h))⟩
    · rcases hl : l.mapM f with e' | bs
      · rw [ha, hl] at h
        obtain ⟨a', ha', he⟩ := ih (hl.trans (congrArg _ (Except.error.inj h)))
        exact ⟨a', List.mem_cons_of_mem _ ha', he⟩
      · rw [ha, hl] at h
        cases h

lemma exists_mapM_eq_ok {ε α β : Type} {f : α → Except ε β} {l : List α}
    (h : ∀ a ∈ l, ∃ b, f a = .ok b) : ∃ r, l.mapM f = .ok r := by
  induction l with
  | nil => exact ⟨[], rfl⟩
  | cons a l ih =>
    obtain ⟨b, hb⟩ := h a List.mem_cons_self
    obtain ⟨r, hr⟩ := ih fun a' ha' => h a' (List.mem_cons_of_mem _ ha')
    exact ⟨b :: r, by rw [List.mapM_cons, hb, hr]; rfl⟩

lemma array_mapM_eq_ok {ε α β : Type} {f : α → Except ε β} {g : α → β} {xs : Array α}
    (h : ∀ (i : ℕ) (x : α), xs[i]? = some x → f x = .ok (g x)) : xs.mapM f = .ok (xs.map g) := by
  have hlist : xs.toList.mapM f = .ok (xs.toList.map g) := by
    rw [mapM_eq_ok_iff, List.forall₂_map_right_iff, List.forall₂_same]
    intro x hx
    obtain ⟨i, hi⟩ := List.getElem?_of_mem hx
    exact h i x (by rwa [Array.getElem?_toList] at hi)
  rw [Array.mapM_eq_mapM_toList, hlist]
  change Except.ok (xs.toList.map g).toArray = _
  rw [← Array.toList_map]

lemma size_of_mapM_eq_ok {ε α β : Type} {f : α → Except ε β} {xs : Array α} {ys : Array β}
    (h : xs.mapM f = .ok ys) : ys.size = xs.size := by
  rw [Array.mapM_eq_mapM_toList] at h
  obtain ⟨l, hl, h⟩ := exists_of_bind_eq_ok h
  obtain rfl : l.toArray = ys := Except.ok.inj h
  rw [List.size_toArray, ← (mapM_eq_ok_iff.mp hl).length_eq, Array.length_toList]

lemma foldlM_eq_ok {ε α β : Type} {P : α → Prop} {f : α → β → Except ε α} {g : α → β → α}
    {l : List β} (hf : ∀ b ∈ l, ∀ a, P a → f a b = .ok (g a b) ∧ P (g a b)) {a : α} (ha : P a) :
    l.foldlM f a = .ok (l.foldl g a) := by
  induction l generalizing a with
  | nil => rfl
  | cons b l ih =>
    obtain ⟨hb, hkept⟩ := hf b List.mem_cons_self a ha
    rw [List.foldlM_cons, hb, ok_bind]
    exact ih (fun b' hb' => hf b' (List.mem_cons_of_mem _ hb')) hkept

lemma foldlM_zipIdx_eq_ok {ε α β γ : Type} {f : α → β × ℕ → Except ε α} {g : α → β × γ → α}
    {l : List β} {marks : List γ} (first : ℕ) (hmarks : marks.length = l.length)
    (hf : ∀ a k e mark, l[k]? = some e → marks[k]? = some mark →
      f a (e, first + k) = .ok (g a (e, mark))) (a : α) :
    (l.zipIdx first).foldlM f a = .ok ((l.zip marks).foldl g a) := by
  induction l generalizing marks first a with
  | nil => rfl
  | cons e l ih =>
    cases marks with
    | nil => cases hmarks
    | cons mark marks =>
      have hhead : f a (e, first) = .ok (g a (e, mark)) := hf a 0 e mark rfl rfl
      have htail : ∀ a k e' mark', l[k]? = some e' → marks[k]? = some mark' →
          f a (e', first + 1 + k) = .ok (g a (e', mark')) := by
        intro a k e' mark' he hm
        rw [Nat.add_right_comm]
        exact hf a (k + 1) e' mark' he hm
      rw [List.zipIdx_cons, List.foldlM_cons, hhead, ok_bind,
        ih (first + 1) (Nat.succ.inj hmarks) htail]
      rfl

/-- Checks made one after the other all pass, or the first one that fails is what comes out. -/
lemma forM_cases {ε α : Type} (f : α → Except ε PUnit) (l : List α) :
    (l.forM f = .ok ⟨⟩ ∧ ∀ a ∈ l, f a = .ok ⟨⟩) ∨ ∃ a ∈ l, ∃ e, f a = .error e ∧
      l.forM f = .error e := by
  induction l with
  | nil => exact Or.inl ⟨rfl, nofun⟩
  | cons a l ih =>
    rw [show (a :: l).forM f = (f a >>= fun _ => l.forM f) from rfl]
    rcases ha : f a with e | u
    · exact Or.inr ⟨a, List.mem_cons_self, e, ha, rfl⟩
    · rcases ih with ⟨hl, hall⟩ | ⟨a', ha', e, herr, hl⟩
      · exact Or.inl ⟨hl, List.forall_mem_cons.mpr ⟨ha, hall⟩⟩
      · exact Or.inr ⟨a', List.mem_cons_of_mem _ ha', e, herr, hl⟩

/-- A place between marks lies between two of them that follow each other. -/
lemma exists_mark_between {f : ℕ → ℕ} {n s : ℕ} (h₀ : f 0 ≤ s) (h : s < f n) :
    ∃ q < n, f q ≤ s ∧ s < f (q + 1) := by
  induction n with
  | zero => omega
  | succ n ih =>
    by_cases hs : s < f n
    · obtain ⟨q, hq, hle, hlt⟩ := ih hs
      exact ⟨q, by omega, hle, hlt⟩
    · exact ⟨n, by omega, by omega, h⟩

end SolidTrace
