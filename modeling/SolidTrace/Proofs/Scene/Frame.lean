import Mathlib.Data.List.Nodup
import SolidTrace.Scene.Frame

/-!
Stores into a frame.

Stores keep the shape of a frame. Where no two of them share a position, their order does not
matter: each position holds the word of its store, or the old word if it has none.
-/

namespace SolidTrace

namespace Frame

lemma storeAll_cons (f : Frame) (s : Store) (l : List Store) :
    f.storeAll (s :: l) = (f.store s).storeAll l := rfl

lemma storeAll_append (f : Frame) (l m : List Store) :
    f.storeAll (l ++ m) = (f.storeAll l).storeAll m :=
  List.foldl_append

@[simp]
lemma storeAll_stride (f : Frame) (l : List Store) : (f.storeAll l).stride = f.stride := by
  induction l generalizing f with
  | nil => rfl
  | cons s l ih => exact ih (f.store s)

@[simp]
lemma storeAll_size (f : Frame) (l : List Store) :
    (f.storeAll l).words.size = f.words.size := by
  induction l generalizing f with
  | nil => rfl
  | cons s l ih => exact (ih (f.store s)).trans Array.size_setIfInBounds

lemma storeAll_of_not_mem (f : Frame) {l : List Store} {p : ℕ} (hp : p ∉ l.map Store.position) :
    (f.storeAll l).words[p]? = f.words[p]? := by
  induction l generalizing f with
  | nil => rfl
  | cons s l ih =>
    rw [List.map_cons, List.mem_cons, not_or] at hp
    rw [storeAll_cons, ih _ hp.2]
    exact Array.getElem?_setIfInBounds_ne (Ne.symm hp.1)

lemma storeAll_of_mem (f : Frame) {l : List Store} (hnodup : (l.map Store.position).Nodup)
    {s : Store} (hs : s ∈ l) (hfit : s.position < f.words.size) :
    (f.storeAll l).words[s.position]? = some s.word := by
  induction l generalizing f with
  | nil => cases hs
  | cons r l ih =>
    rw [List.map_cons, List.nodup_cons] at hnodup
    rw [storeAll_cons]
    rcases List.mem_cons.mp hs with rfl | hs
    · rw [storeAll_of_not_mem _ hnodup.1]
      exact Array.getElem?_setIfInBounds_self_of_lt hfit
    · apply ih _ hnodup.2 hs
      exact Nat.lt_of_lt_of_eq hfit Array.size_setIfInBounds.symm

lemma check_eq_ok (f : Frame) {l : List Store} :
    f.check l = .ok () ↔ ∀ s ∈ l, s.position < f.words.size := by
  unfold check
  induction l with
  | nil => exact ⟨fun _ s hs => absurd hs List.not_mem_nil, fun _ => rfl⟩
  | cons s l ih =>
    rw [List.forall_mem_cons, ← ih, List.forM]
    by_cases h : s.position < f.words.size
    · rw [if_pos h]
      exact ⟨fun hl => ⟨h, hl⟩, fun hl => hl.2⟩
    · rw [if_neg h]
      exact ⟨fun hl => (nomatch hl), fun hl => absurd hl.1 h⟩

lemma map_position_rowStores (f : Frame) (y : ℕ) (words : List UInt32) :
    (f.rowStores y words).map Store.position = List.range' (y * f.stride) words.length := by
  have hindices : words.zipIdx.map Prod.snd = List.range words.length :=
    (List.zipIdx_map_snd 0 words).trans List.range_eq_range'.symm
  unfold rowStores
  rw [List.map_map, List.range'_eq_map_range, ← hindices, List.map_map]
  rfl

lemma mem_rowStores (f : Frame) {y x : ℕ} {words : List UInt32} {word : UInt32}
    (h : words[x]? = some word) : ⟨y * f.stride + x, word⟩ ∈ f.rowStores y words :=
  List.mem_map.mpr ⟨(word, x), List.mk_mem_zipIdx_iff_getElem?.mpr h, rfl⟩

end Frame

end SolidTrace
