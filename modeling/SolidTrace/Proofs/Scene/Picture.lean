import SolidTrace.Proofs.Scene.Painting

/-!
What workers that render leave in the frame.

Each visible pixel gets the word resolved from its own samples, by exactly one store; all other
words stay. The picture is therefore a function of what the samples depend on, whatever the workers,
their schedule, the bands, the kernel and the frame before are.
-/

namespace SolidTrace

variable {S : Type}

lemma div_of_mem_row {stride width y p : ℕ} (hwidth : width ≤ stride)
    (hp : p ∈ List.range' (y * stride) width) : p / stride = y ∧ p < y * stride + width := by
  rw [List.mem_range'_1] at hp
  refine ⟨?_, hp.2⟩
  rw [Nat.div_eq_iff (by omega)]
  omega

lemma nodup_positions {stride width : ℕ} (hwidth : width ≤ stride) (height : ℕ) :
    ((List.range height).flatMap fun y => List.range' (y * stride) width).Nodup := by
  rw [List.nodup_flatMap]
  refine ⟨fun y _ => List.nodup_range', List.nodup_range.imp ?_⟩
  intro y z hne p hy hz
  have hy := div_of_mem_row hwidth hy
  have hz := div_of_mem_row hwidth hz
  exact hne (hy.1.symm.trans hz.1)

namespace SceneState

/-- The visible part of the frame. -/
def picture (s : SceneState S) : FrameView := ⟨s.spec.width, s.spec.height, s.frame⟩

variable [Scalar S]

/-- The word of a pixel, black where a sample fails. -/
def pixelWord (s : SceneState S) (x y : ℕ) : UInt32 :=
  match s.pixelSamples x y with
  | .ok samples => resolvePixel samples
  | .error _ => 0

/-- One state is another one after some stores, which have painted its picture. -/
structure Painted (s : SceneState S) (stores : List Store) (t : SceneState S) : Prop where
  rest : t = { s with frame := t.frame }
  stride : t.frame.stride = s.frame.stride
  size : t.frame.words.size = s.frame.words.size
  /-- A visible pixel is resolved from its samples. -/
  visible : ∀ x < s.spec.width, ∀ y < s.spec.height, ∃ samples,
    s.pixelSamples x y = .ok samples ∧ t.picture.pixel x y = .ok (resolvePixel samples)
  /-- It is stored once. -/
  once : ∀ x < s.spec.width, ∀ y < s.spec.height,
    (stores.map Store.position).count (y * s.frame.stride + x) = 1
  /-- The end of a row keeps its words. -/
  padding : ∀ x < s.frame.stride, ∀ y < s.spec.height, s.spec.width ≤ x →
    t.frame.words[y * s.frame.stride + x]? = s.frame.words[y * s.frame.stride + x]? ∧
      y * s.frame.stride + x ∉ stores.map Store.position
  /-- Nothing is stored but visible pixels. -/
  inside : ∀ r ∈ stores, ∃ x < s.spec.width, ∃ y < s.spec.height,
    r.position = y * s.frame.stride + x

/-- What the samples of two states depend on is the same. -/
structure Alike (s t : SceneState S) : Prop where
  arena : t.arena = s.arena
  snapshot : t.snapshot = s.snapshot
  camera : t.camera = s.camera
  fsaa : t.fsaa = s.fsaa
  options : t.options = s.options
  width : t.spec.width = s.spec.width
  height : t.spec.height = s.spec.height

lemma position_rowPlan {s : SceneState S} {y : ℕ} (h : s.Drawable y) :
    (s.rowPlan y).map Store.position = List.range' (y * s.frame.stride) s.spec.width := by
  obtain ⟨words, hwords, -⟩ := h
  unfold rowPlan
  rw [hwords]
  dsimp only
  rw [Frame.map_position_rowStores, length_rowWords hwords]

/-- The stores of all rows, in any order, are at the positions of the visible pixels. -/
lemma position_perm {s : SceneState S} {stores : List Store}
    (hperm : stores.Perm ((List.range s.spec.height).flatMap s.rowPlan))
    (hdrawn : ∀ y < s.spec.height, s.Drawable y) :
    (stores.map Store.position).Perm ((List.range s.spec.height).flatMap fun y =>
      List.range' (y * s.frame.stride) s.spec.width) := by
  have hrows : ((List.range s.spec.height).flatMap s.rowPlan).map Store.position =
      (List.range s.spec.height).flatMap fun y =>
        List.range' (y * s.frame.stride) s.spec.width := by
    rw [List.map_flatMap]
    exact List.flatMap_congr fun y hy => position_rowPlan (hdrawn y (List.mem_range.mp hy))
  rw [← hrows]
  exact hperm.map _

/-- **All stores of the rows, in any order, paint the picture.** -/
lemma painted_of_perm {s : SceneState S} (hs : s.Framed) {stores : List Store}
    (hperm : stores.Perm ((List.range s.spec.height).flatMap s.rowPlan))
    (hdrawn : ∀ y < s.spec.height, s.Drawable y) :
    s.Painted stores { s with frame := s.frame.storeAll stores } := by
  have hwidth := hs.width_le
  have hpositions := position_perm hperm hdrawn
  have hnodup : (stores.map Store.position).Nodup :=
    hpositions.nodup_iff.mpr (nodup_positions hwidth s.spec.height)
  have hmem : ∀ p, p ∈ stores.map Store.position ↔ ∃ y < s.spec.height,
      p ∈ List.range' (y * s.frame.stride) s.spec.width := by
    intro p
    rw [hpositions.mem_iff]
    simp [List.mem_flatMap]
  -- every pixel, stored once; the padding is stored never, and nothing else is stored
  refine ⟨rfl, s.frame.storeAll_stride _, s.frame.storeAll_size _, ?_, ?_, ?_, ?_⟩
  · intro x hx y hy
    obtain ⟨words, hwords, hfits⟩ := hdrawn y hy
    obtain ⟨samples, hsamples, hword⟩ := rowWords_getElem? hwords hx
    refine ⟨samples, hsamples, ?_⟩
    have hrow := s.frame.mem_rowStores (y := y) hword
    have hstored : ⟨y * s.frame.stride + x, resolvePixel samples⟩ ∈ stores := by
      refine hperm.mem_iff.mpr (List.mem_flatMap.mpr ⟨y, List.mem_range.mpr hy, ?_⟩)
      unfold rowPlan
      rw [hwords]
      exact hrow
    refine fetch_eq_ok ?_
    dsimp only [picture]
    rw [Frame.storeAll_stride]
    exact s.frame.storeAll_of_mem hnodup hstored (hfits _ hrow)
  · intro x hx y hy
    refine List.count_eq_one_of_mem hnodup ((hmem _).mpr ⟨y, hy, ?_⟩)
    rw [List.mem_range'_1]
    omega
  · intro x hx y hy hpadding
    have hfree : y * s.frame.stride + x ∉ stores.map Store.position := by
      intro hp
      obtain ⟨z, -, hz⟩ := (hmem _).mp hp
      obtain ⟨hdiv, hlt⟩ := div_of_mem_row hwidth hz
      have hrow : (y * s.frame.stride + x) / s.frame.stride = y := by
        rw [Nat.div_eq_iff (by omega)]
        omega
      obtain rfl : y = z := hrow.symm.trans hdiv
      omega
    exact ⟨s.frame.storeAll_of_not_mem hfree, hfree⟩
  · intro r hr
    obtain ⟨y, hy, hp⟩ := (hmem _).mp (List.mem_map_of_mem hr)
    rw [List.mem_range'_1] at hp
    exact ⟨r.position - y * s.frame.stride, by omega, y, hy, by omega⟩

lemma Alike.pixelWord {s t : SceneState S} (h : s.Alike t) (x y : ℕ) :
    t.pixelWord x y = s.pixelWord x y := by
  unfold SceneState.pixelWord pixelSamples tracer
  rw [h.arena, h.snapshot, h.camera, h.fsaa, h.options, h.width, h.height]

end SceneState

namespace FrameView

variable {v : FrameView} {f : ℕ → ℕ → UInt32}

lemma row_eq {y : ℕ} (hfit : y * v.frame.stride + v.width ≤ v.frame.words.size)
    (h : ∀ x < v.width, v.pixel x y = .ok (f x y)) :
    v.row y = .ok ((List.range v.width).map fun x => f x y) := by
  unfold row
  dsimp only
  rw [if_pos hfit]
  refine congrArg Except.ok (List.ext_getElem ?_ fun x hx hx' => ?_)
  · rw [Array.length_toList, Array.size_extract, List.length_map, List.length_range]
    omega
  · rw [List.length_map, List.length_range] at hx'
    have hword := getElem?_of_fetch (h x hx')
    obtain ⟨_, hword⟩ := Array.getElem?_eq_some_iff.mp hword
    simp [hword]

lemma rows_eq (hwidth : v.width ≤ v.frame.stride)
    (hsize : v.frame.words.size = v.frame.stride * v.height)
    (h : ∀ x < v.width, ∀ y < v.height, v.pixel x y = .ok (f x y)) :
    v.rows = .ok ((List.range v.height).map fun y => (List.range v.width).map fun x => f x y) := by
  unfold rows
  rw [mapM_eq_ok_iff, List.forall₂_map_right_iff, List.forall₂_same]
  intro y hy
  have hy := List.mem_range.mp hy
  refine row_eq ?_ fun x hx => h x hx y hy
  have hlast : (y + 1) * v.frame.stride ≤ v.frame.stride * v.height := by
    rw [Nat.mul_comm]
    exact Nat.mul_le_mul_left _ hy
  rw [Nat.succ_mul] at hlast
  omega

end FrameView

lemma SceneState.Painted.rows [Scalar S] {s t : SceneState S} (hs : s.Framed) {stores : List Store}
    (h : s.Painted stores t) :
    t.picture.rows = .ok ((List.range s.spec.height).map fun y =>
      (List.range s.spec.width).map fun x => s.pixelWord x y) := by
  have hspec : t.spec = s.spec := by
    rw [h.rest]
  have hpixel : ∀ x < s.spec.width, ∀ y < s.spec.height,
      t.picture.pixel x y = .ok (s.pixelWord x y) := by
    intro x hx y hy
    obtain ⟨samples, hsamples, hword⟩ := h.visible x hx y hy
    rw [hword, pixelWord, hsamples]
  have hrows := FrameView.rows_eq (v := t.picture) (f := s.pixelWord)
  dsimp only [picture] at hrows hpixel ⊢
  rw [hspec] at hrows hpixel ⊢
  apply hrows _ _ hpixel
  · rw [h.stride]
    exact hs.width_le
  · rw [h.size, h.stride]
    exact hs.size

end SolidTrace
