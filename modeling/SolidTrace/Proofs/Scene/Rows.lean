import SolidTrace.Proofs.Lanes.Kernel
import SolidTrace.Proofs.Scene.Frame
import SolidTrace.Scene.Task

/-!
Rows of pixels.

A row that is drawn has the word of each of its visible pixels, resolved from the samples of that
pixel alone. Of the frame only the shape is read, so that stores made in between change nothing.
-/

namespace SolidTrace

lemma le_rowStride (width lanes : ℕ) : width ≤ rowStride width lanes := by
  have hlanes : 0 < max lanes 1 := by omega
  have hlt := Nat.lt_div_mul_add (a := width + max lanes 1 - 1) hlanes
  unfold rowStride
  dsimp only
  omega

namespace SceneState

variable {S : Type}

/-- The frame has the shape that its kernel asks for. -/
structure Framed (s : SceneState S) : Prop where
  stride : s.frame.stride = rowStride s.spec.width s.kernel.lanes
  size : s.frame.words.size = s.frame.stride * s.spec.height

lemma Framed.width_le {s : SceneState S} (h : s.Framed) : s.spec.width ≤ s.frame.stride := by
  rw [h.stride]
  exact le_rowStride ..

variable [Scalar S]

/-- The samples of a pixel, in the order of their offsets. -/
def pixelSamples (s : SceneState S) (x y : ℕ) : Except Fault (List Color) := do
  let view ← fetch s.snapshot.cameras s.camera
  s.fsaa.offsets.mapM fun (ox, oy) =>
    s.tracer.sample view (Scalar.ofInt x + ox) (Scalar.ofInt y + oy) s.spec.width s.spec.height

/-- The stores of a row, as far as it can be drawn. -/
def rowPlan (s : SceneState S) (y : ℕ) : List Store :=
  match s.rowWords y with
  | .ok words => s.frame.rowStores y words
  | .error _ => []

/-- A row can be drawn inside of the frame. -/
def Drawable (s : SceneState S) (y : ℕ) : Prop :=
  ∃ words, s.rowWords y = .ok words ∧
    ∀ r ∈ s.frame.rowStores y words, r.position < s.frame.words.size

variable {s : SceneState S} {x y : ℕ}

lemma length_pixelSamples {l : List Color} (h : s.pixelSamples x y = .ok l) :
    l.length = s.fsaa.samples := by
  obtain ⟨view, -, h⟩ := exists_of_bind_eq_ok h
  rw [← (mapM_eq_ok_iff.mp h).length_eq, Fsaa.offsets, List.length_map, Fsaa.length_sixteenths]

lemma rowSamples_ok {colors : Array Color} (h : s.rowSamples y = .ok colors) :
    ∃ pixels,
      List.Forall₂ (fun x p => s.pixelSamples x y = .ok p) (List.range s.spec.width) pixels ∧
        colors = pixels.flatten.toArray := by
  obtain ⟨view, hview, h⟩ := exists_of_bind_eq_ok h
  obtain ⟨pixels, hpixels, h⟩ := exists_of_bind_eq_ok h
  refine ⟨pixels, (mapM_eq_ok_iff.mp hpixels).imp fun x p hp => ?_, (Except.ok.inj h).symm⟩
  rw [pixelSamples, hview]
  exact hp

lemma rowSamples_resolve {colors : Array Color} (h : s.rowSamples y = .ok colors) :
    ∃ pixels,
      List.Forall₂ (fun x p => s.pixelSamples x y = .ok p) (List.range s.spec.width) pixels ∧
        ∀ k : Kernel, k.resolve colors s.fsaa.samples s.spec.width =
          .ok (pixels.map resolvePixel) := by
  obtain ⟨pixels, hpixels, rfl⟩ := rowSamples_ok h
  have hlength : ∀ p ∈ pixels, p.length = s.fsaa.samples := by
    intro p hp
    obtain ⟨i, hi, rfl⟩ := List.getElem_of_mem hp
    exact length_pixelSamples ((List.forall₂_iff_get.mp hpixels).2 i (hpixels.length_eq ▸ hi) hi)
  have hcount : pixels.length = s.spec.width := by
    rw [← hpixels.length_eq, List.length_range]
  refine ⟨pixels, hpixels, fun k => ?_⟩
  rw [← hcount]
  exact Kernel.resolve_ok hlength k

lemma rowWords_ok {words : List UInt32} (h : s.rowWords y = .ok words) :
    ∃ pixels,
      List.Forall₂ (fun x p => s.pixelSamples x y = .ok p) (List.range s.spec.width) pixels ∧
        words = pixels.map resolvePixel := by
  obtain ⟨colors, hcolors, h⟩ := exists_of_bind_eq_ok h
  obtain ⟨pixels, hpixels, hresolve⟩ := rowSamples_resolve hcolors
  rw [hresolve] at h
  exact ⟨pixels, hpixels, (Except.ok.inj h).symm⟩

lemma length_rowWords {words : List UInt32} (h : s.rowWords y = .ok words) :
    words.length = s.spec.width := by
  obtain ⟨pixels, hpixels, rfl⟩ := rowWords_ok h
  rw [List.length_map, ← hpixels.length_eq, List.length_range]

lemma rowWords_getElem? {words : List UInt32} (h : s.rowWords y = .ok words)
    (hx : x < s.spec.width) :
    ∃ samples, s.pixelSamples x y = .ok samples ∧ words[x]? = some (resolvePixel samples) := by
  obtain ⟨pixels, hpixels, rfl⟩ := rowWords_ok h
  obtain ⟨hlength, hget⟩ := List.forall₂_iff_get.mp hpixels
  have hleft : x < (List.range s.spec.width).length := by
    rw [List.length_range]
    exact hx
  have hright : x < pixels.length := hlength ▸ hleft
  have hsamples := hget x hleft hright
  simp only [List.get_eq_getElem, List.getElem_range] at hsamples
  refine ⟨pixels[x], hsamples, ?_⟩
  rw [List.getElem?_map, List.getElem?_eq_getElem hright]
  rfl

lemma draw_ok {w : Write S} (h : s.draw y = .ok w) :
    s.Drawable y ∧ w = .pixels (s.rowPlan y) := by
  obtain ⟨words, hwords, h⟩ := exists_of_bind_eq_ok h
  obtain ⟨⟨⟩, hcheck, h⟩ := exists_of_bind_eq_ok h
  refine ⟨⟨words, hwords, (s.frame.check_eq_ok).mp hcheck⟩, ?_⟩
  unfold rowPlan
  rw [hwords]
  exact (Except.ok.inj h).symm

lemma Drawable.result (h : s.Drawable y) : s.result (.draw y) = .ok (.pixels (s.rowPlan y)) := by
  obtain ⟨words, hwords, hfits⟩ := h
  dsimp only [SceneState.result]
  unfold draw rowPlan
  rw [hwords, ok_bind]
  dsimp only
  rw [(s.frame.check_eq_ok).mpr hfits]
  rfl

lemma result_of_rowWords_error {e : Fault} (h : s.rowWords y = .error e) :
    s.result (.draw y) = .error (.ofFault e) := by
  dsimp only [result]
  unfold draw
  rw [h]
  rfl

lemma Framed.drawable (h : s.Framed) (hy : y < s.spec.height) {words : List UInt32}
    (hwords : s.rowWords y = .ok words) : s.Drawable y := by
  refine ⟨words, hwords, fun r hr => ?_⟩
  have hposition := List.mem_map_of_mem (f := Store.position) hr
  rw [Frame.map_position_rowStores, length_rowWords hwords, List.mem_range'_1] at hposition
  have hrows : (y + 1) * s.frame.stride ≤ s.spec.height * s.frame.stride :=
    Nat.mul_le_mul_right _ hy
  have hwidth := h.width_le
  rw [h.size, Nat.mul_comm]
  rw [Nat.succ_mul] at hrows
  omega

lemma draw_storeAll (s : SceneState S) (l : List Store) (y : ℕ) :
    ({ s with frame := s.frame.storeAll l } : SceneState S).draw y = s.draw y := by
  have hwords : ({ s with frame := s.frame.storeAll l } : SceneState S).rowWords y = s.rowWords y :=
    rfl
  have hrow : ∀ words, (s.frame.storeAll l).rowStores y words = s.frame.rowStores y words := by
    intro words
    unfold Frame.rowStores
    rw [Frame.storeAll_stride]
  have hcheck : ∀ m, (s.frame.storeAll l).check m = s.frame.check m := by
    intro m
    unfold Frame.check
    rw [Frame.storeAll_size]
  unfold draw
  simp only [hwords, hrow, hcheck]

end SceneState

end SolidTrace
