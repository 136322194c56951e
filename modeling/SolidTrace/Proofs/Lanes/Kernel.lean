import SolidTrace.Lanes.Kernel
import SolidTrace.Proofs.Lookup

/-!
Kernels resolve pixel by pixel.

A kernel adds up the samples of a packet side by side, and the last packet may be a partial one. For
each pixel it still adds the same samples in the same order from black, so that every kernel gives
the words of `resolvePixel`, whatever the arithmetic of colours is.
-/

namespace SolidTrace

section

variable {α : Type} {samples : ℕ} {pixels : List (List α)} (h : ∀ p ∈ pixels, p.length = samples)

include h

lemma length_flatten : pixels.flatten.length = pixels.length * samples := by
  induction pixels with
  | nil => rw [List.flatten_nil, List.length_nil, List.length_nil, Nat.zero_mul]
  | cons p pixels ih =>
    obtain ⟨hp, hrest⟩ := List.forall_mem_cons.mp h
    rw [List.flatten_cons, List.length_append, hp, ih hrest, List.length_cons, Nat.succ_mul,
      Nat.add_comm]

lemma take_flatten (n : ℕ) : pixels.flatten.take (n * samples) = (pixels.take n).flatten := by
  induction n generalizing pixels with
  | zero => simp
  | succ n ih =>
    cases pixels with
    | nil => simp
    | cons p pixels =>
      obtain ⟨rfl, hrest⟩ := List.forall_mem_cons.mp h
      rw [Nat.succ_mul, Nat.add_comm, List.flatten_cons, List.take_length_add_append, ih hrest,
        List.take_succ_cons, List.flatten_cons]

lemma drop_flatten (n : ℕ) : pixels.flatten.drop (n * samples) = (pixels.drop n).flatten := by
  induction n generalizing pixels with
  | zero => simp
  | succ n ih =>
    cases pixels with
    | nil => simp
    | cons p pixels =>
      obtain ⟨rfl, hrest⟩ := List.forall_mem_cons.mp h
      rw [Nat.succ_mul, Nat.add_comm, List.flatten_cons, List.drop_length_add_append, ih hrest,
        List.drop_succ_cons]

lemma flatten_getElem? {i : ℕ} (hi : i < pixels.length) {s : ℕ} (hs : s < samples) :
    pixels.flatten[i * samples + s]? = pixels[i][s]? := by
  have hlength : s < pixels[i].length := by
    rw [h _ (List.getElem_mem hi)]
    exact hs
  rw [← List.getElem?_drop, drop_flatten h, List.drop_eq_getElem_cons hi, List.flatten_cons,
    List.getElem?_append_left hlength]

lemma fetch_flatten {i : ℕ} (hi : i < pixels.length) {s : ℕ} (hs : s < pixels[i].length) :
    fetch pixels.flatten.toArray (i * samples + s) = .ok pixels[i][s] := by
  have hsamples : s < samples := by
    rw [← h _ (List.getElem_mem hi)]
    exact hs
  apply fetch_eq_ok
  rw [List.getElem?_toArray, flatten_getElem? h hi hsamples, List.getElem?_eq_getElem hs]

end

lemma segment_ok {T : Type} {pixels : List (List (Rgb T))} {samples : ℕ}
    (h : ∀ p ∈ pixels, p.length = samples) {start size : ℕ} (hs : start + size ≤ pixels.length) :
    Kernel.segment pixels.flatten.toArray (start * samples) ((start + size) * samples) =
      .ok (((pixels.drop start).take size).flatten.toArray) := by
  have hstop : (start + size) * samples ≤ pixels.flatten.toArray.size := by
    rw [List.size_toArray, length_flatten h]
    exact Nat.mul_le_mul_right _ hs
  have hrest : ∀ p ∈ pixels.drop start, p.length = samples :=
    fun p hp => h p (List.mem_of_mem_drop hp)
  unfold Kernel.segment
  rw [if_pos hstop]
  refine congrArg Except.ok (Array.toList_inj.mp ?_)
  rw [Array.toList_extract, List.extract_eq_take_drop, drop_flatten h,
    show (start + size) * samples - start * samples = size * samples by
      rw [← Nat.sub_mul]
      congr 1
      omega,
    take_flatten hrest]

variable {T : Type} [Tone T] {samples : ℕ}

/-- The sum of the first samples of a pixel. -/
def partialSum (p : List (Rgb T)) (m : ℕ) : Rgb T := (p.take m).foldl (· + ·) Rgb.black

lemma partialSum_zero (p : List (Rgb T)) : partialSum p 0 = Rgb.black := rfl

lemma partialSum_succ {p : List (Rgb T)} {m : ℕ} (hm : m < p.length) :
    partialSum p (m + 1) = partialSum p m + p[m] := by
  unfold partialSum
  rw [List.take_succ_eq_append_getElem hm, List.foldl_append]
  rfl

lemma partialSum_length (p : List (Rgb T)) : partialSum p p.length = p.foldl (· + ·) Rgb.black := by
  unfold partialSum
  rw [List.take_length]

section

variable {pixels : List (List (Rgb T))} (h : ∀ p ∈ pixels, p.length = samples)

include h

lemma addSample_ok {m : ℕ} (hm : m < samples) :
    (pixels.map (partialSum · m)).zipIdx.mapM (fun (sum, lane) => do
      return sum + (← fetch pixels.flatten.toArray (lane * samples + m))) =
      (.ok (pixels.map (partialSum · (m + 1))) : Except Fault _) := by
  rw [mapM_eq_ok_iff, List.forall₂_iff_get]
  refine ⟨by simp, fun i hi hi' => ?_⟩
  have hlength : i < pixels.length := by simpa using hi'
  have hsample : m < pixels[i].length := by
    rw [h _ (List.getElem_mem hlength)]
    exact hm
  simp [fetch_flatten h hlength hsample, partialSum_succ hsample]

lemma resolvePacket_ok :
    resolvePacket pixels.flatten.toArray samples pixels.length =
      .ok (pixels.map resolvePixel) := by
  have hsums : ∀ m ≤ samples, (List.range m).foldlM (fun sums s =>
      sums.zipIdx.mapM fun (sum, lane) => do
        return sum + (← fetch pixels.flatten.toArray (lane * samples + s)))
      (List.replicate pixels.length Rgb.black) =
        (.ok (pixels.map (partialSum · m)) : Except Fault _) := by
    intro m hm
    induction m with
    | zero => simp [partialSum_zero, List.map_const']; rfl
    | succ m ih =>
      have hadd := addSample_ok h (show m < samples by omega)
      rw [List.range_succ, List.foldlM_append, ih (by omega)]
      simp only [List.foldlM_cons, List.foldlM_nil, bind_pure]
      exact hadd
  unfold resolvePacket
  rw [hsums samples (Nat.le_refl _)]
  refine congrArg Except.ok ?_
  rw [List.map_map]
  refine List.map_congr_left fun p hp => ?_
  simp only [Function.comp_apply, resolvePixel, h p hp]
  rw [← partialSum_length, h p hp]

/-- A kernel gives the word of each pixel from some packet on. -/
lemma Kernel.resolveFrom_ok (k : Kernel) (done : ℕ) :
    k.resolveFrom pixels.flatten.toArray samples pixels.length done =
      .ok ((pixels.drop done).map resolvePixel) := by
  rw [Kernel.resolveFrom]
  split
  · next hdone =>
    rw [List.drop_eq_nil_of_le hdone]
    rfl
  · next hdone =>
    obtain ⟨size, hsize⟩ : ∃ size, size = min k.lanes (pixels.length - done) := ⟨_, rfl⟩
    have hpos : 0 < size := by
      have := k.lanes_pos
      omega
    have hstop : done + size ≤ pixels.length := by omega
    have hlength : ((pixels.drop done).take size).length = size := by
      rw [List.length_take, List.length_drop]
      omega
    have hpacket : ∀ p ∈ (pixels.drop done).take size, p.length = samples :=
      fun p hp => h p (List.mem_of_mem_drop (List.mem_of_mem_take hp))
    have hwords := resolvePacket_ok hpacket
    have hrest := k.resolveFrom_ok (done + size)
    rw [hlength] at hwords
    rw [← hsize]
    simp only [segment_ok h hstop, ok_bind, hwords, hrest]
    refine congrArg Except.ok ?_
    rw [← List.map_append, ← List.drop_drop, List.take_append_drop]
termination_by pixels.length - done

/-- **Kernels resolve pixel by pixel.** -/
theorem Kernel.resolve_ok (k : Kernel) :
    k.resolve pixels.flatten.toArray samples pixels.length = .ok (pixels.map resolvePixel) :=
  k.resolveFrom_ok h 0

end

end SolidTrace
