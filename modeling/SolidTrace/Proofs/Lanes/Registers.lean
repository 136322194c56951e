import SolidTrace.Proofs.Lanes.Kernel

/-!
Kernels with a register for each lane.

A kernel is carried out here as a processor does it: the sums of a packet stand in a table with as
many entries as there are lanes, also for a packet that fills only some of them, and the words are
written over what a row held before. An entry outside of a table is a fault. There is none, and the
words are those of `resolvePixel`, so that every configuration gives the same picture.
-/

namespace SolidTrace

/-- Replaces an entry of a table by what becomes of it. -/
def alter {α : Type} (table : Array α) (position : ℕ) (f : α → Except Fault α) :
    Except Fault (Array α) := do
  return table.setIfInBounds position (← f (← fetch table position))

/-- **Entries are replaced one after the other**, and the others stay. -/
lemma foldlM_alter {α : Type} {f : ℕ → α → Except Fault α} {g : ℕ → α} {table : Array α}
    {n : ℕ} (hn : n ≤ table.size) (h : ∀ i < n, ∀ a, table[i]? = some a → f i a = .ok (g i)) :
    (List.range n).foldlM (fun t i => alter t i (f i)) table =
      .ok (table.mapIdx fun i a => if i < n then g i else a) := by
  induction n with
  | zero =>
    refine congrArg Except.ok (Array.ext_getElem? fun i => ?_)
    simp
  | succ n ih =>
    have hnext : (table.mapIdx fun i a => if i < n then g i else a)[n]? = some table[n] := by
      rw [Array.getElem?_mapIdx, Array.getElem?_eq_getElem (by omega)]
      simp
    rw [List.range_succ, List.foldlM_append, ih (by omega) fun i hi => h i (by omega), ok_bind]
    simp only [List.foldlM_cons, List.foldlM_nil, bind_pure, alter, fetch_eq_ok hnext, ok_bind,
      h n (by omega) table[n] (Array.getElem?_eq_getElem _)]
    refine congrArg Except.ok (Array.ext_getElem? fun i => ?_)
    rw [Array.getElem?_setIfInBounds]
    rcases Nat.lt_trichotomy i n with hlt | rfl | hgt
    · rw [if_neg (by omega), Array.getElem?_mapIdx, Array.getElem?_mapIdx]
      simp [hlt, Nat.lt_succ_of_lt hlt]
    · rw [if_pos rfl, Array.getElem?_mapIdx, Array.getElem?_eq_getElem (by omega)]
      simp [Nat.lt_of_succ_le hn]
    · rw [if_neg (by omega), Array.getElem?_mapIdx, Array.getElem?_mapIdx]
      simp [show ¬ i < n by omega, show ¬ i < n + 1 by omega]

section

variable {T : Type} [Tone T]

namespace Kernel

def addSample (colors : Array (Rgb T)) (samples s : ℕ) (sums : Array (Rgb T)) (lane : ℕ) :
    Except Fault (Array (Rgb T)) :=
  alter sums lane fun sum => do return sum + (← fetch colors (lane * samples + s))

/-- Writes the words of a packet over what was there. -/
def fillPacket (k : Kernel) (colors : Array (Rgb T)) (samples : ℕ) (words : Array UInt32) :
    Except Fault (Array UInt32) := do
  let lanes := List.range words.size
  let sums ← (List.range samples).foldlM (fun sums s =>
    lanes.foldlM (addSample colors samples s) sums) (Array.replicate k.lanes Rgb.black)
  lanes.foldlM (fun words lane => alter words lane fun _ => do
    return ((← fetch sums lane).scale (Tone.share (max samples 1))).pack) words

/-- Writes the words of a row over what was there, from some packet on. -/
def fillFrom (k : Kernel) (colors : Array (Rgb T)) (samples : ℕ) (words : Array UInt32)
    (done : ℕ) : Except Fault (Array UInt32) :=
  if words.size ≤ done then .ok #[]
  else do
    let size := min k.lanes (words.size - done)
    let part ← segment colors (done * samples) ((done + size) * samples)
    let packet ← k.fillPacket part samples (words.extract done (done + size))
    let rest ← k.fillFrom colors samples words (done + size)
    return packet ++ rest
termination_by words.size - done
decreasing_by
  have := k.lanes_pos
  omega

/-- Writes the words of a row over what was there. -/
def fill (k : Kernel) (colors : Array (Rgb T)) (samples : ℕ) (words : Array UInt32) :
    Except Fault (Array UInt32) :=
  k.fillFrom colors samples words 0

end Kernel

/-- The registers after some samples of every pixel; those beyond the last pixel stay black. -/
def registers (lanes : ℕ) (pixels : List (List (Rgb T))) (m : ℕ) : Array (Rgb T) :=
  Array.ofFn fun lane : Fin lanes => partialSum (pixels[lane]?.getD []) m

lemma registers_zero (lanes : ℕ) (pixels : List (List (Rgb T))) :
    registers lanes pixels 0 = Array.replicate lanes Rgb.black := by
  refine Array.ext_getElem? fun i => ?_
  rw [registers, Array.getElem?_ofFn, Array.getElem?_replicate]
  simp [partialSum_zero]

section

variable {samples lanes : ℕ} {pixels : List (List (Rgb T))}

lemma registers_getElem? {m i : ℕ} (hi : i < pixels.length) (hlanes : pixels.length ≤ lanes) :
    (registers lanes pixels m)[i]? = some (partialSum pixels[i] m) := by
  rw [registers, Array.getElem?_ofFn, dif_pos (by omega)]
  simp [List.getElem?_eq_getElem hi]

variable (h : ∀ p ∈ pixels, p.length = samples)

include h

/-- **A sample is added in the lane of every pixel**, and in no other one. -/
lemma foldlM_addSample (hlanes : pixels.length ≤ lanes) {m : ℕ} (hm : m < samples) :
    (List.range pixels.length).foldlM (Kernel.addSample pixels.flatten.toArray samples m)
      (registers lanes pixels m) = .ok (registers lanes pixels (m + 1)) := by
  have hsize : (registers lanes pixels m).size = lanes := Array.size_ofFn
  refine (foldlM_alter (g := fun i => partialSum (pixels[i]?.getD []) (m + 1)) (by omega)
    fun i hi a ha => ?_).trans (congrArg Except.ok (Array.ext_getElem? fun i => ?_))
  · have hsample : m < pixels[i].length := by
      rw [h _ (List.getElem_mem hi)]
      exact hm
    obtain rfl := Option.some.inj ((registers_getElem? hi hlanes).symm.trans ha)
    simp [fetch_flatten h hi hsample, List.getElem?_eq_getElem hi, partialSum_succ hsample]
  · rw [Array.getElem?_mapIdx]
    by_cases hi : i < pixels.length
    · rw [registers_getElem? hi hlanes, registers_getElem? hi hlanes]
      simp [hi]
    · -- beyond the last pixel there is nothing to add
      simp [registers, Array.getElem?_ofFn, hi, partialSum]

/-- **A packet that fits into the lanes** has the word of each of its pixels written. -/
lemma Kernel.fillPacket_ok (k : Kernel) (hlanes : pixels.length ≤ k.lanes) {words : Array UInt32}
    (hwords : words.size = pixels.length) : k.fillPacket pixels.flatten.toArray samples words =
      .ok (pixels.map resolvePixel).toArray := by
  have hsums : ∀ m ≤ samples, (List.range m).foldlM (fun sums s =>
      (List.range pixels.length).foldlM (addSample pixels.flatten.toArray samples s) sums)
      (Array.replicate k.lanes Rgb.black) = .ok (registers k.lanes pixels m) := by
    intro m hm
    induction m with
    | zero => exact congrArg Except.ok (registers_zero k.lanes pixels).symm
    | succ m ih =>
      rw [List.range_succ, List.foldlM_append, ih (by omega), ok_bind]
      simp only [List.foldlM_cons, List.foldlM_nil, bind_pure]
      exact foldlM_addSample h hlanes hm
  unfold fillPacket
  dsimp only
  rw [hwords, hsums samples (Nat.le_refl _), ok_bind]
  refine (foldlM_alter (g := fun i => resolvePixel (pixels[i]?.getD [])) (by omega)
    fun i hi a _ => ?_).trans (congrArg Except.ok (Array.ext_getElem? fun i => ?_))
  · have hlength : pixels[i].length = samples := h _ (List.getElem_mem hi)
    have hsum := fetch_eq_ok (registers_getElem? (m := samples) hi hlanes)
    rw [← hlength, partialSum_length, hlength] at hsum
    simp [hsum, List.getElem?_eq_getElem hi, resolvePixel, hlength]
  · rw [Array.getElem?_mapIdx]
    by_cases hi : i < pixels.length
    · simp [hi, hwords]
    · simp [hi, hwords]

lemma Kernel.fillFrom_ok (k : Kernel) {words : Array UInt32} (hwords : words.size = pixels.length)
    (done : ℕ) : k.fillFrom pixels.flatten.toArray samples words done =
      .ok ((pixels.drop done).map resolvePixel).toArray := by
  rw [fillFrom]
  split
  · next hdone =>
    rw [List.drop_eq_nil_of_le (by omega)]
    rfl
  · next hdone =>
    obtain ⟨size, hsize⟩ : ∃ size, size = min k.lanes (words.size - done) := ⟨_, rfl⟩
    have hpos : 0 < size := by
      have := k.lanes_pos
      omega
    have hstop : done + size ≤ pixels.length := by omega
    have hlength : ((pixels.drop done).take size).length = size := by
      rw [List.length_take, List.length_drop]
      omega
    have hpacket : k.fillPacket ((pixels.drop done).take size).flatten.toArray samples
        (words.extract done (done + size)) =
          .ok (((pixels.drop done).take size).map resolvePixel).toArray := by
      refine fillPacket_ok (fun p hp => h p (List.mem_of_mem_drop (List.mem_of_mem_take hp))) k
        (by omega) ?_
      rw [Array.size_extract]
      omega
    have hrest := k.fillFrom_ok hwords (done + size)
    rw [← hsize]
    simp only [segment_ok h hstop, ok_bind, hpacket, hrest]
    refine congrArg Except.ok ?_
    rw [List.append_toArray, ← List.map_append, ← List.drop_drop, List.take_append_drop]
termination_by words.size - done

end

/-- The samples of each pixel, out of a table with equally many for every pixel. -/
def pixelsOf (colors : Array (Rgb T)) (samples n : ℕ) : List (List (Rgb T)) :=
  (List.range n).map fun i => (colors.extract (i * samples) ((i + 1) * samples)).toList

section

variable {samples n : ℕ} {colors : Array (Rgb T)} (h : colors.size = n * samples)

include h

omit [Tone T] in
lemma length_of_mem_pixelsOf : ∀ p ∈ pixelsOf colors samples n, p.length = samples := by
  intro p hp
  obtain ⟨i, hi, rfl⟩ := List.mem_map.mp hp
  have hstop : (i + 1) * samples ≤ n * samples :=
    Nat.mul_le_mul_right _ (List.mem_range.mp hi)
  rw [Array.length_toList, Array.size_extract, h, Nat.min_eq_left hstop, Nat.succ_mul]
  omega

omit [Tone T] in
/-- **No colour is left out**, and none is taken twice. -/
lemma flatten_pixelsOf : (pixelsOf colors samples n).flatten.toArray = colors := by
  have hfirst : ∀ k ≤ n,
      (pixelsOf colors samples k).flatten = colors.toList.take (k * samples) := by
    intro k hk
    induction k with
    | zero => simp [pixelsOf]
    | succ k ih =>
      have hlast : pixelsOf colors samples (k + 1) = pixelsOf colors samples k ++
          [(colors.extract (k * samples) ((k + 1) * samples)).toList] := by
        rw [pixelsOf, List.range_succ, List.map_append]
        rfl
      rw [hlast, List.flatten_append, ih (by omega), List.flatten_singleton, Array.toList_extract,
        List.extract_eq_take_drop, Nat.succ_mul, Nat.add_sub_cancel_left, ← List.take_add]
  have hall : colors.toList.take (n * samples) = colors.toList := by
    rw [← h, ← Array.length_toList, List.take_length]
  rw [hfirst n (Nat.le_refl n), hall]

/-- **Every kernel gives the words of single pixels.** Whatever the arithmetic of colours is and
whichever configuration is asked for, each pixel gets the word of its own samples, added up from
black one after the other. No lookup misses, neither in the colours nor, with a register for each
lane, in the registers or in the row that is written over. So all configurations give the same
picture. -/
theorem Kernel.select_resolves (config : LaneConfig) :
    (select config).resolve colors samples n = .ok ((List.range n).map fun i =>
      resolvePixel (colors.extract (i * samples) ((i + 1) * samples)).toList) ∧
    (∀ words : Array UInt32, words.size = n → (select config).fill colors samples words =
      .ok ((List.range n).map fun i =>
        resolvePixel (colors.extract (i * samples) ((i + 1) * samples)).toList).toArray) ∧
    ∀ other,
      (select other).resolve colors samples n = (select config).resolve colors samples n := by
  have hlength : (pixelsOf colors samples n).length = n := by
    rw [pixelsOf, List.length_map, List.length_range]
  have hpixels := length_of_mem_pixelsOf h
  have hwords : ((List.range n).map fun i => resolvePixel
      (colors.extract (i * samples) ((i + 1) * samples)).toList) =
        (pixelsOf colors samples n).map resolvePixel := by
    rw [pixelsOf, List.map_map]
    rfl
  have hresolve : ∀ k : Kernel, k.resolve colors samples n =
      .ok ((pixelsOf colors samples n).map resolvePixel) := by
    intro k
    have hk := k.resolve_ok hpixels
    rwa [flatten_pixelsOf h, hlength] at hk
  rw [hwords]
  refine ⟨hresolve _, fun words hsize => ?_, fun other => (hresolve _).trans (hresolve _).symm⟩
  have hfill := (select config).fillFrom_ok hpixels (hsize.trans hlength.symm) 0
  rwa [flatten_pixelsOf h] at hfill

end

end

/-- Five pixels of two samples each: four lanes take them in two packets, and the last one of them
fills one lane only. -/
theorem select_resolves_ramp :
    let shade (v : Float32) : Rgb Float32 := ⟨v, 1, 0.5⟩
    let colors := #[shade 0, shade 0.5, shade 0.5, shade 1, shade 1, shade 1, shade 2, shade 0,
      shade 0.25, shade 0.75]
    let words := [0x40ff80, 0xbfff80, 0xffff80, 0xffff80, 0x80ff80]
    colors.size = 5 * 2 ∧ (Kernel.select ⟨1, 0⟩).lanes = 4 ∧
      (Kernel.select ⟨1, 0⟩).resolve colors 2 5 = .ok words ∧
      (Kernel.select ⟨1, 0⟩).fill colors 2 (Array.replicate 5 7) = .ok words.toArray ∧
      (Kernel.select ⟨4, 1⟩).resolve colors 2 5 = .ok words := by
  intro shade colors words
  have hsize : colors.size = 5 * 2 := rfl
  obtain ⟨hresolve, hfill, hother⟩ := Kernel.select_resolves hsize ⟨1, 0⟩
  have hwords : (List.range 5).map (fun i =>
      resolvePixel (colors.extract (i * 2) ((i + 1) * 2)).toList) = words := by
    decide +kernel
  rw [hwords] at hresolve hfill
  exact ⟨hsize, rfl, hresolve, hfill _ (Array.size_replicate ..), (hother _).trans hresolve⟩

end SolidTrace
