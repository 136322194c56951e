import Mathlib.Algebra.Order.Group.Nat
import Mathlib.Order.Monotone.Basic
import SolidTrace.Proofs.Work.Share

/-!
Partitions of work.

The shares of the slices follow one another from the first item to the last, and the longer ones
come first. A row lies in one band of one slice; bands are as high as a tile but for the last one of
the frame. All of this is computed in words of 64 bits, and no sum or product on the way is too
large for one.
-/

namespace SolidTrace

def Span.length (s : Span) : ℕ := s.stop - s.start

lemma monotone_shareStart (count total : ℕ) : Monotone fun i => shareStart i count total :=
  monotone_nat_of_le_succ fun i => shareStart_le_succ i count total

lemma shareStart_le {index count : ℕ} (total : ℕ) (hcount : 0 < count) (h : index ≤ count) :
    shareStart index count total ≤ total :=
  (monotone_shareStart count total h).trans_eq (shareStart_count total hcount)

lemma length_share {index count : ℕ} (total : ℕ) (h : index < count) :
    (share index count total).length =
      total / count + if index < total % count then 1 else 0 := by
  rw [share_eq h]
  simp only [Span.length, shareStart, Nat.succ_mul]
  generalize total / count = base
  split <;> omega

lemma share_beyond {index count : ℕ} (total : ℕ) (hcount : 0 < count) (h : count ≤ index) :
    share index count total = ⟨total, total⟩ := by
  unfold share
  exact if_pos (by omega)

/-- The shares of `count` slices follow one another and make up all items; the longer ones come
first. -/
structure SharedOut (count total : ℕ) : Prop where
  first : (share 0 count total).start = 0
  next : ∀ i, i + 1 < count → (share (i + 1) count total).start = (share i count total).stop
  last : (share (count - 1) count total).stop = total
  forward : ∀ i < count, (share i count total).start ≤ (share i count total).stop
  even : ∀ i j, i ≤ j → j < count →
    (share j count total).length ≤ (share i count total).length ∧
      (share i count total).length ≤ (share j count total).length + 1
  beyond : ∀ i, count ≤ i → (share i count total).start = (share i count total).stop

/-- **The items are shared out.** -/
lemma sharedOut {count : ℕ} (total : ℕ) (hcount : 0 < count) : SharedOut count total where
  first := by
    rw [share_eq hcount]
    simp [shareStart]
  next i hi := by rw [share_eq hi, share_eq (by omega)]
  last := by
    rw [share_eq (by omega), Nat.sub_add_cancel hcount]
    exact shareStart_count total hcount
  forward i hi := by
    rw [share_eq hi]
    exact shareStart_le_succ i count total
  even i j hij hj := by
    rw [length_share total hj, length_share total (by omega)]
    split <;> split <;> omega
  beyond i hi := by rw [share_beyond total hcount hi]

def band (height tile b : ℕ) : Span := ⟨b * tile, min ((b + 1) * tile) height⟩

section

variable {index count height tile : ℕ}

lemma bands_getElem? {k : ℕ} {s : Span} : (bands index count height tile)[k]? = some s ↔
    (index + k * max count 1) * max tile 1 < height ∧
      band height (max tile 1) (index + k * max count 1) = s := by
  have hk : k < ((height + max tile 1 - 1) / max tile 1 - index + max count 1 - 1) / max count 1 ↔
      (index + k * max count 1) * max tile 1 < height := by
    rw [← lt_ceil (by omega), lt_ceil (by omega)]
    omega
  unfold bands
  rw [List.getElem?_map, ← hk, Option.map_eq_some_iff]
  constructor
  · rintro ⟨i, hi, rfl⟩
    obtain ⟨hlt, rfl⟩ := List.getElem?_eq_some_iff.mp hi
    rw [List.length_range] at hlt
    rw [List.getElem_range]
    exact ⟨hlt, rfl⟩
  · rintro ⟨hlt, rfl⟩
    exact ⟨k, List.getElem?_range hlt, rfl⟩

/-- The rows of a slice are dealt out to it in bands. -/
structure DealtOut (index count height tile : ℕ) : Prop where
  ascending : (bands index count height tile).Pairwise fun s t => s.stop ≤ t.start
  nonempty : ∀ s ∈ bands index count height tile, s.start < s.stop
  inside : ∀ s ∈ bands index count height tile, s.stop ≤ height
  /-- All bands but the last one of the frame are full. -/
  full : ∀ s ∈ bands index count height tile, s.stop ≠ height → s.length = max tile 1
  /-- The last one is not overfull. -/
  atMost : ∀ s ∈ bands index count height tile, s.length ≤ max tile 1

/-- **The bands of a slice.** -/
lemma dealtOut : DealtOut index count height tile := by
  have hmem : ∀ s ∈ bands index count height tile, ∃ b, b * max tile 1 < height ∧
      s = ⟨b * max tile 1, min (b * max tile 1 + max tile 1) height⟩ := by
    intro s hs
    obtain ⟨k, hk⟩ := List.mem_iff_getElem?.mp hs
    obtain ⟨hlt, rfl⟩ := bands_getElem?.mp hk
    exact ⟨_, hlt, by rw [band, Nat.succ_mul]⟩
  refine ⟨?_, ?_, ?_, ?_, ?_⟩
  · rw [List.pairwise_iff_getElem]
    intro k l hk hl hkl
    obtain ⟨-, heqk⟩ := bands_getElem?.mp (List.getElem?_eq_getElem hk)
    obtain ⟨-, heql⟩ := bands_getElem?.mp (List.getElem?_eq_getElem hl)
    rw [← heqk, ← heql]
    have hnext : k * max count 1 + 1 ≤ l * max count 1 := by
      have := Nat.mul_le_mul_right (max count 1) (Nat.succ_le_of_lt hkl)
      rw [Nat.succ_mul] at this
      omega
    exact (Nat.min_le_left _ _).trans (Nat.mul_le_mul_right _ (by omega))
  all_goals
    intro s hs
    obtain ⟨b, hb, rfl⟩ := hmem s hs
    simp only [Span.length]
    omega

/-- **A row lies in one band of one slice.** -/
lemma existsUnique_band (hcount : 0 < count) {y : ℕ} (hy : y < height) :
    ∃! p : ℕ × ℕ, p.1 < count ∧ ∃ s, (bands p.1 count height tile)[p.2]? = some s ∧
      y ∈ s.toList := by
  have hmax : max count 1 = count := by omega
  have htile : 0 < max tile 1 := by omega
  refine ⟨(y / max tile 1 % count, y / max tile 1 / count), ⟨Nat.mod_lt _ hcount, ?_⟩, ?_⟩
  · have hsplit : y / max tile 1 % count + y / max tile 1 / count * count = y / max tile 1 := by
      rw [Nat.mul_comm]
      exact Nat.mod_add_div _ _
    refine ⟨_, bands_getElem?.mpr ⟨?_, rfl⟩, (mem_band htile).mpr ⟨hy, ?_⟩⟩
    · rw [hmax, hsplit]
      exact Nat.lt_of_le_of_lt (Nat.div_mul_le_self _ _) hy
    · rw [hmax, hsplit]
  · rintro ⟨i, k⟩ ⟨hi, s, hs, hrow⟩
    obtain ⟨-, rfl⟩ := bands_getElem?.mp hs
    obtain ⟨-, hband⟩ := (mem_band htile).mp hrow
    rw [hmax] at hband
    rw [hband, Nat.add_mul_mod_self_right, Nat.mod_eq_of_lt hi, Nat.add_mul_div_right _ _ hcount,
      Nat.div_eq_of_lt hi, Nat.zero_add]

end

/-- A number, if it fits into a word. -/
def word? (n : ℕ) : Option ℕ := if n < 2 ^ 64 then some n else none

lemma word?_eq_some {n m : ℕ} (h : n ≤ m) (hm : m < 2 ^ 64) : word? n = some n :=
  if_pos (h.trans_lt hm)

/-- The share of a slice, computed in words. -/
def wordShare? (index count total : ℕ) : Option Span :=
  let count := max count 1
  if count ≤ index then some ⟨total, total⟩
  else do
    let base := total / count
    let extra := total % count
    let start ← word? ((← word? (index * base)) + min index extra)
    let length ← word? (base + if index < extra then 1 else 0)
    return ⟨start, ← word? (start + length)⟩

/-- The bands of a slice, computed in words. -/
def wordBands? (index count height tile : ℕ) : Option (List Span) := do
  let tile := max tile 1
  let count := max count 1
  let total ← word? (height / tile + if height % tile = 0 then 0 else 1)
  (List.range ((total - index + count - 1) / count)).mapM fun k => do
    let band ← word? (index + k * count)
    let start ← word? (band * tile)
    let stop ← word? ((← word? (band + 1)) * tile)
    return ⟨start, min stop height⟩

/-- **A share is computed without overflow.** -/
lemma wordShare?_eq {index count total : ℕ} (htotal : total < 2 ^ 64) :
    wordShare? index count total = some (share index count total) := by
  unfold wordShare? share
  dsimp only
  split
  · rfl
  · next hindex =>
    have hstop : shareStart (index + 1) (max count 1) total ≤ total :=
      shareStart_le total (by omega) (by omega)
    rw [shareStart, Nat.succ_mul] at hstop
    generalize total / max count 1 = base at hstop ⊢
    generalize total % max count 1 = extra at hstop ⊢
    generalize hlonger : (if index < extra then 1 else 0) = longer
    have hend : index * base + min index extra + (base + longer) ≤ total := by
      split at hlonger <;> omega
    simp only [word?_eq_some (show index * base ≤ total by omega) htotal,
      word?_eq_some (show index * base + min index extra ≤ total by omega) htotal,
      word?_eq_some (show base + longer ≤ total by omega) htotal, word?_eq_some hend htotal,
      Option.bind_eq_bind, Option.bind_some, Option.pure_def]
    rw [Nat.add_assoc (index * base + min index extra)]

lemma mapM_eq_some_map {α β : Type} {f : α → Option β} {g : α → β} {l : List α}
    (h : ∀ a ∈ l, f a = some (g a)) : l.mapM f = some (l.map g) := by
  induction l with
  | nil => rfl
  | cons a l ih =>
    rw [List.mapM_cons, h a List.mem_cons_self, ih fun b hb => h b (List.mem_cons_of_mem _ hb)]
    rfl

lemma ceil_eq {m c : ℕ} (hc : 0 < c) : (m + c - 1) / c = m / c + if m % c = 0 then 0 else 1 := by
  have hsplit := Nat.div_add_mod m c
  have hlt := Nat.mod_lt m hc
  generalize m / c = q at hsplit ⊢
  generalize m % c = r at hsplit hlt ⊢
  subst hsplit
  rw [Nat.add_assoc, Nat.add_sub_assoc (by omega), Nat.mul_add_div hc]
  split
  · rw [Nat.div_eq_of_lt (by omega)]
  · rw [Nat.div_eq_of_lt_le (k := 1) (by omega) (by omega)]

/-- **Bands are computed without overflow** where the rows of full bands can be counted. -/
lemma wordBands?_eq {index count height tile : ℕ}
    (h : (height + max tile 1 - 1) / max tile 1 * max tile 1 < 2 ^ 64) :
    wordBands? index count height tile = some (bands index count height tile) := by
  have htile : 1 ≤ max tile 1 := Nat.le_max_right _ _
  unfold wordBands? bands
  dsimp only
  rw [← ceil_eq htile]
  generalize max tile 1 = rows at h htile ⊢
  generalize (height + rows - 1) / rows = total at h ⊢
  rw [word?_eq_some (Nat.le_mul_of_pos_right _ htile) h, Option.bind_eq_bind, Option.bind_some]
  refine mapM_eq_some_map fun k hk => ?_
  rw [List.mem_range, lt_ceil (by omega)] at hk
  -- the band is one of the frame, so its number and both of its ends are at most the last end
  have hband : index + k * max count 1 + 1 ≤ total := by omega
  have hstop := Nat.mul_le_mul_right rows hband
  have hstart : (index + k * max count 1) * rows ≤ total * rows :=
    (Nat.mul_le_mul_right rows (Nat.le_succ _)).trans hstop
  have hnumber : index + k * max count 1 + 1 ≤ total * rows :=
    (Nat.le_mul_of_pos_right _ htile).trans hstop
  simp only [word?_eq_some (Nat.le_of_succ_le hnumber) h, word?_eq_some hstart h,
    word?_eq_some hnumber h, word?_eq_some hstop h, Option.bind_eq_bind, Option.bind_some,
    Option.pure_def]

lemma share_alone (total : ℕ) : share 0 0 total = ⟨0, total⟩ := by
  simp [share, Nat.mod_one]

lemma sliceRows_alone (height tile : ℕ) :
    (sliceRows 0 0 height tile).Perm (List.range height) := by
  have h : ((List.range 1).flatMap fun index => sliceRows index 1 height tile).Perm
      (List.range height) := sliceRows_perm Nat.one_pos
  rwa [List.range_one, List.flatMap_singleton] at h

/-- **Partitions of work are exact.** The shares of any count of slices follow one another from the
first item to the last, with lengths that differ by one at most and do not grow, and a slice beyond
the count gets nothing. Every row of a frame lies in one band of one slice; the bands of a slice
ascend, none of them is empty or leaves the frame, and all but the last one of the frame are as high
as a tile. In words of 64 bits nothing overflows on the way, as long as the items, or the rows of
full bands, can be counted. Without a count the first slice gets everything. -/
theorem work_partitioned :
    (∀ count total, 0 < count → SharedOut count total) ∧
    (∀ index count total, total < 2 ^ 64 →
      wordShare? index count total = some (share index count total)) ∧
    (∀ count height tile, 0 < count → ∀ y < height, ∃! p : ℕ × ℕ, p.1 < count ∧
      ∃ s, (bands p.1 count height tile)[p.2]? = some s ∧ y ∈ s.toList) ∧
    (∀ index count height tile, DealtOut index count height tile) ∧
    (∀ index count height tile, (height + max tile 1 - 1) / max tile 1 * max tile 1 < 2 ^ 64 →
      wordBands? index count height tile = some (bands index count height tile)) ∧
    (∀ total, share 0 0 total = ⟨0, total⟩) ∧
    ∀ height tile, (sliceRows 0 0 height tile).Perm (List.range height) :=
  ⟨fun _ total hcount => sharedOut total hcount, fun _ _ _ => wordShare?_eq,
    fun _ _ _ hcount _ => existsUnique_band hcount, fun _ _ _ _ => dealtOut,
    fun _ _ _ _ => wordBands?_eq, share_alone, sliceRows_alone⟩

/-- Ten items for four slices, and 21 rows in bands of eight for three of them. -/
theorem work_partitioned_ten :
    SharedOut 4 10 ∧
      (List.range 5).map (share · 4 10) = [⟨0, 3⟩, ⟨3, 6⟩, ⟨6, 8⟩, ⟨8, 10⟩, ⟨10, 10⟩] ∧
      wordShare? 2 4 10 = some ⟨6, 8⟩ ∧ bands 2 3 21 8 = [⟨16, 21⟩] ∧
      (∃! p : ℕ × ℕ, p.1 < 3 ∧ ∃ s, (bands p.1 3 21 8)[p.2]? = some s ∧ 20 ∈ s.toList) ∧
      wordBands? 2 3 21 8 = some [⟨16, 21⟩] := by
  obtain ⟨hshares, hword, hrow, -, hbands, -, -⟩ := work_partitioned
  exact ⟨hshares 4 10 (by decide), by decide, hword 2 4 10 (by decide), by decide,
    hrow 3 21 8 (by decide) 20 (by decide), hbands 2 3 21 8 (by decide)⟩

end SolidTrace
