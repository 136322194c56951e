import Mathlib.Data.List.Nodup
import SolidTrace.Proofs.Lookup
import SolidTrace.Work.Share

/-!
Items and bands of rows are dealt out exactly.

A share of items starts where the one before it stops, so that the shares put together are all
items in their order. The band of a row is its number divided by the height of a tile, and the slice
of a band is its number modulo the count of slices. Since both are functions of the row, no row is
dealt out twice; every row below the height is dealt out once.
-/

namespace SolidTrace

lemma Span.mem_toList {s : Span} {y : ℕ} : y ∈ s.toList ↔ s.start ≤ y ∧ y < s.stop := by
  unfold Span.toList
  rw [List.mem_range'_1]
  omega

def shareStart (index count total : ℕ) : ℕ :=
  index * (total / count) + min index (total % count)

lemma share_eq {index count total : ℕ} (h : index < count) :
    share index count total =
      ⟨shareStart index count total, shareStart (index + 1) count total⟩ := by
  have hcount : max count 1 = count := by omega
  unfold share shareStart
  simp only [hcount, if_neg (Nat.not_le.mpr h), Span.mk.injEq, true_and, Nat.succ_mul]
  split <;> omega

lemma shareStart_count {count : ℕ} (total : ℕ) (h : 0 < count) :
    shareStart count count total = total := by
  have hlt := Nat.mod_lt total h
  have hsplit := Nat.div_add_mod total count
  unfold shareStart
  omega

lemma shareStart_le_succ (index count total : ℕ) :
    shareStart index count total ≤ shareStart (index + 1) count total := by
  unfold shareStart
  rw [Nat.succ_mul]
  exact Nat.add_le_add (Nat.le_add_right _ _) (by omega)

/-- **The shares one after the other are all items**, each of them once. -/
theorem flatMap_share {count : ℕ} (total : ℕ) (hcount : 0 < count) :
    ((List.range count).flatMap fun i => (share i count total).toList) = List.range total := by
  have hfirst : ∀ k ≤ count, ((List.range k).flatMap fun i => (share i count total).toList) =
      List.range (shareStart k count total) := by
    intro k hk
    induction k with
    | zero =>
      rw [shareStart, Nat.zero_mul, Nat.zero_min]
      rfl
    | succ k ih =>
      have hle := shareStart_le_succ k count total
      have hadd := List.range'_append_1 (s := 0) (m := shareStart k count total)
        (n := shareStart (k + 1) count total - shareStart k count total)
      rw [Nat.zero_add, Nat.add_sub_cancel' hle] at hadd
      rw [List.range_succ, List.flatMap_append, List.flatMap_singleton, ih (by omega),
        share_eq (by omega), List.range_eq_range', List.range_eq_range']
      exact hadd
  rw [hfirst count (Nat.le_refl count), shareStart_count total hcount]

def sliceRows (index count height tile : ℕ) : List ℕ :=
  (bands index count height tile).flatMap Span.toList

/-- So many items are as many as start before the end. -/
lemma lt_ceil {k m c : ℕ} (hc : 0 < c) : k < (m + c - 1) / c ↔ k * c < m := by
  rw [← Nat.succ_le_iff, Nat.le_div_iff_mul_le hc, Nat.succ_mul]
  omega

lemma mem_band {tile height b y : ℕ} (ht : 0 < tile) :
    y ∈ Span.toList ⟨b * tile, min ((b + 1) * tile) height⟩ ↔ y < height ∧ y / tile = b := by
  rw [Span.mem_toList, Nat.div_eq_iff ht, Nat.succ_mul]
  dsimp only
  omega

section

variable {index count height tile : ℕ}

lemma mem_sliceRows (hindex : index < count) {y : ℕ} :
    y ∈ sliceRows index count height tile ↔
      y < height ∧ y / max tile 1 % count = index := by
  have htile : 0 < max tile 1 := by omega
  have hcount : max count 1 = count := by omega
  unfold sliceRows bands
  simp only [List.mem_flatMap, List.mem_map, List.mem_range, hcount]
  constructor
  · rintro ⟨s, ⟨k, -, rfl⟩, hy⟩
    obtain ⟨hy, hband⟩ := (mem_band htile).mp hy
    refine ⟨hy, ?_⟩
    rw [hband, Nat.add_mul_mod_self_right, Nat.mod_eq_of_lt hindex]
  · rintro ⟨hy, hband⟩
    have hsplit : index + y / max tile 1 / count * count = y / max tile 1 := by
      rw [← hband, Nat.mul_comm]
      exact Nat.mod_add_div _ _
    refine ⟨_, ⟨y / max tile 1 / count, ?_, rfl⟩, (mem_band htile).mpr ⟨hy, hsplit.symm⟩⟩
    have hlast : y / max tile 1 < (height + max tile 1 - 1) / max tile 1 := by
      rw [lt_ceil htile]
      exact Nat.lt_of_le_of_lt (Nat.div_mul_le_self _ _) hy
    rw [lt_ceil (Nat.zero_lt_of_lt hindex)]
    omega

lemma lt_of_mem_sliceRows {y : ℕ} (hy : y ∈ sliceRows index count height tile) : y < height := by
  obtain ⟨s, hs, hy⟩ := List.mem_flatMap.mp hy
  obtain ⟨k, -, rfl⟩ := List.mem_map.mp hs
  exact ((mem_band (by omega)).mp hy).1

lemma nodup_sliceRows : (sliceRows index count height tile).Nodup := by
  have htile : 0 < max tile 1 := by omega
  unfold sliceRows bands
  rw [List.flatMap_map, List.nodup_flatMap]
  refine ⟨fun k _ => List.nodup_range', List.nodup_range.imp_of_mem ?_⟩
  intro k l _ _ hne y hk hl
  have hk := (mem_band htile).mp hk
  have hl := (mem_band htile).mp hl
  have hbands : index + k * max count 1 = index + l * max count 1 := hk.2.symm.trans hl.2
  exact hne (Nat.eq_of_mul_eq_mul_right (by omega) (Nat.add_left_cancel hbands))

/-- **The slices of a frame share out its rows.** -/
theorem sliceRows_perm (hcount : 0 < count) :
    ((List.range count).flatMap fun index => sliceRows index count height tile).Perm
      (List.range height) := by
  refine (List.perm_ext_iff_of_nodup ?_ List.nodup_range).mpr fun y => ?_
  · rw [List.nodup_flatMap]
    refine ⟨fun index _ => nodup_sliceRows, List.nodup_range.imp_of_mem ?_⟩
    intro i j hi hj hne y hyi hyj
    have hyi := (mem_sliceRows (List.mem_range.mp hi)).mp hyi
    have hyj := (mem_sliceRows (List.mem_range.mp hj)).mp hyj
    exact hne (hyi.2.symm.trans hyj.2)
  · rw [List.mem_flatMap, List.mem_range]
    constructor
    · rintro ⟨i, hi, hy⟩
      exact ((mem_sliceRows (List.mem_range.mp hi)).mp hy).1
    · intro hy
      have hlt : y / max tile 1 % count < count := Nat.mod_lt _ hcount
      exact ⟨_, List.mem_range.mpr hlt, (mem_sliceRows hlt).mpr ⟨hy, rfl⟩⟩

end

end SolidTrace
