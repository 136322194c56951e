import Mathlib.Algebra.Ring.Nat
import Mathlib.Order.Bounds.Defs
import Mathlib.Tactic.Common
import SolidTrace.Lanes.Kernel
import SolidTrace.Lanes.Substrate

/-!
What comes of a request for a SIMD configuration.

Whatever is granted is on offer. On a substrate that is put together from a list of pairs nothing on
offer has a zero, so that a granted pair pins both of its axes, and asking for it again grants the
same. The rows of a frame are as short as whole packets of the granted kernel allow; its packets
divide the widest ones.
-/

namespace SolidTrace

namespace LaneConfig

lemma toNat_pack (c : LaneConfig) : c.pack.toNat = c.variant.toNat * 2 ^ 8 + c.width.toNat := by
  have hwidth : c.width.toNat < 2 ^ 8 := c.width.toNat_lt
  have hvariant : c.variant.toNat < 2 ^ 8 := c.variant.toNat_lt
  have hword : c.variant.toNat <<< 8 % 2 ^ 32 = c.variant.toNat <<< 8 := by
    rw [Nat.shiftLeft_eq, Nat.mod_eq_of_lt (by omega)]
  rw [pack, UInt32.toNat_or, UInt32.toNat_shiftLeft, UInt8.toNat_toUInt32, UInt8.toNat_toUInt32]
  change c.width.toNat ||| c.variant.toNat <<< 8 % 2 ^ 32 = _
  rw [hword, Nat.or_comm, ← Nat.shiftLeft_add_eq_or_of_lt hwidth, Nat.shiftLeft_eq]

lemma unpack_pack (c : LaneConfig) : unpack c.pack = c := by
  have hwidth : c.width.toNat < 2 ^ 8 := c.width.toNat_lt
  have hvariant : c.variant.toNat < 2 ^ 8 := c.variant.toNat_lt
  have hlow : c.pack.toUInt8 = c.width := by
    apply UInt8.toNat_inj.1
    rw [UInt32.toNat_toUInt8, toNat_pack]
    omega
  have hhigh : (c.pack >>> 8).toUInt8 = c.variant := by
    apply UInt8.toNat_inj.1
    rw [UInt32.toNat_toUInt8, UInt32.toNat_shiftRight, toNat_pack]
    change (c.variant.toNat * 2 ^ 8 + c.width.toNat) >>> 8 % 2 ^ 8 = _
    rw [Nat.shiftRight_eq_div_pow]
    omega
  rw [unpack, hlow, hhigh]

end LaneConfig

section

variable {α : Type} [DecidableEq α]

lemma dedup_sublist (l : List α) : (dedup l).Sublist l := by
  induction l using dedup.induct with
  | case1 => exact .slnil
  | case2 a => exact .refl _
  | case3 b l ih =>
    rw [dedup, if_pos rfl]
    exact ih.cons b
  | case4 b c l hne ih =>
    rw [dedup, if_neg hne]
    exact ih.cons_cons b

lemma mem_dedup {l : List α} {a : α} : a ∈ dedup l ↔ a ∈ l := by
  refine ⟨fun h => (dedup_sublist l).mem h, fun h => ?_⟩
  induction l using dedup.induct with
  | case1 => exact h
  | case2 => exact h
  | case3 b l ih =>
    rw [dedup, if_pos rfl]
    rcases List.mem_cons.mp h with rfl | h
    · exact ih List.mem_cons_self
    · exact ih h
  | case4 b c l hne ih =>
    rw [dedup, if_neg hne]
    exact List.mem_cons.mpr ((List.mem_cons.mp h).imp_right ih)

lemma dedup_ne_nil {l : List α} (h : l ≠ []) : dedup l ≠ [] := by
  induction l using dedup.induct with
  | case1 => exact h
  | case2 => exact h
  | case3 b l ih =>
    rw [dedup, if_pos rfl]
    exact ih (List.cons_ne_nil b l)
  | case4 b c l hne _ =>
    rw [dedup, if_neg hne]
    exact List.cons_ne_nil _ _

end

namespace Substrate

/-- The substrates that are put together from a list of pairs. -/
inductive Fixed : Substrate → Prop
  | ofPairs (pairs : List LaneConfig) : Fixed (ofPairs pairs)
  | withFsaa {s : Substrate} (h : Fixed s) (levels : List Fsaa) : Fixed (s.withFsaa levels)

variable {s : Substrate} {request config : LaneConfig}

lemma supports_iff : s.supports config = true ↔ config ∈ s.pairs := List.contains_iff_mem

lemma supports_ofPairs_iff {pairs : List LaneConfig} :
    (ofPairs pairs).supports config = true ↔
      config ∈ pairs ∧ config.width ≠ 0 ∧ config.variant ≠ 0 := by
  rw [supports_iff, ofPairs, mem_dedup, List.mem_mergeSort, List.mem_filter]
  simp

lemma Fixed.pinned (h : s.Fixed) (hc : s.supports config = true) :
    config.width ≠ 0 ∧ config.variant ≠ 0 := by
  induction h with
  | ofPairs pairs => exact (supports_ofPairs_iff.mp hc).2
  | withFsaa _ levels ih => exact ih hc

lemma supports_pairWithWidth {variants : List UInt8} {width : UInt8}
    (h : s.pairWithWidth? variants width = some config) : s.supports config = true := by
  obtain ⟨v, hv, rfl⟩ := Option.map_eq_some_iff.mp h
  have hsupported := List.find?_some hv
  exact hsupported

lemma supports_pairWithVariant {widths : List UInt8} {variant : UInt8}
    (h : s.pairWithVariant? widths variant = some config) : s.supports config = true := by
  obtain ⟨w, hw, rfl⟩ := Option.map_eq_some_iff.mp h
  have hsupported := List.find?_some hw
  exact hsupported

lemma supports_nearest (h : s.nearest? request = some config) : s.supports config = true := by
  obtain ⟨widest, -, h⟩ := Option.bind_eq_some_iff.mp h
  obtain ⟨richest, -, h⟩ := Option.bind_eq_some_iff.mp h
  -- which values the two axes start at does not matter
  generalize (if request.width = 0 then widest else request.width) = width at h
  generalize (if request.variant = 0 then richest else request.variant) = variant at h
  simp only [Option.orElse_eq_orElse, Option.orElse_eq_or, Option.or_eq_some_iff] at h
  rcases h with h | ⟨-, h | ⟨-, h | ⟨-, h⟩⟩⟩
  · split at h
    · next hsupported => exact Option.some.inj h ▸ hsupported
    · cases h
  · split at h
    · cases h
    · exact supports_pairWithWidth h
  · split at h
    · cases h
    · exact supports_pairWithVariant h
  · obtain ⟨w, -, hw⟩ := List.exists_of_findSome?_eq_some h
    exact supports_pairWithWidth hw

/-- **What is granted is on offer.** -/
lemma supports_negotiate (h : s.negotiate request = .ok config) : s.supports config = true := by
  unfold negotiate at h
  split at h
  · cases h
  · next nearest hnearest =>
    split at h
    · cases h
    · exact Except.ok.inj h ▸ supports_nearest hnearest

lemma nearest_self (hc : s.supports config = true) (hwidth : config.width ≠ 0)
    (hvariant : config.variant ≠ 0) : s.nearest? config = some config := by
  have hpairs : s.pairs ≠ [] := List.ne_nil_of_mem (supports_iff.mp hc)
  have hwidths : s.widths ≠ [] := dedup_ne_nil (by simpa using hpairs)
  have hvariants : s.variants ≠ [] := by
    refine dedup_ne_nil fun hnil => hpairs ?_
    have hlength := congrArg List.length hnil
    simpa using hlength
  unfold nearest?
  rw [List.getLast?_eq_some_getLast hwidths, List.getLast?_eq_some_getLast hvariants]
  simp [hwidth, hvariant, hc]

/-- **What is granted is granted again** when it is asked for. -/
lemma Fixed.negotiate_self (h : s.Fixed) (hc : s.supports config = true) :
    s.negotiate config = .ok config := by
  obtain ⟨hwidth, hvariant⟩ := h.pinned hc
  unfold negotiate
  rw [nearest_self hc hwidth hvariant]
  simp

end Substrate

namespace Kernel

/-- The packets of every kernel divide the widest ones. -/
lemma lanes_select_dvd (config : LaneConfig) : (select config).lanes ∣ 16 := by
  unfold select
  split
  · exact show 8 ∣ 16 by decide
  · exact show 16 ∣ 16 by decide
  · exact show 4 ∣ 16 by decide

end Kernel

variable {lanes : ℕ}

/-- **A row is as short as whole packets allow.** -/
lemma isLeast_rowStride (width : ℕ) (hlanes : 0 < lanes) :
    IsLeast {n | lanes ∣ n ∧ width ≤ n} (rowStride width lanes) := by
  have hmax : max lanes 1 = lanes := Nat.max_eq_left hlanes
  unfold rowStride
  dsimp only
  rw [hmax]
  refine ⟨⟨Nat.dvd_mul_left _ _, ?_⟩, ?_⟩
  · have hlt := Nat.lt_div_mul_add (a := width + lanes - 1) hlanes
    omega
  · rintro n ⟨⟨q, rfl⟩, hn⟩
    have hpackets : (width + lanes - 1) / lanes < q + 1 := by
      rw [Nat.div_lt_iff_lt_mul hlanes, Nat.succ_mul, Nat.mul_comm q]
      omega
    rw [Nat.mul_comm lanes]
    exact Nat.mul_le_mul_right _ (Nat.lt_succ_iff.mp hpackets)

lemma rowStride_le_of_dvd (width : ℕ) {wide : ℕ} (hlanes : 0 < lanes) (hwide : 0 < wide)
    (h : lanes ∣ wide) : rowStride width lanes ≤ rowStride width wide := by
  obtain ⟨hdvd, hwidth⟩ := (isLeast_rowStride width hwide).1
  exact (isLeast_rowStride width hlanes).2 ⟨Nat.dvd_trans h hdvd, hwidth⟩

end SolidTrace
