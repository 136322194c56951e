import Mathlib.Order.Bounds.Basic
import SolidTrace.Proofs.Lanes.Negotiation

/-!
What comes of a request is the best that there is.

The pairs that keep the axes pinned are never looked at together: the search tries one axis after
the other, from an aim that may be no pair at all. `IsNearest` says what each of its rungs should
find, in terms of what is on offer. On every rung that is the best of the pairs that keep the axes
pinned, if there are any, so that only the requests that no pair meets are refused.
-/

namespace SolidTrace

lemma isGreatest_getLast? {l : List UInt8} (hl : l.Pairwise (· ≤ ·)) {a : UInt8}
    (h : l.getLast? = some a) : IsGreatest {b | b ∈ l} a := by
  obtain ⟨before, rfl⟩ := List.getLast?_eq_some_iff.mp h
  refine ⟨by simp, fun b hb => ?_⟩
  rcases List.mem_append.mp hb with hb | hb
  · exact (List.pairwise_append.mp hl).2.2 b hb a List.mem_cons_self
  · exact List.mem_singleton.mp hb ▸ UInt8.le_refl _

lemma LaneConfig.le_iff {c d : LaneConfig} :
    c.le d = true ↔ c.width < d.width ∨ c.width = d.width ∧ c.variant ≤ d.variant := by
  simp [LaneConfig.le]

lemma LaneConfig.le_of_width_le {c d : LaneConfig} (hwidth : c.width ≤ d.width)
    (hvariant : c.width = d.width → c.variant ≤ d.variant) : c.le d = true := by
  rw [le_iff]
  rcases UInt8.lt_or_eq_of_le hwidth with hlt | heq
  · exact Or.inl hlt
  · exact Or.inr ⟨heq, hvariant heq⟩

namespace Substrate

/-- Of the values in a set, the one at the least distance from a target, the smaller one of two at
equal distance. -/
def IsClosest (target : UInt8) (values : Set UInt8) (a : UInt8) : Prop :=
  a ∈ values ∧ ∀ b ∈ values, distance a target < distance b target ∨
    distance a target = distance b target ∧ a ≤ b

variable {target a b : UInt8} {values : Set UInt8}

lemma distance_eq_zero : distance a target = 0 ↔ a = target := by
  rw [distance, ← UInt8.toNat_inj]
  omega

lemma isClosest_self (h : target ∈ values) : IsClosest target values target := by
  refine ⟨h, fun b _ => ?_⟩
  by_cases hb : b = target
  · exact Or.inr ⟨by rw [hb], hb ▸ UInt8.le_refl _⟩
  · have hself := distance_eq_zero.mpr (rfl : target = target)
    have hne := mt distance_eq_zero.mp hb
    exact Or.inl (by omega)

lemma IsClosest.eq_of_mem (h : IsClosest target values a) (ht : target ∈ values) : a = target := by
  have hself := distance_eq_zero.mpr (rfl : target = target)
  rcases h.2 target ht with hlt | ⟨heq, -⟩
  · omega
  · exact distance_eq_zero.mp (heq.trans hself)

lemma IsClosest.isGreatest (h : IsClosest target values a) (ht : target ∈ upperBounds values) :
    IsGreatest values a := by
  refine ⟨h.1, fun b hb => ?_⟩
  have hat : a.toNat ≤ target.toNat := ht h.1
  have hbt : b.toNat ≤ target.toNat := ht hb
  have hle := h.2 b hb
  simp only [distance, UInt8.le_iff_toNat_le] at hle ⊢
  omega

lemma isClosest_find? {l : List UInt8} {p : UInt8 → Bool}
    (h : (byNearness target l).find? p = some a) : IsClosest target {b | b ∈ l ∧ p b = true} a := by
  have hsorted : (byNearness target l).Pairwise fun x y =>
      distance x target < distance y target ∨ distance x target = distance y target ∧ x ≤ y := by
    have hmerge := @List.pairwise_mergeSort _ (fun x y : UInt8 =>
      distance x target < distance y target ||
        distance x target == distance y target && decide (x ≤ y)) (fun x y z => ?_)
        (fun x y => ?_) l
    · simpa [byNearness] using hmerge
    · simp only [Bool.or_eq_true, Bool.and_eq_true, decide_eq_true_eq, beq_iff_eq,
        UInt8.le_iff_toNat_le]
      omega
    · simp only [Bool.or_eq_true, Bool.and_eq_true, decide_eq_true_eq, beq_iff_eq,
        UInt8.le_iff_toNat_le]
      omega
  obtain ⟨hpa, before, after, heq, hbefore⟩ := List.find?_eq_some_iff_append.mp h
  have hmem : ∀ b, b ∈ byNearness target l ↔ b ∈ l := fun b => List.mem_mergeSort
  refine ⟨⟨(hmem a).mp (heq ▸ by simp), hpa⟩, fun b ⟨hb, hpb⟩ => ?_⟩
  rw [← hmem, heq] at hb
  rw [heq] at hsorted
  rcases List.mem_append.mp hb with hb | hb
  · exact absurd (hbefore b hb) (by simp [hpb])
  · rcases List.mem_cons.mp hb with rfl | hb
    · exact Or.inr ⟨rfl, UInt8.le_refl _⟩
    · exact (List.pairwise_cons.mp (List.pairwise_append.mp hsorted).2.1).1 b hb

variable {s : Substrate} {request config : LaneConfig}

def offeredWidths (s : Substrate) : Set UInt8 := {w | ∃ v, s.supports ⟨w, v⟩ = true}

def offeredVariants (s : Substrate) : Set UInt8 := {v | ∃ w, s.supports ⟨w, v⟩ = true}

lemma mem_widths {w : UInt8} : w ∈ s.widths ↔ w ∈ s.offeredWidths := by
  rw [widths, mem_dedup, List.mem_map]
  constructor
  · rintro ⟨c, hc, rfl⟩
    exact ⟨c.variant, supports_iff.mpr hc⟩
  · rintro ⟨v, hv⟩
    exact ⟨⟨w, v⟩, supports_iff.mp hv, rfl⟩

lemma mem_variants {v : UInt8} : v ∈ s.variants ↔ v ∈ s.offeredVariants := by
  rw [variants, mem_dedup, List.mem_mergeSort, List.mem_map]
  constructor
  · rintro ⟨c, hc, rfl⟩
    exact ⟨c.width, supports_iff.mpr hc⟩
  · rintro ⟨w, hw⟩
    exact ⟨⟨w, v⟩, supports_iff.mp hw, rfl⟩

lemma Fixed.widths_ascend (h : s.Fixed) : s.widths.Pairwise (· ≤ ·) := by
  refine List.Pairwise.sublist (dedup_sublist _) (List.pairwise_map.mpr ?_)
  induction h with
  | ofPairs pairs =>
    refine List.Pairwise.sublist (dedup_sublist _) ?_
    have hmerge := @List.pairwise_mergeSort _ LaneConfig.le (fun x y z => ?_)
      (fun x y => ?_) (pairs.filter fun c => c.width != 0 && c.variant != 0)
    · refine hmerge.imp fun hle => ?_
      rw [LaneConfig.le_iff] at hle
      simp only [UInt8.lt_iff_toNat_lt, UInt8.le_iff_toNat_le, ← UInt8.toNat_inj] at hle ⊢
      omega
    · simp only [LaneConfig.le_iff, UInt8.lt_iff_toNat_lt, UInt8.le_iff_toNat_le,
        ← UInt8.toNat_inj]
      omega
    · simp only [Bool.or_eq_true, LaneConfig.le_iff, UInt8.lt_iff_toNat_lt, UInt8.le_iff_toNat_le,
        ← UInt8.toNat_inj]
      omega
  | withFsaa _ levels ih => exact ih

lemma variants_ascend (s : Substrate) : s.variants.Pairwise (· ≤ ·) := by
  refine List.Pairwise.sublist (dedup_sublist _) ?_
  have hmerge := @List.pairwise_mergeSort _ (fun a b : UInt8 => decide (a ≤ b))
    (fun x y z => ?_) (fun x y => ?_) (s.pairs.map (·.variant))
  · simpa using hmerge
  · simp only [decide_eq_true_eq]
    exact UInt8.le_trans
  · simp only [Bool.or_eq_true, decide_eq_true_eq]
    exact UInt8.le_total x y

/-! ### The rungs of the search -/

section

variable {width variant : UInt8}

lemma pairWithWidth_eq_some
    (h : s.pairWithWidth? (byNearness variant s.variants) width = some config) :
    config.width = width ∧ IsClosest variant {v | s.supports ⟨width, v⟩ = true} config.variant := by
  obtain ⟨v, hv, rfl⟩ := Option.map_eq_some_iff.mp h
  obtain ⟨⟨hmem, hsupported⟩, hleast⟩ := isClosest_find? hv
  exact ⟨rfl, hsupported, fun u hu => hleast u ⟨mem_variants.mpr ⟨width, hu⟩, hu⟩⟩

lemma pairWithWidth_eq_none
    (h : s.pairWithWidth? (byNearness variant s.variants) width = none) :
    width ∉ s.offeredWidths := by
  rintro ⟨v, hv⟩
  rw [pairWithWidth?, Option.map_eq_none_iff, List.find?_eq_none] at h
  exact h v (List.mem_mergeSort.mpr (mem_variants.mpr ⟨width, hv⟩)) hv

lemma pairWithVariant_eq_some
    (h : s.pairWithVariant? (byNearness width s.widths) variant = some config) :
    config.variant = variant ∧
      IsClosest width {w | s.supports ⟨w, variant⟩ = true} config.width := by
  obtain ⟨w, hw, rfl⟩ := Option.map_eq_some_iff.mp h
  obtain ⟨⟨hmem, hsupported⟩, hleast⟩ := isClosest_find? hw
  exact ⟨rfl, hsupported, fun u hu => hleast u ⟨mem_widths.mpr ⟨variant, hu⟩, hu⟩⟩

lemma pairWithVariant_eq_none
    (h : s.pairWithVariant? (byNearness width s.widths) variant = none) :
    variant ∉ s.offeredVariants := by
  rintro ⟨w, hw⟩
  rw [pairWithVariant?, Option.map_eq_none_iff, List.find?_eq_none] at h
  exact h w (List.mem_mergeSort.mpr (mem_widths.mpr ⟨variant, hw⟩)) hw

/-- Every width on offer has a variant, so that the search over all pairs ends at the first width
that it tries. -/
lemma findSome_eq_some (h : (byNearness width s.widths).findSome?
      (s.pairWithWidth? (byNearness variant s.variants)) = some config) :
    IsClosest width s.offeredWidths config.width ∧
      IsClosest variant {v | s.supports ⟨config.width, v⟩ = true} config.variant := by
  obtain ⟨before, w, after, heq, hw, hbefore⟩ := List.findSome?_eq_some_iff.mp h
  obtain ⟨rfl, hvariant⟩ := pairWithWidth_eq_some hw
  obtain rfl : before = [] := by
    refine List.eq_nil_iff_forall_not_mem.mpr fun u hu => ?_
    have hmem : u ∈ byNearness width s.widths := heq ▸ List.mem_append_left _ hu
    exact pairWithWidth_eq_none (hbefore u hu) (mem_widths.mp (List.mem_mergeSort.mp hmem))
  have hfirst : (byNearness width s.widths).find? (fun _ => true) = some config.width := by
    rw [heq]
    rfl
  obtain ⟨hmem, hleast⟩ := isClosest_find? hfirst
  exact ⟨⟨mem_widths.mp hmem.1, fun u hu => hleast u ⟨mem_widths.mpr hu, rfl⟩⟩, hvariant⟩

lemma findSome_eq_none (h : (byNearness width s.widths).findSome?
      (s.pairWithWidth? (byNearness variant s.variants)) = none) : s.offeredWidths = ∅ := by
  rw [List.findSome?_eq_none_iff] at h
  refine Set.eq_empty_of_forall_notMem fun w hw => ?_
  exact pairWithWidth_eq_none (h w (List.mem_mergeSort.mpr (mem_widths.mpr hw))) hw

end

/-- Where the search along an axis starts: at the value that is pinned, or at the largest one on
offer. -/
def Aims (requested : UInt8) (offered : Set UInt8) (aim : UInt8) : Prop :=
  if requested = 0 then IsGreatest offered aim else aim = requested

/-- What the search from a width and a variant should find, one constructor for each rung. -/
inductive IsNearest (s : Substrate) (request : LaneConfig) (width variant : UInt8) :
    LaneConfig → Prop
  /-- With the width that is pinned, if that is on offer. -/
  | withWidth (hwidth : request.width ≠ 0 ∧ request.width ∈ s.offeredWidths) {v : UInt8}
      (hv : IsClosest variant {v | s.supports ⟨request.width, v⟩ = true} v) :
      IsNearest s request width variant ⟨request.width, v⟩
  /-- Else with the variant that is pinned, if that is on offer. -/
  | withVariant (hwidth : ¬(request.width ≠ 0 ∧ request.width ∈ s.offeredWidths))
      (hvariant : request.variant ≠ 0 ∧ request.variant ∈ s.offeredVariants) {w : UInt8}
      (hw : IsClosest width {w | s.supports ⟨w, request.variant⟩ = true} w) :
      IsNearest s request width variant ⟨w, request.variant⟩
  /-- Else among all widths, and then among the variants of the one found. -/
  | overall (hwidth : ¬(request.width ≠ 0 ∧ request.width ∈ s.offeredWidths))
      (hvariant : ¬(request.variant ≠ 0 ∧ request.variant ∈ s.offeredVariants)) {w v : UInt8}
      (hw : IsClosest width s.offeredWidths w)
      (hv : IsClosest variant {v | s.supports ⟨w, v⟩ = true} v) :
      IsNearest s request width variant ⟨w, v⟩

/-- A pair that meets both aims is the nearest one, whichever rung that is. -/
lemma isNearest_aims {width variant : UInt8} (hwidth : Aims request.width s.offeredWidths width)
    (hvariant : Aims request.variant s.offeredVariants variant)
    (h : s.supports ⟨width, variant⟩ = true) :
    s.IsNearest request width variant ⟨width, variant⟩ := by
  unfold Aims at hwidth hvariant
  by_cases hw : request.width = 0
  · by_cases hv : request.variant = 0
    · exact .overall (fun hpin => hpin.1 hw) (fun hpin => hpin.1 hv) (isClosest_self ⟨variant, h⟩)
        (isClosest_self h)
    · rw [if_neg hv] at hvariant
      subst hvariant
      exact .withVariant (fun hpin => hpin.1 hw) ⟨hv, width, h⟩ (isClosest_self h)
  · rw [if_neg hw] at hwidth
    subst hwidth
    exact .withWidth ⟨hw, variant, h⟩ (isClosest_self h)

lemma aims_getLast? {l : List UInt8} (hl : l.Pairwise (· ≤ ·)) {offered : Set UInt8}
    (hoffered : ∀ b, b ∈ l ↔ b ∈ offered) {a : UInt8} (h : l.getLast? = some a)
    (requested : UInt8) : Aims requested offered (if requested = 0 then a else requested) := by
  have hgreatest := isGreatest_getLast? hl h
  simp only [hoffered] at hgreatest
  unfold Aims
  split
  · exact hgreatest
  · rfl

/-- **The search goes down the rungs**: what it finds is the nearest pair. -/
lemma Fixed.isNearest (hs : s.Fixed) (h : s.nearest? request = some config) :
    ∃ width variant, Aims request.width s.offeredWidths width ∧
      Aims request.variant s.offeredVariants variant ∧
      s.IsNearest request width variant config := by
  obtain ⟨widest, hwidest, h⟩ := Option.bind_eq_some_iff.mp h
  obtain ⟨richest, hrichest, h⟩ := Option.bind_eq_some_iff.mp h
  have hwidth : Aims request.width s.offeredWidths
      (if request.width = 0 then widest else request.width) :=
    aims_getLast? hs.widths_ascend (fun _ => mem_widths) hwidest _
  have hvariant : Aims request.variant s.offeredVariants
      (if request.variant = 0 then richest else request.variant) :=
    aims_getLast? s.variants_ascend (fun _ => mem_variants) hrichest _
  refine ⟨_, _, hwidth, hvariant, ?_⟩
  generalize hw : (if request.width = 0 then widest else request.width) = width at *
  generalize hv : (if request.variant = 0 then richest else request.variant) = variant at *
  simp only [Option.orElse_eq_orElse, Option.orElse_eq_or, Option.or_eq_some_iff]
    at h
  rcases h with h | ⟨-, h | ⟨hfirst, h | ⟨hsecond, h⟩⟩⟩
  · split at h
    · next hsupported => exact Option.some.inj h ▸ isNearest_aims hwidth hvariant hsupported
    · cases h
  · split at h
    · cases h
    · next hpin =>
      obtain rfl : request.width = width := (if_neg hpin).symm.trans hw
      obtain ⟨hconfig, hclosest⟩ := pairWithWidth_eq_some h
      rw [show config = ⟨request.width, config.variant⟩ from hconfig ▸ rfl]
      exact .withWidth ⟨hpin, config.variant, hclosest.1⟩ hclosest
  all_goals
    have hnot : ¬(request.width ≠ 0 ∧ request.width ∈ s.offeredWidths) := by
      rintro ⟨hpin, hoffered⟩
      obtain rfl : request.width = width := (if_neg hpin).symm.trans hw
      rw [if_neg hpin] at hfirst
      exact pairWithWidth_eq_none hfirst hoffered
  · split at h
    · cases h
    · next hpin =>
      obtain rfl : request.variant = variant := (if_neg hpin).symm.trans hv
      obtain ⟨hconfig, hclosest⟩ := pairWithVariant_eq_some h
      rw [show config = ⟨config.width, request.variant⟩ from hconfig ▸ rfl]
      exact .withVariant hnot ⟨hpin, config.width, hclosest.1⟩ hclosest
  · have hnot' : ¬(request.variant ≠ 0 ∧ request.variant ∈ s.offeredVariants) := by
      rintro ⟨hpin, hoffered⟩
      obtain rfl : request.variant = variant := (if_neg hpin).symm.trans hv
      rw [if_neg hpin] at hsecond
      exact pairWithVariant_eq_none hsecond hoffered
    obtain ⟨hclosest, hclosest'⟩ := findSome_eq_some h
    exact .overall hnot hnot' hclosest hclosest'

/-- The search comes back empty-handed only when nothing is on offer. -/
lemma not_supports_of_nearest_eq_none (h : s.nearest? request = none) (c : LaneConfig) :
    s.supports c ≠ true := by
  intro hc
  have hw : c.width ∈ s.widths := mem_widths.mpr ⟨c.variant, hc⟩
  have hv : c.variant ∈ s.variants := mem_variants.mpr ⟨c.width, hc⟩
  have hwidest := List.getLast?_eq_some_getLast (List.ne_nil_of_mem hw)
  have hrichest := List.getLast?_eq_some_getLast (List.ne_nil_of_mem hv)
  unfold nearest? at h
  rw [hwidest, hrichest] at h
  simp only [Option.bind_eq_bind, Option.bind_some, Option.orElse_eq_orElse, Option.orElse_eq_or,
    Option.or_eq_none_iff] at h
  exact Set.notMem_empty c.width (findSome_eq_none h.2.2.2 ▸ mem_widths.mp hw)

/-! ### The answer -/

/-- A pair keeps the axes that a request pins. -/
def Meets (c request : LaneConfig) : Prop :=
  (request.width ≠ 0 → c.width = request.width) ∧
    (request.variant ≠ 0 → c.variant = request.variant)

/-- Of the pairs on offer that keep the axes pinned, the one with the largest width, and of those
the one with the largest variant. -/
def IsBest (s : Substrate) (request best : LaneConfig) : Prop :=
  (s.supports best = true ∧ Meets best request) ∧
    ∀ c, s.supports c = true → Meets c request → c.le best = true

lemma IsNearest.supports {width variant : UInt8} (h : s.IsNearest request width variant config) :
    s.supports config = true := by
  cases h with
  | withWidth _ hv => exact hv.1
  | withVariant _ _ hw => exact hw.1
  | overall _ _ _ hv => exact hv.1

/-- Along an axis, what is closest to the aim keeps the value pinned, if that is there, and is
otherwise the largest. -/
lemma IsClosest.best {requested aim : UInt8} {offered : Set UInt8} (h : IsClosest aim values a)
    (haim : Aims requested offered aim) (hsub : values ⊆ offered)
    (hmem : requested ≠ 0 → requested ∈ values) :
    (requested ≠ 0 → a = requested) ∧ ∀ b ∈ values, (requested ≠ 0 → b = requested) → b ≤ a := by
  unfold Aims at haim
  by_cases hpin : requested = 0
  · rw [if_pos hpin] at haim
    exact ⟨fun hne => absurd hpin hne, fun b hb _ =>
      (h.isGreatest fun u hu => haim.2 (hsub hu)).2 hb⟩
  · rw [if_neg hpin] at haim
    subst haim
    have ha := h.eq_of_mem (hmem hpin)
    exact ⟨fun _ => ha, fun b _ hb => ha ▸ hb hpin ▸ UInt8.le_refl _⟩

/-- When some pair keeps the axes pinned, the nearest pair is the best of those. -/
lemma IsNearest.isBest {width variant : UInt8} (h : s.IsNearest request width variant config)
    (hwidth : Aims request.width s.offeredWidths width)
    (hvariant : Aims request.variant s.offeredVariants variant) {c : LaneConfig}
    (hc : s.supports c = true) (hmeets : Meets c request) : s.IsBest request config := by
  have hfree : ¬(request.width ≠ 0 ∧ request.width ∈ s.offeredWidths) → request.width = 0 :=
    fun hnot => by_contra fun hpin => hnot ⟨hpin, hmeets.1 hpin ▸ ⟨c.variant, hc⟩⟩
  have hfree' : ¬(request.variant ≠ 0 ∧ request.variant ∈ s.offeredVariants) →
      request.variant = 0 :=
    fun hnot => by_contra fun hpin => hnot ⟨hpin, hmeets.2 hpin ▸ ⟨c.width, hc⟩⟩
  cases h with
  | withWidth hpin hv =>
    obtain ⟨hkept, hlargest⟩ := hv.best hvariant (fun u hu => ⟨_, hu⟩) fun hne => by
      show s.supports ⟨request.width, request.variant⟩ = true
      rw [← hmeets.1 hpin.1, ← hmeets.2 hne]
      exact hc
    refine ⟨⟨hv.1, fun _ => rfl, hkept⟩, fun d hd hd' => LaneConfig.le_of_width_le ?_ fun _ => ?_⟩
    · exact hd'.1 hpin.1 ▸ UInt8.le_refl _
    · exact hlargest d.variant (hd'.1 hpin.1 ▸ hd) hd'.2
  | withVariant hnot hpin hw =>
    obtain ⟨hkept, hlargest⟩ := hw.best hwidth (fun u hu => ⟨_, hu⟩)
      fun hne => absurd (hfree hnot) hne
    refine ⟨⟨hw.1, hkept, fun _ => rfl⟩, fun d hd hd' => LaneConfig.le_of_width_le ?_ fun _ => ?_⟩
    · exact hlargest d.width (hd'.2 hpin.1 ▸ hd) hd'.1
    · exact hd'.2 hpin.1 ▸ UInt8.le_refl _
  | overall hnot hnot' hw hv =>
    obtain ⟨hkept, hwidest⟩ := hw.best hwidth (fun u hu => hu) fun hne => absurd (hfree hnot) hne
    obtain ⟨hkept', hrichest⟩ := hv.best hvariant (fun u hu => ⟨_, hu⟩)
      fun hne => absurd (hfree' hnot') hne
    refine ⟨⟨hv.1, hkept, hkept'⟩, fun d hd hd' => LaneConfig.le_of_width_le ?_ fun heq => ?_⟩
    · exact hwidest d.width ⟨d.variant, hd⟩ hd'.1
    · obtain ⟨w, v⟩ := d
      obtain rfl : w = _ := heq
      exact hrichest v hd hd'.2

lemma negotiate_of_nearest (h : s.nearest? request = some config) :
    (Meets config request → s.negotiate request = .ok config) ∧
      (¬Meets config request → s.negotiate request = .error (.unsupported request config)) := by
  have hiff : (request.width ≠ 0 ∧ config.width ≠ request.width ∨
      request.variant ≠ 0 ∧ config.variant ≠ request.variant) ↔ ¬Meets config request := by
    unfold Meets
    tauto
  unfold negotiate
  rw [h]
  exact ⟨fun hmeets => if_neg fun hbroken => hiff.mp hbroken hmeets,
    fun hnot => if_pos (hiff.mpr hnot)⟩

lemma nearest_of_negotiate {requested nearest : LaneConfig}
    (h : s.negotiate request = .error (.unsupported requested nearest)) :
    s.nearest? request = some nearest := by
  unfold negotiate at h
  split at h
  · cases h
  · next hnearest =>
    split at h
    · cases h
      exact hnearest
    · cases h

/-- **Negotiation is optimal and complete.** On a substrate put together from a list of pairs, a
request that some pair meets is granted with the best of those; else it is refused with the nearest
pair on offer; else there is nothing on offer. What is granted or named is granted when it is asked
for. -/
theorem Fixed.negotiate_optimal (hs : s.Fixed) (request : LaneConfig) :
    ((∃ c, s.supports c = true ∧ Meets c request) →
      ∃ best, s.negotiate request = .ok best ∧ s.IsBest request best) ∧
    ((∃ c, s.supports c = true) → (¬∃ c, s.supports c = true ∧ Meets c request) →
      ∃ nearest width variant, s.negotiate request = .error (.unsupported request nearest) ∧
        s.supports nearest = true ∧ Aims request.width s.offeredWidths width ∧
        Aims request.variant s.offeredVariants variant ∧
        s.IsNearest request width variant nearest) ∧
    ((¬∃ c, s.supports c = true) → s.negotiate request = .error .noConfiguration) ∧
    (∀ c, s.negotiate request = .ok c → s.negotiate c = .ok c) ∧
    (∀ requested nearest, s.negotiate request = .error (.unsupported requested nearest) →
      s.negotiate nearest = .ok nearest) := by
  have hfound : (∃ c, s.supports c = true) → ∃ config, s.nearest? request = some config := by
    rintro ⟨c, hc⟩
    rw [← Option.isSome_iff_exists, Option.isSome_iff_ne_none]
    exact fun hnone => not_supports_of_nearest_eq_none hnone c hc
  refine ⟨?_, ?_, ?_, ?_, ?_⟩
  · rintro ⟨c, hc, hmeets⟩
    obtain ⟨config, hconfig⟩ := hfound ⟨c, hc⟩
    obtain ⟨width, variant, hwidth, hvariant, hnearest⟩ := hs.isNearest hconfig
    have hbest := hnearest.isBest hwidth hvariant hc hmeets
    exact ⟨config, (negotiate_of_nearest hconfig).1 hbest.1.2, hbest⟩
  · intro hsome hnot
    obtain ⟨config, hconfig⟩ := hfound hsome
    obtain ⟨width, variant, hwidth, hvariant, hnearest⟩ := hs.isNearest hconfig
    have hsupported := hnearest.supports
    exact ⟨config, width, variant, (negotiate_of_nearest hconfig).2 fun hmeets =>
      hnot ⟨config, hsupported, hmeets⟩, hsupported, hwidth, hvariant, hnearest⟩
  · intro hnot
    rcases hn : s.nearest? request with _ | config
    · simp only [negotiate, hn]
    · exact absurd ⟨config, supports_nearest hn⟩ hnot
  · intro c hc
    exact hs.negotiate_self (supports_negotiate hc)
  · intro requested nearest hn
    exact hs.negotiate_self (supports_nearest (nearest_of_negotiate hn))

/-- A wide pair and a rich pair, one of them given twice, and one with a zero. -/
def crossed : Substrate := ofPairs [⟨4, 1⟩, ⟨2, 2⟩, ⟨0, 3⟩, ⟨4, 1⟩]

/-- The rich variant is granted at the width that it has, and refused together with the other
width. -/
theorem negotiate_crossed : crossed.Fixed ∧
    (∃ c, crossed.supports c = true ∧ Meets c ⟨0, 2⟩) ∧
    (∃ best, crossed.negotiate ⟨0, 2⟩ = .ok best ∧ crossed.IsBest ⟨0, 2⟩ best) ∧
    (¬∃ c, crossed.supports c = true ∧ Meets c ⟨4, 2⟩) ∧
    ∃ nearest width variant, crossed.negotiate ⟨4, 2⟩ = .error (.unsupported ⟨4, 2⟩ nearest) ∧
      crossed.supports nearest = true ∧ Aims 4 crossed.offeredWidths width ∧
      Aims 2 crossed.offeredVariants variant ∧
      crossed.IsNearest ⟨4, 2⟩ width variant nearest := by
  have hfixed : crossed.Fixed := .ofPairs _
  have hrich : ∃ c, crossed.supports c = true ∧ Meets c ⟨0, 2⟩ :=
    ⟨⟨2, 2⟩, supports_ofPairs_iff.mpr (by decide), nofun, fun _ => rfl⟩
  have hnone : ¬∃ c, crossed.supports c = true ∧ Meets c ⟨4, 2⟩ := by
    rintro ⟨⟨w, v⟩, hc, hmeets⟩
    obtain rfl : w = 4 := hmeets.1 (by decide)
    obtain rfl : v = 2 := hmeets.2 (by decide)
    exact absurd (supports_ofPairs_iff.mp hc) (by decide)
  exact ⟨hfixed, hrich, (hfixed.negotiate_optimal ⟨0, 2⟩).1 hrich, hnone,
    (hfixed.negotiate_optimal ⟨4, 2⟩).2.1 ⟨_, hrich.choose_spec.1⟩ hnone⟩

end Substrate
end SolidTrace
