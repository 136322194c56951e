import Mathlib.Algebra.Ring.Nat
import Mathlib.Data.List.TakeWhile
import SolidTrace.Proofs.Memory.Balance

/-!
The search for a place misses none.

The search jumps from block to block: it goes on behind the last block that starts before the end of
the candidate, and looks at no other one. `Probes` is this loop, for as many rounds as it takes.
A place at which the bytes fit is never jumped over, because a block that starts before the end of
the candidate and ends behind the place would lie in it. So the search ends at the first place or
before it, and a request is refused only when it fits nowhere, wherever the cursor stands.
-/

namespace SolidTrace

lemma validAlign_iff {align : ℕ} : validAlign align ↔ ∃ k, align = 2 ^ k := by
  constructor
  · exact fun h => ⟨align.log2, h.symm⟩
  · rintro ⟨k, rfl⟩
    rw [validAlign, Nat.log2_two_pow]
    rfl

/-- The least aligned address is there if any is: what is below the end of the addresses and aligned
leaves room for one more step. -/
lemma exists_alignUp? {k a address : ℕ} (hk : k < 64) (ha : a < addressLimit) (hdvd : 2 ^ k ∣ a)
    (hle : address ≤ a) : ∃ next, alignUp? address (2 ^ k) = some next ∧ next ≤ a := by
  have hpos : 0 < 2 ^ k := Nat.two_pow_pos k
  have hlimit : 2 ^ k ∣ addressLimit := Nat.pow_dvd_pow 2 (Nat.le_of_lt hk)
  have hroom : a + 2 ^ k ≤ addressLimit := by
    obtain ⟨m, rfl⟩ := hdvd
    obtain ⟨n, hn⟩ := hlimit
    rw [hn] at ha ⊢
    have hlt : m < n := Nat.lt_of_mul_lt_mul_left ha
    calc 2 ^ k * m + 2 ^ k = 2 ^ k * (m + 1) := (Nat.mul_succ ..).symm
      _ ≤ 2 ^ k * n := Nat.mul_le_mul_left _ hlt
  refine ⟨(address + (2 ^ k - 1)) / 2 ^ k * 2 ^ k, if_pos (by omega), ?_⟩
  obtain ⟨m, rfl⟩ := hdvd
  have hquotient : (address + (2 ^ k - 1)) / 2 ^ k ≤ m := by
    rw [← Nat.lt_succ_iff, Nat.div_lt_iff_lt_mul hpos, Nat.succ_mul, Nat.mul_comm m]
    omega
  rw [Nat.mul_comm (2 ^ k) m]
  exact Nat.mul_le_mul_right _ hquotient

namespace Blocks

variable {l : Blocks} {b c : Block} {limit : ℕ}

/-! ### Looking up -/

/-- The last block below a limit. -/
def lastBelow? (l : Blocks) (limit : ℕ) : Option Block :=
  List.find? (fun b => b.address < limit) l

lemma lt_of_lastBelow? (h : l.lastBelow? limit = some b) : b.address < limit := by
  simpa using List.find?_some h

lemma mem_of_lastBelow? (h : l.lastBelow? limit = some b) : b ∈ l := List.mem_of_find?_eq_some h

lemma Apart.lastBelow?_eq (h : l.Apart) (hb : b ∈ l) (hlt : b.address < limit)
    (hlast : ∀ c ∈ l, c.address < limit → c.address ≤ b.address) :
    l.lastBelow? limit = some b := by
  induction l with
  | nil => cases hb
  | cons c l ih =>
    have hhead := hlast c List.mem_cons_self
    by_cases hc : c.address < limit
    · -- the blocks after the first one lie below it
      rcases List.mem_cons.mp hb with rfl | hb
      · exact List.find?_cons_of_pos (by simpa using hc)
      · have hbelow := lt_of_behind_le (List.rel_of_pairwise_cons h hb)
        have hle := hhead hc
        omega
    · have hne : b ≠ c := by
        rintro rfl
        exact hc hlt
      rw [lastBelow?, List.find?_cons_of_neg (by simpa using hc)]
      exact ih h.of_cons (List.mem_of_ne_of_mem hne hb)
        fun d hd => hlast d (List.mem_cons_of_mem c hd)

lemma mem_of_mem_ascendingOnto {behind : List Block} (h : c ∈ ascendingOnto limit behind l) :
    c ∈ behind ∨ c ∈ l := by
  induction l generalizing behind with
  | nil => exact .inl h
  | cons b l ih =>
    unfold ascendingOnto at h
    split at h
    · rcases List.mem_cons.mp h with rfl | h
      · exact .inr List.mem_cons_self
      · exact .inl h
    · rcases ih h with h | h
      · rcases List.mem_cons.mp h with rfl | h
        · exact .inr List.mem_cons_self
        · exact .inl h
      · exact .inr (List.mem_cons_of_mem b h)

lemma find?_insert (l : Blocks) (b : Block) (address : ℕ) :
    (l.insert b).find? address = if address = b.address then some b else l.find? address := by
  induction l with
  | nil =>
    split
    · next h => exact find?_cons_of_eq h.symm []
    · next h => exact find?_cons_of_ne (Ne.symm h) []
  | cons c l ih =>
    rcases Nat.lt_trichotomy c.address b.address with hc | hc | hc
    · rw [insert, if_pos hc]
      split
      · next h => exact find?_cons_of_eq h.symm _
      · next h => exact find?_cons_of_ne (Ne.symm h) _
    · rw [insert_of_eq hc]
      split
      · next h => exact find?_cons_of_eq h.symm _
      · next h => rw [find?_cons_of_ne (Ne.symm h), find?_cons_of_ne (hc ▸ Ne.symm h)]
    · rw [insert_of_lt hc]
      by_cases h : c.address = address
      · rw [find?_cons_of_eq h, find?_cons_of_eq h, if_neg (by omega)]
      · rw [find?_cons_of_ne h, find?_cons_of_ne h, ih]

lemma Apart.bytes_le (h : l.Apart) {base stop : ℕ}
    (hinside : ∀ b ∈ l, base ≤ b.address ∧ b.address + b.size ≤ stop) :
    l.bytes ≤ stop - base := by
  induction l generalizing stop with
  | nil => exact Nat.zero_le _
  | cons b l ih =>
    obtain ⟨hbase, hstop⟩ := hinside b List.mem_cons_self
    have hbelow : bytes l ≤ b.address - base := by
      refine ih h.of_cons fun c hc => ?_
      have hbehind : c.behind ≤ b.address := List.rel_of_pairwise_cons h hc
      unfold Block.behind at hbehind
      exact ⟨(hinside c (List.mem_cons_of_mem b hc)).1, by omega⟩
    rw [bytes_cons]
    omega

end Blocks

namespace Region

open Blocks (Ascending)

variable {r : Region} {size align : ℕ}

/-! ### The loop -/

/-- The search from an address on, for as many rounds as it takes: it goes to the next aligned
candidate, asks for the last block that starts before the end of the candidate, and, where that one
is in the way, goes on behind it. -/
inductive Probes (r : Region) (size align : ℕ) : ℕ → Option ℕ → Prop
  | unaligned {start : ℕ} (aligned : alignUp? start align = none) : Probes r size align start none
  | beyond {start candidate : ℕ} (aligned : alignUp? start align = some candidate)
      (beyond : r.stop < candidate + size) : Probes r size align start none
  | free {start candidate : ℕ} (aligned : alignUp? start align = some candidate)
      (fits : candidate + size ≤ r.stop)
      (last : ∀ b, r.live.lastBelow? (limit size candidate) = some b →
        b.address + b.size ≤ candidate) : Probes r size align start (some candidate)
  | jump {start candidate : ℕ} {b : Block} {answer : Option ℕ}
      (aligned : alignUp? start align = some candidate) (fits : candidate + size ≤ r.stop)
      (last : r.live.lastBelow? (limit size candidate) = some b)
      (inTheWay : candidate < b.address + b.size) (rest : Probes r size align b.behind answer) :
      Probes r size align start answer

/-- What is left of the blocks tells the last one below the end of the candidate, if that one is in
the way at all: those that were left out lie below all others, and end before the candidate or
before a block that starts before its end. -/
structure Remaining (r : Region) (size candidate : ℕ) (blocks : List Block) : Prop where
  ascending : Ascending blocks
  live : ∀ b ∈ blocks, b ∈ r.live
  others : ∀ d ∈ r.live, d ∈ blocks ∨
    (∃ e ∈ blocks, e.address < limit size candidate ∧ d.behind ≤ e.address) ∨
    d.behind ≤ candidate ∧ ∀ e ∈ blocks, d.behind ≤ e.address

namespace Remaining

variable {blocks : List Block} {candidate : ℕ} {b : Block}

lemma ascendingFrom (h : r.live.Apart) (size candidate : ℕ) :
    r.Remaining size candidate (r.live.ascendingFrom (limit size candidate)) := by
  obtain ⟨hascending, -, hall⟩ :=
    Blocks.ascendingOnto_spec (limit size candidate) h .nil fun _ _ => nofun
  refine ⟨hascending, fun b hb => ?_, fun d hd => ?_⟩
  · rcases Blocks.mem_of_mem_ascendingOnto hb with hb | hb
    · cases hb
    · exact hb
  · exact (hall d hd).imp_right .inl

lemma mem_takeWhile (h : r.Remaining size candidate blocks) {e : Block} (he : e ∈ blocks)
    (hlt : e.address < limit size candidate) :
    e ∈ blocks.takeWhile fun b => b.address < limit size candidate := by
  rw [← List.takeWhile_append_dropWhile
    (p := fun b => decide (b.address < limit size candidate)) (l := blocks)] at he
  rcases List.mem_append.mp he with he | he
  · exact he
  · have hle := h.ascending.limit_le e he
    omega

/-- Where no block that is left starts below the limit, none at all is in the way. -/
lemma clear (h : r.Remaining size candidate blocks)
    (hnone : (blocks.takeWhile fun b => b.address < limit size candidate).getLast? = none)
    (hb : r.live.lastBelow? (limit size candidate) = some b) : b.address + b.size ≤ candidate := by
  have hempty : ∀ e ∈ blocks, ¬e.address < limit size candidate := by
    intro e he hlt
    have hmem := h.mem_takeWhile he hlt
    rw [List.getLast?_eq_none_iff.mp hnone] at hmem
    cases hmem
  have hlt := Blocks.lt_of_lastBelow? hb
  rcases h.others b (Blocks.mem_of_lastBelow? hb) with hmem | ⟨e, he, helt, -⟩ | ⟨hbehind, -⟩
  · exact absurd hlt (hempty b hmem)
  · exact absurd helt (hempty e he)
  · unfold Block.behind at hbehind
    omega

/-- Where a block that is left starts below the limit, the last such one is the last of all. -/
lemma lastBelow?_eq (h : r.Remaining size candidate blocks) (hr : r.live.Apart)
    (hb : (blocks.takeWhile fun b => b.address < limit size candidate).getLast? = some b) :
    r.live.lastBelow? (limit size candidate) = some b := by
  have hmem := List.mem_of_getLast? hb
  have hlt : b.address < limit size candidate := by simpa using List.mem_takeWhile_imp hmem
  have hblocks : b ∈ blocks := (List.takeWhile_sublist _).subset hmem
  have hlast : ∀ e ∈ blocks, e.address < limit size candidate → e.address ≤ b.address := by
    intro e he helt
    rcases h.ascending.behind_le_last (List.takeWhile_sublist _) hb (h.mem_takeWhile he helt) with
      rfl | hbehind
    · exact Nat.le_refl _
    · exact Nat.le_of_lt (Blocks.lt_of_behind_le hbehind)
  refine hr.lastBelow?_eq (h.live b hblocks) hlt fun d hd hdlt => ?_
  rcases h.others d hd with hd | ⟨e, he, helt, hbehind⟩ | ⟨-, hbehind⟩
  · exact hlast d hd hdlt
  · have hle := hlast e he helt
    have hbelow := Blocks.lt_of_behind_le hbehind
    omega
  · exact Nat.le_of_lt (Blocks.lt_of_behind_le (hbehind b hblocks))

lemma dropWhile (h : r.Remaining size candidate blocks)
    (hb : (blocks.takeWhile fun b => b.address < limit size candidate).getLast? = some b)
    (hway : candidate < b.behind) {next : ℕ} (hnext : b.behind ≤ next) :
    r.Remaining size next (blocks.dropWhile fun b => b.address < limit size candidate) := by
  have hsplit := List.takeWhile_append_dropWhile
    (p := fun b => decide (b.address < limit size candidate)) (l := blocks)
  have hascending := h.ascending
  rw [← hsplit] at hascending
  have hapart := (List.pairwise_append.mp hascending).2.2
  -- what starts below the limit lies below the next candidate and below what is left
  have hleft : ∀ d ∈ blocks.takeWhile fun b => b.address < limit size candidate,
      d.behind ≤ next ∧ ∀ e ∈ blocks.dropWhile fun b => b.address < limit size candidate,
        d.behind ≤ e.address := by
    refine fun d hd => ⟨?_, hapart d hd⟩
    rcases h.ascending.behind_le_last (List.takeWhile_sublist _) hb hd with rfl | hbehind
    · exact hnext
    · have hle : b.address ≤ b.behind := Nat.le_add_right ..
      omega
  refine ⟨h.ascending.sublist (List.dropWhile_sublist _),
    fun d hd => h.live d ((List.dropWhile_sublist _).subset hd), fun d hd => ?_⟩
  rcases h.others d hd with hd | ⟨e, he, helt, hbehind⟩ | ⟨hbehind, hothers⟩
  · rw [← hsplit] at hd
    exact (List.mem_append.mp hd).elim (fun hd => .inr (.inr (hleft d hd))) .inl
  · obtain ⟨henext, heothers⟩ := hleft e (h.mem_takeWhile he helt)
    have hle : e.address ≤ e.behind := Nat.le_add_right ..
    refine .inr (.inr ⟨by omega, fun f hf => ?_⟩)
    have hf := heothers f hf
    omega
  · refine .inr (.inr ⟨by omega, fun f hf => hothers f ?_⟩)
    exact (List.dropWhile_sublist _).subset hf

end Remaining

/-- The rounds of the search among what is left of the blocks. -/
lemma probes_probeAmong? (hr : r.live.Apart) (halign : 0 < align) {blocks : List Block}
    {candidate : ℕ} (h : r.Remaining size candidate blocks) :
    ∀ start, alignUp? start align = some candidate →
      r.Probes size align start (probeAmong? r.stop size align blocks candidate) := by
  fun_induction probeAmong? r.stop size align blocks candidate with
  | case1 blocks candidate hbeyond => exact fun _ hcandidate => .beyond hcandidate hbeyond
  | case2 blocks candidate hfits hlast =>
    exact fun _ hcandidate => .free hcandidate (by omega) fun b hb => h.clear hlast hb
  | case3 blocks candidate hfits b hlast hend =>
    refine fun _ hcandidate => .free hcandidate (by omega) fun c hc => ?_
    obtain rfl := Option.some.inj ((h.lastBelow?_eq hr hlast).symm.trans hc)
    exact hend
  | case4 blocks candidate hfits b hlast hend hnone =>
    exact fun _ hcandidate =>
      .jump hcandidate (by omega) (h.lastBelow?_eq hr hlast) (by omega) (.unaligned hnone)
  | case5 blocks candidate hfits b hlast hend next hnext behind ih =>
    have hbehind : b.behind ≤ next := le_of_alignUp? halign hnext
    have hway : candidate < b.behind := by
      unfold Block.behind
      omega
    have hrest := ih (h.dropWhile hlast hway hbehind) b.behind hnext
    exact fun _ hcandidate =>
      .jump hcandidate (by omega) (h.lastBelow?_eq hr hlast) (by omega) hrest

/-- **The search ends**, wherever it starts. -/
theorem probes_probe? (hr : r.live.Apart) (halign : 0 < align) (start : ℕ) :
    r.Probes size align start (r.probe? size align start) := by
  unfold probe?
  cases hcandidate : alignUp? start align with
  | none => exact .unaligned hcandidate
  | some candidate =>
    have hremaining := Remaining.ascendingFrom hr size candidate
    exact probes_probeAmong? hr halign hremaining start hcandidate

/-- So many bytes fit at an address: it is aligned and within the region, and no address of their
room, that of a byte at least, belongs to the room of a recorded block. -/
structure Fits (r : Region) (size align a : ℕ) : Prop where
  aligned : align ∣ a
  inside : r.base ≤ a ∧ a + size ≤ r.stop
  apart : ∀ b ∈ r.live, ∀ x, a ≤ x ∧ x < a + max size 1 → ¬(b.address ≤ x ∧ x < b.behind)

lemma Fits.behind_le {a : ℕ} (h : r.Fits size align a) {b : Block} (hb : b ∈ r.live)
    (hlt : b.address < limit size a) : b.behind ≤ a := by
  -- the later one of the two starts would belong to both
  have hapart := h.apart b hb (max a b.address)
  unfold limit at hlt
  unfold Block.behind at hapart ⊢
  omega

/-- **No place is jumped over**: the search ends at a place where the bytes fit, or before it. -/
theorem Probes.le_of_fits {k start : ℕ} {answer : Option ℕ} (h : r.Probes size (2 ^ k) start answer)
    (hk : k < 64) (hstop : r.stop < addressLimit) {a : ℕ} (hstart : start ≤ a)
    (ha : r.Fits size (2 ^ k) a) : ∃ found, answer = some found ∧ found ≤ a := by
  have hlimit : a < addressLimit := by
    have hend := ha.inside.2
    omega
  induction h with
  | unaligned hnone =>
    obtain ⟨next, hnext, -⟩ := exists_alignUp? hk hlimit ha.aligned hstart
    cases hnone.symm.trans hnext
  | beyond hsome hbeyond =>
    obtain ⟨next, hnext, hle⟩ := exists_alignUp? hk hlimit ha.aligned hstart
    obtain rfl := Option.some.inj (hsome.symm.trans hnext)
    have hend := ha.inside.2
    omega
  | free hsome =>
    obtain ⟨next, hnext, hle⟩ := exists_alignUp? hk hlimit ha.aligned hstart
    obtain rfl := Option.some.inj (hsome.symm.trans hnext)
    exact ⟨_, rfl, hle⟩
  | @jump start candidate b answer hsome hfits hlast hway hrest ih =>
    obtain ⟨next, hnext, hle⟩ := exists_alignUp? hk hlimit ha.aligned hstart
    obtain rfl := Option.some.inj (hsome.symm.trans hnext)
    have hbelow : b.address < limit size a :=
      Nat.lt_of_lt_of_le (Blocks.lt_of_lastBelow? hlast) (limit_mono hle)
    exact ih (ha.behind_le (Blocks.mem_of_lastBelow? hlast) hbelow)

/-! ### Requests -/

lemma Sound.allocated_le (h : r.Sound) : r.allocated ≤ r.capacity := by
  rw [h.balance]
  exact h.apart.bytes_le h.inside

lemma allocate_stop (r : Region) (size align : ℕ) : (r.allocate size align).2.stop = r.stop := by
  unfold allocate
  split
  · split
    · rfl
    · dsimp only
      split <;> rfl
  · rfl

lemma stop_lt_addressLimit {a : Allocator} (h : a.Reachable) :
    ∀ r, a = .region r → r.stop < addressLimit := by
  induction h with
  | heap budget => exact fun r hr => nomatch hr
  | region base capacity =>
    rintro r ⟨⟩
    have hpos : 0 < addressLimit := Nat.two_pow_pos 64
    dsimp only [ofCapacity]
    omega
  | @allocated a _ size align ih =>
    rintro r hr
    cases a with
    | heap h => cases hr
    | region s =>
      have hs : (s.allocate size align).2 = r := Allocator.region.inj hr
      rw [← hs, allocate_stop]
      exact ih s rfl
  | @freed a _ b ih =>
    rintro r hr
    cases a with
    | heap h => cases hr
    | region s =>
      have hs : s.free b.address = r := Allocator.region.inj hr
      rw [← hs, (s.free_bounds b.address).2.1]
      exact ih s rfl

variable {r' : Region} {b : Block} {k : ℕ}

lemma exists_probe? (h : (Allocator.region r).Reachable) (hk : k < 64) {start a : ℕ}
    (hstart : start ≤ a) (ha : r.Fits size (2 ^ k) a) :
    ∃ found, r.probe? size (2 ^ k) start = some found := by
  have hsearch : r.Probes size (2 ^ k) start (r.probe? size (2 ^ k) start) :=
    probes_probe? h.sound.apart (Nat.two_pow_pos k) start
  obtain ⟨found, hfound, -⟩ := hsearch.le_of_fits hk (stop_lt_addressLimit h r rfl) hstart ha
  exact ⟨found, hfound⟩

lemma allocate_error_cases {e : AllocError} (halign : validAlign align)
    (ha : r.allocate size align = (.error e, r')) :
    r.probe? size align r.base = none ∧ e = .exhausted size (r.capacity - r.allocated) ∧
      r' = { r with wraps := r.wraps + 1 } := by
  unfold allocate at ha
  rw [if_pos halign] at ha
  split at ha
  · cases congrArg Prod.fst ha
  · split at ha
    · cases congrArg Prod.fst ha
    · next hprobe =>
      obtain ⟨he, rfl⟩ := Prod.mk.inj ha
      exact ⟨hprobe, (Except.error.inj he).symm, rfl⟩

/-- What the search from the cursor finds is handed out, and the search does not start over. -/
lemma allocate_eq_of_probe? (halign : validAlign align) {a : ℕ}
    (ha : r.probe? size align r.cursor = some a) :
    r.allocate size align = (.ok ⟨a, size⟩, r.take ⟨a, size⟩) := by
  unfold allocate
  rw [if_pos halign, ha]

end Region

/-- **A region refuses a request only when it must.** The search ends wherever it starts. What is
refused fits nowhere, and the refusal tells what is left and changes nothing but the count of
searches that started over. What is handed out is recorded beside the other blocks, and from the
cursor on where it fits there. An alignment that is no power of two is refused outright. -/
theorem Region.allocate_exhaustive {r : Region} (h : (Allocator.region r).Reachable) {k : ℕ}
    (hk : k < 64) (size : ℕ) :
    (∀ start, r.Probes size (2 ^ k) start (r.probe? size (2 ^ k) start)) ∧
    r.allocated ≤ r.capacity ∧
    (∀ e r', r.allocate size (2 ^ k) = (.error e, r') →
      (∀ a, ¬r.Fits size (2 ^ k) a) ∧ e = .exhausted size (r.capacity - r.allocated) ∧
        r' = { r with wraps := r.wraps + 1 }) ∧
    (∀ b r', r.allocate size (2 ^ k) = (.ok b, r') →
      b.size = size ∧ r'.live.find? b.address = some b ∧
      (∀ address, address ≠ b.address → r'.live.find? address = r.live.find? address) ∧
      r'.allocated = r.allocated + size ∧
      ∀ a, r.Fits size (2 ^ k) a → r.cursor ≤ a → r.cursor ≤ b.address ∧ r'.wraps = r.wraps) ∧
    ∀ align, (∀ k, align ≠ 2 ^ k) → r.allocate size align = (.error (.invalidAlign align), r) := by
  have hsound : r.Sound := h.sound
  have halign : validAlign (2 ^ k) := validAlign_iff.mpr ⟨k, rfl⟩
  refine ⟨fun start => Region.probes_probe? hsound.apart halign.pos start, hsound.allocated_le,
    fun e r' ha => ?_, fun b r' ha => ?_, fun align hinvalid => if_neg fun hvalid => ?_⟩
  · obtain ⟨hprobe, he, hr'⟩ := Region.allocate_error_cases halign ha
    refine ⟨fun a hfits => ?_, he, hr'⟩
    obtain ⟨found, hfound⟩ := Region.exists_probe? h hk hfits.inside.1 hfits
    cases hprobe.symm.trans hfound
  · have hgrants := Region.allocate_ok hsound ha
    refine ⟨hgrants.size_eq, ?_, fun address hne => ?_, ?_, fun a hfits hcursor => ?_⟩
    · rw [hgrants.live, Blocks.find?_insert, if_pos rfl]
    · rw [hgrants.live, Blocks.find?_insert, if_neg hne]
    · rw [hgrants.allocated, hgrants.size_eq]
    · obtain ⟨found, hfound⟩ := Region.exists_probe? h hk hcursor hfits
      obtain ⟨hstart, -⟩ := Region.probe?_some halign.pos hsound.apart hfound
      rw [Region.allocate_eq_of_probe? halign hfound] at ha
      obtain ⟨hb, rfl⟩ := Prod.mk.inj ha
      obtain rfl := Except.ok.inj hb
      exact ⟨hstart, rfl⟩
  · obtain ⟨k, hk⟩ := validAlign_iff.mp hvalid
    exact hinvalid k hk

/-- A region of three blocks of eight bytes, of which the middle one is taken. -/
def Region.holed : Region := ⟨16, 40, 32, [⟨24, 8⟩], 8, 0⟩

/-- Sixteen bytes are left, but not in one place. -/
theorem Region.allocate_exhaustive_holed :
    (Allocator.region holed).Reachable ∧ (∀ a, ¬holed.Fits 16 (2 ^ 3) a) ∧
      holed.allocate 16 (2 ^ 3) = (.error (.exhausted 16 16), { holed with wraps := 1 }) := by
  have hholed : Allocator.region holed =
      (((Allocator.region (.ofCapacity 16 24)).allocate 8 8).2.allocate 8 8).2.free ⟨16, 8⟩ := by
    decide +kernel
  have hreachable : (Allocator.region holed).Reachable := by
    rw [hholed]
    exact .freed (.allocated (.allocated (.region 16 24) 8 8) 8 8) ⟨16, 8⟩
  have hrefused : holed.allocate 16 (2 ^ 3) =
      (.error (.exhausted 16 16), { holed with wraps := 1 }) := by decide +kernel
  obtain ⟨-, -, hexhausted, -⟩ := Region.allocate_exhaustive hreachable (k := 3) (by decide) 16
  exact ⟨hreachable, (hexhausted _ _ hrefused).1, hrefused⟩

end SolidTrace
