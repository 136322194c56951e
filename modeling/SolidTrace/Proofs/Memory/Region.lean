import SolidTrace.Proofs.Memory.Blocks

/-!
Regions and their blocks.

The search for a place looks at one block a time, the last of those that start before the end of the
candidate. That is enough: the blocks before it end where it starts. A place that is found is
aligned, within the region, and clear of all live blocks, so the records of a region stay apart and
within it, and their bytes are its balance, whatever is asked for or given back.
-/

namespace SolidTrace

lemma dvd_of_alignUp? {address align a : ℕ} (h : alignUp? address align = some a) : align ∣ a := by
  unfold alignUp? at h
  split at h
  · obtain rfl := Option.some.inj h
    exact Nat.dvd_mul_left align _
  · cases h

namespace Blocks

/-- Every block lies wholly below the ones behind it. -/
def Ascending (l : List Block) : Prop := l.Pairwise fun b c => b.behind ≤ c.address

lemma Ascending.limit_le {l : List Block} {limit : ℕ} (h : Ascending l) :
    ∀ c ∈ l.dropWhile fun b => b.address < limit, limit ≤ c.address := by
  induction l with
  | nil => exact nofun
  | cons b l ih =>
    by_cases hb : b.address < limit
    · rw [List.dropWhile_cons_of_pos (by simpa using hb)]
      exact ih h.of_cons
    · rw [List.dropWhile_cons_of_neg (by simpa using hb)]
      refine List.forall_mem_cons.mpr ⟨Nat.le_of_not_lt hb, fun c hc => ?_⟩
      have hbehind := lt_of_behind_le (List.rel_of_pairwise_cons h hc)
      omega

lemma Ascending.behind_le_last {l m : List Block} {b c : Block} (h : Ascending l) (hm : m.Sublist l)
    (hb : m.getLast? = some b) (hc : c ∈ m) : c = b ∨ c.behind ≤ b.address := by
  obtain ⟨init, rfl⟩ := List.getLast?_eq_some_iff.mp hb
  rcases List.mem_append.mp hc with hc | hc
  · exact .inr ((List.pairwise_append.mp (h.sublist hm)).2.2 c hc b List.mem_cons_self)
  · exact .inl (List.mem_singleton.mp hc)

/-- The blocks that the search looks at: they ascend, and all others lie below one of them that
starts below the limit. -/
lemma ascendingOnto_spec (limit : ℕ) {l : Blocks} (h : l.Apart) {behind : List Block}
    (hbehind : Ascending behind) (hbelow : ∀ b ∈ l, ∀ c ∈ behind, b.behind ≤ c.address) :
    Ascending (ascendingOnto limit behind l) ∧
      (∀ c ∈ behind, c ∈ ascendingOnto limit behind l) ∧
      ∀ c ∈ l, c ∈ ascendingOnto limit behind l ∨
        ∃ b ∈ ascendingOnto limit behind l, b.address < limit ∧ c.behind ≤ b.address := by
  induction l generalizing behind with
  | nil => exact ⟨hbehind, fun _ hc => hc, nofun⟩
  | cons b l ih =>
    have hb : Ascending (b :: behind) :=
      List.pairwise_cons.mpr ⟨hbelow b List.mem_cons_self, hbehind⟩
    unfold ascendingOnto
    split
    · next hlimit =>
      refine ⟨hb, fun c hc => List.mem_cons_of_mem b hc, fun c hc => ?_⟩
      rcases List.mem_cons.mp hc with rfl | hc
      · exact .inl List.mem_cons_self
      · exact .inr ⟨b, List.mem_cons_self, hlimit, List.rel_of_pairwise_cons h hc⟩
    · have hnext : ∀ c ∈ l, ∀ d ∈ b :: behind, c.behind ≤ d.address := fun c hc =>
        List.forall_mem_cons.mpr
          ⟨List.rel_of_pairwise_cons h hc, hbelow c (List.mem_cons_of_mem b hc)⟩
      obtain ⟨hascending, hkept, hall⟩ := ih h.of_cons hb hnext
      refine ⟨hascending, fun c hc => hkept c (List.mem_cons_of_mem b hc), ?_⟩
      exact List.forall_mem_cons.mpr ⟨.inl (hkept b List.mem_cons_self), hall⟩

end Blocks

namespace Region

open Blocks (Ascending)

lemma limit_mono {size a b : ℕ} (h : a ≤ b) : limit size a ≤ limit size b := by
  unfold limit
  omega

/-- **A place that is found among blocks is clear of them.** -/
lemma probeAmong?_some {stop size align candidate a : ℕ} {blocks : List Block} (halign : 0 < align)
    (h : Ascending blocks) (hdvd : align ∣ candidate)
    (ha : probeAmong? stop size align blocks candidate = some a) :
    candidate ≤ a ∧ align ∣ a ∧ a + size ≤ stop ∧ Blocks.Clear blocks size a := by
  fun_induction probeAmong? stop size align blocks candidate with
  | case1 => cases ha
  -- no block starts before the end of the place
  | case2 blocks candidate hfits hlast =>
    obtain rfl := Option.some.inj ha
    refine ⟨Nat.le_refl _, hdvd, by omega, fun c hc => .inr (h.limit_le c ?_)⟩
    rw [← List.takeWhile_append_dropWhile
      (p := fun b => decide (b.address < limit size candidate)) (l := blocks)] at hc
    rw [List.getLast?_eq_none_iff.mp hlast, List.nil_append] at hc
    exact hc
  -- the last one that does ends before the place
  | case3 blocks candidate hfits b hlast hend =>
    obtain rfl := Option.some.inj ha
    refine ⟨Nat.le_refl _, hdvd, by omega, fun c hc => ?_⟩
    rw [← List.takeWhile_append_dropWhile
      (p := fun b => decide (b.address < limit size candidate)) (l := blocks)] at hc
    rcases List.mem_append.mp hc with hc | hc
    · left
      rcases h.behind_le_last (List.takeWhile_sublist _) hlast hc with rfl | hc
      · exact hend
      · unfold Block.behind at hc
        omega
    · exact .inr (h.limit_le c hc)
  | case4 => cases ha
  -- it does not, and the search goes on behind it
  | case5 blocks candidate hfits b hlast hend next hnext behind ih =>
    have hle : b.behind ≤ next := le_of_alignUp? halign hnext
    obtain ⟨hnexta, halignment, hstop, hclear⟩ :=
      ih (h.sublist (List.dropWhile_sublist _)) (dvd_of_alignUp? hnext) ha
    have hb : candidate < b.behind := by
      unfold Block.behind
      omega
    refine ⟨by omega, halignment, hstop, fun c hc => ?_⟩
    rw [← List.takeWhile_append_dropWhile
      (p := fun b => decide (b.address < limit size candidate)) (l := blocks)] at hc
    rcases List.mem_append.mp hc with hc | hc
    · left
      have hsize : c.address + c.size ≤ c.behind := by
        unfold Block.behind
        omega
      rcases h.behind_le_last (List.takeWhile_sublist _) hlast hc with rfl | hc
      · omega
      · have hlt := Blocks.lt_of_behind_le hle
        omega
    · exact hclear c hc

/-- **A place that is found is clear of all live blocks.** -/
lemma probe?_some {r : Region} {size align start a : ℕ} (halign : 0 < align) (h : r.live.Apart)
    (ha : r.probe? size align start = some a) :
    start ≤ a ∧ align ∣ a ∧ a + size ≤ r.stop ∧ r.live.Clear size a := by
  obtain ⟨candidate, hcandidate, hprobe⟩ := Option.bind_eq_some_iff.mp ha
  obtain ⟨hascending, -, hall⟩ :=
    Blocks.ascendingOnto_spec (limit size candidate) h .nil fun _ _ => nofun
  obtain ⟨hle, hdvd, hstop, hclear⟩ :=
    probeAmong?_some halign hascending (dvd_of_alignUp? hcandidate) hprobe
  refine ⟨Nat.le_trans (le_of_alignUp? halign hcandidate) hle, hdvd, hstop, fun c hc => ?_⟩
  rcases hall c hc with hc | ⟨b, hb, hlimit, hbehind⟩
  · exact hclear c hc
  · -- blocks that are left out end before one that starts below the limit
    left
    have hlimits : limit size candidate ≤ limit size a := limit_mono hle
    have hb := hclear b hb
    unfold Block.behind at hbehind
    omega

/-- The records lie apart within the region, and their bytes are its balance. -/
structure Sound (r : Region) : Prop where
  apart : r.live.Apart
  inside : ∀ b ∈ r.live, r.base ≤ b.address ∧ b.address + b.size ≤ r.stop
  balance : r.allocated = r.live.bytes
  cursor : r.base ≤ r.cursor

variable {r r' : Region} {b : Block} {size align : ℕ}

lemma sound_ofCapacity (base capacity : ℕ) : (ofCapacity base capacity).Sound :=
  ⟨.nil, nofun, rfl, Nat.le_refl _⟩

/-- A block has been handed out: it lies aligned within the region, clear of all live ones, and is
recorded. -/
structure Grants (r : Region) (size align : ℕ) (b : Block) (r' : Region) : Prop where
  size_eq : b.size = size
  aligned : align ∣ b.address
  inside : r.base ≤ b.address ∧ b.address + b.size ≤ r.stop
  clear : r.live.Clear b.size b.address
  live : r'.live = r.live.insert b
  allocated : r'.allocated = r.allocated + b.size
  cursor : r'.cursor = b.behind
  bounds : r'.base = r.base ∧ r'.stop = r.stop

lemma allocate_ok (h : r.Sound) (ha : r.allocate size align = (.ok b, r')) :
    r.Grants size align b r' := by
  unfold allocate at ha
  split at ha
  · next halign =>
    split at ha
    · next address hprobe =>
      obtain ⟨hstart, hdvd, hstop, hclear⟩ := probe?_some halign.pos h.apart hprobe
      obtain ⟨hb, rfl⟩ := Prod.mk.inj ha
      obtain rfl := Except.ok.inj hb
      exact ⟨rfl, hdvd, ⟨Nat.le_trans h.cursor hstart, hstop⟩, hclear, rfl, rfl, rfl, rfl, rfl⟩
    · -- the search goes on from the start of the region
      split at ha
      · next address hprobe =>
        obtain ⟨hstart, hdvd, hstop, hclear⟩ := probe?_some halign.pos h.apart hprobe
        obtain ⟨hb, rfl⟩ := Prod.mk.inj ha
        obtain rfl := Except.ok.inj hb
        exact ⟨rfl, hdvd, ⟨hstart, hstop⟩, hclear, rfl, rfl, rfl, rfl, rfl⟩
      · cases congrArg Prod.fst ha
  · cases congrArg Prod.fst ha

/-- A request that is refused at most starts the search over. -/
lemma allocate_error {e : AllocError} (ha : r.allocate size align = (.error e, r')) :
    r' = { r with wraps := r'.wraps } := by
  unfold allocate at ha
  split at ha
  · split at ha
    · cases congrArg Prod.fst ha
    · split at ha
      · cases congrArg Prod.fst ha
      · obtain rfl := congrArg Prod.snd ha
        rfl
  · obtain rfl := congrArg Prod.snd ha
    rfl

namespace Grants

lemma occupied (h : r.Grants size align b r') (hr : r.Sound) :
    r'.live.occupied = if b.size = 0 then r.live.occupied else r.live.occupied.insert b := by
  rw [h.live, Blocks.occupied_insert hr.apart h.clear]

/-- **Handing out a block keeps a region sound.** -/
lemma sound (h : r.Grants size align b r') (hr : r.Sound) : r'.Sound := by
  obtain ⟨hbase, hstop⟩ := h.bounds
  refine ⟨?_, fun c hc => ?_, ?_, ?_⟩
  · rw [h.live]
    exact hr.apart.insert h.clear
  · rw [hbase, hstop]
    rw [h.live] at hc
    rcases Blocks.mem_of_mem_insert hc with rfl | hc
    · exact h.inside
    · exact hr.inside c hc
  · rw [h.allocated, hr.balance, ← r.live.bytes_occupied, ← r'.live.bytes_occupied, h.occupied hr]
    split
    · next hempty => rw [hempty, Nat.add_zero]
    · exact (Blocks.bytes_insert h.clear.address_ne).symm
  · rw [hbase, h.cursor]
    exact Nat.le_trans h.inside.1 (Nat.le_add_right _ _)

end Grants

lemma free_live (r : Region) (address : ℕ) : (r.free address).live = r.live.erase address := by
  unfold free
  split
  · next h => exact (Blocks.erase_of_find?_eq_none h).symm
  · rfl

lemma free_bounds (r : Region) (address : ℕ) :
    (r.free address).base = r.base ∧ (r.free address).stop = r.stop ∧
      (r.free address).cursor = r.cursor := by
  unfold free
  split <;> exact ⟨rfl, rfl, rfl⟩

/-- **Giving back any address keeps a region sound.** -/
lemma Sound.free (h : r.Sound) (address : ℕ) : (r.free address).Sound := by
  obtain ⟨hbase, hstop, hcursor⟩ := r.free_bounds address
  refine ⟨?_, fun b hb => ?_, ?_, ?_⟩
  · rw [free_live]
    exact h.apart.erase address
  · rw [hbase, hstop]
    rw [free_live] at hb
    exact h.inside b (Blocks.mem_of_mem_erase hb)
  · have hbalance := h.balance
    unfold Region.free
    split
    · exact hbalance
    · next b hb =>
      have hbytes := Blocks.bytes_erase hb
      dsimp only
      omega
  · rw [hbase, hcursor]
    exact h.cursor

lemma Sound.of_error (h : r.Sound) {e : AllocError}
    (ha : r.allocate size align = (.error e, r')) : r'.Sound := by
  rw [allocate_error ha]
  exact ⟨h.apart, h.inside, h.balance, h.cursor⟩

end Region

end SolidTrace
