import SolidTrace.Memory.Ledger
import SolidTrace.Proofs.Memory.Region

/-!
Balances.

An allocator of either kind has the blocks that hold bytes as its holdings, and their bytes as its
balance. What a ledger takes comes to the holdings; when the ledger is released, the newest block
first, the holdings are again what they were. The order matters: a block of the ledger may start
where an older empty one does, and the record at that address is then the newer block's.
-/

namespace SolidTrace

/-! ### Heaps -/

namespace Heap

/-- The records lie apart below the next address, and their bytes are the balance of the heap. -/
structure Sound (h : Heap) : Prop where
  apart : h.live.Apart
  below : ∀ b ∈ h.live, b.behind ≤ h.next
  balance : h.allocated = h.live.bytes

variable {h h' : Heap} {b : Block} {size align : ℕ}

lemma sound_ofBudget (budget : Option ℕ) : (ofBudget budget).Sound := ⟨.nil, nofun, rfl⟩

lemma allocate_ok (ha : h.allocate size align = (.ok b, h')) :
    b.size = size ∧ h.next ≤ b.address ∧
      h' = { h with
        live := h.live.insert b
        allocated := h.allocated + b.size
        next := b.behind } := by
  unfold allocate at ha
  split at ha
  · cases congrArg Prod.fst ha
  · next halign =>
    split at ha
    · cases congrArg Prod.fst ha
    · split at ha
      · cases congrArg Prod.fst ha
      · next address haddress =>
        have hle := le_of_alignUp? (validAlign.pos (not_not.mp halign)) haddress
        obtain ⟨hb, rfl⟩ := Prod.mk.inj ha
        obtain rfl := Except.ok.inj hb
        exact ⟨rfl, by dsimp only; omega, rfl⟩

lemma allocate_error {e : AllocError} (ha : h.allocate size align = (.error e, h')) : h' = h := by
  unfold allocate at ha
  split at ha
  · exact (congrArg Prod.snd ha).symm
  · split at ha
    · exact (congrArg Prod.snd ha).symm
    · split at ha
      · exact (congrArg Prod.snd ha).symm
      · cases congrArg Prod.fst ha

lemma Sound.clear (hs : h.Sound) (hnext : h.next ≤ b.address) : h.live.Clear b.size b.address := by
  intro c hc
  have hbelow := hs.below c hc
  unfold Block.behind at hbelow
  omega

lemma Sound.allocate (hs : h.Sound) (ha : h.allocate size align = (.ok b, h')) : h'.Sound := by
  obtain ⟨-, hnext, rfl⟩ := allocate_ok ha
  have hne : ∀ c ∈ h.live, c.address ≠ b.address := fun c hc =>
    Nat.ne_of_lt (Blocks.lt_of_behind_le (Nat.le_trans (hs.below c hc) hnext))
  refine ⟨hs.apart.insert (hs.clear hnext), fun c hc => ?_, ?_⟩
  · rcases Blocks.mem_of_mem_insert hc with rfl | hc
    · exact Nat.le_refl _
    · exact Nat.le_trans (hs.below c hc) (Nat.le_trans hnext (Nat.le_add_right _ _))
  · dsimp only
    rw [Blocks.bytes_insert hne, hs.balance]

lemma free_live (h : Heap) (address : ℕ) : (h.free address).live = h.live.erase address := by
  unfold free
  split
  · next hnone => exact (Blocks.erase_of_find?_eq_none hnone).symm
  · rfl

lemma Sound.free (hs : h.Sound) (address : ℕ) : (h.free address).Sound := by
  have hnext : (h.free address).next = h.next := by
    unfold Heap.free
    split <;> rfl
  refine ⟨?_, fun b hb => ?_, ?_⟩
  · rw [free_live]
    exact hs.apart.erase address
  · rw [hnext]
    rw [free_live] at hb
    exact hs.below b (Blocks.mem_of_mem_erase hb)
  · have hbalance := hs.balance
    unfold Heap.free
    split
    · exact hbalance
    · next b hb =>
      have hbytes := Blocks.bytes_erase hb
      dsimp only
      omega

end Heap

/-! ### Allocators -/

namespace Allocator

def live : Allocator → Blocks
  | heap h => h.live
  | region r => r.live

/-- The live blocks that hold bytes. -/
def holdings (a : Allocator) : Blocks := a.live.occupied

def Sound : Allocator → Prop
  | heap h => h.Sound
  | region r => r.Sound

/-- A heap or a region after any requests, and after any blocks have been given back, whoever had
them. -/
inductive Reachable : Allocator → Prop
  | heap (budget : Option ℕ) : Reachable (.heap (.ofBudget budget))
  | region (base capacity : ℕ) : Reachable (.region (.ofCapacity base capacity))
  | allocated {a : Allocator} (h : Reachable a) (size align : ℕ) :
      Reachable (a.allocate size align).2
  | freed {a : Allocator} (h : Reachable a) (b : Block) : Reachable (a.free b)

variable {a a' : Allocator} {b : Block} {size align : ℕ}

lemma Sound.apart (h : a.Sound) : a.live.Apart := by
  cases a with
  | heap => exact Heap.Sound.apart h
  | region => exact Region.Sound.apart h

/-- **The balance** of an allocator is the bytes of its holdings. -/
lemma Sound.allocated_eq (h : a.Sound) : a.allocated = a.holdings.bytes := by
  rw [holdings, Blocks.bytes_occupied]
  cases a with
  | heap => exact Heap.Sound.balance h
  | region => exact Region.Sound.balance h

lemma allocate_heap {h : Heap} {result : Except AllocError Block}
    (ha : (heap h).allocate size align = (result, a')) :
    ∃ h', h.allocate size align = (result, h') ∧ a' = heap h' := by
  obtain ⟨rfl, rfl⟩ := Prod.mk.inj ha
  exact ⟨_, rfl, rfl⟩

lemma allocate_region {r : Region} {result : Except AllocError Block}
    (ha : (region r).allocate size align = (result, a')) :
    ∃ r', r.allocate size align = (result, r') ∧ a' = region r' := by
  obtain ⟨rfl, rfl⟩ := Prod.mk.inj ha
  exact ⟨_, rfl, rfl⟩

lemma allocate_size (ha : a.allocate size align = (.ok b, a')) : b.size = size := by
  cases a with
  | heap h =>
    obtain ⟨h', hheap, -⟩ := allocate_heap ha
    exact (Heap.allocate_ok hheap).1
  | region r =>
    obtain ⟨r', hregion, -⟩ := allocate_region ha
    unfold Region.allocate at hregion
    split at hregion
    · split at hregion
      · exact (congrArg Block.size (Except.ok.inj (congrArg Prod.fst hregion))).symm
      · dsimp only at hregion
        split at hregion
        · exact (congrArg Block.size (Except.ok.inj (congrArg Prod.fst hregion))).symm
        · cases congrArg Prod.fst hregion
    · cases congrArg Prod.fst hregion

lemma Sound.allocate_ok (h : a.Sound) (ha : a.allocate size align = (.ok b, a')) :
    a'.Sound ∧ b.size = size ∧ a.live.Clear b.size b.address ∧ a'.live = a.live.insert b := by
  cases a with
  | heap heap =>
    obtain ⟨heap', hheap, rfl⟩ := allocate_heap ha
    obtain ⟨hsize, hnext, hlive⟩ := Heap.allocate_ok hheap
    refine ⟨Heap.Sound.allocate h hheap, hsize, Heap.Sound.clear h hnext, ?_⟩
    rw [hlive]
    rfl
  | region region =>
    obtain ⟨region', hregion, rfl⟩ := allocate_region ha
    have hgrants := Region.allocate_ok h hregion
    exact ⟨hgrants.sound h, hgrants.size_eq, hgrants.clear, hgrants.live⟩

lemma Sound.allocate_error (h : a.Sound) {e : AllocError}
    (ha : a.allocate size align = (.error e, a')) : a'.Sound ∧ a'.live = a.live := by
  cases a with
  | heap heap =>
    obtain ⟨heap', hheap, rfl⟩ := allocate_heap ha
    rw [Heap.allocate_error hheap]
    exact ⟨h, rfl⟩
  | region region =>
    obtain ⟨region', hregion, rfl⟩ := allocate_region ha
    refine ⟨Region.Sound.of_error h hregion, ?_⟩
    rw [Region.allocate_error hregion]
    rfl

lemma live_free (a : Allocator) (b : Block) : (a.free b).live = a.live.erase b.address := by
  cases a with
  | heap h => exact h.free_live b.address
  | region r => exact r.free_live b.address

lemma Sound.free (h : a.Sound) (b : Block) : (a.free b).Sound := by
  cases a with
  | heap => exact Heap.Sound.free h b.address
  | region => exact Region.Sound.free h b.address

lemma Sound.holdings_free (h : a.Sound) (b : Block) :
    (a.free b).holdings = a.holdings.erase b.address := by
  rw [holdings, live_free, Blocks.occupied_erase h.apart]
  rfl

/-- **All reachable allocators are sound.** -/
lemma Reachable.sound (h : a.Reachable) : a.Sound := by
  induction h with
  | heap budget => exact Heap.sound_ofBudget budget
  | region base capacity => exact Region.sound_ofCapacity base capacity
  | @allocated a _ size align ih =>
    rcases ha : a.allocate size align with ⟨e | b, a'⟩
    · exact (ih.allocate_error ha).1
    · exact (ih.allocate_ok ha).1
  | freed _ b ih => exact ih.free b

/-- **A block that is given back at once leaves no trace** in the holdings, not even where an empty
block was recorded at its address. -/
lemma Sound.holdings_free_allocate (h : a.Sound) (ha : a.allocate size align = (.ok b, a')) :
    (a'.free b).holdings = a.holdings := by
  obtain ⟨hsound, -, hclear, hlive⟩ := h.allocate_ok ha
  have hne := hclear.address_ne
  rw [hsound.holdings_free, holdings, hlive, Blocks.occupied_insert h.apart hclear]
  split
  · exact Blocks.erase_of_ne hne
  · exact Blocks.erase_insert hne

lemma Sound.allocated_allocate (h : a.Sound) (ha : a.allocate size align = (.ok b, a')) :
    a'.allocated = a.allocated + b.size := by
  obtain ⟨hsound, -, hclear, hlive⟩ := h.allocate_ok ha
  rw [hsound.allocated_eq, h.allocated_eq, holdings, holdings, hlive,
    Blocks.occupied_insert h.apart hclear]
  split
  · next hempty => rw [hempty, Nat.add_zero]
  · exact Blocks.bytes_insert hclear.address_ne

end Allocator

/-! ### Ledgers -/

namespace Ledger

variable {a a' before : Allocator} {l l' : Ledger}

lemma bytes_cons (e : LedgerEntry) (l : List LedgerEntry) :
    Ledger.bytes ⟨e :: l⟩ = e.block.size + Ledger.bytes ⟨l⟩ := rfl

lemma releaseAll_cons (e : LedgerEntry) (l : List LedgerEntry) (a : Allocator) :
    Ledger.releaseAll ⟨e :: l⟩ a = Ledger.releaseAll ⟨l⟩ (a.free e.block) := rfl

lemma sound_releaseAll (l : Ledger) (h : a.Sound) : (l.releaseAll a).Sound := by
  obtain ⟨entries⟩ := l
  induction entries generalizing a with
  | nil => exact h
  | cons e entries ih => exact ih (h.free e.block)

/-- What a release leaves depends on the holdings only. -/
lemma holdings_releaseAll (l : Ledger) (h : a.Sound) (h' : a'.Sound)
    (heq : a.holdings = a'.holdings) : (l.releaseAll a).holdings = (l.releaseAll a').holdings := by
  obtain ⟨entries⟩ := l
  induction entries generalizing a a' with
  | nil => exact heq
  | cons e entries ih =>
    refine ih (h.free e.block) (h'.free e.block) ?_
    rw [h.holdings_free, h'.holdings_free, heq]

/-- A ledger accounts for all that an allocator holds more than before: releasing it leaves what was
held before, and its bytes are the difference of the balances. -/
structure Accounts (before : Allocator) (l : Ledger) (a : Allocator) : Prop where
  sound : a.Sound
  start : before.Sound
  restores : (l.releaseAll a).holdings = before.holdings
  balance : a.allocated = before.allocated + l.bytes

lemma acquire_ok {label : String} {layout : Layout} {count : ℕ}
    (ha : l.acquire a label layout count = (.ok l', a')) :
    ∃ b, b.size = count * layout.size ∧ l' = ⟨⟨label, b⟩ :: l.entries⟩ := by
  unfold acquire at ha
  split at ha
  · next b a₁ hb =>
    exact ⟨b, Allocator.allocate_size hb, (Except.ok.inj (congrArg Prod.fst ha)).symm⟩
  · cases congrArg Prod.fst ha

lemma accounts_empty (h : a.Sound) : Accounts a empty a := ⟨h, h, rfl, rfl⟩

/-- **A ledger that takes a buffer accounts for it.** -/
lemma Accounts.acquire_ok (h : l.Accounts before a) {label : String} {layout : Layout} {count : ℕ}
    (ha : l.acquire a label layout count = (.ok l', a')) : l'.Accounts before a' := by
  unfold acquire at ha
  split at ha
  · next b a₁ hb =>
    obtain ⟨hl, rfl⟩ := Prod.mk.inj ha
    obtain rfl := Except.ok.inj hl
    have hsound := (h.sound.allocate_ok hb).1
    refine ⟨hsound, h.start, ?_, ?_⟩
    · have hback := h.sound.holdings_free_allocate hb
      rw [releaseAll_cons, ← h.restores]
      exact holdings_releaseAll _ (hsound.free b) h.sound hback
    · rw [h.sound.allocated_allocate hb, h.balance, bytes_cons, Nat.add_assoc,
        Nat.add_comm b.size]
  · cases congrArg Prod.fst ha

lemma Accounts.acquire_error (h : l.Accounts before a) {label : String} {layout : Layout}
    {count : ℕ} {s : Shortage} (ha : l.acquire a label layout count = (.error s, a')) :
    l.Accounts before a' := by
  unfold acquire at ha
  split at ha
  · cases congrArg Prod.fst ha
  · next e a₁ he =>
    obtain rfl := congrArg Prod.snd ha
    obtain ⟨hsound, hlive⟩ := h.sound.allocate_error he
    have hholdings : a₁.holdings = a.holdings := congrArg Blocks.occupied hlive
    refine ⟨hsound, h.start, ?_, ?_⟩
    · rw [← h.restores]
      exact holdings_releaseAll l hsound h.sound hholdings
    · rw [hsound.allocated_eq, hholdings, ← h.sound.allocated_eq, h.balance]

/-- **A ledger that is released leaves nothing behind.** -/
lemma Accounts.release (h : l.Accounts before a) :
    (l.releaseAll a).allocated = before.allocated := by
  rw [(sound_releaseAll l h.sound).allocated_eq, h.restores, h.start.allocated_eq]

end Ledger

end SolidTrace
