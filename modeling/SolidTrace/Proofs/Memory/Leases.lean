import SolidTrace.Proofs.Memory.Region

/-!
What is on lease from a region.

A lease is a block that has been handed out and not been given back. All leases would lie apart, and
their bytes would be the balance of the region, if a record could stand for one lease only. But an
empty block does not keep others from its address: the block that comes to start there takes over
its record, and giving back the empty block then gives back the bytes of the other one, which may be
handed out once more while they are still in use.

The leases do lie apart as long as no empty block is given back while bytes are on lease at its
address. That is so where only blocks with bytes are asked for, and where the newest block is given
back first.
-/

namespace SolidTrace

/-- A block that is in use, with the alignment that was asked for. -/
structure Lease where
  block : Block
  align : ℕ
deriving DecidableEq

/-- The block holds the byte at an address. -/
def Block.Holds (b : Block) (x : ℕ) : Prop := b.address ≤ x ∧ x < b.address + b.size

namespace Region

/-- What is on lease from a region after any requests. Only leases can be given back, under a rule
that says which of them. -/
inductive Leased (base capacity : ℕ) (Rule : List Lease → Lease → Prop) : Region → List Lease → Prop
  | fresh : Leased base capacity Rule (ofCapacity base capacity) []
  | granted {r r' : Region} {held : List Lease} {size align : ℕ} {b : Block}
      (h : Leased base capacity Rule r held) (ha : r.allocate size align = (.ok b, r')) :
      Leased base capacity Rule r' (⟨b, align⟩ :: held)
  | refused {r r' : Region} {held : List Lease} {size align : ℕ} {e : AllocError}
      (h : Leased base capacity Rule r held) (ha : r.allocate size align = (.error e, r')) :
      Leased base capacity Rule r' held
  | returned {r : Region} {held : List Lease} {lease : Lease}
      (h : Leased base capacity Rule r held) (hl : lease ∈ held) (hrule : Rule held lease) :
      Leased base capacity Rule (r.free lease.block.address) (held.erase lease)

/-- Any lease can be given back. -/
def AnyLease (_ : List Lease) (_ : Lease) : Prop := True

/-- An empty block is not given back while bytes are on lease at its address. -/
def BareLease (held : List Lease) (lease : Lease) : Prop :=
  lease.block.size = 0 → ∀ other ∈ held, other.block.address = lease.block.address →
    other.block.size = 0

/-- The leases lie apart, aligned and within the bounds of the region, and their bytes are its
balance. -/
structure Orderly (base capacity : ℕ) (r : Region) (held : List Lease) : Prop where
  apart : held.Pairwise fun l m => ∀ x, l.block.Holds x → ¬m.block.Holds x
  inside : ∀ l ∈ held, base ≤ l.block.address ∧ l.block.address + l.block.size ≤ base + capacity
  aligned : ∀ l ∈ held, l.align ∣ l.block.address
  balance : r.allocated = Blocks.bytes (held.map Lease.block)

/-- The blocks on lease that hold bytes. -/
def leasedBytes (held : List Lease) : Blocks := Blocks.occupied (held.map Lease.block)

/-- A sound region records just those leases that hold bytes, and empty blocks. -/
structure Records (base capacity : ℕ) (r : Region) (held : List Lease) : Prop where
  sound : r.Sound
  bounds : r.base = base ∧ r.stop ≤ base + capacity
  inside : ∀ l ∈ held, base ≤ l.block.address ∧ l.block.address + l.block.size ≤ base + capacity
  aligned : ∀ l ∈ held, l.align ∣ l.block.address
  recorded : (leasedBytes held).Perm r.live.occupied

variable {base capacity : ℕ} {r r' : Region} {held : List Lease} {lease : Lease}

lemma leasedBytes_perm {held' : List Lease} (h : held.Perm held') :
    (leasedBytes held).Perm (leasedBytes held') :=
  (h.map Lease.block).filter _

lemma leasedBytes_cons_of_pos (h : 0 < lease.block.size) (held : List Lease) :
    leasedBytes (lease :: held) = lease.block :: leasedBytes held :=
  Blocks.occupied_cons_of_pos h _

lemma leasedBytes_cons_of_empty (h : lease.block.size = 0) (held : List Lease) :
    leasedBytes (lease :: held) = leasedBytes held :=
  Blocks.occupied_cons_of_empty h _

lemma Records.granted (h : Records base capacity r held) {size align : ℕ} {b : Block}
    (ha : r.allocate size align = (.ok b, r')) :
    Records base capacity r' (⟨b, align⟩ :: held) := by
  have hgrants := allocate_ok h.sound ha
  obtain ⟨hbase, hstop⟩ := hgrants.bounds
  obtain ⟨hstart, hend⟩ := hgrants.inside
  refine ⟨hgrants.sound h.sound, ⟨hbase.trans h.bounds.1, hstop ▸ h.bounds.2⟩, ?_, ?_, ?_⟩
  · refine List.forall_mem_cons.mpr ⟨⟨h.bounds.1 ▸ hstart, ?_⟩, h.inside⟩
    exact Nat.le_trans hend h.bounds.2
  · exact List.forall_mem_cons.mpr ⟨hgrants.aligned, h.aligned⟩
  · rw [hgrants.occupied h.sound]
    split
    · next hempty =>
      rw [leasedBytes_cons_of_empty hempty]
      exact h.recorded
    · next hsize =>
      rw [leasedBytes_cons_of_pos (Nat.pos_of_ne_zero hsize)]
      exact (h.recorded.cons b).trans (Blocks.insert_perm hgrants.clear.address_ne).symm

lemma Records.refused (h : Records base capacity r held) {size align : ℕ} {e : AllocError}
    (ha : r.allocate size align = (.error e, r')) : Records base capacity r' held := by
  have hsound := h.sound.of_error ha
  rw [allocate_error ha] at hsound ⊢
  exact ⟨hsound, h.bounds, h.inside, h.aligned, h.recorded⟩

/-- A lease that holds bytes gives back its own record; an empty one gives back no bytes, unless
others are on lease at its address. -/
lemma Records.returned (h : Records base capacity r held) (hl : lease ∈ held)
    (hbare : BareLease held lease) :
    Records base capacity (r.free lease.block.address) (held.erase lease) := by
  obtain ⟨hbase, hstop, -⟩ := r.free_bounds lease.block.address
  have hperm : held.Perm (lease :: held.erase lease) := List.perm_cons_erase hl
  refine ⟨h.sound.free _, ?_, ?_, ?_, ?_⟩
  · rw [hbase, hstop]
    exact h.bounds
  · exact fun m hm => h.inside m (List.mem_of_mem_erase hm)
  · exact fun m hm => h.aligned m (List.mem_of_mem_erase hm)
  · have hrecorded := (leasedBytes_perm hperm).symm.trans h.recorded
    rw [free_live, Blocks.occupied_erase h.sound.apart]
    rcases Nat.eq_zero_or_pos lease.block.size with hempty | hpos
    · rw [leasedBytes_cons_of_empty hempty] at hrecorded
      rw [Blocks.erase_of_ne]
      · exact hrecorded
      · intro c hc heq
        obtain ⟨hmem, hpos⟩ := Blocks.mem_occupied.mp (h.recorded.mem_iff.mpr hc)
        obtain ⟨other, hother, rfl⟩ := List.mem_map.mp hmem
        have hother := hbare hempty other hother heq
        omega
    · rw [leasedBytes_cons_of_pos hpos] at hrecorded
      have hmem : lease.block ∈ r.live.occupied := hrecorded.mem_iff.mp List.mem_cons_self
      have herase := Blocks.perm_cons_erase h.sound.apart.occupied hmem
      exact (hrecorded.trans herase).cons_inv

/-- **Under the rule, a region records its leases.** -/
lemma Leased.records (h : Leased base capacity BareLease r held) :
    Records base capacity r held := by
  induction h with
  | fresh =>
    exact ⟨sound_ofCapacity base capacity, ⟨rfl, Nat.min_le_left _ _⟩, nofun, nofun, .refl _⟩
  | granted _ ha ih => exact ih.granted ha
  | refused _ ha ih => exact ih.refused ha
  | returned _ hl hrule ih => exact ih.returned hl hrule

lemma not_holds_of_behind_le {b c : Block} (h : c.behind ≤ b.address) {x : ℕ} (hb : b.Holds x) :
    ¬c.Holds x := by
  unfold Block.Holds Block.behind at *
  omega

lemma Records.orderly (h : Records base capacity r held) : Orderly base capacity r held := by
  refine ⟨?_, h.inside, h.aligned, ?_⟩
  · have hlive : r.live.occupied.Pairwise fun b c => ∀ x, b.Holds x → ¬c.Holds x :=
      h.sound.apart.occupied.imp fun hbehind _ hx => not_holds_of_behind_le hbehind hx
    have hleased : (leasedBytes held).Pairwise fun b c => ∀ x, b.Holds x → ¬c.Holds x :=
      (h.recorded.pairwise_iff fun hbc x hc hb => hbc x hb hc).mpr hlive
    rw [leasedBytes, Blocks.occupied, List.pairwise_filter, List.pairwise_map] at hleased
    refine hleased.imp fun {l m} hlm x hl hm => ?_
    unfold Block.Holds at hl hm
    exact hlm (by simpa using by omega) (by simpa using by omega) x hl hm
  · rw [h.sound.balance, ← Blocks.bytes_occupied, ← Blocks.bytes_perm h.recorded]
    exact Blocks.bytes_occupied _

/-- **Leases lie apart**, if no empty block is given back while bytes are on lease at its address:
however sizes and alignments are asked for, no two leases share a byte, all of them are aligned and
within the bounds, and their bytes are the balance of the region. -/
theorem leased_orderly (h : Leased base capacity BareLease r held) :
    Orderly base capacity r held :=
  h.records.orderly

/-- **Bytes may be on lease twice.** Out of a region of eight bytes, an empty block and one of eight
bytes are handed out at the same address, and when the empty one is given back the eight bytes are
handed out again. -/
theorem leased_twice : ∃ r l, Leased 4096 8 AnyLease r [l, l] ∧ l.block.Holds 4096 ∧
    ¬Orderly 4096 8 r [l, l] := by
  let empty : Lease := ⟨⟨4096, 0⟩, 8⟩
  let full : Lease := ⟨⟨4096, 8⟩, 8⟩
  have h₁ : Leased 4096 8 AnyLease ⟨4096, 4104, 4097, [empty.block], 0, 0⟩ [empty] :=
    .granted .fresh (show (ofCapacity 4096 8).allocate 0 8 = _ by decide +kernel)
  have h₂ : Leased 4096 8 AnyLease ⟨4096, 4104, 4104, [full.block], 8, 1⟩ [full, empty] :=
    .granted h₁ (show allocate _ 8 8 = _ by decide +kernel)
  have h₃ : Leased 4096 8 AnyLease ⟨4096, 4104, 4104, [], 0, 1⟩ [full] :=
    .returned h₂ (show empty ∈ _ by decide) trivial
  have h₄ : Leased 4096 8 AnyLease ⟨4096, 4104, 4104, [full.block], 8, 2⟩ [full, full] :=
    .granted h₃ (show allocate _ 8 8 = _ by decide +kernel)
  have hholds : full.block.Holds 4096 := ⟨by decide, by decide⟩
  refine ⟨_, full, h₄, hholds, fun horderly => ?_⟩
  exact List.rel_of_pairwise_cons horderly.apart List.mem_cons_self 4096 hholds hholds

end Region

end SolidTrace
