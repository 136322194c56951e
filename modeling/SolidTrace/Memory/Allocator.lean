/-!
Allocators.

A heap hands out ever higher addresses within a budget of bytes. A region hands out blocks between
two addresses: it looks on from where the last block ended, and once more from the start when
nothing fits there. Both keep the live blocks by address.
-/

namespace SolidTrace

/-- Addresses end here. -/
def addressLimit : Nat := Nat.pow 2 64

structure Block where
  address : Nat
  size : Nat
deriving DecidableEq, Repr

inductive AllocError
  | exhausted (size available : Nat)
  | invalidAlign (align : Nat)
deriving DecidableEq, Repr

namespace AllocError

def message : AllocError → String
  | exhausted size available => s!"cannot allocate {size} bytes ({available} available)"
  | invalidAlign align => s!"invalid alignment {align}"

end AllocError

/-- Alignments are powers of two. -/
def validAlign (align : Nat) : Prop := Nat.pow 2 align.log2 = align

instance (align : Nat) : Decidable (validAlign align) := inferInstanceAs (Decidable (_ = _))

theorem validAlign.pos {align : Nat} (h : validAlign align) : 0 < align := by
  rw [← h]
  exact Nat.two_pow_pos _

/-- The least multiple of `align` from `address` on, unless it is beyond the addresses. -/
def alignUp? (address align : Nat) : Option Nat :=
  if address + (align - 1) < addressLimit then some ((address + (align - 1)) / align * align)
  else none

theorem le_of_alignUp? {address align a : Nat} (hp : 0 < align)
    (h : alignUp? address align = some a) : address ≤ a := by
  simp only [alignUp?] at h
  split at h
  · simp only [Option.some.injEq] at h
    have h1 := Nat.div_add_mod (address + (align - 1)) align
    have h2 := Nat.mod_lt (address + (align - 1)) hp
    rw [Nat.mul_comm] at h1
    omega
  · simp at h

/-! ### Live blocks -/

/-- Blocks by descending address. -/
abbrev Blocks : Type := List Block

namespace Blocks

/-- Records a block; one with the same address is forgotten. -/
def insert (b : Block) : Blocks → Blocks
  | [] => [b]
  | c :: rest =>
    if c.address < b.address then b :: c :: rest
    else if c.address = b.address then b :: rest
    else c :: insert b rest

def find? (l : Blocks) (address : Nat) : Option Block :=
  List.find? (fun b => b.address == address) l

def erase (l : Blocks) (address : Nat) : Blocks :=
  List.eraseP (fun b => b.address == address) l

/-- The blocks by ascending address, put in front of others. Of those that start below `limit` only
the last one is taken. -/
def ascendingOnto (limit : Nat) : (behind : List Block) → Blocks → List Block
  | behind, [] => behind
  | behind, b :: rest =>
    if b.address < limit then b :: behind else ascendingOnto limit (b :: behind) rest

def ascendingFrom (l : Blocks) (limit : Nat) : List Block := ascendingOnto limit [] l

end Blocks

/-! ### Heaps -/

structure Heap where
  budget : Option Nat
  live : Blocks
  allocated : Nat
  next : Nat
deriving DecidableEq, Repr

namespace Heap

def ofBudget (budget : Option Nat) : Heap := ⟨budget, [], 0, 0⟩

/-- Whether the budget admits a request; if not, how many bytes are left. -/
def check (h : Heap) (size : Nat) : Except AllocError Unit :=
  match h.budget with
  | none => .ok ()
  | some budget =>
    let available := budget - h.allocated
    if available < size then .error (.exhausted size available) else .ok ()

def allocate (h : Heap) (size align : Nat) : Except AllocError Block × Heap :=
  if ¬validAlign align then (.error (.invalidAlign align), h)
  else
    match h.check size with
    | .error e => (.error e, h)
    | .ok () =>
      match alignUp? (max h.next align) align with
      | none => (.error (.exhausted size 0), h)
      | some address =>
        let b : Block := ⟨address, size⟩
        (.ok b,
          { h with
            live := h.live.insert b
            allocated := h.allocated + size
            next := address + max size 1 })

/-- Takes back the block at an address; where none is live nothing changes. -/
def free (h : Heap) (address : Nat) : Heap :=
  match h.live.find? address with
  | none => h
  | some b => { h with live := h.live.erase address, allocated := h.allocated - b.size }

end Heap

/-! ### Regions -/

structure Region where
  base : Nat
  /-- One past the last address. -/
  stop : Nat
  cursor : Nat
  live : Blocks
  allocated : Nat
  /-- How often the search went back to the start. -/
  wraps : Nat
deriving DecidableEq, Repr

namespace Region

def defaultBase : Nat := 0x10000000

/-- The region of `capacity` bytes from `base` on, as far as there are addresses. -/
def ofCapacity (base capacity : Nat) : Region :=
  ⟨base, min (base + capacity) (addressLimit - 1), base, [], 0, 0⟩

def capacity (r : Region) : Nat := r.stop - r.base

/-- Blocks that start below this are in the way of `size` bytes at an address, or end before them.
An empty block is given the room of a byte. -/
def limit (size address : Nat) : Nat := max (address + size) (address + 1)

/-- The first aligned address, from a candidate on, at which `size` bytes fit between blocks given
by ascending address. Where the last of the blocks in the way ends, the next candidate lies. -/
def probeAmong? (stop size align : Nat) (blocks : List Block) (candidate : Nat) : Option Nat :=
  if stop < candidate + size then none
  else
    match _h : (blocks.takeWhile fun b => b.address < limit size candidate).getLast? with
    | none => some candidate
    | some b =>
      if b.address + b.size ≤ candidate then some candidate
      else
        match alignUp? (b.address + max b.size 1) align with
        | none => none
        | some next =>
          let behind := blocks.dropWhile fun b => b.address < limit size candidate
          probeAmong? stop size align behind next
termination_by blocks.length
decreasing_by
  have h1 := congrArg List.length (List.takeWhile_append_dropWhile
    (p := fun b => decide (b.address < limit size candidate)) (l := blocks))
  have h2 := List.length_pos_of_mem (List.mem_of_getLast? _h)
  rw [List.length_append] at h1
  omega

def probe? (r : Region) (size align start : Nat) : Option Nat :=
  (alignUp? start align).bind fun candidate =>
    probeAmong? r.stop size align (r.live.ascendingFrom (limit size candidate)) candidate

/-- Records a block and moves the cursor behind it. -/
def take (r : Region) (b : Block) : Region :=
  { r with
    live := r.live.insert b
    allocated := r.allocated + b.size
    cursor := b.address + max b.size 1 }

def allocate (r : Region) (size align : Nat) : Except AllocError Block × Region :=
  if validAlign align then
    match r.probe? size align r.cursor with
    | some address => (.ok ⟨address, size⟩, r.take ⟨address, size⟩)
    | none =>
      let wrapped := { r with wraps := r.wraps + 1 }
      match r.probe? size align r.base with
      | some address => (.ok ⟨address, size⟩, wrapped.take ⟨address, size⟩)
      | none => (.error (.exhausted size (r.capacity - r.allocated)), wrapped)
  else (.error (.invalidAlign align), r)

/-- Takes back the block at an address; where none is live nothing changes. -/
def free (r : Region) (address : Nat) : Region :=
  match r.live.find? address with
  | none => r
  | some b => { r with live := r.live.erase address, allocated := r.allocated - b.size }

end Region

/-! ### Both -/

inductive Allocator
  | heap (heap : Heap)
  | region (region : Region)
deriving DecidableEq, Repr

namespace Allocator

def allocate : Allocator → (size align : Nat) → Except AllocError Block × Allocator
  | heap h, size, align =>
    let (result, h) := h.allocate size align
    (result, heap h)
  | region r, size, align =>
    let (result, r) := r.allocate size align
    (result, region r)

def free : Allocator → Block → Allocator
  | heap h, b => heap (h.free b.address)
  | region r, b => region (r.free b.address)

def allocated : Allocator → Nat
  | heap h => h.allocated
  | region r => r.allocated

end Allocator

end SolidTrace
