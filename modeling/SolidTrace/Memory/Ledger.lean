import SolidTrace.Memory.Allocator

/-!
Ledgers of blocks.

A ledger records the blocks taken from an allocator for one purpose, so that all of them can be
given back.
-/

namespace SolidTrace

/-- How the values of a buffer lie in memory. -/
structure Layout where
  size : Nat
  align : Nat
deriving DecidableEq, Repr

structure LedgerEntry where
  label : String
  block : Block
deriving DecidableEq, Repr

/-- The blocks taken, the newest first. -/
structure Ledger where
  entries : List LedgerEntry
deriving DecidableEq, Repr

/-- An allocator refused the buffer with this label. -/
structure Shortage where
  label : String
  cause : AllocError
deriving DecidableEq, Repr

namespace Shortage

def message (s : Shortage) : String :=
  let cause := s.cause.message
  s!"allocator exhausted while allocating {s.label}: {cause}"

end Shortage

namespace Ledger

def empty : Ledger := ⟨[]⟩

/-- Takes a buffer of `count` values. -/
def acquire (l : Ledger) (a : Allocator) (label : String) (layout : Layout) (count : Nat) :
    Except Shortage Ledger × Allocator :=
  match a.allocate (count * layout.size) layout.align with
  | (.ok b, a) => (.ok ⟨⟨label, b⟩ :: l.entries⟩, a)
  | (.error e, a) => (.error ⟨label, e⟩, a)

/-- Gives all blocks back, the newest first. -/
def releaseAll (l : Ledger) (a : Allocator) : Allocator :=
  l.entries.foldl (fun a e => a.free e.block) a

def length (l : Ledger) : Nat := l.entries.length

def bytes (l : Ledger) : Nat := l.entries.foldr (fun e sum => e.block.size + sum) 0

end Ledger

end SolidTrace
