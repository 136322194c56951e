/-!
Lookups that can miss, and sums that can overflow.

A worker that looks outside a table stops with a fault instead of a value; the pool reports the
fault as the failure of that worker.
-/

namespace SolidTrace

inductive Fault
  /-- An entry outside a table of the given size. -/
  | index (position size : Nat)
  /-- A segment that ends outside a table of the given size. -/
  | segment (stop size : Nat)
  /-- A way through a table that goes round and round. -/
  | endless
  /-- A sum that leaves the 64 bits it is kept in. -/
  | overflow
deriving DecidableEq, Repr

namespace Fault

def message : Fault → String
  | index position size =>
    s!"index out of bounds: the len is {size} but the index is {position}"
  | segment stop size => s!"range end index {stop} out of range for slice of length {size}"
  | endless => "a chain of parents does not end"
  | overflow => "attempt to add with overflow"

end Fault

/-- The entry at a position of a table. -/
def fetch {α : Type} (table : Array α) (position : Nat) : Except Fault α :=
  match table[position]? with
  | some a => .ok a
  | none => .error (.index position table.size)

end SolidTrace
