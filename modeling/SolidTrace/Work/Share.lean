/-!
How work is shared out among slices.

A slice gets a contiguous share of a range of items, and every `count`-th band of the rows of a
frame.
-/

namespace SolidTrace

/-- Half-open intervals of numbers. -/
structure Span where
  start : Nat
  stop : Nat
deriving DecidableEq, Repr

namespace Span

def toList (s : Span) : List Nat := List.range' s.start (s.stop - s.start)

end Span

/-- The share of `0, …, total - 1` of slice `index` out of `count`: shares differ in length by at
most one, and the longer ones come first. A count of zero is taken as one. -/
def share (index count total : Nat) : Span :=
  let count := max count 1
  if count ≤ index then ⟨total, total⟩
  else
    let base := total / count
    let extra := total % count
    let start := index * base + min index extra
    ⟨start, start + base + if index < extra then 1 else 0⟩

/-- The rows of slice `index` out of `count`, in bands of `tile` rows dealt out in turn. A count or
a tile height of zero is taken as one. -/
def bands (index count height tile : Nat) : List Span :=
  let tile := max tile 1
  let count := max count 1
  let total := (height + tile - 1) / tile
  (List.range ((total - index + count - 1) / count)).map fun k =>
    let band := index + k * count
    ⟨band * tile, min ((band + 1) * tile) height⟩

end SolidTrace
