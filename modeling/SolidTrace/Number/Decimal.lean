import SolidTrace.Number.Dyadic

/-!
Decimal numbers and doubles.

`Numeral.nearest?` rounds a decimal number to the nearest double. `Numeral.shortest` is the way
back: the shortest decimal that rounds to the double, and of several the one nearest to it.
-/

namespace SolidTrace

/-- The decimal `± digits * 10 ^ exponent`. -/
structure Numeral where
  negative : Bool
  digits : Nat
  exponent : Int
  /-- Whether it is written without a point and without an exponent. -/
  whole : Bool
deriving DecidableEq, Repr

namespace Numeral

def decimalDigits (n : Nat) : List Char := Nat.toDigits 10 n

/-- About the decimal logarithm of `2 ^ e`, for moderate exponents rounded down. -/
def decimalExponent (e : Int) : Int := e * 30103 / 100000

/-- The nearest double; `none` when it is infinite. -/
def nearest? (n : Numeral) : Option Float :=
  let size := decimalExponent n.digits.log2 + n.exponent
  let magnitude : Option Float :=
    if n.digits = 0 ∨ size < -400 then some 0
    else if 400 < size then none
    else
      let x := Float.ofScientific n.digits (decide (n.exponent < 0)) n.exponent.natAbs
      if x.isInf then none else some x
  magnitude.map fun x => if n.negative then -x else x

/-- The integer that a whole numeral writes; a negative zero is not taken for one. -/
def toInt? (n : Numeral) : Option Int :=
  if n.whole ∧ ¬(n.negative ∧ n.digits = 0) then
    some (if n.negative then -(n.digits : Int) else n.digits)
  else none

def ofInt (i : Int) : Numeral := ⟨decide (i < 0), i.natAbs, 0, true⟩

/-! ### The shortest decimal of a double -/

/-- A double and the ends of the interval of reals that round to it, all in units of
`2 ^ exponent`. -/
structure Cell where
  low : Nat
  value : Nat
  high : Nat
  exponent : Int
  /-- Whether the ends themselves round to the double. -/
  closed : Bool

/-- Below a power of two the doubles lie half as far apart as above it. -/
def Cell.of (d : Dyadic) : Cell :=
  let m := 4 * d.mantissa
  ⟨if d.mantissa = Nat.pow 2 52 ∧ -1074 < d.exponent then m - 1 else m - 2, m, m + 2, d.exponent - 2,
    d.mantissa % 2 = 0⟩

/-- Compares a number of cell units with a number of grid steps `10 ^ k`. -/
def Cell.side (c : Cell) (k : Int) (units : Nat) : Nat :=
  units * Nat.pow 2 c.exponent.toNat * Nat.pow 10 (-k).toNat

/-- The same for a number of grid steps. -/
def Cell.grid (c : Cell) (k : Int) (steps : Nat) : Nat :=
  steps * Nat.pow 2 (-c.exponent).toNat * Nat.pow 10 k.toNat

/-- Whether a point of the grid rounds to the double. -/
def Cell.holds (c : Cell) (k : Int) (steps : Nat) : Bool :=
  let x := c.grid k steps
  let low := c.side k c.low
  let high := c.side k c.high
  if c.closed then decide (low ≤ x ∧ x ≤ high) else decide (low < x ∧ x < high)

/-- Which of two decimals is taken that are equally near to a double. -/
inductive Tie
  | toEven
  | up
deriving DecidableEq, Repr

/-- The point next to the double on the grid of step `10 ^ k` that rounds to it, the nearer one if
both do. -/
def Cell.onGrid? (c : Cell) (tie : Tie) (k : Int) : Option Nat :=
  let v := c.side k c.value
  let below := v / c.grid k 1
  let above := below + 1
  match c.holds k below, c.holds k above with
  | true, true =>
    let toBelow := v - c.grid k below
    let toAbove := c.grid k above - v
    let takesBelow := toBelow = toAbove ∧ tie = .toEven ∧ below % 2 = 0
    some (if toBelow < toAbove ∨ takesBelow then below else above)
  | true, false => some below
  | false, true => some above
  | false, false => none

/-- The exponent of the leading decimal digit. -/
def Cell.leading (c : Cell) : Int :=
  let k := decimalExponent (c.value.log2 + c.exponent)
  if c.grid (k + 1) 1 ≤ c.side (k + 1) c.value then k + 1 else k

/-- Seventeen digits always suffice. The first grid is that of the next power of ten, which may be
what the double is rounded up to. -/
def Cell.shortest (c : Cell) (tie : Tie) : Nat × Int :=
  let leading := c.leading
  let grids := (List.range 18).map fun n : Nat => leading + 1 - (n : Int)
  (grids.findSome? fun k => (c.onGrid? tie k).map (·, k)).getD (0, 0)

/-- The shortest decimal of a finite double. -/
def shortest (tie : Tie) (x : Float) : Numeral :=
  match Dyadic.ofDouble? x with
  | none => ⟨false, 0, 0, false⟩
  | some d =>
    if d.mantissa = 0 then ⟨d.negative, 0, 0, false⟩
    else
      let (digits, k) := (Cell.of d).shortest tie
      ⟨d.negative, digits, k, false⟩

/-- The numeral without exponent: the fewest digits, and a point only before a fraction. -/
def positional (n : Numeral) : String :=
  let digits := decimalDigits n.digits
  let sign := if n.negative then ['-'] else []
  if 0 ≤ n.exponent then
    String.ofList (sign ++ digits ++
      List.replicate (if n.digits = 0 then 0 else n.exponent.toNat) '0')
  else
    let places := n.exponent.natAbs
    let padded := List.replicate (places + 1 - digits.length) '0' ++ digits
    let fraction := padded.drop (padded.length - places)
    let fraction := (fraction.reverse.dropWhile (· == '0')).reverse
    let whole := padded.take (padded.length - places)
    String.ofList (sign ++ whole ++ if fraction.isEmpty then [] else '.' :: fraction)

end Numeral

/-- The text of a double in messages: never with an exponent, and a tie goes up. -/
def decimalText (x : Float) : String :=
  if x.isNaN then "NaN"
  else if x.isInf then if x < 0 then "-inf" else "inf"
  else (Numeral.shortest .up x).positional

end SolidTrace
