import SolidTrace.Number.Decimal

/-!
Numbers of JSON texts.

A number is read in the arithmetic of the machine. Its digits make a significand below `2 ^ 64`,
which leaves out digits that do not fit, and the double is the significand scaled by a power of ten.
Every step rounds, so a number of many digits or of a large exponent may become a neighbour of the
nearest double. A double is written with the fewest digits that determine it.
-/

namespace SolidTrace

/-! ### Literals -/

/-- The parts of a number as it is written. -/
structure NumberLiteral where
  negative : Bool
  whole : List Char
  fraction : List Char
  exponent : Int
  /-- Whether there is neither a point nor an exponent. -/
  plain : Bool
deriving DecidableEq, Repr

namespace NumberLiteral

def digitValue (c : Char) : Nat := c.toNat - '0'.toNat

def natOfDigits (cs : List Char) : Nat := cs.foldl (fun n c => n * 10 + digitValue c) 0

/-- At least one digit and what follows the digits. -/
def digits? (cs : List Char) : Option (List Char × List Char) :=
  let ds := cs.takeWhile Char.isDigit
  if ds.isEmpty then none else some (ds, cs.dropWhile Char.isDigit)

def fraction? : List Char → Option (List Char × List Char)
  | '.' :: rest => digits? rest
  | rest => some ([], rest)

/-- An exponent, which is zero when there is none. -/
def exponent? : List Char → Option Int
  | [] => some 0
  | e :: rest =>
    if e = 'e' ∨ e = 'E' then
      let (sign, rest) : Int × List Char :=
        match rest with
        | '-' :: rest => (-1, rest)
        | '+' :: rest => (1, rest)
        | rest => (1, rest)
      match digits? rest with
      | some (ds, []) => some (sign * natOfDigits ds)
      | _ => none
    else none

/-- Reads a whole run of characters as a number. The integer part has no leading zero. -/
def ofChars? (cs : List Char) : Option NumberLiteral := do
  let (negative, cs) :=
    match cs with
    | '-' :: rest => (true, rest)
    | cs => (false, cs)
  let (whole, rest) ← digits? cs
  if whole.head? = some '0' ∧ whole.length ≠ 1 then none
  let (fraction, tail) ← fraction? rest
  return ⟨negative, whole, fraction, ← exponent? tail, rest.isEmpty⟩

/-- The number with all its digits. -/
def exact (l : NumberLiteral) : Numeral :=
  ⟨l.negative, natOfDigits (l.whole ++ l.fraction), l.exponent - l.fraction.length, l.plain⟩

def significandLimit : Nat := Nat.pow 2 64

/-- Appends digits to a significand as long as it stays below the limit, and counts those appended.
-/
def append (significand : Nat) : List Char → Nat × Nat
  | [] => (significand, 0)
  | c :: rest =>
    let next := significand * 10 + digitValue c
    if next < significandLimit then
      let (total, count) := append next rest
      (total, count + 1)
    else (significand, 0)

/-- The number with the digits that fit. Those left out of the integer part still count as places;
then the fraction is appended to what has been kept. -/
def fitted (l : NumberLiteral) : Numeral :=
  let (significand, kept) := append 0 l.whole
  let dropped := l.whole.length - kept
  let (significand, places) := append significand l.fraction
  ⟨l.negative, significand, l.exponent + dropped - places, l.plain && dropped == 0⟩

end NumberLiteral

/-! ### Doubles -/

namespace Numeral

/-- The largest power of ten among the doubles. -/
def largestPower : Nat := 308

def powerOfTen (n : Nat) : Float := Float.ofScientific 1 false n

/-- A double times `10 ^ n`; `none` when that is infinite. -/
def scaleUp? (x : Float) (n : Nat) : Option Float :=
  if n ≤ largestPower then
    let y := x * powerOfTen n
    if y.isInf then none else some y
  else if x == 0 then some x
  else none

/-- A double divided by `10 ^ n`, in as few steps as there are powers for. -/
def scaleDown (x : Float) (n : Nat) : Float :=
  if n ≤ largestPower then x / powerOfTen n
  else if x == 0 then x
  else scaleDown (x / powerOfTen largestPower) (n - largestPower)
termination_by n
decreasing_by simp only [largestPower] at *; omega

/-- The double that a JSON text means by the number; `none` when it is infinite. -/
def toDouble? (n : Numeral) : Option Float :=
  let significand := Float.ofNat n.digits
  let magnitude :=
    if n.exponent < 0 then some (scaleDown significand n.exponent.natAbs)
    else scaleUp? significand n.exponent.toNat
  magnitude.map fun x => if n.negative then -x else x

/-- From here on an integer is written with an exponent. -/
def integerLimit : Nat := Nat.pow 10 16

/-- The number that a JSON text has for a finite double. An integer below the limit ends in a zero
behind the point. -/
def ofDouble (x : Float) : Numeral :=
  let n := shortest .toEven x
  let places := n.exponent.toNat
  if 0 ≤ n.exponent ∧ n.digits * Nat.pow 10 places < integerLimit then
    { n with digits := n.digits * Nat.pow 10 (places + 1), exponent := -1 }
  else n

end Numeral

end SolidTrace
