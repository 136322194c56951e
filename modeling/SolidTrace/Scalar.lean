import SolidTrace.Fault

/-!
Numbers for the geometry.

`Scalar` lists the operations of floating-point arithmetic and states no law, so that one set of
definitions runs on doubles and can be read over other number systems as well. The rest of this
module derives what the geometry needs from those operations alone.
-/

namespace SolidTrace

/-- The operations of floating-point arithmetic: `==` is numeric equality, under which a NaN
differs from itself, and the order is the partial one that leaves every NaN out. -/
class Scalar (S : Type) extends Add S, Sub S, Mul S, Div S, Neg S, LT S, LE S, BEq S where
  decLt : DecidableLT S
  decLe : DecidableLE S
  ofInt : Int → S
  /-- The number `m * 10 ^ e`, or `m / 10 ^ e` when the flag is set. -/
  ofDecimal : Nat → Bool → Nat → S
  infinity : S
  pi : S
  abs : S → S
  sqrt : S → S
  sin : S → S
  cos : S → S
  /-- The angle of the point `(x, y)`, written `atan2 y x`. -/
  atan2 : S → S → S
  pow : S → S → S
  /-- The remainder of a division rounded toward zero: it has the sign of the dividend. -/
  rem : S → S → S
  /-- The largest integer not above the number, kept within 64 signed bits; zero for a NaN. -/
  floor : S → Int
  /-- The integer part, kept within 64 unsigned bits; zero for a NaN and below zero. -/
  truncate : S → Nat
  /-- The shortest decimal text. -/
  decimal : S → String
  /-- A component of a colour as a number. -/
  widen : Float32 → S
  /-- The nearest component of a colour. -/
  narrow : S → Float32
  /-- Whether a sum of whole numbers that leaves its 64 bits is a fault; if not, it wraps around. -/
  checked : Bool

namespace Scalar

variable {S : Type} [Scalar S]

instance : DecidableLT S := Scalar.decLt
instance : DecidableLE S := Scalar.decLe

instance (priority := low) instNumeral (n : Nat) : OfNat S n := ⟨Scalar.ofInt n⟩
instance (priority := low) instDecimal : OfScientific S := ⟨Scalar.ofDecimal⟩

def isNaN (a : S) : Bool := !(a == a)

def isFinite (a : S) : Bool := abs a < infinity

def isInfinite (a : S) : Bool := abs a == infinity

/-- The smaller of two numbers; a NaN gives way to the other one. -/
def lesser (a b : S) : S := if isNaN a then b else if b < a then b else a

/-- The larger of two numbers; a NaN gives way to the other one. -/
def greater (a b : S) : S := if isNaN a then b else if a < b then b else a

/-- One with the sign of the number, the sign of a zero included. -/
def signum (a : S) : S :=
  if isNaN a then a
  else if a < 0 then -1
  else if a == 0 && decide (1 / a < 0) then -1
  else 1

/-- The remainder moved into `[0, n]`: a negative remainder has `n` added, which may round up to
`n` itself. -/
def wrap (a n : S) : S :=
  let r := rem a n
  if r < 0 then r + abs n else r

/-- An angle in degrees as radians. -/
def radians (a : S) : S := a * (pi / 180)

def sum (l : List S) : S := l.foldl (· + ·) 0

/-- The sum of two whole numbers, kept in 64 signed bits. -/
def addWhole (S : Type) [Scalar S] (a b : Int) : Except Fault Int :=
  let sum := (a + b).bmod (Nat.pow 2 64)
  if checked S ∧ sum ≠ a + b then .error .overflow else .ok sum

end Scalar

end SolidTrace
