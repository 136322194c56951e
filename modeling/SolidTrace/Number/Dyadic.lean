/-!
Doubles as integers times powers of two.

The remainder of two doubles is again a double, and is taken exactly in this form.
-/

namespace SolidTrace

/-- The finite double `± mantissa * 2 ^ exponent`. -/
structure Dyadic where
  negative : Bool
  mantissa : Nat
  exponent : Int
deriving DecidableEq, Repr

namespace Dyadic

/-- Reads the fields of a finite double; `none` for infinities and NaNs. -/
def ofDouble? (x : Float) : Option Dyadic :=
  let b := x.toBits.toNat
  let negative := b / Nat.pow 2 63 == 1
  let field : Nat := b / Nat.pow 2 52 % Nat.pow 2 11
  let fraction : Nat := b % Nat.pow 2 52
  if field = 2047 then none
  else if field = 0 then some ⟨negative, fraction, -1074⟩
  else some ⟨negative, fraction + Nat.pow 2 52, Int.ofNat field - 1075⟩

/-- Moves a mantissa below `2 ^ 53` up to 53 bits as far as the exponent range allows. -/
def normalize (m : Nat) (e : Int) : Nat × Int :=
  let room := 52 - m.log2
  let shift := min room (e + 1074).toNat
  (m * Nat.pow 2 shift, e - shift)

/-- The double with this value, for a mantissa below `2 ^ 53` and an exponent from -1074 to 971. -/
def toDouble (d : Dyadic) : Float :=
  let sign := if d.negative then Nat.pow 2 63 else 0
  let (m, e) := normalize d.mantissa d.exponent
  let magnitude := if m < Nat.pow 2 52 then m else (e + 1075).toNat * Nat.pow 2 52 + (m - Nat.pow 2 52)
  Float.ofBits (UInt64.ofNat (sign + magnitude))

/-- The remainder of a division rounded toward zero, for a divisor that is not zero. -/
def rem (a n : Dyadic) : Dyadic :=
  let e := min a.exponent n.exponent
  let left := a.mantissa * Nat.pow 2 (a.exponent - e).toNat
  let right := n.mantissa * Nat.pow 2 (n.exponent - e).toNat
  ⟨a.negative, left % right, e⟩

/-- The remainder of two doubles. An infinite divisor leaves a finite dividend alone. -/
def remainder (a n : Float) : Float :=
  match ofDouble? a, ofDouble? n with
  | some p, some q => if q.mantissa = 0 then 0 / 0 else (p.rem q).toDouble
  | some _, none => if n == n then a else n
  | none, _ => 0 / 0

end Dyadic

end SolidTrace
