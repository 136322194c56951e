import SolidTrace.Scalar
import SolidTrace.Number.Decimal

/-!
Doubles as scalars.
-/

namespace SolidTrace

instance : Scalar Float where
  decLt := inferInstance
  decLe := inferInstance
  ofInt n := Float.ofInt n
  ofDecimal m s e := OfScientific.ofScientific m s e
  infinity := 1 / 0
  pi := 3.141592653589793
  abs := Float.abs
  sqrt := Float.sqrt
  sin := Float.sin
  cos := Float.cos
  atan2 := Float.atan2
  pow := Float.pow
  rem := Dyadic.remainder
  floor x := x.floor.toInt64.toInt
  truncate x := x.toUInt64.toNat
  decimal := decimalText
  widen := Float32.toFloat
  narrow := Float.toFloat32
  checked := false

end SolidTrace
