import SolidTrace.Scalar

/-!
SIMD configurations and antialiasing levels.

A configuration is a pair of bytes, packed as `width + 256 * variant`; zero leaves the choice of
that axis open.
-/

namespace SolidTrace

structure LaneConfig where
  width : UInt8
  variant : UInt8
deriving DecidableEq, Repr

namespace LaneConfig

def automatic : LaneConfig := ⟨0, 0⟩

/-- The configuration in the two low bytes of a word; higher bits are ignored. -/
def unpack (word : UInt32) : LaneConfig := ⟨word.toUInt8, (word >>> 8).toUInt8⟩

def pack (c : LaneConfig) : UInt32 := c.width.toUInt32 ||| c.variant.toUInt32 <<< 8

/-- Pixels per packet at this width. -/
def lanes (c : LaneConfig) : Nat := 4 * c.width.toNat

def isAutomatic (c : LaneConfig) : Bool := c.width == 0 && c.variant == 0

/-- The order by width, then by variant. -/
def le (c d : LaneConfig) : Bool := c.width < d.width || c.width == d.width && c.variant ≤ d.variant

/-- Lower-case hexadecimal with at least four digits. -/
def hex (n : Nat) : String :=
  let digits := Nat.toDigits 16 n
  String.ofList ("0x".toList ++ List.replicate (4 - digits.length) '0' ++ digits)

def text (c : LaneConfig) : String :=
  s!"w{c.width.toNat}v{c.variant.toNat} ({hex c.pack.toNat})"

end LaneConfig

/-- The number of samples taken in each pixel. -/
inductive Fsaa
  | off | x2 | x4 | x8
deriving DecidableEq, Repr

namespace Fsaa

def all : List Fsaa := [off, x2, x4, x8]

/-- The level with a code; codes past the last one stand for eight samples. -/
def ofLevel : Nat → Fsaa
  | 0 => off
  | 1 => x2
  | 2 => x4
  | _ => x8

def level : Fsaa → Nat
  | off => 0
  | x2 => 1
  | x4 => 2
  | x8 => 3

def name : Fsaa → String
  | off => "Off"
  | x2 => "X2"
  | x4 => "X4"
  | x8 => "X8"

def samples (f : Fsaa) : Nat := Nat.pow 2 f.level

/-- Where in a pixel the samples lie, in sixteenths of its width and height. -/
def sixteenths : Fsaa → List (Nat × Nat)
  | off => [(8, 8)]
  | x2 => [(4, 4), (12, 12)]
  | x4 => [(6, 2), (14, 6), (10, 14), (2, 10)]
  | x8 => [(9, 5), (7, 11), (13, 9), (5, 3), (3, 13), (1, 7), (11, 15), (15, 1)]

/-- Where in a pixel the samples lie. -/
def offsets {S : Type} [Scalar S] (f : Fsaa) : List (S × S) :=
  f.sixteenths.map fun (x, y) => (Scalar.ofInt x / 16, Scalar.ofInt y / 16)

theorem length_sixteenths (f : Fsaa) : f.sixteenths.length = f.samples := by
  cases f <;> rfl

end Fsaa

end SolidTrace
