import SolidTrace.Png.Checksum
import SolidTrace.Png.Inflate
import SolidTrace.Texture

/-!
Images from PNG files.

Pictures are read that have eight bits a channel and rows from top to bottom; an alpha channel is
passed over.
-/

namespace SolidTrace.Png

/-- A number of four bytes, the highest first. -/
def word? (bytes : ByteArray) (position : Nat) : Option Nat := do
  let a ← bytes[position]?
  let b ← bytes[position + 1]?
  let c ← bytes[position + 2]?
  let d ← bytes[position + 3]?
  return ((a.toNat * 256 + b.toNat) * 256 + c.toNat) * 256 + d.toNat

/-- The chunks of a file from a position on, by name. -/
def chunksFrom? (bytes : ByteArray) : (fuel : Nat) → (position : Nat) → Option (List (String × ByteArray))
  | 0, _ => none
  | fuel + 1, position =>
    if bytes.size ≤ position then some []
    else do
      let size ← word? bytes position
      let start := position + 8
      if bytes.size < start + size + 4 then none
      else
        let name ← String.fromUTF8? (bytes.extract (position + 4) start)
        if (← word? bytes (start + size)) ≠ (crc (bytes.extract (position + 4) (start + size))).toNat
        then none
        else
          let rest ← chunksFrom? bytes fuel (start + size + 4)
          return (name, bytes.extract start (start + size)) :: rest

def chunks? (bytes : ByteArray) : Option (List (String × ByteArray)) :=
  if bytes.extract 0 8 == signature then chunksFrom? bytes (bytes.size + 1) 8 else none

/-! ### Rows -/

/-- Of the bytes before, above and before the one above, the one nearest to the first two less the
third. -/
def nearestOfThree (a b c : Nat) : Nat :=
  let p : Int := a + b - c
  let pa := (p - a).natAbs
  let pb := (p - b).natAbs
  let pc := (p - c).natAbs
  if pa ≤ pb ∧ pa ≤ pc then a else if pb ≤ pc then b else c

/-- The bytes of a row, given those of the row above; `step` is the number of bytes of a pixel. -/
def unfilterRow (filter step : Nat) (above line : ByteArray) : ByteArray :=
  line.foldl (fun out byte =>
    let i := out.size
    let before (b : ByteArray) : Nat := if i < step then 0 else b[i - step]?.elim 0 UInt8.toNat
    let a := before out
    let b := above[i]?.elim 0 UInt8.toNat
    let predicted := match filter with
      | 1 => a
      | 2 => b
      | 3 => (a + b) / 2
      | 4 => nearestOfThree a b (before above)
      | _ => 0
    out.push (byte + UInt8.ofNat predicted)) ByteArray.empty

/-- Rows of `size` bytes, each behind the number of its filter. -/
def rows? (data : ByteArray) (size step : Nat) : (count position : Nat) → (above : ByteArray) →
    Option (List ByteArray)
  | 0, _, _ => some []
  | count + 1, position, above => do
    let filter ← data[position]?
    if data.size < position + 1 + size ∨ 4 < filter then none
    else
      let line := data.extract (position + 1) (position + 1 + size)
      let row := unfilterRow filter.toNat step above line
      return row :: (← rows? data size step count (position + 1 + size) row)

/-! ### Pictures -/

/-- The bytes of a pixel for each type of colour. -/
def pixelSize? : Nat → Option Nat
  | 0 | 3 => some 1
  | 2 => some 3
  | 4 => some 2
  | 6 => some 4
  | _ => none

def rgbWord (red green blue : UInt8) : UInt32 :=
  red.toUInt32 <<< 16 ||| green.toUInt32 <<< 8 ||| blue.toUInt32

/-- The colour of a pixel. -/
def pixel? (type : Nat) (palette row : ByteArray) (position : Nat) : Option UInt32 := do
  let first ← row[position]?
  match type with
  | 0 | 4 => return rgbWord first first first
  | 3 =>
    let entry := 3 * first.toNat
    return rgbWord (← palette[entry]?) (← palette[entry + 1]?) (← palette[entry + 2]?)
  | _ => return rgbWord first (← row[position + 1]?) (← row[position + 2]?)

/-- The image in a file. -/
def decode? (bytes : ByteArray) : Option Image := do
  let chunks ← chunks? bytes
  let header ← List.lookup "IHDR" chunks
  let width ← word? header 0
  let height ← word? header 4
  let depth ← header[8]?
  let type := (← header[9]?).toNat
  let interlace ← header[12]?
  if depth ≠ 8 ∨ interlace ≠ 0 ∨ width = 0 ∨ height = 0 then none
  let step ← pixelSize? type
  let palette := (List.lookup "PLTE" chunks).getD ByteArray.empty
  let data := (chunks.filterMap fun (name, content) =>
    if name == "IDAT" then some content else none).foldl (· ++ ·) ByteArray.empty
  let rows ← rows? (← inflate? data) (width * step) step height 0 ByteArray.empty
  let words ← rows.mapM fun row =>
    (List.range width).mapM fun x => pixel? type palette row (x * step)
  return Image.ofRows words

end SolidTrace.Png
