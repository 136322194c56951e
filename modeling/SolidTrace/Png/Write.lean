import SolidTrace.Png.Checksum
import SolidTrace.Scene.Frame

/-!
Frames as PNG files.

The pixels are stored as they are, in blocks without compression.
-/

namespace SolidTrace.Png

def chunk (name : String) (content : ByteArray) : ByteArray :=
  let body := name.toUTF8 ++ content
  bigEndian (UInt32.ofNat content.size) ++ body ++ bigEndian (crc body)

/-- The most bytes in a stored block. -/
def blockLimit : Nat := 65535

/-- A stored block: whether it is the last one, its size and the complement of the size, its bytes.
-/
def storedBlock (last : Bool) (bytes : ByteArray) : ByteArray :=
  let size := UInt16.ofNat bytes.size
  let rest := ~~~size
  ⟨#[if last then 1 else 0, size.toUInt8, (size >>> 8).toUInt8, rest.toUInt8,
    (rest >>> 8).toUInt8]⟩ ++ bytes

/-- Data in the form of compressed data. -/
def stored (bytes : ByteArray) : ByteArray :=
  let count := max ((bytes.size + blockLimit - 1) / blockLimit) 1
  let blocks := (List.range count).map fun k =>
    storedBlock (k + 1 = count) (bytes.extract (k * blockLimit) ((k + 1) * blockLimit))
  blocks.foldl (· ++ ·) ⟨#[0x78, 0x01]⟩ ++ bigEndian (adler bytes)

/-- A row of pixels: no filter, and three bytes a pixel. -/
def rowBytes (row : List UInt32) : ByteArray :=
  row.foldl (fun (bytes : ByteArray) (w : UInt32) =>
    ((bytes.push (w >>> 16).toUInt8).push (w >>> 8).toUInt8).push w.toUInt8) ⟨#[0]⟩

/-- The file of a picture with the given rows of words `0xRRGGBB`. -/
def ofRows (width height : Nat) (rows : List (List UInt32)) : ByteArray :=
  let header := bigEndian (UInt32.ofNat width) ++ bigEndian (UInt32.ofNat height) ++
    ⟨#[8, 2, 0, 0, 0]⟩
  let pixels := rows.foldl (fun bytes row => bytes ++ rowBytes row) ByteArray.empty
  signature ++ chunk "IHDR" header ++ chunk "IDAT" (stored pixels) ++ chunk "IEND" ByteArray.empty

end SolidTrace.Png
