/-!
Compressed data.

A stream is a sequence of blocks of bits, each stored, with fixed codes or with codes of its own.
Every loop takes at least one bit, so the number of bits bounds them all.
-/

namespace SolidTrace.Png

/-- A place in a stream of bits, of which the lowest of each byte comes first. -/
structure BitReader where
  bytes : ByteArray
  position : Nat

namespace BitReader

def size (r : BitReader) : Nat := 8 * r.bytes.size

def bit? (r : BitReader) : Option (Nat × BitReader) := do
  let byte ← r.bytes[r.position / 8]?
  return ((byte.toNat >>> (r.position % 8)) % 2, { r with position := r.position + 1 })

/-- A number of some bits, the lowest first. -/
def bits? (r : BitReader) : (count : Nat) → Option (Nat × BitReader)
  | 0 => some (0, r)
  | count + 1 => do
    let (low, r) ← r.bit?
    let (high, r) ← r.bits? count
    return (low + 2 * high, r)

/-- Goes on to the next whole byte. -/
def align (r : BitReader) : BitReader := { r with position := (r.position + 7) / 8 * 8 }

end BitReader

/-! ### Codes -/

/-- A prefix code: for each length from one on, the symbols with a code of that length. Codes of one
length are consecutive, and start after those that are shorter. -/
abbrev PrefixCode := List (Array Nat)

def longestCode : Nat := 15

/-- The code that gives each symbol a code of the length listed for it; zero stands for none. -/
def PrefixCode.ofLengths (lengths : List Nat) : PrefixCode :=
  (List.range longestCode).map fun n =>
    (lengths.zipIdx.filterMap fun (length, symbol) =>
      if length = n + 1 then some symbol else none).toArray

/-- Reads a symbol; `code` is what has been read of its code, and `first` the first code of the
length at hand. -/
def PrefixCode.symbolFrom? (r : BitReader) (code first : Nat) : PrefixCode → Option (Nat × BitReader)
  | [] => none
  | symbols :: longer => do
    let (b, r) ← r.bit?
    let code := 2 * code + b
    let first := 2 * first
    if code < first then none
    else
      match symbols[code - first]? with
      | some symbol => some (symbol, r)
      | none => symbolFrom? r code (first + symbols.size) longer

def PrefixCode.symbol? (c : PrefixCode) (r : BitReader) : Option (Nat × BitReader) :=
  c.symbolFrom? r 0 0

/-! ### Blocks -/

/-- The codes for lengths of copies: the least length, and how many bits follow. -/
def lengthCodes : Array (Nat × Nat) :=
  #[(3, 0), (4, 0), (5, 0), (6, 0), (7, 0), (8, 0), (9, 0), (10, 0), (11, 1), (13, 1), (15, 1),
    (17, 1), (19, 2), (23, 2), (27, 2), (31, 2), (35, 3), (43, 3), (51, 3), (59, 3), (67, 4),
    (83, 4), (99, 4), (115, 4), (131, 5), (163, 5), (195, 5), (227, 5), (258, 0)]

/-- The codes for distances of copies: the least distance, and how many bits follow. -/
def distanceCodes : Array (Nat × Nat) :=
  #[(1, 0), (2, 0), (3, 0), (4, 0), (5, 1), (7, 1), (9, 2), (13, 2), (17, 3), (25, 3), (33, 4),
    (49, 4), (65, 5), (97, 5), (129, 6), (193, 6), (257, 7), (385, 7), (513, 8), (769, 8),
    (1025, 9), (1537, 9), (2049, 10), (3073, 10), (4097, 11), (6145, 11), (8193, 12), (12289, 12),
    (16385, 13), (24577, 13)]

/-- A number given by a code and the bits that follow it. -/
def extended? (table : Array (Nat × Nat)) (index : Nat) (r : BitReader) : Option (Nat × BitReader) := do
  let (least, count) ← table[index]?
  let (extra, r) ← r.bits? count
  return (least + extra, r)

/-- Repeats bytes from some distance back. -/
def copyBack? (out : ByteArray) (distance : Nat) : (count : Nat) → Option ByteArray
  | 0 => some out
  | count + 1 =>
    if out.size < distance then none
    else do copyBack? (out.push (← out[out.size - distance]?)) distance count

/-- Reads symbols up to the end of a block. -/
def codedBlock? (literals distances : PrefixCode) :
    (fuel : Nat) → BitReader → ByteArray → Option (BitReader × ByteArray)
  | 0, _, _ => none
  | fuel + 1, r, out => do
    let (symbol, r) ← literals.symbol? r
    if symbol < 256 then codedBlock? literals distances fuel r (out.push (UInt8.ofNat symbol))
    else if symbol = 256 then return (r, out)
    else
      let (count, r) ← extended? lengthCodes (symbol - 257) r
      let (index, r) ← distances.symbol? r
      let (distance, r) ← extended? distanceCodes index r
      codedBlock? literals distances fuel r (← copyBack? out distance count)

def storedBlock? (r : BitReader) (out : ByteArray) : Option (BitReader × ByteArray) := do
  let (size, r) ← r.align.bits? 16
  let (_, r) ← r.bits? 16
  let start := r.position / 8
  if r.bytes.size < start + size then none
  else some ({ r with position := 8 * (start + size) }, out ++ r.bytes.extract start (start + size))

def fixedLiterals : PrefixCode :=
  .ofLengths (List.replicate 144 8 ++ List.replicate 112 9 ++ List.replicate 24 7 ++
    List.replicate 8 8)

def fixedDistances : PrefixCode := .ofLengths (List.replicate 30 5)

/-- The order in which the lengths of the code for code lengths are written. -/
def lengthOrder : List Nat := [16, 17, 18, 0, 8, 7, 9, 6, 10, 5, 11, 4, 12, 3, 13, 2, 14, 1, 15]

/-- Some numbers of equal width. -/
def numbers? (width : Nat) : (count : Nat) → BitReader → Option (List Nat × BitReader)
  | 0, r => some ([], r)
  | count + 1, r => do
    let (n, r) ← r.bits? width
    let (rest, r) ← numbers? width count r
    return (n :: rest, r)

/-- Reads `count` code lengths after those in `done`. -/
def codeLengths? (code : PrefixCode) (count : Nat) :
    (fuel : Nat) → BitReader → (done : List Nat) → Option (List Nat × BitReader)
  | 0, _, _ => none
  | fuel + 1, r, done =>
    if count ≤ done.length then some (done.take count, r)
    else do
      let (symbol, r) ← code.symbol? r
      let (run, r) ← match symbol with
        | 16 => do
          let (n, r) ← r.bits? 2
          some (List.replicate (n + 3) (← done.getLast?), r)
        | 17 => do
          let (n, r) ← r.bits? 3
          some (List.replicate (n + 3) 0, r)
        | 18 => do
          let (n, r) ← r.bits? 7
          some (List.replicate (n + 11) 0, r)
        | n => some ([n], r)
      codeLengths? code count fuel r (done ++ run)

/-- The codes that a block brings with it. -/
def ownCodes? (r : BitReader) : Option (PrefixCode × PrefixCode × BitReader) := do
  let (literals, r) ← r.bits? 5
  let (distances, r) ← r.bits? 5
  let (count, r) ← r.bits? 4
  let (written, r) ← numbers? 3 (count + 4) r
  let order := lengthOrder.zip written
  let code := PrefixCode.ofLengths ((List.range 19).map fun n => (List.lookup n order).getD 0)
  let (lengths, r) ← codeLengths? code (literals + 257 + distances + 1) (r.size + 1) r []
  return (.ofLengths (lengths.take (literals + 257)), .ofLengths (lengths.drop (literals + 257)), r)

/-- Reads blocks up to the last one. -/
def blocks? : (fuel : Nat) → BitReader → ByteArray → Option ByteArray
  | 0, _, _ => none
  | fuel + 1, r, out => do
    let (last, r) ← r.bit?
    let (kind, r) ← r.bits? 2
    let (r, out) ← match kind with
      | 0 => storedBlock? r out
      | 1 => codedBlock? fixedLiterals fixedDistances (r.size + 1) r out
      | 2 => do
        let (literals, distances, r) ← ownCodes? r
        codedBlock? literals distances (r.size + 1) r out
      | _ => none
    if last = 1 then return out else blocks? fuel r out

/-- The data of a stream with its two bytes of header. -/
def inflate? (bytes : ByteArray) : Option ByteArray :=
  let r : BitReader := ⟨bytes, 16⟩
  blocks? (r.size + 1) r ByteArray.empty

end SolidTrace.Png
