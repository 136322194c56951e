import SolidTrace.Fault

/-!
Frames.

A frame holds its rows one after the other, each filled up to whole packets of pixels.
-/

namespace SolidTrace

/-- The size of a frame, and the height of the bands in which it is rendered. -/
structure FrameSpec where
  width : Nat
  height : Nat
  tileHeight : Nat
deriving DecidableEq, Repr

structure Frame where
  /-- The distance from row to row in words. -/
  stride : Nat
  words : Array UInt32
deriving DecidableEq, Repr

/-- A word for a position of a frame. -/
structure Store where
  position : Nat
  word : UInt32
deriving DecidableEq, Repr

namespace Frame

def blank (stride height : Nat) : Frame := ⟨stride, Array.replicate (stride * height) 0⟩

/-- Whether words can be stored; if not, where the first one misses the frame. -/
def check (f : Frame) (l : List Store) : Except Fault Unit :=
  l.forM fun s =>
    if s.position < f.words.size then .ok () else .error (.index s.position f.words.size)

def store (f : Frame) (s : Store) : Frame :=
  { f with words := f.words.setIfInBounds s.position s.word }

def storeAll (f : Frame) (l : List Store) : Frame := l.foldl store f

/-- All words, row by row. -/
def rows (f : Frame) : List (List UInt32) :=
  (List.range (f.words.size / f.stride)).map fun y =>
    (f.words.extract (y * f.stride) ((y + 1) * f.stride)).toList

/-- The stores that put words at the beginning of a row. -/
def rowStores (f : Frame) (y : Nat) (words : List UInt32) : List Store :=
  words.zipIdx.map fun (word, x) => ⟨y * f.stride + x, word⟩

end Frame

/-- A frame with its visible size. -/
structure FrameView where
  width : Nat
  height : Nat
  frame : Frame
deriving DecidableEq, Repr

namespace FrameView

def pixel (v : FrameView) (x y : Nat) : Except Fault UInt32 :=
  fetch v.frame.words (y * v.frame.stride + x)

/-- The visible pixels of a row. -/
def row (v : FrameView) (y : Nat) : Except Fault (List UInt32) :=
  let start := y * v.frame.stride
  let stop := start + v.width
  if stop ≤ v.frame.words.size then .ok (v.frame.words.extract start stop).toList
  else .error (.segment stop v.frame.words.size)

/-- The visible pixels, row by row. -/
def rows (v : FrameView) : Except Fault (List (List UInt32)) := (List.range v.height).mapM v.row

end FrameView

end SolidTrace
