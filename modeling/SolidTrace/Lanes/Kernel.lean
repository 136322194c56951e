import SolidTrace.Fault
import SolidTrace.Lanes.Config

/-!
From samples to frame words.

A pixel is the average of its samples. `resolvePixel` adds them up one pixel at a time; a kernel
works on packets of pixels and adds one sample to every pixel of the packet before it turns to the
next sample. The arithmetic of colours is a parameter, so that nothing depends on its laws.
-/

namespace SolidTrace

/-- Arithmetic on one component of a colour. -/
class Tone (T : Type) extends Add T, Mul T where
  black : T
  /-- The weight of one sample out of `n`. -/
  share : Nat → T
  /-- The component as a byte, with one as 255; outside of `[0, 1]` it is clamped. -/
  byte : T → UInt32

structure Rgb (T : Type) where
  red : T
  green : T
  blue : T
deriving BEq, DecidableEq, Repr

namespace Rgb

variable {T : Type} [Tone T]

def black : Rgb T := ⟨Tone.black, Tone.black, Tone.black⟩

instance : Add (Rgb T) := ⟨fun a b => ⟨a.red + b.red, a.green + b.green, a.blue + b.blue⟩⟩

def scale (a : Rgb T) (k : T) : Rgb T := ⟨a.red * k, a.green * k, a.blue * k⟩

/-- The word `0x00RRGGBB`. -/
def pack (c : Rgb T) : UInt32 :=
  Tone.byte c.red <<< 16 ||| Tone.byte c.green <<< 8 ||| Tone.byte c.blue

end Rgb

section

variable {T : Type} [Tone T]

/-- The word of a pixel with the given samples. -/
def resolvePixel (samples : List (Rgb T)) : UInt32 :=
  ((samples.foldl (· + ·) Rgb.black).scale (Tone.share (max samples.length 1))).pack

/-- The words of one packet of pixels, sample by sample over all of its lanes. -/
def resolvePacket (colors : Array (Rgb T)) (samples count : Nat) : Except Fault (List UInt32) := do
  let sums ← (List.range samples).foldlM (fun sums s =>
    sums.zipIdx.mapM fun (sum, lane) => do
      return sum + (← fetch colors (lane * samples + s))) (List.replicate count Rgb.black)
  return sums.map fun sum => (sum.scale (Tone.share (max samples 1))).pack

end

/-- A kernel for packets of `lanes` pixels. -/
structure Kernel where
  config : LaneConfig
  lanes : Nat
  lanes_pos : 0 < lanes
deriving Repr

namespace Kernel

/-- The kernel of a configuration; a width without a kernel of its own gets the four-lane one. -/
def select (config : LaneConfig) : Kernel :=
  match config.width with
  | 2 => ⟨config, 8, by decide⟩
  | 4 => ⟨config, 16, by decide⟩
  | _ => ⟨config, 4, by decide⟩

variable {T : Type} [Tone T]

/-- A segment of a table. -/
def segment (table : Array (Rgb T)) (start stop : Nat) : Except Fault (Array (Rgb T)) :=
  if stop ≤ table.size then .ok (table.extract start stop) else .error (.segment stop table.size)

/-- The words of the pixels from `done` up to `count`, packet by packet. -/
def resolveFrom (k : Kernel) (colors : Array (Rgb T)) (samples count done : Nat) :
    Except Fault (List UInt32) :=
  if count ≤ done then .ok []
  else do
    let size := min k.lanes (count - done)
    let part ← segment colors (done * samples) ((done + size) * samples)
    let words ← resolvePacket part samples size
    let rest ← k.resolveFrom colors samples count (done + size)
    return words ++ rest
termination_by count - done
decreasing_by
  have := k.lanes_pos
  omega

/-- The words of `count` pixels, each given by `samples` consecutive colours. -/
def resolve (k : Kernel) (colors : Array (Rgb T)) (samples count : Nat) :
    Except Fault (List UInt32) :=
  k.resolveFrom colors samples count 0

end Kernel

/-- The width of a frame row in pixels, filled up to whole packets. -/
def rowStride (width lanes : Nat) : Nat :=
  let lanes := max lanes 1
  (width + lanes - 1) / lanes * lanes

instance : Tone Float32 where
  black := 0
  share n := 1 / n.toFloat32
  byte v :=
    let v := if v < 0 then 0 else if 1 < v then 1 else v
    (v * 255 + 0.5).toUInt32

end SolidTrace
