/-!
Flags for update and rendering.
-/

namespace SolidTrace

/-- A set of flags, one bit each. -/
structure Options where
  bits : UInt32
deriving DecidableEq, Repr

namespace Options

def none : Options := ⟨0⟩

/-- Animates on the first slice only. -/
def serialAnimate : Options := ⟨1⟩

/-- Finds the places of objects on the first slice only. -/
def serialTransform : Options := ⟨2⟩

/-- Places surfaces on the first slice only. -/
def serialSurfaces : Options := ⟨4⟩

/-- Never passes over an array. -/
def noCulling : Options := ⟨8⟩

/-- Casts no shadows. -/
def noShadows : Options := ⟨16⟩

def contains (o other : Options) : Bool := o.bits &&& other.bits == other.bits

def union (o other : Options) : Options := ⟨o.bits ||| other.bits⟩

/-- Whether a phase of an update is left to the first slice. -/
def serialPhase (o : Options) (phase : Nat) : Bool :=
  match phase with
  | 1 => o.contains serialAnimate
  | 2 => o.contains serialTransform
  | 3 => o.contains serialSurfaces
  | _ => false

end Options

end SolidTrace
