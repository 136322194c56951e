/-!
Trims: what is cut away from a surface.

A hit on a surface is kept when it passes every trim of the surface. `Trim` leaves open how surfaces
and arrays are named, since a relation program names them by position and a compiled scene by
number.
-/

namespace SolidTrace

inductive Trim (ι κ : Type)
  /-- Cuts away what lies inside a surface. -/
  | outer (surface : ι)
  /-- Cuts away what lies outside a surface. -/
  | inner (surface : ι)
  /-- Cuts away what lies inside a surface collected by an array. -/
  | accum (array : κ)
deriving DecidableEq, Repr

namespace Trim

variable {ι κ : Type}

def map {ι' κ' : Type} (f : ι → ι') (g : κ → κ') : Trim ι κ → Trim ι' κ'
  | outer s => .outer (f s)
  | inner s => .inner (f s)
  | accum a => .accum (g a)

/-- Whether a point of the surface `owner` survives a trim, given the surfaces it lies inside and
the surfaces that each array collects. No surface is cut by itself through a collection. -/
def keeps [DecidableEq ι] (owner : ι) (collected : κ → List ι) (inside : ι → Bool) :
    Trim ι κ → Bool
  | outer s => !inside s
  | inner s => inside s
  | accum a => !(collected a).any fun s => s != owner && inside s

end Trim

/-- Whether a point of the surface `owner` survives all of its trims. -/
def passesTrims {ι κ : Type} [DecidableEq ι] (owner : ι) (trims : List (Trim ι κ))
    (collected : κ → List ι) (inside : ι → Bool) : Bool :=
  trims.all (Trim.keeps owner collected inside)

end SolidTrace
