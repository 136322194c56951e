import SolidTrace.Dict
import SolidTrace.Geometry.Box
import SolidTrace.Surface.Quadric

/-!
Scene documents.

A document names materials, textures and a library of arrays, and has a root array. An array is a
list of parts with a program of relations between them.
-/

namespace SolidTrace

/-- From this magnitude on a clip bound counts as infinite. -/
def unbounded {S : Type} [Scalar S] : S := 1e30

/-- How texture space lies on a side of a surface; the rotation is in degrees. -/
structure Mapping (S : Type) where
  scale : Vec2 S
  rotation : S
  position : Vec2 S
deriving BEq, DecidableEq, Repr

namespace Mapping

def identity {S : Type} [Scalar S] : Mapping S := ⟨⟨1, 1⟩, 0, ⟨0, 0⟩⟩

end Mapping

/-- What one side of a surface shows. -/
structure Face (S : Type) where
  mapping : Mapping S
  material : String
deriving BEq, DecidableEq, Repr

structure Surface (S : Type) where
  shape : Shape S
  clip : Box S
  outer : Face S
  inner : Face S
deriving BEq, DecidableEq, Repr

namespace Surface

/-- The clip box of a surface that is not clipped. -/
def noClip {S : Type} [Scalar S] : Box S := ⟨Vec.splat (-unbounded), Vec.splat unbounded⟩

end Surface

inductive Finish
  | plain
  /-- Gives light of its own and is not shaded. -/
  | light
  /-- Is shaded and reflects. -/
  | metal
deriving DecidableEq, Repr

structure Material (S : Type) where
  finish : Finish
  texture : String
  diffuse : S
  specular : S
  power : S
  reflect : S
  transmit : S
  refract : S
  ior : Option S
  /-- Takes the place of `power`. -/
  exponent : Option S
deriving BEq, DecidableEq, Repr

inductive TextureSource (S : Type)
  | color (rgb : UInt32)
  | checker (a b : UInt32) (scale : S)
  | image (path : String)
deriving BEq, DecidableEq, Repr

structure Camera (S : Type) where
  /-- The colour of the ambient light. -/
  color : UInt32
  intensity : S
  /-- The distance of a screen of width one. -/
  pov : S
  /-- Distance per second along each axis. -/
  speed : Vec S
  /-- Degrees per second about each axis. -/
  turning : Vec S
deriving BEq, DecidableEq, Repr

namespace Camera

def defaultSpeed {S : Type} [Scalar S] : Vec S := Vec.splat 1

def defaultTurning {S : Type} [Scalar S] : Vec S := Vec.splat 45

end Camera

/-- How light falls off with distance; a range of zero has no end. -/
structure Attenuation (S : Type) where
  range : S
  constant : S
  linear : S
  quadratic : S
deriving BEq, DecidableEq, Repr

namespace Attenuation

def flat {S : Type} [Scalar S] : Attenuation S := ⟨0, 1, 0, 0⟩

end Attenuation

structure Light (S : Type) where
  color : UInt32
  ambient : S
  source : S
  attenuation : Attenuation S
deriving BEq, DecidableEq, Repr

/-- The materials that a part puts on all surfaces below it. -/
structure Override where
  outer : String
  inner : String
deriving DecidableEq, Repr

inductive Animation (S : Type)
  | spin (axis : Axis) (degreesPerSecond : S)
  | bob (axis : Axis) (amplitude periodMs : S)
  | custom (name : String)
deriving BEq, DecidableEq, Repr

namespace Relation

inductive Op
  | minusOuter | minusInner | minusAccum | indexArray
  | boundArray | untieArray | boundIndex | untieIndex
deriving DecidableEq, Repr

end Relation

/-- A step of a relation program; `-1` stands for the array itself, for the current target or for no
operand, as the operation has it. -/
structure Relation where
  target : Int
  op : Relation.Op
  operand : Int
deriving DecidableEq, Repr

/-- What parts of every kind have. -/
structure Header (S : Type) where
  name : Option String
  placement : Placement S
  materials : Option Override
  animation : Option (Animation S)
  /-- The time in milliseconds from which the part is animated. -/
  time : Int
deriving BEq, DecidableEq, Repr

inductive Part (S : Type)
  | camera (header : Header S) (camera : Camera S)
  | light (header : Header S) (light : Light S)
  | surface (header : Header S) (surface : Surface S)
  | assembly (header : Header S) (parts : List (Part S)) (relations : List Relation)
  /-- A copy of an array of the library. -/
  | copy (header : Header S) (name : String)
deriving Repr

namespace Part

variable {S : Type}

def header : Part S → Header S
  | camera h _ | light h _ | surface h _ | assembly h _ _ | copy h _ => h

section

variable [BEq S]

mutual

protected def beq : Part S → Part S → Bool
  | camera h c, camera h' c' => h == h' && c == c'
  | light h l, light h' l' => h == h' && l == l'
  | surface h s, surface h' s' => h == h' && s == s'
  | assembly h ps rs, assembly h' ps' rs' => h == h' && listBeq ps ps' && rs == rs'
  | copy h n, copy h' n' => h == h' && n == n'
  | _, _ => false

def listBeq : List (Part S) → List (Part S) → Bool
  | [], [] => true
  | p :: ps, q :: qs => p.beq q && listBeq ps qs
  | _, _ => false

end

instance : BEq (Part S) := ⟨Part.beq⟩

end

end Part

/-- An array: parts by position, and the relations between them. -/
structure Assembly (S : Type) where
  parts : List (Part S)
  relations : List Relation
deriving BEq, Repr

structure Document (S : Type) where
  version : String
  materials : Dict (Material S)
  textures : Dict (TextureSource S)
  /-- The arrays that parts may copy. -/
  library : Dict (Assembly S)
  root : Assembly S
deriving BEq

end SolidTrace
