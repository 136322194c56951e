import SolidTrace.Memory.Ledger
import SolidTrace.Motion.Animator
import SolidTrace.Surface.Trim
import SolidTrace.Texture

/-!
Compiled scenes.

An arena holds tables of what a scene is made of; entries refer to one another by position. Array
zero is the root, and an array comes after the one it stands in.
-/

namespace SolidTrace

/-- What stands at a position of an array, by its place in the tables. -/
inductive Element
  | surface (id : Nat)
  | array (id : Nat)
  | camera (id : Nat)
  | light (id : Nat)
deriving DecidableEq, Repr

structure ObjectNode (S : Type) where
  /-- The object of the array that it stands in; none at the root. -/
  parent : Option Nat
  placement : Placement S
  animator : Option (Animator S)
  time : Int
  path : String

/-- A side of a surface with its material found. -/
structure FaceNode (S : Type) where
  material : Nat
  mapping : Mapping S
deriving DecidableEq, Repr

structure SurfaceNode (S : Type) where
  object : Nat
  array : Nat
  /-- Where it stands in its array. -/
  position : Nat
  shape : Shape S
  quadric : Quadric S
  clip : Box S
  bounds : Box S
  outer : FaceNode S
  inner : FaceNode S
  trims : List (Trim Nat Nat)
deriving DecidableEq, Repr

/-- The boxes around an array, in its own frame. -/
structure Volume (S : Type) where
  /-- Around the elements that count for its volume. -/
  bounds : Box S
  /-- Around all elements. -/
  extent : Box S
deriving DecidableEq, Repr

structure ArrayNode (S : Type) where
  /-- The object that the array hangs on; none for the root. -/
  object : Option Nat
  path : String
  elements : List Element
  /-- The surfaces in the array and below. -/
  surfaces : List Nat
  bounded : Bool
  included : List Bool
  accumulator : List Nat
  volume : Volume S
deriving DecidableEq, Repr

/-- Whether the element at a position counts for the volume of its array. -/
def ArrayNode.counts {S : Type} (n : ArrayNode S) (position : Nat) : Except Fault Bool :=
  match n.included[position]? with
  | some counts => .ok counts
  | none => .error (.index position n.included.length)

structure CameraNode (S : Type) where
  object : Nat
  camera : Camera S
deriving DecidableEq, Repr

structure LightNode (S : Type) where
  object : Nat
  light : Light S
deriving DecidableEq, Repr

structure MaterialNode (S : Type) where
  name : String
  finish : Finish
  texture : Nat
  diffuse : S
  specular : S
  power : S
  reflect : S
  transmit : S
  refract : S
  exponent : S
deriving DecidableEq, Repr

structure TextureNode (S : Type) where
  name : String
  texture : Texture S

structure Arena (S : Type) where
  objects : Array (ObjectNode S)
  surfaces : Array (SurfaceNode S)
  arrays : Array (ArrayNode S)
  cameras : Array (CameraNode S)
  lights : Array (LightNode S)
  materials : Array (MaterialNode S)
  textures : Array (TextureNode S)

/-! ### How entries lie in memory -/

namespace Layout

def element : Layout := ⟨16, 8⟩
def trim : Layout := ⟨16, 8⟩
def surfaceId : Layout := ⟨8, 8⟩
def object : Layout := ⟨136, 8⟩
def surface : Layout := ⟨304, 8⟩
def array : Layout := ⟨240, 8⟩
def camera : Layout := ⟨80, 8⟩
def light : Layout := ⟨64, 8⟩
def material : Layout := ⟨96, 8⟩
def texel : Layout := ⟨12, 4⟩
def pixel : Layout := ⟨4, 4⟩

end Layout

/-- The numbers of entries of an arena, and the bytes reserved for it. -/
structure Stats where
  objects : Nat
  surfaces : Nat
  arrays : Nat
  cameras : Nat
  lights : Nat
  trims : Nat
  bytes : Nat
deriving DecidableEq, Repr

namespace Arena

variable {S : Type}

def empty : Arena S := ⟨#[], #[], #[], #[], #[], #[], #[]⟩

def root : Nat := 0

def stats (a : Arena S) (bytes : Nat) : Stats :=
  { objects := a.objects.size
    surfaces := a.surfaces.size
    arrays := a.arrays.size
    cameras := a.cameras.size
    lights := a.lights.size
    trims := a.surfaces.toList.foldr (fun s sum => s.trims.length + sum) 0
    bytes }

/-- The object that an element hangs on. -/
def elementObject? (a : Arena S) : Element → Option Nat
  | .surface s => a.surfaces[s]?.map (·.object)
  | .array i => a.arrays[i]?.bind (·.object)
  | .camera c => a.cameras[c]?.map (·.object)
  | .light l => a.lights[l]?.map (·.object)

end Arena

/-! ### Volumes -/

namespace Volume

variable {S : Type} [Scalar S]

def empty : Volume S := ⟨Box.empty, Box.empty⟩

/-- Takes in a box around an element. -/
def add (v : Volume S) (placed : Box S) (included : Bool) : Volume S :=
  ⟨if included then v.bounds.join placed else v.bounds, v.extent.join placed⟩

/-- The volume of boxes, each with whether it counts. -/
def ofBoxes (boxes : List (Box S × Bool)) : Volume S :=
  boxes.foldl (fun v b => v.add b.1 b.2) empty

end Volume

namespace Arena

variable {S : Type} [Scalar S]

/-- The box around an element with the object it hangs on, given the volumes found so far. Cameras,
lights and an array that hangs on nothing have none. -/
def elementBox (a : Arena S) (volumes : Array (Volume S)) :
    Element → Except Fault (Option (Box S × Nat))
  | .surface s => do
    let node ← fetch a.surfaces s
    return some (node.bounds, node.object)
  | .array i => do
    match (← fetch a.arrays i).object with
    | none => return none
    | some object => return some ((← fetch volumes i).extent, object)
  | .camera _ | .light _ => return none

/-- The volume of an array, given those of the arrays in it. -/
def measureArray (a : Arena S) (place : Nat → Except Fault (Transform S))
    (volumes : Array (Volume S)) (node : ArrayNode S) : Except Fault (Volume S) :=
  node.elements.zipIdx.foldlM (fun v (e, position) => do
    match ← a.elementBox volumes e with
    | none => return v
    | some (box, object) =>
      let placed := box.transformed (← place object)
      return v.add placed (← node.counts position)) Volume.empty

/-- The volumes of all arrays where `place` puts the objects. The last array comes first, since
arrays stand in earlier ones. -/
def measure (a : Arena S) (place : Nat → Except Fault (Transform S)) :
    Except Fault (Array (Volume S)) :=
  (List.range a.arrays.size).reverse.foldlM (fun volumes id => do
    let volume ← a.measureArray place volumes (← fetch a.arrays id)
    return volumes.setIfInBounds id volume) (Array.replicate a.arrays.size Volume.empty)

/-- The volumes where the place of every object is known. There are none if a lookup misses. -/
def volumes (a : Arena S) (place : Nat → Transform S) : Array (Volume S) :=
  ((a.measure fun object => .ok (place object)).toOption).getD #[]

end Arena

end SolidTrace
