import SolidTrace.Document.Basic
import SolidTrace.Document.Reader
import SolidTrace.Json.Text
import SolidTrace.Number.Double

/-!
Scene documents from JSON.

Names of fields and variants are those of the document format. `Document.parse?` reads a text.
-/

namespace SolidTrace

open Json (Reader)
open Json.Reader

/-! ### Geometry -/

def Vec.read : Reader (Vec Float) := fun p v => do
  let f ← fields ["x", "y", "z"] p v
  return ⟨← f.required "x" double, ← f.required "y" double, ← f.required "z" double⟩

def Vec2.read : Reader (Vec2 Float) := fun p v => do
  let f ← fields ["x", "y"] p v
  return ⟨← f.required "x" double, ← f.required "y" double⟩

def Placement.read : Reader (Placement Float) := fun p v => do
  let f ← fields ["scale", "rotation", "position"] p v
  let d := Placement.identity
  let scale ← f.withDefault "scale" Vec.read d.scale
  let rotation ← f.withDefault "rotation" Vec.read d.rotation
  let position ← f.withDefault "position" Vec.read d.position
  return { scale, rotation, position }

def Mapping.read : Reader (Mapping Float) := fun p v => do
  let f ← fields ["scale", "rotation", "position"] p v
  let d := Mapping.identity
  let scale ← f.withDefault "scale" Vec2.read d.scale
  let rotation ← f.withDefault "rotation" double d.rotation
  let position ← f.withDefault "position" Vec2.read d.position
  return { scale, rotation, position }

def Box.read : Reader (Box Float) := fun p v => do
  let f ← fields ["min", "max"] p v
  return ⟨← f.required "min" Vec.read, ← f.required "max" Vec.read⟩

def Axis.read : Reader Axis := choice [("x", .x), ("y", .y), ("z", .z)]

/-! ### Surfaces and materials -/

def Shape.variants : List String :=
  ["Plane", "Sphere", "Cylinder", "Cone", "Paraboloid", "Hyperboloid", "ParaCylinder",
    "HyperCylinder", "HyperParaboloid"]

def Shape.read : Reader (Shape Float) := fun p v => do
  let (name, p, v) ← tagged Shape.variants p v
  let one (field : String) := do (← fields [field] p v).required field double
  let two := do
    let f ← fields ["ratio", "waist"] p v
    return (← f.required "ratio" double, ← f.required "waist" double)
  match name with
  | "Plane" => (noFields p v).map fun _ => .plane
  | "Sphere" => (one "radius").map .sphere
  | "Cylinder" => (one "radius").map .cylinder
  | "Cone" => (one "ratio").map .cone
  | "Paraboloid" => (one "focal").map .paraboloid
  | "Hyperboloid" => two.map fun (r, w) => .hyperboloid r w
  | "ParaCylinder" => (one "focal").map .paraCylinder
  | "HyperCylinder" => two.map fun (r, w) => .hyperCylinder r w
  | "HyperParaboloid" => (one "focal").map .hyperParaboloid
  | _ => none

def Face.read : Reader (Face Float) := fun p v => do
  let f ← fields ["map", "material"] p v
  return ⟨← f.withDefault "map" Mapping.read Mapping.identity, ← f.required "material" string⟩

def Surface.read : Reader (Surface Float) := fun p v => do
  let f ← fields ["kind", "clip", "outer", "inner"] p v
  let shape ← f.required "kind" Shape.read
  let clip ← f.withDefault "clip" Box.read Surface.noClip
  return ⟨shape, clip, ← f.required "outer" Face.read, ← f.required "inner" Face.read⟩

def Finish.read : Reader Finish := choice [("plain", .plain), ("light", .light), ("metal", .metal)]

def triple : Reader (Float × Float × Float) := fun p v => do
  match ← tuple 3 double p v with
  | [a, b, c] => some (a, b, c)
  | _ => none

def Material.read : Reader (Material Float) := fun p v => do
  let f ← fields ["tag", "texture", "props", "optics", "ior", "exponent"] p v
  let finish ← f.required "tag" Finish.read
  let texture ← f.required "texture" string
  let (diffuse, specular, power) ← f.withDefault "props" triple (1, 0, 1)
  let (reflect, transmit, refract) ← f.withDefault "optics" triple (0, 0, 0)
  let ior ← f.withDefault "ior" (optional double) none
  let exponent ← f.withDefault "exponent" (optional double) none
  return { finish, texture, diffuse, specular, power, reflect, transmit, refract, ior, exponent }

def TextureSource.read : Reader (TextureSource Float) := fun p v => do
  let (name, p, v) ← tagged ["Color", "Checker", "Image"] p v
  match name with
  | "Color" => return .color (← (← fields ["rgb"] p v).required "rgb" word)
  | "Checker" => do
    let f ← fields ["a", "b", "scale"] p v
    return .checker (← f.required "a" word) (← f.required "b" word) (← f.required "scale" double)
  | _ => return .image (← (← fields ["path"] p v).required "path" string)

/-! ### Cameras and lights -/

def Camera.read : Reader (Camera Float) := fun p v => do
  let f ← fields ["color", "intensity", "pov", "dps", "drot"] p v
  let color ← f.required "color" word
  let intensity ← f.required "intensity" double
  let pov ← f.required "pov" double
  let speed ← f.withDefault "dps" Vec.read Camera.defaultSpeed
  let turning ← f.withDefault "drot" Vec.read Camera.defaultTurning
  return { color, intensity, pov, speed, turning }

def Attenuation.read : Reader (Attenuation Float) := fun p v => do
  match ← tuple 4 double p v with
  | [range, constant, linear, quadratic] => some ⟨range, constant, linear, quadratic⟩
  | _ => none

def Light.read : Reader (Light Float) := fun p v => do
  let f ← fields ["color", "ambient", "source", "attenuation"] p v
  let color ← f.required "color" word
  let ambient ← f.required "ambient" double
  let source ← f.required "source" double
  let attenuation ← f.withDefault "attenuation" Attenuation.read Attenuation.flat
  return { color, ambient, source, attenuation }

/-! ### Relations, parts and arrays -/

def Relation.Op.names : List (String × Relation.Op) :=
  [("MINUS_OUTER", .minusOuter), ("MINUS_INNER", .minusInner), ("MINUS_ACCUM", .minusAccum),
    ("INDEX_ARRAY", .indexArray), ("BOUND_ARRAY", .boundArray), ("UNTIE_ARRAY", .untieArray),
    ("BOUND_INDEX", .boundIndex), ("UNTIE_INDEX", .untieIndex)]

def Relation.Op.read : Reader Relation.Op := choice names

def Relation.read : Reader Relation := fun p v => do
  let f ← fields ["target", "op", "operand"] p v
  let target ← f.required "target" int32
  let op ← f.required "op" Relation.Op.read
  let operand ← f.required "operand" int32
  return { target, op, operand }

def Animation.read : Reader (Animation Float) := fun p v => do
  let (name, p, v) ← tagged ["Spin", "Bob", "Custom"] p v
  match name with
  | "Spin" => do
    let f ← fields ["axis", "degrees_per_second"] p v
    return .spin (← f.required "axis" Axis.read) (← f.required "degrees_per_second" double)
  | "Bob" => do
    let f ← fields ["axis", "amplitude", "period_ms"] p v
    return .bob (← f.required "axis" Axis.read) (← f.required "amplitude" double)
      (← f.required "period_ms" double)
  | _ => return .custom (← (← fields ["name"] p v).required "name" string)

def Override.read : Reader Override := fun p v => do
  let f ← fields ["outer", "inner"] p v
  return ⟨← f.required "outer" string, ← f.required "inner" string⟩

/-- Reads an array whose parts are read by `part`. -/
def Assembly.readWith (part : Reader (Part Float)) : Reader (Assembly Float) := fun p v => do
  let f ← fields ["objects", "relations"] p v
  return ⟨← f.required "objects" (list part),
    ← f.withDefault "relations" (list Relation.read) []⟩

namespace Part

/-- Reads what a part is. -/
def readKind (nested : Reader (Part Float)) : Reader (Header Float → Part Float) := fun p v => do
  let (name, p, v) ← tagged ["Camera", "Light", "Surface", "Array", "Instance"] p v
  match name with
  | "Camera" => do
    let c ← Camera.read p v
    return fun h => .camera h c
  | "Light" => do
    let l ← Light.read p v
    return fun h => .light h l
  | "Surface" => do
    let s ← Surface.read p v
    return fun h => .surface h s
  | "Array" => do
    let a ← Assembly.readWith nested p v
    return fun h => .assembly h a.parts a.relations
  | _ => do
    let library ← (← fields ["array"] p v).required "array" string
    return fun h => .copy h library

/-- Reads a part; the parts of a nested array are read by `nested`. -/
def readWith (nested : Reader (Part Float)) : Reader (Part Float) := fun p v => do
  let f ← fields ["name", "transform", "kind", "materials", "animator", "time"] p v
  let name ← f.withDefault "name" (optional string) none
  let placement ← f.withDefault "transform" Placement.read Placement.identity
  let kind ← f.required "kind" (readKind nested)
  let materials ← f.withDefault "materials" (optional Override.read) none
  let animation ← f.withDefault "animator" (optional Animation.read) none
  let time ← f.withDefault "time" int64 0
  return kind { name, placement, materials, animation, time }

/-- Reads a part at a given depth. Between a part and the parts of an array in it lie three levels:
the part, what it is, and the list of parts. -/
def readAt : Nat → Bool → Json → Option (Part Float)
  | depth + 3, held => readWith (fun p v => readAt depth p.held v) ⟨depth + 3, held⟩
  | depth, held => readWith (fun _ _ => none) ⟨depth, held⟩

def read : Reader (Part Float) := fun p v => readAt p.depth p.held v

end Part

def Assembly.read : Reader (Assembly Float) := readWith Part.read

/-! ### Documents -/

def Dict.read {α : Type} (r : Reader α) : Reader (Dict α) := map Dict.ofList (Json.Reader.entries r)

namespace Document

def read : Reader (Document Float) := fun p v => do
  let f ← fields ["version", "materials", "textures", "arrays", "root"] p v
  let version ← f.required "version" string
  let materials ← f.withDefault "materials" (Dict.read Material.read) Dict.empty
  let textures ← f.withDefault "textures" (Dict.read TextureSource.read) Dict.empty
  let library ← f.withDefault "arrays" (Dict.read Assembly.read) Dict.empty
  let root ← f.required "root" Assembly.read
  return { version, materials, textures, library, root }

def ofJson? (v : Json) : Option (Document Float) := read .outermost v

def parse? (text : String) : Option (Document Float) := (Json.parse? text).bind ofJson?

end Document

end SolidTrace
