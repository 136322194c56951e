import SolidTrace.Document.Basic
import SolidTrace.Lanes.Kernel

/-!
Textures ready to be sampled.
-/

namespace SolidTrace

abbrev Color := Rgb Float32

namespace Color

/-- The colour of a word `0xRRGGBB`, with 255 as one. -/
def unpack (rgb : UInt32) : Color :=
  let part (w : UInt32) : Float32 := (w &&& 0xff).toNat.toFloat32 / 255
  ⟨part (rgb >>> 16), part (rgb >>> 8), part rgb⟩

end Color

structure Image where
  width : Nat
  height : Nat
  /-- The pixels, row by row. -/
  texels : Array Color

/-- The image with the given rows of words `0xRRGGBB`. -/
def Image.ofRows (rows : List (List UInt32)) : Image :=
  ⟨(rows.headD []).length, rows.length, (rows.flatten.map Color.unpack).toArray⟩

/-- Finds images by path; a path without one comes with a reason. -/
def ImageSource : Type := String → Except String Image

/-- An image that was not found. -/
structure ImageFailure where
  path : String
  reason : String
deriving DecidableEq, Repr

inductive Texture (S : Type)
  | color (c : Color)
  /-- Squares of side `scale`. -/
  | checker (a b : Color) (scale : S)
  | image (i : Image)

namespace Texture

variable {S : Type} [Scalar S]

/-- Whether a path names an image: by the ending of its last name, which is not all of that name. -/
def namesImage (path : String) : Bool :=
  match (((path.splitOn "/").getLastD "").splitOn ".").reverse with
  | [] | [_] | [_, ""] => false
  | ending :: _ => ending.toLower ∈ ["png", "apng"]

/-- The texture that a description names; images are looked up. -/
def load (images : ImageSource) : TextureSource S → Except ImageFailure (Texture S)
  | .color rgb => .ok (color (Color.unpack rgb))
  | .checker a b scale =>
    .ok (checker (Color.unpack a) (Color.unpack b) (if 0 < scale then scale else 1))
  | .image path =>
    if !namesImage path then .error ⟨path, "not the name of an image"⟩
    else
      match images path with
      | .ok i =>
        if i.width = 0 ∨ i.height = 0 then .error ⟨path, "image is empty"⟩ else .ok (image i)
      | .error reason => .error ⟨path, reason⟩

/-- The number of texels that a texture keeps. -/
def texelCount? : Texture S → Option Nat
  | image i => some i.texels.size
  | _ => none

/-- The texel along one side of an image for a coordinate, which is taken round. -/
def texelIndex (coordinate : S) (side : Nat) : Nat :=
  min (Scalar.truncate (Scalar.wrap coordinate 1 * Scalar.ofInt side)) (side - 1)

def sample (t : Texture S) (p : Vec2 S) : Except Fault Color :=
  match t with
  | color c => .ok c
  | checker a b scale => do
    let sum ← Scalar.addWhole S (Scalar.floor (p.x / scale)) (Scalar.floor (p.y / scale))
    return if sum % 2 = 0 then a else b
  | image i => fetch i.texels (texelIndex p.y i.height * i.width + texelIndex p.x i.width)

end Texture

/-- The texture coordinates of a point of a surface: on a plane its own, elsewhere the angle about
the axis, as a part of a turn, and the height. -/
def Shape.textureCoordinates {S : Type} [Scalar S] (shape : Shape S) (p : Vec S) : Vec2 S :=
  match shape with
  | .plane => ⟨p.x, p.y⟩
  | _ => ⟨Scalar.atan2 p.y p.x / (2 * Scalar.pi) + 0.5, p.z⟩

/-- Undoes a mapping: moves the coordinates back, turns them back and divides by the scale. A scale
of zero leaves them alone. -/
def Mapping.apply {S : Type} [Scalar S] (m : Mapping S) (p : Vec2 S) : Vec2 S :=
  let angle := Scalar.radians (-m.rotation)
  let s := Scalar.sin angle
  let c := Scalar.cos angle
  let du := p.x - m.position.x
  let dv := p.y - m.position.y
  let divisor (k : S) : S := if k == 0 then 1 else k
  ⟨(du * c - dv * s) / divisor m.scale.x, (du * s + dv * c) / divisor m.scale.y⟩

end SolidTrace
