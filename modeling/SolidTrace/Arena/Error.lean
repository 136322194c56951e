import SolidTrace.Memory.Ledger
import SolidTrace.Program
import SolidTrace.Text.Quoted
import SolidTrace.Texture

/-!
What keeps a document from being compiled.
-/

namespace SolidTrace

def maxCameras : Nat := 16

def maxLights : Nat := 16

inductive CompileError (S : Type)
  | malformedRelation (array : String) (index : Nat) (cause : Program.Cause)
  | notASurface (array : String) (position : Nat)
  | unresolvedMaterial (name path : String)
  | unresolvedTexture (name material : String)
  | textureLoad (failure : ImageFailure)
  | outOfMemory (shortage : Shortage)
  | tooManyCameras
  | tooManyLights
  | noCamera
  | unknownAnimator (name path : String)
  | unknownArray (name path : String)
  | recursiveInstance (name path : String)
  /-- The lower bound of a clip box on an axis is not below the upper one. -/
  | invalidBounds (path : String) (axis : Axis) (low high : S)
deriving Repr

namespace CompileError

def axisNumber : Axis → Nat
  | .x => 0
  | .y => 1
  | .z => 2

def message {S : Type} [Scalar S] : CompileError S → String
  | malformedRelation array index cause =>
    let reason := cause.message
    s!"malformed relation {index} in array {array}: {reason}"
  | notASurface array position => s!"position {position} in array {array} is not a surface"
  | unresolvedMaterial name path =>
    let name := Quoted.quote name
    s!"unresolved material {name} used by {path}"
  | unresolvedTexture name material =>
    let name := Quoted.quote name
    let material := Quoted.quote material
    s!"unresolved texture {name} used by material {material}"
  | textureLoad failure =>
    let path := Quoted.quote failure.path
    s!"failed to load texture {path}: {failure.reason}"
  | outOfMemory shortage => shortage.message
  | tooManyCameras =>
    let count := maxCameras + 1
    s!"too many cameras: {count} exceeds the limit of {maxCameras}"
  | tooManyLights =>
    let count := maxLights + 1
    s!"too many lights: {count} exceeds the limit of {maxLights}"
  | noCamera => "scene has no camera"
  | unknownAnimator name path =>
    let name := Quoted.quote name
    s!"unknown animator {name} on {path}"
  | unknownArray name path =>
    let name := Quoted.quote name
    s!"unknown array {name} instanced at {path}"
  | recursiveInstance name path =>
    let name := Quoted.quote name
    s!"array {name} instances itself at {path}"
  | invalidBounds path axis low high =>
    let axis := axisNumber axis
    let low := Scalar.decimal low
    let high := Scalar.decimal high
    s!"invalid clip bounds on {path}: axis {axis}: min {low} > max {high}"

end CompileError

end SolidTrace
