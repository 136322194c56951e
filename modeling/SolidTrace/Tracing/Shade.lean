import SolidTrace.Tracing.Nearest

/-!
The colour along a ray.

A surface shows its texture under the ambient light of the camera and of all lights, and under each
light that reaches it; metal adds what it reflects. Surfaces that give light show their texture
alone.
-/

namespace SolidTrace

/-- A colour in the numbers of the geometry. -/
abbrev Tint (S : Type) : Type := Vec S

namespace Tint

variable {S : Type} [Scalar S]

def ofColor (c : Color) : Tint S :=
  ⟨Scalar.widen c.red, Scalar.widen c.green, Scalar.widen c.blue⟩

def toColor (t : Tint S) : Color := ⟨Scalar.narrow t.x, Scalar.narrow t.y, Scalar.narrow t.z⟩

def ofWord (rgb : UInt32) : Tint S := ofColor (Color.unpack rgb)

end Tint

/-- What shading knows of a point that a ray has met. -/
structure Shaded (S : Type) where
  hit : Hit S
  /-- The direction back along the ray. -/
  view : Vec S
  /-- Where rays from the point start. -/
  origin : Vec S
  base : Tint S
  material : MaterialNode S

namespace Tracer

variable {S : Type} [Scalar S]

/-- How far rays from a surface start above it. -/
def surfaceBias : S := 1e-7

/-- How often light is followed over mirrors. -/
def maxBounces : Nat := 1

def ambient (t : Tracer S) (camera : Camera S) : Tint S :=
  t.snapshot.lights.foldl
    (fun sum l => sum + (Tint.ofWord l.light.color).map (· * l.light.ambient))
    ((Tint.ofWord camera.color).map (· * camera.intensity))

/-- The part of its energy that a light keeps over a distance. -/
def falloff (a : Attenuation S) (distance : S) : S :=
  let denominator := a.constant + a.linear * distance + a.quadratic * distance * distance
  if 0 < denominator then 1 / denominator else 1

/-- What a light adds to the colour of a point; nothing when it stands behind the surface, out of
range or in shadow. -/
def lit (t : Tracer S) (p : Shaded S) (l : LightView S) : Except Fault (Option (Tint S)) := do
  let toLight := l.position - p.hit.point
  let distance := toLight.norm
  if distance ≤ 0 then return none
  let direction := toLight.map (· / distance)
  let facing := p.hit.normal.dot direction
  if facing ≤ 0 then return none
  let a := l.light.attenuation
  if 0 < a.range ∧ a.range < distance then return none
  if !t.options.contains Options.noShadows then
    if (← t.nearest (Ray.through p.origin direction) distance).isSome then return none
  let energy := l.light.source * falloff a distance
  let mirrored := p.hit.normal.scale (2 * facing) - direction
  let highlight := Scalar.pow (Scalar.greater (mirrored.dot p.view) 0) p.material.exponent
  let color : Tint S := Tint.ofWord l.light.color
  return some (color.zip (fun c base =>
    energy * c * (p.material.diffuse * facing * base + p.material.specular * highlight)) p.base)

/-- Adds what each light gives. -/
def addLights (t : Tracer S) (p : Shaded S) (color : Tint S) :
    List (LightView S) → Except Fault (Tint S)
  | [] => .ok color
  | l :: rest => do
    let sum := (← t.lit p l).elim color (color + ·)
    t.addLights p sum rest

/-- What is known of a hit before any light falls on it. -/
def shaded (t : Tracer S) (ray : Ray S) (hit : Hit S) : Except Fault (Shaded S) := do
  let surface ← fetch t.arena.surfaces hit.surface
  let face :=
    match hit.side with
    | .outer => surface.outer
    | .inner => surface.inner
  let material ← fetch t.arena.materials face.material
  let texture ← fetch t.arena.textures material.texture
  let color ← texture.texture.sample
    (face.mapping.apply (surface.shape.textureCoordinates hit.place))
  return ⟨hit, -ray.direction, hit.point + hit.normal.scale surfaceBias, Tint.ofColor color, material⟩

/-- The colour of a point under all lights. -/
def underLights (t : Tracer S) (camera : Camera S) (p : Shaded S) : Except Fault (Tint S) :=
  t.addLights p (p.base.zip (· * ·) (t.ambient camera)) t.snapshot.lights.toList

/-- The colour along a ray, over at most `bounces` mirrors. A ray that meets nothing is black. -/
def shade (t : Tracer S) (camera : Camera S) (ray : Ray S) (bounces : Nat) :
    Except Fault (Tint S) := do
  match ← t.nearest ray Scalar.infinity with
  | none => return Vec.splat 0
  | some hit =>
    let p ← t.shaded ray hit
    match p.material.finish with
    | .light => return p.base
    | .plain => t.underLights camera p
    | .metal =>
      let color ← t.underLights camera p
      match bounces with
      | 0 => return color
      | bounces + 1 =>
        if 0 < p.material.reflect then
          let d := ray.direction
          let n := hit.normal
          let mirror ← t.shade camera
            (Ray.through p.origin (d - n.scale (2 * d.dot n))) bounces
          return color + mirror.scale p.material.reflect
        else return color

/-- The colour of a camera's ray through a point of a frame. -/
def sample (t : Tracer S) (view : CameraView S) (px py : S) (width height : Nat) :
    Except Fault Color := do
  return (← t.shade view.camera (view.primaryRay px py width height) maxBounces).toColor

end Tracer

end SolidTrace
