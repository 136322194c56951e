import SolidTrace.Arena.Basic
import SolidTrace.Arena.Error

/-!
Compiling documents.

A document is walked once, in the order in which its parts are written; where a copy of a library
array stands, the array is walked again. Each array first takes its place in the table, then its
elements, then what its program says of them. Every buffer is taken from the allocator on the way;
when the walk fails, all of them are given back.
-/

namespace SolidTrace

/-- What a document is compiled with. -/
structure Workshop (S : Type) where
  document : Document S
  registry : Registry S
  images : ImageSource

/-- A scene under construction. -/
structure Builder (S : Type) where
  arena : Arena S
  ledger : Ledger
  allocator : Allocator

/-- A step of construction; what was built stays when it fails. -/
abbrev Build (S : Type) : Type → Type := EStateM (CompileError S) (Builder S)

structure Compiled (S : Type) where
  arena : Arena S
  ledger : Ledger

/-- What an array sees of one of its elements. -/
structure Occupant (S : Type) where
  element : Element
  object : Nat
  placement : Placement S
  /-- The surfaces that a trim of the element falls on. -/
  surfaces : List Nat
  /-- The box around the element in its own frame; none for what has no extent. -/
  bounds : Option (Box S)

namespace Occupant

variable {S : Type} [Scalar S]

def kind (o : Occupant S) : Program.Kind :=
  match o.element with
  | .surface _ => .surface
  | .array _ => .array
  | .camera _ | .light _ => .other

/-- The box around the element where it is declared to stand. -/
def placed? (o : Occupant S) : Option (Box S) :=
  o.bounds.map fun b => b.transformed o.placement.toTransform

end Occupant

/-- What an array tells the one around it. -/
structure Nested (S : Type) where
  id : Nat
  /-- The surfaces in it and below. -/
  surfaces : List Nat
  extent : Box S

namespace Build

variable {S : Type} [Scalar S]

def acquire (label : String) (layout : Layout) (count : Nat) : Build S Unit := fun b =>
  match b.ledger.acquire b.allocator label layout count with
  | (.ok ledger, allocator) => .ok () { b with ledger, allocator }
  | (.error shortage, allocator) => .error (.outOfMemory shortage) { b with allocator }

def modifyArena (f : Arena S → Arena S) : Build S Unit :=
  modify fun b => { b with arena := f b.arena }

def getArena : Build S (Arena S) := do return (← get).arena

/-- Adds an entry, and gives the place that it takes. -/
@[inline]
def enter (place : Arena S → Nat) (add : Arena S → Arena S) : Build S Nat :=
  modifyGet fun b => (place b.arena, { b with arena := add b.arena })

/-! ### Materials -/

/-- The place of a texture, which is loaded where it is used first. -/
def texture (w : Workshop S) (name material : String) : Build S Nat := do
  match (← getArena).textures.findIdx? fun t => t.name == name with
  | some id => return id
  | none =>
    let some source := w.document.textures.get? name
      | throw (.unresolvedTexture name material)
    let t ←
      match Texture.load w.images source with
      | .ok t => pure t
      | .error failure => throw (.textureLoad failure)
    if let some count := t.texelCount? then acquire "texture texels" Layout.texel count
    enter (·.textures.size) fun a => { a with textures := a.textures.push ⟨name, t⟩ }

/-- The place of a material, which is entered where it is used first. -/
def material (w : Workshop S) (name path : String) : Build S Nat := do
  match (← getArena).materials.findIdx? fun m => m.name == name with
  | some id => return id
  | none =>
    let some m := w.document.materials.get? name | throw (.unresolvedMaterial name path)
    let texture ← texture w m.texture name
    enter (·.materials.size) fun a => { a with
      materials := a.materials.push
        { name
          finish := m.finish
          texture
          diffuse := m.diffuse
          specular := m.specular
          power := m.power
          reflect := m.reflect
          transmit := m.transmit
          refract := m.refract
          exponent := m.exponent.getD m.power } }

/-- A side of a surface; an override takes the place of its material. -/
def face (w : Workshop S) (f : Face S) (forced : Option String) (path : String) :
    Build S (FaceNode S) := do
  return ⟨← material w (forced.getD f.material) path, f.mapping⟩

/-! ### Objects -/

/-- Enters an object. -/
def object (w : Workshop S) (h : Header S) (parent : Option Nat) (path : String) : Build S Nat := do
  let animator ←
    match h.animation with
    | none => pure none
    | some d =>
      match w.registry.resolve d with
      | .ok animator => pure (some animator)
      | .error name => throw (.unknownAnimator name path)
  enter (·.objects.size) fun a => { a with
    objects := a.objects.push { parent, placement := h.placement, animator, time := h.time, path } }

/-- A clip bound, infinite from `unbounded` on. -/
def clipBound (v : S) : S :=
  if unbounded ≤ v then Scalar.infinity
  else if v ≤ -unbounded then -Scalar.infinity
  else v

/-- The clip box of a surface, unless its bounds are crossed on some axis. -/
def clipBox (clip : Box S) (path : String) : Except (CompileError S) (Box S) := do
  let b : Box S := ⟨clip.min.map clipBound, clip.max.map clipBound⟩
  Axis.all.forM fun a =>
    let low := b.min.get a
    let high := b.max.get a
    if Scalar.isNaN low || Scalar.isNaN high || high < low then
      throw (.invalidBounds path a low high)
    else pure ()
  return b

/-- Where a part stands: its array, that array's object, and its position. -/
structure Spot where
  array : Nat
  parent : Option Nat
  position : Nat

/-- Enters a surface without trims. -/
def surface (w : Workshop S) (s : Surface S) (object : Nat) (spot : Spot)
    (forced : Option Override) (path : String) : Build S (Nat × SurfaceNode S) := do
  let clip ← ofExcept (clipBox s.clip path)
  let outer ← face w s.outer (forced.map (·.outer)) path
  let inner ← face w s.inner (forced.map (·.inner)) path
  let node : SurfaceNode S :=
    { object
      array := spot.array
      position := spot.position
      shape := s.shape
      quadric := s.shape.quadric
      clip
      bounds := s.shape.localBounds clip
      outer
      inner
      trims := [] }
  let id ← enter (·.surfaces.size) fun a => { a with surfaces := a.surfaces.push node }
  return (id, node)

def camera (c : Camera S) (object : Nat) : Build S Nat := do
  if (← getArena).cameras.size = maxCameras then throw .tooManyCameras
  enter (·.cameras.size) fun a => { a with cameras := a.cameras.push ⟨object, c⟩ }

def light (l : Light S) (object : Nat) : Build S Nat := do
  if (← getArena).lights.size = maxLights then throw .tooManyLights
  enter (·.lights.size) fun a => { a with lights := a.lights.push ⟨object, l⟩ }

/-! ### Arrays -/

/-- Enters an array of which only the place is known so far, with room for its elements. -/
def openArray (object : Option Nat) (path : String) (count : Nat) : Build S Nat := do
  let id ← enter (·.arrays.size) fun a => { a with
    arrays := a.arrays.push
      { object
        path
        elements := []
        surfaces := []
        bounded := false
        included := []
        accumulator := []
        volume := Volume.empty } }
  acquire "array elements" Layout.element count
  return id

/-- The surface at a position of an array. -/
def surfaceAt (occupants : List (Occupant S)) (path : String) (position : Nat) :
    Except (CompileError S) Nat :=
  match occupants[position]? with
  | some ⟨.surface s, _, _, _, _⟩ => .ok s
  | _ => .error (.notASurface path position)

/-- A trim with its surface and its array found. -/
def resolveTrim (occupants : List (Occupant S)) (path : String) (array : Nat) :
    Program.LocalTrim → Except (CompileError S) (Trim Nat Nat)
  | .outer p => (surfaceAt occupants path p).map .outer
  | .inner p => (surfaceAt occupants path p).map .inner
  | .accum () => .ok (.accum array)

/-- Puts trims on a surface, after those that it has. -/
def trimSurface (trims : List (Trim Nat Nat)) (s : Nat) : Build S Unit := do
  acquire "trim list" Layout.trim trims.length
  modifyArena fun a => { a with
    surfaces := a.surfaces.modify s fun n => { n with trims := n.trims ++ trims } }

/-- Puts the trims of a position on every surface that stands there. -/
def trimPosition (occupants : List (Occupant S)) (path : String) (array : Nat)
    (occupant : Occupant S) (trims : List Program.LocalTrim) : Build S Unit := do
  if trims.isEmpty then return
  let resolved ← ofExcept (trims.mapM (resolveTrim occupants path array))
  occupant.surfaces.forM (trimSurface resolved)

/-- Runs the program of an array and completes its entry. -/
def closeArray (array : Nat) (path : String) (occupants : List (Occupant S))
    (relations : List Relation) : Build S (Nested S) := do
  let outcome ←
    match Program.run (occupants.map Occupant.kind) relations with
    | .ok outcome => pure outcome
    | .error (index, cause) => throw (.malformedRelation path index cause)
  (occupants.zip outcome.trims).forM fun (o, trims) => trimPosition occupants path array o trims
  let boxes := (occupants.zip outcome.included).filterMap fun (o, included) =>
    o.placed?.map (·, included)
  let volume := Volume.ofBoxes boxes
  let surfaces := occupants.flatMap Occupant.surfaces
  let accumulator ← ofExcept (outcome.accumulator.mapM (surfaceAt occupants path))
  acquire "array surfaces" Layout.surfaceId surfaces.length
  modifyArena fun a => { a with
    arrays := a.arrays.modify array fun n => { n with
      elements := occupants.map Occupant.element
      surfaces
      bounded := outcome.bounded
      included := outcome.included
      accumulator
      volume } }
  return ⟨array, surfaces, volume.extent⟩

/-- Enters an array whose elements `fill` enters. -/
def arrayFilled (object : Option Nat) (path : String) (count : Nat)
    (fill : Spot → Build S (List (Occupant S))) (relations : List Relation) :
    Build S (Nested S) := do
  let id ← openArray object path count
  let occupants ← fill ⟨id, object, 0⟩
  closeArray id path occupants relations

/-- The path of a part: that of its array, and its name or position. -/
def partPath (path : String) (position : Nat) (h : Header S) : String :=
  path ++ "/" ++ h.name.getD (toString position)

/-- Enters a copy of a library array: below an object, at a path, with the override in force there,
by name. -/
abbrev CopyBuild (S : Type) : Type :=
  (object : Nat) → (path : String) → (forced : Option Override) → (name : String) → Build S (Nested S)

section

variable (w : Workshop S) (copy : CopyBuild S)

mutual

/-- Enters a part and all that is below it. -/
def part (spot : Spot) (arrayPath : String) (forced : Option Override) :
    Part S → Build S (Occupant S)
  | .surface h s => do
    let path := partPath arrayPath spot.position h
    let object ← object w h spot.parent path
    let (id, n) ← surface w s object spot (h.materials <|> forced) path
    return ⟨.surface id, object, h.placement, [id], some n.bounds⟩
  | .assembly h content relations => do
    let path := partPath arrayPath spot.position h
    let object ← object w h spot.parent path
    let a ← arrayFilled (some object) path content.length
      (fun spot => parts spot path (h.materials <|> forced) content) relations
    return ⟨.array a.id, object, h.placement, a.surfaces, some a.extent⟩
  | .copy h name => do
    let path := partPath arrayPath spot.position h
    let object ← object w h spot.parent path
    let a ← copy object path (h.materials <|> forced) name
    return ⟨.array a.id, object, h.placement, a.surfaces, some a.extent⟩
  | .camera h c => do
    let object ← object w h spot.parent (partPath arrayPath spot.position h)
    return ⟨.camera (← camera c object), object, h.placement, [], none⟩
  | .light h l => do
    let object ← object w h spot.parent (partPath arrayPath spot.position h)
    return ⟨.light (← light l object), object, h.placement, [], none⟩

/-- Enters parts that stand one after the other. -/
def parts (spot : Spot) (arrayPath : String) (forced : Option Override) :
    List (Part S) → Build S (List (Occupant S))
  | [] => return []
  | p :: rest => do
    let occupant ← part spot arrayPath forced p
    let occupants ← parts { spot with position := spot.position + 1 } arrayPath forced rest
    return occupant :: occupants

end

/-- Enters an array. -/
def array (object : Option Nat) (path : String) (forced : Option Override)
    (content : List (Part S)) (relations : List Relation) : Build S (Nested S) :=
  arrayFilled object path content.length (fun spot => parts w copy spot path forced content)
    relations

end

/-- Enters a copy that stands in copies of the arrays `active`. The bound is the number of library
arrays that are not among them, so a copy at bound zero names one of them or none at all. -/
def copy (w : Workshop S) : (bound : Nat) → (active : List String) → CopyBuild S
  | bound, active, object, path, forced, name =>
    match w.document.library.get? name with
    | none => throw (.unknownArray name path)
    | some a =>
      if name ∈ active then throw (.recursiveInstance name path)
      else
        match bound with
        | 0 => throw (.recursiveInstance name path)
        | bound + 1 =>
          array w (copy w bound (name :: active)) (some object) path forced a.parts a.relations

/-! ### Documents -/

/-- Takes the buffers for the tables of the arena. -/
def acquireTables : Build S Unit := do
  let a ← getArena
  acquire "objects" Layout.object a.objects.size
  acquire "surfaces" Layout.surface a.surfaces.size
  acquire "arrays" Layout.array a.arrays.size
  acquire "cameras" Layout.camera a.cameras.size
  acquire "lights" Layout.light a.lights.size
  acquire "materials" Layout.material a.materials.size

def document (w : Workshop S) : Build S Unit := do
  let root := w.document.root
  let _ ← array w (copy w w.document.library.size []) none "root" none root.parts root.relations
  if (← getArena).cameras.isEmpty then throw .noCamera
  acquireTables

end Build

/-- Compiles a document. When that fails the allocator has all its bytes back. -/
def compile {S : Type} [Scalar S] (w : Workshop S) (allocator : Allocator) :
    Except (CompileError S) (Compiled S) × Allocator :=
  match Build.document w ⟨Arena.empty, Ledger.empty, allocator⟩ with
  | .ok () b => (.ok ⟨b.arena, b.ledger⟩, b.allocator)
  | .error e b => (.error e, b.ledger.releaseAll b.allocator)

end SolidTrace
