import SolidTrace.CommandLine.Help
import SolidTrace.Document.Read
import SolidTrace.Scene.Basic

/-!
Carrying out a command line.

The program works on the files that it is given access to. It gives the lines to be printed, or the
first thing that went wrong.
-/

namespace SolidTrace.CommandLine

/-- Access to files. -/
structure FileAccess (m : Type → Type) where
  /-- The text of a file. -/
  readText : (path : String) → m (Option String)
  readImage : (path : String) → m (Except String Image)
  /-- Writes a frame to a file and makes the directory of the file. -/
  writeFrame : (directory path : String) → FrameView → m (Except String Unit)

/-- The machine that the program runs on. -/
structure Machine where
  processors : Nat
  substrate : Substrate

inductive Failure
  | usage
  | reading (path : String)
  | parsing (path : String)
  | scene (cause : SceneError Float)
  | lanes (cause : LaneError)
  | noSuchCamera (index count : Nat)
  | engine (cause : EngineError)
deriving Repr

namespace Failure

def message : Failure → String
  | usage => "invalid arguments"
  | reading path => s!"reading {path}"
  | parsing path => s!"parsing {path}"
  | scene cause => cause.message
  | lanes cause => cause.message
  | noSuchCamera index count => s!"camera {index} out of range ({count} cameras)"
  | engine cause => cause.message

def exitCode : Failure → UInt8
  | usage => 2
  | _ => 1

end Failure

/-- The settings of a job on top of those that it names. -/
def RenderJob.settings (j : RenderJob) (s : Settings) : Settings where
  threads := j.threads.getD s.threads
  singleThread := s.singleThread || j.singleThread
  simd := j.simd.getD s.simd
  fsaa := j.fsaa.getD s.fsaa
  options := if j.noShadows then s.options.union Options.noShadows else s.options
  tileHeight := s.tileHeight
  allocator := s.allocator

/-- The time of a frame, in 64 signed bits. -/
def RenderJob.time (j : RenderJob) (number : Nat) : Int := (number * j.step).bmod (Nat.pow 2 64)

/-- The file of a frame. -/
def framePath (directory : String) (number : Nat) : String :=
  let digits := toString number
  let name := "frame_" ++ String.ofList (List.replicate (5 - digits.length) '0') ++ digits ++ ".png"
  if directory.endsWith "/" then directory ++ name else directory ++ "/" ++ name

section

variable {m : Type → Type} [Monad m] (machine : Machine) (files : FileAccess m)

/-- A step of the program. -/
abbrev Step (m : Type → Type) (α : Type) : Type := ExceptT Failure m α

/-- Reads a file with a function that may not understand its text. -/
def load {α : Type} (read : String → Option α) (path : String) : Step m α := do
  match ← files.readText path with
  | none => throw (.reading path)
  | some text =>
    match read text with
    | none => throw (.parsing path)
    | some a => return a

/-- The paths of the images that a document names. -/
def imagePaths (d : Document Float) : List String :=
  d.textures.entries.filterMap fun (_, source) =>
    match source with
    | .image path => some path
    | _ => none

/-- Reads the images that a document names. -/
def loadImages (d : Document Float) : m ImageSource := do
  let images ← (imagePaths d).mapM fun path => do return (path, ← files.readImage path)
  return fun path => (List.lookup path images).getD (.error "")

/-- Sets up the scene in a file. -/
def openScene (path : String) (settings : Settings) (width height : Nat) : Step m (Scene Float) := do
  let document ← load files Document.parse? path
  let platform : Platform Float :=
    { allocator := .heap (Heap.ofBudget none)
      pool := .inline
      threads := 1
      substrate := machine.substrate
      registry := Registry.empty
      images := ← liftM (loadImages files document) }
  match Scene.create document ⟨width, height, settings.tileHeight⟩
      (settings.applyTo machine.processors platform) with
  | .ok scene => return scene
  | .error refusal => throw (.scene refusal.error)

/-- Renders and writes `count` frames from a number on. -/
def renderFrames (job : RenderJob) : (count number : Nat) → Scene Float → Step m Unit
  | 0, _, _ => return
  | count + 1, number, scene => do
    let (result, scene) := scene.update (job.time number) job.motion
    let () ← ofResult result
    let (result, scene) := scene.render
    let () ← ofResult result
    let () ← ofResult (← scene.save number fun number view =>
      files.writeFrame job.out (framePath job.out number) view)
    renderFrames job count (number + 1) scene
where
  ofResult (r : Except EngineError Unit) : Step m Unit :=
    match r with
    | .ok () => return
    | .error e => throw (.engine e)

/-- Applies the settings of a job to a scene and turns to its camera. -/
def prepare (settings : Settings) (camera : Nat) (scene : Scene Float) :
    Except Failure (Scene Float) := do
  let scene ←
    match scene.setSimd (LaneConfig.unpack settings.simd) with
    | (.ok _, scene) => pure scene
    | (.error e, _) => throw (.lanes e)
  let scene := (scene.setFsaa settings.fsaa.toNat).2.setOptions settings.options
  let count := scene.state.rig.count
  if camera < count then return camera.repeat Scene.nextCamera scene
  else throw (.noSuchCamera camera count)

def render (path : String) (job : RenderJob) : Step m (List String) := do
  let base ←
    match job.config with
    | none => pure Settings.default
    | some config => load files Settings.ofToml? config
  let settings := job.settings base
  let scene ← openScene machine files path settings job.width job.height
  let scene ← prepare settings job.camera scene
  renderFrames files job job.frames 0 scene
  return [s!"Wrote {job.frames} frame(s) to {job.out}"]

/-- What there is to know of a scene. -/
def infoLines (path : String) (scene : Scene Float) : List String :=
  let a := scene.state.arena
  let s := scene.stats
  let simd := scene.simd.text
  let fsaa := scene.state.fsaa.name
  [s!"Scene: {path}",
    s!"  Objects:   {s.objects}",
    s!"  Surfaces:  {s.surfaces}",
    s!"  Arrays:    {s.arrays}",
    s!"  Cameras:   {s.cameras}",
    s!"  Lights:    {s.lights}",
    s!"  Trims:     {s.trims}",
    s!"  Materials: {a.materials.size}",
    s!"  Textures:  {a.textures.size}",
    s!"  Allocated: {s.bytes} bytes",
    s!"  SIMD:      {simd}",
    s!"  FSAA:      {fsaa}"] ++
  a.cameras.toList.zipIdx.map fun (c, i) =>
    let path := (a.objects[c.object]?.map (·.path)).getD ""
    s!"  camera {i}: {path}"

def info (path : String) : Step m (List String) := do
  return infoLines path (← openScene machine files path Settings.default 1 1)

/-- The lines of a text in which every line is ended. -/
def linesOf (text : String) : List String := (text.splitOn "\n").dropLast

def carryOut : Invocation → Step m (List String)
  | .render path job => render machine files path job
  | .info path => info machine files path
  | .settings => return linesOf ((Settings.toToml? Settings.default).getD "")
  | .help topic => return helpLines topic

/-- Runs the program. -/
def run (args : List String) : m (Except Failure (List String)) :=
  match Invocation.parse? args with
  | none => return .error .usage
  | some invocation => (carryOut machine files invocation).run

end

end SolidTrace.CommandLine
