import SolidTrace.Motion.Drive

/-!
Arguments of the command line.

The first argument names a command. Options and the file to work on follow in any order; an option
with a value has it in the same argument or in the next one, and no option is given twice.
-/

namespace SolidTrace.CommandLine

/-- What arguments are that give no task. -/
inductive Usage
  /-- A question how a command is used. -/
  | help
  | invalid
deriving DecidableEq, Repr

/-! ### Single arguments -/

/-- What an argument is by its look. -/
inductive Argument
  | plain (text : String)
  /-- Two dashes; all that follows is plain. -/
  | escape
  /-- Two dashes and a name, and the text after an equals sign. -/
  | long (name : String) (value : Option String)
  /-- A dash and a letter, and the text after it. -/
  | short (letter : Char) (value : Option String)
deriving DecidableEq, Repr

namespace Argument

/-- The text after a letter; an equals sign in front of it is passed over. -/
def shortValue : List Char → Option String
  | [] => none
  | '=' :: rest => some (String.ofList rest)
  | rest => some (String.ofList rest)

def longValue : List Char → Option String
  | [] => none
  | _ :: rest => some (String.ofList rest)

def ofChars : List Char → Argument
  | ['-', '-'] => escape
  | '-' :: '-' :: rest =>
    long (String.ofList (rest.takeWhile (· != '='))) (longValue (rest.dropWhile (· != '=')))
  | '-' :: letter :: rest => short letter (shortValue rest)
  | cs => plain (String.ofList cs)

def ofString (s : String) : Argument := ofChars s.toList

end Argument

/-! ### Values -/

def digits? (cs : List Char) : Option Nat :=
  if cs.isEmpty || !cs.all Char.isDigit then none
  else some (cs.foldl (fun n c => n * 10 + (c.toNat - '0'.toNat)) 0)

/-- A natural number below a limit; it may have a plus sign. -/
def natural? (limit : Nat) (s : String) : Option Nat :=
  (match s.toList with
    | '+' :: cs => digits? cs
    | cs => digits? cs).filter (· < limit)

/-- An integer from `low` to `high`. -/
def integer? (low high : Int) (s : String) : Option Int :=
  (match s.toList with
    | '-' :: cs => (digits? cs).map fun n => -(n : Int)
    | '+' :: cs => (digits? cs).map Int.ofNat
    | cs => (digits? cs).map Int.ofNat).filter fun i => decide (low ≤ i ∧ i ≤ high)

/-- The name of a file or directory. -/
def path? (s : String) : Option String := if s.isEmpty then none else some s

def word? (s : String) : Option UInt32 :=
  (integer? 0 0xFFFFFFFF s).map fun i => UInt32.ofNat i.toNat

/-! ### Options -/

/-- What an option does to the job under construction. -/
inductive Effect (J : Type)
  | flag (set : J → J)
  /-- Takes a value, which may be refused. -/
  | value (set : String → J → Option J)

structure Switch (J : Type) where
  name : String
  letter : Option Char
  /-- What it is for. -/
  about : String
  effect : Effect J
  /-- The value that holds without it. -/
  fallback : Option String := none
  /-- Its values, where there are only a few. -/
  choices : List String := []

/-- A value for one field of a job. -/
def Effect.field {J α : Type} (read : String → Option α) (set : J → α → J) : Effect J :=
  .value fun s job => (read s).map (set job)

/-- What the arguments read so far say. -/
structure Progress (J : Type) where
  job : J
  /-- The names of the options given. -/
  given : List String
  file : Option String

namespace Progress

variable {J : Type}

/-- Takes a plain argument, of which there is at most one. -/
def take (p : Progress J) (files : Bool) (text : String) : Except Usage (Progress J) :=
  match p.file, files, path? text with
  | none, true, some path => .ok { p with file := some path }
  | _, _, _ => .error .invalid

/-- Records that an option is given. -/
def give (p : Progress J) (name : String) (job : Option J) : Except Usage (Progress J) :=
  match job with
  | none => .error .invalid
  | some job => if name ∈ p.given then .error .invalid else .ok { p with job, given := name :: p.given }

/-- Takes arguments that are plain whatever they look like. -/
def takeAll (p : Progress J) (files : Bool) (l : List String) : Except Usage (Progress J) :=
  l.foldlM (fun p text => p.take files text) p

end Progress

/-- What one argument asks for. -/
inductive Request (J : Type)
  | done (p : Progress J)
  /-- An option whose value is the next argument. -/
  | pending (name : String) (set : String → J → Option J)
  | escape

section

variable {J : Type} (switches : List (Switch J)) (files : Bool)

/-- Applies the option that is found under a name or letter. -/
def applySwitch (p : Progress J) (value : Option String) :
    Option (Switch J) → Except Usage (Request J)
  | none => .error .invalid
  | some s =>
    match s.effect, value with
    | .flag set, none => (p.give s.name (some (set p.job))).map .done
    | .flag _, some _ => .error .invalid
    | .value set, some v => (p.give s.name (set v p.job)).map .done
    | .value set, none => .ok (.pending s.name set)

def readArgument (p : Progress J) : Argument → Except Usage (Request J)
  | .plain text => (p.take files text).map .done
  | .escape => .ok .escape
  | .long "help" none => .error .help
  | .long name value => applySwitch p value (switches.find? (·.name == name))
  | .short 'h' _ => .error .help
  | .short letter value => applySwitch p value (switches.find? (·.letter == some letter))

/-- Reads arguments in turn. -/
def readAll (p : Progress J) : List String → Except Usage (Progress J)
  | [] => .ok p
  | a :: rest => do
    match ← readArgument switches files p (Argument.ofString a) with
    | .done p => readAll p rest
    | .escape => p.takeAll files rest
    | .pending name set =>
      match rest with
      | [] => throw .invalid
      | v :: rest =>
        match Argument.ofString v with
        | .plain v => readAll (← p.give name (set v p.job)) rest
        | _ => throw .invalid

end

/-! ### Commands -/

/-- Frames to be rendered. -/
structure RenderJob where
  config : Option String
  out : String
  width : Nat
  height : Nat
  frames : Nat
  /-- Milliseconds from frame to frame. -/
  step : Int
  threads : Option Nat
  singleThread : Bool
  fsaa : Option UInt32
  simd : Option UInt32
  camera : Nat
  motion : CameraAction
  noShadows : Bool
deriving DecidableEq, Repr

namespace RenderJob

def default : RenderJob where
  config := none
  out := "frames"
  width := 640
  height := 480
  frames := 1
  step := 40
  threads := none
  singleThread := false
  fsaa := none
  simd := none
  camera := 0
  motion := .none
  noShadows := false

/-- Sizes and counts have 64 bits. -/
def count? (s : String) : Option Nat := natural? (Nat.pow 2 64) s

def motions : List (String × CameraAction) :=
  [("none", .none), ("forward", .forward), ("back", .back), ("left", .left), ("right", .right),
    ("up", .up), ("down", .down), ("turn-left", .turnLeft), ("turn-right", .turnRight),
    ("tilt-up", .tiltUp), ("tilt-down", .tiltDown)]

def switches : List (Switch RenderJob) :=
  [{ name := "config"
     letter := some 'c'
     about := "Engine configuration (.toml)"
     effect := .field path? fun j v => { j with config := some v } },
    { name := "out"
      letter := some 'o'
      about := "Output directory"
      effect := .field path? fun j v => { j with out := v }
      fallback := some default.out },
    { name := "width"
      letter := none
      about := "Frame width in pixels"
      effect := .field count? fun j v => { j with width := v }
      fallback := some (toString default.width) },
    { name := "height"
      letter := none
      about := "Frame height in pixels"
      effect := .field count? fun j v => { j with height := v }
      fallback := some (toString default.height) },
    { name := "frames"
      letter := some 'f'
      about := "Number of frames"
      effect := .field count? fun j v => { j with frames := v }
      fallback := some (toString default.frames) },
    { name := "step-ms"
      letter := none
      about := "Milliseconds between frames"
      effect := .field (integer? (-0x8000000000000000) 0x7FFFFFFFFFFFFFFF) fun j v => { j with step := v }
      fallback := some (toString default.step) },
    { name := "threads"
      letter := some 't'
      about := "Worker threads (overrides the config; 0 for all CPUs)"
      effect := .field count? fun j v => { j with threads := some v } },
    { name := "static"
      letter := none
      about := "Run every slice on the main thread"
      effect := .flag fun j => { j with singleThread := true } },
    { name := "fsaa"
      letter := none
      about := "Antialiasing level (0 off, 1 2x, 2 4x, 3 8x)"
      effect := .field word? fun j v => { j with fsaa := some v } },
    { name := "simd"
      letter := none
      about := "Packed SIMD request, width | variant << 8 (0 for automatic)"
      effect := .field word? fun j v => { j with simd := some v } },
    { name := "camera"
      letter := none
      about := "Camera index to start from"
      effect := .field count? fun j v => { j with camera := v }
      fallback := some (toString default.camera) },
    { name := "motion"
      letter := none
      about := "Camera motion applied on every frame"
      effect := .field (List.lookup · motions) fun j v => { j with motion := v }
      fallback := (motions.find? (·.2 == default.motion)).map (·.1)
      choices := motions.map (·.1) },
    { name := "no-shadows"
      letter := none
      about := "Disable shadow rays"
      effect := .flag fun j => { j with noShadows := true } }]

end RenderJob

/-- The commands of the program. -/
inductive Command
  | render
  | info
  | config
  | help
deriving DecidableEq, Repr

namespace Command

def all : List Command := [render, info, config, help]

def name : Command → String
  | render => "render"
  | info => "info"
  | config => "config"
  | help => "help"

def ofName? (s : String) : Option Command := all.find? (·.name == s)

end Command

inductive Invocation
  | render (scene : String) (job : RenderJob)
  | info (scene : String)
  /-- Shows the default settings. -/
  | settings
  /-- Shows how a command, or else the program, is used. -/
  | help (topic : Option Command)
deriving DecidableEq, Repr

namespace Invocation

/-- A command that works on one file. -/
def withFile {J : Type} (switches : List (Switch J)) (job : J) (args : List String) :
    Except Usage (String × J) := do
  let p ← readAll switches true ⟨job, [], none⟩ args
  match p.file with
  | some file => return (file, p.job)
  | none => throw .invalid

/-- What the arguments of a command ask for. -/
def ofCommand (c : Command) (args : List String) : Except Usage Invocation :=
  match c, args with
  | .render, args =>
    (withFile RenderJob.switches RenderJob.default args).map fun (file, job) => render file job
  | .info, args => (withFile [] () args).map fun (file, _) => info file
  | .config, args => (readAll [] false ⟨(), [], none⟩ args).map fun _ => settings
  | .help, [] => .ok (help none)
  | .help, [topic] =>
    match Command.ofName? topic with
    | some c => .ok (help (some c))
    | none => .error .invalid
  | .help, _ => .error .invalid

/-- What arguments ask for, unless they are no use of the program. -/
def parse? : List String → Option Invocation
  | [] => none
  | first :: args =>
    match Command.ofName? first with
    | some c =>
      match ofCommand c args with
      | .ok i => some i
      | .error .help => some (help (some c))
      | .error .invalid => none
    | none =>
      match Argument.ofString first with
      | .long "help" none | .short 'h' _ => some (help none)
      | _ => none

end Invocation

end SolidTrace.CommandLine
