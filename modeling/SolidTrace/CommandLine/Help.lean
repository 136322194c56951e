import SolidTrace.CommandLine.Arguments

/-!
How the program is used, as it shows it when asked.
-/

namespace SolidTrace.CommandLine

/-- A row of a table: what is explained, and what it means. -/
structure Explained where
  subject : String
  meaning : String
deriving DecidableEq, Repr

def padded (s : String) (width : Nat) : String :=
  s ++ String.ofList (List.replicate (width - s.length) ' ')

/-- The rows of a table with its meanings one below the other. -/
def tableLines (rows : List Explained) : List String :=
  let width := (rows.map (·.subject.length)).foldl max 0
  rows.map fun r => "  " ++ padded r.subject width ++ "  " ++ r.meaning

/-- The name that stands for the value of an option. -/
def valueName (name : String) : String :=
  name.map fun c => if c = '-' then '_' else c.toUpper

namespace Switch

variable {J : Type}

/-- How an option is written. -/
def form (s : Switch J) : String :=
  (match s.letter with
    | some c => s!"-{c}, "
    | none => "    ") ++ "--" ++ s.name ++
  (match s.effect with
    | .flag _ => ""
    | .value _ => s!" <{valueName s.name}>")

def explained (s : Switch J) : Explained where
  subject := s.form
  meaning := s.about ++
    (match s.fallback with
      | some v => s!" [default: {v}]"
      | none => "") ++
    (if s.choices.isEmpty then "" else " [possible values: " ++ ", ".intercalate s.choices ++ "]")

end Switch

namespace Command

def about : Command → String
  | render => "Render frames of a scene to PNG files"
  | info => "Compile a scene and print its statistics"
  | config => "Print the default engine configuration as TOML"
  | help => "Print this message or the help of the given subcommand(s)"

/-- How the command line looks from the name of the command on. -/
def form : Command → String
  | render => "render [OPTIONS] <SCENE>"
  | info => "info <SCENE>"
  | config => "config"
  | help => "help [COMMAND]..."

/-- What is said of the plain arguments of a command. -/
def plainArguments : Command → List Explained
  | render | info => [⟨"<SCENE>", "Scene description (.json)"⟩]
  | config => []
  | help => [⟨"[COMMAND]...", "Print help for the subcommand(s)"⟩]

/-- What is said of the options of a command. -/
def options : Command → List Explained
  | render => RenderJob.switches.map Switch.explained ++ [⟨"-h, --help", "Print help"⟩]
  | info | config => [⟨"-h, --help", "Print help"⟩]
  | help => []

end Command

/-- A section with a table, unless that is empty. -/
def sectionLines (title : String) (rows : List Explained) : List String :=
  if rows.isEmpty then [] else ["", title ++ ":"] ++ tableLines rows

/-- What is shown of a command, or else of the program. -/
def helpLines : Option Command → List String
  | none =>
    ["Multi-threaded CSG ray tracer", "", "Usage: csgray <COMMAND>"] ++
      sectionLines "Commands" (Command.all.map fun c => ⟨c.name, c.about⟩) ++
      sectionLines "Options" [⟨"-h, --help", "Print help"⟩]
  | some c =>
    [c.about, "", "Usage: csgray " ++ c.form] ++
      sectionLines "Arguments" c.plainArguments ++
      sectionLines "Options" c.options

end SolidTrace.CommandLine
