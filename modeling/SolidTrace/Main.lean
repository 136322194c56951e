import SolidTrace.CommandLine.Run
import SolidTrace.Png.Read
import SolidTrace.Png.Write

/-!
The program.
-/

namespace SolidTrace.CommandLine

/-- The result of an action, or the text of the error that it ends with. -/
def attempt {α : Type} (action : IO α) : IO (Except String α) := do
  try return .ok (← action)
  catch e => return .error e.toString

/-- The files of the machine. -/
def diskFiles : FileAccess IO where
  readText path := do return (← attempt (IO.FS.readFile path)).toOption
  readImage path := do
    match ← attempt (IO.FS.readBinFile path) with
    | .error reason => return .error reason
    | .ok bytes => return ((Png.decode? bytes).elim (.error "not a picture of a known kind") .ok)
  writeFrame directory path view :=
    match view.rows with
    | .error fault => return .error fault.message
    | .ok rows => attempt do
      IO.FS.createDirAll directory
      IO.FS.writeBinFile path (Png.ofRows view.width view.height rows)

end SolidTrace.CommandLine

open SolidTrace SolidTrace.CommandLine in
/-- Runs the program on its arguments. -/
def main (args : List String) : IO UInt32 := do
  match ← CommandLine.run ⟨1, Substrate.full⟩ diskFiles args with
  | .ok lines =>
    lines.forM fun line => IO.println line
    return 0
  | .error failure =>
    IO.eprintln ("Error: " ++ failure.message)
    return failure.exitCode.toUInt32
