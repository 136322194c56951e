import SolidTrace.CommandLine.Run

/-!
Files kept in memory, for the program to work on.

A path is followed name by name, from the root of the tree or from outside, and every name is looked
up in a directory. What lies outside is out of sight: nothing is read there, and what is written
there leaves no trace.
-/

namespace SolidTrace.CommandLine

inductive FileError
  | missing
  | notDirectory
  | taken
  | isDirectory
  | nameTooLong
deriving DecidableEq, Repr

namespace FileError

def message : FileError → String
  | missing => "No such file or directory (os error 2)"
  | notDirectory => "Not a directory (os error 20)"
  | taken => "File exists (os error 17)"
  | isDirectory => "Is a directory (os error 21)"
  | nameTooLong => "File name too long (os error 36)"

end FileError

/-! ### Paths -/

/-- A path cut at its slashes. -/
structure Route where
  /-- Whether the path begins outside the tree. -/
  absolute : Bool
  names : List String
deriving DecidableEq, Repr

namespace Route

/-- A step to the same directory counts only at the end of a path, where it asks for a directory. -/
def ofString (path : String) : Route :=
  let names := (path.splitOn "/").filter (· ≠ "")
  ⟨path.startsWith "/", names.dropLast.filter (· ≠ ".") ++ names.getLast?.toList⟩

/-- The bytes that a path may have. -/
def lengthLimit : Nat := 4095

/-- The route that a path stands for. A path that is too long is refused before any name is looked
up. -/
def ofPath (path : String) : Except FileError Route :=
  if path.utf8ByteSize > lengthLimit then .error .nameTooLong else .ok (ofString path)

/-- The route to the directory of the last name. -/
def parent (r : Route) : Route := { r with names := (r.names.filter (· ≠ ".")).dropLast }

end Route

/-- Where a route has led. -/
inductive Place
  /-- To the end of the given names, from the root on. -/
  | inside (names : List String)
  | outside
deriving DecidableEq, Repr

namespace Place

/-- The place that a name leads to from a directory. -/
def step (p : Place) (name : String) : Place :=
  match p with
  | outside => outside
  | inside names =>
    if name = "." then p
    else if name ≠ ".." then inside (names ++ [name])
    else if names.isEmpty then outside
    else inside names.dropLast

end Place

/-! ### Trees -/

inductive FileContent
  | text (s : String)
  | image (i : Image)
  | frame (rows : List (List UInt32))

inductive FileItem
  | directory
  | file (content : FileContent)

/-- What there is below the root, by the names that lead to it. -/
structure FileTree where
  items : List (List String × FileItem)

namespace FileTree

def empty : FileTree := ⟨[]⟩

def item? (t : FileTree) : Place → Option FileItem
  | .outside | .inside [] => some .directory
  | .inside names => t.items.lookup names

def set (t : FileTree) (names : List String) (i : FileItem) : FileTree :=
  ⟨t.items.filter (·.1 ≠ names) ++ [(names, i)]⟩

/-- The bytes that a name may have. -/
def nameLimit : Nat := 255

/-- Looks a name up. -/
def step (t : FileTree) (p : Place) (name : String) : Except FileError Place :=
  match t.item? p with
  | none => .error .missing
  | some (.file _) => .error .notDirectory
  | some .directory =>
    if name.utf8ByteSize > nameLimit then .error .nameTooLong else .ok (p.step name)

/-- The place that a route leads to. Whether there is anything is asked of all places but the last.
-/
def find (t : FileTree) (r : Route) : Except FileError Place :=
  r.names.foldlM t.step (if r.absolute then .outside else .inside [])

def isDirectory (t : FileTree) (r : Route) : Bool :=
  match (t.find r).map t.item? with
  | .ok (some .directory) => true
  | _ => false

/-! ### Making directories -/

def makeDirectory (t : FileTree) (r : Route) : Except FileError FileTree := do
  match ← t.find r with
  | .outside => return t
  | .inside names =>
    if (t.item? (.inside names)).isSome then throw .taken else return t.set names .directory

/-- Makes a directory unless it is there. -/
def ensureDirectory (t : FileTree) (r : Route) : Except FileError FileTree :=
  match t.makeDirectory r with
  | .ok t => .ok t
  | .error e => if t.isDirectory r then .ok t else .error e

/-- Makes the directory at the end of some names, which are given from the last one on, and those on
the way to it that are missing. -/
def ensureAlong (t : FileTree) (absolute : Bool) : List String → Except FileError FileTree
  | [] => .ok t
  | last :: names =>
    let r : Route := ⟨absolute, (last :: names).reverse⟩
    match t.makeDirectory r with
    | .error .missing => do (← t.ensureAlong absolute names).ensureDirectory r
    | _ => t.ensureDirectory r

/-- Makes the directory in which a route ends, and those on the way to it that are missing. -/
def ensureParent (t : FileTree) (r : Route) : Except FileError FileTree :=
  t.ensureAlong r.absolute r.parent.names.reverse

/-- Makes a directory and those on the way to it that are missing. -/
def ensureDirectories (t : FileTree) (r : Route) : Except FileError FileTree :=
  match t.makeDirectory r with
  | .error .missing => do (← t.ensureParent r).ensureDirectory r
  | _ => t.ensureDirectory r

/-! ### Reading and writing -/

/-- The content of a file. With a slash at its end, a path asks for a directory. -/
def read? (t : FileTree) (path : String) : Option FileContent :=
  if path.endsWith "/" then none
  else
    match ((Route.ofPath path).bind t.find).map t.item? with
    | .ok (some (.file content)) => some content
    | _ => none

/-- Writes a file in a directory that is there. -/
def write (t : FileTree) (path : String) (content : FileContent) : Except FileError FileTree := do
  match ← t.find (← Route.ofPath path) with
  | .outside => return t
  | .inside names =>
    match t.item? (.inside names) with
    | some .directory => throw .isDirectory
    | _ => return t.set names (.file content)

/-- The tree with one more file, if there can be one of that name. -/
def add (t : FileTree) (path : String) (content : FileContent) : FileTree :=
  let added := do (← t.ensureParent (← Route.ofPath path)).write path content
  added.toOption.getD t

def ofFiles (files : List (String × FileContent)) : FileTree :=
  files.foldl (fun t (path, content) => t.add path content) empty

/-- The images in a tree. -/
def images (t : FileTree) : ImageSource := fun path =>
  match t.read? path with
  | some (.image i) => .ok i
  | _ => .error "not an image"

/-- The frames in a tree, each by its path from the root. -/
def frames (t : FileTree) : List (String × List (List UInt32)) :=
  t.items.filterMap fun (names, i) =>
    match i with
    | .file (.frame rows) => some ("/".intercalate names, rows)
    | _ => none

/-- Writes a frame, in a directory that is made if it is missing. -/
def writeFrame (t : FileTree) (directory path : String) (view : FrameView) :
    Except String FileTree := do
  let rows ← view.rows.mapError Fault.message
  let written := do
    (← t.ensureDirectories (← Route.ofPath directory)).write path (.frame rows)
  written.mapError FileError.message

/-- Access to a tree that is kept as the state. -/
def access : FileAccess (StateM FileTree) where
  readText path := fun t =>
    match t.read? path with
    | some (.text s) => (some s, t)
    | _ => (none, t)
  readImage path := fun t => (t.images path, t)
  writeFrame directory path view := fun t =>
    match t.writeFrame directory path view with
    | .ok t => (.ok (), t)
    | .error message => (.error message, t)

end FileTree

end SolidTrace.CommandLine
