import SolidTrace.Json.Value

/-!
TOML values, and tables written line by line.

A table remembers how it came to be, since that decides what later lines may add to it: a header
opens a table once, dotted keys may go on with tables that dotted keys have made, and an inline
table is complete where it stands. Dates and times are left out.
-/

namespace SolidTrace.Toml

/-- How a table came to be. -/
inductive Origin
  /-- By a header of its own. -/
  | header
  /-- On the way to a table with a header. -/
  | path
  /-- On the way of a dotted key. -/
  | dotted
  /-- Between braces. -/
  | inline
deriving DecidableEq, Repr

inductive Value
  | string (s : String)
  | integer (i : Int)
  | float (n : Numeral)
  | boolean (b : Bool)
  | array (items : List Value)
  | table (origin : Origin) (entries : List (String × Value))
  /-- An array of tables with headers, the last one first. -/
  | tables (elements : List (List (String × Value)))
deriving Repr

abbrev Table := List (String × Value)

namespace Table

/-- Puts a value under a key, in the place of the one that is there. -/
def set (key : String) (v : Value) : Table → Table
  | [] => [(key, v)]
  | (k, w) :: rest => if k = key then (k, v) :: rest else (k, w) :: set key v rest

/-- Enters a value under a dotted key. No key is entered twice, and the table at the end of the way
must be one that dotted keys have made. -/
def define : (key : List String) → Value → Table → Option Table
  | [], _, _ => none
  | [key], v, t =>
    match List.lookup key t with
    | none => some (set key v t)
    | some _ => none
  | key :: rest, v, t =>
    match List.lookup key t with
    | none => do return set key (.table .dotted (← define rest v [])) t
    | some (.table origin inner) =>
      if origin = .dotted ∨ origin = .path ∧ 1 < rest.length then do
        return set key (.table origin (← define rest v inner)) t
      else none
    | some (.tables (current :: earlier)) =>
      if 1 < rest.length then do
        return set key (.tables ((← define rest v current) :: earlier)) t
      else none
    | some _ => none

/-- Changes the table at the end of a way of headers; tables that are missing on the way are made.
-/
def walk (f : Table → Option Table) : (way : List String) → Table → Option Table
  | [], t => f t
  | key :: way, t =>
    match List.lookup key t with
    | none => do return set key (.table .path (← walk f way [])) t
    | some (.table origin inner) =>
      if origin = .inline then none
      else do return set key (.table origin (← walk f way inner)) t
    | some (.tables (current :: earlier)) => do
      return set key (.tables ((← walk f way current) :: earlier)) t
    | some _ => none

/-- Opens a table by its header. -/
def openTable (key : String) (t : Table) : Option Table :=
  match List.lookup key t with
  | none => some (set key (.table .header []) t)
  | some (.table .path inner) => some (set key (.table .header inner) t)
  | some _ => none

/-- Opens the next table of an array of tables. -/
def openElement (key : String) (t : Table) : Option Table :=
  match List.lookup key t with
  | none => some (set key (.tables [[]]) t)
  | some (.tables elements) => some (set key (.tables ([] :: elements)) t)
  | some _ => none

/-- The table of the entries between braces. -/
def ofEntries (entries : List (List String × Value)) : Option Table :=
  entries.foldlM (fun t e => define e.1 e.2 t) []

end Table

/-- A line of a document. -/
inductive Statement
  | entry (key : List String) (v : Value)
  | header (key : List String)
  | elementHeader (key : List String)
deriving Repr

/-- A document read up to some line. -/
structure Document where
  root : Table
  /-- The way to the table that entries go to. -/
  current : List String
deriving Repr

namespace Document

def empty : Document := ⟨[], []⟩

def step (d : Document) : Statement → Option Document
  | .entry key v => do return { d with root := ← Table.walk (Table.define key v) d.current d.root }
  | .header key => do
    let last ← key.getLast?
    return ⟨← Table.walk (Table.openTable last) key.dropLast d.root, key⟩
  | .elementHeader key => do
    let last ← key.getLast?
    return ⟨← Table.walk (Table.openElement last) key.dropLast d.root, key⟩

/-- The root table of a document with the given lines. -/
def ofStatements (l : List Statement) : Option Table := do
  return (← l.foldlM step empty).root

end Document

/-! ### As data -/

namespace Value

mutual

/-- The same value in the terms of JSON. -/
def toJson : Value → Json
  | string s => .string (some s)
  | integer i => .number (Numeral.ofInt i)
  | float n => .number { n with whole := false }
  | boolean b => .bool b
  | array items => .array (itemsToJson items)
  | table _ entries => .object (entriesToJson entries)
  | tables elements => .array (tablesToJson elements).reverse

def itemsToJson : List Value → List Json
  | [] => []
  | v :: rest => v.toJson :: itemsToJson rest

def entriesToJson : List (String × Value) → List (JsonText × Json)
  | [] => []
  | (key, v) :: rest => (some key, v.toJson) :: entriesToJson rest

def tablesToJson : List (List (String × Value)) → List Json
  | [] => []
  | entries :: rest => .object (entriesToJson entries) :: tablesToJson rest

end

end Value

end SolidTrace.Toml
