import SolidTrace.Toml.Token

/-!
Reading TOML text.

The tokens are taken one at a time; the arrays and inline tables still open lie on a stack above the
key of their line.
-/

namespace SolidTrace.Toml

/-- Fewer arrays and inline tables than this may be open at once, and a key has fewer parts. -/
def nestingLimit : Nat := 80

/-- An array or inline table still open, with what it holds so far, the last first. -/
inductive Frame
  | array (items : List Value)
  | table (entries : List (List String × Value)) (key : List String)

/-- What a key that is read belongs to. -/
inductive KeyPlace
  | line
  /-- An inline table with the entries so far, the last first. -/
  | table (entries : List (List String × Value))

/-- What may come next. -/
inductive Mode
  | line
  /-- The second bracket before the header of an array of tables. -/
  | opening
  /-- The rest of a header, of an array of tables or not. -/
  | header (element : Bool) (parts : List Token.KeyPart)
  /-- The second bracket after the header of an array of tables. -/
  | closing (key : List String)
  | lineEnd
  | key (place : KeyPlace) (parts : List Token.KeyPart)
  /-- A key, or the end of the inline table just opened. -/
  | member
  | value
  /-- A value, or the end of an array. -/
  | item
  /-- What may follow a value just read. -/
  | after (v : Value)

structure State where
  /-- The lines read, the last first. -/
  statements : List Statement
  /-- The key of the line whose value is read. -/
  lineKey : List String
  stack : List Frame
  mode : Mode

namespace State

def init : State := ⟨[], [], [], .line⟩

/-- The key written by some parts. -/
def key? (parts : List Token.KeyPart) : Option (List String) :=
  (Token.dotted? parts).filter fun key => key.length < nestingLimit

def addStatement (s : State) (statement : Statement) (mode : Mode) : State :=
  { s with statements := statement :: s.statements, mode }

/-- Completes a value; with nothing open it completes the line. -/
def finish (s : State) (v : Value) : State :=
  match s.stack with
  | [] => s.addStatement (.entry s.lineKey v) .lineEnd
  | _ => { s with mode := .after v }

/-- Opens an array or inline table. -/
def nest (s : State) (frames : List Frame) (mode : Mode) : Option State :=
  if s.stack.length + 1 < nestingLimit then some { s with stack := frames ++ s.stack, mode }
  else none

def beginValue (s : State) : Token → Option State
  | .string text => some (s.finish (.string text))
  | .word cs => (Token.value? cs).map s.finish
  | .openBracket _ => s.nest [.array []] .item
  | .openBrace => if s.stack.length + 1 < nestingLimit then some { s with mode := .member } else none
  | _ => none

def endArray (s : State) (items : List Value) (stack : List Frame) : State :=
  finish { s with stack } (.array items.reverse)

def endTable (s : State) (entries : List (List String × Value)) (stack : List Frame) :
    Option State := do
  return finish { s with stack } (.table .inline (← Table.ofEntries entries.reverse))

/-- Takes a token that a key may be written with. -/
def keyToken (s : State) (place : KeyPlace) (parts : List Token.KeyPart) : Token → Option State
  | .word cs => do return { s with mode := .key place (parts ++ (← Token.keyParts? cs)) }
  | .string text => some { s with mode := .key place (parts ++ [.name text]) }
  | .equals => do
    let key ← key? parts
    match place with
    | .line => return { s with lineKey := key, mode := .value }
    | .table entries => return { s with stack := .table entries key :: s.stack, mode := .value }
  | _ => none

def headerToken (s : State) (element : Bool) (parts : List Token.KeyPart) : Token → Option State
  | .word cs => do return { s with mode := .header element (parts ++ (← Token.keyParts? cs)) }
  | .string text => some { s with mode := .header element (parts ++ [.name text]) }
  | .closeBracket glued => do
    let key ← key? parts
    if element then if glued then some { s with mode := .closing key } else none
    else some (s.addStatement (.header key) .lineEnd)
  | _ => none

def step (s : State) (t : Token) : Option State :=
  match s.mode, t, s.stack with
  | .line, .newline, _ => some s
  | .line, .openBracket true, _ => some { s with mode := .opening }
  | .line, .openBracket false, _ => some { s with mode := .header false [] }
  | .line, t, _ => s.keyToken .line [] t
  | .opening, .openBracket _, _ => some { s with mode := .header true [] }
  | .header element parts, t, _ => s.headerToken element parts t
  | .closing key, .closeBracket _, _ => some (s.addStatement (.elementHeader key) .lineEnd)
  | .lineEnd, .newline, _ => some { s with mode := .line }
  | .key place parts, t, _ => s.keyToken place parts t
  | .member, .closeBrace, stack => s.endTable [] stack
  | .member, t, _ => s.keyToken (.table []) [] t
  | .value, t, _ => s.beginValue t
  | .item, .newline, _ => some s
  | .item, .closeBracket _, .array items :: stack => some (s.endArray items stack)
  | .item, t, _ => s.beginValue t
  | .after _, .newline, .array _ :: _ => some s
  | .after v, .comma, .array items :: stack =>
    some { s with stack := .array (v :: items) :: stack, mode := .item }
  | .after v, .closeBracket _, .array items :: stack => some (s.endArray (v :: items) stack)
  | .after v, .comma, .table entries key :: stack =>
    some { s with stack, mode := .key (.table ((key, v) :: entries)) [] }
  | .after v, .closeBrace, .table entries key :: stack => s.endTable ((key, v) :: entries) stack
  | _, _, _ => none

/-- Whether a text may end here. -/
def isComplete (s : State) : Bool :=
  match s.mode with
  | .line | .lineEnd => true
  | _ => false

end State

/-- Reads a text as the root table of a document. A mark of byte order in front is passed over. -/
def parse? (text : String) : Option Table := do
  let cs := text.toList
  let tokens ← Token.scan? (if cs.head? = some '\ufeff' then cs.drop 1 else cs)
  let s ← tokens.foldlM State.step State.init
  if s.isComplete then Document.ofStatements s.statements.reverse else none

end SolidTrace.Toml
