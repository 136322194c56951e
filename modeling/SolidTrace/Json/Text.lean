import SolidTrace.Json.Token

/-!
Reading JSON text.

The tokens are taken one at a time; the arrays and objects still open lie on a stack.
-/

namespace SolidTrace.Json

/-- An array or object still open, with what it holds so far, the last first. -/
inductive Frame
  | array (items : List Json)
  | object (members : List (JsonText × Json)) (key : JsonText)

/-- What may come next. -/
inductive Mode
  | value
  /-- A value, or the end of the array just opened. -/
  | item
  | key (members : List (JsonText × Json))
  /-- A key, or the end of the object just opened. -/
  | member
  | colon (members : List (JsonText × Json)) (key : JsonText)
  /-- What may follow a value just read. -/
  | after (v : Json)

structure State where
  stack : List Frame
  mode : Mode

namespace State

def init : State := ⟨[], .value⟩

def beginValue (stack : List Frame) : Token → Option State
  | .null => some ⟨stack, .after .null⟩
  | .bool b => some ⟨stack, .after (.bool b)⟩
  | .number n => some ⟨stack, .after (.number n)⟩
  | .string s => some ⟨stack, .after (.string s)⟩
  | .openArray => some ⟨.array [] :: stack, .item⟩
  | .openObject => some ⟨stack, .member⟩
  | _ => none

def step (s : State) (t : Token) : Option State :=
  match s.mode, t, s.stack with
  | .value, t, stack => beginValue stack t
  | .item, .closeArray, .array _ :: stack => some ⟨stack, .after (.array [])⟩
  | .item, t, stack => beginValue stack t
  | .member, .closeObject, stack => some ⟨stack, .after (.object [])⟩
  | .member, .string key, stack => some ⟨stack, .colon [] key⟩
  | .key members, .string key, stack => some ⟨stack, .colon members key⟩
  | .colon members key, .colon, stack => some ⟨.object members key :: stack, .value⟩
  | .after v, .comma, .array items :: stack => some ⟨.array (v :: items) :: stack, .value⟩
  | .after v, .closeArray, .array items :: stack =>
    some ⟨stack, .after (.array (v :: items).reverse)⟩
  | .after v, .comma, .object members key :: stack => some ⟨stack, .key ((key, v) :: members)⟩
  | .after v, .closeObject, .object members key :: stack =>
    some ⟨stack, .after (.object ((key, v) :: members).reverse)⟩
  | _, _, _ => none

def run (s : State) (ts : List Token) : Option State := ts.foldlM step s

@[simp] theorem run_nil (s : State) : s.run [] = some s := rfl

theorem run_cons (s : State) (t : Token) (ts : List Token) :
    s.run (t :: ts) = (s.step t).bind (run · ts) := rfl

end State

/-- Reads a text that holds one value and nothing else but white space. -/
def parse? (text : String) : Option Json := do
  let tokens ← Token.scan? text.toList
  let s ← State.init.run tokens
  match s with
  | ⟨[], .after v⟩ => some v
  | _ => none

end SolidTrace.Json
