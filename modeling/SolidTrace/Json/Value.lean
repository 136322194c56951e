import SolidTrace.Json.Number

/-!
JSON values.

A value keeps its text apart from spacing: numbers stay decimal, members keep their order and may
repeat. `sound` says which values can be held as data: numbers are integers or have a double,
strings are text, and nesting is bounded.
-/

namespace SolidTrace

/-- The content of a JSON string; `none` when an escape leaves half of a surrogate pair, which no
string can hold. -/
abbrev JsonText := Option String

inductive Json
  | null
  | bool (b : Bool)
  | number (n : Numeral)
  | string (s : JsonText)
  | array (items : List Json)
  | object (members : List (JsonText × Json))
deriving Repr

namespace Json

/-- The most arrays and objects that may be open at once. -/
def nestingLimit : Nat := 127

mutual

/-- Whether the value can be held as data, with at most `depth` further arrays and objects open. -/
def sound (depth : Nat) : Json → Bool
  | null => true
  | bool _ => true
  | number n => n.toInt?.isSome || n.toDouble?.isSome
  | string s => s.isSome
  | array items => 0 < depth && soundItems (depth - 1) items
  | object members => 0 < depth && soundMembers (depth - 1) members

def soundItems (depth : Nat) : List Json → Bool
  | [] => true
  | v :: rest => v.sound depth && soundItems depth rest

def soundMembers (depth : Nat) : List (JsonText × Json) → Bool
  | [] => true
  | (key, v) :: rest => key.isSome && v.sound depth && soundMembers depth rest

end

end Json

end SolidTrace
