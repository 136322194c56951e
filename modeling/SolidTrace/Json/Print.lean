import SolidTrace.Json.Value

/-!
Writing JSON text.

Each item and each member stands on a line of its own, two spaces further in than what it is in.
-/

namespace SolidTrace

namespace Numeral

def signed (negative : Bool) (cs : List Char) : List Char := if negative then '-' :: cs else cs

def integerText (i : Int) : List Char := signed (decide (i < 0)) (decimalDigits i.natAbs)

/-- Where the point of a decimal stands, counted from its first digit. -/
def point (n : Numeral) : Int := (decimalDigits n.digits).length + n.exponent

/-- The text of an integer or of the decimal of a double. A point stands among the digits or before
them with a few zeros between; smaller and larger numbers have an exponent. -/
def text (n : Numeral) : List Char :=
  let digits := decimalDigits n.digits
  let magnitude :=
    if n.whole then digits
    else if 0 < n.point ∧ n.point ≤ 16 then
      digits.take n.point.toNat ++ '.' :: digits.drop n.point.toNat
    else if -5 < n.point ∧ n.point ≤ 0 then
      '0' :: '.' :: (List.replicate n.point.natAbs '0' ++ digits)
    else
      let fraction := if digits.length = 1 then [] else '.' :: digits.drop 1
      digits.take 1 ++ (fraction ++ 'e' :: integerText (n.point - 1))
  signed n.negative magnitude

end Numeral

namespace Json

/-! ### Strings -/

/-- The letter that stands for a character behind a backslash. -/
def escapeLetter? : Char → Option Char
  | '"' => some '"'
  | '\\' => some '\\'
  | '\x08' => some 'b'
  | '\x0c' => some 'f'
  | '\n' => some 'n'
  | '\r' => some 'r'
  | '\t' => some 't'
  | _ => none

def escaped (c : Char) : List Char :=
  match escapeLetter? c with
  | some letter => ['\\', letter]
  | none =>
    if c < ' ' then
      ['\\', 'u', '0', '0', Nat.digitChar (c.toNat / 16), Nat.digitChar (c.toNat % 16)]
    else [c]

def quoted (s : String) : List Char := '"' :: (s.toList.flatMap escaped ++ ['"'])

/-! ### Values -/

def newLine (level : Nat) : List Char := '\n' :: List.replicate (2 * level) ' '

mutual

/-- The text of a value that starts on a line of the given level. -/
def chars (level : Nat) : Json → List Char
  | null => ['n', 'u', 'l', 'l']
  | bool true => ['t', 'r', 'u', 'e']
  | bool false => ['f', 'a', 'l', 's', 'e']
  | number n => n.text
  | string s => quoted (s.getD "")
  | array [] => ['[', ']']
  | array (v :: rest) =>
    '[' :: (newLine (level + 1) ++ v.chars (level + 1) ++ charsItems (level + 1) rest ++
      newLine level ++ [']'])
  | object [] => ['{', '}']
  | object ((key, v) :: rest) =>
    '{' :: (newLine (level + 1) ++ quoted (key.getD "") ++ ':' :: ' ' :: v.chars (level + 1) ++
      charsMembers (level + 1) rest ++ newLine level ++ ['}'])

/-- The items behind the first one. -/
def charsItems (level : Nat) : List Json → List Char
  | [] => []
  | v :: rest => ',' :: (newLine level ++ v.chars level ++ charsItems level rest)

/-- The members behind the first one. -/
def charsMembers (level : Nat) : List (JsonText × Json) → List Char
  | [] => []
  | (key, v) :: rest =>
    ',' :: (newLine level ++ quoted (key.getD "") ++ ':' :: ' ' :: v.chars level ++
      charsMembers level rest)

end

def print (v : Json) : String := String.ofList (v.chars 0)

end Json

end SolidTrace
