import SolidTrace.Json.Value

/-!
Tokens of JSON text.

`Token.scan?` cuts a text into tokens. A number is the longest run of characters that numbers are
written with, so that what follows it is never part of it.
-/

namespace SolidTrace.Json

inductive Token
  | openArray | closeArray | openObject | closeObject | comma | colon
  | null
  | bool (b : Bool)
  | number (n : Numeral)
  | string (s : JsonText)
deriving Repr

namespace Token

/-! ### Strings -/

/-- What one character or escape of a string stands for. -/
inductive Piece
  | char (c : Char)
  /-- Half of a surrogate pair. -/
  | half (unit : Nat)
deriving Repr

def isLeading (unit : Nat) : Bool := 0xD800 ≤ unit && unit < 0xDC00

def isTrailing (unit : Nat) : Bool := 0xDC00 ≤ unit && unit < 0xE000

def Piece.ofUnit (unit : Nat) : Piece :=
  if isLeading unit || isTrailing unit then .half unit else .char (Char.ofNat unit)

/-- The character written by a backslash and a letter. -/
def escape? : Char → Option Char
  | '"' => some '"'
  | '\\' => some '\\'
  | '/' => some '/'
  | 'b' => some '\x08'
  | 'f' => some '\x0c'
  | 'n' => some '\n'
  | 'r' => some '\r'
  | 't' => some '\t'
  | _ => none

def hexDigit? (c : Char) : Option Nat :=
  if '0' ≤ c ∧ c ≤ '9' then some (c.toNat - '0'.toNat)
  else if 'a' ≤ c ∧ c ≤ 'f' then some (c.toNat - 'a'.toNat + 10)
  else if 'A' ≤ c ∧ c ≤ 'F' then some (c.toNat - 'A'.toNat + 10)
  else none

def hexUnit? (a b c d : Char) : Option Nat := do
  let a ← hexDigit? a
  let b ← hexDigit? b
  let c ← hexDigit? c
  let d ← hexDigit? d
  return ((a * 16 + b) * 16 + c) * 16 + d

/-- The pieces of a string up to its closing quote, and what follows the quote. Control characters
stand in a string only as escapes. -/
def scanString? : List Char → Option (List Piece × List Char)
  | [] => none
  | '"' :: rest => some ([], rest)
  | '\\' :: 'u' :: a :: b :: c :: d :: rest => do
    let unit ← hexUnit? a b c d
    let (pieces, rest) ← scanString? rest
    return (Piece.ofUnit unit :: pieces, rest)
  | '\\' :: e :: rest => do
    let c ← escape? e
    let (pieces, rest) ← scanString? rest
    return (.char c :: pieces, rest)
  | c :: rest =>
    if c < ' ' ∨ c = '\\' then none
    else do
      let (pieces, rest) ← scanString? rest
      return (.char c :: pieces, rest)

theorem length_of_scanString? {cs : List Char} {pieces : List Piece} {rest : List Char}
    (h : scanString? cs = some (pieces, rest)) : rest.length < cs.length := by
  fun_induction scanString? cs generalizing pieces rest with
  | case1 => simp at h
  | case2 r => simp_all
  | case3 a b c d r ih =>
    simp only [Option.bind_eq_bind, Option.bind_eq_some_iff] at h
    obtain ⟨_, _, ⟨p, s⟩, hs, h⟩ := h
    have := ih hs
    simp_all
    omega
  | case4 e r _ ih =>
    simp only [Option.bind_eq_bind, Option.bind_eq_some_iff] at h
    obtain ⟨_, _, ⟨p, s⟩, hs, h⟩ := h
    have := ih hs
    simp_all
    omega
  | case5 => simp at h
  | case6 c r _ _ _ _ ih =>
    simp only [Option.bind_eq_bind, Option.bind_eq_some_iff] at h
    obtain ⟨⟨p, s⟩, hs, h⟩ := h
    have := ih hs
    simp_all
    omega

/-- Joins surrogate pairs; `none` when a half is left over. -/
def joinPieces : List Piece → Option (List Char)
  | [] => some []
  | .char c :: rest => (joinPieces rest).map (c :: ·)
  | .half leading :: .half trailing :: rest =>
    if isLeading leading ∧ isTrailing trailing then
      (joinPieces rest).map
        (Char.ofNat (0x10000 + (leading - 0xD800) * 0x400 + (trailing - 0xDC00)) :: ·)
    else none
  | .half _ :: _ => none

/-! ### Numbers -/

def isNumberChar (c : Char) : Bool :=
  c.isDigit || c == '-' || c == '+' || c == '.' || c == 'e' || c == 'E'

/-! ### Texts -/

def isSpace (c : Char) : Bool := c == ' ' || c == '\t' || c == '\n' || c == '\r'

def scan? : List Char → Option (List Token)
  | [] => some []
  | '[' :: rest => (scan? rest).map (openArray :: ·)
  | ']' :: rest => (scan? rest).map (closeArray :: ·)
  | '{' :: rest => (scan? rest).map (openObject :: ·)
  | '}' :: rest => (scan? rest).map (closeObject :: ·)
  | ',' :: rest => (scan? rest).map (comma :: ·)
  | ':' :: rest => (scan? rest).map (colon :: ·)
  | 'n' :: 'u' :: 'l' :: 'l' :: rest => (scan? rest).map (null :: ·)
  | 't' :: 'r' :: 'u' :: 'e' :: rest => (scan? rest).map (bool true :: ·)
  | 'f' :: 'a' :: 'l' :: 's' :: 'e' :: rest => (scan? rest).map (bool false :: ·)
  | '"' :: rest =>
    match h : scanString? rest with
    | none => none
    | some (pieces, tail) =>
      have := length_of_scanString? h
      (scan? tail).map (string ((joinPieces pieces).map String.ofList) :: ·)
  | c :: rest =>
    if isSpace c then scan? rest
    else if isNumberChar c then do
      let n ← NumberLiteral.ofChars? (c :: rest.takeWhile isNumberChar)
      have := (List.dropWhile_sublist isNumberChar (l := rest)).length_le
      (scan? (rest.dropWhile isNumberChar)).map (number n.fitted :: ·)
    else none
termination_by cs => cs.length

end Token

end SolidTrace.Json
