import SolidTrace.Json.Token
import SolidTrace.Toml.Value

/-!
Tokens of TOML text.

Bare keys, numbers and the names of truth values are all words; a point is part of a word, so that
`1.5` is one word both as a number and as a dotted key. Strings run over one line.
-/

namespace SolidTrace.Toml

inductive Token
  /-- Opens an array or a header; tells whether the next character does so again. -/
  | openBracket (glued : Bool)
  /-- Closes an array or a header; tells whether the next character does so again. -/
  | closeBracket (glued : Bool)
  | openBrace | closeBrace | equals | comma | newline
  | word (cs : List Char)
  | string (s : String)
deriving DecidableEq, Repr

namespace Token

open Json.Token (hexDigit? hexUnit?)

/-! ### Strings -/

/-- Characters that stand for themselves in strings and comments. -/
def isPlain (c : Char) : Bool := c == '\t' || ' ' ≤ c && c != '\x7f'

def escape? : Char → Option Char
  | 'b' => some '\x08'
  | 't' => some '\t'
  | 'n' => some '\n'
  | 'f' => some '\x0c'
  | 'r' => some '\r'
  | '"' => some '"'
  | '\\' => some '\\'
  | _ => none

/-- The character with a code point, unless it is half of a surrogate pair or too large. -/
def scalarChar? (n : Nat) : Option Char := if n.isValidChar then some (Char.ofNat n) else none

/-- The content of a string in double quotes, up to the closing one, and what follows. -/
def scanBasic? : List Char → Option (List Char × List Char)
  | [] => none
  | '"' :: rest => some ([], rest)
  | '\\' :: 'u' :: a :: b :: c :: d :: rest => do
    let c ← scalarChar? (← hexUnit? a b c d)
    let (cs, rest) ← scanBasic? rest
    return (c :: cs, rest)
  | '\\' :: 'U' :: a :: b :: c :: d :: e :: f :: g :: h :: rest => do
    let c ← scalarChar? ((← hexUnit? a b c d) * 0x10000 + (← hexUnit? e f g h))
    let (cs, rest) ← scanBasic? rest
    return (c :: cs, rest)
  | '\\' :: e :: rest => do
    let c ← escape? e
    let (cs, rest) ← scanBasic? rest
    return (c :: cs, rest)
  | c :: rest =>
    if isPlain c ∧ c ≠ '\\' then do
      let (cs, rest) ← scanBasic? rest
      return (c :: cs, rest)
    else none

theorem length_of_scanBasic? {cs s rest : List Char} (h : scanBasic? cs = some (s, rest)) :
    rest.length < cs.length := by
  fun_induction scanBasic? cs generalizing s rest with
  | case1 => simp at h
  | case2 => simp_all
  | case3 a b c d r ih =>
    simp only [Option.bind_eq_bind, Option.bind_eq_some_iff] at h
    obtain ⟨_, _, _, _, ⟨p, t⟩, ht, h⟩ := h
    have := ih ht
    simp_all
    omega
  | case4 a b c d e f g k r ih =>
    simp only [Option.bind_eq_bind, Option.bind_eq_some_iff] at h
    obtain ⟨_, _, _, _, _, _, ⟨p, t⟩, ht, h⟩ := h
    have := ih ht
    simp_all
    omega
  | case5 e r _ _ ih =>
    simp only [Option.bind_eq_bind, Option.bind_eq_some_iff] at h
    obtain ⟨_, _, ⟨p, t⟩, ht, h⟩ := h
    have := ih ht
    simp_all
    omega
  | case6 c r _ _ _ _ _ ih =>
    simp only [Option.bind_eq_bind, Option.bind_eq_some_iff] at h
    obtain ⟨⟨p, t⟩, ht, h⟩ := h
    have := ih ht
    simp_all
    omega
  | case7 => simp at h

/-- What follows a string in single quotes, in which nothing is escaped. -/
def afterLiteral? : List Char → Option (List Char)
  | '\'' :: rest => some rest
  | _ => none

theorem length_of_afterLiteral? {cs rest : List Char} (h : afterLiteral? cs = some rest) :
    rest.length < cs.length := by
  unfold afterLiteral? at h
  split at h <;> simp_all

/-! ### Texts -/

def isWordChar (c : Char) : Bool :=
  c.isAlphanum || c == '_' || c == '-' || c == '+' || c == '.'

def scan? : List Char → Option (List Token)
  | [] => some []
  | '[' :: rest => (scan? rest).map (openBracket (rest.head? == some '[') :: ·)
  | ']' :: rest => (scan? rest).map (closeBracket (rest.head? == some ']') :: ·)
  | '{' :: rest => (scan? rest).map (openBrace :: ·)
  | '}' :: rest => (scan? rest).map (closeBrace :: ·)
  | '=' :: rest => (scan? rest).map (equals :: ·)
  | ',' :: rest => (scan? rest).map (comma :: ·)
  | '\n' :: rest => (scan? rest).map (newline :: ·)
  | '\r' :: '\n' :: rest => (scan? rest).map (newline :: ·)
  | '#' :: rest =>
    have := (List.dropWhile_sublist (fun c => c != '\n' && c != '\r') (l := rest)).length_le
    if (rest.takeWhile fun c => c != '\n' && c != '\r').all isPlain then
      scan? (rest.dropWhile fun c => c != '\n' && c != '\r')
    else none
  | '"' :: rest =>
    match h : scanBasic? rest with
    | none => none
    | some (cs, tail) =>
      have := length_of_scanBasic? h
      (scan? tail).map (string (String.ofList cs) :: ·)
  | '\'' :: rest =>
    have := (List.dropWhile_sublist isLiteral (l := rest)).length_le
    match h : afterLiteral? (rest.dropWhile isLiteral) with
    | none => none
    | some tail =>
      have := length_of_afterLiteral? h
      (scan? tail).map (string (String.ofList (rest.takeWhile isLiteral)) :: ·)
  | c :: rest =>
    if c = ' ' ∨ c = '\t' then scan? rest
    else if isWordChar c then
      have := (List.dropWhile_sublist isWordChar (l := rest)).length_le
      (scan? (rest.dropWhile isWordChar)).map (word (c :: rest.takeWhile isWordChar) :: ·)
    else none
termination_by cs => cs.length
where
  isLiteral (c : Char) : Bool := isPlain c && c != '\''

/-! ### Keys -/

/-- What a dotted key is written with. -/
inductive KeyPart
  | name (s : String)
  | point

def isBare (c : Char) : Bool := c.isAlphanum || c == '_' || c == '-'

/-- The parts that a word contributes to a key. -/
def keyParts? (cs : List Char) : Option (List KeyPart) := do
  let names ← (cs.splitOn '.').mapM fun name =>
    if name.all isBare then some (if name.isEmpty then [] else [KeyPart.name (String.ofList name)])
    else none
  return [KeyPart.point].intercalate names

/-- Names with a point between any two. -/
def dotted? : List KeyPart → Option (List String)
  | [.name s] => some [s]
  | .name s :: .point :: rest => (dotted? rest).map (s :: ·)
  | _ => none

/-! ### Numbers and truth values -/

/-- Digits without the single underscores between them. -/
def joinDigits? (isDigit : Char → Bool) : List Char → Option (List Char)
  | [] => none
  | [c] => if isDigit c then some [c] else none
  | c :: '_' :: rest => if isDigit c then (joinDigits? isDigit rest).map (c :: ·) else none
  | c :: rest => if isDigit c then (joinDigits? isDigit rest).map (c :: ·) else none

/-- An integer in a base up to sixteen. -/
def natInBase? (base : Nat) (cs : List Char) : Option Nat := do
  let value (c : Char) : Nat := (hexDigit? c).getD base
  let digits ← joinDigits? (fun c => value c < base) cs
  return digits.foldl (fun n c => n * base + value c) 0

/-- The text without underscores, each of which stands between two digits. -/
def dropUnderscores? : List Char → Option (List Char)
  | [] => some []
  | '_' :: _ => none
  | a :: '_' :: b :: rest =>
    if a.isDigit && b.isDigit then (dropUnderscores? (b :: rest)).map (a :: ·) else none
  | a :: rest => (dropUnderscores? rest).map (a :: ·)

/-- A decimal number. Apart from underscores and a plus sign it is written as in JSON. -/
def decimal? (cs : List Char) : Option Numeral := do
  match ← dropUnderscores? cs with
  | '+' :: '-' :: _ => none
  | '+' :: cs => (NumberLiteral.ofChars? cs).map (·.exact)
  | cs => (NumberLiteral.ofChars? cs).map (·.exact)

/-- Integers have 64 signed bits. -/
def integer? (i : Int) : Option Value :=
  if -0x8000000000000000 ≤ i ∧ i < 0x8000000000000000 then some (.integer i) else none

/-- The value that a word writes. -/
def value? : List Char → Option Value
  | ['t', 'r', 'u', 'e'] => some (.boolean true)
  | ['f', 'a', 'l', 's', 'e'] => some (.boolean false)
  | '0' :: 'x' :: cs => (natInBase? 16 cs).bind fun n => integer? n
  | '0' :: 'o' :: cs => (natInBase? 8 cs).bind fun n => integer? n
  | '0' :: 'b' :: cs => (natInBase? 2 cs).bind fun n => integer? n
  | cs => do
    let n ← decimal? cs
    if n.whole then integer? (if n.negative then -(n.digits : Int) else n.digits)
    else do
      let _ ← n.nearest?
      return .float n

end Token

end SolidTrace.Toml
