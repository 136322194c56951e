import SolidTrace.Json.Value

/-!
Readers of JSON values.

A value is read either as the text goes by, or after it has been held as data because its kind was
not known before. Held values have to be sound as a whole, also where nothing reads them; of values
that go by, only what is read has to be. In both cases each array or object read takes one level off
the depth that is left.
-/

namespace SolidTrace.Json

structure Place where
  /-- How many arrays and objects may still be opened. -/
  depth : Nat
  held : Bool
deriving DecidableEq, Repr

namespace Place

def outermost : Place := ⟨nestingLimit, false⟩

/-- Where the contents of an array or object lie. -/
def enter (p : Place) : Option Place :=
  match p.depth with
  | 0 => none
  | depth + 1 => some { p with depth }

/-- The same place once its value is held. -/
def hold (p : Place) (v : Json) : Option Place :=
  if p.held || v.sound p.depth then some { p with held := true } else none

end Place

def Reader (α : Type) : Type := Place → Json → Option α

namespace Reader

variable {α : Type}

def map {β : Type} (f : α → β) (r : Reader α) : Reader β := fun p v => (r p v).map f

/-! ### Simple values -/

def double : Reader Float
  | _, .number n => n.toDouble?
  | _, _ => none

/-- An integer from `low` to `high`. -/
def integer (low high : Int) : Reader Int
  | _, .number n => n.toInt?.filter fun i => decide (low ≤ i ∧ i ≤ high)
  | _, _ => none

def int32 : Reader Int := integer (-0x80000000) 0x7FFFFFFF

def int64 : Reader Int := integer (-0x8000000000000000) 0x7FFFFFFFFFFFFFFF

/-- A natural number below a limit. -/
def natural (limit : Nat) : Reader Nat := map Int.toNat (integer 0 (limit - 1))

def word : Reader UInt32 := map (fun i => UInt32.ofNat i.toNat) (integer 0 0xFFFFFFFF)

def boolean : Reader Bool
  | _, .bool b => some b
  | _, _ => none

def string : Reader String
  | _, .string s => s
  | _, _ => none

/-- A value or `null`. -/
def optional (r : Reader α) : Reader (Option α)
  | _, .null => some none
  | p, v => (r p v).map some

/-! ### Arrays -/

def list (r : Reader α) : Reader (List α)
  | p, .array items => do
    let inner ← p.enter
    items.mapM (r inner)
  | _, _ => none

/-- An array of exactly `n` items. -/
def tuple (n : Nat) (r : Reader α) : Reader (List α) := fun p v =>
  (list r p v).filter fun l => l.length == n

/-! ### Objects -/

/-- An object with any keys. -/
def entries (r : Reader α) : Reader (List (String × α))
  | p, .object members => do
    let inner ← p.enter
    members.mapM fun (key, v) => do return (← key, ← r inner v)
  | _, _ => none

/-- The values of the fields of a record that are there. -/
structure Fields where
  place : Place
  values : List (String × Json)

/-- A record: an object in which no field repeats and other keys are passed over, or an array of the
values in the order of the fields, of which the last ones may be left out. -/
def fields (names : List String) : Reader Fields
  | p, .array items => do
    let inner ← p.enter
    if items.length ≤ names.length then some ⟨inner, names.zip items⟩ else none
  | p, .object members => do
    let inner ← p.enter
    let named ← members.mapM fun (key, v) => key.map (·, v)
    let values := named.filter fun m => names.contains m.1
    if (values.map Prod.fst).Nodup then some ⟨inner, values⟩ else none
  | _, _ => none

namespace Fields

def required (f : Fields) (name : String) (r : Reader α) : Option α :=
  (List.lookup name f.values).bind (r f.place)

def withDefault (f : Fields) (name : String) (r : Reader α) (default : α) : Option α :=
  match List.lookup name f.values with
  | none => some default
  | some v => r f.place v

end Fields

/-! ### Choices -/

/-- One of several names: as a string, or as an object with `null` for its only value. A held `null`
may also be an empty object. -/
def choice (names : List (String × α)) : Reader α
  | _, .string s => s.bind (List.lookup · names)
  | p, .object [(key, v)] => do
    let _ ← p.enter
    match v with
    | .null => key.bind (List.lookup · names)
    | .object [] => if p.held then key.bind (List.lookup · names) else none
    | _ => none
  | _, _ => none

/-- The name of a variant. Once held, the number of the variant will do. -/
def variant (names : List String) : Reader String
  | _, .string s => s.filter names.contains
  | p, .number n => if p.held then n.toInt?.bind fun i => if i < 0 then none else names[i.toNat]?
    else none
  | _, _ => none

/-- A value with a variant: an object that names it under the key `tag`, or an array that begins
with it. Gives the variant and the rest of the value, which is held. -/
def taggedBy (tag : String) (names : List String) : Reader (String × Place × Json) := fun p v => do
  let held ← p.hold v
  match v with
  | .array (name :: rest) => return (← variant names p name, held, .array rest)
  | .object members =>
    match members.filter fun m => m.1 == some tag with
    | [(_, name)] =>
      return (← variant names p name, held, .object (members.filter fun m => m.1 != some tag))
    | _ => none
  | _ => none

/-- A value with a variant under the key `type`. -/
def tagged (names : List String) : Reader (String × Place × Json) := taggedBy "type" names

/-- The rest of a variant without fields. -/
def noFields : Reader Unit
  | _, .object _ => some ()
  | _, .array [] => some ()
  | _, _ => none

end Reader

end SolidTrace.Json
