import SolidTrace.Document.Basic
import SolidTrace.Surface.Trim

/-!
Relation programs.

The program of an array sees only the positions of its elements. It runs step by step and tells for
each position what is cut away there, which positions the array collects, and what the volume of the
array takes in.
-/

namespace SolidTrace.Program

/-- What stands at a position of an array. -/
inductive Kind
  | surface
  /-- A nested array or a copy of one. -/
  | array
  /-- A camera or a light. -/
  | other
deriving DecidableEq, Repr

def Kind.hasGeometry : Kind → Bool
  | other => false
  | _ => true

/-- A trim that names surfaces by position and means the array itself. -/
abbrev LocalTrim := Trim Nat Unit

structure Outcome where
  /-- The trims of each position, in the order of the program. -/
  trims : List (List LocalTrim)
  /-- The positions collected, in the order in which they first came up. -/
  accumulator : List Nat
  /-- Whether the array may be passed over when its volume is missed. -/
  bounded : Bool
  /-- Whether each position counts for the volume of the array. -/
  included : List Bool
deriving DecidableEq, Repr

inductive Role
  | target | operand
deriving DecidableEq, Repr

def Role.name : Role → String
  | target => "target"
  | operand => "operand"

/-- Why a step cannot be applied. -/
inductive Cause
  | outOfRange (role : Role) (position : Int) (count : Nat)
  | noTarget
  | targetWithoutGeometry (position : Nat)
  | operandNotSurface (position : Nat)
  | subtractsItself
  | arrayWide
  | elementWithoutBounds (position : Nat)
deriving DecidableEq, Repr

def Cause.message : Cause → String
  | outOfRange role position count =>
    let name := role.name
    s!"{name} {position} out of range for {count} elements"
  | noTarget => "target -1 used before any INDEX_ARRAY"
  | targetWithoutGeometry position => s!"target {position} has no geometry"
  | operandNotSurface position => s!"operand {position} is not a surface"
  | subtractsItself => "surface subtracts itself"
  | arrayWide => "array-wide opcode needs target -1"
  | elementWithoutBounds position => s!"element {position} has no bounds"

structure State where
  /-- The current target. -/
  cursor : Option Nat
  outcome : Outcome
deriving Repr

def init (kinds : List Kind) : State :=
  ⟨none, ⟨kinds.map fun _ => [], [], false, kinds.map Kind.hasGeometry⟩⟩

section

variable (kinds : List Kind)

/-- The element at a position. -/
def element (role : Role) (position : Int) : Except Cause (Nat × Kind) :=
  let failure := Cause.outOfRange role position kinds.length
  if position < 0 then .error failure
  else
    match kinds[position.toNat]? with
    | none => .error failure
    | some kind => .ok (position.toNat, kind)

/-- The target of a step: the one it names, or for `-1` the current one. -/
def target (cursor : Option Nat) (r : Relation) : Except Cause Nat := do
  let position ←
    if r.target = -1 then
      match cursor with
      | some c => pure (Int.ofNat c)
      | none => throw .noTarget
    else pure r.target
  let (position, kind) ← element kinds .target position
  if kind.hasGeometry then return position else throw (.targetWithoutGeometry position)

def surfaceOperand (r : Relation) : Except Cause Nat := do
  let (position, kind) ← element kinds .operand r.operand
  if kind = .surface then return position else throw (.operandNotSurface position)

/-- The element that a step ties to or unties from the volume. -/
def boundElement (cursor : Option Nat) (r : Relation) : Except Cause Nat := do
  let (position, kind) ←
    if 0 ≤ r.operand then element kinds .operand r.operand
    else do element kinds .target (← target kinds cursor r)
  if kind.hasGeometry then return position else throw (.elementWithoutBounds position)

/-- The operand of a step that need not have one. -/
def optionalOperand (r : Relation) : Except Cause (Option Nat) :=
  if 0 ≤ r.operand then (surfaceOperand kinds r).map some else .ok none

end

namespace Outcome

def addTrim (o : Outcome) (target : Nat) (t : LocalTrim) : Outcome :=
  { o with trims := o.trims.modify target (· ++ [t]) }

/-- Adds a trim where it is not there yet. -/
def addTrimOnce (o : Outcome) (target : Nat) (t : LocalTrim) : Outcome :=
  { o with trims := o.trims.modify target fun l => if t ∈ l then l else l ++ [t] }

def collect (o : Outcome) (operand : Option Nat) : Outcome :=
  match operand with
  | none => o
  | some p =>
    { o with accumulator := if p ∈ o.accumulator then o.accumulator else o.accumulator ++ [p] }

end Outcome

/-- Cuts away one side of the operand from the target. -/
def minus (kinds : List Kind) (s : State) (r : Relation) (trim : Nat → LocalTrim) :
    Except Cause State := do
  let target ← target kinds s.cursor r
  let operand ← surfaceOperand kinds r
  if operand = target then throw .subtractsItself
  return { s with outcome := s.outcome.addTrim target (trim operand) }

def step (kinds : List Kind) (s : State) (r : Relation) : Except Cause State :=
  match r.op with
  | .minusOuter => minus kinds s r .outer
  | .minusInner => minus kinds s r .inner
  | .minusAccum => do
    let target ← target kinds s.cursor r
    let operand ← optionalOperand kinds r
    return { s with outcome := (s.outcome.collect operand).addTrimOnce target (.accum ()) }
  | .indexArray =>
    if 0 ≤ r.operand then do
      let (position, _) ← element kinds .operand r.operand
      return { s with cursor := some position }
    else return { s with cursor := some (s.cursor.elim 0 (· + 1)) }
  | .boundArray => setBounded true
  | .untieArray => setBounded false
  | .boundIndex => setIncluded true
  | .untieIndex => setIncluded false
where
  setBounded (b : Bool) : Except Cause State :=
    if r.target = -1 then .ok { s with outcome := { s.outcome with bounded := b } }
    else .error .arrayWide
  setIncluded (b : Bool) : Except Cause State := do
    let position ← boundElement kinds s.cursor r
    return { s with outcome := { s.outcome with included := s.outcome.included.set position b } }

/-- Runs steps from a state on; a failure comes with the number of its step. -/
def runFrom (kinds : List Kind) (s : State) (index : Nat) :
    List Relation → Except (Nat × Cause) State
  | [] => .ok s
  | r :: rest =>
    match step kinds s r with
    | .error cause => .error (index, cause)
    | .ok s => runFrom kinds s (index + 1) rest

/-- Runs the program of an array whose elements have the given kinds. -/
def run (kinds : List Kind) (relations : List Relation) : Except (Nat × Cause) Outcome :=
  (runFrom kinds (init kinds) 0 relations).map State.outcome

end SolidTrace.Program
