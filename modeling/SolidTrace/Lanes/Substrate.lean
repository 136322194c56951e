import SolidTrace.Lanes.Config

/-!
What the machine can run, and the choice among it.

`negotiate` answers a request with a supported pair. An axis that the request pins is kept or the
request is refused; the refusal names the nearest supported pair.
-/

namespace SolidTrace

/-- Keeps the first of each run of equal neighbours. -/
def dedup {α : Type} [DecidableEq α] : List α → List α
  | [] => []
  | [a] => [a]
  | a :: b :: l => if a = b then dedup (b :: l) else a :: dedup (b :: l)

/-- The supported pairs and antialiasing levels, each in ascending order without repetition. -/
structure Substrate where
  pairs : List LaneConfig
  levels : List Fsaa
deriving Repr

namespace Substrate

/-- The substrate with the given pairs, less those with a zero, and every antialiasing level. -/
def ofPairs (pairs : List LaneConfig) : Substrate :=
  ⟨dedup ((pairs.filter fun c => c.width != 0 && c.variant != 0).mergeSort LaneConfig.le), Fsaa.all⟩

/-- The one pair that every machine offers. -/
def scalar : Substrate := ofPairs [⟨1, 1⟩]

/-- A machine that runs every kernel in both variants. -/
def full : Substrate := ofPairs [⟨1, 1⟩, ⟨1, 2⟩, ⟨2, 1⟩, ⟨2, 2⟩, ⟨4, 1⟩, ⟨4, 2⟩]

/-- Offers only the given antialiasing levels and `off`. -/
def withFsaa (s : Substrate) (levels : List Fsaa) : Substrate :=
  { s with levels := dedup ((levels ++ [Fsaa.off]).mergeSort fun a b => decide (a.level ≤ b.level)) }

def supports (s : Substrate) (c : LaneConfig) : Bool := s.pairs.contains c

def widths (s : Substrate) : List UInt8 := dedup (s.pairs.map (·.width))

def variants (s : Substrate) : List UInt8 :=
  dedup ((s.pairs.map (·.variant)).mergeSort fun a b => decide (a ≤ b))

end Substrate

inductive LaneError
  | unsupported (requested nearest : LaneConfig)
  | noConfiguration
deriving DecidableEq, Repr

namespace LaneError

def message : LaneError → String
  | unsupported requested nearest =>
    s!"requested SIMD configuration {requested.text} is not supported (nearest is {nearest.text})"
  | noConfiguration => "execution substrate reports no supported configuration"

end LaneError

namespace Substrate

def distance (a b : UInt8) : Nat := ((a.toNat : Int) - b.toNat).natAbs

/-- The values by their distance from a target, the smaller one first at equal distance. -/
def byNearness (target : UInt8) (values : List UInt8) : List UInt8 :=
  values.mergeSort fun a b =>
    distance a target < distance b target ||
      distance a target == distance b target && decide (a ≤ b)

/-- The first supported pair of a width with one of the variants. -/
def pairWithWidth? (s : Substrate) (variants : List UInt8) (width : UInt8) : Option LaneConfig :=
  (variants.find? fun v => s.supports ⟨width, v⟩).map (⟨width, ·⟩)

/-- The first supported pair of a variant with one of the widths. -/
def pairWithVariant? (s : Substrate) (widths : List UInt8) (variant : UInt8) : Option LaneConfig :=
  (widths.find? fun w => s.supports ⟨w, variant⟩).map (⟨·, variant⟩)

/-- The pair nearest to a request: the request itself, else with its width, else with its variant,
else by width and then variant. An axis left open starts at the largest value on offer and is never
held. -/
def nearest? (s : Substrate) (request : LaneConfig) : Option LaneConfig := do
  let widest ← s.widths.getLast?
  let richest ← s.variants.getLast?
  let width := if request.width = 0 then widest else request.width
  let variant := if request.variant = 0 then richest else request.variant
  let widths := byNearness width s.widths
  let variants := byNearness variant s.variants
  (if s.supports ⟨width, variant⟩ then some ⟨width, variant⟩ else none)
    <|> (if request.width = 0 then none else s.pairWithWidth? variants width)
    <|> (if request.variant = 0 then none else s.pairWithVariant? widths variant)
    <|> widths.findSome? (s.pairWithWidth? variants)

def negotiate (s : Substrate) (request : LaneConfig) : Except LaneError LaneConfig :=
  match s.nearest? request with
  | none => .error .noConfiguration
  | some nearest =>
    if request.width ≠ 0 ∧ nearest.width ≠ request.width ∨
        request.variant ≠ 0 ∧ nearest.variant ≠ request.variant then
      .error (.unsupported request nearest)
    else .ok nearest

/-- The highest level on offer that is not above the request, else the lowest one above it. -/
def negotiateFsaa (s : Substrate) (requested : Nat) : Fsaa :=
  let want := Fsaa.ofLevel requested
  (s.levels.reverse.find? fun l => l.level ≤ want.level)
    <|> (s.levels.find? fun l => want.level < l.level)
    |>.getD .off

end Substrate

end SolidTrace
