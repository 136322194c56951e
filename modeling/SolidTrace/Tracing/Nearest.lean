import SolidTrace.Options
import SolidTrace.Tracing.View

/-!
The nearest surface that a ray meets.

The arrays still to be searched lie on a stack. An array whose bounding box the ray misses, or
enters only behind the nearest hit so far, is passed over, but for the elements that do not count
for the box. Of each surface the first candidate that survives its trims is taken.
-/

namespace SolidTrace

/-- Rays through one scene at one time. -/
structure Tracer (S : Type) where
  arena : Arena S
  snapshot : Snapshot S
  options : Options

/-- A search under way. -/
structure Search (S : Type) where
  /-- The arrays to be searched, the next one first. -/
  stack : List Nat
  best : Option (Hit S)

namespace Search

variable {S : Type}

/-- Hits from here on are of no interest. -/
def limit (s : Search S) (tMax : S) : S := s.best.elim tMax Hit.t

end Search

namespace Tracer

variable {S : Type} [Scalar S]

/-- Whether a point lies inside a surface; a surface that has no place has no inside. -/
def insideSurface (t : Tracer S) (point : Vec S) (surface : Nat) : Except Fault Bool := do
  let pose ← fetch t.snapshot.poses surface
  return pose.any (·.inside point)

/-- Whether no surface of a list but the owner has the point inside. -/
def clearOf (t : Tracer S) (owner : Nat) (point : Vec S) : List Nat → Except Fault Bool
  | [] => .ok true
  | s :: rest => do
    if s != owner && (← t.insideSurface point s) then return false
    t.clearOf owner point rest

/-- Whether a point of a surface survives a trim. -/
def trimKeeps (t : Tracer S) (owner : Nat) (point : Vec S) : Trim Nat Nat → Except Fault Bool
  | .outer s => (t.insideSurface point s).map (!·)
  | .inner s => t.insideSurface point s
  | .accum a => do t.clearOf owner point (← fetch t.arena.arrays a).accumulator

/-- Whether a point of a surface survives all of a list of trims. -/
def trimsKeep (t : Tracer S) (owner : Nat) (point : Vec S) :
    List (Trim Nat Nat) → Except Fault Bool
  | [] => .ok true
  | trim :: rest => do
    if ← t.trimKeeps owner point trim then t.trimsKeep owner point rest else return false

/-- The first of a list of candidates that survives. -/
def firstKept (t : Tracer S) (ray : Ray S) (surface : Nat) (trims : List (Trim Nat Nat)) :
    List (S × Vec S) → Except Fault (Option (S × Vec S))
  | [] => .ok none
  | c :: rest => do
    if ← t.trimsKeep surface (ray.pointAt c.1) trims then return some c
    t.firstKept ray surface trims rest

/-- The nearest hit on one surface below a limit. -/
def hitSurface (t : Tracer S) (ray : Ray S) (limit : S) (surface : Nat) :
    Except Fault (Option (Hit S)) := do
  match ← fetch t.snapshot.poses surface with
  | none => return none
  | some pose =>
    let node ← fetch t.arena.surfaces surface
    let kept ← t.firstKept ray surface node.trims (pose.candidates ray limit)
    return kept.map fun (p, place) => pose.hit ray p place surface

/-- Whether an array is passed over, given the limit for hits. -/
def culled (t : Tracer S) (ray : Ray S) (limit : S) (array : Nat) (node : ArrayNode S) :
    Except Fault Bool :=
  if t.options.contains Options.noCulling || !node.bounded then .ok false
  else do
    match ray.meet? (← fetch t.snapshot.arrayBounds array) with
    | none => return true
    | some (enter, _) => return decide (limit ≤ enter)

/-- Searches one element of an array. -/
def element (t : Tracer S) (ray : Ray S) (tMax : S) (s : Search S) :
    Element → Except Fault (Search S)
  | .surface id => do
    match ← t.hitSurface ray (s.limit tMax) id with
    | none => return s
    | some hit => return { s with best := some hit }
  | .array id => .ok { s with stack := id :: s.stack }
  | .camera _ | .light _ => .ok s

/-- Searches the elements of an array; of one that is passed over, only those that do not count for
its box. -/
def elements (t : Tracer S) (ray : Ray S) (tMax : S) (node : ArrayNode S) (culled : Bool)
    (s : Search S) : Except Fault (Search S) :=
  node.elements.zipIdx.foldlM (fun s (e, position) => do
    let skip ← if culled then node.counts position else pure false
    if skip then return s else t.element ray tMax s e) s

/-- Searches the next array of the stack. -/
def step (t : Tracer S) (ray : Ray S) (tMax : S) (s : Search S) : Except Fault (Search S) :=
  match s.stack with
  | [] => .ok s
  | a :: rest => do
    let node ← fetch t.arena.arrays a
    let culled ← t.culled ray (s.limit tMax) a node
    t.elements ray tMax node culled { s with stack := rest }

/-- Searches at most `count` arrays. -/
def run (t : Tracer S) (ray : Ray S) (tMax : S) : (count : Nat) → Search S →
    Except Fault (Search S)
  | 0, s => .ok s
  | count + 1, s =>
    if s.stack.isEmpty then .ok s
    else do t.run ray tMax count (← t.step ray tMax s)

/-- The nearest hit with a parameter below `tMax`. No array stands in two places, so that each comes
up at most once. -/
def nearest (t : Tracer S) (ray : Ray S) (tMax : S) : Except Fault (Option (Hit S)) := do
  let s ← t.run ray tMax t.arena.arrays.size ⟨[Arena.root], none⟩
  return s.best

end Tracer

end SolidTrace
