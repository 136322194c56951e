import SolidTrace.Document.Reader
import SolidTrace.Json.Text
import SolidTrace.Memory.Allocator
import SolidTrace.Options
import SolidTrace.Toml.Text

/-!
Settings of an engine.

Settings are read from TOML or JSON, where every one of them may be left out, and written as TOML.
-/

namespace SolidTrace

/-- Where compiled scenes are kept. -/
inductive AllocatorSettings
  | heap (budget : Option Nat)
  | region (capacity : Nat)
deriving DecidableEq, Repr

structure Settings where
  /-- The number of workers; zero leaves it to the machine. -/
  threads : Nat
  /-- Whether all slices run on one thread. -/
  singleThread : Bool
  /-- The word of the SIMD configuration asked for. -/
  simd : UInt32
  /-- The antialiasing level asked for. -/
  fsaa : UInt32
  options : Options
  /-- The height of a band of rows. -/
  tileHeight : Nat
  allocator : AllocatorSettings
deriving DecidableEq, Repr

namespace AllocatorSettings

/-- An allocator of this kind with nothing in it. -/
def toAllocator : AllocatorSettings → Allocator
  | heap budget => .heap (Heap.ofBudget budget)
  | region capacity => .region (Region.ofCapacity Region.defaultBase capacity)

end AllocatorSettings

namespace Settings

def default : Settings := ⟨0, false, 0, 0, Options.none, 8, .heap none⟩

/-! ### Reading -/

open Json (Reader)
open Json.Reader

/-- Sizes and counts have 64 bits. -/
def size : Reader Nat := natural (Nat.pow 2 64)

def readAllocator : Reader AllocatorSettings := fun p v => do
  let (name, p, v) ← taggedBy "kind" ["heap", "region"] p v
  match name with
  | "heap" => return .heap (← (← fields ["budget"] p v).withDefault "budget" (optional size) none)
  | _ => return .region (← (← fields ["capacity"] p v).required "capacity" size)

def read : Reader Settings := fun p v => do
  let f ← fields ["threads", "static_mode", "simd", "fsaa", "opts", "tile_height", "allocator"] p v
  let threads ← f.withDefault "threads" size default.threads
  let singleThread ← f.withDefault "static_mode" boolean default.singleThread
  let simd ← f.withDefault "simd" word default.simd
  let fsaa ← f.withDefault "fsaa" word default.fsaa
  let options ← f.withDefault "opts" (map Options.mk word) default.options
  let tileHeight ← f.withDefault "tile_height" size default.tileHeight
  let allocator ← f.withDefault "allocator" readAllocator default.allocator
  return { threads, singleThread, simd, fsaa, options, tileHeight, allocator }

def ofJson? (text : String) : Option Settings := (Json.parse? text).bind (read .outermost)

def ofToml? (text : String) : Option Settings :=
  (Toml.parse? text).bind fun t => read .outermost (Toml.Value.table .header t).toJson

/-! ### Writing -/

/-- A line with a number; TOML has no integers from `2 ^ 63` on. -/
def numberLine? (key : String) (n : Nat) : Option String :=
  if n < Nat.pow 2 63 then some s!"{key} = {n}\n" else none

def allocatorLines? : AllocatorSettings → Option String
  | .heap none => some "kind = \"heap\"\n"
  | .heap (some budget) => do return "kind = \"heap\"\n" ++ (← numberLine? "budget" budget)
  | .region capacity => do return "kind = \"region\"\n" ++ (← numberLine? "capacity" capacity)

def toToml? (s : Settings) : Option String := do
  let lines := [← numberLine? "threads" s.threads,
    "static_mode = " ++ (if s.singleThread then "true" else "false") ++ "\n",
    ← numberLine? "simd" s.simd.toNat, ← numberLine? "fsaa" s.fsaa.toNat,
    ← numberLine? "opts" s.options.bits.toNat, ← numberLine? "tile_height" s.tileHeight,
    "\n[allocator]\n", ← allocatorLines? s.allocator]
  return String.join lines

end Settings

end SolidTrace
