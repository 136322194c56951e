import Mathlib.Data.List.Basic
import SolidTrace.Scene.Task

/-!
Workers on a command, step by step.

All slices of a command are under way at once. `Crew.step` lets one worker make a single write, or
take up its next task; a row of pixels is stored word by word, so that the words of several rows
reach the frame in any order. A schedule is the list of the workers in the order of their steps.
What a task is to write comes from the state in which it is taken up: rendering reads nothing that
it writes.
-/

namespace SolidTrace

variable {S : Type}

namespace Write

/-- The single writes of a write: pixels are stored one by one. -/
def parts : Write S → List (Write S)
  | .pixels l => l.map fun s => .pixels [s]
  | w => [w]

/-- What a write stores in the frame. -/
def stores : Write S → List Store
  | .pixels l => l
  | _ => []

lemma flatMap_parts (w : Write S) : w.parts.flatMap stores = w.stores := by
  cases w with
  | nothing => rfl
  | object id o => rfl
  | pose surface p => rfl
  | pixels l =>
    rw [parts, List.flatMap_map]
    exact List.flatMap_singleton' l

end Write

/-- A worker on its slice of a command. -/
structure Worker (S : Type) where
  /-- The writes of the task in hand. -/
  pending : List (Write S)
  tasks : List Task
  failure : Option SliceError

namespace Worker

/-- A worker that is through without a failure. -/
def idle : Worker S := ⟨[], [], none⟩

def isIdle (w : Worker S) : Bool := w.pending.isEmpty && w.tasks.isEmpty && w.failure.isNone

lemma isIdle_iff {w : Worker S} : w.isIdle = true ↔ w = idle := by
  obtain ⟨pending, tasks, failure⟩ := w
  simp [isIdle, idle, and_assoc]

def start [Scalar S] (s : SceneState S) (c : Command) (count index : ℕ) : Worker S :=
  match s.tasks c index count with
  | .ok tasks => ⟨[], tasks, none⟩
  | .error e => ⟨[], [], some e⟩

end Worker

/-- The workers on a command, and the writes that they have made. -/
structure Crew (S : Type) where
  state : SceneState S
  workers : List (Worker S)
  written : List (Write S)

namespace Crew

/-- All workers are through without a failure. -/
def Done (c : Crew S) : Prop := ∀ w ∈ c.workers, w = Worker.idle

instance (c : Crew S) : Decidable c.Done :=
  decidable_of_iff (∀ w ∈ c.workers, w.isIdle = true)
    (forall₂_congr fun _ _ => Worker.isIdle_iff)

/-- The stores made so far, in their order. -/
def stores (c : Crew S) : List Store := c.written.flatMap Write.stores

variable [Scalar S]

/-- One worker makes a write or takes up a task. A worker whose task fails stops before it. -/
def step (c : Crew S) (i : ℕ) : Crew S :=
  match c.workers[i]? with
  | some ⟨w :: pending, tasks, none⟩ =>
    ⟨c.state.apply w, c.workers.set i ⟨pending, tasks, none⟩, c.written ++ [w]⟩
  | some ⟨[], t :: tasks, none⟩ =>
    match c.state.result t with
    | .ok w => { c with workers := c.workers.set i ⟨w.parts, tasks, none⟩ }
    | .error e => { c with workers := c.workers.set i ⟨[], t :: tasks, some e⟩ }
  | _ => c

/-- The workers go on in the order of a schedule. -/
def run (c : Crew S) (schedule : List ℕ) : Crew S := schedule.foldl step c

def start (s : SceneState S) (c : Command) (count : ℕ) : Crew S :=
  ⟨s, (List.range count).map (Worker.start s c count), []⟩

/-- What one step of a worker can do. -/
inductive Moves (c : Crew S) (i : ℕ) : Crew S → Prop
  | stay : Moves c i c
  | write {w : Write S} {pending : List (Write S)} {tasks : List Task}
      (h : c.workers[i]? = some ⟨w :: pending, tasks, none⟩) :
      Moves c i ⟨c.state.apply w, c.workers.set i ⟨pending, tasks, none⟩, c.written ++ [w]⟩
  | take {t : Task} {tasks : List Task} {w : Write S}
      (h : c.workers[i]? = some ⟨[], t :: tasks, none⟩) (hw : c.state.result t = .ok w) :
      Moves c i { c with workers := c.workers.set i ⟨w.parts, tasks, none⟩ }
  | fail {t : Task} {tasks : List Task} {e : SliceError}
      (h : c.workers[i]? = some ⟨[], t :: tasks, none⟩) (he : c.state.result t = .error e) :
      Moves c i { c with workers := c.workers.set i ⟨[], t :: tasks, some e⟩ }

lemma step_moves (c : Crew S) (i : ℕ) : c.Moves i (c.step i) := by
  unfold step
  split
  · next h => exact .write h
  · next h =>
    split
    · next hw => exact .take h hw
    · next he => exact .fail h he
  · exact .stay

lemma run_keeps {P : Crew S → Prop} (hstep : ∀ c i c', P c → c.Moves i c' → P c') {c : Crew S}
    (hc : P c) (schedule : List ℕ) : P (c.run schedule) := by
  induction schedule generalizing c with
  | nil => exact hc
  | cons i schedule ih => exact ih (hstep c i _ hc (c.step_moves i))

lemma run_append (c : Crew S) (l m : List ℕ) : c.run (l ++ m) = (c.run l).run m :=
  List.foldl_append

lemma run_cons (c : Crew S) (i : ℕ) (l : List ℕ) : c.run (i :: l) = (c.step i).run l := rfl

lemma step_of_pending {c : Crew S} {i : ℕ} {w : Write S} {pending : List (Write S)}
    {tasks : List Task} (h : c.workers[i]? = some ⟨w :: pending, tasks, none⟩) :
    c.step i =
      ⟨c.state.apply w, c.workers.set i ⟨pending, tasks, none⟩, c.written ++ [w]⟩ := by
  unfold step
  rw [h]

lemma step_of_task {c : Crew S} {i : ℕ} {t : Task} {tasks : List Task} {w : Write S}
    (h : c.workers[i]? = some ⟨[], t :: tasks, none⟩) (hw : c.state.result t = .ok w) :
    c.step i = { c with workers := c.workers.set i ⟨w.parts, tasks, none⟩ } := by
  unfold step
  rw [h]
  simp only [hw]

lemma run_of_failed {c : Crew S} (h : ∀ w ∈ c.workers, w.failure ≠ none) (schedule : List ℕ) :
    c.run schedule = c := by
  induction schedule with
  | nil => rfl
  | cons i schedule ih =>
    have hstay : c.step i = c := by
      have hmoves := c.step_moves i
      generalize c.step i = c' at hmoves ⊢
      cases hmoves with
      | stay => rfl
      | write hw => exact absurd rfl (h _ (List.mem_of_getElem? hw))
      | take hw => exact absurd rfl (h _ (List.mem_of_getElem? hw))
      | fail hw => exact absurd rfl (h _ (List.mem_of_getElem? hw))
    rw [run_cons, hstay, ih]

end Crew

end SolidTrace
