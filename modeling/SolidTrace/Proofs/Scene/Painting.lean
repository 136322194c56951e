import Mathlib.Data.List.Perm.Basic
import SolidTrace.Proofs.Scene.Crew
import SolidTrace.Proofs.Scene.Rows
import SolidTrace.Proofs.Work.Share

/-!
Workers that render.

The stores made so far, those in hand and those of the rows to come are together always the stores
of all rows, whichever worker goes on: `Crew.Draws`. When all workers are through, they have made
the stores of every row of the frame in some order. Rows do not overlap, so that the order is of no
account.
-/

namespace SolidTrace

open scoped List

variable {S : Type}

def Task.row? : Task → Option ℕ
  | .draw y => some y
  | _ => none

/-- The stores that a worker has still to make, by the plan of each row. -/
def Worker.due (plan : ℕ → List Store) (w : Worker S) : List Store :=
  w.pending.flatMap Write.stores ++ (w.tasks.filterMap Task.row?).flatMap plan

/-- A worker draws rows and nothing else. -/
structure Worker.Draws (w : Worker S) : Prop where
  pending : ∀ p ∈ w.pending, ∃ l, p = .pixels l
  tasks : ∀ t ∈ w.tasks, ∃ y, t = .draw y

/-- Workers draw rows into the frame of a state. -/
structure Crew.Draws [Scalar S] (s : SceneState S) (rows : List ℕ) (c : Crew S) : Prop where
  state : c.state = { s with frame := s.frame.storeAll c.stores }
  workers : ∀ w ∈ c.workers, w.Draws
  shared : (c.stores ++ c.workers.flatMap (Worker.due s.rowPlan)).Perm (rows.flatMap s.rowPlan)
  drawn : ∀ y ∈ rows, s.Drawable y ∨ .draw y ∈ c.workers.flatMap Worker.tasks

/-- An entry gives away the beginning of what is made of it. -/
lemma flatMap_set_perm {α β : Type} {l : List α} {i : ℕ} {a b : α} (h : l[i]? = some a)
    {f : α → List β} {u : List β} (hf : f a = u ++ f b) :
    (u ++ (l.set i b).flatMap f).Perm (l.flatMap f) := by
  induction l generalizing i with
  | nil => cases h
  | cons x l ih =>
    cases i with
    | zero =>
      obtain rfl : x = a := Option.some.inj h
      rw [List.set_cons_zero, List.flatMap_cons, List.flatMap_cons, hf, List.append_assoc]
    | succ i =>
      rw [List.set_cons_succ, List.flatMap_cons, List.flatMap_cons]
      calc u ++ (f x ++ (l.set i b).flatMap f)
          ~ f x ++ (u ++ (l.set i b).flatMap f) := List.perm_append_comm_assoc ..
        _ ~ f x ++ l.flatMap f := (ih h).append_left _

lemma forall_mem_set {α : Type} {P : α → Prop} {l : List α} (h : ∀ a ∈ l, P a) {i : ℕ} {b : α}
    (hb : P b) : ∀ a ∈ l.set i b, P a := by
  intro a ha
  rcases List.mem_or_eq_of_mem_set ha with ha | rfl
  · exact h a ha
  · exact hb

namespace Crew

variable [Scalar S] {s : SceneState S} {rows : List ℕ} {c c' : Crew S} {i : ℕ}

/-- A worker is replaced by one that has the same stores to come, but for those that it gives
away. -/
lemma Draws.shared_set (h : c.Draws s rows) {w v : Worker S} (hw : c.workers[i]? = some w)
    {u : List Store} (hdue : w.due s.rowPlan = u ++ v.due s.rowPlan) :
    ((c.stores ++ u) ++ (c.workers.set i v).flatMap (Worker.due s.rowPlan)).Perm
      (rows.flatMap s.rowPlan) := by
  rw [List.append_assoc]
  exact ((flatMap_set_perm hw hdue).append_left _).trans h.shared

lemma Draws.drawn_set (h : c.Draws s rows) {w v : Worker S} (hw : c.workers[i]? = some w)
    {u : List Task} (htasks : w.tasks = u ++ v.tasks) (hu : ∀ y, .draw y ∈ u → s.Drawable y) :
    ∀ y ∈ rows, s.Drawable y ∨ .draw y ∈ (c.workers.set i v).flatMap Worker.tasks := by
  intro y hy
  rcases h.drawn y hy with hdrawn | hopen
  · exact .inl hdrawn
  · have hperm := (flatMap_set_perm (f := Worker.tasks) hw htasks).mem_iff.mpr hopen
    rcases List.mem_append.mp hperm with hyu | hyv
    · exact .inl (hu y hyu)
    · exact .inr hyv

lemma Draws.write (h : c.Draws s rows) {w : Write S} {pending : List (Write S)} {tasks : List Task}
    (hw : c.workers[i]? = some ⟨w :: pending, tasks, none⟩) :
    Draws s rows
      ⟨c.state.apply w, c.workers.set i ⟨pending, tasks, none⟩, c.written ++ [w]⟩ := by
  obtain ⟨hpending, htasks⟩ := h.workers _ (List.mem_of_getElem? hw)
  obtain ⟨l, rfl⟩ := hpending w List.mem_cons_self
  have hstores : (c.written ++ [Write.pixels l]).flatMap Write.stores = c.stores ++ l := by
    rw [List.flatMap_append, List.flatMap_singleton]
    rfl
  refine ⟨?_, ?_, ?_, ?_⟩
  · dsimp only [stores]
    rw [hstores, Frame.storeAll_append, h.state]
    rfl
  · exact forall_mem_set h.workers ⟨fun p hp => hpending p (List.mem_cons_of_mem _ hp), htasks⟩
  · dsimp only [stores]
    rw [hstores]
    exact h.shared_set hw (List.append_assoc l _ _)
  · exact h.drawn_set hw (List.nil_append _).symm fun y hy => absurd hy List.not_mem_nil

lemma Draws.take (h : c.Draws s rows) {t : Task} {tasks : List Task} {w : Write S}
    (hw : c.workers[i]? = some ⟨[], t :: tasks, none⟩) (hresult : c.state.result t = .ok w) :
    Draws s rows { c with workers := c.workers.set i ⟨w.parts, tasks, none⟩ } := by
  obtain ⟨-, htasks⟩ := h.workers _ (List.mem_of_getElem? hw)
  obtain ⟨y, rfl⟩ := htasks t List.mem_cons_self
  have hdraw : s.draw y = .ok w := by
    have hstate := mapError_eq_ok.mp hresult
    rwa [h.state, SceneState.draw_storeAll] at hstate
  obtain ⟨hdrawable, rfl⟩ := SceneState.draw_ok hdraw
  have hdue : Worker.due (S := S) s.rowPlan ⟨[], .draw y :: tasks, none⟩ =
      [] ++ Worker.due (S := S) s.rowPlan
        ⟨(Write.pixels (s.rowPlan y)).parts, tasks, none⟩ := by
    unfold Worker.due
    rw [Write.flatMap_parts]
    rfl
  refine ⟨h.state, forall_mem_set h.workers ⟨fun p hp => ?_, fun t ht => ?_⟩, ?_, ?_⟩
  · obtain ⟨r, -, rfl⟩ := List.mem_map.mp hp
    exact ⟨_, rfl⟩
  · exact htasks t (List.mem_cons_of_mem _ ht)
  · have hshared := h.shared_set hw hdue
    rwa [List.append_nil] at hshared
  · refine h.drawn_set hw (u := [.draw y]) rfl fun z hz => ?_
    obtain rfl : z = y := Task.draw.inj (List.mem_singleton.mp hz)
    exact hdrawable

lemma Draws.fail (h : c.Draws s rows) {t : Task} {tasks : List Task} (e : SliceError)
    (hw : c.workers[i]? = some ⟨[], t :: tasks, none⟩) :
    Draws s rows { c with workers := c.workers.set i ⟨[], t :: tasks, some e⟩ } := by
  have hworker : Worker.Draws (S := S) ⟨[], t :: tasks, some e⟩ :=
    ⟨fun p hp => absurd hp List.not_mem_nil, (h.workers _ (List.mem_of_getElem? hw)).tasks⟩
  refine ⟨h.state, forall_mem_set h.workers hworker, ?_, ?_⟩
  · have hshared := h.shared_set hw (v := ⟨[], t :: tasks, some e⟩) (List.nil_append _).symm
    rwa [List.append_nil] at hshared
  · exact h.drawn_set hw (v := ⟨[], t :: tasks, some e⟩) (List.nil_append _).symm
      fun y hy => absurd hy List.not_mem_nil

/-- **A step goes on with the drawing.** -/
lemma Draws.step (h : c.Draws s rows) (hmoves : c.Moves i c') : c'.Draws s rows := by
  cases hmoves with
  | stay => exact h
  | write hw => exact h.write hw
  | take hw hresult => exact h.take hw hresult
  | fail hw => exact h.fail _ hw

lemma draws_start (s : SceneState S) {count : ℕ}
    (hcamera : s.camera < s.snapshot.cameras.size) :
    (start s (Command.render 0) count).Draws s
      ((List.range count).flatMap fun i => sliceRows i count s.spec.height s.spec.tileHeight) := by
  have hworkers : (start s (Command.render 0) count).workers = (List.range count).map fun i =>
      ⟨[], (sliceRows i count s.spec.height s.spec.tileHeight).map .draw, none⟩ := by
    unfold start
    refine List.map_congr_left fun i _ => ?_
    simp only [Worker.start, SceneState.tasks, Command.render, if_pos hcamera, sliceRows]
  have hrows : ∀ l : List ℕ, (l.map Task.draw).filterMap Task.row? = l := by
    intro l
    rw [List.filterMap_map]
    exact List.filterMap_some
  refine ⟨rfl, ?_, ?_, ?_⟩
  · rw [hworkers]
    intro w hw
    obtain ⟨i, -, rfl⟩ := List.mem_map.mp hw
    refine ⟨fun p hp => absurd hp List.not_mem_nil, fun t ht => ?_⟩
    obtain ⟨y, -, rfl⟩ := List.mem_map.mp ht
    exact ⟨y, rfl⟩
  · rw [hworkers, List.flatMap_map, List.flatMap_assoc]
    simp only [Worker.due, hrows, List.flatMap_nil, List.nil_append]
    exact .refl _
  · intro y hy
    rw [hworkers, List.flatMap_map]
    obtain ⟨i, hi, hy⟩ := List.mem_flatMap.mp hy
    exact .inr (List.mem_flatMap.mpr ⟨i, hi, List.mem_map_of_mem hy⟩)

lemma not_done_of_no_camera (s : SceneState S) {count : ℕ} (hcount : 0 < count)
    (hcamera : ¬ s.camera < s.snapshot.cameras.size) (schedule : List ℕ) :
    ¬ ((start s (Command.render 0) count).run schedule).Done := by
  have hworkers : ∀ w ∈ (start s (Command.render 0) count).workers, w.failure ≠ none := by
    intro w hw
    obtain ⟨i, -, rfl⟩ := List.mem_map.mp hw
    simp [Worker.start, SceneState.tasks, Command.render, if_neg hcamera]
  intro hdone
  rw [run_of_failed hworkers] at hdone
  have hmem : Worker.start s (Command.render 0) count 0 ∈
      (start s (Command.render 0) count).workers :=
    List.mem_map_of_mem (List.mem_range.mpr hcount)
  exact hworkers _ hmem (congrArg Worker.failure (hdone _ hmem))

/-- **Workers that are through have made the stores of all rows, in some order.** -/
lemma stores_perm {s : SceneState S} {count : ℕ} (hcount : 0 < count) {schedule : List ℕ}
    {c : Crew S} (hc : (start s (Command.render 0) count).run schedule = c) (hdone : c.Done) :
    c.state = { s with frame := s.frame.storeAll c.stores } ∧
      c.stores.Perm ((List.range s.spec.height).flatMap s.rowPlan) ∧
      ∀ y < s.spec.height, s.Drawable y := by
  have hcamera : s.camera < s.snapshot.cameras.size := by
    by_contra h
    exact not_done_of_no_camera s hcount h schedule (hc ▸ hdone)
  have hdraws : c.Draws s _ :=
    hc ▸ run_keeps (fun _ _ _ => Draws.step) (draws_start s hcamera) schedule
  have hrows : ((List.range count).flatMap fun i =>
      sliceRows i count s.spec.height s.spec.tileHeight).Perm (List.range s.spec.height) :=
    sliceRows_perm hcount
  have hdue : c.workers.flatMap (Worker.due s.rowPlan) = [] := by
    rw [List.flatMap_eq_nil_iff]
    intro w hw
    rw [hdone w hw]
    rfl
  have htasks : c.workers.flatMap Worker.tasks = [] := by
    rw [List.flatMap_eq_nil_iff]
    intro w hw
    rw [hdone w hw]
    rfl
  -- nothing is due and no task is left, so the stores are those of all rows
  refine ⟨hdraws.state, ?_, fun y hy => ?_⟩
  · have hshared := hdraws.shared
    rw [hdue, List.append_nil] at hshared
    calc c.stores
        ~ ((List.range count).flatMap fun i =>
            sliceRows i count s.spec.height s.spec.tileHeight).flatMap s.rowPlan := hshared
      _ ~ (List.range s.spec.height).flatMap s.rowPlan := hrows.flatMap_right _
  · rcases hdraws.drawn y (hrows.mem_iff.mpr (List.mem_range.mpr hy)) with h | h
    · exact h
    · rw [htasks] at h
      exact absurd h List.not_mem_nil

end Crew

end SolidTrace
