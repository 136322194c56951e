import SolidTrace.Proofs.Scene.Painting
import SolidTrace.Proofs.Scene.Settled

/-!
Workers on items that have nothing to do with each other.

In a phase that goes by a `Plan`, what the task of an item writes is settled when the phase begins,
whichever items are written before it. The items that are written, those in hand and those to come
are together always all items. Workers of any number who go on in any order therefore never fail,
and they end with the same state; the slices of a pool are one such order.
-/

namespace SolidTrace

open scoped List

variable {S : Type}

namespace SceneState

def applyAll (s : SceneState S) (l : List (Write S)) : SceneState S := l.foldl apply s

lemma applyAll_append (s : SceneState S) (l m : List (Write S)) :
    s.applyAll (l ++ m) = (s.applyAll l).applyAll m := List.foldl_append

/-- Every item has its write from the beginning on: whichever other items are written first, its
task comes to write just that. When all items are written, in any order, the state is the last
one. -/
structure Plan [Scalar S] (s : SceneState S) (task : ℕ → Task) (total : ℕ) (write : ℕ → Write S)
    (last : SceneState S) : Prop where
  whole : ∀ k < total, (write k).parts = [write k]
  result : ∀ (done : List ℕ) (k : ℕ), (∀ j ∈ done, j < total) → k < total → k ∉ done →
    (s.applyAll (done.map write)).result (task k) = .ok (write k)
  final : ∀ done : List ℕ, done ~ List.range total → s.applyAll (done.map write) = last

end SceneState

/-! ### Crews on a plan -/

/-- A worker's items: those in hand, and those to come. -/
structure Load where
  hand : List ℕ
  rest : List ℕ

namespace Load

def items (x : Load) : List ℕ := x.hand ++ x.rest

def worker (task : ℕ → Task) (write : ℕ → Write S) (x : Load) : Worker S :=
  ⟨x.hand.map write, x.rest.map task, none⟩

end Load

/-- A worker who cannot go on. -/
def Worker.Stopped (w : Worker S) : Prop := w.failure ≠ none ∨ w.pending = [] ∧ w.tasks = []

namespace Crew

/-- No worker can go on. -/
def Over (c : Crew S) : Prop := ∀ w ∈ c.workers, w.Stopped

/-- What the workers who can go on have still to take up. -/
def openTasks (c : Crew S) : List Task :=
  c.workers.flatMap fun w => if w.failure = none then w.tasks else []

/-- What they have in hand. -/
def openWrites (c : Crew S) : List (Write S) :=
  c.workers.flatMap fun w => if w.failure = none then w.pending else []

/-- The items `done` have been written, and each of the others is in the load of one worker. -/
structure OnPlan (s : SceneState S) (task : ℕ → Task) (total : ℕ) (write : ℕ → Write S)
    (done : List ℕ) (loads : List Load) (c : Crew S) : Prop where
  state : c.state = s.applyAll (done.map write)
  workers : c.workers = loads.map (Load.worker task write)
  shared : done ++ loads.flatMap Load.items ~ List.range total

variable {s last : SceneState S} {task : ℕ → Task} {total : ℕ} {write : ℕ → Write S}
  {done : List ℕ} {loads : List Load} {c c' : Crew S} {i : ℕ}

lemma OnPlan.exists_load (h : c.OnPlan s task total write done loads) {w : Worker S}
    (hw : c.workers[i]? = some w) : ∃ x, loads[i]? = some x ∧ x.worker task write = w := by
  rw [h.workers, List.getElem?_map, Option.map_eq_some_iff] at hw
  exact hw

lemma OnPlan.shared_set (h : c.OnPlan s task total write done loads) {x y : Load}
    (hx : loads[i]? = some x) {u : List ℕ} (hitems : x.items = u ++ y.items) :
    (done ++ u) ++ (loads.set i y).flatMap Load.items ~ List.range total := by
  rw [List.append_assoc]
  exact ((flatMap_set_perm hx hitems).append_left _).trans h.shared

lemma OnPlan.lt_total (h : c.OnPlan s task total write done loads) {k : ℕ}
    (hk : k ∈ done ++ loads.flatMap Load.items) : k < total :=
  List.mem_range.mp (h.shared.mem_iff.mp hk)

/-- Items that a worker has still to write are none of those that are written. -/
lemma OnPlan.open_item (h : c.OnPlan s task total write done loads) {x : Load}
    (hx : x ∈ loads) {k : ℕ} (hk : k ∈ x.items) :
    (∀ j ∈ done, j < total) ∧ k < total ∧ k ∉ done := by
  have hmem : k ∈ loads.flatMap Load.items := List.mem_flatMap.mpr ⟨x, hx, hk⟩
  have hnodup := h.shared.nodup_iff.mpr List.nodup_range
  refine ⟨fun j hj => h.lt_total (List.mem_append_left _ hj),
    h.lt_total (List.mem_append_right _ hmem), fun hdone => ?_⟩
  exact List.disjoint_of_nodup_append hnodup hdone hmem

lemma OnPlan.after_write (h : c.OnPlan s task total write done loads) {w : Write S}
    {pending : List (Write S)} {tasks : List Task}
    (hw : c.workers[i]? = some ⟨w :: pending, tasks, none⟩) :
    ∃ done' loads', OnPlan s task total write done' loads'
      ⟨c.state.apply w, c.workers.set i ⟨pending, tasks, none⟩, c.written ++ [w]⟩ := by
  obtain ⟨⟨hand, rest⟩, hx, hworker⟩ := h.exists_load hw
  obtain ⟨hpending, rfl, -⟩ := Worker.mk.inj hworker
  obtain ⟨k, hand, rfl, rfl, rfl⟩ := List.map_eq_cons_iff.mp hpending
  refine ⟨done ++ [k], loads.set i ⟨hand, rest⟩, ?_, ?_, h.shared_set hx rfl⟩
  · rw [List.map_append, SceneState.applyAll_append, ← h.state]
    rfl
  · rw [h.workers, List.map_set]
    rfl

variable [Scalar S]

/-- The next task of a worker with nothing in hand is that of an item, and comes to write as
planned. -/
lemma OnPlan.exists_next (hplan : s.Plan task total write last)
    (h : c.OnPlan s task total write done loads) {t : Task} {tasks : List Task}
    (hw : c.workers[i]? = some ⟨[], t :: tasks, none⟩) :
    ∃ k rest, loads[i]? = some ⟨[], k :: rest⟩ ∧ rest.map task = tasks ∧ k < total ∧
      c.state.result t = .ok (write k) := by
  obtain ⟨⟨hand, rest⟩, hx, hworker⟩ := h.exists_load hw
  obtain ⟨hhand, hrest, -⟩ := Worker.mk.inj hworker
  obtain rfl := List.map_eq_nil_iff.mp hhand
  obtain ⟨k, rest, rfl, rfl, rfl⟩ := List.map_eq_cons_iff.mp hrest
  obtain ⟨hdone, hlt, hk⟩ := h.open_item (List.mem_of_getElem? hx) (List.mem_cons_self (a := k))
  refine ⟨k, rest, hx, rfl, hlt, ?_⟩
  rw [h.state]
  exact hplan.result done k hdone hlt hk

lemma OnPlan.after_take (hplan : s.Plan task total write last)
    (h : c.OnPlan s task total write done loads) {t : Task} {tasks : List Task} {w : Write S}
    (hw : c.workers[i]? = some ⟨[], t :: tasks, none⟩) (hresult : c.state.result t = .ok w) :
    ∃ loads', OnPlan s task total write done loads'
      { c with workers := c.workers.set i ⟨w.parts, tasks, none⟩ } := by
  obtain ⟨k, rest, hx, rfl, hlt, hplanned⟩ := h.exists_next hplan hw
  obtain rfl := Except.ok.inj (hresult.symm.trans hplanned)
  have hshared := h.shared_set hx (y := ⟨[k], rest⟩) (List.nil_append _).symm
  rw [List.append_nil] at hshared
  refine ⟨loads.set i ⟨[k], rest⟩, h.state, ?_, hshared⟩
  rw [hplan.whole k hlt, h.workers, List.map_set]
  rfl

/-- **A step stays on the plan.** -/
lemma OnPlan.step (hplan : s.Plan task total write last)
    (h : c.OnPlan s task total write done loads) (hmoves : c.Moves i c') :
    ∃ done' loads', c'.OnPlan s task total write done' loads' := by
  cases hmoves with
  | stay => exact ⟨done, loads, h⟩
  | write hw => exact h.after_write hw
  | take hw hresult => exact ⟨done, h.after_take hplan hw hresult⟩
  | fail hw he =>
    obtain ⟨k, rest, -, -, -, hplanned⟩ := h.exists_next hplan hw
    cases he.symm.trans hplanned

/-- When no worker can go on, all items are written and nobody has failed. -/
lemma OnPlan.over (hplan : s.Plan task total write last)
    (h : c.OnPlan s task total write done loads) (hover : c.Over) : c.Done ∧ c.state = last := by
  have hempty : ∀ x ∈ loads, x = ⟨[], []⟩ := by
    intro x hx
    have hmem : x.worker task write ∈ c.workers := by
      rw [h.workers]
      exact List.mem_map_of_mem hx
    rcases hover _ hmem with hfailed | ⟨hhand, hrest⟩
    · exact absurd rfl hfailed
    · obtain ⟨hand, rest⟩ := x
      obtain rfl := List.map_eq_nil_iff.mp hhand
      obtain rfl := List.map_eq_nil_iff.mp hrest
      rfl
  have hitems : loads.flatMap Load.items = [] := by
    rw [List.flatMap_eq_nil_iff]
    intro x hx
    rw [hempty x hx]
    rfl
  have hshared := h.shared
  rw [hitems, List.append_nil] at hshared
  refine ⟨fun w hw => ?_, h.state.trans (hplan.final done hshared)⟩
  rw [h.workers] at hw
  obtain ⟨x, hx, rfl⟩ := List.mem_map.mp hw
  rw [hempty x hx]
  rfl

/-! ### Runs -/

/-- A worker who can go on has less before them after a step: a task less, or as many tasks and a
write less. -/
lemma step_shrinks {w : Worker S} (hw : c.workers[i]? = some w) (hopen : ¬ w.Stopped) :
    (c.step i).openTasks.length < c.openTasks.length ∨
      (c.step i).openTasks.length = c.openTasks.length ∧
        (c.step i).openWrites.length < c.openWrites.length := by
  have htasks := fun (v : Worker S) (u : List Task) => flatMap_set_perm (b := v) hw (u := u)
    (f := fun w => if w.failure = none then w.tasks else [])
  have hwrites := fun (v : Worker S) (u : List (Write S)) => flatMap_set_perm (b := v) hw (u := u)
    (f := fun w => if w.failure = none then w.pending else [])
  obtain ⟨pending, tasks, failure⟩ := w
  rw [Worker.Stopped, not_or, not_not] at hopen
  obtain ⟨rfl, hopen⟩ := hopen
  unfold openTasks openWrites
  -- a pending write is made first; only then a task is taken up, or is where the worker stops
  cases pending with
  | cons p pending =>
    right
    rw [step_of_pending hw]
    have hsame := (htasks ⟨pending, tasks, none⟩ [] rfl).length_eq
    have hless := (hwrites ⟨pending, tasks, none⟩ [p] rfl).length_eq
    rw [List.length_append, List.length_singleton] at hless
    exact ⟨hsame, by dsimp only; omega⟩
  | nil =>
    left
    cases tasks with
    | nil => exact absurd ⟨rfl, rfl⟩ hopen
    | cons t tasks =>
      rcases hresult : c.state.result t with e | w
      · have hstep : c.step i = { c with workers := c.workers.set i ⟨[], t :: tasks, some e⟩ } := by
          simp only [step, hw, hresult]
        have hless :=
          (htasks ⟨[], t :: tasks, some e⟩ (t :: tasks) (List.append_nil _).symm).length_eq
        rw [List.length_append, List.length_cons] at hless
        rw [hstep]
        dsimp only
        omega
      · have hless := (htasks ⟨w.parts, tasks, none⟩ [t] rfl).length_eq
        rw [List.length_append, List.length_singleton] at hless
        rw [step_of_task hw hresult]
        dsimp only
        omega

/-- **Workers come to an end**: they can always go on until none of them can. -/
theorem exists_over (c : Crew S) : ∃ more, (c.run more).Over := by
  by_cases hover : c.Over
  · exact ⟨[], hover⟩
  · obtain ⟨w, hmem, hopen⟩ : ∃ w ∈ c.workers, ¬ w.Stopped := by simpa [Over] using hover
    obtain ⟨i, hi⟩ := List.getElem?_of_mem hmem
    have hshrinks := step_shrinks hi hopen
    obtain ⟨more, hmore⟩ := exists_over (c.step i)
    exact ⟨i :: more, hmore⟩
termination_by (c.openTasks.length, c.openWrites.length)
decreasing_by
  rcases hshrinks with htasks | ⟨htasks, hwrites⟩
  · exact Prod.Lex.left _ _ htasks
  · rw [htasks]
    exact Prod.Lex.right _ hwrites

/-- Workers go on with a command, in some order, until none of them can. -/
def Ends (s : SceneState S) (command : Command) (count : ℕ) (c : Crew S) : Prop :=
  c.Over ∧ ∃ schedule, (start s command count).run schedule = c

end Crew

namespace SceneState

variable [Scalar S] {s last : SceneState S} {phase : UInt16} {task : ℕ → Task} {total : ℕ}
  {write : ℕ → Write S}

omit [Scalar S] in
lemma tasks_applyAll (s : SceneState S) (l : List (Write S)) (c : Command) (index count : ℕ) :
    (s.applyAll l).tasks c index count = s.tasks c index count := by
  induction l generalizing s with
  | nil => rfl
  | cons w l ih => exact (ih (s.apply w)).trans (s.tasks_apply w c index count)

lemma onPlan_start (h : s.phaseTasks phase.toNat = .ok (total, task)) {count : ℕ}
    (hcount : 0 < count) : (Crew.start s (Command.update phase) count).OnPlan s task total write []
      ((List.range count).map fun i => ⟨[], s.items phase.toNat i count total⟩) := by
  refine ⟨rfl, ?_, ?_⟩
  · unfold Crew.start
    rw [List.map_map]
    refine List.map_congr_left fun i _ => ?_
    simp only [Worker.start, tasks_update h]
    rfl
  · rw [List.nil_append, List.flatMap_map, ← s.flatMap_items phase.toNat total hcount]
    exact .refl _

namespace Plan

variable {count : ℕ} {c : Crew S}

/-- **Workers stay on the plan of a phase**, in whatever order they go on. -/
theorem run (hplan : s.Plan task total write last)
    (h : s.phaseTasks phase.toNat = .ok (total, task)) (hcount : 0 < count)
    (schedule : List ℕ) :
    ∃ done loads, ((Crew.start s (Command.update phase) count).run schedule).OnPlan s task total
      write done loads :=
  Crew.run_keeps (P := fun c => ∃ done loads, c.OnPlan s task total write done loads)
    (fun _ _ _ ⟨_, _, hc⟩ hmoves => hc.step hplan hmoves) ⟨_, _, onPlan_start h hcount⟩ schedule

/-- **Every order of the workers comes to the same end**, and no worker fails. -/
theorem ends (hplan : s.Plan task total write last)
    (h : s.phaseTasks phase.toNat = .ok (total, task)) (hcount : 0 < count)
    (hc : Crew.Ends s (Command.update phase) count c) : c.Done ∧ c.state = last := by
  obtain ⟨hover, schedule, rfl⟩ := hc
  obtain ⟨done, loads, hon⟩ := hplan.run h hcount schedule
  exact hon.over hplan hover

/-! ### Slices in turn -/

lemma performAll (hplan : s.Plan task total write last) (done items : List ℕ)
    (hnodup : (done ++ items).Nodup) (hlt : ∀ k ∈ done ++ items, k < total) :
    (s.applyAll (done.map write)).performAll (items.map task) =
      (.ok (), s.applyAll ((done ++ items).map write)) := by
  induction items generalizing done with
  | nil =>
    rw [List.append_nil]
    rfl
  | cons k items ih =>
    have hk : k ∉ done := fun hmem =>
      List.disjoint_of_nodup_append hnodup hmem List.mem_cons_self
    have hresult := hplan.result done k (fun j hj => hlt j (List.mem_append_left _ hj))
      (hlt k (List.mem_append_right _ List.mem_cons_self)) hk
    have hwritten : (s.applyAll (done.map write)).apply (write k) =
        s.applyAll ((done ++ [k]).map write) := by
      rw [List.map_append, applyAll_append]
      rfl
    rw [List.append_cons] at hnodup hlt ⊢
    rw [List.map_cons, performAll_cons, hresult]
    dsimp only
    rw [hwritten]
    exact ih _ hnodup hlt

lemma performAll_range (hplan : s.Plan task total write last) :
    s.performAll ((List.range total).map task) = (.ok (), last) := by
  have hall := hplan.performAll [] (List.range total)
    (by rw [List.nil_append]; exact List.nodup_range)
    (by rw [List.nil_append]; exact fun k hk => List.mem_range.mp hk)
  rw [List.nil_append, hplan.final _ (.refl _)] at hall
  exact hall

lemma slices (hplan : s.Plan task total write last)
    (h : s.phaseTasks phase.toNat = .ok (total, task)) (count : ℕ) (done l : List ℕ)
    (hnodup : (done ++ l.flatMap fun i => s.items phase.toNat i count total).Nodup)
    (hlt : ∀ k ∈ done ++ l.flatMap fun i => s.items phase.toNat i count total, k < total) :
    l.foldl (runner.next (Command.update phase) count) ([], s.applyAll (done.map write)) =
      ([], s.applyAll ((done ++ l.flatMap fun i =>
        s.items phase.toNat i count total).map write)) := by
  induction l generalizing done with
  | nil =>
    rw [List.flatMap_nil, List.append_nil]
    rfl
  | cons i l ih =>
    rw [List.flatMap_cons, ← List.append_assoc] at hnodup hlt ⊢
    have hperform := hplan.performAll _ _ hnodup.of_append_left
      fun k hk => hlt k (List.mem_append_left _ hk)
    have htasks := (s.tasks_applyAll (done.map write) (Command.update phase) i count).trans
      (tasks_update h i count)
    have hslice : runner.slice (Command.update phase) i count (s.applyAll (done.map write)) =
        (none, s.applyAll ((done ++ s.items phase.toNat i count total).map write)) := by
      unfold SliceRunner.slice runner
      simp only [htasks, hperform]
      rfl
    rw [List.foldl_cons, SliceRunner.next_eq, hslice]
    exact ih _ hnodup hlt

/-- **A pool comes to that end, too.** -/
theorem dispatch (hplan : s.Plan task total write last)
    (h : s.phaseTasks phase.toNat = .ok (total, task)) {p : Pool (SceneState S)}
    (hp : p.Runs runner) : p.dispatch (Command.update phase) s = ([], last) := by
  have hitems := s.flatMap_items phase.toNat total hp.threads_pos
  have hslices := hplan.slices h p.threads [] (List.range p.threads)
    (by rw [List.nil_append, hitems]; exact List.nodup_range)
    (by rw [List.nil_append, hitems]; exact fun k hk => List.mem_range.mp hk)
  rw [List.nil_append, hitems, hplan.final _ (.refl _)] at hslices
  rcases hp.dispatch (Command.update phase) s with ⟨hexit, -⟩ | hd
  · cases hexit
  · rw [hd]
    exact hslices

end Plan

end SceneState

end SolidTrace
