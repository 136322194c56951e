import Mathlib.Data.List.Nodup
import SolidTrace.Proofs.Scene.Crew

/-!
A dispatch of a pool is a run of its workers.

The pools run their slices one after the other. Where no slice fails, that is one of the schedules
of `Crew.run`: each worker in turn, up to the end of its tasks.
-/

namespace SolidTrace

variable {S : Type}

namespace SceneState

/-- Writes do not change what a command asks of a slice. -/
lemma tasks_apply (s : SceneState S) (w : Write S) (c : Command) (index count : ℕ) :
    (s.apply w).tasks c index count = s.tasks c index count := by
  have hobjects : (s.apply w).objects.size = s.objects.size := by cases w <;> simp [apply]
  have hposes : (s.apply w).poses.size = s.poses.size := by cases w <;> simp [apply]
  have hrest : (s.apply w).options = s.options ∧ (s.apply w).camera = s.camera ∧
      (s.apply w).snapshot = s.snapshot ∧ (s.apply w).spec = s.spec := by
    cases w <;> exact ⟨rfl, rfl, rfl, rfl⟩
  obtain ⟨hoptions, hcamera, hsnapshot, hspec⟩ := hrest
  unfold tasks phaseTasks items
  simp only [hobjects, hposes, hoptions, hcamera, hsnapshot, hspec]

lemma foldl_parts (s : SceneState S) (w : Write S) : w.parts.foldl apply s = s.apply w := by
  cases w with
  | nothing => rfl
  | object id o => rfl
  | pose surface p => rfl
  | pixels l =>
    induction l generalizing s with
    | nil => rfl
    | cons r l ih => exact ih (s.apply (.pixels [r]))

variable [Scalar S]

lemma tasks_performAll (s : SceneState S) (l : List Task) (c : Command) (index count : ℕ) :
    (s.performAll l).2.tasks c index count = s.tasks c index count := by
  induction l generalizing s with
  | nil => rfl
  | cons t l ih =>
    unfold performAll
    rcases s.result t with e | w
    · rfl
    · exact (ih (s.apply w)).trans (s.tasks_apply w c index count)

end SceneState

namespace Crew

variable [Scalar S]

lemma run_writes {c : Crew S} {i : ℕ} {pending : List (Write S)} {tasks : List Task}
    (h : c.workers[i]? = some ⟨pending, tasks, none⟩) :
    c.run (List.replicate pending.length i) =
      ⟨pending.foldl SceneState.apply c.state, c.workers.set i ⟨[], tasks, none⟩,
        c.written ++ pending⟩ := by
  obtain ⟨hi, hworker⟩ := List.getElem?_eq_some_iff.mp h
  induction pending generalizing c with
  | nil =>
    rw [← hworker, List.set_getElem_self, List.append_nil]
    rfl
  | cons w pending ih =>
    have hnext : (c.workers.set i ⟨pending, tasks, none⟩)[i]? = some ⟨pending, tasks, none⟩ :=
      List.getElem?_set_self hi
    rw [List.length_cons, List.replicate_succ, run_cons, step_of_pending h]
    rw [ih hnext (by simpa using hi) (by simp)]
    simp only [List.set_set, List.append_assoc, List.singleton_append, List.foldl_cons]

lemma run_tasks {c : Crew S} {i : ℕ} {tasks : List Task} {s : SceneState S}
    (h : c.workers[i]? = some ⟨[], tasks, none⟩)
    (hs : c.state.performAll tasks = (.ok (), s)) :
    ∃ schedule written, c.run schedule = ⟨s, c.workers.set i Worker.idle, written⟩ := by
  obtain ⟨hi, hworker⟩ := List.getElem?_eq_some_iff.mp h
  -- each task is taken up, written part by part, and leaves the rest for a shorter list
  induction tasks generalizing c with
  | nil =>
    obtain rfl : c.state = s := congrArg Prod.snd hs
    refine ⟨[], c.written, ?_⟩
    rw [Worker.idle, ← hworker, List.set_getElem_self]
    rfl
  | cons t tasks ih =>
    unfold SceneState.performAll at hs
    rcases hw : c.state.result t with e | w
    · rw [hw] at hs
      cases congrArg Prod.fst hs
    · rw [hw] at hs
      have htaken := step_of_task h hw
      have hnext : (c.step i).workers[i]? = some ⟨w.parts, tasks, none⟩ := by
        rw [htaken]
        exact List.getElem?_set_self hi
      have hwrites := run_writes hnext
      rw [htaken, List.set_set, SceneState.foldl_parts] at hwrites
      obtain ⟨schedule, written, hrest⟩ :=
        ih (c := ⟨c.state.apply w, c.workers.set i ⟨[], tasks, none⟩, c.written ++ w.parts⟩)
          (List.getElem?_set_self hi) hs (by simpa using hi) (by simp)
      refine ⟨i :: (List.replicate w.parts.length i ++ schedule), written, ?_⟩
      rw [run_cons, htaken, run_append, hwrites, hrest]
      simp only [List.set_set]

end Crew

lemma SliceRunner.next_eq {W : Type} (r : SliceRunner W) (c : Command) (count : ℕ)
    (failures : List Failure) (w : W) (i : ℕ) :
    r.next c count (failures, w) i =
      (failures ++ (r.slice c i count w).1.toList, (r.slice c i count w).2) := by
  dsimp only [SliceRunner.next]
  rcases r.slice c i count w with ⟨_ | failure, w'⟩
  · exact Prod.ext (List.append_nil _).symm rfl
  · rfl

lemma SliceRunner.failures_eq_nil {W : Type} (r : SliceRunner W) (c : Command) (count : ℕ)
    (l : List ℕ) {failures : List Failure} {w w' : W}
    (h : l.foldl (r.next c count) (failures, w) = ([], w')) : failures = [] := by
  induction l generalizing failures w with
  | nil => exact congrArg Prod.fst h
  | cons i l ih =>
    rw [List.foldl_cons, next_eq] at h
    exact (List.append_eq_nil_iff.mp (ih h)).1

namespace SceneState

variable [Scalar S]

lemma slice_eq_none {s t : SceneState S} {c : Command} {count i : ℕ}
    (h : runner.slice c i count s = (none, t)) :
    ∃ tasks, s.tasks c i count = .ok tasks ∧ s.performAll tasks = (.ok (), t) := by
  unfold SliceRunner.slice at h
  split at h
  · next hexit =>
    obtain rfl : s = t := congrArg Prod.snd h
    refine ⟨[], ?_, rfl⟩
    unfold tasks
    rw [hexit]
  · split at h
    · next t' hrun =>
      obtain rfl : t' = t := congrArg Prod.snd h
      unfold runner at hrun
      split at hrun
      · cases congrArg Prod.fst hrun
      · next tasks htasks => exact ⟨tasks, htasks, hrun⟩
    · cases congrArg Prod.fst h

end SceneState

namespace Crew

variable [Scalar S]

/-- Workers that have not started perform their slices in turn. -/
lemma run_slices {s t : SceneState S} {c : Command} {count k m : ℕ} {d : Crew S}
    (htasks : ∀ i, d.state.tasks c i count = s.tasks c i count)
    (hfresh : ∀ i, k ≤ i → i < k + m → d.workers[i]? = some (Worker.start s c count i))
    (h : (List.range' k m).foldl (SceneState.runner.next c count) ([], d.state) = ([], t)) :
    ∃ schedule, (d.run schedule).state = t ∧ ∀ i, (d.run schedule).workers[i]? =
      if k ≤ i ∧ i < k + m then some Worker.idle else d.workers[i]? := by
  -- on the slices still to perform: the workers before `k` are through, and the tasks of the others
  -- are those of the state at the start
  induction m generalizing k d with
  | zero =>
    refine ⟨[], congrArg Prod.snd h, fun i => ?_⟩
    rw [if_neg (by omega)]
    rfl
  | succ m ih =>
    rw [List.range'_succ, List.foldl_cons, SliceRunner.next_eq, List.nil_append] at h
    have hfailures := SliceRunner.failures_eq_nil _ _ _ _ h
    rcases hslice : SceneState.runner.slice c k count d.state with ⟨failure, s₁⟩
    rw [hslice] at h hfailures
    obtain rfl : failure = none := Option.toList_eq_nil_iff.mp hfailures
    obtain ⟨tasks, hk, hperform⟩ := SceneState.slice_eq_none hslice
    have hworker : d.workers[k]? = some ⟨[], tasks, none⟩ := by
      rw [hfresh k (by omega) (by omega), Worker.start, ← htasks, hk]
    obtain ⟨first, written, hfirst⟩ := run_tasks hworker hperform
    have htasks₁ : ∀ i, s₁.tasks c i count = s.tasks c i count := by
      have hs₁ : (d.state.performAll tasks).2 = s₁ := congrArg Prod.snd hperform
      intro i
      rw [← htasks i, ← hs₁]
      exact SceneState.tasks_performAll ..
    have hfresh₁ : ∀ i, k + 1 ≤ i → i < k + 1 + m →
        (d.workers.set k Worker.idle)[i]? = some (Worker.start s c count i) := by
      intro i hi hm
      rw [List.getElem?_set_ne (by omega)]
      exact hfresh i (by omega) (by omega)
    obtain ⟨rest, hstate, hworkers⟩ := ih (d := ⟨s₁, d.workers.set k Worker.idle, written⟩)
      htasks₁ hfresh₁ h
    refine ⟨first ++ rest, ?_, fun i => ?_⟩
    · rw [run_append, hfirst, hstate]
    · rw [run_append, hfirst, hworkers i]
      by_cases hi : i = k
      · obtain ⟨hlt, -⟩ := List.getElem?_eq_some_iff.mp hworker
        rw [if_neg (by omega), if_pos (by omega), hi, List.getElem?_set_self hlt]
      · have hne : (d.workers.set k Worker.idle)[i]? = d.workers[i]? :=
          List.getElem?_set_ne (Ne.symm hi)
        rw [hne]
        split <;> split <;> first | rfl | omega

end Crew

/-- **A dispatch without a failure is a run of its workers.** -/
theorem Crew.exists_run [Scalar S] {s t : SceneState S} {c : Command} {count : ℕ}
    (h : SceneState.runner.slices c count (List.range count) s = ([], t)) :
    ∃ schedule, ((Crew.start s c count).run schedule).Done ∧
      ((Crew.start s c count).run schedule).state = t := by
  have hfresh : ∀ i, 0 ≤ i → i < 0 + count →
      (Crew.start s c count).workers[i]? = some (Worker.start s c count i) := by
    intro i _ hi
    unfold Crew.start
    rw [List.getElem?_map, List.getElem?_range (by omega)]
    rfl
  unfold SliceRunner.slices at h
  rw [List.range_eq_range'] at h
  obtain ⟨schedule, hstate, hworkers⟩ := Crew.run_slices (fun _ => rfl) hfresh h
  refine ⟨schedule, fun w hw => ?_, hstate⟩
  obtain ⟨i, hi⟩ := List.getElem?_of_mem hw
  rw [hworkers i] at hi
  split at hi
  · exact (Option.some.inj hi).symm
  · next hrange =>
    have hlt := (List.getElem?_eq_some_iff.mp hi).1
    rw [Crew.start, List.length_map, List.length_range] at hlt
    exact absurd ⟨Nat.zero_le i, by omega⟩ hrange

end SolidTrace
