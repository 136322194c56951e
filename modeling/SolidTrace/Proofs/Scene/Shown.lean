import SolidTrace.Proofs.Scene.Picture
import SolidTrace.Proofs.Scene.Settled

/-!
What is shown of a state.

The phases of an update work on the objects and the poses, and nothing that is shown depends on
these: rendering and tracing read the snapshot. A phase, wherever its slices stop, leaves a state
that differs in nothing else, `Shows`.

Such states are rendered alike, row by row and failure by failure. So are states that agree in what
the samples depend on, whatever their kernels are and their frames hold: a relation of states needs
to be looked at for a single row only, `RenderedAlike`.
-/

namespace SolidTrace

variable {S : Type}

namespace SceneState

/-- A state shows what another one does: they differ in the clock, the objects and the poses at
most. -/
def Shows (t s : SceneState S) : Prop :=
  t = { s with clock := t.clock, objects := t.objects, poses := t.poses }

section

variable {s t u : SceneState S}

lemma Shows.refl (s : SceneState S) : s.Shows s := rfl

lemma Shows.trans (h : u.Shows t) (h' : t.Shows s) : u.Shows s := by
  unfold Shows at *
  rw [h, h']

lemma Shows.snapshot (h : t.Shows s) : t.snapshot = s.snapshot := by rw [h]

lemma Shows.tracer (h : t.Shows s) : t.tracer = s.tracer := by
  rw [h]
  rfl

lemma Shows.apply_pixels (h : t.Shows s) (l : List Store) :
    (t.apply (.pixels l)).Shows (s.apply (.pixels l)) := by
  unfold Shows at *
  rw [h]
  rfl

end

variable [Scalar S] {s t : SceneState S}

/-! ### Updates -/

omit [Scalar S] in
lemma shows_apply (s : SceneState S) {w : Write S} (hw : ∀ l, w ≠ .pixels l) :
    (s.apply w).Shows s := by
  cases w with
  | nothing => exact .refl s
  | object id o => rfl
  | pose surface p => rfl
  | pixels l => exact absurd rfl (hw l)

lemma result_ne_pixels {task : Task} (htask : task.row? = none) {w : Write S}
    (h : s.result task = .ok w) (l : List Store) : w ≠ .pixels l := by
  rintro rfl
  cases task with
  | advance object =>
    obtain ⟨node, -, ⟨-, hw⟩ | ⟨animator, o, placement, -, -, -, hw⟩⟩ := advance_ok h
    · cases hw
    · cases hw
  | resolve object =>
    obtain ⟨o, world, -, -, hw⟩ := resolve_ok h
    cases hw
  | place surface =>
    obtain ⟨n, -, hw⟩ := place_ok h
    cases hw
  | draw row => cases htask

lemma shows_performAll (s : SceneState S) {l : List Task} (hl : ∀ t ∈ l, t.row? = none) :
    (s.performAll l).2.Shows s := by
  induction l generalizing s with
  | nil => exact .refl s
  | cons t l ih =>
    unfold performAll
    split
    · next w hw =>
      have hrest := ih (s.apply w) fun t ht => hl t (List.mem_cons_of_mem _ ht)
      exact hrest.trans (s.shows_apply (result_ne_pixels (hl t List.mem_cons_self) hw))
    · exact .refl s

omit [Scalar S] in
lemma row?_of_tasks_update {phase : UInt16} {index count : ℕ} {l : List Task}
    (h : s.tasks (Command.update phase) index count = .ok l) : ∀ t ∈ l, t.row? = none := by
  intro t ht
  rcases hphase : s.phaseTasks phase.toNat with e | ⟨total, task⟩
  · unfold tasks at h
    rw [show (Command.update phase).kind = .update from rfl] at h
    dsimp only at h
    rw [show (Command.update phase).phase = phase from rfl, hphase] at h
    cases h
  · rw [tasks_update hphase] at h
    obtain rfl := Except.ok.inj h
    obtain ⟨k, -, rfl⟩ := List.mem_map.mp ht
    unfold phaseTasks at hphase
    split at hphase
    · cases hphase
      rfl
    · cases hphase
      rfl
    · cases hphase
      rfl
    · cases hphase

/-- **A slice of an update changes nothing that is shown**, wherever it stops. -/
lemma shows_runner (phase : UInt16) (index count : ℕ) (s : SceneState S) :
    (runner (Command.update phase) index count s).2.Shows s := by
  unfold runner
  split
  · exact .refl s
  · next hl => exact s.shows_performAll (row?_of_tasks_update hl)

/-! ### Rendering -/

/-- Related states are to draw the same rows, and they draw a row both, into related states, or none
of them does for the same reason. -/
structure RenderedAlike (R : SceneState S → SceneState S → Prop) : Prop where
  tasks : ∀ {t s : SceneState S}, R t s → ∀ index count,
    t.tasks (Command.render 0) index count = s.tasks (Command.render 0) index count
  row : ∀ {t s : SceneState S}, R t s → ∀ y < s.spec.height,
    (∃ l m, t.result (.draw y) = .ok (.pixels l) ∧ s.result (.draw y) = .ok (.pixels m) ∧
      R (t.apply (.pixels l)) (s.apply (.pixels m))) ∨
      ∃ e, t.result (.draw y) = .error e ∧ s.result (.draw y) = .error e

section

variable {R : SceneState S → SceneState S → Prop}

lemma RenderedAlike.performAll (hR : RenderedAlike R) (h : R t s) {l : List ℕ}
    (hl : ∀ y ∈ l, y < s.spec.height) :
    (t.performAll (l.map .draw)).1 = (s.performAll (l.map .draw)).1 ∧
      R (t.performAll (l.map .draw)).2 (s.performAll (l.map .draw)).2 := by
  induction l generalizing s t with
  | nil => exact ⟨rfl, h⟩
  | cons y l ih =>
    rw [List.map_cons, performAll_cons, performAll_cons]
    rcases hR.row h y (hl y List.mem_cons_self) with ⟨m, n, ht, hs, hnext⟩ | ⟨e, ht, hs⟩
    · rw [ht, hs]
      exact ih hnext fun y hy => hl y (List.mem_cons_of_mem _ hy)
    · rw [ht, hs]
      exact ⟨rfl, h⟩

/-- **Slices that render related states** come to the same, and leave related states. -/
lemma RenderedAlike.runner (hR : RenderedAlike R) (h : R t s) (index count : ℕ) :
    (SceneState.runner (Command.render 0) index count t).1 =
        (SceneState.runner (Command.render 0) index count s).1 ∧
      R (SceneState.runner (Command.render 0) index count t).2
        (SceneState.runner (Command.render 0) index count s).2 := by
  unfold SceneState.runner
  rw [hR.tasks h index count]
  split
  · exact ⟨rfl, h⟩
  · next l hl =>
    dsimp only [SceneState.tasks, Command.render] at hl
    split at hl
    · obtain rfl := Except.ok.inj hl
      exact hR.performAll h fun y hy => lt_of_mem_sliceRows hy
    · cases hl

end

/-- States that show the same are rendered alike, into the same frames. -/
lemma renderedAlike_shows : RenderedAlike (S := S) fun t s => t.Shows s where
  tasks h index count := by
    rw [h]
    rfl
  row := by
    intro t s h y hy
    have hresult : t.result (.draw y) = s.result (.draw y) := by
      rw [h]
      rfl
    rcases hs : s.result (.draw y) with e | w
    · exact .inr ⟨e, hresult.trans hs, rfl⟩
    · obtain ⟨-, rfl⟩ := draw_ok (mapError_eq_ok.mp hs)
      exact .inl ⟨_, _, hresult.trans hs, rfl, h.apply_pixels _⟩

/-- Two states look alike and have their frames in shape, whatever the kernels are and the frames
hold. -/
structure Matches (t s : SceneState S) : Prop where
  alike : s.Alike t
  spec : t.spec = s.spec
  left : t.Framed
  right : s.Framed

lemma Alike.rowWords (h : s.Alike t) (y : ℕ) : t.rowWords y = s.rowWords y := by
  have hsamples : t.rowSamples y = s.rowSamples y := by
    unfold rowSamples SceneState.tracer
    rw [h.arena, h.snapshot, h.camera, h.fsaa, h.options, h.width, h.height]
  unfold SceneState.rowWords
  rw [hsamples, h.fsaa, h.width]
  rcases hcolors : s.rowSamples y with e | colors
  · rfl
  · obtain ⟨pixels, -, hresolve⟩ := rowSamples_resolve hcolors
    rw [ok_bind, ok_bind, hresolve, hresolve]

lemma renderedAlike_matches : RenderedAlike (S := S) fun t s => t.Matches s where
  tasks := by
    intro t s h index count
    dsimp only [tasks, Command.render]
    rw [h.spec, h.alike.camera, h.alike.snapshot]
  row := by
    intro t s h y hy
    have hsame := h.alike.rowWords y
    rcases hwords : s.rowWords y with e | words
    · exact .inr ⟨_, result_of_rowWords_error (hsame.trans hwords),
        result_of_rowWords_error hwords⟩
    · have ht := (h.left.drawable (h.spec ▸ hy) (hsame.trans hwords)).result
      have hs := (h.right.drawable hy hwords).result
      have halike := h.alike
      exact .inl ⟨_, _, ht, hs, ⟨halike.arena, halike.snapshot, halike.camera, halike.fsaa,
        halike.options, halike.width, halike.height⟩, h.spec, h.left.apply _, h.right.apply _⟩

end SceneState

/-! ### Dispatches -/

namespace SliceRunner

variable {W : Type} {r : SliceRunner W} {c : Command} {n : ℕ} {R : W → W → Prop}

lemma slices_simulates
    (h : ∀ i w v, R w v → (r c i n w).1 = (r c i n v).1 ∧ R (r c i n w).2 (r c i n v).2)
    (l : List ℕ) {w v : W} (hR : R w v) :
    (r.slices c n l w).1 = (r.slices c n l v).1 ∧ R (r.slices c n l w).2 (r.slices c n l v).2 := by
  have hslice : ∀ i w v, R w v →
      (r.slice c i n w).1 = (r.slice c i n v).1 ∧ R (r.slice c i n w).2 (r.slice c i n v).2 := by
    intro i w v hR
    have hrun := h i w v hR
    rcases hw : r c i n w with ⟨result, w'⟩
    rcases hv : r c i n v with ⟨result', v'⟩
    rw [hw, hv] at hrun
    obtain ⟨rfl, hstate⟩ : result = result' ∧ R w' v' := hrun
    unfold slice
    rw [hw, hv]
    split
    · exact ⟨rfl, hR⟩
    · cases result with
      | ok u => exact ⟨rfl, hstate⟩
      | error e => exact ⟨rfl, hstate⟩
  have hfold : ∀ failures w v, R w v →
      (l.foldl (r.next c n) (failures, w)).1 = (l.foldl (r.next c n) (failures, v)).1 ∧
        R (l.foldl (r.next c n) (failures, w)).2 (l.foldl (r.next c n) (failures, v)).2 := by
    -- the failures so far are the same on both sides, so only the states are carried along
    induction l with
    | nil => exact fun _ _ _ hR => ⟨rfl, hR⟩
    | cons i l ih =>
      intro failures w v hR
      obtain ⟨hfailure, hstate⟩ := hslice i w v hR
      rw [List.foldl_cons, List.foldl_cons, next_eq, next_eq, hfailure]
      exact ih _ _ _ hstate
  exact hfold [] w v hR

end SliceRunner

lemma Pool.Runs.dispatch_simulates {W : Type} {p : Pool W} {r : SliceRunner W} {c : Command}
    {R : W → W → Prop} (hp : p.Runs r)
    (h : ∀ i n w v, R w v → (r c i n w).1 = (r c i n v).1 ∧ R (r c i n w).2 (r c i n v).2)
    {w v : W} (hR : R w v) :
    (p.dispatch c w).1 = (p.dispatch c v).1 ∧ R (p.dispatch c w).2 (p.dispatch c v).2 := by
  obtain ⟨n, rfl | rfl⟩ := hp
  · exact SliceRunner.slices_simulates (fun i => h i _) _ hR
  · unfold Pool.threaded
    dsimp only
    split
    · exact ⟨rfl, hR⟩
    · exact SliceRunner.slices_simulates (fun i => h i _) _ hR

lemma Scheduler.dispatch_simulates {W : Type} {s s' : Scheduler W} {c : Command} {R : W → W → Prop}
    {w v : W} (hpool : s.pool = s'.pool) (hblocked : s.blocked = s'.blocked) (hR : R w v)
    (h : (s'.pool.dispatch c w).1 = (s'.pool.dispatch c v).1 ∧
      R (s'.pool.dispatch c w).2 (s'.pool.dispatch c v).2) :
    (s.dispatch c w).1 = (s'.dispatch c v).1 ∧ R (s.dispatch c w).2.2 (s'.dispatch c v).2.2 := by
  unfold dispatch
  rw [hpool, hblocked]
  rcases hw : s'.pool.dispatch c w with ⟨failures, w'⟩
  rcases hv : s'.pool.dispatch c v with ⟨failures', v'⟩
  rw [hw, hv] at h
  obtain ⟨rfl, hstate⟩ : failures = failures' ∧ R w' v' := h
  split
  · exact ⟨rfl, hR⟩
  · cases failures with
    | nil => exact ⟨rfl, hstate⟩
    | cons failure failures => exact ⟨rfl, hstate⟩

/-! ### Workers -/

/-- A worker who draws nothing. -/
structure Worker.Unseen (w : Worker S) : Prop where
  pending : ∀ p ∈ w.pending, ∀ l, p ≠ .pixels l
  tasks : ∀ t ∈ w.tasks, t.row? = none

lemma Write.parts_ne_pixels {w : Write S} (hw : ∀ l, w ≠ .pixels l) :
    ∀ p ∈ w.parts, ∀ l, p ≠ .pixels l := by
  have hparts : w.parts = [w] := by
    cases w with
    | nothing => rfl
    | object id o => rfl
    | pose surface p => rfl
    | pixels l => exact absurd rfl (hw l)
  rw [hparts]
  exact List.forall_mem_singleton.mpr hw

namespace Crew

variable [Scalar S] {s : SceneState S}

lemma Moves.shows {c c' : Crew S} {i : ℕ} (hmoves : c.Moves i c')
    (h : c.state.Shows s ∧ ∀ w ∈ c.workers, w.Unseen) :
    c'.state.Shows s ∧ ∀ w ∈ c'.workers, w.Unseen := by
  obtain ⟨hstate, hworkers⟩ := h
  cases hmoves with
  | stay => exact ⟨hstate, hworkers⟩
  | @write w pending tasks hw =>
    have hunseen := hworkers _ (List.mem_of_getElem? hw)
    refine ⟨(c.state.shows_apply (hunseen.pending w List.mem_cons_self)).trans hstate,
      forall_mem_set hworkers ⟨fun p hp => ?_, hunseen.tasks⟩⟩
    exact hunseen.pending p (List.mem_cons_of_mem _ hp)
  | @take t tasks w ht hw =>
    have hunseen := hworkers _ (List.mem_of_getElem? ht)
    have hpixels := SceneState.result_ne_pixels (hunseen.tasks t List.mem_cons_self) hw
    refine ⟨hstate, forall_mem_set hworkers ⟨Write.parts_ne_pixels hpixels, fun t ht => ?_⟩⟩
    exact hunseen.tasks t (List.mem_cons_of_mem _ ht)
  | @fail t tasks e ht he =>
    have hunseen := hworkers _ (List.mem_of_getElem? ht)
    exact ⟨hstate, forall_mem_set hworkers ⟨nofun, hunseen.tasks⟩⟩

/-- **Workers on a phase of an update change nothing that is shown**, in any number and any order,
however far they get. -/
lemma run_shows (s : SceneState S) (phase : UInt16) (count : ℕ) (schedule : List ℕ) :
    ((start s (Command.update phase) count).run schedule).state.Shows s := by
  have hstart : ∀ w ∈ (start s (Command.update phase) count).workers, w.Unseen := by
    intro w hw
    obtain ⟨index, -, rfl⟩ := List.mem_map.mp hw
    unfold Worker.start
    split
    · next tasks htasks => exact ⟨nofun, SceneState.row?_of_tasks_update htasks⟩
    · exact ⟨nofun, nofun⟩
  exact (run_keeps (P := fun c => c.state.Shows s ∧ ∀ w ∈ c.workers, w.Unseen)
    (fun c i c' hc hmoves => hmoves.shows hc) ⟨.refl s, hstart⟩ schedule).1

end Crew

end SolidTrace
