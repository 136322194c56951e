import SolidTrace.Proofs.Arena.Volumes
import SolidTrace.Proofs.Scene.Configuration
import SolidTrace.Proofs.Scene.Settled
import SolidTrace.Proofs.Tracing.Shading

/-!
States that workers find ready.

In a state that is `Ready` every table has the entries that the others refer to. A task on an item
of such a state comes to a write inside of its tables. Two things can keep it from doing so: an
animator that breaks off, and in checked arithmetic a sum that overflows when a row is drawn. Writes
leave a state ready, so that the same holds of all tasks of all workers on a command, in whatever
order they go on.
-/

namespace SolidTrace

variable {S : Type}

/-- The animator of an object breaks off at a time, and that is the error. -/
def Arena.Stumbles (a : Arena S) (time : Int) (e : SliceError) : Prop :=
  ∃ (object : ℕ) (node : ObjectNode S) (animator : Animator S) (last : Int)
    (placement : Placement S) (text : String),
    a.objects[object]? = some node ∧ node.animator = some animator ∧
      animator time last ⟨object, node.placement, node.time⟩ placement = .error text ∧
        e = .panicked text

namespace SceneState

def Has (s : SceneState S) : Task → Prop
  | .advance object | .resolve object => object < s.objects.size
  | .place surface => surface < s.poses.size
  | .draw row => row < s.spec.height

/-- A write is inside of the tables. -/
def Admits (s : SceneState S) : Write S → Prop
  | .nothing => True
  | .object id _ => id < s.objects.size
  | .pose surface _ => surface < s.poses.size
  | .pixels l => ∀ r ∈ l, r.position < s.frame.words.size

/-- The arena is complete, and the other tables fit it. -/
structure Furnished (s : SceneState S) : Prop where
  complete : s.arena.Complete
  populated : s.Populated
  fits : s.snapshot.Fits s.arena

/-- All that tasks look up is there. -/
structure Ready (s : SceneState S) : Prop extends s.Furnished where
  current : s.rig.current < s.arena.cameras.size
  camera : s.camera < s.snapshot.cameras.size
  framed : s.Framed

/-- One state has the arena and the time of another one, and tables as large. -/
structure Aligned (t s : SceneState S) : Prop where
  arena : t.arena = s.arena
  clock : t.clock = s.clock
  objects : t.objects.size = s.objects.size
  poses : t.poses.size = s.poses.size
  height : t.spec.height = s.spec.height
  words : t.frame.words.size = s.frame.words.size

variable {s t : SceneState S}

lemma Aligned.refl (s : SceneState S) : s.Aligned s := ⟨rfl, rfl, rfl, rfl, rfl, rfl⟩

lemma Aligned.apply (h : t.Aligned s) (w : Write S) : (t.apply w).Aligned s := by
  cases w with
  | nothing => exact h
  | object id o => exact { h with objects := Array.size_setIfInBounds.trans h.objects }
  | pose surface p => exact { h with poses := Array.size_setIfInBounds.trans h.poses }
  | pixels l => exact { h with words := (t.frame.storeAll_size l).trans h.words }

lemma Aligned.has_iff (h : t.Aligned s) {task : Task} : t.Has task ↔ s.Has task := by
  cases task with
  | advance object => exact iff_of_eq (congrArg (object < ·) h.objects)
  | resolve object => exact iff_of_eq (congrArg (object < ·) h.objects)
  | place surface => exact iff_of_eq (congrArg (surface < ·) h.poses)
  | draw row => exact iff_of_eq (congrArg (row < ·) h.height)

lemma Aligned.admits_iff (h : t.Aligned s) {w : Write S} : t.Admits w ↔ s.Admits w := by
  cases w with
  | nothing => exact Iff.rfl
  | object id o => exact iff_of_eq (congrArg (id < ·) h.objects)
  | pose surface p => exact iff_of_eq (congrArg (surface < ·) h.poses)
  | pixels l =>
    dsimp only [Admits]
    rw [h.words]

lemma Furnished.apply (h : s.Furnished) (w : Write S) : (s.apply w).Furnished := by
  have hpopulated := h.populated.follows (s.follows_apply w)
  cases w with
  | nothing => exact h
  | object id o => exact { h with populated := hpopulated }
  | pose surface p => exact { h with populated := hpopulated }
  | pixels l => exact { h with populated := hpopulated }

lemma Ready.apply (h : s.Ready) (w : Write S) : (s.apply w).Ready := by
  have hfurnished := h.toFurnished.apply w
  have hframed := h.framed.apply w
  cases w with
  | nothing => exact h
  | object id o => exact ⟨hfurnished, h.current, h.camera, hframed⟩
  | pose surface p => exact ⟨hfurnished, h.current, h.camera, hframed⟩
  | pixels l => exact ⟨hfurnished, h.current, h.camera, hframed⟩

lemma Admits.parts {w : Write S} (h : s.Admits w) : ∀ v ∈ w.parts, s.Admits v := by
  intro v hv
  cases w with
  | nothing => exact List.mem_singleton.mp hv ▸ h
  | object id o => exact List.mem_singleton.mp hv ▸ h
  | pose surface p => exact List.mem_singleton.mp hv ▸ h
  | pixels l =>
    obtain ⟨r, hr, rfl⟩ := List.mem_map.mp hv
    exact fun r' hr' => List.mem_singleton.mp hr' ▸ h r hr

variable [Scalar S]

lemma fits_worldNow (h : s.Populated) : s.worldNow.Fits s.arena where
  poses := h.poses
  arrayBounds := Array.size_map

/-- **The world can be taken**, and it has what tracing looks up. -/
lemma Furnished.currentWorld (h : s.Furnished) :
    ∃ world, s.currentWorld = .ok world ∧ Furnished { s with snapshot := world } :=
  ⟨_, currentWorld_eq h.complete.wellFormed h.populated, h.complete,
    ⟨h.populated.objects, h.populated.poses⟩, fits_worldNow h.populated⟩

lemma Furnished.snapshot (h : s.Furnished) {world : Snapshot S}
    (hworld : s.currentWorld = .ok world) : Furnished { s with snapshot := world } := by
  obtain ⟨world', hworld', hfurnished⟩ := h.currentWorld
  obtain rfl := Except.ok.inj (hworld'.symm.trans hworld)
  exact hfurnished

/-- **The current camera can be driven.** -/
lemma Ready.drive (h : s.Ready) (time : Int) (action : CameraAction) :
    s.drive time action = .ok (s.driven time action) :=
  drive_eq h.complete.wellFormed h.populated h.current time action

lemma Furnished.driven (h : s.Furnished) (time : Int) (action : CameraAction) :
    Furnished { s.driven time action with clock := some time } := by
  have hpopulated := h.populated.follows (s.follows_driven time action)
  obtain ⟨objects, hdrive⟩ := s.exists_driven time action
  rw [hdrive] at hpopulated ⊢
  exact { h with populated := ⟨hpopulated.objects, hpopulated.poses⟩ }

lemma Ready.driven (h : s.Ready) (time : Int) (action : CameraAction) :
    Ready { s.driven time action with clock := some time } := by
  have hfurnished := h.toFurnished.driven time action
  have hframed := h.framed.driven time action
  obtain ⟨objects, hdrive⟩ := s.exists_driven time action
  rw [hdrive] at hfurnished hframed ⊢
  exact ⟨hfurnished, h.current, h.camera, ⟨hframed.stride, hframed.size⟩⟩

lemma Ready.onlyOverflows_rowWords (h : s.Ready) (y : ℕ) : OnlyOverflows S (s.rowWords y) := by
  have hsamples : OnlyOverflows S (s.rowSamples y) := by
    unfold rowSamples
    rw [fetch_eq_ok (Array.getElem?_eq_getElem h.camera), ok_bind]
    exact .bind (.mapM fun _ _ => .mapM fun _ _ =>
      Tracer.onlyOverflows_sample (t := s.tracer) h.fits h.complete _ _ _ _ _) fun _ _ => .ok _
  refine .bind hsamples fun colors hcolors => ?_
  obtain ⟨pixels, -, hresolve⟩ := rowSamples_resolve hcolors
  rw [hresolve s.kernel]
  exact .ok _

/-- **A row is drawn inside of the frame**, but for sums that overflow. -/
lemma Ready.draw (h : s.Ready) {y : ℕ} (hy : y < s.spec.height) :
    (∃ w, s.result (.draw y) = .ok w ∧ s.Admits w) ∨
      Scalar.checked S = true ∧ s.result (.draw y) = .error (.ofFault .overflow) := by
  rcases hwords : s.rowWords y with f | words
  · obtain ⟨hchecked, rfl⟩ := h.onlyOverflows_rowWords y f hwords
    exact .inr ⟨hchecked, result_of_rowWords_error hwords⟩
  · obtain hdrawable := h.framed.drawable hy hwords
    refine .inl ⟨_, hdrawable.result, ?_⟩
    obtain ⟨words', hwords', hinside⟩ := hdrawable
    unfold rowPlan
    rw [hwords']
    exact hinside

lemma Ready.advance (h : s.Ready) {object : ℕ} (ho : object < s.objects.size) :
    (∃ w, s.result (.advance object) = .ok w ∧ s.Admits w) ∨
      ∃ e, s.result (.advance object) = .error e ∧ s.arena.Stumbles (s.clock.getD 0) e := by
  obtain ⟨node, hnode⟩ : ∃ node, s.arena.objects[object]? = some node :=
    ⟨_, Array.getElem?_eq_getElem (h.populated.objects ▸ ho)⟩
  obtain ⟨o, hobject⟩ : ∃ o, s.objects[object]? = some o := ⟨_, Array.getElem?_eq_getElem ho⟩
  dsimp only [result, SceneState.advance]
  rw [fetch_mapError_bind hnode]
  rcases hanimator : node.animator with _ | animator
  · exact .inl ⟨.nothing, rfl, trivial⟩
  · dsimp only
    rw [fetch_mapError_bind hobject]
    rcases hmoved : animator (s.clock.getD 0) o.lastTime ⟨object, node.placement, node.time⟩
      o.placement with text | placement
    · exact .inr ⟨.panicked text, rfl, object, node, animator, _, _, text, hnode, hanimator,
        hmoved, rfl⟩
    · exact .inl ⟨_, rfl, ho⟩

/-- A task of a command: its item is there, animators are asked in the first phase only, and rows
are drawn by renderings only. -/
structure Assigns (s : SceneState S) (c : Command) (task : Task) : Prop where
  has : s.Has task
  first : ∀ object, task = .advance object → c = Command.update 1
  drawn : ∀ row, task = .draw row → c = Command.render 0

/-- A failure that a command is excused for: an animator breaks off, or in checked arithmetic a sum
overflows. -/
def Excuses (s : SceneState S) (c : Command) (e : SliceError) : Prop :=
  c = Command.update 1 ∧ s.arena.Stumbles (s.clock.getD 0) e ∨
    c = Command.render 0 ∧ Scalar.checked S = true ∧ e = .ofFault .overflow

end SceneState

namespace SceneState

variable {s t : SceneState S}

variable [Scalar S]

/-- **A task of a command comes to a write inside of the tables**, or its failure is excused. -/
lemma Ready.result_assigned (h : s.Ready) {c : Command} {task : Task} (ht : s.Assigns c task) :
    (∃ w, s.result task = .ok w ∧ s.Admits w) ∨
      ∃ e, s.result task = .error e ∧ s.Excuses c e := by
  have hwell := h.complete.wellFormed
  cases task with
  | advance object =>
    rcases h.advance ht.has with hw | ⟨e, he, hstumbles⟩
    · exact .inl hw
    · exact .inr ⟨e, he, .inl ⟨ht.first object rfl, hstumbles⟩⟩
  | resolve object =>
    have hobject := Array.getElem?_eq_getElem (show object < s.objects.size from ht.has)
    exact .inl ⟨_, result_resolve hwell h.populated hobject, ht.has⟩
  | place surface =>
    obtain ⟨w, hw⟩ := exists_place hwell h.populated ht.has
    obtain ⟨n, -, rfl⟩ := place_ok hw
    exact .inl ⟨_, hw, ht.has⟩
  | draw row =>
    rcases h.draw ht.has with hw | ⟨hchecked, he⟩
    · exact .inl hw
    · exact .inr ⟨_, he, .inr ⟨ht.drawn row rfl, hchecked, rfl⟩⟩

end SceneState

end SolidTrace
