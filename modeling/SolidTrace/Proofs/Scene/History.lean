import SolidTrace.Proofs.Scene.Reach

/-!
The histories of scenes.

What can be asked of a scene and changes it is an `Operation`; a history is a list of operations,
performed one after the other whether they succeed or not. None of them takes or gives back memory.
-/

namespace SolidTrace

/-- What can be asked of a scene and may change it. -/
inductive Operation
  | update (time : Int) (action : CameraAction)
  | render
  | acknowledge
  | setSimd (request : LaneConfig)
  | setFsaa (level : ℕ)
  | setOptions (options : Options)
  | nextCamera
deriving DecidableEq, Repr

def Operation.time? : Operation → Option Int
  | .update time _ => some time
  | _ => none

lemma Operation.eq_update {op : Operation} {time : Int} (h : op.time? = some time) :
    ∃ action, op = .update time action := by
  cases op with
  | update t action => exact ⟨action, by rw [Option.some.inj h]⟩
  | _ => cases h

def updateTimes (history : List Operation) : List Int := history.filterMap Operation.time?

namespace Scene

variable {S : Type} [Scalar S]

def perform (s : Scene S) : Operation → Scene S
  | .update time action => (s.update time action).2
  | .render => s.render.2
  | .acknowledge => s.acknowledge.2
  | .setSimd request => (s.setSimd request).2
  | .setFsaa level => (s.setFsaa level).2
  | .setOptions options => s.setOptions options
  | .nextCamera => s.nextCamera

def after (s : Scene S) (history : List Operation) : Scene S := history.foldl perform s

/-- Every update of a history is as is told of the scene that it comes upon. -/
def EachUpdate (P : Scene S → Int → CameraAction → Prop) (s : Scene S)
    (history : List Operation) : Prop :=
  ∀ (before : List Operation) (time : Int) (action : CameraAction) (later : List Operation),
    history = before ++ .update time action :: later → P (s.after before) time action

variable {s : Scene S}

lemma after_append (s : Scene S) (before later : List Operation) :
    s.after (before ++ later) = (s.after before).after later := List.foldl_append

lemma after_keeps {P : Scene S → Prop} (h : ∀ s op, P s → P (s.perform op)) (hs : P s)
    (history : List Operation) : P (s.after history) := by
  induction history generalizing s with
  | nil => exact hs
  | cons op history ih => exact ih (h s op hs)

lemma eachUpdate_nil (P : Scene S → Int → CameraAction → Prop) (s : Scene S) : EachUpdate P s [] :=
  fun _ _ _ _ h => absurd h.symm (List.append_ne_nil_of_right_ne_nil _ (List.cons_ne_nil _ _))

lemma eachUpdate_cons {P : Scene S → Int → CameraAction → Prop} {op : Operation}
    {history : List Operation} : EachUpdate P s (op :: history) ↔
      (∀ time action, op = .update time action → P s time action) ∧
        EachUpdate P (s.perform op) history := by
  constructor
  · intro h
    refine ⟨fun time action hop => h [] time action history (by rw [hop]; rfl), ?_⟩
    intro before time action later hhistory
    exact h (op :: before) time action later (by rw [hhistory]; rfl)
  · rintro ⟨hfirst, hrest⟩ before time action later hhistory
    cases before with
    | nil => exact hfirst time action (List.cons.inj hhistory).1
    | cons op' before =>
      obtain ⟨rfl, hrest'⟩ := List.cons.inj hhistory
      exact hrest before time action later hrest'

lemma Reached.perform (h : s.Reached) (op : Operation) : (s.perform op).Reached := by
  cases op with
  | update time action => exact h.updated time action
  | render => exact h.rendered
  | acknowledge => exact h.acknowledged
  | setSimd request => exact h.withSimd request
  | setFsaa level => exact h.withFsaa level
  | setOptions options => exact h.withOptions options
  | nextCamera => exact h.withCamera

lemma Reached.after (h : s.Reached) (history : List Operation) : (s.after history).Reached :=
  after_keeps (fun _ op h => h.perform op) h history

lemma update_eq (s : Scene S) (time : Int) (action : CameraAction) :
    (s.update time action).2 = { s with
      scheduler := (s.update time action).2.scheduler
      state := (s.update time action).2.state } := by
  have hupdates := s.updates time action
  generalize (s.update time action).1 = r at hupdates
  generalize (s.update time action).2 = t at hupdates ⊢
  cases hupdates <;> rfl

omit [Scalar S] in
lemma setSimd_eq (s : Scene S) (request : LaneConfig) :
    (s.setSimd request).2 = { s with
      simd := (s.setSimd request).2.simd
      state := (s.setSimd request).2.state } := by
  unfold setSimd
  split
  · rfl
  · split <;> rfl

/-- **No operation takes memory or gives any back.** -/
lemma after_memory (s : Scene S) (history : List Operation) :
    (s.after history).ledger = s.ledger ∧ (s.after history).allocator = s.allocator := by
  refine after_keeps (P := fun t => t.ledger = s.ledger ∧ t.allocator = s.allocator)
    (fun t op ht => ?_) ⟨rfl, rfl⟩ history
  have hop : (t.perform op).ledger = t.ledger ∧ (t.perform op).allocator = t.allocator := by
    cases op with
    | update time action =>
      dsimp only [perform]
      rw [t.update_eq]
      exact ⟨rfl, rfl⟩
    | render => exact ⟨rfl, rfl⟩
    | acknowledge => exact ⟨rfl, rfl⟩
    | setSimd request =>
      dsimp only [perform]
      rw [t.setSimd_eq]
      exact ⟨rfl, rfl⟩
    | setFsaa level => exact ⟨rfl, rfl⟩
    | setOptions options => exact ⟨rfl, rfl⟩
    | nextCamera => exact ⟨rfl, rfl⟩
  exact ⟨hop.1.trans ht.1, hop.2.trans ht.2⟩

lemma pool_perform (s : Scene S) (op : Operation) :
    (s.perform op).scheduler.pool = s.scheduler.pool := by
  cases op with
  | update time action =>
    exact (update_keeps (P := fun _ => True) trivial (fun _ _ _ _ => trivial)
      (fun _ _ _ _ => trivial) trivial).1
  | render =>
    exact (Scheduler.dispatch_keeps (P := fun _ => True) (fun _ _ => trivial) trivial).1
  | acknowledge => rfl
  | setSimd request =>
    dsimp only [perform]
    rw [s.setSimd_eq]
  | setFsaa level => rfl
  | setOptions options => rfl
  | nextCamera => rfl

lemma pool_after (s : Scene S) (history : List Operation) :
    (s.after history).scheduler.pool = s.scheduler.pool :=
  after_keeps (P := fun t => t.scheduler.pool = s.scheduler.pool)
    (fun t op ht => (t.pool_perform op).trans ht) rfl history

end Scene

end SolidTrace
