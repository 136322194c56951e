import Mathlib.Data.Nat.Basic
import Mathlib.Tactic.Common
import SolidTrace.Program

/-!
What holds of the outcome of every program.

`Applies` lists what one step can do. From it follows that a step keeps `Outcome.Fits`, and from
that that a run does: trims and accumulator name surfaces, no position is cut by itself, none is
collected twice, and only what has geometry counts for the volume.
-/

namespace SolidTrace.Program

/-! ### Positions -/

/-- There is an element at a position, and it has geometry. -/
def HasGeometry (kinds : List Kind) (p : ℕ) : Prop :=
  ∃ kind, kinds[p]? = some kind ∧ kind.hasGeometry = true

/-- The position that a step aims at: the one it names, or for `-1` the current target. -/
def aim (cursor : Option ℕ) (r : Relation) : Option ℤ :=
  if r.target = -1 then cursor.map Int.ofNat else some r.target

/-- The position that a step ties to the volume or unties from it: its operand, or for a negative
one where it aims at. -/
def tied (cursor : Option ℕ) (r : Relation) : Option ℤ :=
  if 0 ≤ r.operand then some r.operand else aim cursor r

section

variable {kinds : List Kind} {cursor : Option ℕ} {r : Relation} {p : ℕ}

lemma element_eq_ok {role : Role} {position : ℤ} {kind : Kind} :
    element kinds role position = .ok (p, kind) ↔ position = p ∧ kinds[p]? = some kind := by
  unfold element
  constructor
  · intro h
    split at h
    · cases h
    · split at h
      · cases h
      · next hk =>
        cases h
        exact ⟨by omega, hk⟩
  · rintro ⟨rfl, hk⟩
    simp [hk]

lemma element_checked (role : Role) (position : ℤ) (asked : Kind → Prop) [DecidablePred asked]
    (cause : ℕ → Cause) :
    (do let (q, kind) ← element kinds role position
        if asked kind then return q else throw (cause q) : Except Cause ℕ) = .ok p ↔
      position = p ∧ ∃ kind, kinds[p]? = some kind ∧ asked kind := by
  rcases he : element kinds role position with e | ⟨q, kind⟩
  · refine iff_of_false nofun ?_
    rintro ⟨hp, kind, hk, -⟩
    cases he.symm.trans (element_eq_ok.mpr ⟨hp, hk⟩)
  · obtain ⟨rfl, hk⟩ := element_eq_ok.mp he
    have hmatch : (if asked kind then .ok q else .error (cause q) : Except Cause ℕ) = .ok p ↔
        asked kind ∧ q = p := by
      split
      · next h => simp [h]
      · next h => simp [h]
    refine hmatch.trans ?_
    constructor
    · rintro ⟨hasked, rfl⟩
      exact ⟨rfl, kind, hk, hasked⟩
    · rintro ⟨hq, kind', hk', hasked⟩
      obtain rfl := Int.ofNat_inj.mp hq
      obtain rfl := Option.some.inj (hk.symm.trans hk')
      exact ⟨hasked, rfl⟩

lemma surfaceOperand_eq_ok : surfaceOperand kinds r = .ok p ↔
    r.operand = p ∧ kinds[p]? = some .surface := by
  refine (element_checked .operand r.operand (· = .surface) .operandNotSurface).trans ?_
  simp

lemma target_eq_ok : target kinds cursor r = .ok p ↔
    aim cursor r = some (p : ℤ) ∧ HasGeometry kinds p := by
  have hchecked := fun position => @element_checked kinds p .target position
    (·.hasGeometry = true) _ .targetWithoutGeometry
  unfold target aim
  split
  · rcases cursor with _ | c
    · exact iff_of_false nofun nofun
    · exact (hchecked c).trans (and_congr_left' Option.some_inj.symm)
  · exact (hchecked r.target).trans (and_congr_left' Option.some_inj.symm)

lemma optionalOperand_eq_ok {operand : Option ℕ} : optionalOperand kinds r = .ok operand ↔
    (0 ≤ r.operand → ∃ p : ℕ, operand = some p ∧ r.operand = p ∧ kinds[p]? = some .surface) ∧
      (r.operand < 0 → operand = none) := by
  unfold optionalOperand
  split
  · next hr =>
    rcases hs : surfaceOperand kinds r with cause | p
    · refine iff_of_false nofun fun h => ?_
      obtain ⟨p, -, hp⟩ := h.1 hr
      cases hs.symm.trans (surfaceOperand_eq_ok.mpr hp)
    · have hp := surfaceOperand_eq_ok.mp hs
      constructor
      · intro h
        exact ⟨fun _ => ⟨p, (Except.ok.inj h).symm, hp⟩, fun hlt => by omega⟩
      · intro h
        obtain ⟨q, rfl, hq⟩ := h.1 hr
        obtain rfl := Except.ok.inj (hs.symm.trans (surfaceOperand_eq_ok.mpr hq))
        rfl
  · next hr =>
    refine ⟨fun h => ⟨fun hle => absurd hle hr, fun _ => (Except.ok.inj h).symm⟩, fun h => ?_⟩
    rw [h.2 (by omega)]

lemma boundElement_eq_ok : boundElement kinds cursor r = .ok p ↔
    tied cursor r = some (p : ℤ) ∧ HasGeometry kinds p := by
  have hchecked := fun role position => @element_checked kinds p role position
    (·.hasGeometry = true) _ .elementWithoutBounds
  unfold boundElement tied
  split
  · exact (hchecked .operand r.operand).trans (and_congr_left' Option.some_inj.symm)
  · rcases ht : target kinds cursor r with cause | t
    · refine iff_of_false nofun fun h => ?_
      cases ht.symm.trans (target_eq_ok.mpr h)
    · obtain ⟨haim, hgeometry⟩ := target_eq_ok.mp ht
      rw [haim]
      exact (hchecked .target t).trans (and_congr_left' Option.some_inj.symm)

lemma surface_of_optionalOperand {operand : Option ℕ}
    (h : optionalOperand kinds r = .ok operand) (hp : operand = some p) :
    kinds[p]? = some .surface := by
  obtain ⟨hnonneg, hneg⟩ := optionalOperand_eq_ok.mp h
  by_cases hr : 0 ≤ r.operand
  · obtain ⟨q, hq, -, hsurface⟩ := hnonneg hr
    obtain rfl := Option.some.inj (hq.symm.trans hp)
    exact hsurface
  · cases (hneg (by omega)).symm.trans hp

end

/-! ### Steps -/

/-- What a step that succeeds does. -/
inductive Applies (kinds : List Kind) (s : State) (r : Relation) : State → Prop
  | minus {t operand : ℕ} {trim : LocalTrim}
      (target : target kinds s.cursor r = .ok t) (surface : surfaceOperand kinds r = .ok operand)
      (other : operand ≠ t)
      (op : r.op = .minusOuter ∧ trim = .outer operand ∨
        r.op = .minusInner ∧ trim = .inner operand) :
      Applies kinds s r { s with outcome := s.outcome.addTrim t trim }
  | accum {t : ℕ} {operand : Option ℕ} (op : r.op = .minusAccum)
      (target : target kinds s.cursor r = .ok t) (surface : optionalOperand kinds r = .ok operand) :
      Applies kinds s r { s with
        outcome := (s.outcome.collect operand).addTrimOnce t (.accum ()) }
  | index {cursor : ℕ} (op : r.op = .indexArray) :
      Applies kinds s r { s with cursor := some cursor }
  | bounded {b : Bool} (op : r.op = if b then .boundArray else .untieArray) :
      Applies kinds s r { s with outcome := { s.outcome with bounded := b } }
  | included {p : ℕ} {b : Bool} (op : r.op = if b then .boundIndex else .untieIndex)
      (element : boundElement kinds s.cursor r = .ok p) :
      Applies kinds s r { s with
        outcome := { s.outcome with included := s.outcome.included.set p b } }

variable {kinds : List Kind} {s s' : State} {r : Relation}

lemma applies_of_minus {make : ℕ → LocalTrim} (h : minus kinds s r make = .ok s')
    (hop : r.op = .minusOuter ∧ make = .outer ∨ r.op = .minusInner ∧ make = .inner) :
    Applies kinds s r s' := by
  unfold minus at h
  rcases ht : target kinds s.cursor r with cause | t
  · rw [ht] at h
    cases h
  rcases ho : surfaceOperand kinds r with cause | operand
  · rw [ht, ho] at h
    cases h
  rw [ht, ho] at h
  simp only [bind, Except.bind, pure, Except.pure] at h
  split at h
  · cases h
  · next hne =>
    cases h
    refine .minus ht ho hne ?_
    rcases hop with ⟨hop, rfl⟩ | ⟨hop, rfl⟩
    · exact Or.inl ⟨hop, rfl⟩
    · exact Or.inr ⟨hop, rfl⟩

lemma applies_of_setBounded {b : Bool} (h : step.setBounded s r b = .ok s')
    (hop : r.op = if b then .boundArray else .untieArray) : Applies kinds s r s' := by
  unfold step.setBounded at h
  split at h
  · cases h
    exact .bounded hop
  · cases h

lemma applies_of_setIncluded {b : Bool} (h : step.setIncluded kinds s r b = .ok s')
    (hop : r.op = if b then .boundIndex else .untieIndex) : Applies kinds s r s' := by
  unfold step.setIncluded at h
  rcases hp : boundElement kinds s.cursor r with cause | p
  · rw [hp] at h
    cases h
  · rw [hp] at h
    cases h
    exact .included hop hp

lemma step_applies (h : step kinds s r = .ok s') : Applies kinds s r s' := by
  unfold step at h
  rcases hop : r.op with _ | _ | _ | _ | _ | _ | _ | _
  all_goals simp only [hop] at h
  case minusOuter => exact applies_of_minus h (Or.inl ⟨hop, rfl⟩)
  case minusInner => exact applies_of_minus h (Or.inr ⟨hop, rfl⟩)
  case minusAccum =>
    rcases ht : target kinds s.cursor r with cause | t
    · rw [ht] at h
      cases h
    rcases ho : optionalOperand kinds r with cause | operand
    · rw [ht, ho] at h
      cases h
    rw [ht, ho] at h
    cases h
    exact .accum hop ht ho
  case indexArray =>
    split at h
    · rcases he : element kinds .operand r.operand with cause | ⟨p, kind⟩
      · rw [he] at h
        cases h
      · rw [he] at h
        cases h
        exact .index hop
    · cases h
      exact .index hop
  case boundArray => exact applies_of_setBounded h hop
  case untieArray => exact applies_of_setBounded h hop
  case boundIndex => exact applies_of_setIncluded h hop
  case untieIndex => exact applies_of_setIncluded h hop

lemma runFrom_keeps {P : State → Prop}
    (hstep : ∀ s r s', Applies kinds s r s' → P s → P s') {index : ℕ} {relations : List Relation}
    (h : runFrom kinds s index relations = .ok s') (hs : P s) : P s' := by
  induction relations generalizing s index with
  | nil =>
    cases h
    exact hs
  | cons r rest ih =>
    unfold runFrom at h
    rcases hr : step kinds s r with cause | s₁
    · simp only [hr] at h
      cases h
    · simp only [hr] at h
      exact ih h (hstep s r s₁ (step_applies hr) hs)

/-! ### Outcomes -/

def operand? : LocalTrim → Option ℕ
  | .outer p | .inner p => some p
  | .accum () => none

/-- The outcome fits elements of the given kinds. -/
structure Outcome.Fits (kinds : List Kind) (o : Outcome) : Prop where
  trims_length : o.trims.length = kinds.length
  included_length : o.included.length = kinds.length
  operand : ∀ (p : ℕ) (l : List LocalTrim) (t : LocalTrim) (q : ℕ), o.trims[p]? = some l → t ∈ l →
    operand? t = some q → kinds[q]? = some .surface ∧ q ≠ p
  accumulator : ∀ q ∈ o.accumulator, kinds[q]? = some .surface
  nodup : o.accumulator.Nodup
  geometry : ∀ q : ℕ, o.included[q]? = some true → ∃ kind : Kind, kinds[q]? = some kind ∧
    kind.hasGeometry = true

namespace Outcome

variable {o : Outcome} {t : LocalTrim} {target : ℕ}

/-- Trims of one position may be changed, as long as what is new there names other surfaces. -/
lemma Fits.modify (h : o.Fits kinds) {f : List LocalTrim → List LocalTrim}
    (hf : ∀ l t q, t ∈ f l → operand? t = some q →
      t ∈ l ∨ kinds[q]? = some .surface ∧ q ≠ target) :
    Fits kinds { o with trims := o.trims.modify target f } where
  trims_length := by simpa using h.trims_length
  included_length := h.included_length
  operand p l t q hp ht hq := by
    rw [List.getElem?_modify, Option.map_eq_map, Option.map_eq_some_iff] at hp
    obtain ⟨l', hp, rfl⟩ := hp
    split at ht
    · next heq =>
      subst heq
      rcases hf l' t q ht hq with hmem | hnew
      · exact h.operand _ _ t q hp hmem hq
      · exact hnew
    · exact h.operand _ _ t q hp ht hq
  accumulator := h.accumulator
  nodup := h.nodup
  geometry := h.geometry

lemma Fits.collect (h : o.Fits kinds) {operand : Option ℕ}
    (ho : ∀ p, operand = some p → kinds[p]? = some .surface) : (o.collect operand).Fits kinds := by
  rcases operand with _ | p
  · exact h
  · refine ⟨h.trims_length, h.included_length, h.operand, fun q hq => ?_, ?_, h.geometry⟩
    · simp only [Outcome.collect] at hq
      split at hq
      · exact h.accumulator q hq
      · rcases List.mem_append.mp hq with hq | hq
        · exact h.accumulator q hq
        · exact ho q (by rw [List.mem_singleton.mp hq])
    · simp only [Outcome.collect]
      split
      · exact h.nodup
      · next hp =>
        refine List.nodup_append.mpr ⟨h.nodup, by simp, fun q hq q' hq' heq => hp ?_⟩
        rwa [heq, List.mem_singleton.mp hq'] at hq

lemma Fits.step (h : s.outcome.Fits kinds) (hs : Applies kinds s r s') : s'.outcome.Fits kinds := by
  cases hs with
  | @minus t operand trim target surface other op =>
    refine h.modify fun l t q ht hq => ?_
    rcases List.mem_append.mp ht with ht | ht
    · exact Or.inl ht
    · obtain rfl := List.mem_singleton.mp ht
      obtain rfl : operand = q := by
        rcases op with ⟨-, rfl⟩ | ⟨-, rfl⟩ <;> exact Option.some.inj hq
      exact Or.inr ⟨(surfaceOperand_eq_ok.mp surface).2, other⟩
  | accum op target surface =>
    refine (h.collect fun p hp => surface_of_optionalOperand surface hp).modify
      fun l t q ht hq => ?_
    split at ht
    · exact Or.inl ht
    · rcases List.mem_append.mp ht with ht | ht
      · exact Or.inl ht
      · rw [List.mem_singleton.mp ht] at hq
        cases hq
  | index => exact h
  | bounded =>
    exact ⟨h.trims_length, h.included_length, h.operand, h.accumulator, h.nodup, h.geometry⟩
  | @included p b op element =>
    refine ⟨h.trims_length, by simpa using h.included_length, h.operand, h.accumulator, h.nodup,
      fun q hq => ?_⟩
    by_cases hpq : p = q
    · exact hpq ▸ (boundElement_eq_ok.mp element).2
    · rw [List.getElem?_set_ne hpq] at hq
      exact h.geometry q hq

lemma fits_init (kinds : List Kind) : (init kinds).outcome.Fits kinds where
  trims_length := by simp [init]
  included_length := by simp [init]
  operand p l t q hp ht _ := by
    simp only [init, List.getElem?_map, Option.map_eq_some_iff] at hp
    obtain ⟨kind, -, rfl⟩ := hp
    cases ht
  accumulator q hq := by cases hq
  nodup := List.nodup_nil
  geometry q hq := by
    simp only [init, List.getElem?_map, Option.map_eq_some_iff] at hq
    exact hq

end Outcome

/-- **Outcomes fit.** Trims and accumulator name surfaces, no position is cut by itself, none is
collected twice, and only what has geometry counts for the volume. -/
theorem run_fits {relations : List Relation} {o : Outcome} (h : run kinds relations = .ok o) :
    o.Fits kinds := by
  unfold run at h
  rcases hr : runFrom kinds (init kinds) 0 relations with failure | s
  · rw [hr] at h
    cases h
  · rw [hr] at h
    cases h
    exact runFrom_keeps (P := fun s => s.outcome.Fits kinds) (fun s r s' hs hf => hf.step hs) hr
      (Outcome.fits_init kinds)

end SolidTrace.Program
