import Mathlib.Data.Nat.Find
import SolidTrace.Proofs.Program.Order
import SolidTrace.Proofs.Program.Outcome

/-!
What a relation program means.

The interpreter carries a current target along and changes an outcome step by step. Here a step is
read by itself: `pointed` tells the current target from the steps before it, `Applicable` whether it
can be applied there, and `meaning` collects what the steps say of each position. The current target
may run past the last position; that is found out only where a step aims at it.
-/

namespace SolidTrace.Program

/-- The current target after some steps: each `INDEX_ARRAY` among them names it, or moves it one
on. -/
def pointed (before : List Relation) : Option ℕ :=
  (before.filter (·.op = .indexArray)).foldl
    (fun cursor r => some (if 0 ≤ r.operand then r.operand.toNat else cursor.elim 0 (· + 1))) none

/-- A step can be applied after the steps before it. -/
def Applicable (kinds : List Kind) (before : List Relation) (r : Relation) : Prop :=
  match r.op with
  | .minusOuter | .minusInner => ∃ t p : ℕ, (aim (pointed before) r = some (t : ℤ) ∧
      HasGeometry kinds t) ∧ (r.operand = p ∧ kinds[p]? = some .surface) ∧ p ≠ t
  | .minusAccum => (∃ t : ℕ, aim (pointed before) r = some (t : ℤ) ∧ HasGeometry kinds t) ∧
      (0 ≤ r.operand → ∃ p : ℕ, r.operand = p ∧ kinds[p]? = some .surface)
  | .indexArray => 0 ≤ r.operand → r.operand < kinds.length
  | .boundArray | .untieArray => r.target = -1
  | .boundIndex | .untieIndex => ∃ p : ℕ, tied (pointed before) r = some (p : ℤ) ∧
      HasGeometry kinds p

/-- What is read off the steps one by one, each with the current target before it. -/
def told {α : Type} (f : Option ℕ → Relation → Option α) (steps : List Relation) : List α :=
  steps.zipIdx.filterMap fun (r, i) => f (pointed (steps.take i)) r

/-- The trim that a subtraction puts on its target. -/
def trim? (r : Relation) : Option LocalTrim :=
  match r.op with
  | .minusOuter => some (.outer r.operand.toNat)
  | .minusInner => some (.inner r.operand.toNat)
  | .minusAccum => some (.accum ())
  | _ => none

/-- The position that a step collects. -/
def collected? (r : Relation) : Option ℕ :=
  if r.op = .minusAccum ∧ 0 ≤ r.operand then some r.operand.toNat else none

/-- What a step switches on or off. -/
def switched? (on off : Relation.Op) (r : Relation) : Option Bool :=
  if r.op = on then some true else if r.op = off then some false else none

/-- Of the trims with the collection only the first one is kept. -/
def onceAccum : List LocalTrim → List LocalTrim
  | [] => []
  | .accum () :: l => .accum () :: l.filter (· ≠ .accum ())
  | t :: l => t :: onceAccum l

/-- The trims of a position: those of the subtractions that aim at it. -/
def trimsAt (steps : List Relation) (p : ℕ) : List LocalTrim :=
  onceAccum (told (fun cursor r => if aim cursor r = some (p : ℤ) then trim? r else none) steps)

/-- The positions collected, each where it comes up first. -/
def collection (steps : List Relation) : List ℕ := (steps.filterMap collected?).eraseDups

/-- Whether the last step that says so binds the array. -/
def binds (steps : List Relation) : Bool :=
  (steps.filterMap (switched? .boundArray .untieArray)).getLast?.getD false

/-- Whether the last step that says so ties a position; without one it is tied if it has geometry.
-/
def ties (steps : List Relation) (p : ℕ) (kind : Kind) : Bool :=
  (told (fun cursor r => if tied cursor r = some (p : ℤ) then
    switched? .boundIndex .untieIndex r else none) steps).getLast?.getD kind.hasGeometry

/-- The outcome of a program, read off its steps. -/
def meaning (kinds : List Kind) (steps : List Relation) : Outcome where
  trims := (List.range kinds.length).map (trimsAt steps)
  accumulator := collection steps
  bounded := binds steps
  included := kinds.mapIdx (ties steps)

variable {kinds : List Kind} {before steps : List Relation} {r : Relation}

/-! ### One more step -/

lemma pointed_concat : pointed (before ++ [r]) =
    if r.op = .indexArray then
      some (if 0 ≤ r.operand then r.operand.toNat else (pointed before).elim 0 (· + 1))
    else pointed before := by
  unfold pointed
  by_cases hop : r.op = .indexArray
  · simp [List.filter_append, hop]
  · simp [List.filter_append, hop]

lemma told_concat {α : Type} (f : Option ℕ → Relation → Option α) :
    told f (before ++ [r]) = told f before ++ (f (pointed before) r).toList := by
  have hbefore : before.zipIdx.filterMap (fun (r', i) => f (pointed ((before ++ [r]).take i)) r') =
      told f before := by
    refine List.filterMap_congr fun ⟨r', i⟩ hx => ?_
    have hlt := List.snd_lt_of_mem_zipIdx hx
    simp only
    rw [List.take_append_of_le_length (by omega)]
  unfold told
  rw [List.zipIdx_append, List.filterMap_append, hbefore]
  rcases hf : f (pointed before) r with _ | a <;> simp [hf, told]

/-- A trim of the collection is added where there is none yet, another one in any case. -/
def put (t : LocalTrim) (l : List LocalTrim) : List LocalTrim :=
  if t = .accum () then addOnce t l else l ++ [t]

lemma put_cons (t : LocalTrim) {u : LocalTrim} (hu : u ≠ .accum ()) (l : List LocalTrim) :
    put t (u :: l) = u :: put t l := by
  unfold put addOnce
  split_ifs <;> simp_all

lemma onceAccum_concat (l : List LocalTrim) (t : LocalTrim) :
    onceAccum (l ++ [t]) = put t (onceAccum l) := by
  induction l with
  | nil => cases t <;> rfl
  | cons u l ih =>
    cases u with
    | outer p => exact (congrArg _ ih).trans (put_cons t (fun h => by cases h) _).symm
    | inner p => exact (congrArg _ ih).trans (put_cons t (fun h => by cases h) _).symm
    | accum a =>
      simp only [List.cons_append, onceAccum, List.filter_append]
      by_cases ht : t = .accum ()
      · simp [put, addOnce, ht]
      · simp [put, ht]

lemma eraseDups_concat (l : List ℕ) (p : ℕ) :
    (l ++ [p]).eraseDups = addOnce p l.eraseDups := by
  rw [List.eraseDups_append, addOnce]
  have hsingle : [p].eraseDups = [p] := rfl
  by_cases hp : p ∈ l
  · simp [hp, List.removeAll]
  · simp [hp, List.removeAll, hsingle]

lemma trimsAt_concat (p : ℕ) : trimsAt (before ++ [r]) p =
    if aim (pointed before) r = some (p : ℤ) then
      (trim? r).elim (trimsAt before p) (put · (trimsAt before p))
    else trimsAt before p := by
  unfold trimsAt
  rw [told_concat]
  split
  · rcases trim? r with _ | t
    · simp
    · simp [onceAccum_concat]
  · simp

lemma collection_concat : collection (before ++ [r]) =
    (collected? r).elim (collection before) (addOnce · (collection before)) := by
  unfold collection
  rw [List.filterMap_append]
  rcases hc : collected? r with _ | p
  · simp [hc]
  · simp [hc, eraseDups_concat]

lemma binds_concat : binds (before ++ [r]) =
    (switched? .boundArray .untieArray r).getD (binds before) := by
  unfold binds
  rw [List.filterMap_append]
  rcases hb : switched? .boundArray .untieArray r with _ | b
  · simp [hb]
  · simp [hb]

lemma ties_concat (p : ℕ) (kind : Kind) : ties (before ++ [r]) p kind =
    if tied (pointed before) r = some (p : ℤ) then
      (switched? .boundIndex .untieIndex r).getD (ties before p kind)
    else ties before p kind := by
  unfold ties
  rw [told_concat]
  split
  · rcases switched? .boundIndex .untieIndex r with _ | b
    · simp
    · simp
  · simp

/-! ### Steps -/

lemma trimsAt_of_none (h : trim? r = none) : trimsAt (before ++ [r]) = trimsAt before := by
  funext p
  rw [trimsAt_concat, h]
  exact ite_self _

lemma collection_of_none (h : collected? r = none) :
    collection (before ++ [r]) = collection before := by
  rw [collection_concat, h]
  rfl

lemma binds_of_none (h : switched? .boundArray .untieArray r = none) :
    binds (before ++ [r]) = binds before := by
  rw [binds_concat, h]
  rfl

lemma ties_of_none (h : switched? .boundIndex .untieIndex r = none) :
    ties (before ++ [r]) = ties before := by
  funext p kind
  rw [ties_concat, h]
  exact ite_self _

lemma trims_of_some {t : ℕ} {x : LocalTrim} (ht : aim (pointed before) r = some (t : ℤ))
    (hx : trim? r = some x) : (List.range kinds.length).map (trimsAt (before ++ [r])) =
      ((List.range kinds.length).map (trimsAt before)).modify t (put x) := by
  refine List.ext_getElem (by simp) fun p hp _ => ?_
  simp only [List.getElem_map, List.getElem_range, List.getElem_modify, trimsAt_concat, ht, hx,
    Option.some.injEq, Int.natCast_inj, Option.elim_some]

lemma included_of_some {p : ℕ} {b : Bool} (hp : tied (pointed before) r = some (p : ℤ))
    (hb : switched? .boundIndex .untieIndex r = some b) : kinds.mapIdx (ties (before ++ [r])) =
      (kinds.mapIdx (ties before)).set p b := by
  refine List.ext_getElem (by simp) fun q hq _ => ?_
  simp only [List.getElem_mapIdx, List.getElem_set, ties_concat, hp, hb, Option.some.injEq,
    Int.natCast_inj, Option.getD_some]

lemma step_cut {t p : ℕ} (ht : aim (pointed before) r = some (t : ℤ) ∧ HasGeometry kinds t)
    (hp : r.operand = p ∧ kinds[p]? = some .surface) (hne : p ≠ t) {trim : ℕ → LocalTrim}
    (htrim : ∀ p, trim p ≠ .accum ()) (hx : trim? r = some (trim p)) (hc : collected? r = none)
    (hb : switched? .boundArray .untieArray r = none)
    (hi : switched? .boundIndex .untieIndex r = none) :
    (effect.cutting kinds (pointed before) r trim htrim).map
        (·.apply ⟨pointed before, meaning kinds before⟩) =
      .ok ⟨pointed before, meaning kinds (before ++ [r])⟩ := by
  have heffect : effect.cutting kinds (pointed before) r trim htrim =
      .ok (.cut t (trim p) (htrim p)) := by
    unfold effect.cutting
    rw [target_eq_ok.mpr ht, surfaceOperand_eq_ok.mpr hp]
    exact if_neg hne
  have hput : put (trim p) = (· ++ [trim p]) := funext fun l => if_neg (htrim p)
  rw [heffect, meaning, meaning, collection_of_none hc, binds_of_none hb, ties_of_none hi,
    trims_of_some ht.1 hx, hput]
  rfl

lemma step_gather (hop : r.op = .minusAccum) {t : ℕ}
    (ht : aim (pointed before) r = some (t : ℤ) ∧ HasGeometry kinds t)
    (hoperand : 0 ≤ r.operand → ∃ p : ℕ, r.operand = p ∧ kinds[p]? = some .surface) :
    (effect kinds (pointed before) r).map (·.apply ⟨pointed before, meaning kinds before⟩) =
      .ok ⟨pointed before, meaning kinds (before ++ [r])⟩ := by
  have hcollected : optionalOperand kinds r = .ok (collected? r) := by
    rw [optionalOperand_eq_ok]
    refine ⟨fun hr => ?_, fun hr => by simp [collected?, hop, hr]⟩
    obtain ⟨p, hp⟩ := hoperand hr
    exact ⟨p, by simp [collected?, hop, hp.1], hp⟩
  have heffect : effect kinds (pointed before) r = .ok (.gather t (collected? r)) := by
    simp only [effect, hop, target_eq_ok.mpr ht, hcollected]
    rfl
  rw [heffect, meaning, meaning, collection_concat, binds_of_none (by simp [switched?, hop]),
    ties_of_none (by simp [switched?, hop]),
    trims_of_some ht.1 (x := .accum ()) (by simp [trim?, hop])]
  rcases collected? r with _ | p
  · rfl
  · rfl

lemma step_point (hop : r.op = .indexArray) (h : 0 ≤ r.operand → r.operand < kinds.length) :
    (effect kinds (pointed before) r).map (·.apply ⟨pointed before, meaning kinds before⟩) =
      .ok ⟨pointed (before ++ [r]), meaning kinds (before ++ [r])⟩ := by
  have heffect : effect kinds (pointed before) r = .ok (.point
      (if 0 ≤ r.operand then r.operand.toNat else (pointed before).elim 0 (· + 1))) := by
    simp only [effect, hop]
    split_ifs with hr
    · obtain ⟨p, hp⟩ := Int.eq_ofNat_of_zero_le hr
      have hlt : p < kinds.length := by
        have := h hr
        omega
      rw [element_eq_ok.mpr ⟨hp, List.getElem?_eq_getElem hlt⟩, hp]
      rfl
    · rfl
  rw [heffect, pointed_concat, if_pos hop, meaning, meaning, trimsAt_of_none (by simp [trim?, hop]),
    collection_of_none (by simp [collected?, hop]), binds_of_none (by simp [switched?, hop]),
    ties_of_none (by simp [switched?, hop])]
  rfl

lemma step_bound {b : Bool} (h : r.target = -1) (hx : trim? r = none) (hc : collected? r = none)
    (hb : switched? .boundArray .untieArray r = some b)
    (hi : switched? .boundIndex .untieIndex r = none) :
    (effect.bounding r b).map (·.apply ⟨pointed before, meaning kinds before⟩) =
      .ok ⟨pointed before, meaning kinds (before ++ [r])⟩ := by
  rw [effect.bounding, if_pos h, meaning, meaning, trimsAt_of_none hx, collection_of_none hc,
    ties_of_none hi, binds_concat, hb]
  rfl

lemma step_count {p : ℕ} {b : Bool}
    (hp : tied (pointed before) r = some (p : ℤ) ∧ HasGeometry kinds p) (hx : trim? r = none)
    (hc : collected? r = none) (hb : switched? .boundArray .untieArray r = none)
    (hi : switched? .boundIndex .untieIndex r = some b) :
    (effect.counting kinds (pointed before) r b).map
        (·.apply ⟨pointed before, meaning kinds before⟩) =
      .ok ⟨pointed before, meaning kinds (before ++ [r])⟩ := by
  rw [effect.counting, boundElement_eq_ok.mpr hp, meaning, meaning, trimsAt_of_none hx,
    collection_of_none hc, binds_of_none hb, included_of_some hp.1 hi]
  rfl

/-- **A step that can be applied adds its own to the meaning.** -/
lemma step_applicable (h : Applicable kinds before r) :
    step kinds ⟨pointed before, meaning kinds before⟩ r =
      .ok ⟨pointed (before ++ [r]), meaning kinds (before ++ [r])⟩ := by
  have hstill (hne : r.op ≠ .indexArray) : pointed (before ++ [r]) = pointed before :=
    pointed_concat.trans (if_neg hne)
  rw [step_eq]
  unfold Applicable at h
  rcases hop : r.op with _ | _ | _ | _ | _ | _ | _ | _
  case minusAccum =>
    simp only [hop] at h
    obtain ⟨⟨t, ht⟩, hoperand⟩ := h
    rw [hstill (by simp [hop])]
    exact step_gather hop ht hoperand
  case indexArray =>
    simp only [hop] at h
    exact step_point hop h
  all_goals
    simp only [hop] at h
    rw [hstill (by simp [hop])]
    simp only [effect, hop]
  case minusOuter =>
    obtain ⟨t, p, ht, hp, hne⟩ := h
    exact step_cut ht hp hne _ (by simp [trim?, hop, hp.1]) (by simp [collected?, hop])
      (by simp [switched?, hop]) (by simp [switched?, hop])
  case minusInner =>
    obtain ⟨t, p, ht, hp, hne⟩ := h
    exact step_cut ht hp hne _ (by simp [trim?, hop, hp.1]) (by simp [collected?, hop])
      (by simp [switched?, hop]) (by simp [switched?, hop])
  case boundArray =>
    exact step_bound h (by simp [trim?, hop]) (by simp [collected?, hop])
      (by simp [switched?, hop]) (by simp [switched?, hop])
  case untieArray =>
    exact step_bound h (by simp [trim?, hop]) (by simp [collected?, hop])
      (by simp [switched?, hop]) (by simp [switched?, hop])
  case boundIndex =>
    obtain ⟨p, hp⟩ := h
    exact step_count hp (by simp [trim?, hop]) (by simp [collected?, hop])
      (by simp [switched?, hop]) (by simp [switched?, hop])
  case untieIndex =>
    obtain ⟨p, hp⟩ := h
    exact step_count hp (by simp [trim?, hop]) (by simp [collected?, hop])
      (by simp [switched?, hop]) (by simp [switched?, hop])

lemma applicable_of_cutting {trim : ℕ → LocalTrim} {htrim : ∀ p, trim p ≠ .accum ()} {e : Effect}
    (h : effect.cutting kinds (pointed before) r trim htrim = .ok e) :
    ∃ t p : ℕ, (aim (pointed before) r = some (t : ℤ) ∧ HasGeometry kinds t) ∧
      (r.operand = p ∧ kinds[p]? = some .surface) ∧ p ≠ t := by
  unfold effect.cutting at h
  rcases ht : target kinds (pointed before) r with cause | t
  · rw [ht] at h
    cases h
  rcases hp : surfaceOperand kinds r with cause | p
  · rw [ht, hp] at h
    cases h
  refine ⟨t, p, target_eq_ok.mp ht, surfaceOperand_eq_ok.mp hp, fun heq => ?_⟩
  rw [ht, hp] at h
  simp [bind, Except.bind, heq] at h

lemma applicable_of_bounding {b : Bool} {e : Effect} (h : effect.bounding r b = .ok e) :
    r.target = -1 := by
  unfold effect.bounding at h
  split at h
  · assumption
  · cases h

lemma applicable_of_counting {b : Bool} {e : Effect}
    (h : effect.counting kinds (pointed before) r b = .ok e) :
    ∃ p : ℕ, tied (pointed before) r = some (p : ℤ) ∧ HasGeometry kinds p := by
  unfold effect.counting at h
  rcases hp : boundElement kinds (pointed before) r with cause | p
  · rw [hp] at h
    cases h
  · exact ⟨p, boundElement_eq_ok.mp hp⟩

lemma applicable_of_effect {e : Effect} (h : effect kinds (pointed before) r = .ok e) :
    Applicable kinds before r := by
  unfold effect at h
  unfold Applicable
  rcases hop : r.op with _ | _ | _ | _ | _ | _ | _ | _
  all_goals simp only [hop] at h ⊢
  case minusOuter => exact applicable_of_cutting h
  case minusInner => exact applicable_of_cutting h
  case minusAccum =>
    rcases ht : target kinds (pointed before) r with cause | t
    · rw [ht] at h
      cases h
    rcases hp : optionalOperand kinds r with cause | operand
    · rw [ht, hp] at h
      cases h
    refine ⟨⟨t, target_eq_ok.mp ht⟩, fun hr => ?_⟩
    obtain ⟨p, -, hp⟩ := (optionalOperand_eq_ok.mp hp).1 hr
    exact ⟨p, hp⟩
  case indexArray =>
    intro hr
    rw [if_pos hr] at h
    rcases hp : element kinds .operand r.operand with cause | ⟨p, kind⟩
    · rw [hp] at h
      cases h
    · obtain ⟨heq, hk⟩ := element_eq_ok.mp hp
      have := (List.getElem?_eq_some_iff.mp hk).1
      omega
  case boundArray => exact applicable_of_bounding h
  case untieArray => exact applicable_of_bounding h
  case boundIndex => exact applicable_of_counting h
  case untieIndex => exact applicable_of_counting h

/-- **A step that cannot be applied fails.** -/
lemma step_of_not_applicable (h : ¬Applicable kinds before r) :
    ∃ cause, step kinds ⟨pointed before, meaning kinds before⟩ r = .error cause := by
  rw [step_eq]
  rcases he : effect kinds (pointed before) r with cause | e
  · exact ⟨cause, rfl⟩
  · exact absurd (applicable_of_effect he) h

/-! ### Programs -/

lemma init_eq (kinds : List Kind) : init kinds = ⟨pointed [], meaning kinds []⟩ := by
  have htrims : kinds.map (fun _ => ([] : List LocalTrim)) =
      (List.range kinds.length).map (trimsAt []) :=
    List.ext_getElem (by simp) fun p _ _ => by simp [trimsAt, told, onceAccum]
  have hincluded : kinds.map Kind.hasGeometry = kinds.mapIdx (ties []) :=
    List.ext_getElem (by simp) fun p _ _ => by simp [ties, told]
  rw [init, htrims, hincluded]
  rfl

/-- A step of a program can be applied after the ones before it. -/
def CanApply (kinds : List Kind) (steps : List Relation) (i : ℕ) : Prop :=
  ∀ r, steps[i]? = some r → Applicable kinds (steps.take i) r

/-- As long as steps can be applied, a run is at the meaning of those behind it. -/
lemma runFrom_take {n : ℕ} (hn : n ≤ steps.length) (h : ∀ i < n, CanApply kinds steps i) :
    runFrom kinds (init kinds) 0 steps =
      runFrom kinds ⟨pointed (steps.take n), meaning kinds (steps.take n)⟩ n (steps.drop n) := by
  induction n with
  | zero => rw [init_eq, List.take_zero, List.drop_zero]
  | succ n ih =>
    have hget : steps[n]? = some steps[n] := List.getElem?_eq_getElem hn
    have hstep := step_applicable (h n (by omega) _ hget)
    rw [ih (by omega) fun i hi => h i (by omega), List.drop_eq_getElem_cons hn, runFrom, hstep,
      List.take_append_getElem]

/-- **What a relation program means.** It has an outcome exactly when each of its steps can be
applied, and then it is the one that is read off the steps; otherwise it fails, and names the first
step that cannot be applied. -/
theorem run_means (kinds : List Kind) (steps : List Relation) :
    (∀ outcome, run kinds steps = .ok outcome ↔
      (∀ i, CanApply kinds steps i) ∧ outcome = meaning kinds steps) ∧
    ∀ i, (∃ cause, run kinds steps = .error (i, cause)) ↔
      (∀ j < i, CanApply kinds steps j) ∧ ¬CanApply kinds steps i := by
  have hok : (∀ i, CanApply kinds steps i) → run kinds steps = .ok (meaning kinds steps) := by
    intro h
    rw [run, runFrom_take le_rfl fun i _ => h i, List.drop_length, List.take_length]
    rfl
  have herror : ∀ i, (∀ j < i, CanApply kinds steps j) → ¬CanApply kinds steps i →
      ∃ cause, run kinds steps = .error (i, cause) := by
    intro i hbefore h
    obtain ⟨r, hr, hnot⟩ : ∃ r, steps[i]? = some r ∧ ¬Applicable kinds (steps.take i) r := by
      simpa [CanApply] using h
    obtain ⟨hi, rfl⟩ := List.getElem?_eq_some_iff.mp hr
    obtain ⟨cause, hcause⟩ := step_of_not_applicable hnot
    refine ⟨cause, ?_⟩
    rw [run, runFrom_take (Nat.le_of_lt hi) hbefore, List.drop_eq_getElem_cons hi, runFrom, hcause]
    rfl
  -- where not all steps can be applied, there is a first one that cannot
  have hfirst : (∀ i, CanApply kinds steps i) ∨
      ∃ i, (∀ j < i, CanApply kinds steps j) ∧ ¬CanApply kinds steps i := by
    by_cases h : ∀ i, CanApply kinds steps i
    · exact Or.inl h
    · classical
      rw [not_forall] at h
      exact Or.inr ⟨Nat.find h, fun j hj => not_not.mp (Nat.find_min h hj), Nat.find_spec h⟩
  refine ⟨fun outcome => ⟨fun h => ?_, ?_⟩, fun i => ⟨?_, fun h => herror i h.1 h.2⟩⟩
  · rcases hfirst with hall | ⟨i, hbefore, hnot⟩
    · exact ⟨hall, Except.ok.inj (h.symm.trans (hok hall))⟩
    · obtain ⟨cause, hcause⟩ := herror i hbefore hnot
      cases h.symm.trans hcause
  · rintro ⟨hall, rfl⟩
    exact hok hall
  · rintro ⟨cause, h⟩
    rcases hfirst with hall | ⟨k, hbefore, hnot⟩
    · cases h.symm.trans (hok hall)
    · obtain ⟨cause', hcause⟩ := herror k hbefore hnot
      cases h.symm.trans hcause
      exact ⟨hbefore, hnot⟩

end SolidTrace.Program
