import Mathlib.Data.List.Forall2
import Mathlib.Data.List.Perm.Basic
import SolidTrace.Program
import SolidTrace.Proofs.Lookup

/-!
Subtractions in any order.

A step that subtracts from a target that it names does not look at the current target, and does not
change it. So what such a step does can be told beforehand: `effect`. Effects of subtractions
commute with all others, but for the order in which trims and collected positions are listed. A
program is therefore as good as the one in which all other steps come first, and the subtractions
after them in any order.
-/

namespace SolidTrace

open scoped List

/-- Whether a step cuts something away from a target that it names. -/
def Relation.subtracts (r : Relation) : Bool :=
  match r.op with
  | .minusOuter | .minusInner | .minusAccum => decide (0 ≤ r.target)
  | _ => false

/-- Two results, so related, or two errors. -/
inductive Agree {ε α β : Type} (R : α → β → Prop) : Except ε α → Except ε β → Prop
  | ok {a : α} {b : β} (h : R a b) : Agree R (.ok a) (.ok b)
  | error {e e' : ε} : Agree R (.error e) (.error e')

namespace Agree

variable {ε α β : Type} {R : α → α → Prop}

lemma symm (hR : ∀ a b, R a b → R b a) {x y : Except ε α} (h : Agree R x y) : Agree R y x := by
  cases h with
  | ok h => exact .ok (hR _ _ h)
  | error => exact .error

lemma trans (hR : ∀ a b c, R a b → R b c → R a c) {x y z : Except ε α} (h : Agree R x y)
    (h' : Agree R y z) : Agree R x z := by
  cases h with
  | ok h =>
    cases h' with
    | ok h' => exact .ok (hR _ _ _ h h')
  | error =>
    cases h' with
    | error => exact .error

end Agree

/-! ### Lists of lists -/

section

variable {α : Type} {R : α → α → Prop} {f g : α → α}

lemma forall₂_modify (h : ∀ a b, R a b → R (f a) (g b)) {l l' : List α} (hl : List.Forall₂ R l l')
    (i : ℕ) : List.Forall₂ R (l.modify i f) (l'.modify i g) := by
  induction hl generalizing i with
  | nil => simp
  | cons ha hl ih =>
    cases i with
    | zero => exact .cons (h _ _ ha) hl
    | succ i => exact .cons ha (ih i)

lemma forall₂_trans (hR : ∀ a b c, R a b → R b c → R a c) {l m n : List α}
    (h : List.Forall₂ R l m) (h' : List.Forall₂ R m n) : List.Forall₂ R l n := by
  induction h generalizing n with
  | nil => exact h'
  | cons ha h ih =>
    cases h' with
    | cons ha' h' => exact .cons (hR _ _ _ ha ha') (ih h')

lemma modify_comm (hR : ∀ a, R a a) (h : ∀ a, R (g (f a)) (f (g a))) (l : List α) (i j : ℕ) :
    List.Forall₂ R ((l.modify i f).modify j g) ((l.modify j g).modify i f) := by
  have hsame : ∀ l : List α, List.Forall₂ R l l := fun l => List.forall₂_same.mpr fun a _ => hR a
  induction l generalizing i j with
  | nil => simp
  | cons a l ih =>
    cases i with
    | zero =>
      cases j with
      | zero => exact .cons (h a) (hsame l)
      | succ j => exact .cons (hR _) (hsame _)
    | succ i =>
      cases j with
      | zero => exact .cons (hR _) (hsame _)
      | succ j => exact .cons (hR a) (ih i j)

variable [DecidableEq α]

/-- Adds a member at the end, where it is not there yet. -/
def addOnce (t : α) (l : List α) : List α := if t ∈ l then l else l ++ [t]

lemma addOnce_perm (t : α) (l : List α) : addOnce t l ~ l.insert t := by
  unfold addOnce
  split
  · next h => rw [List.insert_of_mem h]
  · next h =>
    rw [List.insert_of_not_mem h]
    exact List.perm_append_singleton t l

lemma addOnce_congr (t : α) {l l' : List α} (h : l ~ l') : addOnce t l ~ addOnce t l' :=
  (addOnce_perm t l).trans ((h.insert t).trans (addOnce_perm t l').symm)

lemma addOnce_comm (t u : α) (l : List α) :
    addOnce u (addOnce t l) ~ addOnce t (addOnce u l) :=
  calc addOnce u (addOnce t l)
      ~ (addOnce t l).insert u := addOnce_perm u _
    _ ~ (l.insert t).insert u := (addOnce_perm t l).insert u
    _ ~ (l.insert u).insert t := List.perm_insert_swap u t l
    _ ~ (addOnce u l).insert t := ((addOnce_perm u l).insert t).symm
    _ ~ addOnce t (addOnce u l) := (addOnce_perm t _).symm

lemma addOnce_append {t u : α} (h : t ≠ u) (l : List α) :
    addOnce u (l ++ [t]) ~ addOnce u l ++ [t] := by
  unfold addOnce
  by_cases hu : u ∈ l
  · rw [if_pos hu, if_pos (List.mem_append_left _ hu)]
  · have hnot : u ∉ l ++ [t] := by
      rw [List.mem_append, List.mem_singleton]
      exact not_or.mpr ⟨hu, Ne.symm h⟩
    rw [if_neg hu, if_neg hnot]
    rw [List.append_assoc, List.append_assoc]
    exact List.perm_append_comm.append_left l

end

namespace Program

/-- The subtractions from targets that are named have been moved to other places; the other steps
have kept their order. -/
structure Rearranged (l l' : List Relation) : Prop where
  perm : l ~ l'
  others : l'.filter (fun r => !r.subtracts) = l.filter fun r => !r.subtracts

lemma Rearranged.refl (l : List Relation) : Rearranged l l := ⟨.refl l, rfl⟩

/-! ### Effects -/

/-- What a step does, apart from the state that it does it to. -/
inductive Effect
  /-- Trims a target with a surface. -/
  | cut (target : ℕ) (t : LocalTrim) (h : t ≠ .accum ())
  /-- Trims a target with the collection, to which an operand may be added. -/
  | gather (target : ℕ) (operand : Option ℕ)
  | point (cursor : ℕ)
  | bound (b : Bool)
  | count (position : ℕ) (b : Bool)

namespace Effect

def apply (s : State) : Effect → State
  | cut target t _ => { s with outcome := s.outcome.addTrim target t }
  | gather target operand =>
    { s with outcome := (s.outcome.collect operand).addTrimOnce target (.accum ()) }
  | point cursor => { s with cursor := some cursor }
  | bound b => { s with outcome := { s.outcome with bounded := b } }
  | count position b =>
    { s with outcome := { s.outcome with included := s.outcome.included.set position b } }

/-- The effect only adds trims and collected positions. -/
def Additive : Effect → Prop
  | cut .. | gather .. => True
  | _ => False

end Effect

/-- What a step does, given the current target. -/
def effect (kinds : List Kind) (cursor : Option ℕ) (r : Relation) : Except Cause Effect :=
  match r.op with
  | .minusOuter => cutting .outer nofun
  | .minusInner => cutting .inner nofun
  | .minusAccum => do
    let target ← target kinds cursor r
    let operand ← optionalOperand kinds r
    return .gather target operand
  | .indexArray =>
    if 0 ≤ r.operand then do
      let (position, _) ← element kinds .operand r.operand
      return .point position
    else return .point (cursor.elim 0 (· + 1))
  | .boundArray => bounding true
  | .untieArray => bounding false
  | .boundIndex => counting true
  | .untieIndex => counting false
where
  cutting (trim : ℕ → LocalTrim) (h : ∀ p, trim p ≠ .accum ()) : Except Cause Effect := do
    let target ← target kinds cursor r
    let operand ← surfaceOperand kinds r
    if operand = target then throw .subtractsItself
    return .cut target (trim operand) (h operand)
  bounding (b : Bool) : Except Cause Effect :=
    if r.target = -1 then .ok (.bound b) else .error .arrayWide
  counting (b : Bool) : Except Cause Effect := do
    let position ← boundElement kinds cursor r
    return .count position b

variable {kinds : List Kind} {s s' t : State} {r : Relation} {e e' : Effect}

/-- **A step has its effect**, or fails. -/
lemma step_eq (kinds : List Kind) (s : State) (r : Relation) :
    step kinds s r = (effect kinds s.cursor r).map (·.apply s) := by
  have hminus : ∀ (trim : ℕ → LocalTrim) (h : ∀ p, trim p ≠ .accum ()),
      minus kinds s r trim = (effect.cutting kinds s.cursor r trim h).map (·.apply s) := by
    intro trim h
    unfold minus effect.cutting
    rcases target kinds s.cursor r with cause | target
    · rfl
    rcases surfaceOperand kinds r with cause | operand
    · rfl
    simp only [bind, Except.bind]
    split <;> rfl
  have hbounded : ∀ b, step.setBounded s r b =
      (effect.bounding r b).map (·.apply s) := by
    intro b
    unfold step.setBounded effect.bounding
    split <;> rfl
  have hincluded : ∀ b, step.setIncluded kinds s r b =
      (effect.counting kinds s.cursor r b).map (·.apply s) := by
    intro b
    unfold step.setIncluded effect.counting
    rcases boundElement kinds s.cursor r with cause | position <;> rfl
  unfold step effect
  cases r.op with
  | minusOuter => exact hminus _ _
  | minusInner => exact hminus _ _
  | minusAccum =>
    rcases target kinds s.cursor r with cause | target
    · rfl
    rcases optionalOperand kinds r with cause | operand <;> rfl
  | indexArray =>
    dsimp only
    split
    · rcases element kinds .operand r.operand with cause | ⟨position, kind⟩ <;> rfl
    · rfl
  | boundArray => exact hbounded true
  | untieArray => exact hbounded false
  | boundIndex => exact hincluded true
  | untieIndex => exact hincluded false

/-- Subtractions do not look at the current target. -/
lemma target_of_nonneg (kinds : List Kind) (h : 0 ≤ r.target) (cursor cursor' : Option ℕ) :
    target kinds cursor r = target kinds cursor' r := by
  unfold target
  rw [if_neg (by omega), if_neg (by omega)]

lemma effect_of_subtracts (h : r.subtracts = true) (cursor cursor' : Option ℕ) :
    effect kinds cursor r = effect kinds cursor' r := by
  have htarget : 0 ≤ r.target → target kinds cursor r = target kinds cursor' r := fun hr =>
    target_of_nonneg kinds hr cursor cursor'
  unfold Relation.subtracts at h
  unfold effect effect.cutting
  split at h
  · next hop => simp only [hop, htarget (of_decide_eq_true h)]
  · next hop => simp only [hop, htarget (of_decide_eq_true h)]
  · next hop => simp only [hop, htarget (of_decide_eq_true h)]
  · cases h

lemma additive_of_cutting {cursor : Option ℕ} {trim : ℕ → LocalTrim} {h : ∀ p, trim p ≠ .accum ()}
    (he : effect.cutting kinds cursor r trim h = .ok e) : e.Additive := by
  unfold effect.cutting at he
  rcases ht : target kinds cursor r with cause | target
  · rw [ht] at he
    cases he
  rcases ho : surfaceOperand kinds r with cause | operand
  · rw [ht, ho] at he
    cases he
  rw [ht, ho] at he
  simp only [bind, Except.bind, pure, Except.pure] at he
  split at he
  · cases he
  · cases he
    trivial

lemma additive_of_subtracts (h : r.subtracts = true) {cursor : Option ℕ}
    (he : effect kinds cursor r = .ok e) : e.Additive := by
  unfold Relation.subtracts at h
  unfold effect at he
  split at h
  · next hop =>
    simp only [hop] at he
    exact additive_of_cutting he
  · next hop =>
    simp only [hop] at he
    exact additive_of_cutting he
  · next hop =>
    simp only [hop] at he
    rcases ht : target kinds cursor r with cause | target
    · rw [ht] at he
      cases he
    rcases ho : optionalOperand kinds r with cause | operand
    · rw [ht, ho] at he
      cases he
    · rw [ht, ho] at he
      cases he
      trivial
  · cases h

/-- The states are the same, but for the order of trims and of collected positions. -/
structure State.Alike (s t : State) : Prop where
  cursor : t.cursor = s.cursor
  trims : List.Forall₂ List.Perm s.outcome.trims t.outcome.trims
  accumulator : s.outcome.accumulator ~ t.outcome.accumulator
  bounded : t.outcome.bounded = s.outcome.bounded
  included : t.outcome.included = s.outcome.included

namespace State.Alike

lemma refl (s : State) : s.Alike s :=
  ⟨rfl, List.forall₂_same.mpr fun l _ => .refl l, .refl _, rfl, rfl⟩

lemma symm (h : s.Alike t) : t.Alike s :=
  ⟨h.cursor.symm, h.trims.flip.imp fun _ _ h => h.symm, h.accumulator.symm, h.bounded.symm,
    h.included.symm⟩

lemma trans (h : s.Alike t) (h' : t.Alike s') : s.Alike s' :=
  ⟨h'.cursor.trans h.cursor, forall₂_trans (fun _ _ _ => .trans) h.trims h'.trims,
    h.accumulator.trans h'.accumulator, h'.bounded.trans h.bounded, h'.included.trans h.included⟩

end State.Alike

/-! ### Effects on states alike -/

/-- The collected positions with an operand, if there is one. -/
def gathered (operand : Option ℕ) (l : List ℕ) : List ℕ := operand.elim l (addOnce · l)

lemma gathered_congr (operand : Option ℕ) {l l' : List ℕ} (h : l ~ l') :
    gathered operand l ~ gathered operand l' := by
  cases operand with
  | none => exact h
  | some p => exact addOnce_congr p h

lemma gathered_comm (p q : Option ℕ) (l : List ℕ) :
    gathered q (gathered p l) ~ gathered p (gathered q l) := by
  cases p with
  | none => exact .refl _
  | some p =>
    cases q with
    | none => exact .refl _
    | some q => exact addOnce_comm p q l

lemma Effect.apply_gather (target : ℕ) (operand : Option ℕ) (s : State) :
    (gather target operand).apply s = { s with
      outcome := { s.outcome with
        trims := s.outcome.trims.modify target (addOnce (.accum ()))
        accumulator := gathered operand s.outcome.accumulator } } := by
  cases operand <;> rfl

namespace State.Alike

lemma apply (h : s.Alike t) (e : Effect) : (e.apply s).Alike (e.apply t) := by
  cases e with
  | cut target x hx =>
    exact ⟨h.cursor, forall₂_modify (fun _ _ hl => hl.append_right [x]) h.trims target,
      h.accumulator, h.bounded, h.included⟩
  | gather target operand =>
    rw [Effect.apply_gather, Effect.apply_gather]
    exact ⟨h.cursor, forall₂_modify (fun _ _ => addOnce_congr _) h.trims target,
      gathered_congr operand h.accumulator, h.bounded, h.included⟩
  | point cursor => exact ⟨rfl, h.trims, h.accumulator, h.bounded, h.included⟩
  | bound b => exact ⟨h.cursor, h.trims, h.accumulator, rfl, h.included⟩
  | count position b =>
    exact ⟨h.cursor, h.trims, h.accumulator, h.bounded, congrArg (·.set position b) h.included⟩

end State.Alike

lemma cut_comm (target : ℕ) {t : LocalTrim} (h : t ≠ .accum ()) (e' : Effect) (s : State) :
    (e'.apply ((Effect.cut target t h).apply s)).Alike
      ((Effect.cut target t h).apply (e'.apply s)) := by
  cases e' with
  | cut target' u hu =>
    refine ⟨rfl, modify_comm .refl (fun l => ?_) _ _ _, .refl _, rfl, rfl⟩
    rw [List.append_assoc, List.append_assoc]
    exact List.perm_append_comm.append_left l
  | gather target' operand =>
    rw [Effect.apply_gather, Effect.apply_gather]
    exact ⟨rfl, modify_comm .refl (addOnce_append h) _ _ _, .refl _, rfl, rfl⟩
  | point cursor => exact .refl _
  | bound b => exact .refl _
  | count position b => exact .refl _

/-- **Subtractions commute with every effect.** -/
lemma apply_comm (he : e.Additive) (e' : Effect) (s : State) :
    (e'.apply (e.apply s)).Alike (e.apply (e'.apply s)) := by
  cases e with
  | cut target t h => exact cut_comm target h e' s
  | gather target operand =>
    cases e' with
    | cut target' u hu => exact (cut_comm target' hu _ s).symm
    | gather target' operand' =>
      simp only [Effect.apply_gather]
      exact ⟨rfl, modify_comm .refl (addOnce_comm _ _) _ _ _, gathered_comm _ _ _, rfl, rfl⟩
    | point cursor =>
      simp only [Effect.apply_gather]
      exact .refl _
    | bound b =>
      simp only [Effect.apply_gather]
      exact .refl _
    | count position b =>
      simp only [Effect.apply_gather]
      exact .refl _
  | point cursor => exact he.elim
  | bound b => exact he.elim
  | count position b => exact he.elim

lemma cursor_apply (he : e.Additive) (s : State) : (e.apply s).cursor = s.cursor := by
  cases e with
  | cut => rfl
  | gather => rfl
  | point => exact he.elim
  | bound => exact he.elim
  | count => exact he.elim

/-! ### Runs -/

/-- Runs that come to states alike, or both fail. -/
abbrev SameRun (x y : Except (ℕ × Cause) State) : Prop := Agree State.Alike x y

lemma runFrom_error {cause : Cause} (h : effect kinds s.cursor r = .error cause) (i : ℕ)
    (l : List Relation) : runFrom kinds s i (r :: l) = .error (i, cause) := by
  rw [runFrom, step_eq, h]
  rfl

lemma runFrom_ok (h : effect kinds s.cursor r = .ok e) (i : ℕ) (l : List Relation) :
    runFrom kinds s i (r :: l) = runFrom kinds (e.apply s) (i + 1) l := by
  rw [runFrom, step_eq, h]
  rfl

lemma sameRun_congr (h : s.Alike t) (l : List Relation) (i j : ℕ) :
    SameRun (runFrom kinds s i l) (runFrom kinds t j l) := by
  induction l generalizing s t i j with
  | nil => exact .ok h
  | cons r l ih =>
    rcases he : effect kinds s.cursor r with cause | e
    · rw [runFrom_error he, runFrom_error (by rw [h.cursor, he])]
      exact .error
    · rw [runFrom_ok he, runFrom_ok (by rw [h.cursor, he])]
      exact ih (h.apply e) _ _

lemma SameRun.trans {x y z : Except (ℕ × Cause) State} (h : SameRun x y) (h' : SameRun y z) :
    SameRun x z := Agree.trans (fun _ _ _ => .trans) h h'

lemma SameRun.symm {x y : Except (ℕ × Cause) State} (h : SameRun x y) : SameRun y x :=
  Agree.symm (fun _ _ => .symm) h

lemma sameRun_cons (r : Relation) {l m : List Relation}
    (h : ∀ s i j, SameRun (runFrom kinds s i l) (runFrom kinds s j m)) (s : State) (i j : ℕ) :
    SameRun (runFrom kinds s i (r :: l)) (runFrom kinds s j (r :: m)) := by
  rcases he : effect kinds s.cursor r with cause | e
  · rw [runFrom_error he, runFrom_error he]
    exact .error
  · rw [runFrom_ok he, runFrom_ok he]
    exact h _ _ _

/-- **A subtraction may be put off.** -/
lemma sameRun_later (hr : r.subtracts = true) (l m : List Relation) (s : State) (i j : ℕ) :
    SameRun (runFrom kinds s i (r :: (l ++ m))) (runFrom kinds s j (l ++ r :: m)) := by
  induction l generalizing s i j with
  | nil => exact sameRun_congr (.refl s) _ i j
  | cons r' l ih =>
    -- it is put behind the next step, and then behind those after it
    refine SameRun.trans (y := runFrom kinds s j (r' :: (r :: (l ++ m)))) ?_
      (sameRun_cons r' ih s j j)
    rw [List.cons_append]
    rcases he : effect kinds s.cursor r with cause | e
    · rw [runFrom_error he]
      rcases he' : effect kinds s.cursor r' with cause' | e'
      · rw [runFrom_error he']
        exact .error
      · rw [runFrom_ok he', runFrom_error (effect_of_subtracts hr .. ▸ he)]
        exact .error
    · have hadditive := additive_of_subtracts hr he
      have hcursor := cursor_apply hadditive s
      rw [runFrom_ok he]
      rcases he' : effect kinds s.cursor r' with cause' | e'
      · rw [runFrom_error (by rw [hcursor, he']), runFrom_error he']
        exact .error
      · rw [runFrom_ok (by rw [hcursor, he']), runFrom_ok he',
          runFrom_ok (effect_of_subtracts hr .. ▸ he)]
        exact sameRun_congr (apply_comm hadditive e' s) _ _ _

/-- **All subtractions may be put off to the end.** -/
lemma sameRun_sorted (kinds : List Kind) (l : List Relation) (s : State) (i j : ℕ) :
    SameRun (runFrom kinds s i l) (runFrom kinds s j
      (l.filter (fun r => !r.subtracts) ++ l.filter fun r => r.subtracts)) := by
  induction l generalizing s i j with
  | nil => exact .ok (.refl s)
  | cons r l ih =>
    rcases hr : r.subtracts with _ | _
    · simp only [List.filter_cons, hr]
      exact sameRun_cons r ih s i j
    · simp only [List.filter_cons, hr]
      exact (sameRun_cons r ih s i j).trans (sameRun_later hr _ _ s j j)

lemma sameRun_perm (kinds : List Kind) {l m : List Relation} (h : l ~ m)
    (hl : ∀ r ∈ l, r.subtracts = true) (s : State) (i j : ℕ) :
    SameRun (runFrom kinds s i l) (runFrom kinds s j m) := by
  induction h generalizing s i j with
  | nil => exact .ok (.refl s)
  | cons r h ih =>
    exact sameRun_cons r (ih fun r' hr' => hl r' (List.mem_cons_of_mem _ hr')) s i j
  | swap r r' l => exact sameRun_later (hl r' List.mem_cons_self) [r] l s i j
  | trans h h' ih ih' =>
    exact (ih hl s i j).trans (ih' (fun r hr => hl r (h.mem_iff.mpr hr)) s j j)

lemma sameRun_append (n : List Relation) {l m : List Relation}
    (h : ∀ s i j, SameRun (runFrom kinds s i l) (runFrom kinds s j m)) (s : State) (i j : ℕ) :
    SameRun (runFrom kinds s i (n ++ l)) (runFrom kinds s j (n ++ m)) := by
  induction n generalizing s i j with
  | nil => exact h s i j
  | cons r n ih => exact sameRun_cons r ih s i j

/-- Outcomes that differ in the order of trims and of collected positions. -/
structure Outcome.Shuffled (o o' : Outcome) : Prop where
  trims : List.Forall₂ List.Perm o.trims o'.trims
  accumulator : o.accumulator ~ o'.accumulator
  bounded : o'.bounded = o.bounded
  included : o'.included = o.included

/-- **The places of subtractions are of no account** to a program: it succeeds or fails as before,
and its outcome is the same but for the order of trims and of collected positions. -/
theorem run_rearranged {l l' : List Relation} (h : Rearranged l l') (kinds : List Kind) :
    Agree Outcome.Shuffled (run kinds l) (run kinds l') := by
  have hsubtracts : l.filter (fun r => r.subtracts) ~ l'.filter fun r => r.subtracts :=
    h.perm.filter _
  have hlast := sameRun_append (l.filter fun r => !r.subtracts)
    (sameRun_perm kinds hsubtracts fun r hr => (List.mem_filter.mp hr).2) (init kinds) 0 0
  have hsorted := sameRun_sorted kinds l' (init kinds) 0 0
  rw [h.others] at hsorted
  have hsame := ((sameRun_sorted kinds l (init kinds) 0 0).trans hlast).trans hsorted.symm
  unfold run
  generalize runFrom kinds (init kinds) 0 l = x at hsame ⊢
  generalize runFrom kinds (init kinds) 0 l' = y at hsame ⊢
  cases hsame with
  | ok h => exact .ok ⟨h.trims, h.accumulator, h.bounded, h.included⟩
  | error => exact .error

end Program

end SolidTrace
