import SolidTrace.Proofs.Geometry.Enclosure

/-!
Boxes in boxes.

A box made by joins holds the boxes that it is made of and no more than it has to: whatever holds
all of them holds it. Boxes compare by their sides, so that a side that is no number is in the way;
images of boxes have none.
-/

namespace SolidTrace

open Extended

namespace Extended

lemma self_sub_zero (x : Extended) : x - 0 = x := by
  rw [zero_eq]
  rcases x with _ | _ | r | _
  · rfl
  · rfl
  · rw [real_sub, sub_zero]
  · rfl

lemma self_add_zero (x : Extended) : x + 0 = x := by
  rw [zero_eq]
  rcases x with _ | _ | r | _
  · rfl
  · rfl
  · rw [real_add, add_zero]
  · rfl

lemma le_up {x : Extended} (h : Scalar.isNaN x = false) : x ≤ up := by
  rcases x with _ | _ | r | _
  · exact absurd rfl (ne_nan_iff.mp h)
  · trivial
  · trivial
  · trivial

lemma down_le {x : Extended} (h : Scalar.isNaN x = false) : down ≤ x := by
  rcases x with _ | _ | r | _
  · exact absurd rfl (ne_nan_iff.mp h)
  · trivial
  · trivial
  · trivial

end Extended

namespace Box

variable {b c d : Box Extended} {q : Vec Extended} {l : List (Box Extended)}

/-- No side of the first box is inside the second one. -/
def Around (c b : Box Extended) : Prop :=
  ∀ a : Axis, c.min.get a ≤ b.min.get a ∧ b.max.get a ≤ c.max.get a

/-- Every side is a number. -/
def Definite (b : Box Extended) : Prop :=
  ∀ a : Axis, Scalar.isNaN (b.min.get a) = false ∧ Scalar.isNaN (b.max.get a) = false

lemma isEmpty_eq_false_iff :
    b.isEmpty = false ↔ ∀ a : Axis, ¬b.max.get a < b.min.get a := by
  rw [isEmpty, List.any_eq_false]
  refine ⟨fun h a => ?_, fun h a _ => ?_⟩
  · exact mt decide_eq_true (h a a.mem_all)
  · exact mt of_decide_eq_true (h a)

lemma contains_iff : c.contains b 0 = true ↔ b.isEmpty = true ∨ c.Around b := by
  simp only [contains, Bool.or_eq_true, List.all_eq_true, Bool.and_eq_true, decide_eq_true_eq,
    Axis.mem_all, true_imp_iff, self_sub_zero, self_add_zero, Around]

lemma Around.le (h : c.Around b) (hb : b.isEmpty = false) (a : Axis) :
    b.min.get a ≤ b.max.get a :=
  Scalar.le_of_not_lt (Scalar.Ordered.definite _ _ (h a).2).1
    (Scalar.Ordered.definite _ _ (h a).1).2 (isEmpty_eq_false_iff.mp hb a)

lemma contains_of_spans (hmin : c.Spans b.min) (hmax : c.Spans b.max) : c.contains b 0 = true :=
  contains_iff.mpr (.inr fun a => ⟨(hmin a).1, (hmax a).2⟩)

lemma Definite.spans (h : b.Definite) (hb : b.isEmpty = false) : b.Spans b.min ∧ b.Spans b.max := by
  have hle : ∀ a : Axis, b.min.get a ≤ b.max.get a := fun a =>
    Scalar.le_of_not_lt (h a).2 (h a).1 (isEmpty_eq_false_iff.mp hb a)
  exact ⟨fun a => ⟨Scalar.le_self_of_isNaN_eq (h a).1, hle a⟩,
    fun a => ⟨hle a, Scalar.le_self_of_isNaN_eq (h a).2⟩⟩

lemma Spans.foldl_join (h : b.Spans q) (l : List (Box Extended)) : (l.foldl join b).Spans q := by
  induction l generalizing b with
  | nil => exact h
  | cons d l ih => exact ih h.join_left

lemma spans_foldl_join (hb : b ∈ l) (h : b.Spans q) (c : Box Extended) :
    (l.foldl join c).Spans q := by
  induction l generalizing c with
  | nil => cases hb
  | cons d l ih =>
    rcases List.mem_cons.mp hb with rfl | hmem
    · exact h.join_right.foldl_join l
    · exact ih hmem _

lemma contains_foldl_join (hb : b ∈ l) (hdef : b.isEmpty = false → b.Definite) (c : Box Extended) :
    (l.foldl join c).contains b 0 = true := by
  cases hempty : b.isEmpty with
  | true => exact contains_iff.mpr (.inl hempty)
  | false =>
    obtain ⟨hmin, hmax⟩ := (hdef hempty).spans hempty
    exact contains_of_spans (spans_foldl_join hb hmin c) (spans_foldl_join hb hmax c)

lemma Around.join (hb : c.Around b) (hd : c.contains d 0 = true) : c.Around (b.join d) := by
  unfold Box.join
  split_ifs with hempty
  · exact hb
  · have haround := (contains_iff.mp hd).resolve_left hempty
    intro a
    have hle := haround.le (Bool.eq_false_iff.mpr hempty) a
    have hlow := Scalar.Ordered.le_trans _ _ _ (haround a).1 hle
    have hhigh := Scalar.Ordered.le_trans _ _ _ hle (haround a).2
    rw [includePoint, includePoint, get_zip, get_zip, get_zip, get_zip]
    exact ⟨Scalar.le_lesser (Scalar.le_lesser (hb a).1 (haround a).1) hlow,
      Scalar.greater_le (Scalar.greater_le (hb a).2 hhigh) (haround a).2⟩

lemma isEmpty_empty : (empty : Box Extended).isEmpty = true := by
  rw [isEmpty, List.any_eq_true]
  exact ⟨.x, List.mem_cons_self, decide_eq_true (show down < up from trivial)⟩

lemma Around.around_empty (h : c.Around b) : c.Around empty := fun a => by
  have hmin := le_up (Scalar.Ordered.definite _ _ (h a).1).1
  have hmax := down_le (Scalar.Ordered.definite _ _ (h a).2).2
  cases a <;> exact ⟨hmin, hmax⟩

lemma Around.foldl_join (hb : c.Around b) (hl : ∀ d ∈ l, c.contains d 0 = true) :
    c.Around (l.foldl Box.join b) := by
  induction l generalizing b with
  | nil => exact hb
  | cons d l ih =>
    rw [List.forall_mem_cons] at hl
    exact ih (hb.join hl.1) hl.2

lemma foldl_join_of_isEmpty (h : ∀ d ∈ l, d.isEmpty = true) : l.foldl join b = b := by
  induction l with
  | nil => rfl
  | cons d l ih =>
    rw [List.forall_mem_cons] at h
    rw [List.foldl_cons, join, if_pos h.1, ih h.2]

lemma contains_foldl_join_empty (h : ∀ d ∈ l, d.isEmpty = false → c.contains d 0 = true) :
    c.contains (l.foldl join empty) 0 = true := by
  by_cases hall : ∀ d ∈ l, d.isEmpty = true
  · rw [foldl_join_of_isEmpty hall]
    exact contains_iff.mpr (.inl isEmpty_empty)
  · push Not at hall
    obtain ⟨d, hd, hempty⟩ := hall
    have haround := (contains_iff.mp (h d hd (Bool.eq_false_iff.mpr hempty))).resolve_left hempty
    refine contains_iff.mpr (.inr (haround.around_empty.foldl_join fun b hb => ?_))
    cases hb' : b.isEmpty with
    | true => exact contains_iff.mpr (.inl hb')
    | false => exact h b hb hb'

lemma isEmpty_transformed (h : b.isEmpty = true) (t : Transform Extended) :
    (b.transformed t).isEmpty = true := by
  rwa [transformed, if_pos h]

lemma definite_empty : (empty : Box Extended).Definite := fun a => by
  cases a <;> exact ⟨ne_nan_iff.mpr Extended.noConfusion, ne_nan_iff.mpr Extended.noConfusion⟩

lemma Definite.includePoint (h : b.Definite) (q : Vec Extended) : (b.includePoint q).Definite := by
  intro a
  rw [Box.includePoint, get_zip, get_zip]
  exact ⟨Scalar.isNaN_lesser_eq (h a).1, Scalar.isNaN_greater_eq (h a).2⟩

/-- **The image of a box has definite sides**, whatever the map. -/
lemma definite_transformed (h : b.isEmpty = false) (t : Transform Extended) :
    (b.transformed t).Definite := by
  unfold transformed
  rw [h, if_neg Bool.false_ne_true]
  split_ifs with hfinite
  · generalize b.corners.map t.applyPoint = points
    have hstart := definite_empty
    generalize (empty : Box Extended) = start at hstart
    induction points generalizing start with
    | nil => exact hstart
    | cons q points ih => exact ih _ (hstart.includePoint q)
  · have hrow : ∀ r : Row Extended, Scalar.isNaN (b.imageInterval r).1 = false ∧
        Scalar.isNaN (b.imageInterval r).2 = false := by
      intro r
      rw [imageInterval_eq]
      dsimp only
      constructor
      · split_ifs with hnan
        · exact ne_nan_iff.mpr Extended.noConfusion
        · exact Bool.not_eq_true _ ▸ hnan
      · split_ifs with hnan
        · exact ne_nan_iff.mpr Extended.noConfusion
        · exact Bool.not_eq_true _ ▸ hnan
    intro a
    cases a <;> exact hrow _

end Box

end SolidTrace
