import SolidTrace.Proofs.Geometry.Affine

/-!
Boxes around real points.

Every operation on boxes keeps what it is given: a join keeps the points of both boxes, an
intersection the points that are in both, and `transformed` keeps the image of every point, be it
taken from the corners or from the intervals of the axes.
-/

namespace SolidTrace

open Extended

lemma Axis.mem_all (a : Axis) : a ∈ Axis.all := by
  cases a <;> decide

namespace Box

/-- The point lies in the box. -/
def Spans (b : Box Extended) (p : Vec Extended) : Prop :=
  ∀ a : Axis, b.min.get a ≤ p.get a ∧ p.get a ≤ b.max.get a

/-- The real point lies in the box. -/
def Encloses (b : Box Extended) (p : Vec ℝ) : Prop := b.Spans p.real

lemma get_real (p : Vec ℝ) (a : Axis) : p.real.get a = .real (p.get a) := by
  cases a <;> rfl

lemma get_zip {S T : Type} (f : S → S → T) (v w : Vec S) (a : Axis) :
    (v.zip f w).get a = f (v.get a) (w.get a) := by
  cases a <;> rfl

variable {b c : Box Extended} {p : Vec ℝ}

lemma encloses_iff : b.Encloses p ↔
    (b.min.x ≤ .real p.x ∧ .real p.x ≤ b.max.x) ∧ (b.min.y ≤ .real p.y ∧ .real p.y ≤ b.max.y) ∧
      (b.min.z ≤ .real p.z ∧ .real p.z ≤ b.max.z) := by
  refine ⟨fun h => ⟨h .x, h .y, h .z⟩, fun ⟨hx, hy, hz⟩ a => ?_⟩
  cases a
  · exact hx
  · exact hy
  · exact hz

section

variable {q r : Vec Extended}

lemma Spans.isEmpty_eq (h : b.Spans q) : b.isEmpty = false := by
  rw [isEmpty, List.any_eq_false]
  intro a _
  have hle := Scalar.Ordered.le_trans _ _ _ (h a).1 (h a).2
  simpa using Scalar.not_lt_of_le hle

lemma Spans.includePoint (h : b.Spans q) : (b.includePoint r).Spans q := fun a => by
  rw [Box.includePoint, get_zip, get_zip]
  exact ⟨Scalar.lesser_le_left (h a).1, Scalar.le_greater_left (h a).2⟩

lemma spans_includePoint (hq : ∀ a, q.get a ≤ q.get a) : (b.includePoint q).Spans q := fun a => by
  rw [Box.includePoint, get_zip, get_zip]
  exact ⟨Scalar.lesser_le_right (hq a), Scalar.le_greater_right (hq a)⟩

lemma spans_foldl {l : List (Vec Extended)} (hl : ∀ q ∈ l, ∀ a, q.get a ≤ q.get a) {q} (hq : q ∈ l)
    (b : Box Extended) : (l.foldl Box.includePoint b).Spans q := by
  have hkeep : ∀ (l : List (Vec Extended)) (b : Box Extended), b.Spans q →
      (l.foldl Box.includePoint b).Spans q := by
    intro l
    induction l with
    | nil => exact fun _ hb => hb
    | cons r l ih => exact fun b hb => ih _ hb.includePoint
  induction l generalizing b with
  | nil => cases hq
  | cons r l ih =>
    rcases List.mem_cons.mp hq with rfl | hmem
    · exact hkeep l _ (spans_includePoint (hl q List.mem_cons_self))
    · exact ih (fun r hr => hl r (List.mem_cons_of_mem _ hr)) hmem _

lemma Spans.join_left (h : b.Spans q) : (b.join c).Spans q := by
  unfold Box.join
  split
  · exact h
  · exact h.includePoint.includePoint

lemma Spans.join_right (h : c.Spans q) : (b.join c).Spans q := by
  unfold Box.join
  rw [h.isEmpty_eq, if_neg Bool.false_ne_true]
  intro a
  rw [Box.includePoint, Box.includePoint, get_zip, get_zip, get_zip, get_zip]
  exact ⟨Scalar.lesser_le_left (Scalar.lesser_le_right (h a).1),
    Scalar.le_greater_right (h a).2⟩

end

/-- The point does not lie outside of the box, as far as the box has definite sides. A side that is
no number gives way to that of another box. -/
def Admits (b : Box Extended) (p : Vec ℝ) : Prop :=
  ∀ a : Axis, (b.min.get a = .nan ∨ b.min.get a ≤ .real (p.get a)) ∧
    (b.max.get a = .nan ∨ .real (p.get a) ≤ b.max.get a)

lemma Admits.intersection (hb : b.Admits p) (hc : c.Encloses p) :
    (b.intersection c).Encloses p := fun a => by
  have hlow : ∀ x y z : Extended, x = .nan ∨ x ≤ z → y ≤ z → Scalar.greater x y ≤ z := by
    rintro x y z (rfl | hx) hy
    · rwa [greater_nan]
    · unfold Scalar.greater
      split_ifs <;> assumption
  have hhigh : ∀ x y z : Extended, x = .nan ∨ z ≤ x → z ≤ y → z ≤ Scalar.lesser x y := by
    rintro x y z (rfl | hx) hy
    · rwa [lesser_nan]
    · unfold Scalar.lesser
      split_ifs <;> assumption
  rw [Box.intersection, get_zip, get_zip, get_real]
  have hca := hc a
  rw [get_real] at hca
  exact ⟨hlow _ _ _ (hb a).1 hca.1, hhigh _ _ _ (hb a).2 hca.2⟩

/-- An axis adds its interval to that of an affine form. -/
noncomputable def addAxis (b : Box Extended) (r : Row Extended) :
    Extended × Extended → Axis → Extended × Extended
  | (lo, hi), a =>
    let k := r.linear.get a
    if k == 0 then (lo, hi)
    else
      (lo + Scalar.lesser (k * b.min.get a) (k * b.max.get a),
        hi + Scalar.greater (k * b.min.get a) (k * b.max.get a))

lemma imageInterval_eq (b : Box Extended) (r : Row Extended) :
    b.imageInterval r =
      let w := Axis.all.foldl (b.addAxis r) (r.w, r.w)
      (if Scalar.isNaN w.1 then -Scalar.infinity else w.1,
        if Scalar.isNaN w.2 then Scalar.infinity else w.2) := rfl

lemma addAxis_bounds (h : b.Encloses p) (r : Row ℝ) (a : Axis) {w : Extended × Extended} {s : ℝ}
    (hw : w.1 ≤ .real s ∧ .real s ≤ w.2) :
    (b.addAxis r.real w a).1 ≤ .real (s + r.linear.get a * p.get a) ∧
      .real (s + r.linear.get a * p.get a) ≤ (b.addAxis r.real w a).2 := by
  have hk : r.real.linear.get a = .real (r.linear.get a) := by
    cases a <;> rfl
  have ha := h a
  rw [get_real] at ha
  simp only [addAxis, hk, zero_eq, beq_real]
  generalize r.linear.get a = k
  split_ifs with hzero
  · rw [hzero, zero_mul, add_zero]
    exact hw
  · rcases lt_or_gt_of_ne hzero with hneg | hpos
    · exact ⟨add_le_real hw.1 (Scalar.lesser_le_right (mul_le_real_of_neg hneg ha.2)),
        real_le_add hw.2 (Scalar.le_greater_left (real_le_mul_of_neg hneg ha.1))⟩
    · exact ⟨add_le_real hw.1 (Scalar.lesser_le_left (mul_le_real hpos ha.1)),
        real_le_add hw.2 (Scalar.le_greater_right (real_le_mul hpos ha.2))⟩

lemma imageInterval_bounds (h : b.Encloses p) (r : Row ℝ) :
    (b.imageInterval r.real).1 ≤ .real (r.value p) ∧
      .real (r.value p) ≤ (b.imageInterval r.real).2 := by
  have hstart : (r.real.w, r.real.w).1 ≤ .real r.w ∧ .real r.w ≤ (r.real.w, r.real.w).2 :=
    ⟨le_refl r.w, le_refl r.w⟩
  have hvalue : r.w + r.linear.get .x * p.get .x + r.linear.get .y * p.get .y +
      r.linear.get .z * p.get .z = r.value p := by
    change r.w + r.x * p.x + r.y * p.y + r.z * p.z = _
    rw [Row.value]
    ring
  have hfold : (Axis.all.foldl (b.addAxis r.real) (r.real.w, r.real.w)).1 ≤ .real (r.value p) ∧
      .real (r.value p) ≤ (Axis.all.foldl (b.addAxis r.real) (r.real.w, r.real.w)).2 :=
    hvalue ▸ addAxis_bounds h r .z (addAxis_bounds h r .y (addAxis_bounds h r .x hstart))
  rw [imageInterval_eq]
  generalize Axis.all.foldl (b.addAxis r.real) (r.real.w, r.real.w) = w at hfold
  dsimp only
  rw [(Scalar.Ordered.definite _ _ hfold.1).1, (Scalar.Ordered.definite _ _ hfold.2).2]
  exact hfold

lemma exists_real_of_isFinite {x : Extended} (h : Scalar.isFinite x = true) :
    ∃ r, x = .real r := by
  have hlt : Scalar.abs x < up := of_decide_eq_true h
  rcases x with _ | _ | r | _
  · exact hlt.elim
  · exact hlt.elim
  · exact ⟨r, rfl⟩
  · exact hlt.elim

lemma exists_real (h : b.isFinite = true) : ∃ lo hi : Vec ℝ, b = ⟨lo.real, hi.real⟩ := by
  have hvec : ∀ v : Vec Extended, v.toList.all Scalar.isFinite = true →
      ∃ u : Vec ℝ, v = u.real := by
    rintro ⟨x, y, z⟩ hv
    simp only [Vec.toList, List.all_cons, List.all_nil, Bool.and_true, Bool.and_eq_true] at hv
    obtain ⟨x, rfl⟩ := exists_real_of_isFinite hv.1
    obtain ⟨y, rfl⟩ := exists_real_of_isFinite hv.2.1
    obtain ⟨z, rfl⟩ := exists_real_of_isFinite hv.2.2
    exact ⟨⟨x, y, z⟩, rfl⟩
  obtain ⟨⟨lo, hlo⟩, hi, hhi⟩ := (Bool.and_eq_true_iff.mp h).imp (hvec _) (hvec _)
  exact ⟨lo, hi, by rw [← hlo, ← hhi]⟩

/-- An affine form is least at some corner. -/
lemma exists_corner {lo hi : Vec ℝ} (h : Encloses ⟨lo.real, hi.real⟩ p) (r : Row ℝ) :
    ∃ c : Vec ℝ, c.real ∈ corners ⟨lo.real, hi.real⟩ ∧ r.value c ≤ r.value p := by
  have hend : ∀ k u v x : ℝ, u ≤ x → x ≤ v → ∃ c, (c = u ∨ c = v) ∧ k * c ≤ k * x := by
    intro k u v x hu hv
    rcases le_total 0 k with hk | hk
    · exact ⟨u, .inl rfl, mul_le_mul_of_nonneg_left hu hk⟩
    · exact ⟨v, .inr rfl, mul_le_mul_of_nonpos_left hv hk⟩
  obtain ⟨hx, hy, hz⟩ := encloses_iff.mp h
  obtain ⟨x, hxe, hxle⟩ := hend r.x lo.x hi.x p.x hx.1 hx.2
  obtain ⟨y, hye, hyle⟩ := hend r.y lo.y hi.y p.y hy.1 hy.2
  obtain ⟨z, hze, hzle⟩ := hend r.z lo.z hi.z p.z hz.1 hz.2
  refine ⟨⟨x, y, z⟩, ?_, ?_⟩
  · rcases hxe with rfl | rfl <;> rcases hye with rfl | rfl <;> rcases hze with rfl | rfl <;>
      simp [corners, Vec.real, Vec.map]
  · simp only [Row.value]
    linarith

lemma exists_real_of_mem_corners {lo hi : Vec ℝ} {q : Vec Extended}
    (hq : q ∈ corners ⟨lo.real, hi.real⟩) : ∃ c : Vec ℝ, q = c.real := by
  simp only [corners, List.mem_flatMap, List.mem_map, List.mem_cons, List.not_mem_nil,
    or_false] at hq
  obtain ⟨z, hz, y, hy, x, hx, rfl⟩ := hq
  have hreal : ∀ {w : Extended} {u v : ℝ}, w = .real u ∨ w = .real v → ∃ r, w = .real r := by
    rintro w u v (rfl | rfl)
    · exact ⟨u, rfl⟩
    · exact ⟨v, rfl⟩
  obtain ⟨x, rfl⟩ := hreal hx
  obtain ⟨y, rfl⟩ := hreal hy
  obtain ⟨z, rfl⟩ := hreal hz
  exact ⟨⟨x, y, z⟩, rfl⟩

/-- The box around the images of the corners holds the image of every point. -/
lemma encloses_images {lo hi : Vec ℝ} (h : Encloses ⟨lo.real, hi.real⟩ p) (f : Affine) :
    (((corners ⟨lo.real, hi.real⟩).map f.transform.applyPoint).foldl Box.includePoint
      empty).Encloses (f.apply p) := by
  have hself : ∀ q ∈ (corners ⟨lo.real, hi.real⟩).map f.transform.applyPoint,
      ∀ a, q.get a ≤ q.get a := by
    intro q hq a
    obtain ⟨c, hc, rfl⟩ := List.mem_map.mp hq
    obtain ⟨c, rfl⟩ := exists_real_of_mem_corners hc
    rw [f.applyPoint_transform, get_real]
    exact le_refl ((f.apply c).get a)
  have hspans : ∀ c : Vec ℝ, c.real ∈ corners ⟨lo.real, hi.real⟩ →
      (((corners ⟨lo.real, hi.real⟩).map f.transform.applyPoint).foldl Box.includePoint
        empty).Encloses (f.apply c) := fun c hc =>
    spans_foldl hself (List.mem_map.mpr ⟨c.real, hc, f.applyPoint_transform c⟩) _
  intro a
  rw [get_real, f.get_apply]
  obtain ⟨c, hc, hle⟩ := exists_corner h (f.form a)
  obtain ⟨c', hc', hle'⟩ := exists_corner h
    ⟨-(f.form a).x, -(f.form a).y, -(f.form a).z, -(f.form a).w⟩
  have hge : (f.form a).value p ≤ (f.form a).value c' := by
    simp only [Row.value] at hle' ⊢
    linarith
  have hlow := (hspans c hc a).1
  have hhigh := (hspans c' hc' a).2
  rw [get_real, f.get_apply] at hlow hhigh
  exact ⟨Scalar.Ordered.le_trans _ _ _ hlow hle, Scalar.Ordered.le_trans _ _ _ hge hhigh⟩

/-- **The image of a box holds the image of every point in it.** -/
lemma Encloses.transformed (h : b.Encloses p) (f : Affine) :
    (b.transformed f.transform).Encloses (f.apply p) := by
  unfold Box.transformed
  rw [h.isEmpty_eq, if_neg Bool.false_ne_true]
  split_ifs with hfinite
  · obtain ⟨lo, hi, rfl⟩ := exists_real hfinite
    exact encloses_images h f
  · intro a
    have hrow := imageInterval_bounds h (f.form a)
    rw [get_real, f.get_apply]
    cases a <;> exact hrow

end Box

end SolidTrace
