import SolidTrace.Proofs.Geometry.Enclosure

/-!
The slab test is exact.

The line of a ray is between two planes at an interval of parameters, or at all of them or none when
it is parallel to them. `IsWindow` says that an interval holds just the parameters with a property.
A pair of planes adds its own condition to the property, so that after all three pairs the interval
is that of the parameters at which the line is in the box.

There is one zero here, of no sign. Both infinities are allowed for its reciprocal, which stands for
zeros of both signs in the direction of a ray.
-/

namespace SolidTrace

open Extended

namespace Extended

variable {x : Extended} {p k t : ℝ}

lemma reached_iff (hk : 0 < k) :
    ((x - real p) * real (1 / k) ≤ real t ↔ x ≤ real (p + t * k)) ∧
      (real t ≤ (x - real p) * real (1 / k) ↔ real (p + t * k) ≤ x) := by
  have hinv := one_div_pos.mpr hk
  rcases x with _ | _ | r | _
  · exact ⟨Iff.rfl, Iff.rfl⟩
  · rw [down_sub, mul_real_comm, mul_down hinv]
    exact ⟨iff_of_true (down_le_real _) (down_le_real _), Iff.rfl⟩
  · simp only [real_sub, real_mul, real_le_real, mul_one_div]
    rw [div_le_iff₀ hk, le_div_iff₀ hk]
    exact ⟨sub_le_iff_le_add', le_sub_iff_add_le'⟩
  · rw [up_sub, mul_real_comm, mul_up hinv]
    exact ⟨Iff.rfl, iff_of_true (real_le_up _) (real_le_up _)⟩

lemma reached_iff_of_neg (hk : k < 0) :
    ((x - real p) * real (1 / k) ≤ real t ↔ real (p + t * k) ≤ x) ∧
      (real t ≤ (x - real p) * real (1 / k) ↔ x ≤ real (p + t * k)) := by
  have hinv := one_div_neg.mpr hk
  rcases x with _ | _ | r | _
  · exact ⟨Iff.rfl, Iff.rfl⟩
  · rw [down_sub, mul_real_comm, mul_down_of_neg hinv]
    exact ⟨Iff.rfl, iff_of_true (real_le_up _) (down_le_real _)⟩
  · simp only [real_sub, real_mul, real_le_real, mul_one_div]
    rw [div_le_iff_of_neg hk, le_div_iff_of_neg hk]
    exact ⟨le_sub_iff_add_le', sub_le_iff_le_add'⟩
  · rw [up_sub, mul_real_comm, mul_up_of_neg hinv]
    exact ⟨iff_of_true (down_le_real _) (real_le_up _), Iff.rfl⟩

lemma exists_le_real (h : x ≤ x) (hx : x ≠ up) : ∃ r, x ≤ real r := by
  rcases x with _ | _ | r | _
  · exact h.elim
  · exact ⟨0, down_le_real 0⟩
  · exact ⟨r, le_refl r⟩
  · exact (hx rfl).elim

lemma exists_real_le (h : x ≤ x) (hx : x ≠ down) : ∃ r, real r ≤ x := by
  rcases x with _ | _ | r | _
  · exact h.elim
  · exact (hx rfl).elim
  · exact ⟨r, le_refl r⟩
  · exact ⟨0, real_le_up 0⟩

end Extended

/-- The box is not crossed on any axis, and infinite sides lie outward. -/
structure Box.Proper (b : Box Extended) : Prop where
  ordered : ∀ a : Axis, b.min.get a ≤ b.max.get a
  min_ne_up : ∀ a : Axis, b.min.get a ≠ .up
  max_ne_down : ∀ a : Axis, b.max.get a ≠ .down

lemma Box.Encloses.proper {b : Box Extended} {p : Vec ℝ} (h : b.Encloses p) : b.Proper where
  ordered a := Scalar.Ordered.le_trans _ _ _ (h a).1 (h a).2
  min_ne_up a hup := by
    have hmin := (h a).1
    rw [hup, get_real] at hmin
    exact hmin
  max_ne_down a hdown := by
    have hmax := (h a).2
    rw [hdown, get_real] at hmax
    exact hmax

/-! ### Windows -/

/-- The window holds the parameters with the property and no others; without a window there are
none. A window is bounded by real numbers on some side, or not at all. -/
def IsWindow (p : ℝ → Prop) : Option (Extended × Extended) → Prop
  | none => ∀ t, ¬p t
  | some w => (∃ t : ℝ, w.1 ≤ .real t) ∧ (∃ t : ℝ, .real t ≤ w.2) ∧
    ∀ t : ℝ, (w.1 ≤ .real t ∧ .real t ≤ w.2) ↔ p t

section

variable {p q : ℝ → Prop} {w : Extended × Extended}

lemma IsWindow.congr {o : Option (Extended × Extended)} (h : IsWindow p o)
    (hpq : ∀ t, p t ↔ q t) : IsWindow q o := by
  rwa [show p = q from funext fun t => propext (hpq t)] at h

/-- Two more bounds narrow a window to the parameters between them. -/
lemma IsWindow.narrow (h : IsWindow p (some w)) {lo hi : Extended} (hlo : ∃ t : ℝ, lo ≤ .real t)
    (hhi : ∃ t : ℝ, .real t ≤ hi) :
    IsWindow (fun t => p t ∧ lo ≤ .real t ∧ .real t ≤ hi)
      (some (if Scalar.isNaN lo then w.1 else Scalar.greater w.1 lo,
        if Scalar.isNaN hi then w.2 else Scalar.lesser w.2 hi)) := by
  obtain ⟨⟨s, hs⟩, ⟨e, he⟩, hp⟩ := h
  obtain ⟨s', hs'⟩ := hlo
  obtain ⟨e', he'⟩ := hhi
  have hrise : ∀ {x : Extended} {t u : ℝ}, x ≤ .real t → t ≤ u → x ≤ .real u := fun h htu =>
    Scalar.Ordered.le_trans _ _ _ h htu
  have hfall : ∀ {x : Extended} {t u : ℝ}, .real t ≤ x → u ≤ t → .real u ≤ x := fun h hut =>
    Scalar.Ordered.le_trans _ _ _ hut h
  have hw := (Scalar.Ordered.definite _ _ hs).1
  have hw' := (Scalar.Ordered.definite _ _ he).2
  have hlo := (Scalar.Ordered.definite _ _ hs').1
  have hhi := (Scalar.Ordered.definite _ _ he').2
  simp only [hlo, hhi, Bool.false_eq_true, if_false]
  refine ⟨⟨max s s', ?_⟩, ⟨min e e', ?_⟩, fun t => ?_⟩
  · exact Scalar.greater_le (hrise hs (le_max_left s s')) (hrise hs' (le_max_right s s'))
  · exact Scalar.le_lesser (hfall he (min_le_left e e')) (hfall he' (min_le_right e e'))
  · rw [Scalar.greater_le_iff hw hlo, Scalar.le_lesser_iff hw' hhi, and_and_and_comm, hp]

lemma IsWindow.nonneg_iff (h : IsWindow p (some w)) :
    w.1 ≤ w.2 ∧ 0 ≤ w.2 ↔ ∃ t : ℝ, 0 ≤ t ∧ p t := by
  obtain ⟨⟨s, hs⟩, -, hp⟩ := h
  rw [zero_eq]
  constructor
  · rintro ⟨hle, hpos⟩
    rcases le_real_cases hs with hdown | ⟨u, hu, -⟩
    · exact ⟨0, le_refl 0, (hp 0).mp ⟨by rw [hdown]; exact down_le_real 0, hpos⟩⟩
    · rw [hu] at hle
      refine ⟨max u 0, le_max_right u 0, (hp _).mp ⟨by rw [hu]; exact le_max_left u 0, ?_⟩⟩
      rcases max_cases u 0 with ⟨hmax, -⟩ | ⟨hmax, -⟩
      · rwa [hmax]
      · rwa [hmax]
  · rintro ⟨t, ht, hpt⟩
    obtain ⟨hlo, hhi⟩ := (hp t).mpr hpt
    exact ⟨Scalar.Ordered.le_trans _ _ _ hlo hhi,
      Scalar.Ordered.le_trans (real 0) (real t) _ ht hhi⟩

lemma IsWindow.from_zero (h : IsWindow p (some w)) (t : ℝ) :
    0 ≤ t ∧ p t ↔ Scalar.greater w.1 0 ≤ .real t ∧ .real t ≤ w.2 := by
  obtain ⟨⟨s, hs⟩, -, hp⟩ := h
  rw [zero_eq, Scalar.greater_le_iff (Scalar.Ordered.definite _ _ hs).1
    (Bool.eq_false_iff.mpr (not_isNaN_real 0)), real_le_real, ← hp, and_right_comm,
    and_comm (a := 0 ≤ t)]

/-- Outside of two planes, in whichever order they are looked at. -/
lemma outside_iff {lo hi x y c : Extended} (h : lo ≤ hi) (hc : Scalar.isNaN c = false)
    (hxy : x = lo ∧ y = hi ∨ x = hi ∧ y = lo) :
    c < Scalar.lesser x y ∨ Scalar.greater x y < c ↔ ¬(lo ≤ c ∧ c ≤ hi) := by
  obtain ⟨hlo, hhi⟩ := Scalar.Ordered.definite _ _ h
  constructor
  · rintro (hlt | hlt) ⟨hle, hge⟩
    · refine Scalar.not_lt_of_le ?_ hlt
      rcases hxy with ⟨rfl, rfl⟩ | ⟨rfl, rfl⟩
      · exact Scalar.lesser_le_left hle
      · exact Scalar.lesser_le_right hle
    · refine Scalar.not_lt_of_le ?_ hlt
      rcases hxy with ⟨rfl, rfl⟩ | ⟨rfl, rfl⟩
      · exact Scalar.le_greater_right hge
      · exact Scalar.le_greater_left hge
  · intro hout
    by_cases hle : lo ≤ c
    · have hlt : hi < c := Scalar.lt_of_not_le hc hhi fun hge => hout ⟨hle, hge⟩
      have hlt' : lo < c := Scalar.lt_of_le_of_lt h hlt
      right
      rcases hxy with ⟨rfl, rfl⟩ | ⟨rfl, rfl⟩
      · exact Scalar.greater_lt hlt' hlt
      · exact Scalar.greater_lt hlt hlt'
    · have hlt : c < lo := Scalar.lt_of_not_le hlo hc hle
      have hlt' : c < hi := Scalar.lt_of_lt_of_le hlt h
      left
      rcases hxy with ⟨rfl, rfl⟩ | ⟨rfl, rfl⟩
      · exact Scalar.lt_lesser hlt hlt'
      · exact Scalar.lt_lesser hlt' hlt

/-- A ray that stays at one height keeps a window as it is, or all of it is outside. -/
lemma IsWindow.level (hw : IsWindow p (some w))
    {lo hi x y : Extended} (h : lo ≤ hi) (c : ℝ) (hxy : x = lo ∧ y = hi ∨ x = hi ∧ y = lo) :
    IsWindow (fun t => p t ∧ lo ≤ .real c ∧ .real c ≤ hi)
      (if decide (.real c < Scalar.lesser x y) || decide (Scalar.greater x y < .real c)
        then none else some w) := by
  simp only [Bool.or_eq_true, decide_eq_true_eq, outside_iff h
    (Bool.eq_false_iff.mpr (not_isNaN_real c)) hxy]
  by_cases hin : lo ≤ .real c ∧ .real c ≤ hi
  · rw [if_neg (not_not.mpr hin)]
    exact hw.congr fun t => (and_iff_left hin).symm
  · rw [if_pos hin]
    exact fun t ht => hin ht.2

end

namespace Ray

variable {r : Ray Extended} {o d dir : Vec ℝ} {b : Box Extended}

/-- The ray moves at `d`, given by its reciprocals, which are infinities where it stands still. -/
structure Moves (r : Ray Extended) (o d : Vec ℝ) : Prop where
  origin : r.origin = o.real
  direction : r.direction = d.real
  slanted : ∀ a : Axis, d.get a ≠ 0 → r.reciprocal.get a = .real (1 / d.get a)
  level : ∀ a : Axis, d.get a = 0 → r.reciprocal.get a = .up ∨ r.reciprocal.get a = .down

/-- At the parameter, the ray is between two planes of the box. -/
def Between (o d : Vec ℝ) (b : Box Extended) (a : Axis) (t : ℝ) : Prop :=
  b.min.get a ≤ .real ((o.along d t).get a) ∧ .real ((o.along d t).get a) ≤ b.max.get a

lemma isInfinite_of_level {x : Extended} (h : x = .up ∨ x = .down) :
    Scalar.isInfinite x = true := by
  rcases h with rfl | rfl
  · exact isInfinite_up
  · exact beq_iff.mpr ⟨rfl, Extended.noConfusion⟩

/-- **A pair of planes** narrows a window to the parameters at which the ray is between them. -/
lemma Moves.clipSlab (h : r.Moves o d) (hb : b.Proper) (a : Axis) {p : ℝ → Prop}
    {w : Extended × Extended} (hw : IsWindow p (some w)) :
    IsWindow (fun t => p t ∧ Between o d b a t) (r.clipSlab b a w) := by
  obtain ⟨hlo, hhi⟩ := Scalar.Ordered.definite _ _ (hb.ordered a)
  obtain ⟨m, hm⟩ := exists_le_real (Scalar.le_self_of_isNaN_eq hlo) (hb.min_ne_up a)
  obtain ⟨m', hm'⟩ := exists_real_le (Scalar.le_self_of_isNaN_eq hhi) (hb.max_ne_down a)
  have hordered := hb.ordered a
  have hslanted := h.slanted a
  have hlevel := h.level a
  have horigin : r.origin.get a = .real (o.get a) := by rw [h.origin, Box.get_real]
  simp only [Between, Vec.get_along]
  unfold Ray.clipSlab
  simp only [horigin]
  generalize d.get a = k, o.get a = p₀, b.min.get a = lo, b.max.get a = hi,
    r.reciprocal.get a = inv at *
  -- the parameter at which a line that is not level reaches a height
  have hreach : k ≠ 0 → ∀ y : ℝ, p₀ + (y - p₀) / k * k = y := fun hk y => by field_simp; ring
  rcases lt_trichotomy k 0 with hk | hk | hk
  · rw [hslanted hk.ne]
    have hinv : Extended.real (1 / k) < 0 := by
      rw [zero_eq]
      exact one_div_neg.mpr hk
    simp only [hinv, if_true, if_neg (isInfinite_real _)]
    refine (hw.narrow ⟨(m' - p₀) / k, ?_⟩ ⟨(m - p₀) / k, ?_⟩).congr fun t => ?_
    · rwa [(reached_iff_of_neg hk).1, hreach hk.ne]
    · rwa [(reached_iff_of_neg hk).2, hreach hk.ne]
    · rw [(reached_iff_of_neg hk).1, (reached_iff_of_neg hk).2, and_comm (a := lo ≤ _)]
  · have houtside (x y : Extended) (hxy : x = lo ∧ y = hi ∨ x = hi ∧ y = lo) :
        IsWindow (fun t => p t ∧ lo ≤ .real (p₀ + t * k) ∧ .real (p₀ + t * k) ≤ hi)
          (if decide (.real p₀ < Scalar.lesser x y) || decide (Scalar.greater x y < .real p₀)
            then none else some w) := by
      simpa only [hk, mul_zero, add_zero] using hw.level hordered p₀ hxy
    rw [if_pos (isInfinite_of_level (hlevel hk))]
    rcases hlevel hk with rfl | rfl
    · rw [if_neg (show ¬up < (0 : Extended) by rw [zero_eq]; exact id)]
      exact houtside lo hi (.inl ⟨rfl, rfl⟩)
    · rw [if_pos (show down < (0 : Extended) by rw [zero_eq]; trivial)]
      exact houtside hi lo (.inr ⟨rfl, rfl⟩)
  · rw [hslanted hk.ne']
    have hinv : ¬Extended.real (1 / k) < 0 := by
      rw [zero_eq]
      exact (one_div_pos.mpr hk).not_gt
    simp only [hinv, if_false, if_neg (isInfinite_real _)]
    refine (hw.narrow ⟨(m - p₀) / k, ?_⟩ ⟨(m' - p₀) / k, ?_⟩).congr fun t => ?_
    · rwa [(reached_iff hk).1, hreach hk.ne']
    · rwa [(reached_iff hk).2, hreach hk.ne']
    · rw [(reached_iff hk).1, (reached_iff hk).2]

/-- The pairs of planes together narrow a window to the parameters at which the ray is between all
of them. -/
lemma Moves.foldlM_clipSlab (h : r.Moves o d) (hb : b.Proper) (axes : List Axis) {p : ℝ → Prop}
    {w : Extended × Extended} (hw : IsWindow p (some w)) :
    IsWindow (fun t => p t ∧ ∀ a ∈ axes, Between o d b a t)
      (axes.foldlM (fun w a => r.clipSlab b a w) w) := by
  induction axes generalizing p w with
  | nil => exact hw.congr fun t => (and_iff_left (List.forall_mem_nil _)).symm
  | cons a axes ih =>
    have hslab := h.clipSlab hb a hw
    rw [List.foldlM_cons]
    cases hclip : r.clipSlab b a w with
    | none =>
      rw [hclip] at hslab
      exact fun t ht => hslab t ⟨ht.1, ht.2 a List.mem_cons_self⟩
    | some w' =>
      rw [hclip] at hslab
      exact (ih hslab).congr fun t => by rw [List.forall_mem_cons, and_assoc]

lemma Moves.window (h : r.Moves o d) (hb : b.Proper) :
    IsWindow (fun t => b.Encloses (o.along d t))
      (Axis.all.foldlM (fun w a => r.clipSlab b a w) (-Scalar.infinity, Scalar.infinity)) := by
  have hstart : IsWindow (fun _ => True) (some (-Scalar.infinity, Scalar.infinity)) :=
    ⟨⟨0, down_le_real 0⟩, ⟨0, real_le_up 0⟩,
      fun t => iff_of_true ⟨down_le_real t, real_le_up t⟩ trivial⟩
  refine (h.foldlM_clipSlab hb Axis.all hstart).congr fun t => ?_
  simp only [Axis.mem_all, true_imp_iff, true_and, Between, Box.Encloses, Box.Spans, Box.get_real]

/-- The ray has real numbers, and the reciprocals of its direction. -/
structure Starts (r : Ray Extended) (o d : Vec ℝ) : Prop where
  origin : r.origin = o.real
  direction : r.direction = d.real
  reciprocal : r.reciprocal = r.direction.map (1 / ·)

lemma Starts.moves (h : r.Starts o d) : r.Moves o d := by
  have hget : ∀ a : Axis, r.reciprocal.get a = 1 / .real (d.get a) := fun a => by
    rw [h.reciprocal, h.direction]
    cases a <;> rfl
  refine ⟨h.origin, h.direction, fun a ha => ?_, fun a ha => .inl ?_⟩
  · rw [hget, one_eq, real_div 1 ha]
  · rw [hget, ha, one_div_zero]

/-- **A ray meets the boxes that it comes to be in.** -/
theorem Starts.meet? (h : r.Starts o d) {t : ℝ} (hb : b.Encloses (o.along d t)) (ht : 0 ≤ t) :
    ∃ enter exit, r.meet? b = some (enter, exit) ∧ enter ≤ .real t := by
  have hwindow := h.moves.window hb.proper
  unfold Ray.meet?
  generalize Axis.all.foldlM (fun w a => r.clipSlab b a w) (-Scalar.infinity, Scalar.infinity) =
    found at hwindow
  cases found with
  | none => exact (hwindow t hb).elim
  | some w =>
    rw [Option.bind_eq_bind, Option.bind_some, if_pos (hwindow.nonneg_iff.mpr ⟨t, ht, hb⟩)]
    exact ⟨_, _, rfl, ((hwindow.from_zero t).mp ⟨ht, hb⟩).1⟩

/-! ### Rays in a direction -/

lemma Moves.pointAt (h : r.Moves o d) (t : ℝ) : r.pointAt (.real t) = (o.along d t).real := by
  rw [Ray.pointAt, h.origin, h.direction, Vec.real_add_scale]

/-- The ray through a point in a direction, which is made one of length one. The reciprocal of a
zero is an infinity of either sign. -/
structure Towards (r : Ray Extended) (o dir : Vec ℝ) : Prop where
  nonzero : dir ≠ Vec.splat 0
  origin : r.origin = o.real
  direction : r.direction = dir.real.normalize
  reciprocal : ∀ a : Axis, r.reciprocal.get a = 1 / r.direction.get a ∨
    dir.get a = 0 ∧ r.reciprocal.get a = .down

lemma norm_real (v : Vec ℝ) : v.real.norm = .real √(v.x * v.x + v.y * v.y + v.z * v.z) :=
  sqrt_real (add_nonneg (add_nonneg (mul_self_nonneg _) (mul_self_nonneg _)) (mul_self_nonneg _))

lemma length_pos (h : d ≠ Vec.splat 0) : 0 < √(d.x * d.x + d.y * d.y + d.z * d.z) := by
  have hx := mul_self_nonneg d.x
  have hy := mul_self_nonneg d.y
  have hz := mul_self_nonneg d.z
  refine Real.sqrt_pos.mpr (lt_of_le_of_ne (by linarith) fun h0 => h ?_)
  obtain ⟨x, y, z⟩ := d
  have hx0 : x = 0 := mul_self_eq_zero.mp (by linarith)
  have hy0 : y = 0 := mul_self_eq_zero.mp (by linarith)
  have hz0 : z = 0 := mul_self_eq_zero.mp (by linarith)
  rw [hx0, hy0, hz0, Vec.splat]

lemma Towards.moves (h : r.Towards o dir) : ∃ d, r.Moves o d := by
  obtain ⟨hne, horigin, hdirection, hreciprocal⟩ := h
  have hlen := length_pos hne
  generalize hn : √(dir.x * dir.x + dir.y * dir.y + dir.z * dir.z) = n at hlen
  have hunit : r.direction = (dir.map (· / n)).real := by
    rw [hdirection, Vec.normalize, norm_real, hn]
    simp only [Vec.map, Vec.real, real_div _ hlen.ne']
  have hget : ∀ a : Axis, (dir.map (· / n)).get a = dir.get a / n := fun a => by cases a <;> rfl
  refine ⟨dir.map (· / n), horigin, hunit, fun a ha => ?_, fun a ha => ?_⟩
  · rcases hreciprocal a with hinv | ⟨hzero, -⟩
    · rw [hinv, hunit, Box.get_real, one_eq, real_div 1 ha]
    · exact absurd (by rw [hget, hzero, zero_div]) ha
  · rcases hreciprocal a with hinv | ⟨-, hdown⟩
    · left
      rw [hinv, hunit, Box.get_real, ha, one_div_zero]
    · exact .inr hdown

/-- **The slab test is exact.** It finds an interval just when the ray is in the box at some
parameter from the origin on, and the interval holds these parameters and no others. -/
theorem meet?_exact (hr : r.Towards o dir) (hb : b.Proper) :
    ((r.meet? b).isSome ↔ ∃ t : ℝ, 0 ≤ t ∧ b.Spans (r.pointAt (.real t))) ∧
      ∀ enter exit, r.meet? b = some (enter, exit) → ∀ t : ℝ,
        (0 ≤ t ∧ b.Spans (r.pointAt (.real t)) ↔ enter ≤ .real t ∧ .real t ≤ exit) := by
  obtain ⟨d, hmoves⟩ := hr.moves
  have hwindow := hmoves.window hb
  simp only [hmoves.pointAt]
  change (_ ↔ ∃ t, 0 ≤ t ∧ b.Encloses (o.along d t)) ∧ ∀ enter exit, _ → ∀ t,
    (0 ≤ t ∧ b.Encloses (o.along d t) ↔ _)
  unfold Ray.meet?
  generalize Axis.all.foldlM (fun w a => r.clipSlab b a w) (-Scalar.infinity, Scalar.infinity) =
    found at hwindow
  cases found with
  | none =>
    rw [Option.bind_eq_bind, Option.bind_none]
    refine ⟨iff_of_false Bool.false_ne_true ?_, fun _ _ h => nomatch h⟩
    rintro ⟨t, -, ht⟩
    exact hwindow t ht
  | some w =>
    rw [Option.bind_eq_bind, Option.bind_some]
    refine ⟨?_, fun enter exit h => ?_⟩
    · rw [← hwindow.nonneg_iff, Option.isSome_ite]
    · obtain ⟨-, hends⟩ := Option.ite_some_none_eq_some.mp h
      obtain ⟨rfl, rfl⟩ := Prod.mk.inj hends
      exact hwindow.from_zero

/-- A ray that goes up from below, with zeros of both signs in its direction. -/
noncomputable def upward (below length : ℝ) : Ray Extended where
  origin := (⟨0, 0, -below⟩ : Vec ℝ).real
  direction := (⟨0, 0, length⟩ : Vec ℝ).real.normalize
  reciprocal := ⟨.up, .down, .real 1⟩

lemma upward_direction {below length : ℝ} (h : 0 < length) :
    (upward below length).direction = (⟨0, 0, 1⟩ : Vec ℝ).real := by
  have hlen : √((0 : ℝ) * 0 + 0 * 0 + length * length) = length := by
    rw [mul_zero, add_zero, zero_add, Real.sqrt_mul_self h.le]
  simp only [upward, Vec.normalize, norm_real, hlen]
  simp only [Vec.real, Vec.map, real_div _ h.ne', zero_div, div_self h.ne']

/-- A box that is flat on one axis and has no upper end on another. -/
def tower : Box Extended := ⟨⟨.real (-1), .real 0, .real 1⟩, ⟨.real 1, .real 0, .up⟩⟩

theorem meet?_exact_upward : (upward 3 2).Towards ⟨0, 0, -3⟩ ⟨0, 0, 2⟩ ∧ tower.Proper ∧
    ((upward 3 2).meet? tower).isSome := by
  have htowards : (upward 3 2).Towards ⟨0, 0, -3⟩ ⟨0, 0, 2⟩ := by
    refine ⟨fun h => two_ne_zero (congrArg Vec.z h), rfl, rfl, fun a => ?_⟩
    have hone : Extended.real 1 = 1 / .real 1 := by
      rw [one_eq, real_div 1 one_ne_zero, div_one]
    rw [upward_direction two_pos, Box.get_real]
    cases a with
    | x => exact .inl one_div_zero.symm
    | y => exact .inr ⟨rfl, rfl⟩
    | z => exact .inl hone
  have hproper : tower.Proper := by
    refine ⟨fun a => ?_, fun a => ?_, fun a => ?_⟩
    · cases a with
      | x => exact neg_le_self (zero_le_one' ℝ)
      | y => exact le_refl (0 : ℝ)
      | z => exact real_le_up 1
    · cases a <;> exact Extended.noConfusion
    · cases a <;> exact Extended.noConfusion
  refine ⟨htowards, hproper, (meet?_exact htowards hproper).1.mpr ⟨4, zero_le_four, ?_⟩⟩
  have hpoint : (upward 3 2).pointAt (.real 4) = (⟨0, 0, 1⟩ : Vec ℝ).real := by
    rw [Ray.pointAt, upward_direction two_pos,
      show (upward 3 2).origin = (⟨0, 0, -3⟩ : Vec ℝ).real from rfl, Vec.real_add_scale]
    norm_num [Vec.along]
  rw [hpoint]
  refine Box.encloses_iff.mpr ⟨⟨?_, ?_⟩, ⟨le_refl (0 : ℝ), le_refl (0 : ℝ)⟩, le_refl (1 : ℝ), ?_⟩
  · exact neg_nonpos.mpr (zero_le_one' ℝ)
  · exact zero_le_one' ℝ
  · exact real_le_up 1

end Ray

end SolidTrace
