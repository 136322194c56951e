import Mathlib.Tactic.IntervalCases
import Mathlib.Tactic.Positivity
import SolidTrace.Json.Print
import SolidTrace.Proofs.Number.Shortest

/-!
The texts of numbers are read back.

A text of digits stands for the number that it was made from, and as long as the digits fit, a
literal stands for the number of all its digits and of its exponent.
-/

namespace SolidTrace

namespace NumberLiteral

lemma natOfDigits_eq (cs : List Char) : natOfDigits cs = Nat.ofDigitChars 10 cs 0 := by
  rw [Nat.ofDigitChars_eq_foldl]
  simp only [natOfDigits, digitValue, Nat.mul_comm]

@[simp] lemma natOfDigits_decimalDigits (n : ℕ) : natOfDigits (Numeral.decimalDigits n) = n := by
  rw [natOfDigits_eq]
  exact Nat.ofDigitChars_ten_toDigits

lemma natOfDigits_zeros (k : ℕ) (cs : List Char) :
    natOfDigits (List.replicate k '0' ++ cs) = natOfDigits cs := by
  rw [natOfDigits_eq, natOfDigits_eq, Nat.ofDigitChars_append, Nat.ofDigitChars_replicate_zero,
    Nat.mul_zero]

lemma isDigit_of_mem {n : ℕ} {c : Char} (h : c ∈ Numeral.decimalDigits n) : c.isDigit = true :=
  Nat.isDigit_of_mem_toDigits (by decide) (by decide) h

lemma decimalDigits_ne_nil (n : ℕ) : Numeral.decimalDigits n ≠ [] := Nat.toDigits_ne_nil

lemma eq_zero_of_head? {n : ℕ} (h : (Numeral.decimalDigits n).head? = some '0') : n = 0 := by
  induction n using Nat.strong_induction_on with
  | _ n ih =>
    unfold Numeral.decimalDigits at h ih
    rcases Nat.lt_or_ge n 10 with hlt | hge
    · rw [Nat.toDigits_of_lt_base hlt] at h
      interval_cases n <;> simp_all
    · rw [Nat.toDigits_of_base_le (by decide) hge] at h
      obtain ⟨c, cs, hcs⟩ := List.exists_cons_of_ne_nil (@Nat.toDigits_ne_nil (n / 10) 10)
      have hzero := ih (n / 10) (Nat.div_lt_self (by omega) (by decide)) (by simpa [hcs] using h)
      omega

/-- Text does not go on with a digit. -/
def Stops (cs : List Char) : Prop := ∀ c ∈ cs.head?, c.isDigit = false

lemma digits?_append {ds rest : List Char} (hne : ds ≠ []) (hd : ∀ c ∈ ds, c.isDigit = true)
    (hrest : Stops rest) : digits? (ds ++ rest) = some (ds, rest) := by
  have htake : (ds ++ rest).takeWhile Char.isDigit = ds := by
    rw [List.takeWhile_append_of_pos hd]
    cases rest with
    | nil => simp
    | cons c cs => simp [hrest c rfl]
  have hdrop : (ds ++ rest).dropWhile Char.isDigit = rest := by
    rw [List.dropWhile_append_of_pos hd]
    cases rest with
    | nil => rfl
    | cons c cs => simp [hrest c rfl]
  simp [digits?, htake, hdrop, hne]

lemma digits?_all {ds : List Char} (hne : ds ≠ []) (hd : ∀ c ∈ ds, c.isDigit = true) :
    digits? ds = some (ds, []) := by
  have h := digits?_append hne hd (show Stops [] from nofun)
  rwa [List.append_nil] at h

lemma append_eq {significand : ℕ} {cs : List Char}
    (h : Nat.ofDigitChars 10 cs significand < significandLimit) :
    append significand cs = (Nat.ofDigitChars 10 cs significand, cs.length) := by
  induction cs generalizing significand with
  | nil => simp [append]
  | cons c cs ih =>
    rw [Nat.ofDigitChars_cons, Nat.mul_comm] at h
    have hle : significand * 10 + digitValue c ≤
        Nat.ofDigitChars 10 cs (significand * 10 + digitValue c) := by
      rw [Nat.ofDigitChars_eq_ofDigitChars_zero]
      exact Nat.le_add_right_of_le (Nat.le_mul_of_pos_left _ (by positivity))
    have hrest : append (significand * 10 + digitValue c) cs = _ := ih h
    rw [append, if_pos (lt_of_le_of_lt hle h), Nat.ofDigitChars_cons, Nat.mul_comm 10, hrest]
    rfl

/-- A literal whose digits fit stands for the number with all of them. -/
theorem fitted_eq_exact {l : NumberLiteral}
    (h : natOfDigits (l.whole ++ l.fraction) < significandLimit) : l.fitted = l.exact := by
  rw [natOfDigits_eq, Nat.ofDigitChars_append] at h
  have hwhole : Nat.ofDigitChars 10 l.whole 0 < significandLimit := by
    refine lt_of_le_of_lt ?_ h
    rw [Nat.ofDigitChars_eq_ofDigitChars_zero (l := l.fraction)]
    exact Nat.le_add_right_of_le (Nat.le_mul_of_pos_left _ (by positivity))
  rw [fitted, append_eq hwhole]
  simp only
  rw [append_eq h]
  simp [exact, natOfDigits_eq, Nat.ofDigitChars_append]

/-! ### Literals -/

lemma ofChars?_signed (negative : Bool) (whole tail : List Char) {fraction rest : List Char}
    {exponent : ℤ}
    (hne : whole ≠ []) (hd : ∀ c ∈ whole, c.isDigit = true)
    (hzero : whole.head? = some '0' → whole.length = 1) (htail : Stops tail)
    (hfraction : fraction? tail = some (fraction, rest))
    (hexponent : exponent? rest = some exponent) :
    ofChars? (Numeral.signed negative (whole ++ tail)) =
      some ⟨negative, whole, fraction, exponent, tail.isEmpty⟩ := by
  have hhead : (whole ++ tail).head? ≠ some '-' := by
    obtain ⟨c, cs, rfl⟩ := List.exists_cons_of_ne_nil hne
    rintro h
    obtain rfl : c = '-' := Option.some.inj h
    exact absurd (hd '-' List.mem_cons_self) (by decide)
  unfold ofChars?
  split
  next negative' cs heq =>
    obtain ⟨rfl, rfl⟩ : negative' = negative ∧ cs = whole ++ tail := by
      cases negative with
      | true =>
        obtain ⟨rfl, rfl⟩ := Prod.mk.inj heq
        exact ⟨rfl, rfl⟩
      | false =>
        simp only [Numeral.signed, Bool.false_eq_true, if_false] at heq
        split at heq
        · next hminus => exact absurd (congrArg List.head? hminus) hhead
        · obtain ⟨rfl, rfl⟩ := Prod.mk.inj heq
          exact ⟨rfl, rfl⟩
    simp only [digits?_append hne hd htail, Option.bind_eq_bind, Option.bind_some]
    rw [if_neg fun h => h.2 (hzero h.1), hfraction]
    simp [hexponent]

lemma exponent?_integerText (i : ℤ) : exponent? ('e' :: Numeral.integerText i) = some i := by
  have hdigits : digits? (Numeral.decimalDigits i.natAbs) =
      some (Numeral.decimalDigits i.natAbs, []) :=
    digits?_all (decimalDigits_ne_nil i.natAbs) fun c => isDigit_of_mem
  rcases lt_or_ge i 0 with hneg | hpos
  · have htext : Numeral.integerText i = '-' :: Numeral.decimalDigits i.natAbs := by
      simp [Numeral.integerText, Numeral.signed, hneg]
    rw [htext, exponent?, if_pos (Or.inl rfl)]
    simp only [hdigits, natOfDigits_decimalDigits]
    congr 1
    omega
  · have htext : Numeral.integerText i = Numeral.decimalDigits i.natAbs := by
      simp [Numeral.integerText, Numeral.signed, Int.not_lt.mpr hpos]
    have hsign : ∀ c rest, c.isDigit = false → Numeral.decimalDigits i.natAbs ≠ c :: rest := by
      intro c rest hc h
      exact absurd (isDigit_of_mem (h ▸ List.mem_cons_self)) (by simp [hc])
    rw [htext, exponent?, if_pos (Or.inl rfl)]
    · simp only [hdigits, natOfDigits_decimalDigits]
      congr 1
      omega
    · exact fun rest => hsign '-' rest rfl
    · exact fun rest => hsign '+' rest rfl

end NumberLiteral

/-! ### Texts -/

namespace Numeral

open NumberLiteral

/-- As integers and decimals of doubles are: the digits fit, and a decimal has a fraction or is so
large that it has an exponent. -/
structure Regular (n : Numeral) : Prop where
  fits : n.digits < significandLimit
  whole : n.whole = true → n.exponent = 0
  decimal : n.whole = false → n.exponent < 0 ∨ 16 < n.point

/-- A literal with all the digits of a number, and with its point. -/
lemma fitted_eq {n : Numeral} (h : n.Regular) {whole fraction : List Char} {exponent : ℤ}
    (hdigits : natOfDigits (whole ++ fraction) = n.digits)
    (hexponent : exponent - fraction.length = n.exponent) {plain : Bool}
    (hplain : plain = n.whole) :
    fitted ⟨n.negative, whole, fraction, exponent, plain⟩ = n := by
  rw [fitted_eq_exact (by simpa only [hdigits] using h.fits), exact]
  simp only [hdigits, hexponent, hplain]

lemma length_eq_one_of_head? {n : ℕ} (h : (decimalDigits n).head? = some '0') :
    (decimalDigits n).length = 1 := by
  rw [eq_zero_of_head? h]
  rfl

lemma decimalDigits_length_pos (n : ℕ) : 0 < (decimalDigits n).length :=
  List.length_pos_iff.mpr (decimalDigits_ne_nil n)

section

variable {n : Numeral} (h : n.Regular)

include h

lemma ofChars?_whole (hwhole : n.whole = true) :
    (ofChars? (signed n.negative (decimalDigits n.digits))).map fitted = some n := by
  have htext := ofChars?_signed n.negative _ [] (decimalDigits_ne_nil n.digits)
    (fun _ => isDigit_of_mem) length_eq_one_of_head? nofun rfl rfl
  rw [List.append_nil] at htext
  rw [htext, Option.map_some, fitted_eq h (by simp) (by simp [h.whole hwhole]) (by simp [hwhole])]

lemma ofChars?_inside (hwhole : n.whole = false) (hinside : 0 < n.point ∧ n.point ≤ 16) :
    (ofChars? (signed n.negative ((decimalDigits n.digits).take n.point.toNat ++
      '.' :: (decimalDigits n.digits).drop n.point.toNat))).map fitted = some n := by
  have hpoint : n.point = (decimalDigits n.digits).length + n.exponent := rfl
  have hk : n.point.toNat < (decimalDigits n.digits).length := by
    have := h.decimal hwhole
    omega
  have hfraction : fraction? ('.' :: (decimalDigits n.digits).drop n.point.toNat) =
      some ((decimalDigits n.digits).drop n.point.toNat, []) := by
    exact digits?_all (List.ne_nil_of_length_pos (by simp; omega)) fun c hc =>
      isDigit_of_mem (List.mem_of_mem_drop hc)
  have htake : (decimalDigits n.digits).take n.point.toNat ≠ [] :=
    List.ne_nil_of_length_pos (by simp; omega)
  rw [ofChars?_signed n.negative _ _ htake (fun c hc => isDigit_of_mem (List.mem_of_mem_take hc))
    (fun hhead => ?_) (by simp [Stops]) hfraction rfl, Option.map_some, fitted_eq h]
  · rw [List.take_append_drop, natOfDigits_decimalDigits]
  · rw [List.length_drop]
    omega
  · simp [hwhole]
  · have hone := length_eq_one_of_head? (by rwa [List.head?_take, if_neg (by omega)] at hhead)
    omega

lemma ofChars?_before (hwhole : n.whole = false) (hbefore : -5 < n.point ∧ n.point ≤ 0) :
    (ofChars? (signed n.negative ('0' :: '.' :: (List.replicate n.point.natAbs '0' ++
      decimalDigits n.digits)))).map fitted = some n := by
  have hpoint : n.point = (decimalDigits n.digits).length + n.exponent := rfl
  have hfraction : fraction?
      ('.' :: (List.replicate n.point.natAbs '0' ++ decimalDigits n.digits)) = some
        (List.replicate n.point.natAbs '0' ++ decimalDigits n.digits, []) := by
    have hall : ∀ c ∈ List.replicate n.point.natAbs '0' ++ decimalDigits n.digits,
        c.isDigit = true := by
      intro c hc
      rcases List.mem_append.mp hc with hc | hc
      · rw [List.eq_of_mem_replicate hc]
        rfl
      · exact isDigit_of_mem hc
    exact digits?_all (by simp [decimalDigits_ne_nil]) hall
  have htext := ofChars?_signed n.negative ['0'] _ (List.cons_ne_nil _ _)
    (by simp) (fun _ => rfl) (by simp [Stops]) hfraction rfl
  rw [show ['0'] ++ '.' :: (List.replicate n.point.natAbs '0' ++ decimalDigits n.digits) =
    '0' :: '.' :: (List.replicate n.point.natAbs '0' ++ decimalDigits n.digits) from rfl] at htext
  rw [htext, Option.map_some, fitted_eq h]
  · have hzeros := natOfDigits_zeros (n.point.natAbs + 1) (decimalDigits n.digits)
    rwa [List.replicate_succ, List.cons_append, natOfDigits_decimalDigits] at hzeros
  · simp only [List.length_append, List.length_replicate]
    omega
  · simp [hwhole]

/-- A decimal with an exponent is read back, its fraction left out where there is none. -/
lemma ofChars?_scientific (hwhole : n.whole = false) :
    (ofChars? (signed n.negative ((decimalDigits n.digits).take 1 ++
      ((if (decimalDigits n.digits).length = 1 then [] else '.' :: (decimalDigits n.digits).drop 1) ++
        'e' :: integerText (n.point - 1))))).map fitted = some n := by
  have hpoint : n.point = (decimalDigits n.digits).length + n.exponent := rfl
  have hlength := decimalDigits_length_pos n.digits
  have hone : ((decimalDigits n.digits).take 1).length = 1 := by simp; omega
  have hstop : Stops ('e' :: integerText (n.point - 1)) := by simp [Stops]
  have htail : fraction? ((if (decimalDigits n.digits).length = 1 then []
        else '.' :: (decimalDigits n.digits).drop 1) ++ 'e' :: integerText (n.point - 1)) =
      some ((decimalDigits n.digits).drop 1, 'e' :: integerText (n.point - 1)) := by
    split_ifs with hsingle
    · rw [List.drop_of_length_le (by omega)]
      rfl
    · exact digits?_append (List.ne_nil_of_length_pos (by simp; omega))
        (fun c hc => isDigit_of_mem (List.mem_of_mem_drop hc)) hstop
  rw [ofChars?_signed n.negative _ _ (List.ne_nil_of_length_pos (by omega))
    (fun c hc => isDigit_of_mem (List.mem_of_mem_take hc)) (fun _ => hone) ?_ htail
    (exponent?_integerText _), Option.map_some, fitted_eq h]
  · rw [List.take_append_drop, natOfDigits_decimalDigits]
  · rw [List.length_drop]
    omega
  · simp [hwhole]
  · split_ifs
    · exact hstop
    · simp [Stops]

/-- **The text of a number is read back.** -/
theorem ofChars?_text : (ofChars? n.text).map fitted = some n := by
  unfold text
  split_ifs with hwhole hinside hbefore
  · exact ofChars?_whole h hwhole
  · exact ofChars?_inside h (Bool.eq_false_of_not_eq_true hwhole) hinside
  · exact ofChars?_before h (Bool.eq_false_of_not_eq_true hwhole) hbefore
  · exact ofChars?_scientific h (Bool.eq_false_of_not_eq_true hwhole)

end

lemma regular_ofInt {i : ℤ} (h : i.natAbs < significandLimit) : (ofInt i).Regular :=
  ⟨h, fun _ => rfl, nofun⟩

lemma regular_ofDouble (x : Float) : (ofDouble x).Regular := by
  have hlimit : integerLimit = 10 ^ 16 := rfl
  unfold ofDouble
  dsimp only
  split
  · next hinteger =>
    refine ⟨?_, fun hwhole => absurd hwhole (by simp [shortest_whole]),
      fun _ => Or.inl neg_one_lt_zero⟩
    have hdigits := hinteger.2
    simp only [Nat.pow_eq, hlimit] at hdigits
    simp only [Nat.pow_eq, pow_succ, ← Nat.mul_assoc, significandLimit]
    omega
  · next hinteger =>
    refine ⟨shortest_digits_lt .toEven x, fun hwhole => absurd hwhole (by simp [shortest_whole]),
      fun _ => or_iff_not_imp_left.mpr fun hexponent => ?_⟩
    rw [not_lt] at hexponent
    have hlarge := not_lt.mp fun h => hinteger ⟨hexponent, h⟩
    rw [hlimit, Nat.pow_eq] at hlarge
    set n := shortest .toEven x
    have hlength : n.digits < 10 ^ (decimalDigits n.digits).length :=
      (Nat.length_toDigits_le_iff (by decide)
        (List.length_pos_iff.mpr (decimalDigits_ne_nil n.digits))).mp le_rfl
    have hpower : 10 ^ 16 < 10 ^ ((decimalDigits n.digits).length + n.exponent.toNat) := by
      calc 10 ^ 16 ≤ n.digits * 10 ^ n.exponent.toNat := hlarge
        _ < 10 ^ (decimalDigits n.digits).length * 10 ^ n.exponent.toNat := by gcongr
        _ = 10 ^ ((decimalDigits n.digits).length + n.exponent.toNat) := (pow_add ..).symm
    have hplaces := (Nat.pow_lt_pow_iff_right (by decide)).mp hpower
    unfold point
    omega

end Numeral

end SolidTrace
