import SolidTrace.Json.Text
import SolidTrace.Proofs.Json.Numbers

/-!
What is written is read back.

The text of a value is cut into the tokens of that value, whatever comes behind it, and the tokens
are put together to the value, wherever it stands.
-/

namespace SolidTrace.Json

/-- Numbers are written as integers and doubles are and have a value, and strings and keys are
text. -/
inductive Proper : Json → Prop
  | null : Proper .null
  | bool (b : Bool) : Proper (.bool b)
  | number {n : Numeral} (h : n.Regular) (hvalue : n.toInt?.isSome ∨ n.toDouble?.isSome) :
    Proper (.number n)
  | string (s : String) : Proper (.string (some s))
  | array {items : List Json} (h : ∀ v ∈ items, Proper v) : Proper (.array items)
  | object {members : List (JsonText × Json)} (hkeys : ∀ m ∈ members, m.1.isSome)
    (h : ∀ m ∈ members, Proper m.2) : Proper (.object members)

/-! ### Strings -/

namespace Token

lemma hexDigit?_digitChar : ∀ n < 16, hexDigit? (Nat.digitChar n) = some n := by decide

lemma ofUnit_toNat {c : Char} (h : c.toNat < 32) : Piece.ofUnit c.toNat = .char c := by
  have hleading : isLeading c.toNat = false := by
    simp only [isLeading, Bool.and_eq_false_iff, decide_eq_false_iff_not]
    omega
  have htrailing : isTrailing c.toNat = false := by
    simp only [isTrailing, Bool.and_eq_false_iff, decide_eq_false_iff_not]
    omega
  simp [Piece.ofUnit, hleading, htrailing]

lemma hexUnit?_of_lt {n : ℕ} (h : n < 256) :
    hexUnit? '0' '0' (Nat.digitChar (n / 16)) (Nat.digitChar (n % 16)) = some n := by
  have hzero : hexDigit? '0' = some 0 := by decide
  simp only [hexUnit?, hzero, hexDigit?_digitChar (n / 16) (by omega),
    hexDigit?_digitChar (n % 16) (by omega), Option.bind_eq_bind, Option.bind_some]
  congr 1
  omega

lemma scanString?_escaped (c : Char) (rest : List Char) : scanString? (escaped c ++ rest) =
    (scanString? rest).map fun r => (Piece.char c :: r.1, r.2) := by
  unfold escaped
  split
  · next letter hletter =>
    unfold escapeLetter? at hletter
    split at hletter <;> cases hletter <;>
      simp [scanString?, escape?, Option.map_eq_bind]
  · next hplain =>
    split
    · next hcontrol =>
      have hlt : c.toNat < 32 := hcontrol
      simp only [List.cons_append, List.nil_append]
      rw [scanString?, hexUnit?_of_lt (by omega), ← ofUnit_toNat hlt]
      simp [Option.map_eq_bind]
    · next hcontrol =>
      have hquote : c ≠ '"' := by rintro rfl; cases hplain
      have hslash : c ≠ '\\' := by rintro rfl; cases hplain
      rw [List.singleton_append, scanString?]
      · simp [hcontrol, hslash, Option.map_eq_bind]
      all_goals simp_all

lemma scanString?_flatMap (cs rest : List Char) :
    scanString? (cs.flatMap escaped ++ '"' :: rest) = some (cs.map .char, rest) := by
  induction cs with
  | nil => rw [List.flatMap_nil, List.nil_append, scanString?, List.map_nil]
  | cons c cs ih =>
    rw [List.flatMap_cons, List.append_assoc, scanString?_escaped, ih, List.map_cons,
      Option.map_some]

lemma joinPieces_map_char (cs : List Char) : joinPieces (cs.map .char) = some cs := by
  induction cs with
  | nil => rfl
  | cons c cs ih => rw [List.map_cons, joinPieces, ih, Option.map_some]

/-! ### Tokens -/

/-- Text does not go on with what numbers are written with. -/
def Ends (cs : List Char) : Prop := ∀ c ∈ cs.head?, isNumberChar c = false

/-- A text is cut into tokens, whatever comes behind it. -/
def Scans (cs : List Char) (ts : List Token) : Prop :=
  ∀ rest, Ends rest → scan? (cs ++ rest) = (scan? rest).map (ts ++ ·)

lemma scan?_string {cs rest : List Char} {pieces : List Piece}
    (h : scanString? cs = some (pieces, rest)) : scan? ('"' :: cs) =
      (scan? rest).map (string ((joinPieces pieces).map String.ofList) :: ·) := by
  rw [scan?]
  split
  · next hnone => cases hnone.symm.trans h
  · next pieces' rest' hsome =>
    obtain ⟨rfl, rfl⟩ := Prod.mk.inj (Option.some.inj (hsome.symm.trans h))
    rfl

lemma scans_quoted (s : String) : Scans (quoted s) [.string (some s)] := by
  intro rest _
  rw [quoted, List.cons_append, List.append_assoc, List.singleton_append,
    scan?_string (scanString?_flatMap s.toList rest), joinPieces_map_char, Option.map_some,
    String.ofList_toList]
  rfl

lemma scan?_number {c : Char} (cs : List Char) (h : isNumberChar c = true) :
    scan? (c :: cs) = (NumberLiteral.ofChars? (c :: cs.takeWhile isNumberChar)).bind fun l =>
      (scan? (cs.dropWhile isNumberChar)).map (number l.fitted :: ·) := by
  have hspace : isSpace c = false := by
    by_contra hspace
    rw [Bool.not_eq_false] at hspace
    simp only [isSpace, Bool.or_eq_true, beq_iff_eq] at hspace
    rcases hspace with ((rfl | rfl) | rfl) | rfl <;> cases h
  rw [scan?]
  · rw [if_neg (by simp [hspace]), if_pos h]
    rfl
  -- no other token begins like a number
  all_goals (intros; subst_vars; cases h)

lemma isNumberChar_of_mem_signed {negative : Bool} {cs : List Char} {c : Char}
    (h : ∀ c ∈ cs, isNumberChar c = true) (hc : c ∈ Numeral.signed negative cs) :
    isNumberChar c = true := by
  unfold Numeral.signed at hc
  split at hc
  · rcases List.mem_cons.mp hc with rfl | hc
    · rfl
    · exact h c hc
  · exact h c hc

lemma isNumberChar_of_isDigit {c : Char} (h : c.isDigit = true) : isNumberChar c = true := by
  simp [isNumberChar, h]

lemma isNumberChar_of_mem_text {n : Numeral} {c : Char} (hc : c ∈ n.text) :
    isNumberChar c = true := by
  have hdigits : ∀ n : ℕ, ∀ c ∈ Numeral.decimalDigits n, isNumberChar c = true := fun n c hc =>
    isNumberChar_of_isDigit (NumberLiteral.isDigit_of_mem hc)
  have hinteger : ∀ i : ℤ, ∀ c ∈ Numeral.integerText i, isNumberChar c = true := fun i c hc =>
    isNumberChar_of_mem_signed (hdigits _) hc
  refine isNumberChar_of_mem_signed (fun c hc => ?_) hc
  split_ifs at hc
  · exact hdigits _ c hc
  · rcases List.mem_append.mp hc with hc | hc
    · exact hdigits _ c (List.mem_of_mem_take hc)
    · rcases List.mem_cons.mp hc with rfl | hc
      · rfl
      · exact hdigits _ c (List.mem_of_mem_drop hc)
  · simp only [List.mem_cons, List.mem_append, List.mem_replicate] at hc
    rcases hc with rfl | rfl | ⟨-, rfl⟩ | hc
    · rfl
    · rfl
    · rfl
    · exact hdigits _ c hc
  · simp only [List.nil_append, List.mem_cons, List.mem_append] at hc
    rcases hc with hc | rfl | hc
    · exact hdigits _ c (List.mem_of_mem_take hc)
    · rfl
    · exact hinteger _ c hc
  · simp only [List.mem_cons, List.mem_append] at hc
    rcases hc with hc | (rfl | hc) | rfl | hc
    · exact hdigits _ c (List.mem_of_mem_take hc)
    · rfl
    · exact hdigits _ c (List.mem_of_mem_drop hc)
    · rfl
    · exact hinteger _ c hc

lemma scans_text {n : Numeral} (h : n.Regular) : Scans n.text [.number n] := by
  intro rest hrest
  have hread := Numeral.ofChars?_text h
  rcases htext : n.text with _ | ⟨c, cs⟩
  · rw [htext] at hread
    cases hread
  · have hall : ∀ c' ∈ c :: cs, isNumberChar c' = true :=
      htext ▸ fun c' => isNumberChar_of_mem_text
    have hcs : ∀ c' ∈ cs, isNumberChar c' = true := fun c' hc' =>
      hall c' (List.mem_cons_of_mem c hc')
    have htake : (cs ++ rest).takeWhile isNumberChar = cs := by
      rw [List.takeWhile_append_of_pos hcs]
      cases rest with
      | nil => simp
      | cons c' rest => simp [hrest c' rfl]
    have hdrop : (cs ++ rest).dropWhile isNumberChar = rest := by
      rw [List.dropWhile_append_of_pos hcs]
      cases rest with
      | nil => rfl
      | cons c' rest => simp [hrest c' rfl]
    rw [htext] at hread
    obtain ⟨l, hl, hfitted⟩ := Option.map_eq_some_iff.mp hread
    rw [List.cons_append, scan?_number _ (hall c List.mem_cons_self), htake, hdrop, hl,
      Option.bind_some, hfitted]
    rfl

variable {cs cs' : List Char} {ts ts' : List Token}

lemma Scans.append (h : Scans cs ts) (h' : Scans cs' ts')
    (hends : ∀ rest, Ends rest → Ends (cs' ++ rest)) : Scans (cs ++ cs') (ts ++ ts') := by
  intro rest hrest
  rw [List.append_assoc, h _ (hends rest hrest), h' rest hrest, Option.map_map]
  congr 1
  funext l
  exact (List.append_assoc ..).symm

lemma scans_nil : Scans [] [] := fun rest _ => by simp

lemma Scans.cons {c : Char} {t : Token} (h : Scans cs ts)
    (hc : ∀ rest, scan? (c :: rest) = (scan? rest).map (t :: ·)) : Scans (c :: cs) (t :: ts) := by
  intro rest hrest
  rw [List.cons_append, hc, h rest hrest, Option.map_map]
  rfl

lemma scan?_space {c : Char} (cs : List Char) (h : isSpace c = true) :
    scan? (c :: cs) = scan? cs := by
  rw [scan?]
  · rw [if_pos h]
  all_goals (intros; subst_vars; cases h)

lemma Scans.newLine (h : Scans cs ts) (level : ℕ) : Scans (newLine level ++ cs) ts := by
  intro rest hrest
  have hspaces : ∀ k, scan? (List.replicate k ' ' ++ (cs ++ rest)) = scan? (cs ++ rest) := by
    intro k
    induction k with
    | zero => rfl
    | succ k ih => rw [List.replicate_succ, List.cons_append, scan?_space _ rfl, ih]
  rw [Json.newLine, List.cons_append, List.cons_append, scan?_space _ rfl, List.append_assoc,
    hspaces, h rest hrest]

lemma ends_cons {c : Char} (h : isNumberChar c = false) (cs : List Char) : Ends (c :: cs) := by
  rintro c' hc'
  obtain rfl := Option.some.inj hc'
  exact h

end Token

open Token

/-! ### The tokens of a value -/

mutual

def tokens : Json → List Token
  | null => [.null]
  | bool b => [.bool b]
  | number n => [.number n]
  | string s => [.string s]
  | array [] => [.openArray, .closeArray]
  | array (v :: rest) => .openArray :: (v.tokens ++ (tokensItems rest ++ [.closeArray]))
  | object [] => [.openObject, .closeObject]
  | object ((key, v) :: rest) =>
    .openObject :: .string key :: .colon :: (v.tokens ++ (tokensMembers rest ++ [.closeObject]))

def tokensItems : List Json → List Token
  | [] => []
  | v :: rest => .comma :: (v.tokens ++ tokensItems rest)

def tokensMembers : List (JsonText × Json) → List Token
  | [] => []
  | (key, v) :: rest => .comma :: .string key :: .colon :: (v.tokens ++ tokensMembers rest)

end

lemma ends_charsItems (level : ℕ) (items : List Json) {rest : List Char} (h : Ends rest) :
    Ends (charsItems level items ++ rest) := by
  cases items with
  | nil => exact h
  | cons v items =>
    rw [charsItems, List.cons_append]
    exact ends_cons rfl _

lemma ends_charsMembers (level : ℕ) (members : List (JsonText × Json)) {rest : List Char}
    (h : Ends rest) : Ends (charsMembers level members ++ rest) := by
  cases members with
  | nil => exact h
  | cons m members =>
    rw [charsMembers, List.cons_append]
    exact ends_cons rfl _

lemma scans_closing {c : Char} {t : Token} (hc : ∀ rest, scan? (c :: rest) =
    (scan? rest).map (t :: ·)) (level : ℕ) : Scans (newLine level ++ [c]) [t] :=
  (scans_nil.cons hc).newLine level

lemma scans_member {key : JsonText} (hkey : key.isSome) {cs : List Char} {ts : List Token}
    (h : Scans cs ts) (level : ℕ) :
    Scans (newLine level ++ (quoted (key.getD "") ++ ':' :: ' ' :: cs))
      (.string key :: .colon :: ts) := by
  obtain ⟨s, rfl⟩ := Option.isSome_iff_exists.mp hkey
  have hspace : Scans (' ' :: cs) ts := fun rest hrest => by
    rw [List.cons_append, scan?_space _ rfl, h rest hrest]
  have hcolon : Scans (':' :: ' ' :: cs) (.colon :: ts) := hspace.cons fun rest => by rw [scan?]
  exact ((scans_quoted s).append hcolon fun rest _ => ends_cons rfl _).newLine level

mutual

/-- **The text of a value is cut into its tokens.** -/
theorem scans_chars : ∀ (v : Json) (level : ℕ), v.Proper → Scans (v.chars level) v.tokens
  | null, level, _ => fun rest _ => by simp [chars, tokens, scan?]
  | bool true, level, _ => fun rest _ => by simp [chars, tokens, scan?]
  | bool false, level, _ => fun rest _ => by simp [chars, tokens, scan?]
  | number n, level, .number h _ => by
    rw [chars, tokens]
    exact scans_text h
  | string _, level, .string s => by
    rw [chars, tokens]
    exact scans_quoted s
  | array [], level, _ => by
    rw [chars, tokens]
    exact (scans_nil.cons fun rest => by rw [scan?]).cons fun rest => by rw [scan?]
  | array (v :: rest), level, .array h => by
    obtain ⟨hv, hrest⟩ := List.forall_mem_cons.mp h
    have hclose : Scans (charsItems (level + 1) rest ++ (newLine level ++ [']']))
        (tokensItems rest ++ [.closeArray]) :=
      (scans_charsItems rest (level + 1) hrest).append
        (scans_closing (fun rest => by rw [scan?]) level) fun rest _ => ends_cons rfl _
    rw [chars, tokens]
    simp only [List.append_assoc]
    refine Scans.cons (((scans_chars v (level + 1) hv).append hclose fun rest' hrest' => ?_).newLine
      _) fun rest => by rw [scan?]
    rw [List.append_assoc]
    exact ends_charsItems _ _ (ends_cons rfl _)
  | object [], level, _ => by
    rw [chars, tokens]
    exact (scans_nil.cons fun rest => by rw [scan?]).cons fun rest => by rw [scan?]
  | object ((key, v) :: rest), level, .object hkeys h => by
    obtain ⟨hkey, hkeys⟩ := List.forall_mem_cons.mp hkeys
    obtain ⟨hv, hrest⟩ := List.forall_mem_cons.mp h
    have hclose : Scans (charsMembers (level + 1) rest ++ (newLine level ++ ['}']))
        (tokensMembers rest ++ [.closeObject]) :=
      (scans_charsMembers rest (level + 1) hkeys hrest).append
        (scans_closing (fun rest => by rw [scan?]) level) fun rest _ => ends_cons rfl _
    rw [chars, tokens]
    simp only [List.append_assoc, List.cons_append]
    refine Scans.cons (scans_member hkey ((scans_chars v (level + 1) hv).append hclose
      fun rest' hrest' => ?_) _) fun rest => by rw [scan?]
    rw [List.append_assoc]
    exact ends_charsMembers _ _ (ends_cons rfl _)

theorem scans_charsItems : ∀ (items : List Json) (level : ℕ), (∀ v ∈ items, v.Proper) →
    Scans (charsItems level items) (tokensItems items)
  | [], level, _ => by
    rw [charsItems, tokensItems]
    exact scans_nil
  | v :: rest, level, h => by
    obtain ⟨hv, hrest⟩ := List.forall_mem_cons.mp h
    rw [charsItems, tokensItems, List.append_assoc]
    exact (((scans_chars v level hv).append (scans_charsItems rest level hrest) fun rest' =>
      ends_charsItems _ _).newLine level).cons fun rest => by rw [scan?]

theorem scans_charsMembers : ∀ (members : List (JsonText × Json)) (level : ℕ),
    (∀ m ∈ members, m.1.isSome) → (∀ m ∈ members, m.2.Proper) →
      Scans (charsMembers level members) (tokensMembers members)
  | [], level, _, _ => by
    rw [charsMembers, tokensMembers]
    exact scans_nil
  | (key, v) :: rest, level, hkeys, h => by
    obtain ⟨hkey, hkeys⟩ := List.forall_mem_cons.mp hkeys
    obtain ⟨hv, hrest⟩ := List.forall_mem_cons.mp h
    rw [charsMembers, tokensMembers]
    simp only [List.append_assoc, List.cons_append]
    exact (scans_member hkey ((scans_chars v level hv).append
      (scans_charsMembers rest level hkeys hrest) fun rest' => ends_charsMembers _ _)
      level).cons fun rest => by rw [scan?]

end

/-! ### The value of tokens -/

namespace State

/-- Where a value may stand. -/
def Expects (m : Mode) (stack : List Frame) : Prop :=
  m = .value ∨ m = .item ∧ ∃ items rest, stack = .array items :: rest

lemma run_cons_of_step {s s' : State} {t : Token} (h : s.step t = some s') (ts : List Token) :
    s.run (t :: ts) = s'.run ts := by
  rw [run_cons, h, Option.bind_some]

/-- A value begins in the same way wherever it may stand. -/
lemma run_begin {m : Mode} {stack : List Frame} (hm : Expects m stack) {t : Token} {s : State}
    (h : beginValue stack t = some s) (ts : List Token) : run ⟨stack, m⟩ (t :: ts) = s.run ts := by
  refine run_cons_of_step ?_ ts
  rcases hm with rfl | ⟨rfl, items, rest, rfl⟩
  · exact h
  · cases t with
    | closeArray => cases h
    | _ => exact h

mutual

/-- **The tokens of a value are put together to it**, wherever it may stand. -/
theorem run_tokens : ∀ (v : Json) (m : Mode) (stack : List Frame) (ts : List Token),
    Expects m stack → run ⟨stack, m⟩ (v.tokens ++ ts) = run ⟨stack, .after v⟩ ts
  | null, m, stack, ts, hm => by
    rw [tokens]
    exact run_begin hm rfl ts
  | bool b, m, stack, ts, hm => by
    rw [tokens]
    exact run_begin hm rfl ts
  | number n, m, stack, ts, hm => by
    rw [tokens]
    exact run_begin hm rfl ts
  | string s, m, stack, ts, hm => by
    rw [tokens]
    exact run_begin hm rfl ts
  | array [], m, stack, ts, hm => by
    rw [tokens]
    exact (run_begin hm rfl (.closeArray :: ts)).trans (run_cons_of_step rfl ts)
  | array (v :: rest), m, stack, ts, hm => by
    rw [tokens]
    simp only [List.cons_append, List.append_assoc, List.nil_append]
    refine (run_begin hm rfl _).trans ?_
    rw [run_tokens v _ _ _ (Or.inr ⟨rfl, _, _, rfl⟩), run_tokensItems rest]
    rfl
  | object [], m, stack, ts, hm => by
    rw [tokens]
    exact (run_begin hm rfl (.closeObject :: ts)).trans (run_cons_of_step rfl ts)
  | object ((key, v) :: rest), m, stack, ts, hm => by
    rw [tokens]
    simp only [List.cons_append, List.append_assoc, List.nil_append]
    refine (run_begin hm rfl _).trans ((run_cons_of_step rfl _).trans
      ((run_cons_of_step rfl _).trans ?_))
    rw [run_tokens v _ _ _ (Or.inl rfl), run_tokensMembers rest]
    rfl

theorem run_tokensItems : ∀ (rest : List Json) (v : Json) (items : List Json)
    (stack : List Frame) (ts : List Token),
    run ⟨.array items :: stack, .after v⟩ (tokensItems rest ++ .closeArray :: ts) =
      run ⟨stack, .after (.array (items.reverse ++ v :: rest))⟩ ts
  | [], v, items, stack, ts => by
    rw [tokensItems, List.nil_append]
    refine (run_cons_of_step rfl ts).trans ?_
    rw [List.reverse_cons]
  | v' :: rest, v, items, stack, ts => by
    rw [tokensItems]
    simp only [List.cons_append, List.append_assoc]
    refine (run_cons_of_step rfl _).trans ?_
    rw [run_tokens v' _ _ _ (Or.inl rfl), run_tokensItems rest, List.reverse_cons,
      List.append_assoc, List.singleton_append]

theorem run_tokensMembers : ∀ (rest : List (JsonText × Json)) (key : JsonText) (v : Json)
    (members : List (JsonText × Json)) (stack : List Frame) (ts : List Token),
    run ⟨.object members key :: stack, .after v⟩ (tokensMembers rest ++ .closeObject :: ts) =
      run ⟨stack, .after (.object (members.reverse ++ (key, v) :: rest))⟩ ts
  | [], key, v, members, stack, ts => by
    rw [tokensMembers, List.nil_append]
    refine (run_cons_of_step rfl ts).trans ?_
    rw [List.reverse_cons]
  | (key', v') :: rest, key, v, members, stack, ts => by
    rw [tokensMembers]
    simp only [List.cons_append, List.append_assoc]
    refine (run_cons_of_step rfl _).trans ((run_cons_of_step rfl _).trans
      ((run_cons_of_step rfl _).trans ?_))
    rw [run_tokens v' _ _ _ (Or.inl rfl), run_tokensMembers rest, List.reverse_cons,
      List.append_assoc, List.singleton_append]

end

end State

/-- **What is written is read back.** -/
theorem parse?_print {v : Json} (h : v.Proper) : parse? v.print = some v := by
  have hscan := scans_chars v 0 h [] nofun
  have hrun := State.run_tokens v .value [] [] (Or.inl rfl)
  rw [List.append_nil, scan?, Option.map_some, List.append_nil] at hscan
  rw [List.append_nil, State.run_nil] at hrun
  simp [parse?, print, hscan, State.init, hrun]

end SolidTrace.Json
