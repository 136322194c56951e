import SolidTrace.Proofs.Compile.Decision
import SolidTrace.Proofs.Document.Copies

/-!
Recursion is found out exactly.

A construction that succeeds has entered every copy in it. Along arrows that lead back to where they
start, an array would therefore be entered inside of itself, which fails. The other way round, an
error of recursion is the error of some copy in what was entered, and goes back from copy to copy to
one that stands inside of itself.
-/

namespace SolidTrace

variable {S : Type} [Scalar S]

namespace Build

variable {w : Workshop S} {copy' : CopyBuild S}

/-! ### What succeeds has entered all copies -/

/-- A copy of the name is entered somewhere. -/
def Entered (copy' : CopyBuild S) (name : String) : Prop :=
  ∃ object path forced b a b', copy' object path forced name b = .ok a b'

lemma arrayFilled_eq_ok {object : Option ℕ} {path : String} {count : ℕ}
    {fill : Spot → Build S (List (Occupant S))} {relations : List Relation} {b b' : Builder S}
    {a : Nested S} (h : arrayFilled object path count fill relations b = .ok a b') :
    ∃ spot b₁ occupants b₂, fill spot b₁ = .ok occupants b₂ := by
  obtain ⟨id, b₁, -, h⟩ := bind_eq_ok.mp h
  obtain ⟨occupants, b₂, h₂, -⟩ := bind_eq_ok.mp h
  exact ⟨_, b₁, occupants, b₂, h₂⟩

mutual

/-- A part that is entered has all its copies entered. -/
theorem entered_of_part {spot : Spot} {path : String} {forced : Option Override} {b b' : Builder S}
    {o : Occupant S} {name : String} :
    ∀ p : Part S, part w copy' spot path forced p b = .ok o b' → name ∈ p.copies →
      Entered copy' name
  | .camera .., _, hm => by simp [Part.copies] at hm
  | .light .., _, hm => by simp [Part.copies] at hm
  | .surface .., _, hm => by simp [Part.copies] at hm
  | .copy header name', h, hm => by
    obtain rfl : name = name' := by simpa [Part.copies] using hm
    unfold part at h
    obtain ⟨object, b₁, -, h⟩ := bind_eq_ok.mp h
    obtain ⟨a, b₂, h₂, -⟩ := bind_eq_ok.mp h
    exact ⟨object, _, _, b₁, a, b₂, h₂⟩
  | .assembly header content relations, h, hm => by
    unfold part at h
    obtain ⟨object, b₁, -, h⟩ := bind_eq_ok.mp h
    obtain ⟨a, b₂, h₂, -⟩ := bind_eq_ok.mp h
    obtain ⟨spot', b₃, occupants, b₄, h₃⟩ := arrayFilled_eq_ok h₂
    exact entered_of_parts content h₃ (by simpa [Part.copies] using hm)

theorem entered_of_parts {spot : Spot} {path : String} {forced : Option Override}
    {b b' : Builder S} {os : List (Occupant S)} {name : String} :
    ∀ ps : List (Part S), parts w copy' spot path forced ps b = .ok os b' →
      name ∈ Part.copiesAll ps → Entered copy' name
  | [], _, hm => by simp [Part.copiesAll] at hm
  | p :: ps, h, hm => by
    unfold parts at h
    obtain ⟨o, b₁, h₁, h⟩ := bind_eq_ok.mp h
    obtain ⟨os, b₂, h₂, -⟩ := bind_eq_ok.mp h
    rw [Part.copiesAll, List.mem_append] at hm
    rcases hm with hm | hm
    · exact entered_of_part p h₁ hm
    · exact entered_of_parts ps h₂ hm

end

lemma entered_of_array {object : Option ℕ} {path : String} {forced : Option Override}
    {a : Assembly S} {b b' : Builder S} {n : Nested S} {name : String}
    (h : array w copy' object path forced a.parts a.relations b = .ok n b')
    (hm : name ∈ a.copies) : Entered copy' name := by
  obtain ⟨spot, b₁, occupants, b₂, h₁⟩ := arrayFilled_eq_ok h
  exact entered_of_parts a.parts h₁ hm

section

variable {bound : ℕ} {active : List String} {name inner : String}

/-- A copy that is entered stands outside of itself, and the copies in it are entered inside of
it. -/
lemma Entered.step (h : Entered (copy w bound active) name) : name ∉ active ∧
    ∀ inner, w.document.Copies name inner →
      ∃ bound', Entered (copy w bound' (name :: active)) inner := by
  obtain ⟨object, path, forced, b, n, b', h⟩ := h
  rcases ha : w.document.library.get? name with _ | a
  · rw [copy_of_get?_eq_none ha] at h
    exact (throw_eq_ok.mp h).elim
  · have hm : name ∉ active := by
      intro hm
      rw [copy_of_mem ha hm] at h
      exact throw_eq_ok.mp h
    refine ⟨hm, fun inner ⟨a', ha', hinner⟩ => ?_⟩
    obtain rfl : a = a' := Option.some.inj (ha.symm.trans ha')
    cases bound with
    | zero =>
      rw [copy_zero ha] at h
      exact (throw_eq_ok.mp h).elim
    | succ bound =>
      rw [copy_succ ha hm] at h
      exact ⟨bound, entered_of_array h hinner⟩

/-- Whatever a copy that is entered leads to is entered inside of it. -/
lemma Entered.along (h : Entered (copy w bound active) name)
    (hpath : Relation.TransGen w.document.Copies name inner) :
    ∃ bound' active', name ∈ active' ∧ Entered (copy w bound' active') inner := by
  induction hpath with
  | single hc =>
    obtain ⟨bound', h'⟩ := h.step.2 _ hc
    exact ⟨bound', _, List.mem_cons_self, h'⟩
  | tail _ hc ih =>
    obtain ⟨bound', active', hm, h'⟩ := ih
    obtain ⟨bound'', h''⟩ := h'.step.2 _ hc
    exact ⟨bound'', _, List.mem_cons_of_mem _ hm, h''⟩

lemma Entered.not_turning (h : Entered (copy w bound active) name) :
    ¬ Relation.TransGen w.document.Copies name name := by
  intro hpath
  obtain ⟨bound', active', hm, h'⟩ := h.along hpath
  exact h'.step.1 hm

end

/-- **A recursive document is not entered.** -/
theorem document_not_ok (h : w.document.Recursive) {b b' : Builder S} {u : Unit} :
    document w b ≠ .ok u b' := by
  intro hok
  obtain ⟨name, ⟨first, hfirst, hlead⟩, hturn⟩ := h
  obtain ⟨n, b₁, h₁, -⟩ := bind_eq_ok.mp hok
  have hroot : Entered (copy w w.document.library.size []) first := entered_of_array h₁ hfirst
  rcases Relation.reflTransGen_iff_eq_or_transGen.mp hlead with rfl | hlead
  · exact hroot.not_turning hturn
  · obtain ⟨bound', active', -, h'⟩ := hroot.along hlead
    exact h'.not_turning hturn

/-! ### Errors of recursion come from copies -/

section

variable {α β : Type}

/-- The construction does not fail for recursion. -/
def Loopless (x : Build S α) : Prop :=
  ∀ b name path b', x b ≠ .error (.recursiveInstance name path) b'

omit [Scalar S]

namespace Loopless

lemma pure (a : α) : Loopless (Pure.pure a : Build S α) := fun _ _ _ _ h => by cases h

lemma throw {e : CompileError S} (he : ∀ name path, e ≠ .recursiveInstance name path) :
    Loopless (MonadExcept.throw e : Build S α) :=
  fun _ name path _ h => he name path (EStateM.Result.error.inj h).1

lemma ofExcept {r : Except (CompileError S) α}
    (hr : ∀ name path, r ≠ .error (.recursiveInstance name path)) :
    Loopless (MonadExcept.ofExcept r : Build S α) := by
  cases r with
  | ok a => exact .pure a
  | error e => exact .throw fun name path he => hr name path (he ▸ rfl)

lemma bind {x : Build S α} {f : α → Build S β} (hx : Loopless x) (hf : ∀ a, Loopless (f a)) :
    Loopless (x >>= f) := by
  intro b name path b' h
  rcases bind_eq_error.mp h with h | ⟨a, b₁, -, h⟩
  · exact hx b name path b' h
  · exact hf a b₁ name path b' h

lemma throw_bind {e : CompileError S} (he : ∀ name path, e ≠ .recursiveInstance name path)
    {f : α → Build S β} : Loopless (MonadExcept.throw e >>= f) :=
  fun _ name path _ h => he name path (EStateM.Result.error.inj h).1

lemma pure_bind {a : α} {f : α → Build S β} (h : Loopless (f a)) :
    Loopless (Pure.pure a >>= f) := h

lemma forM {l : List α} {f : α → Build S PUnit} (hf : ∀ a, Loopless (f a)) :
    Loopless (l.forM f) := by
  induction l with
  | nil => exact .pure PUnit.unit
  | cons a l ih => exact (hf a).bind fun _ => ih

lemma checks {l : List β} {f : β → Except (CompileError S) PUnit} {a : α}
    (hf : ∀ c ∈ l, ∀ name path, f c ≠ .error (.recursiveInstance name path)) :
    Loopless (MonadExcept.ofExcept (l.forM f >>= fun _ => Except.ok a)) := by
  refine .ofExcept fun name path h => ?_
  rcases forM_cases f l with ⟨hok, -⟩ | ⟨c, hc, e, he, hfail⟩
  · rw [hok] at h
    cases h
  · rw [hfail] at h
    obtain rfl := Except.error.inj h
    exact hf c hc name path he

lemma getArena : Loopless (getArena : Build S (Arena S)) := fun _ _ _ _ h => by cases h

lemma modifyArena (f : Arena S → Arena S) : Loopless (modifyArena f) :=
  fun _ _ _ _ h => by cases h

lemma enter (place : Arena S → ℕ) (add : Arena S → Arena S) : Loopless (enter place add) :=
  fun _ _ _ _ h => by cases h

lemma acquire (label : String) (layout : Layout) (count : ℕ) :
    Loopless (acquire label layout count : Build S Unit) := by
  intro b name path b' h
  unfold Build.acquire at h
  split at h
  · cases h
  · cases h

lemma camera (c : Camera S) (object : ℕ) : Loopless (camera c object) := by
  refine .bind .getArena fun a => ?_
  split
  · exact .throw_bind fun _ _ h => by cases h
  · exact .enter _ _

lemma light (l : Light S) (object : ℕ) : Loopless (light l object) := by
  refine .bind .getArena fun a => ?_
  split
  · exact .throw_bind fun _ _ h => by cases h
  · exact .enter _ _

end Loopless

end

namespace Loopless

lemma texture (name material : String) : Loopless (texture w name material) := by
  refine .bind .getArena fun a => ?_
  split
  · exact .pure _
  · split
    · split
      · next t _ =>
        refine .pure_bind ?_
        dsimp only
        split
        · exact .bind (.acquire _ _ _) fun _ => .enter _ _
        · exact .enter _ _
      · exact .throw_bind fun _ _ h => by cases h
    · exact .throw fun _ _ h => by cases h

lemma material (name path : String) : Loopless (material w name path) := by
  refine .bind .getArena fun a => ?_
  split
  · exact .pure _
  · split
    · exact .bind (.texture _ _) fun _ => .enter _ _
    · exact .throw fun _ _ h => by cases h

lemma face (f : Face S) (forced : Option String) (path : String) :
    Loopless (face w f forced path) :=
  .bind (.material _ _) fun _ => .pure _

lemma object (h : Header S) (parent : Option ℕ) (path : String) :
    Loopless (object w h parent path) := by
  unfold Build.object
  split
  · exact .pure_bind (.enter _ _)
  · split
    · exact .pure_bind (.enter _ _)
    · exact .throw_bind fun _ _ h => by cases h

lemma clipBox (clip : Box S) (path : String) :
    Loopless (MonadExcept.ofExcept (clipBox clip path)) := by
  unfold Build.clipBox
  refine .checks fun axis _ name path' h => ?_
  dsimp only at h
  split at h
  · cases h
  · cases h

lemma surface (s : Surface S) (object : ℕ) (spot : Spot) (forced : Option Override)
    (path : String) : Loopless (surface w s object spot forced path) :=
  .bind (.clipBox _ _) fun _ => .bind (.face _ _ _) fun _ => .bind (.face _ _ _) fun _ =>
    .bind (.enter _ _) fun _ => .pure _

omit [Scalar S] in
lemma surfaceAt_ne (occupants : List (Occupant S)) (path : String) (position : ℕ)
    {name path' : String} :
    surfaceAt occupants path position ≠ .error (.recursiveInstance name path') := by
  unfold surfaceAt
  split
  · exact nofun
  · exact fun h => by cases h

omit [Scalar S] in
lemma map_surfaceAt_ne {α : Type} {f : ℕ → α} (occupants : List (Occupant S)) (path : String)
    (position : ℕ) {name path' : String} :
    (surfaceAt occupants path position).map f ≠ .error (.recursiveInstance name path') := by
  intro h
  rcases hs : surfaceAt occupants path position with e | s
  · rw [hs] at h
    obtain rfl := Except.error.inj h
    exact surfaceAt_ne _ _ _ hs
  · rw [hs] at h
    cases h

lemma openArray (object : Option ℕ) (path : String) (count : ℕ) :
    Loopless (openArray object path count : Build S ℕ) :=
  .bind (.enter _ _) fun _ => .bind (.acquire _ _ _) fun _ => .pure _

omit [Scalar S] in
lemma trimPosition (occupants : List (Occupant S)) (path : String) (array : ℕ)
    (occupant : Occupant S) (trims : List Program.LocalTrim) :
    Loopless (trimPosition occupants path array occupant trims) := by
  unfold Build.trimPosition
  split
  · exact .pure _
  · refine .bind (.ofExcept fun name path' h => ?_) fun _ => .forM fun _ => ?_
    · obtain ⟨t, -, ht⟩ := exists_of_mapM_eq_error h
      cases t with
      | outer p => exact map_surfaceAt_ne _ _ _ ht
      | inner p => exact map_surfaceAt_ne _ _ _ ht
      | accum u => cases ht
    · exact .bind (.acquire _ _ _) fun _ => .modifyArena _

lemma closeArray (array : ℕ) (path : String) (occupants : List (Occupant S))
    (relations : List Relation) : Loopless (closeArray array path occupants relations) := by
  unfold Build.closeArray
  split
  · refine .pure_bind (.bind (.forM fun _ => .trimPosition _ _ _ _ _) fun _ => ?_)
    refine .bind (.ofExcept fun name path' h => ?_) fun _ => ?_
    · obtain ⟨p, -, hp⟩ := exists_of_mapM_eq_error h
      exact surfaceAt_ne _ _ _ hp
    · exact .bind (.acquire _ _ _) fun _ => .bind (.modifyArena _) fun _ => .pure _
  · exact .throw_bind fun _ _ h => by cases h

omit [Scalar S] in
lemma acquireTables : Loopless (acquireTables : Build S Unit) :=
  .bind .getArena fun _ =>
    .bind (.acquire _ _ _) fun _ => .bind (.acquire _ _ _) fun _ =>
    .bind (.acquire _ _ _) fun _ => .bind (.acquire _ _ _) fun _ =>
    .bind (.acquire _ _ _) fun _ => .acquire _ _ _

end Loopless

/-- A copy of the name fails for recursion, of the array found inside itself. -/
def Refused (copy' : CopyBuild S) (name found : String) : Prop :=
  ∃ object path forced b path' b',
    copy' object path forced name b = .error (.recursiveInstance found path') b'

variable {found : String}

lemma arrayFilled_refused {object : Option ℕ} {path path' : String} {count : ℕ}
    {fill : Spot → Build S (List (Occupant S))} {relations : List Relation} {b b' : Builder S}
    (h : arrayFilled object path count fill relations b =
      .error (.recursiveInstance found path') b') :
    ∃ spot b₁, fill spot b₁ = .error (.recursiveInstance found path') b' := by
  rcases bind_eq_error.mp h with h | ⟨id, b₁, -, h⟩
  · exact (Loopless.openArray _ _ _ _ _ _ _ h).elim
  · rcases bind_eq_error.mp h with h | ⟨occupants, b₂, -, h⟩
    · exact ⟨_, b₁, h⟩
    · exact (Loopless.closeArray _ _ _ _ _ _ _ _ h).elim

mutual

/-- A part fails for recursion where one of its copies does. -/
theorem refused_of_part {spot : Spot} {path path' : String} {forced : Option Override}
    {b b' : Builder S} :
    ∀ p : Part S, part w copy' spot path forced p b = .error (.recursiveInstance found path') b' →
      ∃ name ∈ p.copies, Refused copy' name found
  | .camera header c, h => by
    unfold part at h
    refine (Loopless.bind (.object _ _ _) fun _ => ?_ : Loopless _) _ _ _ _ h |>.elim
    exact .bind (.camera _ _) fun _ => .pure _
  | .light header l, h => by
    unfold part at h
    refine (Loopless.bind (.object _ _ _) fun _ => ?_ : Loopless _) _ _ _ _ h |>.elim
    exact .bind (.light _ _) fun _ => .pure _
  | .surface header s, h => by
    unfold part at h
    refine (Loopless.bind (.object _ _ _) fun _ => ?_ : Loopless _) _ _ _ _ h |>.elim
    exact .bind (.surface _ _ _ _ _) fun _ => .pure _
  | .copy header name, h => by
    unfold part at h
    rcases bind_eq_error.mp h with h | ⟨object, b₁, -, h⟩
    · exact (Loopless.object _ _ _ _ _ _ _ h).elim
    · rcases bind_eq_error.mp h with h | ⟨a, b₂, -, h⟩
      · exact ⟨name, by simp [Part.copies], object, _, _, b₁, path', b', h⟩
      · exact (Loopless.pure _ _ _ _ _ h).elim
  | .assembly header content relations, h => by
    unfold part at h
    rcases bind_eq_error.mp h with h | ⟨object, b₁, -, h⟩
    · exact (Loopless.object _ _ _ _ _ _ _ h).elim
    · rcases bind_eq_error.mp h with h | ⟨a, b₂, -, h⟩
      · obtain ⟨spot', b₃, h⟩ := arrayFilled_refused h
        simpa [Part.copies] using refused_of_parts content h
      · exact (Loopless.pure _ _ _ _ _ h).elim

theorem refused_of_parts {spot : Spot} {path path' : String} {forced : Option Override}
    {b b' : Builder S} :
    ∀ ps : List (Part S),
      parts w copy' spot path forced ps b = .error (.recursiveInstance found path') b' →
        ∃ name ∈ Part.copiesAll ps, Refused copy' name found
  | [], h => by
    unfold parts at h
    exact (Loopless.pure _ _ _ _ _ h).elim
  | p :: ps, h => by
    unfold parts at h
    simp only [Part.copiesAll, List.mem_append]
    rcases bind_eq_error.mp h with h | ⟨o, b₁, -, h⟩
    · obtain ⟨name, hm, hr⟩ := refused_of_part p h
      exact ⟨name, Or.inl hm, hr⟩
    · rcases bind_eq_error.mp h with h | ⟨os, b₂, -, h⟩
      · obtain ⟨name, hm, hr⟩ := refused_of_parts ps h
        exact ⟨name, Or.inr hm, hr⟩
      · exact (Loopless.pure _ _ _ _ _ h).elim

end

lemma refused_of_array {object : Option ℕ} {path path' : String} {forced : Option Override}
    {a : Assembly S} {b b' : Builder S}
    (h : array w copy' object path forced a.parts a.relations b =
      .error (.recursiveInstance found path') b') :
    ∃ name ∈ a.copies, Refused copy' name found := by
  obtain ⟨spot, b₁, h₁⟩ := arrayFilled_refused h
  exact refused_of_parts a.parts h₁

/-- **What is refused leads back to itself.** The arrays under way lead to the copy that is entered,
so a copy of one of them closes a circle. -/
theorem Refused.turns {bound : ℕ} {active : List String} {name : String}
    (h : Refused (copy w bound active) name found) (hd : active.Nodup)
    (hin : ∀ n ∈ active, (w.document.library.get? n).isSome)
    (hbound : w.document.library.size ≤ active.length + bound)
    (hlead : w.document.Leads name)
    (hactive : ∀ n ∈ active, Relation.TransGen w.document.Copies n name) :
    w.document.Turns found := by
  -- with nothing left of the bound every array is under way, so the copy closes a circle there
  induction bound generalizing active name with
  | zero =>
    obtain ⟨object, path, forced, b, path', b', h⟩ := h
    rcases ha : w.document.library.get? name with _ | a
    · rw [copy_of_get?_eq_none ha] at h
      cases h
    · have hm : name ∈ active := Dict.mem_of_size_le hd hin hbound (ha ▸ rfl)
      rw [copy_of_mem ha hm] at h
      cases h
      exact ⟨hlead, hactive _ hm⟩
  | succ bound ih =>
    obtain ⟨object, path, forced, b, path', b', h⟩ := h
    rcases ha : w.document.library.get? name with _ | a
    · rw [copy_of_get?_eq_none ha] at h
      cases h
    · by_cases hm : name ∈ active
      · rw [copy_of_mem ha hm] at h
        cases h
        exact ⟨hlead, hactive _ hm⟩
      · rw [copy_succ ha hm] at h
        obtain ⟨inner, hinner, hr⟩ := refused_of_array h
        have hc : w.document.Copies name inner := ⟨a, ha, hinner⟩
        have hlength : (name :: active).length = active.length + 1 := List.length_cons
        refine ih hr (List.nodup_cons.mpr ⟨hm, hd⟩) (fun n hn => ?_) (by omega)
          (hlead.copies hc) (fun n hn => ?_)
        · rcases List.mem_cons.mp hn with rfl | hn
          · exact ha ▸ rfl
          · exact hin n hn
        · rcases List.mem_cons.mp hn with rfl | hn
          · exact .single hc
          · exact (hactive n hn).tail hc

/-- **An error of recursion names an array that leads back to itself.** -/
theorem document_refused {b b' : Builder S} {path : String}
    (h : document w b = .error (.recursiveInstance found path) b') : w.document.Turns found := by
  rcases bind_eq_error.mp h with h | ⟨n, b₁, -, h⟩
  · obtain ⟨name, hm, hr⟩ := refused_of_array h
    exact hr.turns .nil nofun (by simp) (.of_mem hm) nofun
  · refine absurd h (Loopless.bind .getArena (fun a => ?_) _ _ _ _)
    split
    · exact .throw_bind fun _ _ h => by cases h
    · exact .acquireTables

end Build

end SolidTrace
