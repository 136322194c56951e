import SolidTrace.Proofs.Compile.Expansion
import SolidTrace.Proofs.Compile.Recursion

/-!
The stack of arrays under way.

A `Walk` goes over a document with one stack for all copies: the name of a copy is put on it, the
array is walked, and whatever is on top then is taken off. Nothing bounds how deep copies stand in
one another, so a walk may be without end; it has none yet when `fuel` copies inside one another do
not suffice. Walks that look for the name of a copy on the stack end, with the stack that they began
with, and do what `compile` does.
-/

namespace SolidTrace

variable {S : Type}

/-- A construction with a stack of names. It comes out with what was built and the stack also when
it fails, or has not come to its end. -/
def Walk (S α : Type) : Type :=
  Builder S → List String → Option (Except (CompileError S) α × Builder S × List String)

/-- Walks a copy of a library array: below an object, at a path, with the override in force there,
by name. -/
abbrev CopyWalk (S : Type) : Type :=
  (object : ℕ) → (path : String) → (forced : Option Override) → (name : String) → Walk S (Nested S)

namespace Walk

variable {α β : Type}

/-- A construction that leaves the stack alone. -/
def lift (x : Build S α) : Walk S α := fun b stack =>
  match x b with
  | .ok a b' => some (.ok a, b', stack)
  | .error e b' => some (.error e, b', stack)

def bind (x : Walk S α) (f : α → Walk S β) : Walk S β := fun b stack =>
  match x b stack with
  | none => none
  | some (.ok a, b', stack') => f a b' stack'
  | some (.error e, b', stack') => some (.error e, b', stack')

instance : Monad (Walk S) where
  pure a := lift (pure a)
  bind := bind

/-- Walks with a name on the stack, and takes off the top when that is done, also after an error. -/
def within (name : String) (x : Walk S α) : Walk S α := fun b stack =>
  (x b (name :: stack)).map fun (r, b', stack') => (r, b', stack'.tail)

/-! ### Walks side by side -/

/-- A relation between walks that can be carried from step to step. -/
structure Congruence (R : ∀ {α : Type}, Walk S α → Walk S α → Prop) : Prop where
  lift : ∀ {α : Type} (x : Build S α), R (lift x) (lift x)
  bind : ∀ {α β : Type} {x y : Walk S α} {f g : α → Walk S β}, R x y → (∀ a, R (f a) (g a)) →
    R (x >>= f) (y >>= g)

lemma Congruence.pure {R : ∀ {α : Type}, Walk S α → Walk S α → Prop} (hR : Congruence R) (a : α) :
    R (Pure.pure a) (Pure.pure a) := hR.lift _

lemma lift_bind (x : Build S α) (f : α → Build S β) :
    lift (x >>= f) = lift x >>= fun a => lift (f a) := by
  funext b stack
  rw [show (lift x >>= fun a => lift (f a)) b stack = bind (lift x) (fun a => lift (f a)) b stack
    from rfl]
  rcases hx : x b with ⟨a, b₁⟩ | ⟨e, b₁⟩
  · simp [bind, lift, Bind.bind, EStateM.bind, hx]
  · simp [bind, lift, Bind.bind, EStateM.bind, hx]

lemma within_lift (name : String) (x : Build S α) : within name (lift x) = lift x := by
  funext b stack
  unfold within lift
  rcases x b with ⟨a, b'⟩ | ⟨e, b'⟩
  · rfl
  · rfl

section

variable {b b' : Builder S} {stack stack' : List String}

lemma bind_eq_some {x : Walk S α} {f : α → Walk S β} {r : Except (CompileError S) β} :
    (x >>= f) b stack = some (r, b', stack') ↔
      (∃ a b₁ stack₁, x b stack = some (.ok a, b₁, stack₁) ∧
        f a b₁ stack₁ = some (r, b', stack')) ∨
      ∃ e, x b stack = some (.error e, b', stack') ∧ r = .error e := by
  rw [show (x >>= f) b stack = bind x f b stack from rfl, bind]
  rcases x b stack with _ | ⟨e | a, b₁, stack₁⟩
  · simp
  · simp only [Option.some.injEq, Prod.mk.injEq]
    constructor
    · rintro ⟨rfl, rfl, rfl⟩
      exact Or.inr ⟨e, ⟨rfl, rfl, rfl⟩, rfl⟩
    · rintro (⟨a, b₂, stack₂, ⟨h, -⟩, -⟩ | ⟨e', ⟨he, rfl, rfl⟩, rfl⟩)
      · cases h
      · exact ⟨congrArg _ (Except.error.inj he), rfl, rfl⟩
  · simp only [Option.some.injEq, Prod.mk.injEq, Except.ok.injEq]
    constructor
    · exact fun h => Or.inl ⟨a, b₁, stack₁, ⟨rfl, rfl, rfl⟩, h⟩
    · rintro (⟨a', b₂, stack₂, ⟨rfl, rfl, rfl⟩, h⟩ | ⟨e', ⟨h, -⟩, -⟩)
      · exact h
      · cases h

end

/-- Wherever the walk ends, by success or by an error, the stack is what it was. -/
def Restores (x : Walk S α) : Prop :=
  ∀ b stack r b' stack', x b stack = some (r, b', stack') → stack' = stack

lemma restores_lift (x : Build S α) : Restores (lift x) := by
  intro b stack r b' stack' h
  unfold lift at h
  split at h
  · exact (Prod.mk.inj (Prod.mk.inj (Option.some.inj h)).2).2.symm
  · exact (Prod.mk.inj (Prod.mk.inj (Option.some.inj h)).2).2.symm

lemma Restores.bind {x : Walk S α} {f : α → Walk S β} (hx : Restores x)
    (hf : ∀ a, Restores (f a)) : Restores (x >>= f) := by
  intro b stack r b' stack' h
  rcases bind_eq_some.mp h with ⟨a, b₁, stack₁, h₁, h₂⟩ | ⟨e, h₁, -⟩
  · rw [hf a b₁ stack₁ r b' stack' h₂, hx b stack _ b₁ stack₁ h₁]
  · exact hx b stack _ b' stack' h₁

lemma congruence_restores : Congruence fun x _ : Walk S _ => Restores x :=
  ⟨restores_lift, .bind⟩

lemma Restores.within {x : Walk S α} (hx : Restores x) (name : String) :
    Restores (within name x) := by
  intro b stack r b' stack' h
  obtain ⟨⟨r₁, b₁, stack₁⟩, h₁, heq⟩ := Option.map_eq_some_iff.mp h
  simp only [Prod.mk.injEq] at heq
  rw [← heq.2.2, hx b _ r₁ b₁ stack₁ h₁, List.tail_cons]

/-- With this stack both walks do the same, and leave it. -/
def Agrees (stack : List String) (x y : Walk S α) : Prop :=
  (∀ b, x b stack = y b stack) ∧ Restores y

lemma congruence_agrees (stack : List String) :
    Congruence fun x y : Walk S _ => Agrees stack x y where
  lift x := ⟨fun _ => rfl, restores_lift x⟩
  bind {α β x y f g} hx hf := by
    refine ⟨fun b => ?_, hx.2.bind fun a => (hf a).2⟩
    rw [show (x >>= f) b stack = bind x f b stack from rfl,
      show (y >>= g) b stack = bind y g b stack from rfl, bind, bind, hx.1 b]
    rcases hy : y b stack with _ | ⟨e | a, b₁, stack₁⟩
    · rfl
    · rfl
    · obtain rfl := hx.2 b stack _ b₁ stack₁ hy
      exact (hf a).1 b₁

/-- The second walk does what the first one does, unless the first one finds an array inside
itself. -/
def Passes (x y : Walk S α) : Prop := ∀ b stack, y b stack = x b stack ∨
  ∃ name path b' stack', x b stack = some (.error (.recursiveInstance name path), b', stack')

lemma congruence_passes : Congruence fun x y : Walk S _ => Passes x y where
  lift _ _ _ := Or.inl rfl
  bind {α β x y f g} hx hf := by
    intro b stack
    rw [show (x >>= f) b stack = bind x f b stack from rfl,
      show (y >>= g) b stack = bind y g b stack from rfl, bind, bind]
    rcases hx b stack with h | ⟨name, path, b', stack', h⟩
    · rw [h]
      rcases x b stack with _ | ⟨e | a, b₁, stack₁⟩
      · exact Or.inl rfl
      · exact Or.inl rfl
      · exact hf a b₁ stack₁
    · rw [h]
      exact Or.inr ⟨name, path, b', stack', rfl⟩

/-! ### Documents -/

variable [Scalar S]

def arrayFilled (object : Option ℕ) (path : String) (count : ℕ)
    (fill : Build.Spot → Walk S (List (Occupant S))) (relations : List Relation) :
    Walk S (Nested S) := do
  let id ← lift (Build.openArray object path count)
  let occupants ← fill ⟨id, object, 0⟩
  lift (Build.closeArray id path occupants relations)

section

variable (w : Workshop S) (copy : CopyWalk S)

mutual

def part (spot : Build.Spot) (arrayPath : String) (forced : Option Override) :
    Part S → Walk S (Occupant S)
  | .surface h s => do
    let path := Build.partPath arrayPath spot.position h
    let object ← lift (Build.object w h spot.parent path)
    let (id, n) ← lift (Build.surface w s object spot (h.materials <|> forced) path)
    return ⟨.surface id, object, h.placement, [id], some n.bounds⟩
  | .assembly h content relations => do
    let path := Build.partPath arrayPath spot.position h
    let object ← lift (Build.object w h spot.parent path)
    let a ← arrayFilled (some object) path content.length
      (fun spot => parts spot path (h.materials <|> forced) content) relations
    return ⟨.array a.id, object, h.placement, a.surfaces, some a.extent⟩
  | .copy h name => do
    let path := Build.partPath arrayPath spot.position h
    let object ← lift (Build.object w h spot.parent path)
    let a ← copy object path (h.materials <|> forced) name
    return ⟨.array a.id, object, h.placement, a.surfaces, some a.extent⟩
  | .camera h c => do
    let object ← lift (Build.object w h spot.parent (Build.partPath arrayPath spot.position h))
    return ⟨.camera (← lift (Build.camera c object)), object, h.placement, [], none⟩
  | .light h l => do
    let object ← lift (Build.object w h spot.parent (Build.partPath arrayPath spot.position h))
    return ⟨.light (← lift (Build.light l object)), object, h.placement, [], none⟩

def parts (spot : Build.Spot) (arrayPath : String) (forced : Option Override) :
    List (Part S) → Walk S (List (Occupant S))
  | [] => return []
  | p :: rest => do
    let occupant ← part spot arrayPath forced p
    let occupants ← parts { spot with position := spot.position + 1 } arrayPath forced rest
    return occupant :: occupants

end

def array (object : Option ℕ) (path : String) (forced : Option Override)
    (content : List (Part S)) (relations : List Relation) : Walk S (Nested S) :=
  arrayFilled object path content.length (fun spot => parts w copy spot path forced content)
    relations

end

/-- Walks a copy. With `tested`, its name must not be on the stack. -/
def copy (w : Workshop S) (tested : Bool) : (fuel : ℕ) → CopyWalk S
  | 0, _, _, _, _ => fun _ _ => none
  | fuel + 1, object, path, forced, name => fun b stack =>
    match w.document.library.get? name with
    | none => lift (throw (.unknownArray name path)) b stack
    | some a =>
      if tested ∧ name ∈ stack then lift (throw (.recursiveInstance name path)) b stack
      else within name (array w (copy w tested fuel) (some object) path forced a.parts a.relations)
        b stack

def document (w : Workshop S) (tested : Bool) (fuel : ℕ) : Walk S Unit := do
  let root := w.document.root
  let _ ← array w (copy w tested fuel) none "root" none root.parts root.relations
  lift do
    if (← Build.getArena).cameras.isEmpty then throw .noCamera
    Build.acquireTables

namespace Congruence

variable {R : ∀ {α : Type}, Walk S α → Walk S α → Prop} {w : Workshop S} {c c' : CopyWalk S}

lemma arrayFilled (hR : Congruence R) {fill fill' : Build.Spot → Walk S (List (Occupant S))}
    (h : ∀ spot, R (fill spot) (fill' spot)) (object : Option ℕ) (path : String) (count : ℕ)
    (relations : List Relation) : R (arrayFilled object path count fill relations)
      (arrayFilled object path count fill' relations) :=
  hR.bind (hR.lift _) fun _ => hR.bind (h _) fun _ => hR.lift _

mutual

/-- **Related copies make related parts.** -/
theorem part (hR : Congruence R)
    (hc : ∀ object path forced name, R (c object path forced name) (c' object path forced name))
    (spot : Build.Spot) (path : String) (forced : Option Override) :
    ∀ p : Part S, R (part w c spot path forced p) (part w c' spot path forced p)
  | .camera h c => by
    unfold Walk.part
    exact hR.bind (hR.lift _) fun _ => hR.bind (hR.lift _) fun _ => hR.pure _
  | .light h l => by
    unfold Walk.part
    exact hR.bind (hR.lift _) fun _ => hR.bind (hR.lift _) fun _ => hR.pure _
  | .surface h s => by
    unfold Walk.part
    exact hR.bind (hR.lift _) fun _ => hR.bind (hR.lift _) fun _ => hR.pure _
  | .copy h name => by
    unfold Walk.part
    exact hR.bind (hR.lift _) fun _ => hR.bind (hc _ _ _ _) fun _ => hR.pure _
  | .assembly h content relations => by
    unfold Walk.part
    exact hR.bind (hR.lift _) fun _ =>
      hR.bind (hR.arrayFilled (fun spot => hR.parts hc _ _ content spot) _ _ _ _) fun _ =>
        hR.pure _

theorem parts (hR : Congruence R)
    (hc : ∀ object path forced name, R (c object path forced name) (c' object path forced name))
    (path : String) (forced : Option Override) :
    ∀ (ps : List (Part S)) (spot : Build.Spot),
      R (parts w c spot path forced ps) (parts w c' spot path forced ps)
  | [], spot => by
    unfold Walk.parts
    exact hR.pure _
  | p :: ps, spot => by
    unfold Walk.parts
    exact hR.bind (hR.part hc _ _ _ p) fun _ => hR.bind (hR.parts hc _ _ ps _) fun _ => hR.pure _

end

lemma array (hR : Congruence R)
    (hc : ∀ object path forced name, R (c object path forced name) (c' object path forced name))
    (object : Option ℕ) (path : String) (forced : Option Override) (content : List (Part S))
    (relations : List Relation) : R (array w c object path forced content relations)
      (array w c' object path forced content relations) :=
  hR.arrayFilled (fun spot => hR.parts hc _ _ content spot) _ _ _ _

end Congruence

/-- **Copies leave the stack as they find it**, whatever it is, tested or not. -/
theorem restores_copy (w : Workshop S) (tested : Bool) (fuel object : ℕ) (path : String)
    (forced : Option Override) (name : String) :
    Restores (copy w tested fuel object path forced name) := by
  induction fuel generalizing object path forced name with
  | zero => exact nofun
  | succ fuel ih =>
    intro b stack r b' stack' h
    unfold copy at h
    split at h
    · exact restores_lift _ b stack r b' stack' h
    · split at h
      · exact restores_lift _ b stack r b' stack' h
      · next a _ _ =>
        have harray : Restores (array w (copy w tested fuel) (some object) path forced a.parts
            a.relations) :=
          @Congruence.array _ _ _ _ _ (copy w tested fuel) congruence_restores ih _ _ _ _ _
        exact harray.within name b stack r b' stack' h

/-! ### Walks that test end -/

section

variable {w : Workshop S}

lemma lift_arrayFilled {fill : Build.Spot → Build S (List (Occupant S))} (object : Option ℕ)
    (path : String) (count : ℕ) (relations : List Relation) :
    lift (Build.arrayFilled object path count fill relations) =
      arrayFilled object path count (fun spot => lift (fill spot)) relations := by
  simp only [Build.arrayFilled, arrayFilled, lift_bind]

mutual

/-- Parts with copies that leave the stack alone leave it alone. -/
theorem lift_part (c : Build.CopyBuild S) (spot : Build.Spot) (path : String)
    (forced : Option Override) : ∀ p : Part S, lift (Build.part w c spot path forced p) =
      part w (fun object path forced name => lift (c object path forced name)) spot path forced p
  | .camera h c => by
    simp only [Build.part, part, lift_bind]
    rfl
  | .light h l => by
    simp only [Build.part, part, lift_bind]
    rfl
  | .surface h s => by
    simp only [Build.part, part, lift_bind]
    rfl
  | .copy h name => by
    simp only [Build.part, part, lift_bind]
    rfl
  | .assembly h content relations => by
    simp only [Build.part, part, lift_bind, lift_arrayFilled, fun spot path forced =>
      lift_parts c path forced content spot]
    rfl

theorem lift_parts (c : Build.CopyBuild S) (path : String) (forced : Option Override) :
    ∀ (ps : List (Part S)) (spot : Build.Spot),
      lift (Build.parts w c spot path forced ps) =
        parts w (fun object path forced name => lift (c object path forced name)) spot path forced
          ps
  | [], _ => by
    unfold Build.parts parts
    rfl
  | p :: ps, spot => by
    simp only [Build.parts, parts, lift_bind, lift_part c _ _ _ p, fun spot =>
      lift_parts c path forced ps spot]
    rfl

end

lemma lift_array (c : Build.CopyBuild S) (object : Option ℕ) (path : String)
    (forced : Option Override) (content : List (Part S)) (relations : List Relation) :
    lift (Build.array w c object path forced content relations) =
      array w (fun object path forced name => lift (c object path forced name)) object path forced
        content relations := by
  simp only [Build.array, array, lift_arrayFilled, lift_parts]

/-- **Walks that test do what the bounded ones do.** With the arrays under way on the stack, and
more fuel than there are others, a copy is walked to its end. -/
theorem copy_agrees {bound fuel : ℕ} {stack : List String} (hd : stack.Nodup)
    (hin : ∀ n ∈ stack, (w.document.library.get? n).isSome)
    (hbound : w.document.library.size ≤ stack.length + bound) (hfuel : bound < fuel)
    (object : ℕ) (path : String) (forced : Option Override) (name : String) :
    Agrees stack (copy w true fuel object path forced name)
      (lift (Build.copy w bound stack object path forced name)) := by
  refine ⟨fun b => ?_, restores_lift _⟩
  induction fuel generalizing bound stack object path forced name b with
  | zero => omega
  | succ fuel ih =>
    unfold copy
    rcases ha : w.document.library.get? name with _ | a
    · rw [Build.copy_of_get?_eq_none ha]
    · by_cases hm : name ∈ stack
      · rw [Build.copy_of_mem ha hm]
        exact if_pos ⟨rfl, hm⟩
      · obtain ⟨bound, rfl⟩ : ∃ deeper, bound = deeper + 1 := by
          refine Nat.exists_eq_succ_of_ne_zero fun hzero => hm ?_
          exact Dict.mem_of_size_le hd hin (by omega) (ha ▸ rfl)
        have hlength : (name :: stack).length = stack.length + 1 := List.length_cons
        have hinner : ∀ n ∈ name :: stack, (w.document.library.get? n).isSome := by
          intro n hn
          rcases List.mem_cons.mp hn with rfl | hn
          · exact ha ▸ rfl
          · exact hin n hn
        have hcopies : ∀ object path forced inner, Agrees (name :: stack)
            (copy w true fuel object path forced inner)
            (lift (Build.copy w bound (name :: stack) object path forced inner)) :=
          fun object path forced inner => ⟨ih (List.nodup_cons.mpr ⟨hm, hd⟩) hinner (by omega)
            (by omega) object path forced inner, restores_lift _⟩
        have harray : Agrees (name :: stack)
            (array w (copy w true fuel) (some object) path forced a.parts a.relations)
            (lift (Build.array w (Build.copy w bound (name :: stack)) (some object) path forced
              a.parts a.relations)) := by
          rw [lift_array]
          exact (congruence_agrees _).array hcopies _ _ _ _ _
        rw [Build.copy_succ ha hm]
        refine (if_neg fun h => hm h.2).trans ?_
        rw [within, harray.1 b]
        exact congrFun (congrFun (within_lift name _) b) stack

/-- **The walk over a document ends**, and does what construction does. -/
theorem document_agrees {fuel : ℕ} (hfuel : w.document.library.size < fuel) :
    Agrees [] (document w true fuel) (lift (Build.document w)) := by
  have hcopies : ∀ object path forced name, Agrees [] (copy w true fuel object path forced name)
      (lift (Build.copy w w.document.library.size [] object path forced name)) :=
    copy_agrees .nil nofun (by simp) hfuel
  have hrest : ∀ x : Build S Unit, Agrees [] (lift x) (lift x) :=
    fun x => ⟨fun _ => rfl, restores_lift x⟩
  have hboth := (congruence_agrees []).bind (f := fun _ => lift do
      if (← Build.getArena).cameras.isEmpty then throw .noCamera
      Build.acquireTables) ((congruence_agrees []).array (w := w) hcopies none "root" none
    w.document.root.parts w.document.root.relations) fun _ => hrest _
  rw [← lift_array, ← lift_bind] at hboth
  exact hboth

/-! ### Walks that do not test -/

lemma passes_copy (fuel object : ℕ) (path : String) (forced : Option Override) (name : String) :
    Passes (copy w true fuel object path forced name)
      (copy w false fuel object path forced name) := by
  induction fuel generalizing object path forced name with
  | zero => exact fun _ _ => Or.inl rfl
  | succ fuel ih =>
    intro b stack
    unfold copy
    rcases w.document.library.get? name with _ | a
    · exact Or.inl rfl
    · by_cases hm : name ∈ stack
      · exact Or.inr ⟨name, path, b, stack, if_pos ⟨rfl, hm⟩⟩
      · dsimp only
        rw [if_neg (Bool.false_ne_true ∘ And.left), if_neg (hm ∘ And.right)]
        unfold within
        rcases congruence_passes.array (w := w) ih (some object) path forced a.parts a.relations b
          (name :: stack) with h | ⟨found, path', b', stack', h⟩
        · rw [h]
          exact Or.inl rfl
        · rw [h]
          exact Or.inr ⟨found, path', b', stack'.tail, rfl⟩

lemma passes_document (fuel : ℕ) : Passes (document w true fuel) (document w false fuel) :=
  congruence_passes.bind (congruence_passes.array (passes_copy fuel) _ _ _ _ _) fun _ =>
    congruence_passes.lift _

end

end Walk

variable [Scalar S]

/-- A walk comes to what compiling comes to. -/
lemma exists_walk (w : Workshop S) (allocator : Allocator) {fuel : ℕ}
    (hfuel : w.document.library.size < fuel) : ∃ r b,
      Walk.document w true fuel ⟨Arena.empty, Ledger.empty, allocator⟩ [] = some (r, b, []) ∧
        (compile w allocator).1 = r.map fun _ => ⟨b.arena, b.ledger⟩ := by
  rw [(Walk.document_agrees hfuel).1, Walk.lift, compile]
  rcases Build.document w ⟨Arena.empty, Ledger.empty, allocator⟩ with ⟨u, b⟩ | ⟨e, b⟩
  · exact ⟨.ok u, b, rfl, rfl⟩
  · exact ⟨.error e, b, rfl, rfl⟩

/-- **Recursion is found out exactly.** The walk ends, with an empty stack, in what compiling comes
to, and each copy in it leaves the stack as it finds it. A recursive document is refused: for the
recursion, or for an error that is met without looking for recursion too. A document that is not
recursive is not refused for recursion. -/
theorem recursion_found (w : Workshop S) (allocator : Allocator) :
    (∀ fuel > w.document.library.size, ∃ r b,
      Walk.document w true fuel ⟨Arena.empty, Ledger.empty, allocator⟩ [] = some (r, b, []) ∧
        (compile w allocator).1 = r.map fun _ => ⟨b.arena, b.ledger⟩) ∧
    (∀ fuel object path forced name b stack r b' stack',
      Walk.copy w true fuel object path forced name b stack = some (r, b', stack') →
        stack' = stack) ∧
    (w.document.Recursive → ∃ e, (compile w allocator).1 = .error e ∧
      ((∃ name path, e = .recursiveInstance name path) ∨
        ∀ fuel > w.document.library.size, ∃ b, Walk.document w false fuel
          ⟨Arena.empty, Ledger.empty, allocator⟩ [] = some (.error e, b, []))) ∧
    (¬ w.document.Recursive → ∀ name path,
      (compile w allocator).1 ≠ .error (.recursiveInstance name path)) := by
  refine ⟨fun fuel => exists_walk w allocator, fun fuel object path forced name => ?_,
    fun h => ?_, fun h name path hc => h ⟨name, ?_⟩⟩
  · exact Walk.restores_copy w true fuel object path forced name
  · rcases hc : (compile w allocator).1 with e | c
    · refine ⟨e, rfl, or_iff_not_imp_left.mpr fun he fuel hfuel => ?_⟩
      obtain ⟨r, b, hwalk, hr⟩ := exists_walk w allocator hfuel
      obtain rfl : r = .error e := by
        rcases r with e' | u
        · exact congrArg _ (Except.error.inj (hr.symm.trans hc))
        · cases hr.symm.trans hc
      rcases Walk.passes_document (w := w) fuel ⟨Arena.empty, Ledger.empty, allocator⟩ [] with
        hpass | ⟨name, path, b', stack', hloop⟩
      · exact ⟨b, hpass.trans hwalk⟩
      · cases hwalk.symm.trans hloop
        exact absurd ⟨name, path, rfl⟩ he
    · obtain ⟨b, hok, -⟩ := compile_document hc
      exact absurd hok (Build.document_not_ok (w := w) h)
  · unfold compile at hc
    rcases hd : Build.document w ⟨Arena.empty, Ledger.empty, allocator⟩ with ⟨u, b⟩ | ⟨e, b⟩
    · rw [hd] at hc
      cases hc
    · rw [hd] at hc
      obtain rfl := Except.error.inj hc
      exact Build.document_refused hd

/-- Two arrays of a library with copies of each other, the one in an array written inside it. -/
example :
    let inner : Part Float := .assembly Pair.header [.copy Pair.header "other"] []
    let library : Dict (Assembly Float) := (Dict.empty.insert "pair" ⟨[inner], []⟩).insert "other"
      ⟨[.copy Pair.header "pair"], []⟩
    (match (compile (Pair.workshop { Pair.copied with library }) Pair.allocator).1 with
      | .error (.recursiveInstance name path) => name == "pair" && path == "root/1/0/0/0"
      | _ => false) = true := by
  decide +kernel

end SolidTrace
