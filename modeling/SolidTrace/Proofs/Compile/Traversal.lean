import SolidTrace.Proofs.Compile.Steps

/-!
What can be said of every construction.

A document is walked through parts that hold parts and name arrays. What holds of the steps of the
walk, and of a step with what follows it, holds of the walk (`Build.Traversal`); the recursion is
gone through once for all that can be said in this way. One such thing is that constructions lead
from one builder to another that is related to it, where they succeed (`Build.Leads`).
-/

namespace SolidTrace

variable {S : Type}

namespace Build

/-- Something that holds of the steps of construction and can be put together from them. Of an array
it holds as soon as it does of what fills the array. -/
structure Traversal [Scalar S] (w : Workshop S) (K : (α : Type) → Build S α → Prop) : Prop where
  pure : ∀ {α : Type} (a : α), K α (pure a)
  throw : ∀ {α : Type} (e : CompileError S), K α (throw e)
  bind : ∀ {α β : Type} {x : Build S α} {f : α → Build S β}, K α x → (∀ a, K β (f a)) →
    K β (x >>= f)
  getArena : K _ getArena
  object : ∀ header parent path, K _ (object w header parent path)
  surface : ∀ s object spot forced path, K _ (surface w s object spot forced path)
  camera : ∀ c object, K _ (camera c object)
  light : ∀ l object, K _ (light l object)
  arrayFilled : ∀ object path count fill relations, (∀ spot, K _ (fill spot)) →
    K _ (arrayFilled object path count fill relations)
  acquireTables : K _ acquireTables

namespace Traversal

variable [Scalar S] {w : Workshop S} {K : (α : Type) → Build S α → Prop}

mutual

/-- **Parts**, with all that is below them. -/
theorem part (hK : Traversal w K) {copy : CopyBuild S}
    (hcopy : ∀ object path forced name, K _ (copy object path forced name)) (spot : Spot)
    (path : String) (forced : Option Override) : ∀ p : Part S, K _ (part w copy spot path forced p)
  | .camera h c => by
    unfold Build.part
    exact hK.bind (hK.object _ _ _) fun _ => hK.bind (hK.camera _ _) fun _ => hK.pure _
  | .light h l => by
    unfold Build.part
    exact hK.bind (hK.object _ _ _) fun _ => hK.bind (hK.light _ _) fun _ => hK.pure _
  | .surface h s => by
    unfold Build.part
    exact hK.bind (hK.object _ _ _) fun _ => hK.bind (hK.surface _ _ _ _ _) fun _ => hK.pure _
  | .copy h name => by
    unfold Build.part
    exact hK.bind (hK.object _ _ _) fun _ => hK.bind (hcopy _ _ _ _) fun _ => hK.pure _
  | .assembly h content relations => by
    unfold Build.part
    exact hK.bind (hK.object _ _ _) fun _ => hK.bind
      (hK.arrayFilled _ _ _ _ _ fun spot => parts hK hcopy _ _ content spot) fun _ => hK.pure _

/-- Parts that stand one after the other. -/
theorem parts (hK : Traversal w K) {copy : CopyBuild S}
    (hcopy : ∀ object path forced name, K _ (copy object path forced name)) (path : String)
    (forced : Option Override) :
    ∀ (ps : List (Part S)) (spot : Spot), K _ (parts w copy spot path forced ps)
  | [], spot => by
    unfold Build.parts
    exact hK.pure _
  | p :: ps, spot => by
    unfold Build.parts
    exact hK.bind (part hK hcopy _ _ _ p) fun _ => hK.bind (parts hK hcopy _ _ ps _) fun _ =>
      hK.pure _

end

variable (hK : Traversal w K)

include hK

lemma array {copy : CopyBuild S}
    (hcopy : ∀ object path forced name, K _ (copy object path forced name)) (object : Option ℕ)
    (path : String) (forced : Option Override) (content : List (Part S))
    (relations : List Relation) : K _ (array w copy object path forced content relations) :=
  hK.arrayFilled _ _ _ _ _ fun spot => hK.parts hcopy _ _ content spot

/-- **Copies**, however deep they stand in one another. -/
theorem copy (bound : ℕ) (active : List String) (object : ℕ) (path : String)
    (forced : Option Override) (name : String) :
    K _ (copy w bound active object path forced name) := by
  induction bound generalizing active object path forced name with
  | zero =>
    unfold Build.copy
    split
    · exact hK.throw _
    · split
      · exact hK.throw _
      · exact hK.throw _
  | succ bound ih =>
    unfold Build.copy
    split
    · exact hK.throw _
    · split
      · exact hK.throw _
      · exact hK.array (fun _ _ _ _ => ih _ _ _ _ _) _ _ _ _ _

theorem document : K _ (document w) := by
  refine hK.bind (hK.array (fun _ _ _ _ => hK.copy _ _ _ _ _ _) _ _ _ _ _) fun _ => ?_
  refine hK.bind hK.getArena fun a => ?_
  dsimp only
  split
  · exact hK.bind (hK.throw _) fun _ => hK.acquireTables
  · exact hK.acquireTables

end Traversal

/-- Where the construction succeeds, the builder that it leaves is related to the one it started
from. -/
def Leads {α : Type} (R : Builder S → Builder S → Prop) (x : Build S α) : Prop :=
  ∀ (b : Builder S) (a : α) (b' : Builder S), x b = .ok a b' → R b b'

/-- The relation can be put together along a walk. -/
structure Composes (R : Builder S → Builder S → Prop) : Prop where
  refl : ∀ b, R b b
  trans : ∀ {b b₁ b₂}, R b b₁ → R b₁ b₂ → R b b₂

variable {R : Builder S → Builder S → Prop} {α β : Type}

lemma Leads.throw (e : CompileError S) : Leads R (MonadExcept.throw e : Build S α) :=
  fun _ _ _ h => (throw_eq_ok.mp h).elim

lemma Leads.throw_bind (e : CompileError S) (f : α → Build S β) :
    Leads R (MonadExcept.throw e >>= f) := by
  intro b c b' h
  obtain ⟨a, b₁, h, -⟩ := bind_eq_ok.mp h
  exact (throw_eq_ok.mp h).elim

namespace Composes

variable (hR : Composes R)

include hR

lemma pure (a : α) : Leads R (Pure.pure a : Build S α) := by
  intro b a' b' h
  obtain ⟨rfl, rfl⟩ := pure_eq_ok.mp h
  exact hR.refl b

lemma ofExcept (r : Except (CompileError S) α) :
    Leads R (MonadExcept.ofExcept r : Build S α) := by
  intro b a b' h
  obtain ⟨-, rfl⟩ := ofExcept_eq_ok.mp h
  exact hR.refl b

lemma getArena : Leads R (getArena : Build S (Arena S)) := by
  intro b a b' h
  obtain ⟨-, rfl⟩ := getArena_eq_ok.mp h
  exact hR.refl b

/-- **A walk leads as far as its steps do.** -/
lemma bind {x : Build S α} {f : α → Build S β} (hx : Leads R x) (hf : ∀ a, Leads R (f a)) :
    Leads R (x >>= f) := by
  intro b c b' h
  obtain ⟨a, b₁, hxb, h⟩ := bind_eq_ok.mp h
  exact hR.trans (hx b a b₁ hxb) (hf a b₁ c b' h)

lemma forM_mem {l : List α} {f : α → Build S PUnit} (hf : ∀ a ∈ l, Leads R (f a)) :
    Leads R (l.forM f) := by
  induction l with
  | nil => exact hR.pure PUnit.unit
  | cons a l ih =>
    exact hR.bind (hf a List.mem_cons_self) fun _ => ih fun x hx => hf x (List.mem_cons_of_mem _ hx)

lemma forM {l : List α} {f : α → Build S PUnit} (hf : ∀ a, Leads R (f a)) : Leads R (l.forM f) :=
  hR.forM_mem fun a _ => hf a

end Composes

end Build

end SolidTrace
