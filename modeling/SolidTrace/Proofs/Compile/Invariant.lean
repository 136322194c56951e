import SolidTrace.Proofs.Compile.Traversal

/-!
What every construction keeps.

A property of the builder that the steps of construction keep (`Build.Invariant`) holds wherever a
construction ends, by success or by an error. That is one of the things that can be said of all
constructions once it can be said of their steps (`Build.Traversal`).
-/

namespace SolidTrace

variable {S : Type} {P : Builder S → Prop}

namespace Build

/-- What a construction leaves, whether it succeeds or fails. -/
def left {α : Type} (x : Build S α) (b : Builder S) : Builder S :=
  match x b with
  | .ok _ b' => b'
  | .error _ b' => b'

/-- However the construction ends, what held before holds then. -/
def Keeps {α : Type} (P : Builder S → Prop) (x : Build S α) : Prop := ∀ b, P b → P (x.left b)

/-- The steps of construction keep a property: taking memory, entering an object with an animator
that the registry knows or a texture that was loaded, and any change to the other tables. -/
structure Invariant [Scalar S] (w : Workshop S) (P : Builder S → Prop) : Prop where
  acquire : ∀ label layout count, Keeps P (acquire label layout count)
  object : ∀ (b : Builder S) (node : ObjectNode S), (∀ animator, node.animator = some animator →
    ∃ description, w.registry.resolve description = .ok animator) → P b →
      P { b with arena := { b.arena with objects := b.arena.objects.push node } }
  texture : ∀ (b : Builder S) (node : TextureNode S) (source : TextureSource S),
    Texture.load w.images source = .ok node.texture → P b →
      P { b with arena := { b.arena with textures := b.arena.textures.push node } }
  tables : ∀ (b : Builder S) (a : Arena S), a.objects = b.arena.objects →
    a.textures = b.arena.textures → P b → P { b with arena := a }

section

variable {α β : Type} {x : Build S α}

lemma left_of_ok {b b' : Builder S} {a : α} (h : x b = .ok a b') : x.left b = b' := by
  unfold left
  rw [h]

lemma left_of_error {b b' : Builder S} {e : CompileError S} (h : x b = .error e b') :
    x.left b = b' := by
  unfold left
  rw [h]

lemma Keeps.pure (a : α) : Keeps P (Pure.pure a : Build S α) := fun _ => id

lemma Keeps.throw (e : CompileError S) : Keeps P (MonadExcept.throw e : Build S α) := fun _ => id

lemma Keeps.getArena : Keeps P (getArena : Build S (Arena S)) := fun _ => id

lemma Keeps.ofExcept (r : Except (CompileError S) α) :
    Keeps P (MonadExcept.ofExcept r : Build S α) := by
  cases r with
  | ok a => exact .pure a
  | error e => exact .throw e

/-- **Properties are kept one step after the other**, and where the first step fails there is no
second one. -/
lemma Keeps.bind {f : α → Build S β} (hx : Keeps P x) (hf : ∀ a, Keeps P (f a)) :
    Keeps P (x >>= f) := by
  intro b hb
  have hx := hx b hb
  rcases hxb : x b with ⟨a, b₁⟩ | ⟨e, b₁⟩
  · rw [left_of_ok hxb] at hx
    have hrest : (x >>= f).left b = (f a).left b₁ := by
      simp [left, Bind.bind, EStateM.bind, hxb]
    rw [hrest]
    exact hf a b₁ hx
  · rw [left_of_error hxb] at hx
    have hrest : (x >>= f).left b = b₁ := by simp [left, Bind.bind, EStateM.bind, hxb]
    rw [hrest]
    exact hx

lemma Keeps.throw_bind (e : CompileError S) (f : α → Build S β) :
    Keeps P (MonadExcept.throw e >>= f) := fun _ => id

lemma Keeps.pure_bind {a : α} {f : α → Build S β} (h : Keeps P (f a)) :
    Keeps P (Pure.pure a >>= f) := h

lemma Keeps.forM {l : List α} {f : α → Build S PUnit} (hf : ∀ a, Keeps P (f a)) :
    Keeps P (l.forM f) := by
  induction l with
  | nil => exact .pure PUnit.unit
  | cons a l ih => exact (hf a).bind fun _ => ih

end

namespace Invariant

variable [Scalar S] {w : Workshop S}

lemma modifyArena (hP : Invariant w P) {f : Arena S → Arena S}
    (hobjects : ∀ a, (f a).objects = a.objects) (htextures : ∀ a, (f a).textures = a.textures) :
    Keeps P (modifyArena f) :=
  fun b hb => hP.tables b _ (hobjects b.arena) (htextures b.arena) hb

lemma enter (hP : Invariant w P) {place : Arena S → ℕ} {add : Arena S → Arena S}
    (hobjects : ∀ a, (add a).objects = a.objects)
    (htextures : ∀ a, (add a).textures = a.textures) : Keeps P (enter place add) :=
  fun b hb => hP.tables b _ (hobjects b.arena) (htextures b.arena) hb

lemma enterTexture (hP : Invariant w P) {place : Arena S → ℕ} {node : TextureNode S}
    {source : TextureSource S} (h : Texture.load w.images source = .ok node.texture) :
    Keeps P (Build.enter place fun a => { a with textures := a.textures.push node }) :=
  fun b hb => hP.texture b node source h hb

lemma findTexture (hP : Invariant w P) (name material : String) :
    Keeps P (Build.texture w name material) := by
  refine .bind .getArena fun a => ?_
  split
  · exact .pure _
  · split
    · next source _ =>
      split
      · next t ht =>
        have henter : Keeps P (Build.enter (·.textures.size) fun a =>
            { a with textures := a.textures.push ⟨name, t⟩ }) := hP.enterTexture ht
        refine .pure_bind ?_
        dsimp only
        split
        · exact .bind (hP.acquire _ _ _) fun _ => henter
        · exact henter
      · exact .throw_bind _ _
    · exact .throw _

lemma material (hP : Invariant w P) (name path : String) : Keeps P (material w name path) := by
  refine .bind .getArena fun a => ?_
  split
  · exact .pure _
  · split
    · exact .bind (hP.findTexture _ _) fun _ => hP.enter (fun _ => rfl) fun _ => rfl
    · exact .throw _

lemma face (hP : Invariant w P) (f : Face S) (forced : Option String) (path : String) :
    Keeps P (face w f forced path) :=
  .bind (hP.material _ _) fun _ => .pure _

lemma enterObject (hP : Invariant w P) {place : Arena S → ℕ} {node : ObjectNode S}
    (hnode : ∀ animator, node.animator = some animator →
      ∃ description, w.registry.resolve description = .ok animator) :
    Keeps P (Build.enter place fun a => { a with objects := a.objects.push node }) :=
  fun b hb => hP.object b node hnode hb

lemma placeObject (hP : Invariant w P) (h : Header S) (parent : Option ℕ) (path : String) :
    Keeps P (Build.object w h parent path) := by
  unfold Build.object
  split
  · exact .pure_bind (hP.enterObject nofun)
  · next description hdescription =>
    split
    · next animator hanimator =>
      refine .pure_bind (hP.enterObject fun a ha => ⟨description, ?_⟩)
      rw [hanimator, Option.some.inj ha]
    · exact .throw_bind _ _

lemma surface (hP : Invariant w P) (s : Surface S) (object : ℕ) (spot : Spot)
    (forced : Option Override) (path : String) : Keeps P (surface w s object spot forced path) :=
  .bind (.ofExcept _) fun _ => .bind (hP.face _ _ _) fun _ => .bind (hP.face _ _ _) fun _ =>
    .bind (hP.enter (fun _ => rfl) fun _ => rfl) fun _ => .pure _

lemma camera (hP : Invariant w P) (c : Camera S) (object : ℕ) : Keeps P (camera c object) := by
  refine .bind .getArena fun a => ?_
  split
  · exact .throw_bind _ _
  · exact hP.enter (fun _ => rfl) fun _ => rfl

lemma light (hP : Invariant w P) (l : Light S) (object : ℕ) : Keeps P (light l object) := by
  refine .bind .getArena fun a => ?_
  split
  · exact .throw_bind _ _
  · exact hP.enter (fun _ => rfl) fun _ => rfl

lemma openArray (hP : Invariant w P) (object : Option ℕ) (path : String) (count : ℕ) :
    Keeps P (openArray object path count) :=
  .bind (hP.enter (fun _ => rfl) fun _ => rfl) fun _ => .bind (hP.acquire _ _ _) fun _ => .pure _

lemma trimPosition (hP : Invariant w P) (occupants : List (Occupant S)) (path : String)
    (array : ℕ) (occupant : Occupant S) (trims : List Program.LocalTrim) :
    Keeps P (trimPosition occupants path array occupant trims) := by
  unfold Build.trimPosition
  split
  · exact .pure _
  · refine .bind (.ofExcept _) fun _ => .forM fun _ => ?_
    exact .bind (hP.acquire _ _ _) fun _ => hP.modifyArena (fun _ => rfl) fun _ => rfl

lemma closeArray (hP : Invariant w P) (array : ℕ) (path : String)
    (occupants : List (Occupant S)) (relations : List Relation) :
    Keeps P (closeArray array path occupants relations) := by
  unfold Build.closeArray
  split
  · refine .pure_bind (.bind (.forM fun _ => hP.trimPosition _ _ _ _ _) fun _ => ?_)
    refine .bind (.ofExcept _) fun _ => .bind (hP.acquire _ _ _) fun _ => ?_
    exact .bind (hP.modifyArena (fun _ => rfl) fun _ => rfl) fun _ => .pure _
  · exact .throw_bind _ _

lemma arrayFilled (hP : Invariant w P) {fill : Spot → Build S (List (Occupant S))}
    (hfill : ∀ spot, Keeps P (fill spot)) (object : Option ℕ) (path : String) (count : ℕ)
    (relations : List Relation) : Keeps P (arrayFilled object path count fill relations) :=
  .bind (hP.openArray _ _ _) fun _ => .bind (hfill _) fun _ => hP.closeArray _ _ _ _

lemma acquireTables (hP : Invariant w P) : Keeps P acquireTables :=
  .bind .getArena fun _ =>
    .bind (hP.acquire _ _ _) fun _ => .bind (hP.acquire _ _ _) fun _ =>
    .bind (hP.acquire _ _ _) fun _ => .bind (hP.acquire _ _ _) fun _ =>
    .bind (hP.acquire _ _ _) fun _ => hP.acquire _ _ _

/-- **All of construction keeps an invariant.** -/
theorem traversal (hP : Invariant w P) : Traversal w fun _ x => Keeps P x where
  pure := .pure
  throw := .throw
  bind := .bind
  getArena := .getArena
  object := hP.placeObject
  surface := hP.surface
  camera := hP.camera
  light := hP.light
  arrayFilled _ _ _ _ _ hfill := hP.arrayFilled hfill _ _ _ _
  acquireTables := hP.acquireTables

theorem document (hP : Invariant w P) : Keeps P (document w) := hP.traversal.document

variable {Q : Arena S → Prop}

lemma of_arena
    (hobject : ∀ (a : Arena S) (node : ObjectNode S), (∀ animator, node.animator = some animator →
      ∃ description, w.registry.resolve description = .ok animator) → Q a →
        Q { a with objects := a.objects.push node })
    (htexture : ∀ (a : Arena S) (node : TextureNode S) (source : TextureSource S),
      Texture.load w.images source = .ok node.texture → Q a →
        Q { a with textures := a.textures.push node })
    (htables : ∀ a a' : Arena S, a'.objects = a.objects → a'.textures = a.textures → Q a → Q a') :
    Invariant w fun b => Q b.arena where
  acquire label layout count b hb := by
    unfold Build.left Build.acquire
    rcases b.ledger.acquire b.allocator label layout count with ⟨shortage | ledger, allocator⟩
    · exact hb
    · exact hb
  object b node hnode hb := hobject b.arena node hnode hb
  texture b node source hload hb := htexture b.arena node source hload hb
  tables b a hobjects htextures hb := htables b.arena a hobjects htextures hb

/-- What construction keeps holds of a compiled arena. -/
theorem compiled (hQ : Invariant w fun b => Q b.arena) (hempty : Q Arena.empty)
    {allocator : Allocator} {c : Compiled S} (hc : (compile w allocator).1 = .ok c) :
    Q c.arena := by
  obtain ⟨b, hb, rfl⟩ := compile_document hc
  have hleft := hQ.document ⟨Arena.empty, .empty, allocator⟩ hempty
  rwa [left_of_ok hb] at hleft

end Invariant

end Build

end SolidTrace
