import Mathlib.Algebra.Order.Monoid.Prod
import SolidTrace.Proofs.Compile.Steps
import SolidTrace.Proofs.Document.Scopes
import SolidTrace.Proofs.Number.Order
import SolidTrace.Proofs.Program.Outcome

/-!
What construction decides.

`Build.Decides` reads a construction as a test: it succeeds exactly when its condition holds and
there is room for its cameras and lights, memory aside. The rules put tests together in the way in
which constructions are put together, so that a condition is read off a construction step by step.
-/

namespace SolidTrace

variable {S : Type}

abbrev Tally : Type := ℕ∞ × ℕ∞

/-- The largest numbers of cameras and of lights. -/
def Tally.limit : Tally := (maxCameras, maxLights)

def Arena.tally (a : Arena S) : Tally := (a.cameras.size, a.lights.size)

variable [Scalar S]

/-- Textures and materials that have been entered passed their checks then. -/
structure Arena.Stocked (w : Workshop S) (a : Arena S) : Prop where
  textures : ∀ (i : ℕ) (t : TextureNode S), a.textures[i]? = some t →
    ∃ source, w.document.textures.get? t.name = some source ∧
      Texture.load w.images source = .ok t.texture
  materials : ∀ (i : ℕ) (m : MaterialNode S), a.materials[i]? = some m →
    ∃ declared t, w.document.materials.get? m.name = some declared ∧
      a.textures[m.texture]? = some t ∧ t.name = declared.texture

/-- A builder as every construction finds it. -/
structure Builder.Ready (w : Workshop S) (b : Builder S) : Prop where
  stocked : b.arena.Stocked w
  room : b.arena.tally ≤ Tally.limit

namespace Build

variable {α β : Type} {w : Workshop S} {v v' : Prop} {t t' : Tally} {Q : α → Arena S → Prop}
  {R : β → Arena S → Prop} {b : Builder S}

/-- From `b` on the construction succeeds if and only if the condition `v` holds and there is room
for `t`, or else finds memory short. What it gives has `Q`, and it never takes for a surface what is
none. -/
structure Decides (w : Workshop S) (v : Prop) (t : Tally) (Q : α → Arena S → Prop)
    (x : Build S α) (b : Builder S) : Prop where
  ok : ∀ a b', x b = .ok a b' → v ∧ b'.arena.tally = b.arena.tally + t ∧ b'.Ready w ∧ Q a b'.arena
  error : ∀ e b', x b = .error e b' →
    ((∃ shortage, e = .outOfMemory shortage) ∨ ¬ (v ∧ b.arena.tally + t ≤ Tally.limit)) ∧
      ∀ array position, e ≠ .notASurface array position

/-! ### Rules -/

section

omit [Scalar S] in
lemma bind_eq_error {b' : Builder S} {x : Build S α} {f : α → Build S β} {e : CompileError S} :
    (x >>= f) b = .error e b' ↔
      x b = .error e b' ∨ ∃ a b₁, x b = .ok a b₁ ∧ f a b₁ = .error e b' := by
  rcases hx : x b with ⟨a, b₁⟩ | ⟨e', b₁⟩
  · simp [Bind.bind, EStateM.bind, hx]
  · simp [Bind.bind, EStateM.bind, hx]

lemma Decides.pure {a : α} (h : b.Ready w) (hQ : Q a b.arena) :
    Decides w True 0 Q (Pure.pure a) b where
  ok a' b' hok := by
    obtain ⟨rfl, rfl⟩ := pure_eq_ok.mp hok
    exact ⟨trivial, (add_zero _).symm, h, hQ⟩
  error e b' herr := by cases herr

/-- An error is right where the condition fails or there is no room. -/
lemma Decides.throw {e : CompileError S} (h : ¬ (v ∧ b.arena.tally + t ≤ Tally.limit))
    (he : ∀ array position, e ≠ .notASurface array position) :
    Decides w v t Q (MonadExcept.throw e) b where
  ok a b' hok := (throw_eq_ok.mp hok).elim
  error e' b' herr := by
    cases herr
    exact ⟨Or.inr h, he⟩

/-- **Conditions add up**: one construction after another asks for what both ask for. The second one
may go by the cameras and lights that the first one has left. -/
theorem Decides.bind_tally {x : Build S α} {f : α → Build S β} (hx : Decides w v t Q x b)
    (hf : ∀ a b₁, b₁.Ready w → b₁.arena.tally = b.arena.tally + t → Q a b₁.arena →
      Decides w v' t' R (f a) b₁) :
    Decides w (v ∧ v') (t + t') R (x >>= f) b where
  ok c b' hok := by
    obtain ⟨a, b₁, hx₁, hf₁⟩ := bind_eq_ok.mp hok
    obtain ⟨hv, htally, hready, hQ⟩ := hx.ok a b₁ hx₁
    obtain ⟨hv', htally', hready', hR⟩ := (hf a b₁ hready htally hQ).ok c b' hf₁
    exact ⟨⟨hv, hv'⟩, by rw [htally', htally, add_assoc], hready', hR⟩
  error e b' herr := by
    rcases bind_eq_error.mp herr with hx₁ | ⟨a, b₁, hx₁, hf₁⟩
    · obtain ⟨hfail, he⟩ := hx.error e b' hx₁
      refine ⟨hfail.imp_right fun hn hall => hn ⟨hall.1.1, le_trans ?_ hall.2⟩, he⟩
      rw [← add_assoc]
      exact le_self_add
    · obtain ⟨hv, htally, hready, hQ⟩ := hx.ok a b₁ hx₁
      obtain ⟨hfail, he⟩ := (hf a b₁ hready htally hQ).error e b' hf₁
      refine ⟨hfail.imp_right fun hn hall => hn ⟨hall.1.2, ?_⟩, he⟩
      rw [htally, add_assoc]
      exact hall.2

lemma Decides.bind {x : Build S α} {f : α → Build S β} (hx : Decides w v t Q x b)
    (hf : ∀ a b₁, b₁.Ready w → Q a b₁.arena → Decides w v' t' R (f a) b₁) :
    Decides w (v ∧ v') (t + t') R (x >>= f) b :=
  hx.bind_tally fun a b₁ h₁ _ hQ => hf a b₁ h₁ hQ

lemma Decides.congr {x : Build S α} (h : Decides w v t Q x b) (hv : v ↔ v') (ht : t = t') :
    Decides w v' t' Q x b where
  ok a b' hok := by
    rw [← hv, ← ht]
    exact h.ok a b' hok
  error e b' herr := by
    rw [← hv, ← ht]
    exact h.error e b' herr

/-- A step that asks for nothing may be left out of account. -/
lemma Decides.andThen {x : Build S α} {f : α → Build S β} (hx : Decides w True 0 Q x b)
    (hf : ∀ a b₁, b₁.Ready w → Q a b₁.arena → Decides w v t R (f a) b₁) :
    Decides w v t R (x >>= f) b :=
  (hx.bind hf).congr (iff_of_eq (true_and _)) (zero_add _)

lemma Decides.ofExcept {x : Except (CompileError S) α} (h : b.Ready w)
    (hok : ∀ a, x = .ok a → v ∧ Q a b.arena)
    (herr : ∀ e, x = .error e → ¬ v ∧ ∀ array position, e ≠ .notASurface array position) :
    Decides w v 0 Q (MonadExcept.ofExcept x) b where
  ok a b' h' := by
    obtain ⟨rfl, rfl⟩ := ofExcept_eq_ok.mp h'
    obtain ⟨hv, hQ⟩ := hok a rfl
    exact ⟨hv, (add_zero _).symm, h, hQ⟩
  error e b' h' := by
    rcases x with e' | a
    · cases h'
      exact ⟨Or.inr fun hall => (herr e rfl).1 hall.1, (herr e rfl).2⟩
    · cases h'

lemma Decides.of_eq {x y : Build S α} (h : Decides w v t Q y b) (hxy : x b = y b) :
    Decides w v t Q x b where
  ok a b' hok := h.ok a b' (hxy ▸ hok)
  error e b' herr := h.error e b' (hxy ▸ herr)

lemma Decides.throw_bind {e : CompileError S} {f : β → Build S α}
    (h : ¬ (v ∧ b.arena.tally + t ≤ Tally.limit))
    (he : ∀ array position, e ≠ .notASurface array position) :
    Decides w v t Q (MonadExcept.throw e >>= f) b := (Decides.throw h he).of_eq rfl

lemma Decides.pure_bind {c : β} {f : β → Build S α} (h : Decides w v t Q (f c) b) :
    Decides w v t Q (Pure.pure c >>= f) b := h.of_eq rfl

lemma Decides.forM {l : List α} {f : α → Build S PUnit}
    (hf : ∀ a ∈ l, ∀ b : Builder S, b.Ready w → Decides w True 0 (fun _ _ => True) (f a) b)
    (h : b.Ready w) : Decides w True 0 (fun _ _ => True) (l.forM f) b := by
  induction l generalizing b with
  | nil => exact .pure h trivial
  | cons a l ih =>
    exact (hf a List.mem_cons_self b h).andThen fun _ b₁ h₁ _ =>
      ih (fun a' ha' => hf a' (List.mem_cons_of_mem _ ha')) h₁

/-! ### Steps -/

lemma enter_decides {place : Arena S → ℕ} {add : Arena S → Arena S}
    {Q : ℕ → Arena S → Prop} (hstocked : (add b.arena).Stocked w)
    (htally : (add b.arena).tally = b.arena.tally + t) (hroom : (add b.arena).tally ≤ Tally.limit)
    (hQ : Q (place b.arena) (add b.arena)) : Decides w True t Q (enter place add) b where
  ok id b' hok := by
    obtain ⟨rfl, rfl⟩ := enter_eq_ok.mp hok
    exact ⟨trivial, htally, ⟨hstocked, hroom⟩, hQ⟩
  error e b' herr := by cases herr

lemma acquire_decides (label : String) (layout : Layout) (count : ℕ) (h : b.Ready w) :
    Decides w True 0 (fun _ a => a = b.arena) (acquire label layout count) b where
  ok u b' hok := by
    have ha := acquire_ok hok
    exact ⟨trivial, by rw [ha, add_zero], ⟨ha ▸ h.stocked, ha ▸ h.room⟩, ha⟩
  error e b' herr := by
    unfold acquire at herr
    split at herr
    · cases herr
    · cases herr
      exact ⟨Or.inl ⟨_, rfl⟩, fun _ _ => nofun⟩

omit [Scalar S] in
lemma getArena_bind {f : Arena S → Build S α} : (getArena >>= f) b = f b.arena b := rfl

lemma capped_decides {place : Arena S → ℕ} {add : Arena S → Arena S} {size cap : ℕ}
    {e : CompileError S} (he : ∀ array position, e ≠ .notASurface array position)
    (hle : (size : ℕ∞) ≤ cap) (hstocked : (add b.arena).Stocked w)
    (htally : (add b.arena).tally = b.arena.tally + t)
    (hroom : (add b.arena).tally ≤ Tally.limit ↔ size + 1 ≤ cap) :
    Decides w True t (fun _ _ => True)
      (do if size = cap then throw e
          enter place add) b := by
  rw [Nat.cast_le] at hle
  by_cases hfull : size = cap
  · rw [if_pos hfull]
    refine .throw_bind (fun hall => ?_) he
    rw [← htally, hroom] at hall
    omega
  · rw [if_neg hfull]
    exact .pure_bind (enter_decides hstocked htally (hroom.mpr (by omega)) trivial)

lemma camera_decides (c : Camera S) (object : ℕ) (h : b.Ready w) :
    Decides w True (1, 0) (fun _ _ => True) (camera c object) b := by
  refine .of_eq (capped_decides (fun _ _ h => by cases h) h.room.1
    ⟨h.stocked.textures, h.stocked.materials⟩ (by simp [Arena.tally]) ?_) getArena_bind
  simp only [Arena.tally, Tally.limit, Prod.mk_le_mk, Array.size_push, Nat.cast_le]
  exact and_iff_left (Nat.cast_le.mp h.room.2)

lemma light_decides (l : Light S) (object : ℕ) (h : b.Ready w) :
    Decides w True (0, 1) (fun _ _ => True) (light l object) b := by
  refine .of_eq (capped_decides (fun _ _ h => by cases h) h.room.2
    ⟨h.stocked.textures, h.stocked.materials⟩ (by simp [Arena.tally]) ?_) getArena_bind
  simp only [Arena.tally, Tally.limit, Prod.mk_le_mk, Array.size_push, Nat.cast_le]
  exact and_iff_right (Nat.cast_le.mp h.room.1)

lemma enter_texture_decides {name : String} {source : TextureSource S} {t : Texture S}
    (hs : w.document.textures.get? name = some source)
    (ht : Texture.load w.images source = .ok t) (h : b.Ready w) :
    Decides w (w.Loads name) 0 (fun id a => ∃ t, a.textures[id]? = some t ∧ t.name = name)
      (enter (·.textures.size) fun a => { a with textures := a.textures.push ⟨name, t⟩ }) b := by
  refine .congr (enter_decides ⟨fun i t' hi => ?_, fun i m hi => ?_⟩ (add_zero _).symm h.room
    ⟨_, Array.getElem?_push_size, rfl⟩) (iff_of_true trivial ⟨source, t, hs, ht⟩) rfl
  · rcases getElem?_push_cases hi with hi | ⟨-, rfl⟩
    · exact h.stocked.textures i t' hi
    · exact ⟨source, hs, ht⟩
  · obtain ⟨declared, t', hm, ht', hname⟩ := h.stocked.materials i m hi
    exact ⟨declared, t', hm, Kept.push _ _ _ _ ht', hname⟩

/-- The texture is declared and can be loaded; where it was entered before, that was found then. -/
lemma texture_decides (name material : String) (h : b.Ready w) :
    Decides w (w.Loads name) 0 (fun id a => ∃ t, a.textures[id]? = some t ∧ t.name = name)
      (texture w name material) b := by
  refine .of_eq ?_ getArena_bind
  rcases hf : b.arena.textures.findIdx? fun t => t.name == name with _ | i
  · rcases hs : w.document.textures.get? name with _ | source
    · simp only [hf]
      refine .throw (fun hall => ?_) fun _ _ h => by cases h
      obtain ⟨source, -, hs', -⟩ := hall.1
      cases hs.symm.trans hs'
    · rcases ht : Texture.load w.images source with failure | t
      · simp only [hf, ht]
        refine .throw_bind (fun hall => ?_) fun _ _ h => by cases h
        obtain ⟨source', texture, hs', ht'⟩ := hall.1
        obtain rfl : source = source' := Option.some.inj (hs.symm.trans hs')
        cases ht.symm.trans ht'
      · simp only [hf, ht]
        refine .pure_bind ?_
        rcases hc : t.texelCount? with _ | count
        · exact enter_texture_decides hs ht h
        · exact (acquire_decides _ _ _ h).andThen fun _ b₁ h₁ _ =>
            enter_texture_decides hs ht h₁
  · obtain ⟨hlt, hname, -⟩ := Array.findIdx?_eq_some_iff_getElem.mp hf
    have hget := Array.getElem?_eq_getElem hlt
    have hname : b.arena.textures[i].name = name := by simpa using hname
    obtain ⟨source, hs, ht⟩ := h.stocked.textures i _ hget
    simp only [hf]
    exact (Decides.pure h ⟨_, hget, hname⟩).congr
      (iff_of_true trivial ⟨source, _, hname ▸ hs, ht⟩) rfl

lemma material_decides (name path : String) (h : b.Ready w) :
    Decides w (w.Provides name) 0 (fun _ _ => True) (material w name path) b := by
  refine .of_eq ?_ getArena_bind
  rcases hf : b.arena.materials.findIdx? fun m => m.name == name with _ | i
  · rcases hm : w.document.materials.get? name with _ | m
    · simp only [hf]
      refine .throw (fun hall => ?_) fun _ _ h => by cases h
      obtain ⟨m, hm', -⟩ := hall.1
      cases hm.symm.trans hm'
    · simp only [hf]
      refine .congr ((texture_decides m.texture name h).bind fun id b₁ h₁ ⟨t, ht, hname⟩ =>
        enter_decides (Q := fun _ _ => True) ⟨h₁.stocked.textures, fun i n hi => ?_⟩
          (add_zero _).symm h₁.room trivial) ?_ (add_zero _)
      · rcases getElem?_push_cases hi with hi | ⟨-, rfl⟩
        · exact h₁.stocked.materials i n hi
        · exact ⟨m, t, hm, ht, hname⟩
      · rw [and_true]
        refine ⟨fun hl => ⟨m, hm, hl⟩, ?_⟩
        rintro ⟨m', hm', hl⟩
        obtain rfl : m = m' := Option.some.inj (hm.symm.trans hm')
        exact hl
  · obtain ⟨hlt, hname, -⟩ := Array.findIdx?_eq_some_iff_getElem.mp hf
    have hget := Array.getElem?_eq_getElem hlt
    have hname : b.arena.materials[i].name = name := by simpa using hname
    obtain ⟨declared, t, hm, ht, hdeclared⟩ := h.stocked.materials i _ hget
    obtain ⟨source, hs, hload⟩ := h.stocked.textures _ t ht
    simp only [hf]
    refine (Decides.pure h trivial).congr (iff_of_true trivial ?_) rfl
    exact ⟨declared, hname ▸ hm, source, t.texture, hdeclared ▸ hs, hload⟩

lemma face_decides (f : Face S) (forced : Option String) (path : String) (h : b.Ready w) :
    Decides w (w.Provides (forced.getD f.material)) 0 (fun _ _ => True) (face w f forced path) b :=
  ((material_decides _ path h).bind fun _ _ h₁ _ => .pure (Q := fun _ _ => True) h₁ trivial).congr
    (iff_of_eq (and_true _)) (add_zero _)

lemma bounds_pass_iff [Scalar.Ordered S] (low high : S) :
    (Scalar.isNaN low || Scalar.isNaN high || high < low) = false ↔
      Scalar.isNaN low = false ∧ Scalar.isNaN high = false ∧ low ≤ high := by
  simp only [Bool.or_eq_false_iff, decide_eq_false_iff_not, and_assoc]
  refine and_congr_right fun hlow => and_congr_right fun hhigh => ?_
  exact ⟨Scalar.le_of_not_lt hhigh hlow, Scalar.not_lt_of_le⟩

lemma isOk_resolve (r : Registry S) (animation : Animation S) : (r.resolve animation).isOk = true ↔
    ∀ name, animation = .custom name → (Dict.get? r name).isSome := by
  cases animation with
  | spin => exact iff_of_true rfl nofun
  | bob => exact iff_of_true rfl nofun
  | custom name =>
    rcases hn : Dict.get? r name with _ | animator
    · simp [Registry.resolve, hn, Except.isOk, Except.toBool]
    · simp [Registry.resolve, hn, Except.isOk, Except.toBool]

lemma object_decides (header : Header S) (parent : Option ℕ) (path : String) (h : b.Ready w) :
    Decides w (∀ name, header.animation = some (.custom name) → (Dict.get? w.registry name).isSome)
      0 (fun _ _ => True) (object w header parent path) b := by
  have henter : ∀ animator : Option (Animator S), Decides w True 0 (fun _ _ => True)
      (enter (·.objects.size) fun a => { a with
        objects :=
          a.objects.push ⟨parent, header.placement, animator, header.time, path⟩ }) b := fun _ =>
    enter_decides ⟨h.stocked.textures, h.stocked.materials⟩ (add_zero _).symm h.room trivial
  unfold object
  rcases ha : header.animation with _ | animation
  · exact .pure_bind ((henter none).congr (iff_of_true trivial nofun) rfl)
  · simp only [Option.some.injEq, ← isOk_resolve]
    rcases hr : w.registry.resolve animation with name | animator
    · simp only
      exact .throw_bind (fun hall => by cases hall.1) fun _ _ h => by cases h
    · simp only
      exact .pure_bind ((henter (some animator)).congr (iff_of_true trivial rfl) rfl)

lemma Decides.checks {γ : Type} {l : List γ} {f : γ → Except (CompileError S) PUnit}
    {P : γ → Prop} {x : α} (hf : ∀ c ∈ l, P c ∧ f c = .ok ⟨⟩ ∨ ¬ P c ∧
      ∃ e, f c = .error e ∧ ∀ array position, e ≠ .notASurface array position) (h : b.Ready w) :
    Decides w (∀ c ∈ l, P c) 0 (fun _ _ => True)
      (MonadExcept.ofExcept (l.forM f >>= fun _ => Except.ok x)) b := by
  rcases forM_cases f l with ⟨hok, hpass⟩ | ⟨c, hc, e, herr, hfail⟩
  · rw [hok]
    refine .ofExcept h (fun _ _ => ⟨fun c hc => ?_, trivial⟩) nofun
    rcases hf c hc with ⟨hP, -⟩ | ⟨-, e, herr, -⟩
    · exact hP
    · cases (hpass c hc).symm.trans herr
  · rw [hfail]
    refine .ofExcept h nofun fun e' he' => ?_
    obtain rfl : e = e' := Except.error.inj he'
    rcases hf c hc with ⟨-, hok⟩ | ⟨hP, e', herr', he⟩
    · cases hok.symm.trans herr
    · obtain rfl : e = e' := Except.error.inj (herr.symm.trans herr')
      exact ⟨fun hall => hP (hall c hc), he⟩

lemma clipBox_decides [Scalar.Ordered S] (s : Surface S) (path : String) (h : b.Ready w) :
    Decides w s.Clips 0 (fun _ _ => True) (ofExcept (clipBox s.clip path)) b := by
  have hget : ∀ (v : Vec S) (axis : Axis), (v.map clipBound).get axis = clipBound (v.get axis) :=
    fun v axis => by cases axis <;> rfl
  have hall : ∀ axis, axis ∈ Axis.all := fun axis => by cases axis <;> decide
  unfold clipBox
  simp only [hget]
  refine (Decides.checks (P := fun axis => _) (fun axis _ => ?_) h).congr
    (forall_congr' fun axis => forall_prop_of_true (hall axis)) rfl
  rw [← bounds_pass_iff]
  split
  · next hbad => exact Or.inr ⟨by simp [hbad], _, rfl, fun _ _ h => by cases h⟩
  · next hgood => exact Or.inl ⟨by simpa using hgood, rfl⟩

lemma surface_decides [Scalar.Ordered S] (s : Surface S) (object : ℕ) (spot : Spot)
    (forced : Option Override) (path : String) (h : b.Ready w) :
    Decides w (s.Clips ∧ w.Provides ((forced.map (·.outer)).getD s.outer.material) ∧
        w.Provides ((forced.map (·.inner)).getD s.inner.material)) 0 (fun _ _ => True)
      (surface w s object spot forced path) b := by
  refine .congr ((clipBox_decides s path h).bind fun clip b₁ h₁ _ =>
    (face_decides s.outer _ path h₁).bind fun outer b₂ h₂ _ =>
    (face_decides s.inner _ path h₂).bind fun inner b₃ h₃ _ =>
    (enter_decides (Q := fun _ _ => True) ⟨h₃.stocked.textures, h₃.stocked.materials⟩
      (add_zero _).symm h₃.room trivial).bind fun id b₄ h₄ _ =>
    .pure (Q := fun _ _ => True) h₄ trivial) ?_ ?_
  · simp only [and_true]
  · simp only [add_zero]

lemma openArray_decides (object : Option ℕ) (path : String) (count : ℕ) (h : b.Ready w) :
    Decides w True 0 (fun _ _ => True) (openArray object path count) b :=
  (enter_decides (Q := fun _ _ => True) ⟨h.stocked.textures, h.stocked.materials⟩
    (add_zero _).symm h.room trivial).andThen fun _ _ h₁ _ =>
    (acquire_decides _ _ _ h₁).andThen fun _ _ h₂ _ => .pure h₂ trivial

lemma modifyArena_decides {f : Arena S → Arena S}
    (hf : ∀ a, (f a).textures = a.textures ∧ (f a).materials = a.materials ∧
      (f a).tally = a.tally) (h : b.Ready w) :
    Decides w True 0 (fun _ _ => True) (modifyArena f) b where
  ok u b' hok := by
    obtain rfl := modifyArena_eq_ok.mp hok
    obtain ⟨ht, hm, hc⟩ := hf b.arena
    refine ⟨trivial, by rw [hc, add_zero], ⟨⟨?_, ?_⟩, hc ▸ h.room⟩, trivial⟩
    · rw [ht]
      exact h.stocked.textures
    · rw [ht, hm]
      exact h.stocked.materials
  error e b' herr := by cases herr

omit [Scalar S] in
lemma surfaceAt_of_kind {occupants : List (Occupant S)} {q : ℕ}
    (h : (occupants.map Occupant.kind)[q]? = some .surface) (path : String) :
    ∃ s, surfaceAt occupants path q = .ok s := by
  rw [List.getElem?_map, Option.map_eq_some_iff] at h
  obtain ⟨⟨e, object, placement, surfaces, bounds⟩, ho, hkind⟩ := h
  cases e with
  | surface s => exact ⟨s, by simp [surfaceAt, ho]⟩
  | array => cases hkind
  | camera => cases hkind
  | light => cases hkind

lemma trimPosition_decides {occupants : List (Occupant S)} (path : String) (array : ℕ)
    (occupant : Occupant S) {trims : List Program.LocalTrim}
    (htrims : ∀ t ∈ trims, ∀ q, Program.operand? t = some q →
      (occupants.map Occupant.kind)[q]? = some .surface) (h : b.Ready w) :
    Decides w True 0 (fun _ _ => True) (trimPosition occupants path array occupant trims) b := by
  unfold trimPosition
  split
  · exact .pure h trivial
  · obtain ⟨resolved, hresolved⟩ :
        ∃ resolved, trims.mapM (resolveTrim occupants path array) = .ok resolved := by
      refine exists_mapM_eq_ok fun t ht => ?_
      cases t with
      | outer q =>
        obtain ⟨s, hs⟩ := surfaceAt_of_kind (htrims _ ht q rfl) path
        exact ⟨.outer s, by rw [resolveTrim, hs]; rfl⟩
      | inner q =>
        obtain ⟨s, hs⟩ := surfaceAt_of_kind (htrims _ ht q rfl) path
        exact ⟨.inner s, by rw [resolveTrim, hs]; rfl⟩
      | accum u => exact ⟨.accum array, rfl⟩
    rw [hresolved]
    refine .pure_bind (.forM (fun s _ b₁ h₁ => ?_) h)
    refine (acquire_decides _ _ _ h₁).andThen fun _ b₂ h₂ _ => ?_
    exact modifyArena_decides (fun _ => ⟨rfl, rfl, rfl⟩) h₂

lemma closeArray_decides (array : ℕ) (path : String) {occupants : List (Occupant S)}
    (relations : List Relation) (h : b.Ready w) :
    Decides w (∃ outcome, Program.run (occupants.map Occupant.kind) relations = .ok outcome) 0
      (fun _ _ => True) (closeArray array path occupants relations) b := by
  unfold closeArray
  rcases hrun : Program.run (occupants.map Occupant.kind) relations with ⟨index, cause⟩ | outcome
  · simp only
    exact .throw_bind (fun hall => by simpa using hall.1) fun _ _ h => by cases h
  · simp only
    have hfits := Program.run_fits hrun
    obtain ⟨accumulator, haccumulator⟩ :
        ∃ accumulator, outcome.accumulator.mapM (surfaceAt occupants path) = .ok accumulator :=
      exists_mapM_eq_ok fun q hq => surfaceAt_of_kind (hfits.accumulator q hq) path
    refine .pure_bind ?_
    rw [haccumulator]
    refine .congr (.andThen (.forM (fun c hc b₁ h₁ => ?_) h) fun _ b₁ h₁ _ => .pure_bind ?_)
      (iff_of_true trivial ⟨outcome, rfl⟩) rfl
    · obtain ⟨p, hp, hget⟩ := List.getElem_of_mem (List.of_mem_zip hc).2
      refine trimPosition_decides path array c.1 (fun t ht q hq => ?_) h₁
      exact (hfits.operand p _ t q (List.getElem?_eq_some_iff.mpr ⟨hp, hget⟩) ht hq).1
    · refine (acquire_decides _ _ _ h₁).andThen fun _ b₂ h₂ _ => ?_
      refine (modifyArena_decides (fun _ => ?_) h₂).andThen fun _ b₃ h₃ _ => .pure h₃ trivial
      exact ⟨rfl, rfl, rfl⟩

end

end Build

end SolidTrace
