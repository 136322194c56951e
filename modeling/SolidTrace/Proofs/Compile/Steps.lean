import SolidTrace.Proofs.Arena.Records
import SolidTrace.Proofs.Lookup

/-!
What the steps of a construction do to the arena.

A construction that succeeds is taken apart by `bind_eq_ok`; then one lemma for each step tells what
the step adds. Steps that take memory leave the arena alone, and steps that find materials touch the
tables of materials and textures only.
-/

namespace SolidTrace

variable {S : Type}

/-- The second arena has more materials and textures and is the first one otherwise; materials that
find their textures still do, and so do those that came in. -/
structure Arena.Stocks (a a' : Arena S) : Prop where
  eq : a' = { a with materials := a'.materials, textures := a'.textures }
  materials : Kept a.materials a'.materials
  textures : Kept a.textures a'.textures
  supplied : a.Supplied → a'.Supplied

namespace Arena.Stocks

variable {a b c : Arena S}

lemma refl (a : Arena S) : a.Stocks a := ⟨rfl, .refl _, .refl _, id⟩

lemma trans (h : a.Stocks b) (h' : b.Stocks c) : a.Stocks c := by
  refine ⟨?_, h.materials.trans h'.materials, h.textures.trans h'.textures,
    h'.supplied ∘ h.supplied⟩
  rw [h'.eq, h.eq]

lemma objects (h : a.Stocks b) : b.objects = a.objects := by rw [h.eq]

lemma surfaces (h : a.Stocks b) : b.surfaces = a.surfaces := by rw [h.eq]

lemma arrays (h : a.Stocks b) : b.arrays = a.arrays := by rw [h.eq]

lemma cameras (h : a.Stocks b) : b.cameras = a.cameras := by rw [h.eq]

lemma lights (h : a.Stocks b) : b.lights = a.lights := by rw [h.eq]

lemma marks (h : a.Stocks b) : b.marks = a.marks := by rw [h.eq]; rfl

lemma grows (h : a.Stocks b) : a.Grows b where
  objects := h.objects ▸ .refl _
  surfaces := h.surfaces ▸ .refl _
  arrays := h.arrays ▸ .refl _
  cameras := h.cameras ▸ .refl _
  lights := h.lights ▸ .refl _
  materials := h.materials
  textures := h.textures
  supplied := h.supplied

end Arena.Stocks

namespace Build

/-! ### Success -/

section

variable {α β : Type} {b b' : Builder S}

lemma bind_eq_ok {x : Build S α} {f : α → Build S β} {c : β} :
    (x >>= f) b = .ok c b' ↔ ∃ a b₁, x b = .ok a b₁ ∧ f a b₁ = .ok c b' := by
  constructor
  · intro h
    rcases hx : x b with ⟨a, b₁⟩ | ⟨e, b₁⟩
    · exact ⟨a, b₁, rfl, by simpa [Bind.bind, EStateM.bind, hx] using h⟩
    · simp [Bind.bind, EStateM.bind, hx] at h
  · rintro ⟨a, b₁, hx, hf⟩
    simp [Bind.bind, EStateM.bind, hx, hf]

lemma pure_eq_ok {a c : α} : (pure a : Build S α) b = .ok c b' ↔ a = c ∧ b = b' := by
  simp [Pure.pure, EStateM.pure]

lemma throw_eq_ok {e : CompileError S} {c : α} :
    (throw e : Build S α) b = .ok c b' ↔ False := by
  rw [show (throw e : Build S α) b = .error e b from rfl, iff_false]
  intro h
  cases h

lemma ofExcept_eq_ok {x : Except (CompileError S) α} {c : α} :
    (ofExcept x : Build S α) b = .ok c b' ↔ x = .ok c ∧ b = b' := by
  cases x with
  | error e => simp [ofExcept, throw_eq_ok]
  | ok a => simp [ofExcept, pure_eq_ok]

lemma getArena_eq_ok {a : Arena S} : getArena b = .ok a b' ↔ a = b.arena ∧ b = b' := by
  rw [show getArena b = .ok b.arena b from rfl, EStateM.Result.ok.injEq, eq_comm]

lemma modifyArena_eq_ok {f : Arena S → Arena S} {u : Unit} :
    modifyArena f b = .ok u b' ↔ b' = { b with arena := f b.arena } := by
  rw [show modifyArena f b = .ok () { b with arena := f b.arena } from rfl,
    EStateM.Result.ok.injEq, eq_comm (b := b')]
  exact and_iff_right rfl

lemma enter_eq_ok {place : Arena S → ℕ} {add : Arena S → Arena S} {id : ℕ} :
    enter place add b = .ok id b' ↔
      id = place b.arena ∧ b' = { b with arena := add b.arena } := by
  rw [show enter place add b = .ok (place b.arena) { b with arena := add b.arena } from rfl,
    EStateM.Result.ok.injEq, eq_comm, eq_comm (b := b')]

lemma acquire_ok {label : String} {layout : Layout} {count : ℕ} {u : Unit}
    (h : acquire label layout count b = .ok u b') : b'.arena = b.arena := by
  unfold acquire at h
  split at h
  · simp only [EStateM.Result.ok.injEq] at h
    rw [← h.2]
  · cases h

lemma acquireTables_ok {u : Unit} (h : acquireTables b = .ok u b') : b'.arena = b.arena := by
  obtain ⟨a, b₁, h₁, h⟩ := bind_eq_ok.mp h
  obtain ⟨rfl, rfl⟩ := getArena_eq_ok.mp h₁
  obtain ⟨_, b₂, h₂, h⟩ := bind_eq_ok.mp h
  obtain ⟨_, b₃, h₃, h⟩ := bind_eq_ok.mp h
  obtain ⟨_, b₄, h₄, h⟩ := bind_eq_ok.mp h
  obtain ⟨_, b₅, h₅, h⟩ := bind_eq_ok.mp h
  obtain ⟨_, b₆, h₆, h⟩ := bind_eq_ok.mp h
  rw [acquire_ok h, acquire_ok h₆, acquire_ok h₅, acquire_ok h₄, acquire_ok h₃, acquire_ok h₂]

lemma camera_ok {c : Camera S} {object id : ℕ} (h : camera c object b = .ok id b') :
    id = b.arena.cameras.size ∧
      b'.arena = { b.arena with cameras := b.arena.cameras.push ⟨object, c⟩ } := by
  obtain ⟨a, b₁, h₁, h⟩ := bind_eq_ok.mp h
  obtain ⟨rfl, rfl⟩ := getArena_eq_ok.mp h₁
  by_cases hfull : b.arena.cameras.size = maxCameras
  · rw [if_pos hfull] at h
    obtain ⟨_, _, h₂, -⟩ := bind_eq_ok.mp h
    exact (throw_eq_ok.mp h₂).elim
  · rw [if_neg hfull] at h
    obtain ⟨rfl, rfl⟩ := enter_eq_ok.mp h
    exact ⟨rfl, rfl⟩

lemma light_ok {l : Light S} {object id : ℕ} (h : light l object b = .ok id b') :
    id = b.arena.lights.size ∧
      b'.arena = { b.arena with lights := b.arena.lights.push ⟨object, l⟩ } := by
  obtain ⟨a, b₁, h₁, h⟩ := bind_eq_ok.mp h
  obtain ⟨rfl, rfl⟩ := getArena_eq_ok.mp h₁
  by_cases hfull : b.arena.lights.size = maxLights
  · rw [if_pos hfull] at h
    obtain ⟨_, _, h₂, -⟩ := bind_eq_ok.mp h
    exact (throw_eq_ok.mp h₂).elim
  · rw [if_neg hfull] at h
    obtain ⟨rfl, rfl⟩ := enter_eq_ok.mp h
    exact ⟨rfl, rfl⟩

end

/-! ### Materials -/

variable [Scalar S] {w : Workshop S} {b b' : Builder S}

/-- **Finding a texture**: it is in the table, or it is declared under its name, loaded, and entered
with memory for its texels. -/
lemma texture_cases {name material : String} {id : ℕ}
    (h : texture w name material b = .ok id b') :
    (b' = b ∧ ∃ t, b.arena.textures[id]? = some t ∧ t.name = name) ∨
      (∀ (i : ℕ) (t : TextureNode S), b.arena.textures[i]? = some t → t.name ≠ name) ∧
        ∃ source t b₁, w.document.textures.get? name = some source ∧
          Texture.load w.images source = .ok t ∧
          (t.texelCount? = none ∧ b₁ = b ∨ ∃ count, t.texelCount? = some count ∧
            acquire "texture texels" Layout.texel count b = .ok () b₁) ∧
          id = b.arena.textures.size ∧ b' = { b₁ with
            arena := { b.arena with textures := b.arena.textures.push ⟨name, t⟩ } } := by
  unfold texture at h
  obtain ⟨a, b₁, h₁, h⟩ := bind_eq_ok.mp h
  obtain ⟨rfl, rfl⟩ := getArena_eq_ok.mp h₁
  rcases hf : b.arena.textures.findIdx? fun t => t.name == name with _ | i
  · simp only [hf] at h
    have hnone : ∀ (i : ℕ) (t : TextureNode S), b.arena.textures[i]? = some t → t.name ≠ name :=
      fun i t ht => by simpa using Array.findIdx?_eq_none_iff.mp hf t (Array.mem_of_getElem? ht)
    refine .inr ⟨hnone, ?_⟩
    rcases hs : w.document.textures.get? name with _ | source
    · simp only [hs] at h
      exact (throw_eq_ok.mp h).elim
    · simp only [hs] at h
      rcases ht : Texture.load w.images source with failure | t
      · simp only [ht] at h
        obtain ⟨t, b₂, h₂, -⟩ := bind_eq_ok.mp h
        exact (throw_eq_ok.mp h₂).elim
      · simp only [ht] at h
        obtain ⟨t', b₂, h₂, h⟩ := bind_eq_ok.mp h
        obtain ⟨rfl, rfl⟩ := pure_eq_ok.mp h₂
        rcases hc : t.texelCount? with _ | count
        · simp only [hc] at h
          obtain ⟨rfl, rfl⟩ := enter_eq_ok.mp h
          exact ⟨source, t, b, rfl, ht, .inl ⟨hc, rfl⟩, rfl, rfl⟩
        · simp only [hc] at h
          obtain ⟨⟨⟩, b₃, h₃, h⟩ := bind_eq_ok.mp h
          obtain ⟨rfl, rfl⟩ := enter_eq_ok.mp h
          refine ⟨source, t, b₃, rfl, ht, .inr ⟨count, hc, h₃⟩, ?_, ?_⟩
          · rw [acquire_ok h₃]
          · rw [acquire_ok h₃]
  · simp only [hf] at h
    obtain ⟨rfl, rfl⟩ := pure_eq_ok.mp h
    obtain ⟨hlt, hname, -⟩ := Array.findIdx?_eq_some_iff_getElem.mp hf
    exact .inl ⟨rfl, _, Array.getElem?_eq_getElem hlt, by simpa using hname⟩

lemma texture_ok {name material : String} {id : ℕ} (h : texture w name material b = .ok id b') :
    b.arena.Stocks b'.arena ∧ ∃ t, b'.arena.textures[id]? = some t ∧ t.name = name := by
  rcases texture_cases h with ⟨rfl, ht⟩ | ⟨-, source, t, b₁, -, -, -, rfl, rfl⟩
  · exact ⟨.refl _, ht⟩
  · refine ⟨⟨rfl, .refl _, .push _ _, fun hs i m hm => ?_⟩, _, Array.getElem?_push_size, rfl⟩
    exact (hs i m hm).trans_le (by simp)

/-- The entry of a material that is declared so. -/
def materialNode (m : Material S) (name : String) (texture : ℕ) : MaterialNode S where
  name
  finish := m.finish
  texture
  diffuse := m.diffuse
  specular := m.specular
  power := m.power
  reflect := m.reflect
  transmit := m.transmit
  refract := m.refract
  exponent := m.exponent.getD m.power

/-- **Finding a material**: it is in the table, or it is declared under its name, and entered once
its texture is found. -/
lemma material_cases {name path : String} {id : ℕ} (h : material w name path b = .ok id b') :
    (b' = b ∧ ∃ m, b.arena.materials[id]? = some m ∧ m.name = name) ∨
      (∀ (i : ℕ) (m : MaterialNode S), b.arena.materials[i]? = some m → m.name ≠ name) ∧
        ∃ m place b₁, w.document.materials.get? name = some m ∧
          texture w m.texture name b = .ok place b₁ ∧ id = b₁.arena.materials.size ∧
          b' = { b₁ with arena := { b₁.arena with
            materials := b₁.arena.materials.push (materialNode m name place) } } := by
  unfold material at h
  obtain ⟨a, b₁, h₁, h⟩ := bind_eq_ok.mp h
  obtain ⟨rfl, rfl⟩ := getArena_eq_ok.mp h₁
  rcases hf : b.arena.materials.findIdx? fun m => m.name == name with _ | i
  · simp only [hf] at h
    have hnone : ∀ (i : ℕ) (m : MaterialNode S), b.arena.materials[i]? = some m → m.name ≠ name :=
      fun i m hm => by simpa using Array.findIdx?_eq_none_iff.mp hf m (Array.mem_of_getElem? hm)
    refine .inr ⟨hnone, ?_⟩
    rcases hs : w.document.materials.get? name with _ | m
    · simp only [hs] at h
      exact (throw_eq_ok.mp h).elim
    · simp only [hs] at h
      obtain ⟨place, b₂, h₂, h⟩ := bind_eq_ok.mp h
      obtain ⟨rfl, rfl⟩ := enter_eq_ok.mp h
      exact ⟨m, place, b₂, rfl, h₂, rfl, rfl⟩
  · simp only [hf] at h
    obtain ⟨rfl, rfl⟩ := pure_eq_ok.mp h
    obtain ⟨hlt, hname, -⟩ := Array.findIdx?_eq_some_iff_getElem.mp hf
    exact .inl ⟨rfl, _, Array.getElem?_eq_getElem hlt, by simpa using hname⟩

lemma material_ok {name path : String} {id : ℕ} (h : material w name path b = .ok id b') :
    b.arena.Stocks b'.arena ∧ ∃ m, b'.arena.materials[id]? = some m ∧ m.name = name := by
  rcases material_cases h with ⟨rfl, hm⟩ | ⟨-, m, place, b₁, -, htexture, rfl, rfl⟩
  · exact ⟨.refl _, hm⟩
  · obtain ⟨hstock, t, ht, -⟩ := texture_ok htexture
    refine ⟨hstock.trans ⟨rfl, .push _ _, .refl _, fun hs i n hn => ?_⟩, _,
      Array.getElem?_push_size, rfl⟩
    rcases getElem?_push_cases hn with hn | ⟨-, rfl⟩
    · exact hs i n hn
    · exact (Array.getElem?_eq_some_iff.mp ht).1

lemma face_ok {f : Face S} {forced : Option String} {path : String} {n : FaceNode S}
    (h : face w f forced path b = .ok n b') :
    b.arena.Stocks b'.arena ∧ n.Shows b'.arena f forced := by
  obtain ⟨id, b₁, h₁, h⟩ := bind_eq_ok.mp h
  obtain ⟨rfl, rfl⟩ := pure_eq_ok.mp h
  obtain ⟨hstock, hm⟩ := material_ok h₁
  exact ⟨hstock, hm, rfl⟩

/-! ### Entries -/

lemma object_ok {header : Header S} {parent : Option ℕ} {path : String} {id : ℕ}
    (h : object w header parent path b = .ok id b') :
    id = b.arena.objects.size ∧ ∃ animator, b'.arena = { b.arena with
      objects :=
        b.arena.objects.push ⟨parent, header.placement, animator, header.time, path⟩ } := by
  unfold object at h
  have hpush : ∀ (animator : Option (Animator S)) b₁, b₁ = b →
      enter (·.objects.size) (fun a => { a with
        objects := a.objects.push ⟨parent, header.placement, animator, header.time, path⟩ }) b₁ =
          .ok id b' →
      id = b.arena.objects.size ∧ ∃ animator, b'.arena = { b.arena with
        objects :=
          b.arena.objects.push ⟨parent, header.placement, animator, header.time, path⟩ } := by
    rintro animator _ rfl h
    obtain ⟨rfl, rfl⟩ := enter_eq_ok.mp h
    exact ⟨rfl, animator, rfl⟩
  rcases ha : header.animation with _ | animation
  · simp only [ha] at h
    obtain ⟨animator, b₁, h₁, h⟩ := bind_eq_ok.mp h
    exact hpush _ b₁ (pure_eq_ok.mp h₁).2.symm h
  · simp only [ha] at h
    rcases hr : w.registry.resolve animation with name | animator
    · simp only [hr] at h
      obtain ⟨_, _, h₁, -⟩ := bind_eq_ok.mp h
      exact (throw_eq_ok.mp h₁).elim
    · simp only [hr] at h
      obtain ⟨_, b₁, h₁, h⟩ := bind_eq_ok.mp h
      exact hpush _ b₁ (pure_eq_ok.mp h₁).2.symm h

/-- **Entering a surface**: its sides are found one after the other, then it is entered. -/
lemma surface_cases {s : Surface S} {object id : ℕ} {spot : Spot} {forced : Option Override}
    {path : String} {n : SurfaceNode S}
    (h : surface w s object spot forced path b = .ok (id, n) b') :
    ∃ b₁ b₂, face w s.outer (forced.map (·.outer)) path b = .ok n.outer b₁ ∧
      face w s.inner (forced.map (·.inner)) path b₁ = .ok n.inner b₂ ∧
      clipBox s.clip path = .ok n.clip ∧ n = ⟨object, spot.array, spot.position, s.shape,
        s.shape.quadric, n.clip, s.shape.localBounds n.clip, n.outer, n.inner, []⟩ ∧
      id = b₂.arena.surfaces.size ∧ b' = { b₂ with
        arena := { b₂.arena with surfaces := b₂.arena.surfaces.push n } } := by
  obtain ⟨clip, b₁, h₁, h⟩ := bind_eq_ok.mp h
  obtain ⟨hclip, rfl⟩ := ofExcept_eq_ok.mp h₁
  obtain ⟨outer, b₂, houter, h⟩ := bind_eq_ok.mp h
  obtain ⟨inner, b₃, hinner, h⟩ := bind_eq_ok.mp h
  obtain ⟨id', b₄, h₄, h⟩ := bind_eq_ok.mp h
  obtain ⟨hid, rfl⟩ := pure_eq_ok.mp h
  obtain ⟨rfl, rfl⟩ := Prod.mk.injEq .. ▸ hid
  obtain ⟨rfl, rfl⟩ := enter_eq_ok.mp h₄
  exact ⟨b₂, b₃, houter, hinner, hclip, rfl, rfl, rfl⟩

lemma surface_ok {s : Surface S} {object id : ℕ} {spot : Spot} {forced : Option Override}
    {path : String} {n : SurfaceNode S}
    (h : surface w s object spot forced path b = .ok (id, n) b') :
    id = b.arena.surfaces.size ∧ ∃ a, b.arena.Stocks a ∧
      n.Stands a object spot s forced path [] ∧
      b'.arena = { a with surfaces := a.surfaces.push n } := by
  obtain ⟨b₁, b₂, h₁, h₂, hclip, hn, rfl, rfl⟩ := surface_cases h
  obtain ⟨hs₁, houter⟩ := face_ok h₁
  obtain ⟨hs₂, hinner⟩ := face_ok h₂
  have hs := hs₁.trans hs₂
  refine ⟨by rw [hs.surfaces], b₂.arena, hs, ?_, rfl⟩
  rw [hn]
  exact ⟨rfl, rfl, rfl, rfl, rfl, hclip, rfl, houter.kept hs₂.materials, hinner, rfl⟩

lemma openArray_ok {object : Option ℕ} {path : String} {count id : ℕ}
    (h : openArray object path count b = .ok id b') :
    id = b.arena.arrays.size ∧ ∃ n, b'.arena = { b.arena with
      arrays := b.arena.arrays.push n } ∧ n.object = object ∧ n.path = path := by
  obtain ⟨id', b₁, h₁, h⟩ := bind_eq_ok.mp h
  obtain ⟨rfl, rfl⟩ := enter_eq_ok.mp h₁
  obtain ⟨u, b₂, h₂, h⟩ := bind_eq_ok.mp h
  obtain ⟨rfl, rfl⟩ := pure_eq_ok.mp h
  exact ⟨rfl, _, acquire_ok h₂, rfl, rfl⟩

/-! ### Copies -/

section

variable {bound object : ℕ} {active : List String} {path name : String} {forced : Option Override}
  {a : Assembly S}

lemma copy_of_get?_eq_none (h : w.document.library.get? name = none) :
    copy w bound active object path forced name = throw (.unknownArray name path) := by
  rw [copy, h]

lemma copy_of_mem (h : w.document.library.get? name = some a) (hm : name ∈ active) :
    copy w bound active object path forced name = throw (.recursiveInstance name path) := by
  rw [copy, h]
  exact if_pos hm

lemma copy_zero (h : w.document.library.get? name = some a) :
    copy w 0 active object path forced name = throw (.recursiveInstance name path) := by
  rw [copy, h]
  dsimp only
  split <;> rfl

lemma copy_succ (h : w.document.library.get? name = some a) (hm : name ∉ active) :
    copy w (bound + 1) active object path forced name =
      array w (copy w bound (name :: active)) (some object) path forced a.parts a.relations := by
  rw [copy, h]
  exact if_neg hm

end

end Build

lemma compile_document [Scalar S] {w : Workshop S} {allocator : Allocator} {c : Compiled S}
    (h : (compile w allocator).1 = .ok c) : ∃ b,
      Build.document w ⟨Arena.empty, Ledger.empty, allocator⟩ = .ok () b ∧
        c = ⟨b.arena, b.ledger⟩ := by
  unfold compile at h
  rcases hd : Build.document w ⟨Arena.empty, Ledger.empty, allocator⟩ with ⟨⟨⟩, b⟩ | ⟨e, b⟩
  · rw [hd] at h
    exact ⟨b, rfl, (Except.ok.inj h).symm⟩
  · rw [hd] at h
    cases h

end SolidTrace
