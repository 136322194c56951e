import SolidTrace.Proofs.Compile.Decision
import SolidTrace.Proofs.Compile.Expansion

/-!
Compilation accepts the valid documents.

The walk over a document is read as a test, part by part. What it asks of an array and of all
arrays below it is `Scope.Valid` of each of them, and the cameras and lights that it asks room for
are those of the expansion. An array inside itself is found at its first copy, so a walk that ends
has been through the whole expansion.
-/

namespace SolidTrace

variable {S : Type} [Scalar S]

/-- The array and all arrays below it are valid. -/
def Scope.Sound (w : Workshop S) (s : Scope S) : Prop :=
  ∀ inner, s.Below w.document inner → inner.Valid w

/-- A part is valid, and so are all arrays below it. -/
def Part.Sound (w : Workshop S) (active : List String) (forced : Option Override) (p : Part S) :
    Prop :=
  p.Valid w active forced ∧ ∀ s, p.scope? w.document active forced = some s → s.Sound w

/-- The cameras and lights of an array and of all arrays below it. -/
noncomputable def Scope.tally (w : Workshop S) (s : Scope S) : Tally :=
  (s.count w.document Part.isCamera, s.count w.document Part.isLight)

/-- The cameras and lights of a part and of all arrays below it. -/
noncomputable def Part.tally (w : Workshop S) (active : List String) (forced : Option Override)
    (p : Part S) : Tally :=
  (Scope.partCount w.document active forced Part.isCamera p,
    Scope.partCount w.document active forced Part.isLight p)

section

variable {w : Workshop S} {active : List String} {forced : Option Override} {p : Part S}
  {ps : List (Part S)} {relations : List Relation}

/-- An array is valid with all below it when its parts are and its program runs. -/
lemma Scope.sound_iff {s : Scope S} : s.Sound w ↔
    (∀ p ∈ s.content.parts, p.Sound w s.active s.forced) ∧
      ∃ outcome, Program.run (s.content.parts.map Part.kind) s.content.relations = .ok outcome := by
  rw [Sound, forall_below_iff]
  constructor
  · rintro ⟨hvalid, hbelow⟩
    exact ⟨fun p hp => ⟨hvalid.parts p hp, hbelow p hp⟩, hvalid.program⟩
  · rintro ⟨hparts, hprogram⟩
    exact ⟨⟨fun p hp => (hparts p hp).1, hprogram⟩, fun p hp => (hparts p hp).2⟩

omit [Scalar S] in
lemma Scope.tally_nil : tally w ⟨active, forced, ⟨[], relations⟩⟩ = 0 := by
  rw [tally, count_nil, count_nil]
  rfl

omit [Scalar S] in
lemma Scope.tally_cons : tally w ⟨active, forced, ⟨p :: ps, relations⟩⟩ =
    p.tally w active forced + tally w ⟨active, forced, ⟨ps, relations⟩⟩ := by
  rw [tally, count_cons, count_cons]
  rfl

omit [Scalar S] in
lemma Part.tally_of_scope {s : Scope S} (hs : p.scope? w.document active forced = some s)
    (hc : p.isCamera = false) (hl : p.isLight = false) :
    p.tally w active forced = s.tally w := by
  simp [tally, Scope.partCount, hs, hc, hl, Scope.tally]

/-- Below a part that stands for no array there is nothing to be asked for. -/
lemma Part.sound_iff_valid (hp : p.array? w.document = none) :
    p.Sound w active forced ↔ p.Valid w active forced := by
  refine and_iff_left fun s hs => ?_
  rw [scope?, hp] at hs
  cases hs

/-- A part that neither shows nor copies anything is asked for its animator only. -/
lemma Part.valid_iff_animated (hc : p.copied = []) (hs : ∀ h s, p ≠ .surface h s) :
    p.Valid w active forced ↔
      ∀ name, p.header.animation = some (.custom name) → (Dict.get? w.registry name).isSome := by
  refine ⟨Valid.animated, fun hanimated => ⟨fun name hname => ?_, hanimated, fun h s heq => ?_,
    fun h s heq => ?_⟩⟩
  · rw [hc] at hname
    cases hname
  · exact (hs h s heq).elim
  · exact (hs h s heq).elim

lemma Part.sound_camera_iff {header : Header S} {c : Camera S} :
    Part.Sound w active forced (.camera header c) ↔
      ∀ name, header.animation = some (.custom name) → (Dict.get? w.registry name).isSome := by
  rw [sound_iff_valid rfl, valid_iff_animated rfl fun _ _ h => by cases h]
  rfl

lemma Part.sound_light_iff {header : Header S} {l : Light S} :
    Part.Sound w active forced (.light header l) ↔
      ∀ name, header.animation = some (.custom name) → (Dict.get? w.registry name).isSome := by
  rw [sound_iff_valid rfl, valid_iff_animated rfl fun _ _ h => by cases h]
  rfl

lemma Part.sound_surface_iff {header : Header S} {s : Surface S} :
    Part.Sound w active forced (.surface header s) ↔
      (∀ name, header.animation = some (.custom name) → (Dict.get? w.registry name).isSome) ∧
        s.Clips ∧
        w.Provides (((header.materials <|> forced).map (·.outer)).getD s.outer.material) ∧
        w.Provides (((header.materials <|> forced).map (·.inner)).getD s.inner.material) := by
  rw [sound_iff_valid rfl]
  constructor
  · intro hvalid
    exact ⟨hvalid.animated, hvalid.clipped _ _ rfl, hvalid.covered _ _ rfl⟩
  · rintro ⟨hanimated, hclips, hcovered⟩
    refine ⟨(fun _ h => by cases h), hanimated, ?_, ?_⟩
    · rintro _ _ ⟨⟩
      exact hclips
    · rintro _ _ ⟨⟩
      exact hcovered

lemma Part.sound_copy_iff {header : Header S} {name : String} :
    Part.Sound w active forced (.copy header name) ↔
      (∀ name, header.animation = some (.custom name) → (Dict.get? w.registry name).isSome) ∧
        name ∉ active ∧ ∃ a, w.document.library.get? name = some a ∧
          Scope.Sound w ⟨name :: active, header.materials <|> forced, a⟩ := by
  constructor
  · rintro ⟨hvalid, hbelow⟩
    obtain ⟨hsome, hnot⟩ := hvalid.copied name List.mem_cons_self
    obtain ⟨a, ha⟩ := Option.isSome_iff_exists.mp hsome
    exact ⟨hvalid.animated, hnot, a, ha,
      hbelow _ (by simp [scope?, array?, ha, copied, Part.header])⟩
  · rintro ⟨hanimated, hnot, a, ha, hsound⟩
    refine ⟨⟨fun n hn => ?_, hanimated, (fun _ _ h => by cases h), (fun _ _ h => by cases h)⟩,
      fun s hs => ?_⟩
    · obtain rfl := List.mem_singleton.mp hn
      exact ⟨ha ▸ rfl, hnot⟩
    · simp only [scope?, array?, ha, Option.map_some, Option.some.injEq] at hs
      exact hs ▸ hsound

lemma Part.sound_assembly_iff {header : Header S} {content : List (Part S)} :
    Part.Sound w active forced (.assembly header content relations) ↔
      (∀ name, header.animation = some (.custom name) → (Dict.get? w.registry name).isSome) ∧
        (∀ p ∈ content, p.Sound w active (header.materials <|> forced)) ∧
        ∃ outcome, Program.run (content.map Part.kind) relations = .ok outcome := by
  have hscope : Part.scope? w.document active forced (.assembly header content relations) =
      some ⟨active, header.materials <|> forced, ⟨content, relations⟩⟩ := rfl
  constructor
  · rintro ⟨hvalid, hbelow⟩
    exact ⟨hvalid.animated, Scope.sound_iff.mp (hbelow _ hscope)⟩
  · rintro ⟨hanimated, hsound⟩
    refine ⟨(valid_iff_animated rfl fun _ _ h => by cases h).mpr hanimated, fun s hs => ?_⟩
    obtain rfl := Option.some.inj (hscope.symm.trans hs)
    exact Scope.sound_iff.mpr hsound

omit [Scalar S] in
lemma Part.tally_copy {header : Header S} {name : String} :
    Part.tally w active forced (.copy header name) =
      (w.document.library.get? name).elim 0
        fun a => Scope.tally w ⟨name :: active, header.materials <|> forced, a⟩ := by
  rcases ha : w.document.library.get? name with _ | a
  · simp [tally, Scope.partCount, isCamera, isLight, scope?, array?, ha]
  · exact tally_of_scope (by simp [scope?, array?, ha, copied, Part.header]) rfl rfl

end

namespace Build

variable {w : Workshop S} {copy : CopyBuild S} {active : List String} {b : Builder S}

/-- Copies test whether their array is in the library, is not among those under way, and is valid
with all arrays below it. -/
def CopyDecides (w : Workshop S) (active : List String) (copy : CopyBuild S) : Prop :=
  ∀ (object : ℕ) (path : String) (forced : Option Override) (name : String) (b : Builder S),
    b.Ready w → Decides w
      (name ∉ active ∧ ∃ a, w.document.library.get? name = some a ∧
        Scope.Sound w ⟨name :: active, forced, a⟩)
      (((w.document.library.get? name).elim 0 fun a => Scope.tally w ⟨name :: active, forced, a⟩))
      (fun _ _ => True) (copy object path forced name) b

lemma arrayFilled_decides {v : Prop} {t : Tally} {kinds : List Program.Kind}
    {fill : Spot → Build S (List (Occupant S))}
    (hfill : ∀ spot b, b.Ready w →
      Decides w v t (fun occupants _ => occupants.map Occupant.kind = kinds) (fill spot) b)
    (object : Option ℕ) (path : String) (count : ℕ) (relations : List Relation) (h : b.Ready w) :
    Decides w (v ∧ ∃ outcome, Program.run kinds relations = .ok outcome) t (fun _ _ => True)
      (arrayFilled object path count fill relations) b := by
  refine (openArray_decides object path count h).andThen fun id b₁ h₁ _ => ?_
  refine .congr ((hfill ⟨id, object, 0⟩ b₁ h₁).bind fun occupants b₂ h₂ hkinds => ?_) Iff.rfl
    (add_zero t)
  rw [← hkinds]
  exact closeArray_decides id path relations h₂

mutual

/-- **Parts** are tested with all that is below them. -/
theorem part_decides [Scalar.Ordered S] (hcopy : CopyDecides w active copy) (spot : Spot)
    (path : String) (forced : Option Override) : ∀ (p : Part S) (b : Builder S), b.Ready w →
    Decides w (p.Sound w active forced) (p.tally w active forced) (fun o _ => o.kind = p.kind)
      (part w copy spot path forced p) b
  | .camera header c, b, h => by
    unfold part
    refine .congr ((object_decides header _ _ h).bind fun o b₁ h₁ _ =>
      (camera_decides c o h₁).bind fun id b₂ h₂ _ => .pure h₂ rfl) ?_ ?_
    · rw [Part.sound_camera_iff, and_true, and_true]
    · simp [Part.tally, Scope.partCount, Part.isCamera, Part.isLight, Part.scope?, Part.array?]
  | .light header l, b, h => by
    unfold part
    refine .congr ((object_decides header _ _ h).bind fun o b₁ h₁ _ =>
      (light_decides l o h₁).bind fun id b₂ h₂ _ => .pure h₂ rfl) ?_ ?_
    · rw [Part.sound_light_iff, and_true, and_true]
    · simp [Part.tally, Scope.partCount, Part.isCamera, Part.isLight, Part.scope?, Part.array?]
  | .surface header s, b, h => by
    unfold part
    refine .congr ((object_decides header _ _ h).bind fun o b₁ h₁ _ =>
      (surface_decides s o spot _ _ h₁).bind fun n b₂ h₂ _ => .pure h₂ rfl) ?_ ?_
    · rw [Part.sound_surface_iff, and_true]
    · simp [Part.tally, Scope.partCount, Part.isCamera, Part.isLight, Part.scope?, Part.array?]
      rfl
  | .copy header name, b, h => by
    unfold part
    refine .congr ((object_decides header _ _ h).bind fun o b₁ h₁ _ =>
      (hcopy o _ _ name b₁ h₁).bind fun r b₂ h₂ _ => .pure h₂ rfl) ?_ ?_
    · rw [Part.sound_copy_iff, and_true]
    · rw [Part.tally_copy, zero_add, add_zero]
  | .assembly header content relations, b, h => by
    unfold part
    refine .congr ((object_decides header _ _ h).bind fun o b₁ h₁ _ =>
      (arrayFilled_decides (fun spot b h => parts_decides hcopy _ _ relations content spot b h)
        (some o) _ _ relations h₁).bind fun r b₂ h₂ _ => .pure h₂ rfl) ?_ ?_
    · rw [Part.sound_assembly_iff, and_true]
    · rw [Part.tally_of_scope rfl rfl rfl, zero_add, add_zero]
      rfl

/-- Parts that stand one after the other are tested one after the other. -/
theorem parts_decides [Scalar.Ordered S] (hcopy : CopyDecides w active copy) (path : String)
    (forced : Option Override) (relations : List Relation) :
    ∀ (ps : List (Part S)) (spot : Spot) (b : Builder S), b.Ready w →
    Decides w (∀ p ∈ ps, p.Sound w active forced)
      (Scope.tally w ⟨active, forced, ⟨ps, relations⟩⟩)
      (fun occupants _ => occupants.map Occupant.kind = ps.map Part.kind)
      (parts w copy spot path forced ps) b
  | [], spot, b, h => by
    unfold parts
    exact .congr (.pure h rfl) (iff_of_true trivial (List.forall_mem_nil _)) Scope.tally_nil.symm
  | p :: ps, spot, b, h => by
    unfold parts
    refine .congr ((part_decides hcopy spot path forced p b h).bind fun o b₁ h₁ ho =>
      (parts_decides hcopy path forced relations ps _ b₁ h₁).bind fun os b₂ h₂ hos =>
        .pure h₂ (by rw [List.map_cons, ho, hos, List.map_cons])) ?_ ?_
    · rw [and_true, List.forall_mem_cons]
    · rw [add_zero, Scope.tally_cons]

end

end Build

end SolidTrace
