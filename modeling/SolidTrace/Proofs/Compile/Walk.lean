import SolidTrace.Proofs.Compile.Closing

/-!
What a walk over a document leaves in the arena.

`part_ok` and `parts_ok` follow the recursion over parts, and `copy_ok` the one over copies.
Each says that the arena grows and that the new entries record what was walked over. When an array
is closed, the surfaces below it get their trims; what was recorded before moves there by
`Records.agrees`.
-/

namespace SolidTrace

variable {S : Type}

/-- The surface at a position is the same for the occupants and for the elements made of them. -/
lemma Build.surfaceAt_eq_ok {occupants : List (Occupant S)} {path : String} {n : ArrayNode S}
    {position s : ℕ} (hn : n.elements = occupants.map Occupant.element)
    (h : surfaceAt occupants path position = .ok s) : n.surfaceAt? position = some s := by
  unfold surfaceAt at h
  split at h
  · next hpos =>
    cases h
    simp [ArrayNode.surfaceAt?, hn, hpos]
  · cases h

lemma Build.resolveTrim_eq_ok {occupants : List (Occupant S)} {path : String} {n : ArrayNode S}
    {array : ℕ} (hn : n.elements = occupants.map Occupant.element) {t : Program.LocalTrim}
    {t' : Trim ℕ ℕ} (h : resolveTrim occupants path array t = .ok t') :
    n.resolve? array t = some t' := by
  cases t with
  | outer p =>
    rcases hs : surfaceAt occupants path p with e | s
    · simp [resolveTrim, hs, Except.map] at h
    · simp only [resolveTrim, hs, Except.map, Except.ok.injEq] at h
      subst h
      simp [ArrayNode.resolve?, surfaceAt_eq_ok hn hs]
  | inner p =>
    rcases hs : surfaceAt occupants path p with e | s
    · simp [resolveTrim, hs, Except.map] at h
    · simp only [resolveTrim, hs, Except.map, Except.ok.injEq] at h
      subst h
      simp [ArrayNode.resolve?, surfaceAt_eq_ok hn hs]
  | accum u =>
    cases h
    rfl

variable [Scalar S]

lemma ArrayNode.sized_complete {a : Arena S} {n : ArrayNode S} {occupants : List (Occupant S)}
    {outcome : Program.Outcome} {accumulator : List ℕ}
    (h : ∀ o ∈ occupants, a.placedBox? o.element = o.placed?) :
    (n.complete occupants outcome accumulator).Sized a := by
  rw [Sized, Arena.volumeOf_declared, complete_elements, complete_included, complete_volume,
    Build.volumeOf, List.zip_map_left, List.filterMap_map]
  refine congrArg Volume.ofBoxes (List.filterMap_congr fun x hx => ?_)
  rw [Function.comp_apply, Prod.map_fst, Prod.map_snd, h x.1 (List.of_mem_zip hx).1]
  rfl

namespace Build

/-! ### What is entered -/

/-- The part has become the occupant, with the entries between the marks. -/
structure Fills (d : Document S) (a : Arena S) (spot : Spot) (path : String)
    (forced : Option Override) (lo hi : Marks) (o : Occupant S) (p : Part S) : Prop where
  kind : o.kind = p.kind
  surfaces : o.surfaces = List.range' lo.surfaces (hi.surfaces - lo.surfaces)
  stands : o.element.Stands d a spot path forced [] lo hi p
  nested : ∀ inner, p.array? d = some inner →
    a.Records d lo.addObject hi (some lo.objects) (partPath path spot.position p.header)
      (p.header.materials <|> forced) [] inner
  placed : a.placedBox? o.element = o.placed?

/-- The parts have become the occupants, one after the other, with the entries between the marks of
each. -/
structure FillsAll (d : Document S) (a : Arena S) (spot : Spot) (path : String)
    (forced : Option Override) (cut : ℕ → Marks) (occupants : List (Occupant S))
    (ps : List (Part S)) : Prop where
  length : occupants.length = ps.length
  each : ∀ (q : ℕ) (o : Occupant S) (p : Part S), occupants[q]? = some o → ps[q]? = some p →
    Fills d a { spot with position := spot.position + q } path forced (cut q) (cut (q + 1)) o p

/-- An array has been entered. -/
structure Enters (d : Document S) (object : Option ℕ) (path : String) (forced : Option Override)
    (content : Assembly S) (a a' : Arena S) (r : Nested S) : Prop where
  grows : a.Grows a'
  id : r.id = a.marks.arrays
  surfaces : r.surfaces =
    List.range' a.marks.surfaces (a'.marks.surfaces - a.marks.surfaces)
  extent : ∃ n, a'.arrays[a.marks.arrays]? = some n ∧ n.object = object ∧
    n.volume.extent = r.extent
  records : a'.Records d a.marks a'.marks object path forced [] content

variable {d : Document S} {a a' : Arena S} {spot : Spot} {path : String} {forced : Option Override}

/-- The box of an occupant is that of its element, also when its surfaces have got their trims. -/
lemma Fills.placedBox?_eq {lo hi : Marks} {o : Occupant S} {p : Part S} {ext : List (Trim ℕ ℕ)}
    (h : Fills d a spot path forced lo hi o p) (ha : a.Agrees ext lo hi a') :
    a'.placedBox? o.element = a.placedBox? o.element :=
  h.stands.placedBox?_eq (fun inner hinner => (h.nested inner hinner).entry) ha

lemma Fills.agrees {lo hi : Marks} {o : Occupant S} {p : Part S}
    (h : Fills d a spot path forced lo hi o p) (ha : a.Agrees [] lo hi a') :
    Fills d a' spot path forced lo hi o p where
  kind := h.kind
  surfaces := h.surfaces
  stands := h.stands.agrees ha
  nested inner hin := (h.nested inner hin).agrees (ha.mono (Marks.le_addObject _) (Marks.le_refl _))
  placed := (h.placedBox?_eq ha).trans h.placed

section

variable {cut : ℕ → Marks} {occupants : List (Occupant S)} {ps : List (Part S)}

lemma FillsAll.get (h : FillsAll d a spot path forced cut occupants ps) {q : ℕ}
    (hq : q < ps.length) : ∃ o p, occupants[q]? = some o ∧ ps[q]? = some p ∧
      Fills d a { spot with position := spot.position + q } path forced (cut q) (cut (q + 1)) o p :=
  have ho := List.getElem?_eq_getElem (h.length.ge.trans_lt' hq)
  have hp := List.getElem?_eq_getElem hq
  ⟨_, _, ho, hp, h.each q _ _ ho hp⟩

lemma FillsAll.cut_le (h : FillsAll d a spot path forced cut occupants ps) {q r : ℕ} (hqr : q ≤ r)
    (hr : r ≤ ps.length) : cut q ≤ cut r := by
  refine Marks.le_of_steps (fun k hk => ?_) hqr hr
  obtain ⟨o, p, -, -, hf⟩ := h.get hk
  exact hf.stands.le

lemma FillsAll.mem_surfaces (h : FillsAll d a spot path forced cut occupants ps) {q s : ℕ}
    {o : Occupant S} (ho : occupants[q]? = some o) :
    s ∈ o.surfaces ↔ (cut q).surfaces ≤ s ∧ s < (cut (q + 1)).surfaces := by
  have hq : q < ps.length := h.length ▸ (List.getElem?_eq_some_iff.mp ho).1
  have hf := h.each q o _ ho (List.getElem?_eq_getElem hq)
  have hle := hf.stands.le.surfaces
  rw [hf.surfaces, List.mem_range'_1]
  omega

lemma FillsAll.disjoint (h : FillsAll d a spot path forced cut occupants ps) :
    occupants.Pairwise fun o o' => List.Disjoint o.surfaces o'.surfaces := by
  rw [List.pairwise_iff_getElem]
  intro q r hq hr hqr s hs hs'
  rw [h.mem_surfaces (List.getElem?_eq_getElem hq)] at hs
  rw [h.mem_surfaces (List.getElem?_eq_getElem hr)] at hs'
  have hcut := (h.cut_le (show q + 1 ≤ r from hqr) (h.length ▸ hr.le)).surfaces
  omega

lemma FillsAll.nodup (h : FillsAll d a spot path forced cut occupants ps) {o : Occupant S}
    (ho : o ∈ occupants) : o.surfaces.Nodup := by
  obtain ⟨q, hq, hget⟩ := List.getElem_of_mem ho
  have hf := h.each q o _ (List.getElem?_eq_some_iff.mpr ⟨hq, hget⟩)
    (List.getElem?_eq_getElem (h.length ▸ hq))
  rw [hf.surfaces]
  exact List.nodup_range'

lemma FillsAll.first_le (h : FillsAll d a spot path forced cut occupants ps) {o : Occupant S}
    (ho : o ∈ occupants) {s : ℕ} (hs : s ∈ o.surfaces) : (cut 0).surfaces ≤ s := by
  obtain ⟨q, hq, hget⟩ := List.getElem_of_mem ho
  have hfrom := ((h.mem_surfaces (List.getElem?_eq_some_iff.mpr ⟨hq, hget⟩)).mp hs).1
  exact (h.cut_le (Nat.zero_le q) (h.length ▸ hq.le)).surfaces.trans hfrom

lemma FillsAll.kinds (h : FillsAll d a spot path forced cut occupants ps) :
    occupants.map Occupant.kind = ps.map Part.kind := by
  refine List.ext_getElem? fun q => ?_
  rw [List.getElem?_map, List.getElem?_map]
  by_cases hq : q < ps.length
  · obtain ⟨o, p, ho, hp, hf⟩ := h.get hq
    rw [ho, hp, Option.map_some, Option.map_some, hf.kind]
  · rw [List.getElem?_eq_none (by rw [h.length]; omega), List.getElem?_eq_none (by omega)]
    rfl

lemma FillsAll.flatMap_surfaces (h : FillsAll d a spot path forced cut occupants ps) :
    occupants.flatMap Occupant.surfaces =
      List.range' (cut 0).surfaces ((cut ps.length).surfaces - (cut 0).surfaces) := by
  induction ps generalizing cut occupants spot with
  | nil =>
    obtain rfl := List.length_eq_zero_iff.mp h.length
    simp
  | cons p ps ih =>
    obtain ⟨o, occupants, rfl⟩ := List.exists_cons_of_length_eq_add_one h.length
    have hrest : FillsAll d a { spot with position := spot.position + 1 } path forced
        (fun q => cut (q + 1)) occupants ps := by
      refine ⟨Nat.succ.inj h.length, fun q o p ho hp => ?_⟩
      have hf := h.each (q + 1) o p ho hp
      rw [show spot.position + (q + 1) = spot.position + 1 + q by omega] at hf
      exact hf
    have h₁ := (h.cut_le (Nat.zero_le 1) (by simp)).surfaces
    have h₂ := (h.cut_le (show 1 ≤ (p :: ps).length by simp) (Nat.le_refl _)).surfaces
    rw [List.flatMap_cons, (h.each 0 o p rfl rfl).surfaces, ih hrest]
    exact range'_append_range' h₁ h₂

end

/-! ### Arrays -/

/-- A construction that fills an array with parts. -/
def Filling (d : Document S) (path : String) (forced : Option Override) (ps : List (Part S))
    (fill : Spot → Build S (List (Occupant S))) : Prop :=
  ∀ {spot : Spot} {b b' : Builder S} {occupants : List (Occupant S)},
    fill spot b = .ok occupants b' → b.arena.Grows b'.arena ∧ ∃ cut : ℕ → Marks,
      cut 0 = b.arena.marks ∧ cut ps.length = b'.arena.marks ∧
        FillsAll d b'.arena spot path forced cut occupants ps

variable {b b' : Builder S}

/-- Occupants that fill an array are the elements of its entry. -/
lemma FillsAll.closes {cut : ℕ → Marks} {occupants : List (Occupant S)} {content : Assembly S}
    (h : FillsAll d a spot path forced cut occupants content.parts) {object : Option ℕ}
    {n : ArrayNode S} (hobject : n.object = object) (hpath : n.path = path)
    {outcome : Program.Outcome} {accumulator : List ℕ}
    (hrun : Program.run (occupants.map Occupant.kind) content.relations = .ok outcome)
    (haccumulator : outcome.accumulator.mapM (n.complete occupants outcome accumulator).surfaceAt? =
      some accumulator) {lo hi : Marks} (hsurfaces : occupants.flatMap Occupant.surfaces =
        List.range' lo.surfaces (hi.surfaces - lo.surfaces)) :
    (n.complete occupants outcome accumulator).Closes object path content lo hi outcome :=
  ⟨hobject, hpath, by simpa using h.length, h.kinds ▸ hrun, hsurfaces, rfl, rfl, haccumulator⟩

/-- Occupants record their array when they keep what they record, with the trims of their
positions. -/
lemma FillsAll.records {a' : Arena S} {cut : ℕ → Marks} {own : ℕ → List (Trim ℕ ℕ)}
    {occupants : List (Occupant S)} {content : Assembly S} {object : Option ℕ} {lo hi : Marks}
    (h : FillsAll d a ⟨lo.arrays, object, 0⟩ path forced cut occupants content.parts)
    (hagrees : ∀ {q}, q < content.parts.length → a.Agrees (own q) (cut q) (cut (q + 1)) a')
    {n : ArrayNode S} {outcome : Program.Outcome} {accumulator : List ℕ}
    (hnode : a'.arrays[lo.arrays]? = some (n.complete occupants outcome accumulator))
    (hcloses : (n.complete occupants outcome accumulator).Closes object path content lo hi outcome)
    (hfirst : cut 0 = lo.addArray) (hlast : cut content.parts.length = hi)
    (hown : ∀ (q : ℕ) (l : List Program.LocalTrim), outcome.trims[q]? = some l →
      l.mapM (resolveTrim occupants path lo.arrays) = .ok (own q)) :
    a'.Records d lo hi object path forced [] content := by
  refine .mk cut own hnode hcloses hfirst hlast (fun q l hl => ?_) (fun q e p he hp => ?_)
    (fun q p inner hp hinner => ?_) ?_
  · exact mapM_eq_some (fun _ _ => resolveTrim_eq_ok rfl) (hown q l hl)
  · rw [ArrayNode.complete_elements, List.getElem?_map, Option.map_eq_some_iff] at he
    obtain ⟨o, ho, rfl⟩ := he
    have hfill := h.each q o p ho hp
    rw [Nat.zero_add] at hfill
    rw [List.append_nil]
    exact hfill.stands.agrees (hagrees (List.getElem?_eq_some_iff.mp hp).1)
  · have hq := (List.getElem?_eq_some_iff.mp hp).1
    obtain ⟨o, p', ho, hp', hfill⟩ := h.get hq
    obtain rfl : p' = p := Option.some.inj (hp'.symm.trans hp)
    rw [Nat.zero_add] at hfill
    rw [List.append_nil]
    exact (hfill.nested inner hinner).agrees
      ((hagrees hq).mono (Marks.le_addObject _) (Marks.le_refl _))
  · refine ArrayNode.sized_complete fun o ho => ?_
    obtain ⟨q, hq⟩ := List.getElem?_of_mem ho
    have hlt : q < content.parts.length := h.length ▸ (List.getElem?_eq_some_iff.mp hq).1
    have hfill := h.each q o _ hq (List.getElem?_eq_getElem hlt)
    exact (hfill.placedBox?_eq (hagrees hlt)).trans hfill.placed

/-- **Arrays**: what is filled in and then closed records the array. -/
theorem arrayFilled_ok {object : Option ℕ} {count : ℕ} {content : Assembly S}
    {fill : Spot → Build S (List (Occupant S))} {r : Nested S}
    (hfill : Filling d path forced content.parts fill)
    (h : arrayFilled object path count fill content.relations b = .ok r b') :
    Enters d object path forced content b.arena b'.arena r := by
  obtain ⟨id, b₁, hopen, h⟩ := bind_eq_ok.mp h
  obtain ⟨occupants, b₂, hf, h⟩ := bind_eq_ok.mp h
  obtain ⟨rfl, n, ha₁, hobject, hpath⟩ := openArray_ok hopen
  obtain ⟨hgrow, cut, hfirst, hlast, hall⟩ := hfill hf
  have hopened : b.arena.Grows b₁.arena := ha₁ ▸ Arena.grows_array _ _
  have hmarks : b₁.arena.marks = b.arena.marks.addArray := ha₁ ▸ Arena.marks_array _ _
  rw [hmarks] at hfirst
  obtain ⟨hid, hsurfaces, outcome, accumulator, own, f, hextent, hc⟩ :=
    closeArray_ok (fun _ ho => hall.nodup ho) hall.disjoint h
  have hclosed := hc.marks
  have hall_surfaces : occupants.flatMap Occupant.surfaces = List.range' b.arena.marks.surfaces
      (b'.arena.marks.surfaces - b.arena.marks.surfaces) := by
    rw [hall.flatMap_surfaces, hfirst, hlast, hclosed, Marks.addArray_surfaces]
  -- the occupants keep what they record, with the trims of their positions
  have hagrees : ∀ {q}, q < content.parts.length →
      b₂.arena.Agrees (own q) (cut q) (cut (q + 1)) b'.arena := by
    intro q hq
    obtain ⟨o, p, ho, -, -⟩ := hall.get hq
    refine hc.agrees ho (fun s h₁ h₂ => (hall.mem_surfaces ho).mpr ⟨h₁, h₂⟩) ?_
    have hcut := (hall.cut_le (Nat.zero_le q) hq.le).arrays
    rw [hfirst] at hcut
    exact hcut
  have hnode : b₂.arena.arrays[b.arena.arrays.size]? = some n := by
    refine hgrow.arrays _ _ ?_
    rw [ha₁]
    exact Array.getElem?_push_size
  have hbelow : ∀ o ∈ occupants, ∀ s ∈ o.surfaces, b.arena.surfaces.size ≤ s := by
    intro o ho s hs
    have hle := hall.first_le ho hs
    rw [hfirst] at hle
    exact hle
  refine ⟨hc.grows (hopened.trans hgrow) hbelow (Nat.le_refl _), hid,
    hsurfaces.trans hall_surfaces, ⟨_, hc.node hnode, hobject, hextent.symm⟩, ?_⟩
  have hcloses : (n.complete occupants outcome accumulator).Closes object path content
      b.arena.marks b'.arena.marks outcome :=
    hall.closes hobject hpath hc.run
      (mapM_eq_some (fun _ _ => surfaceAt_eq_ok rfl) hc.accumulator_eq) hall_surfaces
  exact hall.records hagrees (hc.node hnode) hcloses hfirst (hlast.trans hclosed.symm) hc.own_eq

/-! ### Parts -/

section

variable {w : Workshop S} {copy : CopyBuild S} {header : Header S}

lemma object_stands {parent : Option ℕ} {id : ℕ} (h : object w header parent path b = .ok id b') :
    id = b.arena.marks.objects ∧ b.arena.Grows b'.arena ∧ b'.arena.marks = b.arena.marks.addObject ∧
      ObjectNode.Stands b'.arena b.arena.marks.objects parent path header := by
  obtain ⟨rfl, animator, ha⟩ := object_ok h
  rw [ha]
  exact ⟨rfl, Arena.grows_object _ _, Arena.marks_object _ _, animator, Array.getElem?_push_size⟩

lemma fills_camera {b₁ : Builder S} {c : Camera S} {id place : ℕ}
    (hobject : object w header spot.parent (partPath path spot.position header) b = .ok id b₁)
    (h : camera c id b₁ = .ok place b') :
    b.arena.Grows b'.arena ∧ Fills d b'.arena spot path forced b.arena.marks b'.arena.marks
      ⟨.camera place, id, header.placement, [], none⟩ (.camera header c) := by
  obtain ⟨rfl, hgrow, hmarks, hstands⟩ := object_stands hobject
  obtain ⟨rfl, ha⟩ := camera_ok h
  have hcameras : b₁.arena.cameras.size = b.arena.marks.cameras := congrArg Marks.cameras hmarks
  have hgrow₂ : b₁.arena.Grows b'.arena := ha ▸ Arena.grows_camera _ _
  have hmarks₂ : b'.arena.marks = b.arena.marks.addObject.addCamera := by
    rw [ha, Arena.marks_camera, hmarks]
  refine ⟨hgrow.trans hgrow₂, rfl, by simp [hmarks₂], ?_, (fun _ hin => by cases hin), rfl⟩
  rw [hmarks₂, hcameras]
  refine .camera (hstands.kept hgrow₂.objects) ?_
  rw [ha, ← hcameras]
  exact Array.getElem?_push_size

lemma fills_light {b₁ : Builder S} {l : Light S} {id place : ℕ}
    (hobject : object w header spot.parent (partPath path spot.position header) b = .ok id b₁)
    (h : light l id b₁ = .ok place b') :
    b.arena.Grows b'.arena ∧ Fills d b'.arena spot path forced b.arena.marks b'.arena.marks
      ⟨.light place, id, header.placement, [], none⟩ (.light header l) := by
  obtain ⟨rfl, hgrow, hmarks, hstands⟩ := object_stands hobject
  obtain ⟨rfl, ha⟩ := light_ok h
  have hlights : b₁.arena.lights.size = b.arena.marks.lights := congrArg Marks.lights hmarks
  have hgrow₂ : b₁.arena.Grows b'.arena := ha ▸ Arena.grows_light _ _
  have hmarks₂ : b'.arena.marks = b.arena.marks.addObject.addLight := by
    rw [ha, Arena.marks_light, hmarks]
  refine ⟨hgrow.trans hgrow₂, rfl, by simp [hmarks₂], ?_, (fun _ hin => by cases hin), rfl⟩
  rw [hmarks₂, hlights]
  refine .light (hstands.kept hgrow₂.objects) ?_
  rw [ha, ← hlights]
  exact Array.getElem?_push_size

lemma fills_surface {b₁ : Builder S} {s : Surface S} {n : SurfaceNode S} {id place : ℕ}
    (hobject : object w header spot.parent (partPath path spot.position header) b = .ok id b₁)
    (h : surface w s id spot (header.materials <|> forced) (partPath path spot.position header) b₁ =
      .ok (place, n) b') :
    b.arena.Grows b'.arena ∧ Fills d b'.arena spot path forced b.arena.marks b'.arena.marks
      ⟨.surface place, id, header.placement, [place], some n.bounds⟩ (.surface header s) := by
  obtain ⟨rfl, hgrow, hmarks, hstands⟩ := object_stands hobject
  obtain ⟨rfl, a, hstocks, hn, ha⟩ := surface_ok h
  have hsurfaces : b₁.arena.surfaces.size = b.arena.marks.surfaces :=
    congrArg Marks.surfaces hmarks
  have hgrow₂ : b₁.arena.Grows b'.arena :=
    hstocks.grows.trans (ha ▸ Arena.grows_surface _ _)
  have hmarks₂ : b'.arena.marks = b.arena.marks.addObject.addSurface := by
    rw [ha, Arena.marks_surface, hstocks.marks, hmarks]
  have hobject := hstands.kept hgrow₂.objects
  have hnode : b'.arena.surfaces[b₁.arena.surfaces.size]? = some n := by
    rw [ha, ← hstocks.surfaces]
    exact Array.getElem?_push_size
  refine ⟨hgrow.trans hgrow₂, rfl, by simp [hmarks₂, hsurfaces], ?_, fun _ hin => ?_, ?_⟩
  · rw [hmarks₂, hsurfaces]
    refine .surface (n := n) hobject (hsurfaces ▸ hnode) ?_
    rw [ha]
    exact hn.kept (.refl _)
  · cases hin
  · simp only [Arena.placedBox?, Arena.elementBox?, hnode, Option.map_some, hn.object,
      hobject.declared, Occupant.placed?]

lemma fills_array {b₁ : Builder S} {p : Part S} {content : Assembly S} {id : ℕ} {r : Nested S}
    (hobject : object w p.header spot.parent (partPath path spot.position p.header) b = .ok id b₁)
    (hkind : p.kind = .array) (hcontent : p.array? d = some content)
    (h : Enters d (some id) (partPath path spot.position p.header) (p.header.materials <|> forced)
      content b₁.arena b'.arena r) :
    b.arena.Grows b'.arena ∧ Fills d b'.arena spot path forced b.arena.marks b'.arena.marks
      ⟨.array r.id, id, p.header.placement, r.surfaces, some r.extent⟩ p := by
  obtain ⟨rfl, hgrow, hmarks, hstands⟩ := object_stands hobject
  obtain ⟨henter, hid, hsurfaces, ⟨n, hn, hnobject, hextent⟩, hrecords⟩ := h
  rw [hmarks] at hid hsurfaces hn hrecords
  have hobject := hstands.kept henter.objects
  refine ⟨hgrow.trans henter, hkind.symm, hsurfaces, ?_, fun inner hinner => ?_, ?_⟩
  · rw [hid]
    exact .array hcontent hrecords.addArray_le hobject
  · obtain rfl : content = inner := Option.some.inj (hcontent.symm.trans hinner)
    exact hrecords
  · simp only [Arena.placedBox?, Arena.elementBox?, Arena.givenVolumes, Array.getElem?_map, hid, hn,
      hnobject, hextent, Option.map_some, Option.bind_eq_bind, Option.bind_some, Option.pure_def,
      hobject.declared, Occupant.placed?]

/-- Copies enter the arrays that they name. -/
def Copies (w : Workshop S) (copy : CopyBuild S) : Prop :=
  ∀ {object : ℕ} {path : String} {forced : Option Override} {name : String} {b b' : Builder S}
    {r : Nested S}, copy object path forced name b = .ok r b' → ∃ content,
      w.document.library.get? name = some content ∧
        Enters w.document (some object) path forced content b.arena b'.arena r

mutual

/-- **Parts**: a part that is entered has become an occupant. -/
theorem part_ok (hcopy : Copies w copy) : ∀ (p : Part S) {spot : Spot} {path : String}
    {forced : Option Override} {b b' : Builder S} {o : Occupant S},
    part w copy spot path forced p b = .ok o b' → b.arena.Grows b'.arena ∧
      Fills w.document b'.arena spot path forced b.arena.marks b'.arena.marks o p
  | .camera header c, spot, path, forced, b, b', o, h => by
    unfold part at h
    obtain ⟨id, b₁, hobject, h⟩ := bind_eq_ok.mp h
    obtain ⟨place, b₂, hcamera, h⟩ := bind_eq_ok.mp h
    obtain ⟨rfl, rfl⟩ := pure_eq_ok.mp h
    exact fills_camera hobject hcamera
  | .light header l, spot, path, forced, b, b', o, h => by
    unfold part at h
    obtain ⟨id, b₁, hobject, h⟩ := bind_eq_ok.mp h
    obtain ⟨place, b₂, hlight, h⟩ := bind_eq_ok.mp h
    obtain ⟨rfl, rfl⟩ := pure_eq_ok.mp h
    exact fills_light hobject hlight
  | .surface header s, spot, path, forced, b, b', o, h => by
    unfold part at h
    obtain ⟨id, b₁, hobject, h⟩ := bind_eq_ok.mp h
    obtain ⟨⟨place, n⟩, b₂, hsurface, h⟩ := bind_eq_ok.mp h
    obtain ⟨rfl, rfl⟩ := pure_eq_ok.mp h
    exact fills_surface hobject hsurface
  | .copy header name, spot, path, forced, b, b', o, h => by
    unfold part at h
    obtain ⟨id, b₁, hobject, h⟩ := bind_eq_ok.mp h
    obtain ⟨r, b₂, hr, h⟩ := bind_eq_ok.mp h
    obtain ⟨rfl, rfl⟩ := pure_eq_ok.mp h
    obtain ⟨content, hget, henters⟩ := hcopy hr
    exact fills_array (p := .copy header name) hobject rfl hget henters
  | .assembly header content relations, spot, path, forced, b, b', o, h => by
    unfold part at h
    obtain ⟨id, b₁, hobject, h⟩ := bind_eq_ok.mp h
    obtain ⟨r, b₂, hr, h⟩ := bind_eq_ok.mp h
    obtain ⟨rfl, rfl⟩ := pure_eq_ok.mp h
    have henters : Enters w.document (some id) (partPath path spot.position header)
        (header.materials <|> forced) ⟨content, relations⟩ b₁.arena b₂.arena r :=
      arrayFilled_ok (parts_ok hcopy content) hr
    exact fills_array (p := .assembly header content relations) hobject rfl rfl henters

/-- Parts that are entered one after the other have become the occupants of an array. -/
theorem parts_ok (hcopy : Copies w copy) : ∀ (ps : List (Part S)) {path : String}
    {forced : Option Override},
    Filling w.document path forced ps fun spot => parts w copy spot path forced ps
  | [], path, forced, spot, b, b', occupants, h => by
    unfold parts at h
    obtain ⟨rfl, rfl⟩ := pure_eq_ok.mp h
    exact ⟨.refl _, fun _ => b.arena.marks, rfl, rfl, rfl, fun q o p ho _ => by cases ho⟩
  | p :: ps, path, forced, spot, b, b', occupants, h => by
    unfold parts at h
    obtain ⟨o, b₁, ho, h⟩ := bind_eq_ok.mp h
    obtain ⟨occupants, b₂, hos, h⟩ := bind_eq_ok.mp h
    obtain ⟨rfl, rfl⟩ := pure_eq_ok.mp h
    obtain ⟨hgrow, hfill⟩ := part_ok hcopy p ho
    obtain ⟨hgrow₂, cut, hfirst, hlast, hlength, heach⟩ := parts_ok hcopy ps hos
    refine ⟨hgrow.trans hgrow₂, fun q => q.casesOn b.arena.marks cut, rfl, hlast,
      congrArg (· + 1) hlength, ?_⟩
    rintro (_ | q) o' p' ho' hp'
    · obtain rfl := Option.some.inj ho'
      obtain rfl := Option.some.inj hp'
      show Fills _ _ _ _ _ _ (cut 0) _ _
      rw [hfirst]
      exact hfill.agrees (hgrow₂.agrees (Marks.le_refl _))
    · rw [show spot.position + (q + 1) = spot.position + 1 + q by omega]
      exact heach q o' p' ho' hp'

end

lemma array_ok (hcopy : Copies w copy) {object : Option ℕ} {content : Assembly S} {r : Nested S}
    (h : array w copy object path forced content.parts content.relations b = .ok r b') :
    Enters w.document object path forced content b.arena b'.arena r :=
  arrayFilled_ok (parts_ok hcopy content.parts) h

end

/-- **Copies**: however deep they stand in one another, copies enter the arrays that they name. -/
theorem copy_ok (w : Workshop S) (bound : ℕ) (active : List String) :
    Copies w (copy w bound active) := by
  induction bound generalizing active with
  | zero =>
    intro object path forced name b b' r h
    rcases hget : w.document.library.get? name with _ | content
    · rw [copy_of_get?_eq_none hget] at h
      exact (throw_eq_ok.mp h).elim
    · rw [copy_zero hget] at h
      exact (throw_eq_ok.mp h).elim
  | succ bound ih =>
    intro object path forced name b b' r h
    rcases hget : w.document.library.get? name with _ | content
    · rw [copy_of_get?_eq_none hget] at h
      exact (throw_eq_ok.mp h).elim
    · by_cases hmem : name ∈ active
      · rw [copy_of_mem hget hmem] at h
        exact (throw_eq_ok.mp h).elim
      · rw [copy_succ hget hmem] at h
        exact ⟨content, rfl, array_ok (ih (name :: active)) h⟩

lemma document_ok {w : Workshop S} {u : Unit} (h : document w b = .ok u b') :
    (∃ r, Enters w.document none "root" none w.document.root b.arena b'.arena r) ∧
      0 < b'.arena.cameras.size := by
  obtain ⟨r, b₁, hroot, h⟩ := bind_eq_ok.mp h
  obtain ⟨a, b₂, h₂, h⟩ := bind_eq_ok.mp h
  obtain ⟨rfl, rfl⟩ := getArena_eq_ok.mp h₂
  by_cases hcameras : b₁.arena.cameras.isEmpty
  · rw [if_pos hcameras] at h
    obtain ⟨_, _, h₃, -⟩ := bind_eq_ok.mp h
    exact (throw_eq_ok.mp h₃).elim
  · rw [if_neg hcameras] at h
    rw [acquireTables_ok h]
    refine ⟨⟨r, array_ok (copy_ok w _ _) hroot⟩, ?_⟩
    rw [Array.isEmpty_iff_size_eq_zero] at hcameras
    omega

end Build

/-- What compilation leaves was entered as the array of the root, into the empty arena. -/
lemma compile_enters {w : Workshop S} {allocator : Allocator} {c : Compiled S}
    (h : (compile w allocator).1 = .ok c) : ∃ r,
      Build.Enters w.document none "root" none w.document.root Arena.empty c.arena r := by
  obtain ⟨b, hb, rfl⟩ := compile_document h
  exact (Build.document_ok hb).1

lemma compile_cameras {w : Workshop S} {allocator : Allocator} {c : Compiled S}
    (h : (compile w allocator).1 = .ok c) : 0 < c.arena.cameras.size := by
  obtain ⟨b, hb, rfl⟩ := compile_document h
  exact (Build.document_ok hb).2

/-- **What compilation leaves.** The entries of a compiled arena record the document, from the first
entry to the last one. -/
theorem compile_records {w : Workshop S} {allocator : Allocator} {c : Compiled S}
    (h : (compile w allocator).1 = .ok c) :
    c.arena.Records w.document .start c.arena.marks none "root" none []
      w.document.root := by
  obtain ⟨r, henters⟩ := compile_enters h
  exact henters.records

/-- In what compilation leaves, materials find their textures. -/
theorem compile_supplied {w : Workshop S} {allocator : Allocator} {c : Compiled S}
    (h : (compile w allocator).1 = .ok c) : c.arena.Supplied := by
  obtain ⟨r, henters⟩ := compile_enters h
  exact henters.grows.supplied fun i m hm => by cases hm

end SolidTrace
