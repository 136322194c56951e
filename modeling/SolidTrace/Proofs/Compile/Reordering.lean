import SolidTrace.Proofs.Arena.WellFormed
import SolidTrace.Proofs.Compile.Expansion
import SolidTrace.Proofs.Tracing.Shuffle

/-!
Documents with their subtractions in other places.

`Document.Rearranged` moves subtractions about in the programs of any arrays. The walks over both
documents are followed side by side: they take the same buffers, enter the same objects, and fail at
the same arrays, so that builders which are shuffled stay shuffled. `Parallel` says so for one
construction, and there is one rule for each way in which constructions are put together.
-/

namespace SolidTrace

open scoped List

variable {S : Type}

/-! ### Moving subtractions -/

/-- Subtractions have been moved to other places in the programs of arrays below a part. -/
inductive Part.Rearranged : Part S → Part S → Prop
  | refl (p : Part S) : Rearranged p p
  | assembly {h : Header S} {content content' : List (Part S)}
      {relations relations' : List Relation}
      (hparts : List.Forall₂ Rearranged content content')
      (hrelations : Program.Rearranged relations relations') :
      Rearranged (.assembly h content relations) (.assembly h content' relations')

/-- Subtractions have been moved to other places in the program of an array and of those below. -/
structure Assembly.Rearranged (a b : Assembly S) : Prop where
  parts : List.Forall₂ Part.Rearranged a.parts b.parts
  relations : Program.Rearranged a.relations b.relations

/-- Subtractions have been moved to other places in the programs of any arrays of the root and of
the library. -/
structure Document.Rearranged (d d' : Document S) : Prop where
  version : d'.version = d.version
  materials : d'.materials = d.materials
  textures : d'.textures = d.textures
  library : List.Forall₂ (fun e e' => e'.1 = e.1 ∧ e.2.Rearranged e'.2) d.library.entries
    d'.library.entries
  root : d.root.Rearranged d'.root

lemma Assembly.Rearranged.refl (a : Assembly S) : a.Rearranged a :=
  ⟨List.forall₂_same.mpr fun p _ => .refl p, .refl _⟩

lemma Document.Rearranged.get? {d d' : Document S} (h : d.Rearranged d') (name : String) :
    Option.Rel Assembly.Rearranged (d.library.get? name) (d'.library.get? name) := by
  unfold Dict.get?
  have hlibrary := h.library
  generalize d.library.entries = l at hlibrary ⊢
  generalize d'.library.entries = l' at hlibrary ⊢
  induction hlibrary with
  | nil => exact .none
  | @cons e e' _ _ he _ ih =>
    obtain ⟨key, a⟩ := e
    obtain ⟨key', b⟩ := e'
    obtain ⟨rfl, hab⟩ : key' = key ∧ a.Rearranged b := he
    rw [Entries.lookup_cons_eq, Entries.lookup_cons_eq]
    split
    · exact .some hab
    · exact ih

lemma Document.Rearranged.size {d d' : Document S} (h : d.Rearranged d') :
    d'.library.size = d.library.size := h.library.length_eq.symm

/-! ### Constructions side by side -/

/-- Builders that have taken the same buffers, for arenas that are shuffled. -/
structure Builder.Shuffled (b b' : Builder S) : Prop where
  arena : b.arena.Shuffled b'.arena
  ledger : b'.ledger = b.ledger
  allocator : b'.allocator = b.allocator

lemma agree_eq {ε α : Type} (x : Except ε α) : Agree Eq x x := by
  cases x with
  | error e => exact .error
  | ok a => exact .ok rfl

/-- Members in another order are had in another order, or not at all. -/
lemma agree_mapM {ε α β : Type} (f : α → Except ε β) {l l' : List α} (h : l ~ l') :
    Agree List.Perm (l.mapM f) (l'.mapM f) := by
  induction h with
  | nil => exact .ok (.refl [])
  | @cons a l l' _ ih =>
    rw [List.mapM_cons, List.mapM_cons]
    generalize l.mapM f = x at ih ⊢
    generalize l'.mapM f = y at ih ⊢
    rcases f a with e | b
    · exact .error
    · cases ih with
      | ok h => exact .ok (h.cons b)
      | error => exact .error
  | swap a a' l =>
    simp only [List.mapM_cons]
    rcases f a with e | b
    · rcases f a' with e' | b'
      · exact .error
      · exact .error
    · rcases f a' with e' | b'
      · exact .error
      · rcases l.mapM f with e | bs
        · exact .error
        · exact .ok (.swap b b' bs)
  | trans _ _ ih ih' => exact ih.trans (fun _ _ _ => .trans) ih'

namespace Build

variable {α β : Type}

def outcome (x : Build S α) (b : Builder S) : Except (CompileError S) (α × Builder S) :=
  match x b with
  | .ok a b => .ok (a, b)
  | .error e _ => .error e

/-- From shuffled builders both constructions come to results so related and to shuffled builders,
or both fail. -/
def Parallel (R : α → β → Prop) (x : Build S α) (y : Build S β) : Prop :=
  ∀ b b', b.Shuffled b' →
    Agree (fun p q => R p.1 q.1 ∧ p.2.Shuffled q.2) (outcome x b) (outcome y b')

/-- Both constructions come to the same. -/
def Same (x y : Build S α) : Prop := Parallel Eq x y

lemma Parallel.pure {R : α → β → Prop} {a : α} {b : β} (h : R a b) :
    Parallel R (Pure.pure a : Build S α) (Pure.pure b) := fun _ _ hb => .ok ⟨h, hb⟩

lemma Same.pure (a : α) : Same (Pure.pure a : Build S α) (Pure.pure a) := Parallel.pure rfl

lemma Same.throw (e e' : CompileError S) :
    Same (MonadExcept.throw e : Build S α) (MonadExcept.throw e') := fun _ _ _ => .error

lemma Parallel.ofExcept {R : α → α → Prop} {x y : Except (CompileError S) α} (h : Agree R x y) :
    Parallel R (MonadExcept.ofExcept x : Build S α) (MonadExcept.ofExcept y) := by
  cases h with
  | ok h => exact .pure h
  | error => exact fun _ _ _ => .error

lemma Same.ofExcept (x : Except (CompileError S) α) :
    Same (MonadExcept.ofExcept x : Build S α) (MonadExcept.ofExcept x) :=
  Parallel.ofExcept (agree_eq x)

lemma outcome_bind (x : Build S α) (f : α → Build S β) (b : Builder S) :
    outcome (x >>= f) b = outcome x b >>= fun r => outcome (f r.1) r.2 := by
  rcases hx : x b with ⟨a, b₁⟩ | ⟨e, b₁⟩
  · simp [outcome, Bind.bind, EStateM.bind, hx, Except.bind]
  · simp [outcome, Bind.bind, EStateM.bind, hx, Except.bind]

/-- **One after the other.** -/
lemma Parallel.bind {γ : Type} {R : α → β → Prop} {x : Build S α} {y : Build S β}
    {f : α → Build S γ} {g : β → Build S γ} (h : Parallel R x y)
    (hf : ∀ a a', R a a' → Same (f a) (g a')) : Same (x >>= f) (y >>= g) := by
  intro b b' hb
  rw [outcome_bind, outcome_bind]
  have hxy := h b b' hb
  generalize outcome x b = r at hxy ⊢
  generalize outcome y b' = r' at hxy ⊢
  cases hxy with
  | ok h => exact hf _ _ h.1 _ _ h.2
  | error => exact .error

lemma Same.bind {x y : Build S α} {f g : α → Build S β} (h : Same x y)
    (hf : ∀ a, Same (f a) (g a)) : Same (x >>= f) (y >>= g) :=
  Parallel.bind h fun a _ ha => ha ▸ hf a

lemma Same.throw_bind (e : CompileError S) (f : α → Build S β) :
    Same (MonadExcept.throw e >>= f) (MonadExcept.throw e >>= f) := fun _ _ _ => .error

lemma Parallel.getArena : Parallel Arena.Shuffled (getArena : Build S (Arena S)) getArena :=
  fun _ _ hb => .ok ⟨hb.arena, hb⟩

lemma Same.modifyArena {f g : Arena S → Arena S}
    (h : ∀ a a', a.Shuffled a' → (f a).Shuffled (g a')) :
    Same (modifyArena f) (modifyArena g) :=
  fun _ _ hb => .ok ⟨rfl, h _ _ hb.arena, hb.ledger, hb.allocator⟩

lemma Same.enter {place : Arena S → ℕ} {add : Arena S → Arena S}
    (hplace : ∀ a a', a.Shuffled a' → place a' = place a)
    (hadd : ∀ a a', a.Shuffled a' → (add a).Shuffled (add a')) :
    Same (enter place add) (enter place add) :=
  fun _ _ hb => .ok ⟨(hplace _ _ hb.arena).symm, hadd _ _ hb.arena, hb.ledger, hb.allocator⟩

/-- **The same buffers are taken**, or refused. -/
lemma Same.acquire (label : String) (layout : Layout) (count : ℕ) :
    Same (acquire (S := S) label layout count) (acquire label layout count) := by
  intro b b' hb
  unfold outcome Build.acquire
  rw [hb.ledger, hb.allocator]
  rcases b.ledger.acquire b.allocator label layout count with ⟨shortage | ledger, allocator⟩
  · exact .error
  · exact .ok ⟨rfl, hb.arena, rfl, rfl⟩

lemma Same.forM {f : α → Build S PUnit} {g : β → Build S PUnit} {l : List α} {l' : List β}
    (h : List.Forall₂ (fun a b => Same (f a) (g b)) l l') : Same (l.forM f) (l'.forM g) := by
  induction h with
  | nil => exact .pure PUnit.unit
  | cons ha _ ih => exact ha.bind fun _ => ih

/-! ### Steps -/

lemma shuffled_push {R : α → α → Prop} {xs ys : Array α}
    (h : List.Forall₂ R xs.toList ys.toList) {x y : α} (hx : R x y) :
    List.Forall₂ R (xs.push x).toList (ys.push y).toList := by
  rw [Array.toList_push, Array.toList_push]
  exact List.rel_append h (.cons hx .nil)

lemma shuffled_modify {R : α → α → Prop} {xs ys : Array α}
    (h : List.Forall₂ R xs.toList ys.toList) {f g : α → α} (hf : ∀ a b, R a b → R (f a) (g b))
    (i : ℕ) : List.Forall₂ R (xs.modify i f).toList (ys.modify i g).toList := by
  rw [Array.toList_modify, Array.toList_modify]
  exact forall₂_modify hf h i

lemma camera_same (c : Camera S) (object : ℕ) : Same (camera c object) (camera c object) := by
  refine Parallel.getArena.bind fun a a' ha => ?_
  rw [ha.cameras]
  split
  · exact .throw_bind _ _
  · exact .enter (fun _ _ h => congrArg Array.size h.cameras) fun _ _ h =>
      { h with cameras := by simp only [h.cameras] }

lemma light_same (l : Light S) (object : ℕ) : Same (light l object) (light l object) := by
  refine Parallel.getArena.bind fun a a' ha => ?_
  rw [ha.lights]
  split
  · exact .throw_bind _ _
  · exact .enter (fun _ _ h => congrArg Array.size h.lights) fun _ _ h =>
      { h with lights := by simp only [h.lights] }

lemma trimSurface_same {trims trims' : List (Trim ℕ ℕ)} (h : trims ~ trims') (s : ℕ) :
    Same (trimSurface (S := S) trims s) (trimSurface trims' s) := by
  unfold trimSurface
  rw [h.length_eq]
  refine .bind (.acquire _ _ _) fun _ => .modifyArena fun a a' ha => ?_
  refine { ha with surfaces := shuffled_modify ha.surfaces (fun n n' hn => ?_) s }
  rw [hn.eq]
  exact ⟨rfl, hn.trims.append h⟩

lemma trimPosition_same (occupants : List (Occupant S)) (path : String) (array : ℕ)
    (occupant : Occupant S) {trims trims' : List Program.LocalTrim} (h : trims ~ trims') :
    Same (trimPosition occupants path array occupant trims)
      (trimPosition occupants path array occupant trims') := by
  unfold trimPosition
  rw [h.isEmpty_eq]
  split
  · exact .pure _
  · refine Parallel.bind (.ofExcept (agree_mapM _ h)) fun resolved resolved' hresolved => ?_
    exact .forM (List.forall₂_same.mpr fun s _ => trimSurface_same hresolved s)

section

variable [Scalar S] {w : Workshop S}

lemma texture_same (name material : String) :
    Same (texture w name material) (texture w name material) := by
  refine Parallel.getArena.bind fun a a' ha => ?_
  rw [ha.textures]
  split
  · exact .pure _
  · split
    · split
      · have henter : ∀ t, Same (enter (·.textures.size) fun a : Arena S =>
            { a with textures := a.textures.push ⟨name, t⟩ }) _ := fun t =>
          .enter (fun _ _ h => congrArg Array.size h.textures) fun _ _ h =>
            { h with textures := by simp only [h.textures] }
        dsimp only
        refine .bind (.pure _) fun t => ?_
        split
        · exact .bind (.acquire _ _ _) fun _ => henter t
        · exact henter t
      · exact .throw_bind _ _
    · exact .throw _ _

lemma material_same (name path : String) : Same (material w name path) (material w name path) := by
  refine Parallel.getArena.bind fun a a' ha => ?_
  rw [ha.materials]
  split
  · exact .pure _
  · split
    · exact .bind (texture_same _ _) fun _ => .enter (fun _ _ h => congrArg Array.size h.materials)
        fun _ _ h => { h with materials := by simp only [h.materials] }
    · exact .throw _ _

lemma face_same (f : Face S) (forced : Option String) (path : String) :
    Same (face w f forced path) (face w f forced path) :=
  .bind (material_same _ _) fun _ => .pure _

lemma object_same (h : Header S) (parent : Option ℕ) (path : String) :
    Same (object w h parent path) (object w h parent path) := by
  have henter : ∀ animator, Same (enter (·.objects.size) fun a : Arena S => { a with
      objects := a.objects.push ⟨parent, h.placement, animator, h.time, path⟩ }) _ := fun _ =>
    .enter (fun _ _ h => congrArg Array.size h.objects) fun _ _ h =>
      { h with objects := by simp only [h.objects] }
  unfold object
  split
  · exact .bind (.pure _) fun _ => henter _
  · split
    · exact .bind (.pure _) fun _ => henter _
    · exact .throw_bind _ _

lemma surface_same (s : Surface S) (object : ℕ) (spot : Spot) (forced : Option Override)
    (path : String) : Same (surface w s object spot forced path)
      (surface w s object spot forced path) := by
  refine .bind (.ofExcept _) fun _ => .bind (face_same _ _ _) fun _ =>
    .bind (face_same _ _ _) fun _ => .bind (.enter (fun _ _ h => h.size_surfaces) fun _ _ h => ?_)
      fun _ => .pure _
  exact { h with surfaces := shuffled_push h.surfaces (.refl _) }

lemma openArray_same (object : Option ℕ) (path : String) (count : ℕ) :
    Same (openArray (S := S) object path count) (openArray object path count) := by
  refine .bind (.enter (fun _ _ h => h.size_arrays) fun _ _ h => ?_) fun _ =>
    .bind (.acquire _ _ _) fun _ => .pure _
  exact { h with arrays := shuffled_push h.arrays (.refl _) }

lemma zip_rel {α β : Type} {R : β → β → Prop} (xs : List α) {l l' : List β}
    (h : List.Forall₂ R l l') :
    List.Forall₂ (fun p q => q.1 = p.1 ∧ R p.2 q.2) (xs.zip l) (xs.zip l') := by
  induction h generalizing xs with
  | nil => simp
  | cons hb h ih =>
    cases xs with
    | nil => exact .nil
    | cons x xs => exact .cons ⟨rfl, hb⟩ (ih xs)

/-- **An array is closed alike**, with its subtractions in other places. -/
lemma closeArray_same (array : ℕ) (path : String) (occupants : List (Occupant S))
    {relations relations' : List Relation} (h : Program.Rearranged relations relations') :
    Same (closeArray array path occupants relations)
      (closeArray array path occupants relations') := by
  have hrun := Program.run_rearranged h (occupants.map Occupant.kind)
  unfold closeArray
  generalize Program.run (occupants.map Occupant.kind) relations = x at hrun ⊢
  generalize Program.run (occupants.map Occupant.kind) relations' = y at hrun ⊢
  cases hrun with
  | error => exact fun _ _ _ => .error
  | @ok o o' ho =>
    refine Parallel.bind (.pure (R := Program.Outcome.Shuffled) ho) fun o o' ho => ?_
    dsimp only
    rw [ho.included]
    refine .bind (.forM ((zip_rel occupants ho.trims).imp fun x y hxy => ?_)) fun _ => ?_
    · obtain ⟨occupant, trims⟩ := x
      obtain ⟨occupant', trims'⟩ := y
      obtain ⟨rfl, htrims⟩ : occupant' = occupant ∧ trims ~ trims' := hxy
      exact trimPosition_same _ _ _ _ htrims
    · refine Parallel.bind (.ofExcept (agree_mapM _ ho.accumulator)) fun found found' hfound => ?_
      refine .bind (.acquire _ _ _) fun _ => .bind (.modifyArena fun a a' ha => ?_) fun _ => .pure _
      refine { ha with arrays := shuffled_modify ha.arrays (fun n n' hn => ?_) array }
      rw [hn.eq, ho.bounded]
      exact ⟨rfl, hfound⟩

lemma arrayFilled_same {fill fill' : Spot → Build S (List (Occupant S))}
    (hfill : ∀ spot, Same (fill spot) (fill' spot)) (object : Option ℕ) (path : String) (count : ℕ)
    {relations relations' : List Relation} (h : Program.Rearranged relations relations') :
    Same (arrayFilled object path count fill relations)
      (arrayFilled object path count fill' relations') :=
  .bind (openArray_same _ _ _) fun _ => .bind (hfill _) fun _ => closeArray_same _ _ _ h

end

variable [Scalar S] {w v : Workshop S}

/-- Copies are entered alike. -/
def CopySame (c c' : CopyBuild S) : Prop :=
  ∀ object path forced name, Same (c object path forced name) (c' object path forced name)

mutual

/-- **Parts** are entered alike, with the subtractions below them in other places. -/
theorem part_same (hw : w.Alike v) {c c' : CopyBuild S} (hc : CopySame c c') (spot : Spot)
    (path : String) (forced : Option Override) :
    ∀ p q : Part S, p.Rearranged q →
      Same (part w c spot path forced p) (part v c' spot path forced q)
  | .camera h camera, q, hq => by
    cases hq with
    | refl =>
      simp only [part, object_alike hw]
      exact .bind (object_same _ _ _) fun _ => .bind (camera_same _ _) fun _ => .pure _
  | .light h light, q, hq => by
    cases hq with
    | refl =>
      simp only [part, object_alike hw]
      exact .bind (object_same _ _ _) fun _ => .bind (light_same _ _) fun _ => .pure _
  | .surface h s, q, hq => by
    cases hq with
    | refl =>
      simp only [part, object_alike hw, surface_alike hw]
      exact .bind (object_same _ _ _) fun _ => .bind (surface_same _ _ _ _ _) fun _ => .pure _
  | .copy h name, q, hq => by
    cases hq with
    | refl =>
      simp only [part, object_alike hw]
      exact .bind (object_same _ _ _) fun _ => .bind (hc _ _ _ _) fun _ => .pure _
  | .assembly h content relations, q, hq => by
    obtain ⟨content', relations', rfl, hcontent, hrelations⟩ : ∃ content' relations',
        q = .assembly h content' relations' ∧ List.Forall₂ Part.Rearranged content content' ∧
          Program.Rearranged relations relations' := by
      cases hq with
      | refl =>
        exact ⟨content, relations, rfl, List.forall₂_same.mpr fun p _ => .refl p, .refl _⟩
      | assembly hcontent hrelations => exact ⟨_, _, rfl, hcontent, hrelations⟩
    simp only [part, object_alike hw, hcontent.length_eq]
    refine .bind (object_same _ _ _) fun _ => .bind ?_ fun _ => .pure _
    exact arrayFilled_same (fun spot => parts_same hw hc spot _ _ content content' hcontent) _ _ _
      hrelations

/-- Parts that stand one after the other are entered alike one after the other. -/
theorem parts_same (hw : w.Alike v) {c c' : CopyBuild S} (hc : CopySame c c') (spot : Spot)
    (path : String) (forced : Option Override) :
    ∀ ps qs : List (Part S), List.Forall₂ Part.Rearranged ps qs →
      Same (parts w c spot path forced ps) (parts v c' spot path forced qs)
  | [], _, .nil => by
    simp only [parts]
    exact .pure _
  | p :: ps, q :: qs, .cons hp hps => by
    simp only [parts]
    exact .bind (part_same hw hc spot path forced p q hp) fun _ =>
      .bind (parts_same hw hc _ path forced ps qs hps) fun _ => .pure _

end

lemma array_same (hw : w.Alike v) {c c' : CopyBuild S} (hc : CopySame c c') (object : Option ℕ)
    (path : String) (forced : Option Override) {a b : Assembly S} (h : a.Rearranged b) :
    Same (array w c object path forced a.parts a.relations)
      (array v c' object path forced b.parts b.relations) := by
  unfold array
  rw [h.parts.length_eq]
  exact arrayFilled_same (fun spot => parts_same hw hc spot _ _ _ _ h.parts) _ _ _ h.relations

/-- **Copies** are entered alike, however deep they stand in one another. -/
lemma copy_same (hw : w.Alike v) (h : w.document.Rearranged v.document) (bound : ℕ)
    (active : List String) : CopySame (copy w bound active) (copy v bound active) := by
  induction bound generalizing active with
  | zero =>
    intro object path forced name
    have hname := h.get? name
    generalize ha : w.document.library.get? name = a at hname
    generalize hb : v.document.library.get? name = b at hname
    cases hname with
    | none =>
      rw [copy_of_get?_eq_none ha, copy_of_get?_eq_none hb]
      exact .throw _ _
    | some hab =>
      rw [copy_zero ha, copy_zero hb]
      exact .throw _ _
  | succ bound ih =>
    intro object path forced name
    have hname := h.get? name
    generalize ha : w.document.library.get? name = a at hname
    generalize hb : v.document.library.get? name = b at hname
    cases hname with
    | none =>
      rw [copy_of_get?_eq_none ha, copy_of_get?_eq_none hb]
      exact .throw _ _
    | some hab =>
      by_cases hm : name ∈ active
      · rw [copy_of_mem ha hm, copy_of_mem hb hm]
        exact .throw _ _
      · rw [copy_succ ha hm, copy_succ hb hm]
        exact array_same hw (ih _) _ _ _ hab

/-! ### Documents -/

omit [Scalar S] in
lemma acquireTables_same : Same (acquireTables (S := S)) acquireTables := by
  refine Parallel.getArena.bind fun a a' ha => ?_
  rw [ha.objects, ha.size_surfaces, ha.size_arrays, ha.cameras, ha.lights, ha.materials]
  exact .bind (.acquire _ _ _) fun _ => .bind (.acquire _ _ _) fun _ =>
    .bind (.acquire _ _ _) fun _ => .bind (.acquire _ _ _) fun _ =>
    .bind (.acquire _ _ _) fun _ => .acquire _ _ _

lemma document_same (hw : w.Alike v) (h : w.document.Rearranged v.document) :
    Same (document w) (document v) := by
  unfold document
  rw [h.size]
  refine .bind (array_same hw (copy_same hw h _ _) _ _ _ h.root) fun _ => ?_
  refine Parallel.getArena.bind fun a a' ha => ?_
  rw [ha.cameras]
  split
  · exact .throw_bind _ _
  · exact acquireTables_same

end Build

lemma Document.Rearranged.alike {d d' : Document S} (h : d.Rearranged d') (registry : Registry S)
    (images : ImageSource) : Workshop.Alike ⟨d, registry, images⟩ ⟨d', registry, images⟩ :=
  ⟨rfl, rfl, h.materials, h.textures⟩

/-- Compiled documents whose arenas agree but for the order inside of trims and of collected
surfaces, and that are traced alike. -/
structure Compiled.Alike [Scalar S] (c c' : Compiled S) : Prop where
  arena : c.arena.Shuffled c'.arena
  ledger : c'.ledger = c.ledger
  /-- Whatever the snapshot is, two traces that come to a hit come to the same one. -/
  concur : ∀ snapshot options ray tMax, Concur
    (Tracer.nearest ⟨c.arena, snapshot, options⟩ ray tMax)
    (Tracer.nearest ⟨c'.arena, snapshot, options⟩ ray tMax)
  /-- With a snapshot of their surfaces and arrays, both come to it. -/
  nearest : ∀ (snapshot : Snapshot S) options ray tMax, snapshot.Fits c.arena → ∃ best,
    Tracer.nearest ⟨c.arena, snapshot, options⟩ ray tMax = .ok best ∧
      Tracer.nearest ⟨c'.arena, snapshot, options⟩ ray tMax = .ok best

/-- **The order of subtractions is of no account.** Move subtractions from named targets to other
places in the programs of any arrays of a document. Whatever the allocator, it compiles if it did
before, and only then. What is compiled differs in the order inside of trims and of collected
surfaces alone, and no ray tells the difference, whatever the snapshot and the options. -/
theorem compile_rearranged [Scalar S] {d d' : Document S} (h : d.Rearranged d')
    (registry : Registry S) (images : ImageSource) (allocator : Allocator) :
    ((∃ c, (compile ⟨d, registry, images⟩ allocator).1 = .ok c) ↔
        ∃ c', (compile ⟨d', registry, images⟩ allocator).1 = .ok c') ∧
      ∀ c c', (compile ⟨d, registry, images⟩ allocator).1 = .ok c →
        (compile ⟨d', registry, images⟩ allocator).1 = .ok c' → c.Alike c' := by
  have hsame := Build.document_same (h.alike registry images) h
    ⟨Arena.empty, .empty, allocator⟩ ⟨Arena.empty, .empty, allocator⟩ ⟨.refl _, rfl, rfl⟩
  have hagree : Agree (fun c c' => c.arena.Shuffled c'.arena ∧ c'.ledger = c.ledger)
      (compile ⟨d, registry, images⟩ allocator).1 (compile ⟨d', registry, images⟩ allocator).1 := by
    unfold Build.outcome at hsame
    unfold compile
    generalize Build.document ⟨d, registry, images⟩ ⟨Arena.empty, .empty, allocator⟩ = x at hsame ⊢
    generalize Build.document ⟨d', registry, images⟩ ⟨Arena.empty, .empty, allocator⟩ = y at hsame ⊢
    rcases x with ⟨u, b⟩ | ⟨e, b⟩
    · rcases y with ⟨u', b'⟩ | ⟨e', b'⟩
      · cases hsame with
        | ok h => exact .ok ⟨h.2.arena, h.2.ledger⟩
      · cases hsame
    · rcases y with ⟨u', b'⟩ | ⟨e', b'⟩
      · cases hsame
      · exact .error
  refine ⟨?_, fun c c' hc hc' => ?_⟩
  · generalize (compile ⟨d, registry, images⟩ allocator).1 = x at hagree ⊢
    generalize (compile ⟨d', registry, images⟩ allocator).1 = y at hagree ⊢
    cases hagree with
    | ok => exact ⟨fun _ => ⟨_, rfl⟩, fun _ => ⟨_, rfl⟩⟩
    | error => exact ⟨fun ⟨_, hc⟩ => (nomatch hc), fun ⟨_, hc⟩ => (nomatch hc)⟩
  · rw [hc, hc'] at hagree
    obtain ⟨harena, hledger⟩ : c.arena.Shuffled c'.arena ∧ c'.ledger = c.ledger := by
      cases hagree with
      | ok h => exact h
    refine ⟨harena, hledger, fun snapshot options ray tMax => ?_,
      fun snapshot options ray tMax hfits => ?_⟩
    · exact Tracer.concur_nearest (t := ⟨c.arena, snapshot, options⟩) harena ray tMax
    · exact Tracer.nearest_shuffled (t := ⟨c.arena, snapshot, options⟩) harena
        (compile_records hc).sound (compile_records hc').sound hfits ray tMax

namespace Trio

def steps : List Relation :=
  [⟨0, .minusAccum, 1⟩, ⟨-1, .boundArray, -1⟩, ⟨0, .minusAccum, 2⟩, ⟨0, .minusOuter, 1⟩]

/-- The subtractions come the other way round. -/
def moved : List Relation :=
  [⟨0, .minusOuter, 1⟩, ⟨0, .minusAccum, 2⟩, ⟨0, .minusAccum, 1⟩, ⟨-1, .boundArray, -1⟩]

/-- Three spheres with a program. -/
def document (l : List Relation) : Document Float :=
  Pair.document (.assembly Pair.header [Pair.sphere, Pair.sphere, Pair.sphere] l)

def snapshot : Snapshot Float where
  poses := Array.replicate 3 (some Pair.pose)
  arrayBounds := Array.replicate 2 Surface.noClip
  cameras := #[]
  lights := #[]

lemma rearranged : (document steps).Rearranged (document moved) where
  version := rfl
  materials := rfl
  textures := rfl
  library := List.forall₂_same.mpr fun e _ => ⟨rfl, .refl e.2⟩
  root := by
    refine ⟨.cons (.refl _) (.cons (.assembly ?_ ⟨?_, ?_⟩) .nil), .refl _⟩
    · exact List.forall₂_same.mpr fun p _ => .refl p
    · decide
    · decide

end Trio

/-- Three spheres with their subtractions in two orders: trims and collected surfaces come in two
orders, and a ray meets the same sphere at the same place. -/
theorem compile_rearranged_trio : (Trio.document Trio.steps).Rearranged (Trio.document Trio.moved) ∧
    ∃ c c' hit, (compile (Pair.workshop (Trio.document Trio.steps)) Pair.allocator).1 = .ok c ∧
      (compile (Pair.workshop (Trio.document Trio.moved)) Pair.allocator).1 = .ok c' ∧
      c.arena.surfaces[0]?.map (·.trims) = some [.accum 1, .outer 1] ∧
      c'.arena.surfaces[0]?.map (·.trims) = some [.outer 1, .accum 1] ∧
      c.arena.arrays[1]?.map (·.accumulator) = some [1, 2] ∧
      c'.arena.arrays[1]?.map (·.accumulator) = some [2, 1] ∧
      Tracer.nearest ⟨c.arena, Trio.snapshot, .none⟩ Pair.ray 100 = .ok (some hit) ∧
      Tracer.nearest ⟨c'.arena, Trio.snapshot, .none⟩ Pair.ray 100 = .ok (some hit) := by
  have hfirst : (compile (Pair.workshop (Trio.document Trio.steps)) Pair.allocator).1.toOption.any
      (fun c => decide (c.arena.surfaces.size = 3) && decide (c.arena.arrays.size = 2) &&
        decide (c.arena.surfaces[0]?.map (·.trims) = some [.accum 1, .outer 1]) &&
        decide (c.arena.arrays[1]?.map (·.accumulator) = some [1, 2]) &&
        (Tracer.nearest ⟨c.arena, Trio.snapshot, .none⟩ Pair.ray 100).toOption.any Option.isSome) =
      true := by
    decide +kernel
  have hsecond : (compile (Pair.workshop (Trio.document Trio.moved)) Pair.allocator).1.toOption.any
      (fun c => decide (c.arena.surfaces[0]?.map (·.trims) = some [.outer 1, .accum 1]) &&
        decide (c.arena.arrays[1]?.map (·.accumulator) = some [2, 1])) = true := by
    decide +kernel
  have hcompiled := compile_rearranged Trio.rearranged Registry.empty (fun _ => .error "")
    Pair.allocator
  unfold Pair.workshop at hfirst hsecond ⊢
  obtain ⟨hiff, halike⟩ := hcompiled
  rcases hc : (compile ⟨Trio.document Trio.steps, Registry.empty, fun _ => .error ""⟩
    Pair.allocator).1 with e | c
  · rw [hc] at hfirst
    cases hfirst
  obtain ⟨c', hc'⟩ := hiff.mp ⟨c, hc⟩
  rw [hc] at hfirst
  rw [hc'] at hsecond
  simp only [Except.toOption, Option.any_some, Bool.and_eq_true, decide_eq_true_eq]
    at hfirst hsecond
  obtain ⟨⟨⟨⟨hsurfaces, harrays⟩, htrims⟩, hcollected⟩, hfound⟩ := hfirst
  obtain ⟨best, hbest, hbest'⟩ := (halike c c' hc hc').nearest Trio.snapshot .none Pair.ray 100
    ⟨(Array.size_replicate ..).trans hsurfaces.symm, (Array.size_replicate ..).trans harrays.symm⟩
  rw [hbest] at hfound
  obtain ⟨hit, rfl⟩ := Option.isSome_iff_exists.mp hfound
  exact ⟨Trio.rearranged, c, c', hit, rfl, hc', htrims, hsecond.1, hcollected, hsecond.2, hbest,
    hbest'⟩

end SolidTrace
