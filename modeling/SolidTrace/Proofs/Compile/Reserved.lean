import Mathlib.Algebra.BigOperators.Group.Multiset.Basic
import Mathlib.Tactic.Abel
import SolidTrace.Proofs.Compile.Expansion
import SolidTrace.Proofs.Compile.Traversal
import SolidTrace.Proofs.Compile.Walk
import SolidTrace.Proofs.Memory.Balance

/-!
What is reserved for a compiled arena.

Memory is taken along the walk: for elements where an array is opened, for texels where a texture is
used first, for trims surface by surface where an array is closed, and for the tables at the end.
`Reserve` is what has been taken and what an arena needs, in the same terms. A surface gets its
trims from all the arrays above it, a piece from each, so of trims there are just the bytes; every
other buffer counts by itself. Each construction takes what it adds (`Build.Pays`). Only an array
that is open has its elements paid for and not entered, which is made up for when it is closed.
-/

namespace SolidTrace

section

variable {α M : Type} [AddCommMonoid M] (f : α → α) (g : α → M)

lemma sum_map_modify {l : List α} {i : ℕ} {x : α} (h : l[i]? = some x) :
    ((l.modify i f).map g).sum + g x = (l.map g).sum + g (f x) := by
  induction l generalizing i with
  | nil => cases h
  | cons y l ih =>
    cases i with
    | zero =>
      obtain rfl := Option.some.inj h
      rw [List.modify_zero_cons, List.map_cons, List.map_cons, List.sum_cons, List.sum_cons]
      abel
    | succ i =>
      rw [List.modify_succ_cons, List.map_cons, List.map_cons, List.sum_cons, List.sum_cons,
        add_assoc, ih h, add_assoc]

lemma sum_map_push (xs : Array α) (x : α) :
    ((xs.push x).toList.map g).sum = (xs.toList.map g).sum + g x := by
  rw [Array.toList_push, List.map_append, List.sum_append, List.map_singleton, List.sum_singleton]

end

/-! ### Reserves -/

/-- Buffers by what they are for and their bytes, and the bytes of all trims. -/
abbrev Reserve : Type := Multiset (String × ℕ) × ℕ

namespace Reserve

def block (label : String) (size : ℕ) : Reserve :=
  if label = "trim list" then (0, size) else ({(label, size)}, 0)

def values (label : String) (layout : Layout) (count : ℕ) : Reserve :=
  block label (count * layout.size)

lemma block_trims (size : ℕ) : block "trim list" size = (0, size) := if_pos rfl

lemma block_of_ne {label : String} (h : label ≠ "trim list") (size : ℕ) :
    block label size = ({(label, size)}, 0) := if_neg h

def bytes : Reserve →+ ℕ where
  toFun r := (r.1.map Prod.snd).sum + r.2
  map_zero' := rfl
  map_add' r s := by
    simp only [Prod.fst_add, Prod.snd_add, Multiset.map_add, Multiset.sum_add]
    omega

lemma bytes_apply (r : Reserve) : bytes r = (r.1.map Prod.snd).sum + r.2 := rfl

@[simp]
lemma bytes_block (label : String) (size : ℕ) : bytes (block label size) = size := by
  by_cases h : label = "trim list"
  · rw [h, block_trims, bytes_apply, Multiset.map_zero, Multiset.sum_zero, zero_add]
  · rw [block_of_ne h, bytes_apply, Multiset.map_singleton, Multiset.sum_singleton, add_zero]

@[simp]
lemma bytes_values (label : String) (layout : Layout) (count : ℕ) :
    bytes (values label layout count) = count * layout.size := bytes_block _ _

end Reserve

namespace Ledger

def reserve (l : Ledger) : Reserve := (l.entries.map fun e => .block e.label e.block.size).sum

lemma reserve_cons (e : LedgerEntry) (l : List LedgerEntry) :
    reserve ⟨e :: l⟩ = .block e.label e.block.size + reserve ⟨l⟩ := List.sum_cons

lemma bytes_reserve (l : Ledger) : l.reserve.bytes = l.bytes := by
  obtain ⟨entries⟩ := l
  induction entries with
  | nil => rfl
  | cons e entries ih => rw [reserve_cons, map_add, ih, Reserve.bytes_block, bytes_cons]

lemma reserve_eq (l : Ledger) : l.reserve =
    (.ofList ((l.entries.filter fun e => e.label ≠ "trim list").map fun e =>
        (e.label, e.block.size)),
      ((l.entries.filter fun e => e.label = "trim list").map fun e => e.block.size).sum) := by
  obtain ⟨entries⟩ := l
  induction entries with
  | nil => rfl
  | cons e entries ih =>
    rw [reserve_cons, ih]
    by_cases h : e.label = "trim list"
    · rw [List.filter_cons_of_neg (by simpa using h), List.filter_cons_of_pos (by simpa using h), h,
        Reserve.block_trims, Prod.mk_add_mk, zero_add, List.map_cons, List.sum_cons]
    · rw [List.filter_cons_of_pos (by simpa using h), List.filter_cons_of_neg (by simpa using h),
        Reserve.block_of_ne h, Prod.mk_add_mk, zero_add, List.map_cons, ← Multiset.cons_coe,
        Multiset.singleton_add]

end Ledger

variable {S : Type}

/-! ### What an arena needs -/

def ArrayNode.reserve (n : ArrayNode S) : Reserve :=
  .values "array elements" Layout.element n.elements.length +
    .values "array surfaces" Layout.surfaceId n.surfaces.length

def SurfaceNode.reserve (n : SurfaceNode S) : Reserve :=
  .values "trim list" Layout.trim n.trims.length

def TextureNode.reserve (t : TextureNode S) : Reserve :=
  match t.texture.texelCount? with
  | none => 0
  | some count => .values "texture texels" Layout.texel count

lemma SurfaceNode.reserve_eq_zero {n : SurfaceNode S} (h : n.trims = []) : n.reserve = 0 := by
  rw [reserve, h, Reserve.values, Reserve.block_trims]
  rfl

/-- Trims behind those of a surface are paid for by themselves. -/
lemma SurfaceNode.reserve_addTrims (n : SurfaceNode S) (trims : List (Trim ℕ ℕ)) :
    SurfaceNode.reserve { n with trims := n.trims ++ trims } =
      n.reserve + .values "trim list" Layout.trim trims.length := by
  simp only [reserve, Reserve.values, Reserve.block_trims, List.length_append, Nat.add_mul,
    Prod.mk_add_mk, add_zero]

namespace Arena

/-- What the arena needs apart from its tables. -/
def reserve (a : Arena S) : Reserve :=
  (a.arrays.toList.map ArrayNode.reserve).sum + (a.surfaces.toList.map SurfaceNode.reserve).sum +
    (a.textures.toList.map TextureNode.reserve).sum

def tables (a : Arena S) : List (String × ℕ) :=
  [("objects", a.objects.size * Layout.object.size),
    ("surfaces", a.surfaces.size * Layout.surface.size),
    ("arrays", a.arrays.size * Layout.array.size),
    ("cameras", a.cameras.size * Layout.camera.size),
    ("lights", a.lights.size * Layout.light.size),
    ("materials", a.materials.size * Layout.material.size)]

/-- The buffers of the arena, trims apart. -/
def buffers (a : Arena S) : List (String × ℕ) :=
  a.tables ++
    (a.arrays.toList.flatMap fun n =>
      [("array elements", n.elements.length * Layout.element.size),
        ("array surfaces", n.surfaces.length * Layout.surfaceId.size)]) ++
    (a.textures.toList.filterMap fun t => t.texture.texelCount?.map fun count =>
      ("texture texels", count * Layout.texel.size))

/-- The ledger has the buffers of the arena and nothing else. -/
structure Reserved (a : Arena S) (l : Ledger) : Prop where
  bytes : l.bytes =
    a.objects.size * Layout.object.size + a.surfaces.size * Layout.surface.size +
      a.arrays.size * Layout.array.size + a.cameras.size * Layout.camera.size +
      a.lights.size * Layout.light.size + a.materials.size * Layout.material.size +
      (a.arrays.toList.map fun n => n.elements.length * Layout.element.size +
        n.surfaces.length * Layout.surfaceId.size).sum +
      (a.surfaces.toList.map fun n => n.trims.length * Layout.trim.size).sum +
      (a.textures.toList.map fun t => t.texture.texelCount?.getD 0 * Layout.texel.size).sum
  /-- Every buffer is there once. -/
  buffers : ((l.entries.filter fun e => e.label ≠ "trim list").map fun e =>
    (e.label, e.block.size)).Perm a.buffers
  /-- The pieces of the trims come to all of them. -/
  trims : ((l.entries.filter fun e => e.label = "trim list").map fun e => e.block.size).sum =
    (a.surfaces.toList.map fun n => n.trims.length * Layout.trim.size).sum

variable (a : Arena S)

lemma reserve_pushArray (n : ArrayNode S) :
    reserve { a with arrays := a.arrays.push n } = a.reserve + n.reserve := by
  simp only [reserve, sum_map_push]
  abel

lemma reserve_pushSurface (n : SurfaceNode S) :
    reserve { a with surfaces := a.surfaces.push n } = a.reserve + n.reserve := by
  simp only [reserve, sum_map_push]
  abel

lemma reserve_pushTexture (t : TextureNode S) :
    reserve { a with textures := a.textures.push t } = a.reserve + t.reserve := by
  simp only [reserve, sum_map_push]
  abel

variable {a}

lemma reserve_modifyArray {i : ℕ} {n : ArrayNode S} (h : a.arrays[i]? = some n)
    (f : ArrayNode S → ArrayNode S) :
    reserve { a with arrays := a.arrays.modify i f } + n.reserve = a.reserve + (f n).reserve := by
  have hsum := sum_map_modify f ArrayNode.reserve ((Array.getElem?_toList ..).trans h)
  simp only [reserve, Array.toList_modify]
  rw [add_right_comm _ _ n.reserve, add_right_comm _ _ n.reserve, hsum]
  abel

lemma reserve_modifySurface {s : ℕ} {n : SurfaceNode S} (h : a.surfaces[s]? = some n)
    (f : SurfaceNode S → SurfaceNode S) :
    reserve { a with surfaces := a.surfaces.modify s f } + n.reserve =
      a.reserve + (f n).reserve := by
  have hsum := sum_map_modify f SurfaceNode.reserve ((Array.getElem?_toList ..).trans h)
  simp only [reserve, Array.toList_modify]
  rw [add_right_comm _ _ n.reserve, add_assoc _ _ n.reserve, hsum]
  abel

end Arena

namespace Build

/-! ### Steps -/

/-- What has been taken has been added. -/
def Pays (b b' : Builder S) : Prop :=
  ∃ d, b'.ledger.reserve = b.ledger.reserve + d ∧ b'.arena.reserve = b.arena.reserve + d

lemma composes_pays : Composes (Pays (S := S)) where
  refl b := ⟨0, (add_zero _).symm, (add_zero _).symm⟩
  trans := by
    rintro b b₁ b₂ ⟨d, hl, ha⟩ ⟨d', hl', ha'⟩
    exact ⟨d + d', by rw [hl', hl, add_assoc], by rw [ha', ha, add_assoc]⟩

variable {b b' : Builder S}

lemma acquire_takes {label : String} {layout : Layout} {count : ℕ} {u : Unit}
    (h : acquire label layout count b = .ok u b') :
    b'.ledger.reserve = b.ledger.reserve + .values label layout count := by
  unfold acquire at h
  split at h
  · next ledger allocator ha =>
    obtain ⟨block, hsize, rfl⟩ := Ledger.acquire_ok ha
    obtain ⟨-, rfl⟩ := EStateM.Result.ok.inj h
    rw [Ledger.reserve_cons, hsize, add_comm]
    rfl
  · cases h

lemma enter_pays {place : Arena S → ℕ} {add : Arena S → Arena S}
    (hadd : ∀ a, (add a).reserve = a.reserve) : Leads Pays (enter place add) := by
  intro b id b' h
  obtain ⟨-, rfl⟩ := enter_eq_ok.mp h
  exact ⟨0, (add_zero _).symm, (hadd b.arena).trans (add_zero _).symm⟩

/-- The construction pays for what it adds to the first `bound` surfaces, and leaves the arrays
alone. -/
def TrimsPaid (bound : ℕ) (b b' : Builder S) : Prop :=
  b.arena.surfaces.size = bound →
    Pays b b' ∧ b'.arena.arrays = b.arena.arrays ∧ b'.arena.surfaces.size = bound

lemma composes_trimsPaid (bound : ℕ) : Composes (TrimsPaid (S := S) bound) where
  refl b hb := ⟨composes_pays.refl b, rfl, hb⟩
  trans := by
    intro b b₁ b₂ h h' hb
    obtain ⟨hpays, harrays, hb₁⟩ := h hb
    obtain ⟨hpays', harrays', hb₂⟩ := h' hb₁
    exact ⟨composes_pays.trans hpays hpays', harrays'.trans harrays, hb₂⟩

variable {bound : ℕ}

lemma trimSurface_paid {trims : List (Trim ℕ ℕ)} {s : ℕ} (hs : s < bound) :
    Leads (TrimsPaid (S := S) bound) (trimSurface trims s) := by
  intro b u b' h hb
  obtain ⟨_, b₁, h₁, h⟩ := bind_eq_ok.mp h
  obtain rfl := modifyArena_eq_ok.mp h
  have harena : b₁.arena = b.arena := acquire_ok h₁
  have hledger := acquire_takes h₁
  have hn : b.arena.surfaces[s]? = some b.arena.surfaces[s] := Array.getElem?_eq_getElem (hb ▸ hs)
  refine ⟨⟨_, hledger, ?_⟩, by rw [harena], by rw [harena, Array.size_modify, hb]⟩
  have hmodify := Arena.reserve_modifySurface hn fun n => { n with trims := n.trims ++ trims }
  rw [SurfaceNode.reserve_addTrims, add_comm (SurfaceNode.reserve _), ← add_assoc] at hmodify
  rw [harena]
  exact add_right_cancel hmodify

lemma trimPosition_paid {occupants : List (Occupant S)} {path : String} {array : ℕ}
    {o : Occupant S} {trims : List Program.LocalTrim} (hs : ∀ s ∈ o.surfaces, s < bound) :
    Leads (TrimsPaid bound) (trimPosition occupants path array o trims) := by
  have hR : Composes (TrimsPaid (S := S) bound) := composes_trimsPaid bound
  unfold trimPosition
  split
  · exact hR.pure _
  · exact hR.bind (hR.ofExcept _) fun own => hR.forM_mem fun s hmem => trimSurface_paid (hs s hmem)

variable [Scalar S]

lemma openArray_takes {object : Option ℕ} {path : String} {count id : ℕ}
    (h : openArray object path count b = .ok id b') :
    b'.ledger.reserve = b.ledger.reserve + .values "array elements" Layout.element count := by
  obtain ⟨id', b₁, h₁, h⟩ := bind_eq_ok.mp h
  obtain ⟨rfl, rfl⟩ := enter_eq_ok.mp h₁
  obtain ⟨u, b₂, h₂, h⟩ := bind_eq_ok.mp h
  obtain ⟨rfl, rfl⟩ := pure_eq_ok.mp h
  have htaken := acquire_takes h₂
  exact htaken

/-- **Closing an array** enters the elements that are paid for, and pays for the rest. -/
lemma closeArray_takes {array : ℕ} {path : String} {occupants : List (Occupant S)}
    {relations : List Relation} {r : Nested S} {n : ArrayNode S}
    (hn : b.arena.arrays[array]? = some n)
    (hs : ∀ o ∈ occupants, ∀ s ∈ o.surfaces, s < b.arena.surfaces.size)
    (h : closeArray array path occupants relations b = .ok r b') :
    ∃ d, b'.ledger.reserve = b.ledger.reserve + d ∧
      b'.arena.reserve + n.reserve =
        b.arena.reserve + d + .values "array elements" Layout.element occupants.length := by
  unfold closeArray at h
  rcases hrun : Program.run (occupants.map Occupant.kind) relations with ⟨index, cause⟩ | outcome
  · simp only [hrun] at h
    obtain ⟨_, _, h₁, -⟩ := bind_eq_ok.mp h
    exact (throw_eq_ok.mp h₁).elim
  simp only [hrun] at h
  obtain ⟨outcome', b₁, h₁, h⟩ := bind_eq_ok.mp h
  obtain ⟨rfl, rfl⟩ := pure_eq_ok.mp h₁
  obtain ⟨u, b₂, h₂, h⟩ := bind_eq_ok.mp h
  obtain ⟨accumulator, b₃, h₃, h⟩ := bind_eq_ok.mp h
  obtain ⟨-, rfl⟩ := ofExcept_eq_ok.mp h₃
  obtain ⟨_, b₄, h₄, h⟩ := bind_eq_ok.mp h
  obtain ⟨_, b₅, h₅, h⟩ := bind_eq_ok.mp h
  obtain ⟨rfl, rfl⟩ := pure_eq_ok.mp h
  obtain rfl := modifyArena_eq_ok.mp h₅
  have htrims : Leads (TrimsPaid b.arena.surfaces.size) ((occupants.zip outcome.trims).forM
      fun x => trimPosition occupants path array x.1 x.2) :=
    (composes_trimsPaid _).forM_mem fun x hx =>
      trimPosition_paid (hs x.1 (List.of_mem_zip hx).1)
  obtain ⟨⟨d, hledger, harena⟩, harrays, -⟩ := htrims b u b₂ h₂ rfl
  have hmodify := Arena.reserve_modifyArray (a := b₄.arena) (i := array) (n := n)
    (by rw [acquire_ok h₄, harrays, hn]) (·.complete occupants outcome accumulator)
  let surfaces := occupants.flatMap Occupant.surfaces
  refine ⟨d + .values "array surfaces" Layout.surfaceId surfaces.length, ?_, hmodify.trans ?_⟩
  · rw [acquire_takes h₄, hledger, add_assoc]
  · rw [acquire_ok h₄, harena, ArrayNode.reserve, ArrayNode.complete_elements,
      ArrayNode.complete_surfaces, List.length_map]
    abel

/-- **Arrays** pay for themselves, as far as what fills them does. -/
lemma arrayFilled_pays {d : Document S} {object : Option ℕ} {path : String}
    {forced : Option Override} {ps : List (Part S)} {fill : Spot → Build S (List (Occupant S))}
    {relations : List Relation} (hfill : Filling d path forced ps fill)
    (hpays : ∀ spot, Leads Pays (fill spot)) :
    Leads Pays (arrayFilled object path ps.length fill relations) := by
  intro b r b' h
  obtain ⟨id, b₁, hopen, h⟩ := bind_eq_ok.mp h
  obtain ⟨occupants, b₂, hf, h⟩ := bind_eq_ok.mp h
  obtain ⟨rfl, n, ha₁, -, -⟩ := openArray_ok hopen
  obtain ⟨hgrow, cut, -, hlast, hall⟩ := hfill hf
  obtain ⟨d₁, hledger, harena⟩ := hpays _ _ _ _ hf
  have hnode : b₂.arena.arrays[b.arena.arrays.size]? = some n := by
    refine hgrow.arrays _ _ ?_
    rw [ha₁]
    exact Array.getElem?_push_size
  have hsurfaces : ∀ o ∈ occupants, ∀ s ∈ o.surfaces, s < b₂.arena.surfaces.size := by
    intro o ho s hs
    obtain ⟨q, hq⟩ := List.getElem?_of_mem ho
    have hlt : q < ps.length := hall.length ▸ (List.getElem?_eq_some_iff.mp hq).1
    have hcut := (hall.cut_le (show q + 1 ≤ ps.length from hlt) (Nat.le_refl _)).surfaces
    rw [hlast] at hcut
    exact Nat.lt_of_lt_of_le ((hall.mem_surfaces hq).mp hs).2 hcut
  obtain ⟨d₂, hledger₂, harena₂⟩ := closeArray_takes hnode hsurfaces h
  rw [hall.length, harena, ha₁, Arena.reserve_pushArray] at harena₂
  refine ⟨.values "array elements" Layout.element ps.length + d₁ + d₂, ?_, ?_⟩
  · rw [hledger₂, hledger, openArray_takes hopen, add_assoc, add_assoc, add_assoc]
  · refine add_right_cancel (harena₂.trans ?_)
    abel

variable {w : Workshop S}

lemma texture_pays (name material : String) : Leads Pays (texture w name material) := by
  intro b id b' h
  rcases texture_cases h with ⟨rfl, -⟩ | ⟨-, source, t, b₁, -, -, hmemory, rfl, rfl⟩
  · exact composes_pays.refl _
  · refine ⟨TextureNode.reserve ⟨name, t⟩, ?_, Arena.reserve_pushTexture ..⟩
    rcases hmemory with ⟨hcount, rfl⟩ | ⟨count, hcount, hacquire⟩
    · rw [TextureNode.reserve, hcount, add_zero]
    · rw [TextureNode.reserve, hcount]
      have htaken := acquire_takes hacquire
      exact htaken

lemma material_pays (name path : String) : Leads Pays (material w name path) := by
  intro b id b' h
  rcases material_cases h with ⟨rfl, -⟩ | ⟨-, m, place, b₁, -, htexture, rfl, rfl⟩
  · exact composes_pays.refl _
  · have hpays := texture_pays _ _ _ _ _ htexture
    exact hpays

lemma face_pays (f : Face S) (forced : Option String) (path : String) :
    Leads Pays (face w f forced path) :=
  composes_pays.bind (material_pays _ _) fun _ => composes_pays.pure _

lemma surface_pays (s : Surface S) (object : ℕ) (spot : Spot) (forced : Option Override)
    (path : String) : Leads Pays (surface w s object spot forced path) := by
  rintro b ⟨id, n⟩ b' h
  obtain ⟨b₁, b₂, houter, hinner, -, hn, -, rfl⟩ := surface_cases h
  refine composes_pays.trans (composes_pays.trans (face_pays _ _ _ _ _ _ houter)
    (face_pays _ _ _ _ _ _ hinner)) ⟨0, (add_zero _).symm, ?_⟩
  rw [Arena.reserve_pushSurface, SurfaceNode.reserve_eq_zero (congrArg SurfaceNode.trims hn)]

lemma object_pays (header : Header S) (parent : Option ℕ) (path : String) :
    Leads Pays (object w header parent path) := by
  unfold object
  split
  · exact composes_pays.bind (composes_pays.pure _) fun _ => enter_pays fun _ => rfl
  · split
    · exact composes_pays.bind (composes_pays.pure _) fun _ => enter_pays fun _ => rfl
    · exact .throw_bind _ _

omit [Scalar S] in
lemma camera_pays (c : Camera S) (object : ℕ) : Leads Pays (camera c object) := by
  refine composes_pays.bind composes_pays.getArena fun a => ?_
  split
  · exact .throw_bind _ _
  · exact enter_pays fun _ => rfl

omit [Scalar S] in
lemma light_pays (l : Light S) (object : ℕ) : Leads Pays (light l object) := by
  refine composes_pays.bind composes_pays.getArena fun a => ?_
  split
  · exact .throw_bind _ _
  · exact enter_pays fun _ => rfl

section

variable {copy : CopyBuild S}

mutual

/-- **Parts** pay for themselves and all that is below them. -/
theorem part_pays (hcopy : Copies w copy)
    (hpays : ∀ object path forced name, Leads Pays (copy object path forced name)) (spot : Spot)
    (path : String) (forced : Option Override) :
    ∀ p : Part S, Leads Pays (part w copy spot path forced p)
  | .camera header c => by
    unfold part
    exact composes_pays.bind (object_pays _ _ _) fun _ =>
      composes_pays.bind (camera_pays _ _) fun _ => composes_pays.pure _
  | .light header l => by
    unfold part
    exact composes_pays.bind (object_pays _ _ _) fun _ =>
      composes_pays.bind (light_pays _ _) fun _ => composes_pays.pure _
  | .surface header s => by
    unfold part
    exact composes_pays.bind (object_pays _ _ _) fun _ =>
      composes_pays.bind (surface_pays _ _ _ _ _) fun _ => composes_pays.pure _
  | .copy header name => by
    unfold part
    exact composes_pays.bind (object_pays _ _ _) fun _ =>
      composes_pays.bind (hpays _ _ _ _) fun _ => composes_pays.pure _
  | .assembly header content relations => by
    unfold part
    exact composes_pays.bind (object_pays _ _ _) fun _ => composes_pays.bind
      (arrayFilled_pays (parts_ok hcopy content) (parts_pays hcopy hpays _ _ content)) fun _ =>
        composes_pays.pure _

theorem parts_pays (hcopy : Copies w copy)
    (hpays : ∀ object path forced name, Leads Pays (copy object path forced name)) (path : String)
    (forced : Option Override) :
    ∀ (ps : List (Part S)) (spot : Spot), Leads Pays (parts w copy spot path forced ps)
  | [], spot => by
    unfold parts
    exact composes_pays.pure _
  | p :: ps, spot => by
    unfold parts
    exact composes_pays.bind (part_pays hcopy hpays _ _ _ p) fun _ =>
      composes_pays.bind (parts_pays hcopy hpays _ _ ps _) fun _ => composes_pays.pure _

end

lemma array_pays (hcopy : Copies w copy)
    (hpays : ∀ object path forced name, Leads Pays (copy object path forced name))
    (object : Option ℕ) (path : String) (forced : Option Override)
    (content : List (Part S)) (relations : List Relation) :
    Leads Pays (array w copy object path forced content relations) :=
  arrayFilled_pays (parts_ok hcopy content) (parts_pays hcopy hpays path forced content)

end

/-- **Copies** pay for the arrays that they name, each time again. -/
theorem copy_pays (bound : ℕ) (active : List String) (object : ℕ) (path : String)
    (forced : Option Override) (name : String) :
    Leads Pays (copy w bound active object path forced name) := by
  induction bound generalizing active object path forced name with
  | zero =>
    unfold copy
    split
    · exact .throw _
    · split
      · exact .throw _
      · exact .throw _
  | succ bound ih =>
    unfold copy
    split
    · exact .throw _
    · split
      · exact .throw _
      · exact array_pays (copy_ok w bound _) (fun _ _ _ _ => ih _ _ _ _ _) _ _ _ _ _

omit [Scalar S] in
lemma acquireTables_takes {u : Unit} (h : acquireTables b = .ok u b') :
    b'.ledger.reserve = b.ledger.reserve + (.ofList b.arena.tables, 0) := by
  obtain ⟨a, b₁, h₁, h⟩ := bind_eq_ok.mp h
  obtain ⟨rfl, rfl⟩ := getArena_eq_ok.mp h₁
  obtain ⟨_, b₂, h₂, h⟩ := bind_eq_ok.mp h
  obtain ⟨_, b₃, h₃, h⟩ := bind_eq_ok.mp h
  obtain ⟨_, b₄, h₄, h⟩ := bind_eq_ok.mp h
  obtain ⟨_, b₅, h₅, h⟩ := bind_eq_ok.mp h
  obtain ⟨_, b₆, h₆, h⟩ := bind_eq_ok.mp h
  rw [acquire_takes h, acquire_takes h₆, acquire_takes h₅, acquire_takes h₄, acquire_takes h₃,
    acquire_takes h₂]
  simp only [Reserve.values, add_assoc]
  rfl

lemma document_takes {u : Unit} {allocator : Allocator}
    (h : document w ⟨Arena.empty, Ledger.empty, allocator⟩ = .ok u b') :
    b'.ledger.reserve = b'.arena.reserve + (.ofList b'.arena.tables, 0) := by
  obtain ⟨r, b₁, hroot, h⟩ := bind_eq_ok.mp h
  obtain ⟨a, b₂, h₂, h⟩ := bind_eq_ok.mp h
  obtain ⟨rfl, rfl⟩ := getArena_eq_ok.mp h₂
  obtain ⟨d, hledger, harena⟩ := array_pays (copy_ok w _ _) (fun _ _ _ _ => copy_pays _ _ _ _ _ _)
    _ _ _ _ _ _ _ _ hroot
  by_cases hcameras : b₁.arena.cameras.isEmpty
  · rw [if_pos hcameras] at h
    obtain ⟨_, _, h₃, -⟩ := bind_eq_ok.mp h
    exact (throw_eq_ok.mp h₃).elim
  · rw [if_neg hcameras] at h
    rw [acquireTables_takes h, acquireTables_ok h, harena, hledger]
    rfl

end Build

/-! ### Compiled arenas -/

lemma Reserve.sum_map {α : Type} {f : α → Reserve} {buffers : α → List (String × ℕ)} {trims : α → ℕ}
    (h : ∀ x, f x = (.ofList (buffers x), trims x)) (l : List α) :
    (l.map f).sum = (.ofList (l.flatMap buffers), (l.map trims).sum) := by
  induction l with
  | nil => rfl
  | cons x l ih =>
    rw [List.map_cons, List.sum_cons, h x, ih, Prod.mk_add_mk, Multiset.coe_add, List.flatMap_cons,
      List.map_cons, List.sum_cons]

namespace Arena

variable (a : Arena S)

lemma reserve_tables : a.reserve + (.ofList a.tables, 0) = (.ofList a.buffers,
    (a.surfaces.toList.map fun n => n.trims.length * Layout.trim.size).sum) := by
  have harrays : ∀ n : ArrayNode S, n.reserve = (.ofList
      [("array elements", n.elements.length * Layout.element.size),
        ("array surfaces", n.surfaces.length * Layout.surfaceId.size)], 0) := fun n => rfl
  have hsurfaces : ∀ n : SurfaceNode S,
      n.reserve = (.ofList [], n.trims.length * Layout.trim.size) := fun n => rfl
  have htextures : ∀ t : TextureNode S, t.reserve = (.ofList
      (t.texture.texelCount?.map fun count =>
        ("texture texels", count * Layout.texel.size)).toList, 0) := by
    intro t
    rw [TextureNode.reserve]
    rcases t.texture.texelCount? with _ | count <;> rfl
  rw [reserve, Reserve.sum_map harrays, Reserve.sum_map hsurfaces, Reserve.sum_map htextures,
    buffers, List.filterMap_eq_flatMap_toList]
  refine Prod.ext ?_ ?_
  · simp only [Prod.fst_add, ← Multiset.coe_add, List.flatMap_eq_nil_iff.mpr fun _ _ => rfl,
      Multiset.coe_nil]
    abel
  · simp only [Prod.snd_add, List.map_const', List.sum_replicate, nsmul_zero, zero_add, add_zero]

lemma bytes_reserve : a.reserve.bytes =
    (a.arrays.toList.map fun n => n.elements.length * Layout.element.size +
        n.surfaces.length * Layout.surfaceId.size).sum +
      (a.surfaces.toList.map fun n => n.trims.length * Layout.trim.size).sum +
      (a.textures.toList.map fun t => t.texture.texelCount?.getD 0 * Layout.texel.size).sum := by
  have htexture : ∀ t : TextureNode S,
      t.reserve.bytes = t.texture.texelCount?.getD 0 * Layout.texel.size := by
    intro t
    rw [TextureNode.reserve]
    rcases t.texture.texelCount? with _ | count
    · rw [map_zero, Option.getD_none, Nat.zero_mul]
    · rw [Reserve.bytes_values, Option.getD_some]
  simp only [reserve, map_add, map_list_sum, List.map_map, Function.comp_def, htexture,
    ArrayNode.reserve, SurfaceNode.reserve, Reserve.bytes_values]

end Arena

/-- **What is reserved is what was compiled.** The ledger of a compiled arena has every buffer of
the arena once, with the bytes that it needs, and in pieces those of all trims. -/
theorem compile_reserves [Scalar S] {w : Workshop S} {allocator : Allocator} {c : Compiled S}
    (h : (compile w allocator).1 = .ok c) : c.arena.Reserved c.ledger := by
  obtain ⟨b, hb, rfl⟩ := compile_document h
  have htaken := Build.document_takes hb
  have hall := htaken.trans b.arena.reserve_tables
  rw [Ledger.reserve_eq, Prod.mk.injEq, Multiset.coe_eq_coe] at hall
  refine ⟨?_, hall.1, hall.2⟩
  rw [← Ledger.bytes_reserve, htaken, map_add, Arena.bytes_reserve]
  simp only [Reserve.bytes_apply, Arena.tables, Multiset.map_coe, Multiset.sum_coe, List.map_cons,
    List.map_nil, List.sum_cons, List.sum_nil]
  abel

/-- A copy of a pair of spheres, with a trim on one of them. -/
theorem compile_pair_reserves : ∃ c,
    (compile (Pair.workshop Pair.copied) Pair.allocator).1 = .ok c ∧
      c.ledger.bytes = 4 * 136 + 2 * 304 + 2 * 240 + 80 + 96 + 2 * (2 * 16 + 2 * 8) + 16 ∧
        c.arena.Reserved c.ledger := by
  obtain ⟨c, hc⟩ := Pair.exists_compiled
  have hbytes : ((compile (Pair.workshop Pair.copied) Pair.allocator).1.toOption.map fun c =>
      c.ledger.bytes) = some 1920 := by
    decide +kernel
  rw [hc] at hbytes
  exact ⟨c, hc, Option.some.inj hbytes, compile_reserves hc⟩

end SolidTrace
