import Mathlib.Data.List.Basic
import SolidTrace.Proofs.Arena.Growth

/-!
What the entries of an arena say of a document.

`Records` is the relation between an array of a document and the entries of the arena that were made
for it, those between two marks. Everything else about compiled arenas follows from it. An array of
the arena has the elements of the array of the document in their order, each with the entries
between two marks of its own; `trims` are those of the levels above, which every surface below
carries behind its own.
-/

namespace SolidTrace

variable {S : Type}

/-- What a part is for the program of its array. -/
def Part.kind : Part S → Program.Kind
  | .surface _ _ => .surface
  | .assembly _ _ _ | .copy _ _ => .array
  | .camera _ _ | .light _ _ => .other

def Part.array? (d : Document S) : Part S → Option (Assembly S)
  | .assembly _ parts relations => some ⟨parts, relations⟩
  | .copy _ name => d.library.get? name
  | .camera _ _ | .light _ _ | .surface _ _ => none

/-- The surfaces that an array collects. -/
def Arena.collected (a : Arena S) (i : ℕ) : List ℕ := (a.arrays[i]?.map (·.accumulator)).getD []

namespace ArrayNode

def surfaceAt? (n : ArrayNode S) (position : ℕ) : Option ℕ :=
  match n.elements[position]? with
  | some (.surface s) => some s
  | _ => none

/-- A trim of the program of the array, with its surface and the array itself found. -/
def resolve? (n : ArrayNode S) (id : ℕ) : Program.LocalTrim → Option (Trim ℕ ℕ)
  | .outer p => (n.surfaceAt? p).map .outer
  | .inner p => (n.surfaceAt? p).map .inner
  | .accum () => some (.accum id)

/-- The entry of an array after its program has been run: its elements are those of the array of the
document, and its surfaces are all that were made for it. -/
structure Closes (n : ArrayNode S) (object : Option ℕ) (path : String) (content : Assembly S)
    (lo hi : Marks) (outcome : Program.Outcome) : Prop where
  object : n.object = object
  path : n.path = path
  length : n.elements.length = content.parts.length
  run : Program.run (content.parts.map Part.kind) content.relations = .ok outcome
  surfaces : n.surfaces = List.range' lo.surfaces (hi.surfaces - lo.surfaces)
  bounded : n.bounded = outcome.bounded
  included : n.included = outcome.included
  accumulator : outcome.accumulator.mapM n.surfaceAt? = some n.accumulator

end ArrayNode

/-! ### Entries -/

/-- A side of a surface shows the face, or the material put on it. -/
structure FaceNode.Shows (a : Arena S) (f : Face S) (forced : Option String) (n : FaceNode S) :
    Prop where
  material : ∃ m, a.materials[n.material]? = some m ∧ m.name = forced.getD f.material
  mapping : n.mapping = f.mapping

/-- The object of a part is entered below that of its array. -/
def ObjectNode.Stands (a : Arena S) (id : ℕ) (parent : Option ℕ) (path : String) (h : Header S) :
    Prop :=
  ∃ animator, a.objects[id]? = some ⟨parent, h.placement, animator, h.time, path⟩

section

variable {a a' : Arena S}

lemma FaceNode.Shows.kept {f : Face S} {forced : Option String} {n : FaceNode S}
    (h : n.Shows a f forced) (hm : Kept a.materials a'.materials) : n.Shows a' f forced := by
  obtain ⟨⟨m, hmat, hname⟩, hmap⟩ := h
  exact ⟨⟨m, hm _ _ hmat, hname⟩, hmap⟩

lemma ObjectNode.Stands.agrees {id : ℕ} {parent : Option ℕ} {path : String} {h : Header S}
    (hs : ObjectNode.Stands a id parent path h) (ha : a'.objects[id]? = a.objects[id]?) :
    ObjectNode.Stands a' id parent path h := by
  obtain ⟨animator, hs⟩ := hs
  exact ⟨animator, ha.trans hs⟩

lemma ObjectNode.Stands.kept {id : ℕ} {parent : Option ℕ} {path : String} {h : Header S}
    (hs : ObjectNode.Stands a id parent path h) (ha : Kept a.objects a'.objects) :
    ObjectNode.Stands a' id parent path h := by
  obtain ⟨animator, hs⟩ := hs
  exact ⟨animator, ha _ _ hs⟩

end

variable [Scalar S]

namespace Arena

/-- The box around an element with the object it hangs on, where nothing is missed. -/
def elementBox? (a : Arena S) (volumes : Array (Volume S)) : Element → Option (Box S × ℕ)
  | .surface s => a.surfaces[s]?.map fun n => (n.bounds, n.object)
  | .array i => do
    let node ← a.arrays[i]?
    return ((← volumes[i]?).extent, ← node.object)
  | .camera _ | .light _ => none

/-- The volume of an array, given those of the arrays in it, where nothing is missed. -/
def volumeOf (a : Arena S) (place : ℕ → Transform S) (volumes : Array (Volume S))
    (node : ArrayNode S) : Volume S :=
  Volume.ofBoxes ((node.elements.zip node.included).filterMap fun (e, included) =>
    (a.elementBox? volumes e).map fun (box, object) => (box.transformed (place object), included))

/-- Where an object is declared to stand in its array. -/
def declared (a : Arena S) (object : ℕ) : Transform S :=
  (a.objects[object]?.map (·.placement.toTransform)).getD .identity

/-- The volumes that the arrays have been given. -/
def givenVolumes (a : Arena S) : Array (Volume S) := a.arrays.map (·.volume)

/-- The box around an element where it is declared to stand. -/
def placedBox? (a : Arena S) (e : Element) : Option (Box S) :=
  (a.elementBox? a.givenVolumes e).map fun (box, object) => box.transformed (a.declared object)

lemma volumeOf_declared (a : Arena S) (n : ArrayNode S) :
    a.volumeOf a.declared a.givenVolumes n =
      Volume.ofBoxes ((n.elements.zip n.included).filterMap fun x =>
        (a.placedBox? x.1).map (·, x.2)) := by
  simp only [volumeOf, placedBox?, Option.map_map]
  rfl

end Arena

lemma ObjectNode.Stands.declared {a : Arena S} {id : ℕ} {parent : Option ℕ} {path : String}
    {h : Header S} (hs : ObjectNode.Stands a id parent path h) :
    a.declared id = h.placement.toTransform := by
  obtain ⟨animator, hs⟩ := hs
  rw [Arena.declared, hs]
  rfl

/-- The volume of the array is that of its elements, where they are declared to stand. -/
def ArrayNode.Sized (a : Arena S) (n : ArrayNode S) : Prop :=
  n.volume = a.volumeOf a.declared a.givenVolumes n

/-- The entry of a surface. -/
structure SurfaceNode.Stands (a : Arena S) (object : ℕ) (spot : Build.Spot) (s : Surface S)
    (forced : Option Override) (path : String) (trims : List (Trim ℕ ℕ)) (n : SurfaceNode S) :
    Prop where
  object : n.object = object
  array : n.array = spot.array
  position : n.position = spot.position
  shape : n.shape = s.shape
  quadric : n.quadric = s.shape.quadric
  clip : Build.clipBox s.clip path = .ok n.clip
  bounds : n.bounds = s.shape.localBounds n.clip
  outer : n.outer.Shows a s.outer (forced.map (·.outer))
  inner : n.inner.Shows a s.inner (forced.map (·.inner))
  trims : n.trims = trims

/-- The element that a part has become: its object comes at the first marks, and the entry that it
is named by next. Where the part stands for an array, the second marks are left open. -/
inductive Element.Stands (d : Document S) (a : Arena S) (spot : Build.Spot) (path : String)
    (forced : Option Override) (trims : List (Trim ℕ ℕ)) (lo : Marks) :
    Marks → Element → Part S → Prop
  | camera {h : Header S} {c : Camera S}
      (object : ObjectNode.Stands a lo.objects spot.parent (Build.partPath path spot.position h) h)
      (node : a.cameras[lo.cameras]? = some ⟨lo.objects, c⟩) :
      Stands d a spot path forced trims lo lo.addObject.addCamera (.camera lo.cameras) (.camera h c)
  | light {h : Header S} {l : Light S}
      (object : ObjectNode.Stands a lo.objects spot.parent (Build.partPath path spot.position h) h)
      (node : a.lights[lo.lights]? = some ⟨lo.objects, l⟩) :
      Stands d a spot path forced trims lo lo.addObject.addLight (.light lo.lights) (.light h l)
  | surface {h : Header S} {s : Surface S} {n : SurfaceNode S}
      (object : ObjectNode.Stands a lo.objects spot.parent (Build.partPath path spot.position h) h)
      (node : a.surfaces[lo.surfaces]? = some n)
      (stands : n.Stands a lo.objects spot s (h.materials <|> forced)
        (Build.partPath path spot.position h) trims) :
      Stands d a spot path forced trims lo lo.addObject.addSurface (.surface lo.surfaces)
        (.surface h s)
  | array {hi : Marks} {p : Part S} {content : Assembly S} (content_eq : p.array? d = some content)
      (le : lo.addObject.addArray ≤ hi)
      (object : ObjectNode.Stands a lo.objects spot.parent
        (Build.partPath path spot.position p.header) p.header) :
      Stands d a spot path forced trims lo hi (.array lo.arrays) p

namespace Arena

/-- The entries of the arena between the marks record an array of the document, on an object, at a
path, under an override; `trims` come from the levels above. The elements have their entries between
the marks `cut`, one after the other. -/
inductive Records (d : Document S) (a : Arena S) :
    Marks → Marks → Option ℕ → String → Option Override → List (Trim ℕ ℕ) → Assembly S → Prop
  | mk {lo hi : Marks} {object : Option ℕ} {path : String} {forced : Option Override}
      {trims : List (Trim ℕ ℕ)} {content : Assembly S} {n : ArrayNode S}
      {outcome : Program.Outcome} (cut : ℕ → Marks) (own : ℕ → List (Trim ℕ ℕ))
      (node : a.arrays[lo.arrays]? = some n)
      (closes : n.Closes object path content lo hi outcome)
      (first : cut 0 = lo.addArray)
      (last : cut content.parts.length = hi)
      (own_eq : ∀ (q : ℕ) (l : List Program.LocalTrim), outcome.trims[q]? = some l →
        l.mapM (n.resolve? lo.arrays) = some (own q))
      (stands : ∀ (q : ℕ) (e : Element) (p : Part S), n.elements[q]? = some e →
        content.parts[q]? = some p →
        e.Stands d a ⟨lo.arrays, object, q⟩ path forced (own q ++ trims) (cut q) (cut (q + 1)) p)
      (nested : ∀ (q : ℕ) (p : Part S) (inner : Assembly S), content.parts[q]? = some p →
        p.array? d = some inner →
        Records d a (cut q).addObject (cut (q + 1)) (some (cut q).objects)
          (Build.partPath path q p.header) (p.header.materials <|> forced) (own q ++ trims) inner)
      (sized : n.Sized a) :
      Records d a lo hi object path forced trims content

end Arena

section

variable {d : Document S} {a : Arena S} {spot : Build.Spot} {path : String}
  {forced : Option Override} {trims : List (Trim ℕ ℕ)} {lo hi : Marks} {e : Element} {p : Part S}

lemma Element.Stands.lt (h : e.Stands d a spot path forced trims lo hi p) : lo.addObject ≤ hi := by
  cases h with
  | camera => constructor <;> simp
  | light => constructor <;> simp
  | surface => constructor <;> simp
  | array _ le => exact Marks.le_trans (Marks.le_addArray _) le

lemma Element.Stands.le (h : e.Stands d a spot path forced trims lo hi p) : lo ≤ hi :=
  Marks.le_trans (Marks.le_addObject _) h.lt

lemma cut_le {n : ArrayNode S} {content : Assembly S} {array : ℕ} {object : Option ℕ}
    {own : ℕ → List (Trim ℕ ℕ)} {cut : ℕ → Marks}
    (length : n.elements.length = content.parts.length)
    (stands : ∀ (q : ℕ) (e : Element) (p : Part S), n.elements[q]? = some e →
      content.parts[q]? = some p →
      e.Stands d a ⟨array, object, q⟩ path forced (own q) (cut q) (cut (q + 1)) p)
    {q r : ℕ} (hqr : q ≤ r) (hr : r ≤ content.parts.length) : cut q ≤ cut r := by
  refine Marks.le_of_steps (fun k hk => ?_) hqr hr
  have he := List.getElem?_eq_getElem (show k < n.elements.length by omega)
  exact (stands k _ _ he (List.getElem?_eq_getElem hk)).le

lemma Arena.Records.addArray_le {object : Option ℕ} {content : Assembly S}
    (h : a.Records d lo hi object path forced trims content) : lo.addArray ≤ hi := by
  cases h with
  | mk cut own node closes first last own_eq stands =>
    rw [← first, ← last]
    exact cut_le closes.length stands (Nat.zero_le _) (Nat.le_refl _)

end

lemma Arena.Records.entry {d : Document S} {a : Arena S} {lo hi : Marks} {object : Option ℕ}
    {path : String} {forced : Option Override} {trims : List (Trim ℕ ℕ)} {content : Assembly S}
    (h : a.Records d lo hi object path forced trims content) :
    ∃ n, a.arrays[lo.arrays]? = some n ∧ n.object = object := by
  cases h with
  | mk cut own node closes => exact ⟨_, node, closes.object⟩

/-! ### Entries that stay -/

section

variable {d : Document S} {a a' : Arena S} {ext : List (Trim ℕ ℕ)} {lo hi : Marks}

lemma SurfaceNode.Stands.kept {object : ℕ} {spot : Build.Spot} {s : Surface S}
    {forced : Option Override} {path : String} {trims : List (Trim ℕ ℕ)} {n : SurfaceNode S}
    (h : n.Stands a object spot s forced path trims) (hm : Kept a.materials a'.materials) :
    n.Stands a' object spot s forced path trims :=
  { h with outer := h.outer.kept hm, inner := h.inner.kept hm }

lemma SurfaceNode.Stands.addTrims {object : ℕ} {spot : Build.Spot} {s : Surface S}
    {forced : Option Override} {path : String} {trims : List (Trim ℕ ℕ)} {n : SurfaceNode S}
    (h : n.Stands a object spot s forced path trims) (hm : Kept a.materials a'.materials) :
    (n.addTrims ext).Stands a' object spot s forced path (trims ++ ext) :=
  { h.kept hm with trims := by rw [SurfaceNode.addTrims_trims, h.trims] }

lemma Element.Stands.agrees {spot : Build.Spot} {path : String} {forced : Option Override}
    {trims : List (Trim ℕ ℕ)} {e : Element} {p : Part S}
    (h : e.Stands d a spot path forced trims lo hi p) (ha : a.Agrees ext lo hi a') :
    e.Stands d a' spot path forced (trims ++ ext) lo hi p := by
  have hobject : a'.objects[lo.objects]? = a.objects[lo.objects]? :=
    ha.objects _ (Nat.le_refl _) h.lt.objects
  cases h with
  | camera object node =>
    exact .camera (object.agrees hobject) ((ha.cameras _ (Nat.le_refl _) (by simp)).trans node)
  | light object node =>
    exact .light (object.agrees hobject) ((ha.lights _ (Nat.le_refl _) (by simp)).trans node)
  | surface object node stands =>
    refine .surface (object.agrees hobject) ?_ (stands.addTrims ha.materials)
    rw [ha.surfaces _ (Nat.le_refl _) (by simp), node]
    rfl
  | array content_eq le object => exact .array content_eq le (object.agrees hobject)

lemma Element.Stands.placedBox?_eq {spot : Build.Spot} {path : String} {forced : Option Override}
    {trims : List (Trim ℕ ℕ)} {e : Element} {p : Part S}
    (h : e.Stands d a spot path forced trims lo hi p)
    (hnested : ∀ inner, p.array? d = some inner →
      ∃ n, a.arrays[lo.arrays]? = some n ∧ n.object = some lo.objects)
    (ha : a.Agrees ext lo hi a') : a'.placedBox? e = a.placedBox? e := by
  have hdeclared : a'.declared lo.objects = a.declared lo.objects := by
    rw [Arena.declared, Arena.declared, ha.objects _ (Nat.le_refl _) h.lt.objects]
  unfold Arena.placedBox?
  cases h with
  | camera => rfl
  | light => rfl
  | surface object node stands =>
    have hnode' := ha.surfaces _ (Nat.le_refl _) (by simp)
    rw [node, Option.map_some] at hnode'
    simp only [Arena.elementBox?, node, hnode', Option.map_some, SurfaceNode.addTrims_bounds,
      SurfaceNode.addTrims_object, stands.object, hdeclared]
  | array content_eq le object =>
    obtain ⟨n, hn, hobject⟩ := hnested _ content_eq
    have hn' := (ha.arrays _ (Nat.le_refl _) (le.arrays.trans_lt' (by simp))).trans hn
    simp only [Arena.elementBox?, Arena.givenVolumes, Array.getElem?_map, hn, hn', hobject,
      Option.map_some, Option.bind_eq_bind, Option.bind_some, Option.pure_def, hdeclared]

/-- **Entries that stay.** What is recorded between marks is recorded in every arena that agrees
there, with the trims that its surfaces have more. -/
theorem Arena.Records.agrees {object : Option ℕ} {path : String} {forced : Option Override}
    {trims : List (Trim ℕ ℕ)} {content : Assembly S}
    (h : a.Records d lo hi object path forced trims content) (ha : a.Agrees ext lo hi a') :
    a'.Records d lo hi object path forced (trims ++ ext) content := by
  induction h with
  | @mk lo hi object path forced trims content n outcome cut own node closes first last own_eq
      stands nested sized ih =>
    have hcut : ∀ {q r}, q ≤ r → r ≤ content.parts.length → cut q ≤ cut r :=
      fun hqr hr => cut_le closes.length stands hqr hr
    have hbetween : ∀ {q}, q < content.parts.length → a.Agrees ext (cut q) (cut (q + 1)) a' := by
      intro q hq
      refine ha.mono ?_ ?_
      · exact Marks.le_trans (Marks.le_addArray lo) (first ▸ hcut (Nat.zero_le q) hq.le)
      · exact last ▸ hcut hq (Nat.le_refl _)
    have hlt : lo.arrays < hi.arrays := by
      have := (hcut (Nat.zero_le _) (Nat.le_refl content.parts.length)).arrays
      rw [first, last, Marks.addArray_arrays] at this
      omega
    -- the entry itself, its elements, the arrays in it and its volume
    refine .mk cut own ((ha.arrays _ (Nat.le_refl _) hlt).trans node) closes first last own_eq
      (fun q e p he hp => ?_) (fun q p inner hp hinner => ?_) ?_
    · rw [← List.append_assoc]
      exact (stands q e p he hp).agrees (hbetween (List.getElem?_eq_some_iff.mp hp).1)
    · rw [← List.append_assoc]
      have hagrees := hbetween (List.getElem?_eq_some_iff.mp hp).1
      exact ih q p inner hp hinner (hagrees.mono (Marks.le_addObject _) (Marks.le_refl _))
    · rw [ArrayNode.Sized, Arena.volumeOf_declared] at sized ⊢
      refine sized.trans (congrArg Volume.ofBoxes (List.filterMap_congr fun x hx => ?_))
      obtain ⟨q, hq⟩ := List.getElem?_of_mem (List.of_mem_zip hx).1
      have hlt : q < content.parts.length := closes.length ▸ (List.getElem?_eq_some_iff.mp hq).1
      have hp := List.getElem?_eq_getElem hlt
      rw [(stands q _ _ hq hp).placedBox?_eq
        (fun inner hinner => (nested q _ inner hp hinner).entry) (hbetween hlt)]

end

end SolidTrace
