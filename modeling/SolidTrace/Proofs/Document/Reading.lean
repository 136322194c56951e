import SolidTrace.Proofs.Document.Readers

/-!
Every part of a document is read from what is written of it.

The numbers that a part of a document gives are its `quantities`. Where each of them can be read
again, so can the whole, in any order of the members.
-/

namespace SolidTrace

open Json Json.Reader

/-- A number that a document gives. -/
inductive Quantity
  | double (x : Float)
  | int32 (i : ℤ)
  | int64 (i : ℤ)

/-- The number is finite, or in range, and is read again from what is written of it. -/
def Quantity.Legible : Quantity → Prop
  | double x => x.isFinite = true ∧ (Numeral.ofDouble x).toDouble? = some x
  | int32 i => -0x80000000 ≤ i ∧ i ≤ 0x7FFFFFFF
  | int64 i => -0x8000000000000000 ≤ i ∧ i ≤ 0x7FFFFFFFFFFFFFFF

instance : DecidablePred Quantity.Legible
  | .double _ => inferInstanceAs (Decidable (_ ∧ _))
  | .int32 _ => inferInstanceAs (Decidable (_ ∧ _))
  | .int64 _ => inferInstanceAs (Decidable (_ ∧ _))

variable (limit : ℕ)

namespace Quantity.Legible

lemma reads_double {x : Float} (h : (double x).Legible) :
    Reads limit Reader.double (ofDouble x) x :=
  Reader.reads_double h.1 h.2

lemma reads_int32 {i : ℤ} (h : (int32 i).Legible) : Reads limit Reader.int32 (ofInt i) i := by
  have hrange : -0x80000000 ≤ i ∧ i ≤ 0x7FFFFFFF := h
  refine reads_integer h ?_
  rw [NumberLiteral.significandLimit, Nat.pow_eq]
  omega

lemma reads_int64 {i : ℤ} (h : (int64 i).Legible) : Reads limit Reader.int64 (ofInt i) i := by
  have hrange : -0x8000000000000000 ≤ i ∧ i ≤ 0x7FFFFFFFFFFFFFFF := h
  refine reads_integer h ?_
  rw [NumberLiteral.significandLimit, Nat.pow_eq]
  omega

lemma ofDouble_ne_null {x : Float} (h : (double x).Legible) : ofDouble x ≠ .null := by
  rw [ofDouble, if_pos h.1]
  nofun

end Quantity.Legible

lemma reads_word (w : UInt32) : Reads limit word (ofWord w) w := by
  have hlt := w.toNat_lt
  have hread : Reads limit (integer 0 0xFFFFFFFF) (ofWord w) (w.toNat : ℤ) := by
    refine reads_integer ⟨by omega, by omega⟩ ?_
    rw [NumberLiteral.significandLimit, Nat.pow_eq]
    omega
  have hword := hread.map fun i => UInt32.ofNat i.toNat
  rwa [Int.toNat_natCast, UInt32.ofNat_toNat] at hword

lemma reads_optional_double {o : Option Float} (h : ∀ x ∈ o, (Quantity.double x).Legible) :
    Reads limit (optional double) (ofOption ofDouble o) o :=
  Reads.optional (fun x hx => (h x hx).ofDouble_ne_null) fun x hx => (h x hx).reads_double limit

/-! ### Geometry -/

def Vec.quantities (v : Vec Float) : List Quantity := [.double v.x, .double v.y, .double v.z]

lemma Vec.reads {v : Vec Float} (h : ∀ q ∈ v.quantities, q.Legible) :
    Reads limit Vec.read v.write v := by
  simp only [quantities, List.forall_mem_cons] at h
  obtain ⟨hx, hy, hz, -⟩ := h
  have rx := hx.reads_double (limit - 1)
  have ry := hy.reads_double (limit - 1)
  have rz := hz.reads_double (limit - 1)
  refine reads_record ?_ ?_ ?_ fun f hf => ?_
  · rfl
  · simp
  · simp [rx.proper, ry.proper, rz.proper]
  · rw [hf.required rx (by simp), hf.required ry (by simp), hf.required rz (by simp)]
    rfl

def Vec2.quantities (v : Vec2 Float) : List Quantity := [.double v.x, .double v.y]

lemma Vec2.reads {v : Vec2 Float} (h : ∀ q ∈ v.quantities, q.Legible) :
    Reads limit Vec2.read v.write v := by
  simp only [quantities, List.forall_mem_cons] at h
  obtain ⟨hx, hy, -⟩ := h
  have rx := hx.reads_double (limit - 1)
  have ry := hy.reads_double (limit - 1)
  refine reads_record ?_ ?_ ?_ fun f hf => ?_
  · rfl
  · simp
  · simp [rx.proper, ry.proper]
  · rw [hf.required rx (by simp), hf.required ry (by simp)]
    rfl

def Placement.quantities (p : Placement Float) : List Quantity :=
  p.scale.quantities ++ p.rotation.quantities ++ p.position.quantities

lemma Placement.reads {p : Placement Float} (h : ∀ q ∈ p.quantities, q.Legible) :
    Reads limit Placement.read p.write p := by
  simp only [quantities, List.forall_mem_append] at h
  obtain ⟨⟨hscale, hrotation⟩, hposition⟩ := h
  have rscale := Vec.reads (limit - 1) hscale
  have rrotation := Vec.reads (limit - 1) hrotation
  have rposition := Vec.reads (limit - 1) hposition
  refine reads_record ?_ ?_ ?_ fun f hf => ?_
  · rfl
  · simp
  · simp [rscale.proper, rrotation.proper, rposition.proper]
  · dsimp only
    rw [hf.withDefault rscale (by simp), hf.withDefault rrotation (by simp),
      hf.withDefault rposition (by simp)]
    rfl

def Mapping.quantities (m : Mapping Float) : List Quantity :=
  m.scale.quantities ++ [.double m.rotation] ++ m.position.quantities

lemma Mapping.reads {m : Mapping Float} (h : ∀ q ∈ m.quantities, q.Legible) :
    Reads limit Mapping.read m.write m := by
  simp only [quantities, List.forall_mem_append, List.forall_mem_singleton] at h
  obtain ⟨⟨hscale, hrotation⟩, hposition⟩ := h
  have rscale := Vec2.reads (limit - 1) hscale
  have rrotation := hrotation.reads_double (limit - 1)
  have rposition := Vec2.reads (limit - 1) hposition
  refine reads_record ?_ ?_ ?_ fun f hf => ?_
  · rfl
  · simp
  · simp [rscale.proper, rrotation.proper, rposition.proper]
  · dsimp only
    rw [hf.withDefault rscale (by simp), hf.withDefault rrotation (by simp),
      hf.withDefault rposition (by simp)]
    rfl

def Box.quantities (b : Box Float) : List Quantity := b.min.quantities ++ b.max.quantities

lemma Box.reads {b : Box Float} (h : ∀ q ∈ b.quantities, q.Legible) :
    Reads limit Box.read b.write b := by
  simp only [quantities, List.forall_mem_append] at h
  have rmin := Vec.reads (limit - 1) h.1
  have rmax := Vec.reads (limit - 1) h.2
  refine reads_record ?_ ?_ ?_ fun f hf => ?_
  · rfl
  · simp
  · simp [rmin.proper, rmax.proper]
  · rw [hf.required rmin (by simp), hf.required rmax (by simp)]
    rfl

lemma Axis.reads (a : Axis) : Reads limit Axis.read a.write a := by
  cases a <;> exact reads_choice (by simp [List.lookup_cons])

/-! ### Surfaces and materials -/

def Shape.quantities : Shape Float → List Quantity
  | plane => []
  | sphere x | cylinder x | cone x | paraboloid x | paraCylinder x | hyperParaboloid x =>
    [.double x]
  | hyperboloid r w | hyperCylinder r w => [.double r, .double w]

lemma reads_field {field : String} {x : Float} (h : (Quantity.double x).Legible) :
    Reads limit (fun p v => do (← fields [field] p v).required field double)
      (record [(field, ofDouble x)]) x := by
  have rx := h.reads_double (limit - 1)
  refine reads_record ?_ ?_ ?_ fun f hf => ?_
  · rfl
  · simp
  · simp [rx.proper]
  · exact hf.required rx (by simp)

lemma reads_ratio_waist {r w : Float} (hr : (Quantity.double r).Legible)
    (hw : (Quantity.double w).Legible) :
    Reads limit (fun p v => do
      let f ← fields ["ratio", "waist"] p v
      return (← f.required "ratio" double, ← f.required "waist" double))
      (record [("ratio", ofDouble r), ("waist", ofDouble w)]) (r, w) := by
  have rratio := hr.reads_double (limit - 1)
  have rwaist := hw.reads_double (limit - 1)
  refine reads_record ?_ ?_ ?_ fun f hf => ?_
  · rfl
  · simp
  · simp [rratio.proper, rwaist.proper]
  · rw [hf.required rratio (by simp), hf.required rwaist (by simp)]
    rfl

lemma Shape.reads {s : Shape Float} (h : ∀ q ∈ s.quantities, q.Legible) :
    Reads limit Shape.read s.write s := by
  cases s with
  | plane => refine reads_tagged ?_ ?_ (reads_noFields.map fun _ => plane) <;> simp [variants]
  | sphere r =>
    rw [quantities, List.forall_mem_singleton] at h
    refine reads_tagged ?_ ?_ ((reads_field limit h).map sphere) <;> simp [variants]
  | cylinder r =>
    rw [quantities, List.forall_mem_singleton] at h
    refine reads_tagged ?_ ?_ ((reads_field limit h).map cylinder) <;> simp [variants]
  | cone r =>
    rw [quantities, List.forall_mem_singleton] at h
    refine reads_tagged ?_ ?_ ((reads_field limit h).map cone) <;> simp [variants]
  | paraboloid r =>
    rw [quantities, List.forall_mem_singleton] at h
    refine reads_tagged ?_ ?_ ((reads_field limit h).map paraboloid) <;> simp [variants]
  | hyperboloid r w =>
    simp only [quantities, List.forall_mem_cons] at h
    have rtwo := (reads_ratio_waist limit h.1 h.2.1).map fun m => hyperboloid m.1 m.2
    refine reads_tagged ?_ ?_ rtwo <;> simp [variants]
  | paraCylinder r =>
    rw [quantities, List.forall_mem_singleton] at h
    refine reads_tagged ?_ ?_ ((reads_field limit h).map paraCylinder) <;> simp [variants]
  | hyperCylinder r w =>
    simp only [quantities, List.forall_mem_cons] at h
    have rtwo := (reads_ratio_waist limit h.1 h.2.1).map fun m => hyperCylinder m.1 m.2
    refine reads_tagged ?_ ?_ rtwo <;> simp [variants]
  | hyperParaboloid r =>
    rw [quantities, List.forall_mem_singleton] at h
    refine reads_tagged ?_ ?_ ((reads_field limit h).map hyperParaboloid) <;> simp [variants]

def Face.quantities (f : Face Float) : List Quantity := f.mapping.quantities

lemma Face.reads {f : Face Float} (h : ∀ q ∈ f.quantities, q.Legible) :
    Reads limit Face.read f.write f := by
  have rmapping := Mapping.reads (limit - 1) h
  have rmaterial : Reads (limit - 1) string _ _ := reads_string f.material
  refine reads_record ?_ ?_ ?_ fun f hf => ?_
  · rfl
  · simp
  · simp [rmapping.proper, rmaterial.proper]
  · rw [hf.withDefault rmapping (by simp), hf.required rmaterial (by simp)]
    rfl

def Surface.quantities (s : Surface Float) : List Quantity :=
  s.shape.quantities ++ s.clip.quantities ++ s.outer.quantities ++ s.inner.quantities

lemma Surface.reads {s : Surface Float} (h : ∀ q ∈ s.quantities, q.Legible) :
    Reads limit Surface.read (record s.fields) s := by
  simp only [quantities, List.forall_mem_append] at h
  obtain ⟨⟨⟨hshape, hclip⟩, houter⟩, hinner⟩ := h
  have rshape := Shape.reads (limit - 1) hshape
  have rclip := Box.reads (limit - 1) hclip
  have router := Face.reads (limit - 1) houter
  have rinner := Face.reads (limit - 1) hinner
  refine reads_record ?_ ?_ ?_ fun f hf => ?_
  · rfl
  · simp
  · simp [fields, rshape.proper, rclip.proper, router.proper, rinner.proper]
  · rw [hf.required rshape (by simp [fields]), hf.withDefault rclip (by simp [fields]),
      hf.required router (by simp [fields]), hf.required rinner (by simp [fields])]
    rfl

lemma Finish.reads (f : Finish) : Reads limit Finish.read f.write f := by
  cases f <;> exact reads_choice (by simp [List.lookup_cons])

lemma reads_triple {a b c : Float} (ha : (Quantity.double a).Legible)
    (hb : (Quantity.double b).Legible) (hc : (Quantity.double c).Legible) :
    Reads limit triple (.array [ofDouble a, ofDouble b, ofDouble c]) (a, b, c) :=
  Reads.bind (reads_tuple (.cons (ha.reads_double _) (.cons (hb.reads_double _)
    (.cons (hc.reads_double _) .nil)))) rfl

def Material.quantities (m : Material Float) : List Quantity :=
  [.double m.diffuse, .double m.specular, .double m.power, .double m.reflect, .double m.transmit,
    .double m.refract] ++ m.ior.toList.map .double ++ m.exponent.toList.map .double

lemma Material.reads {m : Material Float} (h : ∀ q ∈ m.quantities, q.Legible) :
    Reads limit Material.read m.write m := by
  simp only [quantities, List.forall_mem_append, List.forall_mem_cons, List.forall_mem_map,
    Option.mem_toList] at h
  obtain ⟨⟨⟨hdiffuse, hspecular, hpower, hreflect, htransmit, hrefract, -⟩, hior⟩, hexponent⟩ := h
  have rfinish := Finish.reads (limit - 1) m.finish
  have rtexture : Reads (limit - 1) string _ _ := reads_string m.texture
  have rprops := reads_triple (limit - 1) hdiffuse hspecular hpower
  have roptics := reads_triple (limit - 1) hreflect htransmit hrefract
  have rior := reads_optional_double (limit - 1) hior
  have rexponent := reads_optional_double (limit - 1) hexponent
  refine reads_record ?_ ?_ ?_ fun f hf => ?_
  · rfl
  · simp
  · simp [rfinish.proper, rtexture.proper, rprops.proper, roptics.proper, rior.proper,
      rexponent.proper]
  · rw [hf.required rfinish (by simp), hf.required rtexture (by simp),
      hf.withDefault rprops (by simp), hf.withDefault roptics (by simp),
      hf.withDefault rior (by simp), hf.withDefault rexponent (by simp)]
    rfl

def TextureSource.quantities : TextureSource Float → List Quantity
  | color _ | image _ => []
  | checker _ _ scale => [.double scale]

lemma TextureSource.reads {t : TextureSource Float} (h : ∀ q ∈ t.quantities, q.Legible) :
    Reads limit TextureSource.read t.write t := by
  cases t with
  | color rgb =>
    have rrgb := reads_word (limit - 1) rgb
    refine reads_tagged ?_ ?_ (reads_record ?_ ?_ ?_ fun f hf => ?_)
    · simp
    · simp
    · rfl
    · simp
    · simp [rrgb.proper]
    · rw [hf.required rrgb (by simp)]
      rfl
  | checker a b scale =>
    rw [quantities, List.forall_mem_singleton] at h
    have ra := reads_word (limit - 1) a
    have rb := reads_word (limit - 1) b
    have rscale := h.reads_double (limit - 1)
    refine reads_tagged ?_ ?_ (reads_record ?_ ?_ ?_ fun f hf => ?_)
    · simp
    · simp
    · rfl
    · simp
    · simp [ra.proper, rb.proper, rscale.proper]
    · rw [hf.required ra (by simp), hf.required rb (by simp), hf.required rscale (by simp)]
      rfl
  | image path =>
    have rpath : Reads (limit - 1) string _ _ := reads_string path
    refine reads_tagged ?_ ?_ (reads_record ?_ ?_ ?_ fun f hf => ?_)
    · simp
    · simp
    · rfl
    · simp
    · simp [rpath.proper]
    · rw [hf.required rpath (by simp)]
      rfl

/-! ### Cameras and lights -/

def Camera.quantities (c : Camera Float) : List Quantity :=
  [.double c.intensity, .double c.pov] ++ c.speed.quantities ++ c.turning.quantities

lemma Camera.reads {c : Camera Float} (h : ∀ q ∈ c.quantities, q.Legible) :
    Reads limit Camera.read (record c.fields) c := by
  simp only [quantities, List.forall_mem_append, List.forall_mem_cons] at h
  obtain ⟨⟨⟨hintensity, hpov, -⟩, hspeed⟩, hturning⟩ := h
  have rcolor := reads_word (limit - 1) c.color
  have rintensity := hintensity.reads_double (limit - 1)
  have rpov := hpov.reads_double (limit - 1)
  have rspeed := Vec.reads (limit - 1) hspeed
  have rturning := Vec.reads (limit - 1) hturning
  refine reads_record ?_ ?_ ?_ fun f hf => ?_
  · rfl
  · simp
  · simp [fields, rcolor.proper, rintensity.proper, rpov.proper, rspeed.proper, rturning.proper]
  · rw [hf.required rcolor (by simp [fields]), hf.required rintensity (by simp [fields]),
      hf.required rpov (by simp [fields]), hf.withDefault rspeed (by simp [fields]),
      hf.withDefault rturning (by simp [fields])]
    rfl

def Attenuation.quantities (a : Attenuation Float) : List Quantity :=
  [.double a.range, .double a.constant, .double a.linear, .double a.quadratic]

lemma Attenuation.reads {a : Attenuation Float} (h : ∀ q ∈ a.quantities, q.Legible) :
    Reads limit Attenuation.read a.write a := by
  simp only [quantities, List.forall_mem_cons] at h
  obtain ⟨hrange, hconstant, hlinear, hquadratic, -⟩ := h
  exact Reads.bind (reads_tuple (.cons (hrange.reads_double _) (.cons (hconstant.reads_double _)
    (.cons (hlinear.reads_double _) (.cons (hquadratic.reads_double _) .nil))))) rfl

def Light.quantities (l : Light Float) : List Quantity :=
  [.double l.ambient, .double l.source] ++ l.attenuation.quantities

lemma Light.reads {l : Light Float} (h : ∀ q ∈ l.quantities, q.Legible) :
    Reads limit Light.read (record l.fields) l := by
  simp only [quantities, List.forall_mem_append, List.forall_mem_cons] at h
  obtain ⟨⟨hambient, hsource, -⟩, hattenuation⟩ := h
  have rcolor := reads_word (limit - 1) l.color
  have rambient := hambient.reads_double (limit - 1)
  have rsource := hsource.reads_double (limit - 1)
  have rattenuation := Attenuation.reads (limit - 1) hattenuation
  refine reads_record ?_ ?_ ?_ fun f hf => ?_
  · rfl
  · simp
  · simp [fields, rcolor.proper, rambient.proper, rsource.proper, rattenuation.proper]
  · rw [hf.required rcolor (by simp [fields]), hf.required rambient (by simp [fields]),
      hf.required rsource (by simp [fields]), hf.withDefault rattenuation (by simp [fields])]
    rfl

/-! ### Relations, parts and arrays -/

lemma Relation.Op.reads (o : Relation.Op) : Reads limit Relation.Op.read o.write o := by
  cases o <;> exact reads_choice (by simp [names, List.lookup_cons])

def Relation.quantities (r : Relation) : List Quantity := [.int32 r.target, .int32 r.operand]

lemma Relation.reads {r : Relation} (h : ∀ q ∈ r.quantities, q.Legible) :
    Reads limit Relation.read r.write r := by
  simp only [quantities, List.forall_mem_cons] at h
  obtain ⟨htarget, hoperand, -⟩ := h
  have rtarget := htarget.reads_int32 (limit - 1)
  have rop := Relation.Op.reads (limit - 1) r.op
  have roperand := hoperand.reads_int32 (limit - 1)
  refine reads_record ?_ ?_ ?_ fun f hf => ?_
  · rfl
  · simp
  · simp [rtarget.proper, rop.proper, roperand.proper]
  · rw [hf.required rtarget (by simp), hf.required rop (by simp), hf.required roperand (by simp)]
    rfl

def Animation.quantities : Animation Float → List Quantity
  | spin _ rate => [.double rate]
  | bob _ amplitude period => [.double amplitude, .double period]
  | custom _ => []

lemma Animation.reads {a : Animation Float} (h : ∀ q ∈ a.quantities, q.Legible) :
    Reads limit Animation.read a.write a := by
  cases a with
  | spin axis rate =>
    rw [quantities, List.forall_mem_singleton] at h
    have raxis := Axis.reads (limit - 1) axis
    have rrate := h.reads_double (limit - 1)
    refine reads_tagged ?_ ?_ (reads_record ?_ ?_ ?_ fun f hf => ?_)
    · simp
    · simp
    · rfl
    · simp
    · simp [raxis.proper, rrate.proper]
    · rw [hf.required raxis (by simp), hf.required rrate (by simp)]
      rfl
  | bob axis amplitude period =>
    simp only [quantities, List.forall_mem_cons] at h
    have raxis := Axis.reads (limit - 1) axis
    have ramplitude := h.1.reads_double (limit - 1)
    have rperiod := h.2.1.reads_double (limit - 1)
    refine reads_tagged ?_ ?_ (reads_record ?_ ?_ ?_ fun f hf => ?_)
    · simp
    · simp
    · rfl
    · simp
    · simp [raxis.proper, ramplitude.proper, rperiod.proper]
    · rw [hf.required raxis (by simp), hf.required ramplitude (by simp),
        hf.required rperiod (by simp)]
      rfl
  | custom name =>
    have rname : Reads (limit - 1) string _ _ := reads_string name
    refine reads_tagged ?_ ?_ (reads_record ?_ ?_ ?_ fun f hf => ?_)
    · simp
    · simp
    · rfl
    · simp
    · simp [rname.proper]
    · rw [hf.required rname (by simp)]
      rfl

lemma Override.reads (o : Override) : Reads limit Override.read o.write o := by
  have router : Reads (limit - 1) string _ _ := reads_string o.outer
  have rinner : Reads (limit - 1) string _ _ := reads_string o.inner
  refine reads_record ?_ ?_ ?_ fun f hf => ?_
  · rfl
  · simp
  · simp [router.proper, rinner.proper]
  · rw [hf.required router (by simp), hf.required rinner (by simp)]
    rfl

def Header.quantities (h : Header Float) : List Quantity :=
  h.placement.quantities ++ h.animation.toList.flatMap Animation.quantities ++ [.int64 h.time]

namespace Part

mutual

def quantities : Part Float → List Quantity
  | camera h c => h.quantities ++ c.quantities
  | light h l => h.quantities ++ l.quantities
  | surface h s => h.quantities ++ s.quantities
  | assembly h parts relations =>
    h.quantities ++ quantitiesAll parts ++ relations.flatMap Relation.quantities
  | copy h _ => h.quantities

def quantitiesAll : List (Part Float) → List Quantity
  | [] => []
  | p :: rest => p.quantities ++ quantitiesAll rest

end

end Part

lemma Assembly.readsWith {part : Json.Reader (Part Float)} {ws : List Json} {a : Assembly Float}
    (hparts : List.Forall₂ (Reads (limit - 1 - 1) part) ws a.parts)
    (hrelations : ∀ r ∈ a.relations, ∀ q ∈ r.quantities, q.Legible) :
    Reads limit (Assembly.readWith part) (record (fieldsOf ws a.relations)) a := by
  have robjects := reads_list hparts
  have rrelations : Reads (limit - 1) (list Relation.read) _ a.relations :=
    reads_list (List.forall₂_map_left_iff.mpr
      (List.forall₂_same.mpr fun r hr => Relation.reads _ (hrelations r hr)))
  refine reads_record ?_ ?_ ?_ fun f hf => ?_
  · rfl
  · simp
  · simp [fieldsOf, robjects.proper, rrelations.proper]
  · rw [hf.required robjects (by simp [fieldsOf]), hf.withDefault rrelations (by simp [fieldsOf])]
    rfl

namespace Part

lemma readsWith_header {nested : Json.Reader (Part Float)} {h : Header Float} {kind : Json}
    {make : Header Float → Part Float} (hlegible : ∀ q ∈ h.quantities, q.Legible)
    (rkind : Reads (limit - 1) (readKind nested) kind make) :
    Reads limit (readWith nested) (h.write kind) (make h) := by
  simp only [Header.quantities, List.forall_mem_append, List.forall_mem_singleton,
    List.forall_mem_flatMap, Option.mem_toList] at hlegible
  obtain ⟨⟨hplacement, hanimation⟩, htime⟩ := hlegible
  have rname : Reads (limit - 1) (optional string) _ h.name :=
    Reads.optional (f := ofString) (fun _ _ => nofun) fun s _ => reads_string s
  have rplacement := Placement.reads (limit - 1) hplacement
  have rmaterials : Reads (limit - 1) (optional Override.read) _ h.materials :=
    Reads.optional (f := Override.write) (fun _ _ => nofun) fun o _ => Override.reads _ o
  have ranimation : Reads (limit - 1) (optional Animation.read) _ h.animation :=
    Reads.optional (f := Animation.write) (fun a _ => by cases a <;> nofun) fun a ha =>
      Animation.reads _ (hanimation a ha)
  have rtime := htime.reads_int64 (limit - 1)
  refine reads_record ?_ ?_ ?_ fun f hf => ?_
  · rfl
  · simp
  · simp [rname.proper, rplacement.proper, rkind.proper, rmaterials.proper, ranimation.proper,
      rtime.proper]
  · rw [hf.withDefault rname (by simp), hf.withDefault rplacement (by simp),
      hf.required rkind (by simp), hf.withDefault rmaterials (by simp),
      hf.withDefault ranimation (by simp), hf.withDefault rtime (by simp)]
    rfl

lemma three_le_height (h : Header Float) (kind : Json) : 3 ≤ (h.write kind).height := by
  by_contra hlow
  have hplacement := height_record.mp (show (h.write kind).height ≤ 2 by omega)
    ("transform", h.placement.write) (by simp)
  have hscale := height_record.mp hplacement ("scale", h.placement.scale.write) (by simp)
  exact absurd hscale (Nat.not_succ_le_zero _)

/-- What reads a part at every depth, when its kind is read wherever the parts in it are. -/
lemma readsAt_header {h : Header Float} {kind : Json} (make : Header Float → Part Float)
    (hlegible : ∀ q ∈ h.quantities, q.Legible)
    (rkind : ∀ depth, Reads (depth + 2) (readKind fun p v => readAt depth p.held v) kind make)
    (depth : ℕ) : Reads depth (fun p v => readAt depth p.held v) (h.write kind) (make h) where
  proper := (readsWith_header 3 hlegible (rkind 0)).proper
  read p v hv hheight hlimit := by
    -- With fewer than three levels nothing reads the parts of arrays, but no part fits in these.
    have hthree := three_le_height h kind
    obtain ⟨depth, rfl⟩ : ∃ d, depth = d + 3 := ⟨depth - 3, by omega⟩
    exact (readsWith_header (depth + 3) hlegible (rkind depth)).read ⟨depth + 3, p.held⟩ v hv
      (hheight.trans hlimit) le_rfl

lemma reads_assembly {nested : Json.Reader (Part Float)} {ws : List Json}
    {parts : List (Part Float)} {relations : List Relation} {depth : ℕ}
    (hparts : List.Forall₂ (Reads depth nested) ws parts)
    (hrelations : ∀ r ∈ relations, ∀ q ∈ r.quantities, q.Legible) :
    Reads (depth + 2) (readKind nested)
      (record (("type", ofString "Array") :: Assembly.fieldsOf ws relations))
      fun h => .assembly h parts relations := by
  have rarray : Reads (depth + 2) (Assembly.readWith nested) _ (Assembly.mk parts relations) :=
    Assembly.readsWith (depth + 2) hparts hrelations
  refine reads_tagged ?_ ?_ (rarray.bind rfl) <;> simp [Assembly.fieldsOf]

mutual

-- By induction on the part: the depth goes down by three where a list of parts is entered.
/-- **A part is read from what is written of it**, at any depth at which it fits. -/
theorem readsAt : ∀ (part : Part Float), (∀ q ∈ part.quantities, q.Legible) →
    ∀ depth, Reads depth (fun p v => readAt depth p.held v) part.write part
  | camera h c, hlegible => by
    rw [quantities, List.forall_mem_append] at hlegible
    refine readsAt_header (.camera · c) hlegible.1 fun depth => ?_
    refine reads_tagged ?_ ?_ ((Camera.reads (depth + 2) hlegible.2).bind rfl) <;>
      simp [Camera.fields]
  | light h l, hlegible => by
    rw [quantities, List.forall_mem_append] at hlegible
    refine readsAt_header (.light · l) hlegible.1 fun depth => ?_
    refine reads_tagged ?_ ?_ ((Light.reads (depth + 2) hlegible.2).bind rfl) <;>
      simp [Light.fields]
  | surface h s, hlegible => by
    rw [quantities, List.forall_mem_append] at hlegible
    refine readsAt_header (.surface · s) hlegible.1 fun depth => ?_
    refine reads_tagged ?_ ?_ ((Surface.reads (depth + 2) hlegible.2).bind rfl) <;>
      simp [Surface.fields]
  | assembly h parts relations, hlegible => by
    simp only [quantities, List.forall_mem_append, List.forall_mem_flatMap] at hlegible
    obtain ⟨⟨hheader, hparts⟩, hrelations⟩ := hlegible
    exact readsAt_header (.assembly · parts relations) hheader fun depth =>
      reads_assembly (readsAt_all parts hparts depth) hrelations
  | copy h name, hlegible => by
    refine readsAt_header (.copy · name) hlegible fun depth => ?_
    have rarray : Reads (depth + 1) string _ _ := reads_string name
    refine reads_tagged ?_ ?_ (reads_record ?_ ?_ ?_ fun f hf => ?_)
    · simp
    · simp
    · rfl
    · simp
    · simp [rarray.proper]
    · rw [hf.required rarray (by simp)]
      rfl

theorem readsAt_all : ∀ (parts : List (Part Float)), (∀ q ∈ quantitiesAll parts, q.Legible) →
    ∀ depth, List.Forall₂ (Reads depth fun p v => readAt depth p.held v) (writeAll parts) parts
  | [], _, _ => .nil
  | part :: rest, hlegible, depth => by
    rw [quantitiesAll, List.forall_mem_append] at hlegible
    exact .cons (readsAt part hlegible.1 depth) (readsAt_all rest hlegible.2 depth)

end

lemma reads {part : Part Float} (h : ∀ q ∈ part.quantities, q.Legible) :
    Reads limit Part.read part.write part where
  proper := (readsAt part h 0).proper
  read p v hv hheight _ := (readsAt part h p.depth).read p v hv hheight le_rfl

lemma reads_all {parts : List (Part Float)} (h : ∀ q ∈ quantitiesAll parts, q.Legible) :
    List.Forall₂ (Reads limit Part.read) (writeAll parts) parts := by
  induction parts with
  | nil => exact .nil
  | cons part rest ih =>
    rw [quantitiesAll, List.forall_mem_append] at h
    exact .cons (reads limit h.1) (ih h.2)

end Part

def Assembly.quantities (a : Assembly Float) : List Quantity :=
  Part.quantitiesAll a.parts ++ a.relations.flatMap Relation.quantities

lemma Assembly.reads {a : Assembly Float} (h : ∀ q ∈ a.quantities, q.Legible) :
    Reads limit Assembly.read a.write a := by
  simp only [quantities, List.forall_mem_append, List.forall_mem_flatMap] at h
  exact readsWith limit (Part.reads_all _ h.1) h.2

namespace Document

def quantities (d : Document Float) : List Quantity :=
  d.materials.entries.flatMap (fun e => e.2.quantities) ++
    d.textures.entries.flatMap (fun e => e.2.quantities) ++
    d.library.entries.flatMap (fun e => e.2.quantities) ++ d.root.quantities

/-- **A document is read from what is written of it.** -/
theorem reads {d : Document Float} (h : ∀ q ∈ d.quantities, q.Legible) :
    Reads limit Document.read d.write d := by
  simp only [quantities, List.forall_mem_append, List.forall_mem_flatMap] at h
  obtain ⟨⟨⟨hmaterials, htextures⟩, hlibrary⟩, hroot⟩ := h
  have rversion : Reads (limit - 1) string _ _ := reads_string d.version
  have rmaterials : Reads (limit - 1) _ _ d.materials :=
    Dict.reads fun e he => Material.reads _ (hmaterials e he)
  have rtextures : Reads (limit - 1) _ _ d.textures :=
    Dict.reads fun e he => TextureSource.reads _ (htextures e he)
  have rlibrary : Reads (limit - 1) _ _ d.library :=
    Dict.reads fun e he => Assembly.reads _ (hlibrary e he)
  have rroot := Assembly.reads (limit - 1) hroot
  refine reads_record ?_ ?_ ?_ fun f hf => ?_
  · rfl
  · simp
  · simp [rversion.proper, rmaterials.proper, rtextures.proper, rlibrary.proper, rroot.proper]
  · rw [hf.required rversion (by simp), hf.withDefault rmaterials (by simp),
      hf.withDefault rtextures (by simp), hf.withDefault rlibrary (by simp),
      hf.required rroot (by simp)]
    rfl

end Document

end SolidTrace
