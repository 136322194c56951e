import SolidTrace.Document.Read
import SolidTrace.Json.Print

/-!
Scene documents as JSON.

Every field is written, absent values as `null`.
-/

namespace SolidTrace

namespace Json

/-- A number; JSON has none that is not finite. -/
def ofDouble (x : Float) : Json := if x.isFinite then .number (Numeral.ofDouble x) else .null

def ofInt (i : Int) : Json := .number (Numeral.ofInt i)

def ofWord (w : UInt32) : Json := ofInt w.toNat

def ofString (s : String) : Json := .string (some s)

def ofOption {α : Type} (f : α → Json) : Option α → Json
  | none => .null
  | some a => f a

def record (members : List (String × Json)) : Json :=
  .object (members.map fun m => (some m.1, m.2))

end Json

open Json

def Vec.write (v : Vec Float) : Json :=
  record [("x", ofDouble v.x), ("y", ofDouble v.y), ("z", ofDouble v.z)]

def Vec2.write (v : Vec2 Float) : Json := record [("x", ofDouble v.x), ("y", ofDouble v.y)]

def Placement.write (p : Placement Float) : Json :=
  record [("scale", p.scale.write), ("rotation", p.rotation.write), ("position", p.position.write)]

def Mapping.write (m : Mapping Float) : Json :=
  record [("scale", m.scale.write), ("rotation", ofDouble m.rotation),
    ("position", m.position.write)]

def Box.write (b : Box Float) : Json := record [("min", b.min.write), ("max", b.max.write)]

def Axis.write : Axis → Json
  | x => ofString "x"
  | y => ofString "y"
  | z => ofString "z"

def Shape.write : Shape Float → Json
  | plane => record [("type", ofString "Plane")]
  | sphere r => record [("type", ofString "Sphere"), ("radius", ofDouble r)]
  | cylinder r => record [("type", ofString "Cylinder"), ("radius", ofDouble r)]
  | cone r => record [("type", ofString "Cone"), ("ratio", ofDouble r)]
  | paraboloid f => record [("type", ofString "Paraboloid"), ("focal", ofDouble f)]
  | hyperboloid r w =>
    record [("type", ofString "Hyperboloid"), ("ratio", ofDouble r), ("waist", ofDouble w)]
  | paraCylinder f => record [("type", ofString "ParaCylinder"), ("focal", ofDouble f)]
  | hyperCylinder r w =>
    record [("type", ofString "HyperCylinder"), ("ratio", ofDouble r), ("waist", ofDouble w)]
  | hyperParaboloid f => record [("type", ofString "HyperParaboloid"), ("focal", ofDouble f)]

def Face.write (f : Face Float) : Json :=
  record [("map", f.mapping.write), ("material", ofString f.material)]

/-- The fields of a surface. -/
def Surface.fields (s : Surface Float) : List (String × Json) :=
  [("kind", s.shape.write), ("clip", s.clip.write), ("outer", s.outer.write),
    ("inner", s.inner.write)]

def Finish.write : Finish → Json
  | plain => ofString "plain"
  | light => ofString "light"
  | metal => ofString "metal"

def Material.write (m : Material Float) : Json :=
  record [("tag", m.finish.write), ("texture", ofString m.texture),
    ("props", .array [ofDouble m.diffuse, ofDouble m.specular, ofDouble m.power]),
    ("optics", .array [ofDouble m.reflect, ofDouble m.transmit, ofDouble m.refract]),
    ("ior", ofOption ofDouble m.ior), ("exponent", ofOption ofDouble m.exponent)]

def TextureSource.write : TextureSource Float → Json
  | color rgb => record [("type", ofString "Color"), ("rgb", ofWord rgb)]
  | checker a b scale =>
    record [("type", ofString "Checker"), ("a", ofWord a), ("b", ofWord b),
      ("scale", ofDouble scale)]
  | image path => record [("type", ofString "Image"), ("path", ofString path)]

/-- The fields of a camera. -/
def Camera.fields (c : Camera Float) : List (String × Json) :=
  [("color", ofWord c.color), ("intensity", ofDouble c.intensity), ("pov", ofDouble c.pov),
    ("dps", c.speed.write), ("drot", c.turning.write)]

def Attenuation.write (a : Attenuation Float) : Json :=
  .array [ofDouble a.range, ofDouble a.constant, ofDouble a.linear, ofDouble a.quadratic]

/-- The fields of a light. -/
def Light.fields (l : Light Float) : List (String × Json) :=
  [("color", ofWord l.color), ("ambient", ofDouble l.ambient), ("source", ofDouble l.source),
    ("attenuation", l.attenuation.write)]

def Relation.Op.write : Relation.Op → Json
  | minusOuter => ofString "MINUS_OUTER"
  | minusInner => ofString "MINUS_INNER"
  | minusAccum => ofString "MINUS_ACCUM"
  | indexArray => ofString "INDEX_ARRAY"
  | boundArray => ofString "BOUND_ARRAY"
  | untieArray => ofString "UNTIE_ARRAY"
  | boundIndex => ofString "BOUND_INDEX"
  | untieIndex => ofString "UNTIE_INDEX"

def Relation.write (r : Relation) : Json :=
  record [("target", ofInt r.target), ("op", r.op.write), ("operand", ofInt r.operand)]

def Animation.write : Animation Float → Json
  | spin axis rate =>
    record [("type", ofString "Spin"), ("axis", axis.write), ("degrees_per_second", ofDouble rate)]
  | bob axis amplitude period =>
    record [("type", ofString "Bob"), ("axis", axis.write), ("amplitude", ofDouble amplitude),
      ("period_ms", ofDouble period)]
  | custom name => record [("type", ofString "Custom"), ("name", ofString name)]

def Override.write (o : Override) : Json :=
  record [("outer", ofString o.outer), ("inner", ofString o.inner)]

/-- A part with the given header and kind. -/
def Header.write (h : Header Float) (kind : Json) : Json :=
  record [("name", ofOption ofString h.name), ("transform", h.placement.write), ("kind", kind),
    ("materials", ofOption Override.write h.materials),
    ("animator", ofOption Animation.write h.animation), ("time", ofInt h.time)]

/-- The fields of an array with its parts already written. -/
def Assembly.fieldsOf (parts : List Json) (relations : List Relation) : List (String × Json) :=
  [("objects", .array parts), ("relations", .array (relations.map Relation.write))]

namespace Part

mutual

def write : Part Float → Json
  | camera h c => h.write (record (("type", ofString "Camera") :: c.fields))
  | light h l => h.write (record (("type", ofString "Light") :: l.fields))
  | surface h s => h.write (record (("type", ofString "Surface") :: s.fields))
  | assembly h parts relations =>
    h.write (record (("type", ofString "Array") ::
      Assembly.fieldsOf (writeAll parts) relations))
  | copy h name => h.write (record [("type", ofString "Instance"), ("array", ofString name)])

def writeAll : List (Part Float) → List Json
  | [] => []
  | p :: rest => p.write :: writeAll rest

end

end Part

def Assembly.write (a : Assembly Float) : Json :=
  record (fieldsOf (Part.writeAll a.parts) a.relations)

def Dict.write {α : Type} (f : α → Json) (d : Dict α) : Json :=
  record (d.entries.map fun e => (e.1, f e.2))

def Document.write (d : Document Float) : Json :=
  record [("version", ofString d.version), ("materials", d.materials.write Material.write),
    ("textures", d.textures.write TextureSource.write), ("arrays", d.library.write Assembly.write),
    ("root", d.root.write)]

/-- The text of a document. -/
def Document.text (d : Document Float) : String := d.write.print

end SolidTrace
