import SolidTrace.Proofs.Document.Reading

/-!
Documents survive being written and read.

`Document.parse?_text` reads the text of a document, and every text with the same members in another
order.
-/

namespace SolidTrace

open Json

namespace Document

/-- **A document is read again from its text**, and from every text in which members of objects,
tags among them, stand in another order. Its numbers must be such as are read again, and it must not
nest deeper than values may. -/
theorem parse?_text {d : Document Float} (h : ∀ q ∈ d.quantities, q.Legible)
    (hheight : d.write.height ≤ nestingLimit) :
    parse? d.text = some d ∧ ∀ v, d.write.Reordered v →
      parse? v.print = some d ∧ ∀ text, Json.parse? text = some v → parse? text = some d := by
  have hreads := reads nestingLimit h
  have hvalue : ∀ v, d.write.Reordered v → ∀ text, Json.parse? text = some v →
      parse? text = some d := fun v hv text htext => by
    rw [parse?, htext, Option.bind_some]
    exact hreads.read .outermost v hv hheight le_rfl
  have hprint : ∀ v, d.write.Reordered v → parse? v.print = some d := fun v hv =>
    hvalue v hv _ (parse?_print (hv.proper hreads.proper))
  exact ⟨hprint d.write (.refl _), fun v hv => ⟨hprint v hv, hvalue v hv⟩⟩

/-- A document with every kind of part, and with values that may be absent. -/
def sample : Document Float where
  version := "0.1"
  materials := Dict.ofList [
    ("mirror", ⟨.metal, "grid", 0.5, 0.5, 8, 0.75, 0, 0, none, some 16⟩),
    ("glass", ⟨.plain, "red", 0.25, 0, 1, 0, 0.75, 1, some 1.5, none⟩)]
  textures := Dict.ofList [("red", .color 0xFF0000), ("grid", .checker 0 0xFFFFFF 2),
    ("wood", .image "wood.png")]
  library := Dict.ofList [("pair", ⟨[surface, .surface header
    ⟨.hyperboloid 0.5 1, ⟨⟨-1, -2, -3⟩, ⟨1, 2, 3⟩⟩, face, face⟩], [⟨0, .minusOuter, 1⟩]⟩)]
  root := ⟨[.camera { header with name := some "eye", time := -40 } ⟨0xFFFFFF, 0.125, 1,
      Camera.defaultSpeed, Camera.defaultTurning⟩,
    .light { header with animation := some (.bob .y 0.5 2000) } ⟨0xFFFF, 0, 30, Attenuation.flat⟩,
    .copy { header with materials := some ⟨"mirror", "glass"⟩ } "pair",
    .assembly { header with animation := some (.spin .z 90) } [surface]
      [⟨-1, .untieArray, -1⟩]], []⟩
where
  header : Header Float := ⟨none, Placement.identity, none, none, 0⟩
  face : Face Float := ⟨Mapping.identity, "glass"⟩
  surface : Part Float := .surface header ⟨.sphere 1, Surface.noClip, face, face⟩

theorem sample_parse?_text :
    (∀ q ∈ sample.quantities, q.Legible) ∧ sample.write.height ≤ nestingLimit ∧
      parse? sample.text = some sample ∧ ∀ v, sample.write.Reordered v →
        parse? v.print = some sample ∧
          ∀ text, Json.parse? text = some v → parse? text = some sample := by
  have hlegible : ∀ q ∈ sample.quantities, q.Legible := by decide +kernel
  have hheight : sample.write.height ≤ nestingLimit := by decide +kernel
  exact ⟨hlegible, hheight, parse?_text hlegible hheight⟩

end Document

end SolidTrace
