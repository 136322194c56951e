import SolidTrace.Proofs.Arena.WellFormed
import SolidTrace.Proofs.Compile.Invariant

/-!
Arenas in which every lookup finds something.

The texels of an image fill its sides when the source of images sees to it; an image without pixels
is refused when it is loaded. A compiled arena has no other images, so that whatever a face refers
to can be sampled.
-/

namespace SolidTrace

variable {S : Type}

/-- The texels fill an image that is not empty. -/
structure Image.Whole (i : Image) : Prop where
  width_pos : 0 < i.width
  height_pos : 0 < i.height
  size : i.texels.size = i.width * i.height

/-- An image that a texture keeps is whole. -/
def Texture.Whole (t : Texture S) : Prop := ∀ i, t = .image i → i.Whole

/-- All images of an arena are whole. -/
def Arena.Pictured (a : Arena S) : Prop :=
  ∀ (i : ℕ) (t : TextureNode S), a.textures[i]? = some t → t.texture.Whole

/-- All that tracing and shading look up is in the tables. -/
structure Arena.Complete (a : Arena S) : Prop where
  sound : a.Sound
  wellFormed : a.WellFormed
  pictured : a.Pictured

variable [Scalar S]

end SolidTrace
