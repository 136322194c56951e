import Mathlib.Tactic.Common
import SolidTrace.Proofs.Arena.Complete
import SolidTrace.Proofs.Tracing.Culling
import SolidTrace.Tracing.Shade

/-!
Shading never misses.

A hit is always one on a surface of the arena. Its faces have materials, these have textures, and
the texels of an image fill its sides, so that every coordinate falls on one of them. Shading
follows light over a bounded number of mirrors; by induction on that number a colour comes of every
ray. One thing can come in between, and only where arithmetic is checked: the squares of a pattern
are told apart by a sum, which may leave its 64 bits.
-/

namespace SolidTrace

variable {S : Type}

section

variable [Scalar S]

/-- It fails in checked arithmetic only, and by an overflow. -/
def OnlyOverflows (S : Type) [Scalar S] {α : Type} (x : Except Fault α) : Prop :=
  ∀ f, x = .error f → Scalar.checked S = true ∧ f = .overflow

namespace OnlyOverflows

variable {α β : Type} {x : Except Fault α}

lemma ok (a : α) : OnlyOverflows S (.ok a) := nofun

lemma bind {f : α → Except Fault β} (hx : OnlyOverflows S x)
    (hf : ∀ a, x = .ok a → OnlyOverflows S (f a)) : OnlyOverflows S (x >>= f) := by
  cases x with
  | error e => exact fun e' he' => hx e' (congrArg _ (Except.error.inj he'))
  | ok a => exact hf a rfl

lemma mapM {f : α → Except Fault β} {l : List α} (h : ∀ a ∈ l, OnlyOverflows S (f a)) :
    OnlyOverflows S (l.mapM f) := by
  intro e he
  obtain ⟨a, ha, hfail⟩ := exists_of_mapM_eq_error he
  exact h a ha e hfail

lemma addWhole (a b : Int) : OnlyOverflows S (Scalar.addWhole S a b) := by
  intro f h
  unfold Scalar.addWhole at h
  dsimp only at h
  split at h
  · next hover => exact ⟨hover.1, (Except.error.inj h).symm⟩
  · cases h

end OnlyOverflows

/-- Where arithmetic is not checked, sums wrap around. -/
example : Scalar.addWhole Float (2 ^ 63 - 1) (2 ^ 63 - 1) = .ok (-2) := by decide

lemma Texture.texelIndex_lt (coordinate : S) {side : ℕ} (h : 0 < side) :
    texelIndex coordinate side < side := by
  unfold texelIndex
  omega

/-- **Every coordinate has a colour**, but for the sum of a pattern of squares. -/
lemma Texture.Whole.onlyOverflows_sample {t : Texture S} (h : t.Whole) (p : Vec2 S) :
    OnlyOverflows S (t.sample p) := by
  cases t with
  | color c => exact .ok c
  | checker a b scale => exact .bind (.addWhole _ _) fun _ _ => .ok _
  | image i =>
    obtain ⟨hwidth, hheight, hsize⟩ := h i rfl
    have hx := texelIndex_lt p.x hwidth
    have hy := texelIndex_lt p.y hheight
    have hlast : (texelIndex p.y i.height + 1) * i.width ≤ i.height * i.width :=
      Nat.mul_le_mul_right _ hy
    have hlt : texelIndex p.y i.height * i.width + texelIndex p.x i.width < i.texels.size := by
      rw [hsize, Nat.mul_comm i.width]
      rw [Nat.succ_mul] at hlast
      omega
    dsimp only [sample]
    rw [fetch_eq_ok (Array.getElem?_eq_getElem hlt)]
    exact .ok _

namespace Tracer

variable {t : Tracer S} {ray : Ray S} {tMax : S}

/-- The best hit so far is on a surface of the arena. -/
def Hits (t : Tracer S) (best : Option (Hit S)) : Prop :=
  ∀ hit, best = some hit → hit.surface < t.arena.surfaces.size

lemma hits_closest (limit : S) (s : ℕ) : t.Hits (t.closest? ray limit s) := by
  intro hit hhit
  unfold closest? at hhit
  split at hhit
  · next pose n hp hn =>
    obtain ⟨c, -, rfl⟩ := Option.map_eq_some_iff.mp hhit
    exact Arena.lt_size_of_getElem? hn
  · cases hhit

lemma hits_look {s : Search S} (h : t.Hits s.best) (e : Element) :
    t.Hits (t.look ray tMax s e).best := by
  cases e with
  | surface id =>
    rcases hc : t.closest? ray (s.limit tMax) id with _ | hit
    · rwa [look_of_eq_none hc]
    · rw [look_of_eq_some hc]
      exact hc ▸ hits_closest (s.limit tMax) id
  | array id => exact h
  | camera id => exact h
  | light id => exact h

lemma hits_foldl_look {s : Search S} (h : t.Hits s.best) (l : List Element) :
    t.Hits (l.foldl (t.look ray tMax) s).best := by
  induction l generalizing s with
  | nil => exact h
  | cons e l ih => exact ih (hits_look h e)

lemma hits_advance {s : Search S} (h : t.Hits s.best) : t.Hits (t.advance ray tMax s).best := by
  unfold advance
  split
  · exact h
  · next rest _ =>
    split
    · exact h
    · exact hits_foldl_look (s := { s with stack := rest }) h _

lemma hits_drain {s : Search S} (h : t.Hits s.best) (count : ℕ) :
    t.Hits (t.drain ray tMax count s).best := by
  induction count generalizing s with
  | zero => exact h
  | succ count ih =>
    unfold drain
    split
    · exact h
    · exact ih (hits_advance h)

variable (hf : t.snapshot.Fits t.arena) (ha : t.arena.Complete)

include hf ha

/-- **Every search ends**, and what it finds is a surface of the arena. -/
lemma exists_nearest (ray : Ray S) (tMax : S) :
    ∃ best, t.nearest ray tMax = .ok best ∧ t.Hits best := by
  have hnone : t.Hits none := fun hit h => by cases h
  exact ⟨_, nearest_eq hf ha.sound, hits_drain hnone _⟩

lemma exists_lit (p : Shaded S) (l : LightView S) : ∃ light, t.lit p l = .ok light := by
  unfold lit
  dsimp only
  split
  · exact ⟨none, rfl⟩
  split
  · exact ⟨none, rfl⟩
  split
  · exact ⟨none, rfl⟩
  split
  · obtain ⟨best, hbest, -⟩ := exists_nearest hf ha (Ray.through p.origin
      ((l.position - p.hit.point).map (· / (l.position - p.hit.point).norm)))
      (l.position - p.hit.point).norm
    rw [hbest, ok_bind]
    split
    · exact ⟨none, rfl⟩
    · exact ⟨_, rfl⟩
  · exact ⟨_, rfl⟩

lemma exists_addLights (p : Shaded S) (color : Tint S) (l : List (LightView S)) :
    ∃ sum, t.addLights p color l = .ok sum := by
  induction l generalizing color with
  | nil => exact ⟨color, rfl⟩
  | cons light l ih =>
    obtain ⟨added, hadded⟩ := exists_lit hf ha p light
    unfold addLights
    rw [hadded, ok_bind]
    exact ih _

lemma exists_underLights (camera : Camera S) (p : Shaded S) :
    ∃ color, t.underLights camera p = .ok color := exists_addLights hf ha p _ _

omit hf in
lemma onlyOverflows_shaded (ray : Ray S) {hit : Hit S} (h : hit.surface < t.arena.surfaces.size) :
    OnlyOverflows S (t.shaded ray hit) := by
  have hsurface := Array.getElem?_eq_getElem h
  obtain ⟨houter, hinner⟩ := ha.wellFormed.material _ _ hsurface
  have hface : ∀ face : FaceNode S, face.material < t.arena.materials.size → OnlyOverflows S (do
      let material ← fetch t.arena.materials face.material
      let texture ← fetch t.arena.textures material.texture
      let color ← texture.texture.sample
        (face.mapping.apply (t.arena.surfaces[hit.surface].shape.textureCoordinates hit.place))
      return ⟨hit, -ray.direction, hit.point + hit.normal.scale surfaceBias, Tint.ofColor color,
        material⟩ : Except Fault (Shaded S)) := by
    intro face hmaterial
    have hm := Array.getElem?_eq_getElem hmaterial
    have htexture := Array.getElem?_eq_getElem (ha.wellFormed.texture _ _ hm)
    rw [fetch_eq_ok hm, ok_bind, fetch_eq_ok htexture, ok_bind]
    exact .bind ((ha.pictured _ _ htexture).onlyOverflows_sample _) fun _ _ => .ok _
  unfold shaded
  rw [fetch_eq_ok hsurface, ok_bind]
  cases hit.side with
  | outer => exact hface _ houter
  | inner => exact hface _ hinner

/-- A ray has a colour when the rays that are mirrored once less have one. -/
lemma onlyOverflows_shade_of (camera : Camera S) (ray : Ray S) {bounces : ℕ}
    (hmirror : ∀ fewer, bounces = fewer + 1 → ∀ mirrored : Ray S,
      OnlyOverflows S (t.shade camera mirrored fewer)) :
    OnlyOverflows S (t.shade camera ray bounces) := by
  obtain ⟨best, hbest, hhits⟩ := exists_nearest hf ha ray Scalar.infinity
  unfold shade
  rw [hbest, ok_bind]
  cases best with
  | none => exact .ok _
  | some hit =>
    refine .bind (onlyOverflows_shaded ha ray (hhits hit rfl)) fun p _ => ?_
    obtain ⟨color, hcolor⟩ := exists_underLights hf ha camera p
    split
    · exact .ok _
    · rw [hcolor]
      exact .ok _
    · rw [hcolor, ok_bind]
      cases bounces with
      | zero => exact .ok _
      | succ fewer =>
        dsimp only
        split
        · exact .bind (hmirror fewer rfl _) fun _ _ => .ok _
        · exact .ok _

/-- **Every ray has a colour**, over any number of mirrors, but for the sum of a pattern. -/
theorem onlyOverflows_shade (camera : Camera S) (ray : Ray S) (bounces : ℕ) :
    OnlyOverflows S (t.shade camera ray bounces) := by
  induction bounces generalizing ray with
  | zero => exact onlyOverflows_shade_of hf ha camera ray nofun
  | succ bounces ih =>
    refine onlyOverflows_shade_of hf ha camera ray fun fewer hfewer mirrored => ?_
    obtain rfl := Nat.succ.inj hfewer
    exact ih mirrored

lemma onlyOverflows_sample (view : CameraView S) (px py : S) (width height : ℕ) :
    OnlyOverflows S (t.sample view px py width height) :=
  .bind (onlyOverflows_shade hf ha view.camera _ maxBounces) fun _ _ => .ok _

end Tracer

end

end SolidTrace
