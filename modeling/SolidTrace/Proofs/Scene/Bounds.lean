import SolidTrace.Proofs.Scene.Settled
import SolidTrace.Proofs.Surface.Crossings
import SolidTrace.Proofs.Tracing.Culling

/-!
Published boxes and the hits of rays.

In exact arithmetic, the box that is published for an array holds the world points of all crossings
with the surfaces that count for it, so that culling loses none of them. Left out are crossings that
only the slack of the clip test keeps: the boxes end at the clip box itself.
-/

namespace SolidTrace

open Extended

namespace SceneState

variable {s : SceneState Extended} {place : ℕ → Affine}

/-- All placements have real numbers only. -/
def IsReal (s : SceneState Extended) : Prop :=
  ∀ (o : ℕ) (x : ObjectState Extended), s.objects[o]? = some x → x.placement.IsReal

lemma IsReal.exists_maps (h : s.IsReal) :
    ∃ place : ℕ → Affine, ∀ o, s.placeAt o = (place o).transform := by
  have hplace : ∀ o, (s.placeAt o).IsAffine := by
    intro o
    unfold placeAt
    cases ho : s.objects[o]? with
    | none => exact Transform.isAffine_identity
    | some x => exact (h o x ho).isAffine
  choose place hplace using hplace
  exact ⟨place, hplace⟩

lemma worldFrom_eq (hplace : ∀ o, s.placeAt o = (place o).transform) (object : ℕ) :
    s.worldFrom object = (s.arena.worldMap place object).transform := by
  unfold worldFrom Arena.worldMap
  induction s.arena.ancestry object with
  | nil => exact Affine.transform_identity.symm
  | cons o l ih => rw [List.foldr_cons, List.foldr_cons, ih, hplace, Affine.transform_comp]

lemma encloses_boundsNow (hs : s.Settled) (ha : s.arena.WellFormed)
    (hplace : ∀ o, s.placeAt o = (place o).transform) {i : ℕ} {n : ArrayNode Extended}
    (hn : s.arena.arrays[i]? = some n) {v : Volume Extended}
    (hv : (s.arena.volumesUnder place)[i]? = some v) {q : Vec ℝ} (hq : v.bounds.Encloses q) :
    ∃ b, s.boundsNow[i]? = some b ∧ b.Encloses (s.arena.above place n.object q) := by
  have hvolume : s.arena.boundsOf s.placeAt n = v.bounds := by
    rw [Arena.volumesUnder, ← funext hplace, (Arena.tabulates_volumes ha).unique ha
      (Arena.tabulates_extentOf ha), Array.getElem?_mapIdx, hn] at hv
    exact congrArg Volume.bounds (Option.some.inj hv)
  refine ⟨s.boxNow v.bounds n, ?_, ?_⟩
  · rw [boundsNow, Array.getElem?_map, hn, Option.map_some, hvolume]
  · unfold boxNow
    cases ho : n.object with
    | none => exact hq
    | some o =>
      have hi : ¬i = Arena.root := by
        rw [← ha.object_eq_none_iff i n hn, ho]
        exact Option.some_ne_none o
      have hlt : o < s.objects.size := object_lt ha hs.populated (e := .array i)
        ⟨Nat.pos_of_ne_zero hi, Arena.lt_size_of_getElem? hn⟩
        (by rw [Arena.elementObject?, hn, Option.bind_some, ho])
      dsimp only
      rw [hs.placed o hlt, worldFrom_eq hplace]
      exact hq.transformed _

end SceneState

namespace Scene

/-- A ray with real numbers crosses a surface: the shape has real numbers and a definite extent, the
equation along the ray is not cut off, and the clip box keeps the crossing without slack. -/
structure Crosses (s : Scene Extended) (ray : Ray Extended) (surface : ℕ)
    (c : Extended × Vec Extended) : Prop where
  line : ∃ o d : Vec ℝ, ray.Starts o d
  shape : ∃ (n : SurfaceNode Extended) (shape : Shape ℝ),
    s.state.arena.surfaces[surface]? = some n ∧ n.shape = shape.real ∧ shape.Sturdy n.clip ∧
      n.clip.Spans c.2
  pose : ∃ (pose : Pose Extended) (tMax : Extended),
    s.state.snapshot.poses[surface]? = some (some pose) ∧ pose.Definite ray ∧
      c ∈ pose.candidates ray tMax

variable {s : Scene Extended} {ray : Ray Extended} {surface : ℕ} {c : Extended × Vec Extended}

lemma Founded.measures (h : s.Founded) {n : SurfaceNode Extended}
    (hn : s.state.arena.surfaces[surface]? = some n) :
    n.quadric = n.shape.quadric ∧ n.bounds = n.shape.localBounds n.clip := by
  obtain ⟨w, allocator, compiled, hc, heq⟩ := h.compiled
  rw [heq] at hn
  obtain ⟨o, spot, part, forced, path, trims, -, hstands⟩ := (compile_records hc).surface hn
  rw [hstands.quadric, hstands.bounds, hstands.shape]
  exact ⟨rfl, rfl⟩

lemma Crosses.reaches (h : s.Crosses ray surface c) (hf : s.Founded) (hs : s.Settled)
    {place : ℕ → Affine} (hplace : ∀ o, s.state.placeAt o = (place o).transform) :
    ∃ (o d : Vec ℝ) (t : ℝ), ray.Starts o d ∧ c.1 = .real t ∧ 0 ≤ t ∧
      s.state.arena.Reaches place (.surface surface) (o.along d t) := by
  obtain ⟨o, d, hray⟩ := h.line
  obtain ⟨n, shape, hn, hshape, hsturdy, hclip⟩ := h.shape
  obtain ⟨pose, tMax, hpose, hdef, hc⟩ := h.pose
  obtain ⟨hquadric, hbounds⟩ := hf.measures hn
  have hsize : surface < s.state.arena.surfaces.size := Arena.lt_size_of_getElem? hn
  have hobject : n.object < s.state.objects.size := by
    rw [hs.state.populated.objects]
    exact hf.wellFormed.object_lt (e := .surface surface) hsize
      (by rw [Arena.elementObject?, hn]; rfl)
  have hplaced : some (some pose) = some (Pose.place? shape.coefficients.real n.clip n.bounds
      (s.state.arena.worldMap place n.object).transform) := by
    rw [hs.snapshot] at hpose
    rw [← SceneState.worldFrom_eq hplace, ← hs.state.placed _ hobject, ← hpose,
      ← shape.quadric_real, ← hshape, ← hquadric]
    exact hs.state.posed surface (hs.state.populated.poses.symm ▸ hsize) n hn
  obtain ⟨t, v, rfl, ht, hform, hmeet⟩ :=
    Pose.exists_of_mem_candidates (Option.some.inj hplaced).symm hray hdef hc
  refine ⟨o, d, t, hray, rfl, ht, n.bounds, n.object, v, ?_, ?_, hmeet⟩
  · rw [Arena.elementBox?, hn]
    rfl
  · rw [hbounds, hshape]
    exact Shape.encloses_localBounds hsturdy hclip hform

/-- **The box of an array holds the crossings with all surfaces that count for it.** -/
theorem encloses_crossing (hf : s.Founded) (hs : s.Settled) (hreal : s.state.IsReal) {i k : ℕ}
    {n : ArrayNode Extended} (hn : s.state.arena.arrays[i]? = some n) {e : Element}
    (he : n.elements[k]? = some e) (hk : n.included[k]? = some true)
    (hunder : s.state.arena.Under e surface) (hc : s.Crosses ray surface c) :
    ∃ b, s.arrayBounds? i = some b ∧ b.Spans (ray.pointAt c.1) := by
  have ha := hf.wellFormed
  obtain ⟨place, hplace⟩ := hreal.exists_maps
  obtain ⟨o, d, t, hray, ht, -, hreaches⟩ := hc.reaches hf hs hplace
  have helement := hreaches.under ha hunder (ha.entry i n e hn (List.mem_of_getElem? he))
  obtain ⟨v, q, hv, hq, hpoint⟩ := helement.holds ha hn he hk
  obtain ⟨b, hb, hin⟩ := SceneState.encloses_boundsNow hs.state ha hplace hn hv (hq.2 rfl)
  refine ⟨b, ?_, ?_⟩
  · rw [arrayBounds?, hs.snapshot]
    exact hb
  · rw [ht, hray.moves.pointAt, ← hpoint]
    exact hin

/-- **Boxes hold what culling asks of them**, when all that survives is crossed. -/
theorem boxesHold (hf : s.Founded) (hs : s.Settled) (hreal : s.state.IsReal) {tMax : Extended}
    (hall : ∀ surface pose c, s.state.tracer.Survives ray tMax surface pose c →
      s.Crosses ray surface c) : s.state.tracer.BoxesHold ray tMax := by
  intro i n b hn _ hb k e he hk surface pose c hunder hsurvives
  have hc := hall surface pose c hsurvives
  obtain ⟨place, hplace⟩ := hreal.exists_maps
  obtain ⟨o, d, t, hray, ht, hpos, -⟩ := hc.reaches hf hs hplace
  obtain ⟨b', hb', hspans⟩ := encloses_crossing hf hs hreal hn he hk hunder hc
  obtain rfl : b' = b := Option.some.inj (hb'.symm.trans hb)
  rw [ht, hray.moves.pointAt] at hspans
  rw [ht]
  exact hray.meet? hspans hpos

/-- **After an update, boxes hold the crossings at the placements of the moment.** -/
theorem update_encloses {s' : Scene Extended} (h : s.Reached) {time : Int} {action : CameraAction}
    (hupdate : s.update time action = (.ok (), s')) (hreal : s'.state.IsReal) {i k : ℕ}
    {n : ArrayNode Extended} (hn : s'.state.arena.arrays[i]? = some n) {e : Element}
    (he : n.elements[k]? = some e) (hk : n.included[k]? = some true)
    (hunder : s'.state.arena.Under e surface) (hc : s'.Crosses ray surface c) :
    ∃ b, s'.arrayBounds? i = some b ∧ b.Spans (ray.pointAt c.1) := by
  have hreached : s'.Reached := by
    have hnext := h.updated time action
    rwa [hupdate] at hnext
  have hsettled := settled_update h.inShape.pool h.founded.wellFormed h.founded.populated hupdate
  exact encloses_crossing hreached.founded hsettled hreal hn he hk hunder hc

end Scene

/-- The slack of the clip test keeps a crossing with a plane that is outside of the box. -/
example :
    let clip : Box Float := ⟨Vec.splat (-1), Vec.splat 1⟩
    let pose : Pose Float := ⟨Shape.plane.quadric, clip, Transform.identity, Transform.identity,
      Shape.plane.localBounds clip⟩
    let ray : Ray Float := Ray.through ⟨1.00000000075, 0, 5⟩ ⟨0, 0, -1⟩
    (pose.candidates ray Scalar.infinity).any fun c =>
      !pose.worldBounds.containsPoint (ray.pointAt c.1) 0 := by
  decide +kernel

end SolidTrace
