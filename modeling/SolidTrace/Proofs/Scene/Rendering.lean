import SolidTrace.Proofs.Compile.Expansion
import SolidTrace.Proofs.Scene.Picture
import SolidTrace.Proofs.Scene.Reach

/-!
Rendering is determined by the world and the settings.

Any number of workers may render a scene, and they may go on in any order. When they get through
without a failure, the frame holds the same picture; the rendering of the pool is one of these
cases. Nothing of the picture depends on the pool, the bands, the kernel or the frame before.
-/

namespace SolidTrace

variable {S : Type} [Scalar S]

/-- Workers who are let render a state, and get through in some order. -/
def SceneState.Renders (s : SceneState S) (count : ℕ) (c : Crew S) : Prop :=
  0 < count ∧ c.Done ∧ ∃ schedule, (Crew.start s (Command.render 0) count).run schedule = c

lemma SceneState.Renders.painted {s : SceneState S} (hs : s.Framed) {count : ℕ} {c : Crew S}
    (h : s.Renders count c) : s.Painted c.stores c.state := by
  obtain ⟨hcount, hdone, schedule, hrun⟩ := h
  obtain ⟨hstate, hperm, hdrawn⟩ := Crew.stores_perm hcount hrun hdone
  rw [hstate]
  exact painted_of_perm hs hperm hdrawn

lemma Scene.exists_renders {a b : Scene S} (ha : a.InShape) (h : a.render = (.ok (), b)) :
    ∃ c, a.state.Renders a.scheduler.pool.threads c ∧ c.state = b.state := by
  have hslices : SceneState.runner.slices (Command.render 0) a.scheduler.pool.threads
      (List.range a.scheduler.pool.threads) a.state = ([], b.state) := by
    unfold render at h
    rcases hd : a.scheduler.render a.state with ⟨e | u, scheduler, state⟩
    · rw [hd] at h
      cases congrArg Prod.fst h
    · rw [hd] at h
      have hstate : state = b.state := congrArg (fun r => r.2.state) h
      rcases ha.pool.dispatch (Command.render 0) a.state with ⟨hexit, -⟩ | hslices
      · cases hexit
      · rw [← hslices, Scheduler.dispatch_ok hd, hstate]
  obtain ⟨schedule, hdone, hstate⟩ := Crew.exists_run hslices
  exact ⟨_, ⟨ha.pool.threads_pos, hdone, schedule, rfl⟩, hstate⟩

/-- **A rendered frame depends on the world and the settings alone.** Workers of any number who get
through in any order have painted the picture; the workers of the pool are among them; and scenes
that look alike come to the same picture. -/
theorem render_determined {a : Scene S} (ha : a.Reached) :
    (∀ count c, a.state.Renders count c → a.state.Painted c.stores c.state) ∧
      (∀ b, a.render = (.ok (), b) →
        ∃ c, a.state.Renders a.scheduler.pool.threads c ∧ c.state = b.state) ∧
      ∀ b : Scene S, b.Reached → a.state.Alike b.state → ∀ m n c d, a.state.Renders m c →
        b.state.Renders n d →
          ∃ rows, c.state.picture.rows = .ok rows ∧ d.state.picture.rows = .ok rows := by
  have hshape := ha.inShape
  refine ⟨fun count c hc => hc.painted hshape.framed,
    fun b hb => Scene.exists_renders hshape hb, fun b hb halike m n c d hc hd => ?_⟩
  have hrows := (hd.painted hb.inShape.framed).rows hb.inShape.framed
  refine ⟨_, (hc.painted hshape.framed).rows hshape.framed, ?_⟩
  rw [hrows, halike.width, halike.height]
  simp only [halike.pixelWord]

namespace Room

def document : Document Float :=
  { Pair.copied with root := ⟨[Pair.camera], []⟩ }

/-- Two workers, and kernels of one width. -/
def platform : Platform Float :=
  ⟨Pair.allocator, PoolFactory.threaded, 2, ⟨[⟨1, 1⟩], Fsaa.all⟩, Registry.empty,
    fun _ => .error ""⟩

/-- Two rows of three pixels. -/
def spec : FrameSpec := ⟨3, 2, 1⟩

/-- Three workers in turn, the last one first. -/
def schedule : List ℕ := (List.replicate 4 [2, 1, 0]).flatten

end Room

/-- A room is rendered by the two workers of its pool, and then by three others. -/
theorem render_room : ∃ (a b : Scene Float) (c d : Crew Float),
    a.Reached ∧ b.Reached ∧ a.state.Alike b.state ∧ a.render = (.ok (), b) ∧
      a.state.Renders 2 c ∧ b.state.Renders 3 d ∧ a.state.Painted c.stores c.state ∧
      ∃ rows, c.state.picture.rows = .ok rows ∧ d.state.picture.rows = .ok rows := by
  have hchecked : (Scene.create Room.document Room.spec Room.platform).toOption.any (fun s =>
      s.scheduler.pool.threads == 2 && s.render.1.isOk &&
        decide ((Crew.start s.render.2.state (Command.render 0) 3).run Room.schedule).Done) =
      true := by
    decide +kernel
  rcases ha : Scene.create Room.document Room.spec Room.platform with e | a
  · rw [ha] at hchecked
    cases hchecked
  rw [ha] at hchecked
  simp only [Except.toOption, Option.any_some, Bool.and_eq_true, beq_iff_eq,
    decide_eq_true_eq] at hchecked
  obtain ⟨⟨hthreads, hok⟩, hdone⟩ := hchecked
  have hrender : a.render = (.ok (), a.render.2) := by
    rcases hr : a.render with ⟨e | u, b⟩
    · rw [hr] at hok
      cases hok
    · rfl
  have hreached : a.Reached := .created (.inr rfl) ha
  obtain ⟨hpainted, hpool, hsame⟩ := render_determined hreached
  obtain ⟨c, hc, hstate⟩ := hpool _ hrender
  rw [hthreads] at hc
  have hb : a.render.2.state = { a.state with frame := c.state.frame } :=
    hstate.symm.trans (hpainted 2 c hc).rest
  have halike : a.state.Alike a.render.2.state := by
    rw [hb]
    exact ⟨rfl, rfl, rfl, rfl, rfl, rfl, rfl⟩
  have hd : a.render.2.state.Renders 3 _ := ⟨by decide, hdone, Room.schedule, rfl⟩
  exact ⟨a, a.render.2, c, _, hreached, hreached.rendered, halike, hrender, hc, hd,
    hpainted 2 c hc, hsame _ hreached.rendered halike 2 3 c _ hc hd⟩

end SolidTrace
