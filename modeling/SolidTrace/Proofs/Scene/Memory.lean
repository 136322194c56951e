import SolidTrace.Proofs.Compile.Account
import SolidTrace.Proofs.Scene.History
import SolidTrace.Proofs.Scene.Rendering
import SolidTrace.Proofs.Scene.Settled

/-!
The memory of scenes.

A scene adds the buffer of its frame to what was compiled and keeps the ledger as long as it lives.
Where setting it up fails, on the walk or after it, the allocator has everything back.
-/

namespace SolidTrace

namespace Scene

variable {S : Type} [Scalar S] {spec : FrameSpec} {p : Platform S}

/-- Assembling goes on with the account of what was compiled, or closes it. It always gets as far as
the workers, since a well-formed arena can be settled. -/
lemma assemble_accounts {before allocator : Allocator} {c : Compiled S}
    (h : c.ledger.Accounts before allocator) (hwell : c.arena.WellFormed) :
    (∀ s, assemble c spec p allocator = .ok s → s.ledger.Accounts before s.allocator) ∧
      ∀ r, assemble c spec p allocator = .error r →
        r.allocator.allocated = before.allocated := by
  unfold assemble
  rcases p.substrate.negotiate LaneConfig.automatic with e | config
  · refine ⟨nofun, ?_⟩
    rintro _ ⟨⟩
    exact h.release
  rcases ha : c.ledger.acquire allocator "frame buffer" Layout.pixel spec.reserved with
    ⟨shortage | ledger, allocator'⟩
  · refine ⟨nofun, ?_⟩
    rintro _ ⟨⟩
    exact (h.acquire_error ha).release
  have hledger := h.acquire_ok ha
  obtain ⟨state, hstate, -⟩ := SceneState.settled_settle
    (s := SceneState.initial c.arena spec (Kernel.select config)) hwell (populated_initial ..)
  dsimp only [bind, Except.bind, pure, Except.pure]
  rw [hstate]
  rcases p.pool (max p.threads 1) SceneState.runner with e | pool
  · refine ⟨nofun, ?_⟩
    rintro _ ⟨⟩
    exact hledger.release
  · refine ⟨?_, nofun⟩
    rintro _ ⟨⟩
    exact hledger

lemma create_accounts {document : Document S} (h : p.allocator.Sound) :
    (∀ s, create document spec p = .ok s → s.ledger.Accounts p.allocator s.allocator) ∧
      ∀ r, create document spec p = .error r →
        r.allocator.allocated = p.allocator.allocated := by
  unfold create
  split
  · refine ⟨nofun, ?_⟩
    rintro _ ⟨⟩
    rfl
  · split
    · next e allocator hc =>
      have hrestored := compile_restores h (congrArg Prod.fst hc)
      rw [hc] at hrestored
      refine ⟨nofun, ?_⟩
      rintro _ ⟨⟩
      exact hrestored
    · next c allocator hc =>
      have haccounts := compile_accounts h (congrArg Prod.fst hc)
      rw [hc] at haccounts
      have hok := congrArg Prod.fst hc
      exact assemble_accounts haccounts ((compile_records hok).wellFormed (compile_supplied hok))

end Scene

/-- **Construction never leaks and accounts exactly.** On an allocator that can be reached, a
compilation that fails, and a scene that is not set up, leave the balance as it was; a compilation
that succeeds raises it by the bytes of its ledger. Whatever is asked of a scene, the balance stays
above the one before by the bytes that the scene reports, and is the one before when the scene
ends. -/
theorem balance_restored {S : Type} [Scalar S] (document : Document S) (spec : FrameSpec)
    (p : Platform S) (h : p.allocator.Reachable) :
    (∀ e allocator, compile ⟨document, p.registry, p.images⟩ p.allocator = (.error e, allocator) →
        allocator.allocated = p.allocator.allocated) ∧
      (∀ c allocator, compile ⟨document, p.registry, p.images⟩ p.allocator = (.ok c, allocator) →
        allocator.allocated = p.allocator.allocated + c.ledger.bytes) ∧
      (∀ refusal, Scene.create document spec p = .error refusal →
        refusal.allocator.allocated = p.allocator.allocated) ∧
      ∀ s, Scene.create document spec p = .ok s → ∀ history,
        (s.after history).allocated = p.allocator.allocated + (s.after history).stats.bytes ∧
          (s.after history).release.allocated = p.allocator.allocated := by
  have hsound := h.sound
  refine ⟨fun e allocator hc => ?_, fun c allocator hc => ?_, (Scene.create_accounts hsound).2,
    fun s hs history => ?_⟩
  · have hrestored := compile_restores hsound (congrArg Prod.fst hc)
    rwa [hc] at hrestored
  · have haccounts := compile_accounts hsound (congrArg Prod.fst hc)
    rw [hc] at haccounts
    exact haccounts.balance
  · have haccounts := (Scene.create_accounts hsound).1 s hs
    obtain ⟨hledger, hallocator⟩ := s.after_memory history
    rw [← hledger, ← hallocator] at haccounts
    exact ⟨haccounts.balance, haccounts.release⟩

namespace Room

/-- A region in which others have an empty buffer and one of eight bytes. -/
def shared : Allocator :=
  (((Allocator.region (.ofCapacity 4096 65536)).allocate 0 8).2.allocate 8 8).2

/-- The platform of a room with its memory in the shared region. -/
def crowded : Platform Float := { platform with allocator := shared }

/-- One on which no worker is started. -/
def unmanned : Platform Float := { crowded with pool := .failing "no threads" }

def visit : List Operation := [.update 40 .forward, .render]

end Room

/-- A room is set up in a shared region, moved, rendered and given back; without workers it is not
set up. -/
theorem balance_restored_room :
    Room.shared.Reachable ∧ Room.shared.allocated = 8 ∧
      (∃ s, Scene.create Room.document Room.spec Room.crowded = .ok s ∧
        (s.after Room.visit).allocated = 8 + (s.after Room.visit).stats.bytes ∧
          (s.after Room.visit).release.allocated = 8) ∧
      ∃ refusal, Scene.create Room.document Room.spec Room.unmanned = .error refusal ∧
        refusal.allocator.allocated = 8 := by
  have hreachable : Room.shared.Reachable :=
    ((Allocator.Reachable.region 4096 65536).allocated 0 8).allocated 8 8
  have hbytes : Room.shared.allocated = 8 := by decide +kernel
  have hset : (Scene.create Room.document Room.spec Room.crowded).isOk = true := by decide +kernel
  have hrefused : (Scene.create Room.document Room.spec Room.unmanned).isOk = false := by
    decide +kernel
  refine ⟨hreachable, hbytes, ?_, ?_⟩
  · rcases hs : Scene.create Room.document Room.spec Room.crowded with e | s
    · rw [hs] at hset
      cases hset
    · have hbalance := (balance_restored _ _ Room.crowded hreachable).2.2.2 s hs Room.visit
      rw [show Room.crowded.allocator.allocated = 8 from hbytes] at hbalance
      exact ⟨s, rfl, hbalance⟩
  · rcases hr : Scene.create Room.document Room.spec Room.unmanned with refusal | s
    · have hbalance := (balance_restored _ _ Room.unmanned hreachable).2.2.1 refusal hr
      exact ⟨refusal, rfl, hbalance.trans hbytes⟩
    · rw [hr] at hrefused
      cases hrefused

end SolidTrace
