import SolidTrace.Lanes.Substrate
import SolidTrace.Motion.Animator
import SolidTrace.Scene.State
import SolidTrace.Settings
import SolidTrace.Work.Pool

/-!
What a scene takes from its surroundings.
-/

namespace SolidTrace

structure Platform (S : Type) where
  allocator : Allocator
  pool : PoolFactory (SceneState S)
  threads : Nat
  substrate : Substrate
  registry : Registry S
  images : ImageSource

namespace Settings

/-- The number of workers on a machine with some processors. -/
def workers (s : Settings) (processors : Nat) : Nat :=
  if s.threads = 0 then max processors 1 else s.threads

def poolFactory {W : Type} (s : Settings) : PoolFactory W :=
  if s.singleThread then .inline else .threaded

/-- The platform with the allocator and the workers that settings ask for. -/
def applyTo {S : Type} (s : Settings) (processors : Nat) (p : Platform S) : Platform S :=
  { p with
    allocator := s.allocator.toAllocator
    pool := s.poolFactory
    threads := s.workers processors }

end Settings

end SolidTrace
