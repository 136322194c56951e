import SolidTrace.Proofs.Compile.Invariant
import SolidTrace.Proofs.Memory.Balance

/-!
What construction takes.

Wherever a construction ends, the ledger accounts for all that has been taken from the allocator so
far. A compilation that fails can therefore give everything back.
-/

namespace SolidTrace

variable {S : Type}

/-- The ledger accounts for what has been taken since the start of construction. -/
def Builder.Accounted (start : Allocator) (b : Builder S) : Prop :=
  b.ledger.Accounts start b.allocator

namespace Build

variable {start : Allocator}

/-- Taking a buffer keeps the account, whether the allocator has it or not. -/
lemma acquire_accounted (label : String) (layout : Layout) (count : ℕ) :
    Keeps (Builder.Accounted (S := S) start) (acquire label layout count) := by
  intro b hb
  rcases ha : b.ledger.acquire b.allocator label layout count with ⟨shortage | ledger, allocator⟩
  · have hleft : (acquire label layout count).left b = { b with allocator } := by
      simp [left, acquire, ha]
    rw [hleft]
    exact Ledger.Accounts.acquire_error hb ha
  · have hleft : (acquire label layout count).left b = { b with ledger, allocator } := by
      simp [left, acquire, ha]
    rw [hleft]
    exact Ledger.Accounts.acquire_ok hb ha

/-- **Construction keeps the account** from beginning to end. -/
lemma invariant_accounted [Scalar S] (w : Workshop S) :
    Invariant w (Builder.Accounted (S := S) start) where
  acquire := acquire_accounted
  object _ _ _ hb := hb
  texture _ _ _ _ hb := hb
  tables _ _ _ _ hb := hb

end Build

variable [Scalar S] {w : Workshop S} {allocator : Allocator}

lemma document_accounted (h : allocator.Sound) :
    (Build.left (Build.document w) ⟨Arena.empty, .empty, allocator⟩).Accounted allocator :=
  (Build.invariant_accounted w).document _ (Ledger.accounts_empty h)

/-- **What is compiled has an account** of all that was taken for it. -/
theorem compile_accounts {c : Compiled S} (h : allocator.Sound)
    (hc : (compile w allocator).1 = .ok c) :
    c.ledger.Accounts allocator (compile w allocator).2 := by
  have hleft := document_accounted (w := w) h
  unfold compile at hc ⊢
  split at hc
  · next b hb =>
    rw [Build.left_of_ok hb] at hleft
    cases hc
    exact hleft
  · cases hc

/-- **A compilation that fails gives everything back**, wherever in the document it fails. -/
theorem compile_restores {e : CompileError S} (h : allocator.Sound)
    (hc : (compile w allocator).1 = .error e) :
    (compile w allocator).2.allocated = allocator.allocated := by
  have hleft := document_accounted (w := w) h
  unfold compile at hc ⊢
  split at hc
  · cases hc
  · next e' b hb =>
    rw [Build.left_of_error hb] at hleft
    exact hleft.release

end SolidTrace
