import Mathlib.Algebra.Ring.Nat
import Mathlib.Data.List.Basic
import Mathlib.Data.List.Induction
import Mathlib.Logic.Function.Basic
import Mathlib.Order.Lattice
import SolidTrace.Work.Pool

/-!
Scripted slices, and what a pool makes of a row of commands.

A script tells what a slice comes to from its number, the command and the commands that the slice
has had before: nothing that other slices do matters. On such slices the order of the workers
cannot show, so that the slices in turn, one after the other, say what any pool has to return.
-/

namespace SolidTrace

lemma CommandKind.ofCode_code (k : CommandKind) : CommandKind.ofCode k.code = k := by
  cases k <;> rfl

lemma CommandKind.code_lt (k : CommandKind) : k.code.toNat < 4 := by
  cases k <;> decide

namespace Command

/-- The command is work: it does not tell the workers to leave. -/
def IsWork (c : Command) : Prop := c.kind ≠ .exit

instance : DecidablePred IsWork := fun c => inferInstanceAs (Decidable (c.kind ≠ .exit))

lemma toNat_pack (c : Command) : c.pack.toNat = c.kind.code.toNat * 2 ^ 16 + c.phase.toNat := by
  have hcode := CommandKind.code_lt c.kind
  have hphase : c.phase.toNat < 2 ^ 16 := c.phase.toNat_lt
  have hword : c.kind.code.toNat <<< 16 % 2 ^ 32 = c.kind.code.toNat <<< 16 := by
    rw [Nat.shiftLeft_eq, Nat.mod_eq_of_lt (by omega)]
  rw [pack, UInt32.toNat_or, UInt32.toNat_shiftLeft, UInt16.toNat_toUInt32]
  change c.kind.code.toNat <<< 16 % 2 ^ 32 ||| c.phase.toNat = _
  rw [hword, ← Nat.shiftLeft_add_eq_or_of_lt hphase, Nat.shiftLeft_eq]

lemma unpack_pack (c : Command) : unpack c.pack = c := by
  have hphase : c.phase.toNat < 2 ^ 16 := c.phase.toNat_lt
  have hkind : c.pack >>> 16 = c.kind.code := by
    apply UInt32.toNat_inj.1
    rw [UInt32.toNat_shiftRight, toNat_pack]
    change (c.kind.code.toNat * 2 ^ 16 + c.phase.toNat) >>> 16 = _
    rw [Nat.shiftRight_eq_div_pow]
    omega
  have hlow : c.pack.toUInt16 = c.phase := by
    apply UInt16.toNat_inj.1
    rw [UInt32.toNat_toUInt16, toNat_pack]
    omega
  rw [unpack, hkind, hlow, CommandKind.ofCode_code]

end Command

/-- What slice `index` of `count` comes to on a command, given the commands it has had before. -/
def Script : Type :=
  (index count : ℕ) → (past : List Command) → Command → Except SliceError Unit

namespace Script

variable (o : Script)

/-- The failure that a slice leaves, if any; a command to leave is no work. -/
def failure? (index count : ℕ) (past : List Command) (c : Command) : Option Failure :=
  match c.kind with
  | .exit => none
  | _ =>
    match o index count past c with
    | .ok () => none
    | .error e => some ⟨index, c.phase, e⟩

/-- The failures of the workers below a bound, by worker. -/
def failures (count bound : ℕ) (past : List Command) (c : Command) : List Failure :=
  (List.range bound).filterMap fun i => o.failure? i count past c

lemma failures_succ (count bound : ℕ) (past : List Command) (c : Command) :
    o.failures count (bound + 1) past c =
      o.failures count bound past c ++ (o.failure? bound count past c).toList := by
  rw [failures, List.range_succ, List.filterMap_append, List.filterMap_cons, failures]
  cases o.failure? bound count past c <;> rfl

lemma failures_exit (count bound : ℕ) (past : List Command) {c : Command} (hc : c.kind = .exit) :
    o.failures count bound past c = [] := by
  have hnone : (fun i => o.failure? i count past c) = fun _ => none := by
    funext i
    simp only [failure?, hc]
  rw [failures, hnone, List.filterMap_none]

/-- The slices of a script: each notes the commands that it has had. -/
def runner : SliceRunner (ℕ → List Command) := fun c index count w =>
  (o index count (w index) c, Function.update w index (w index ++ [c]))

variable {o}

lemma slice_runner {c : Command} (hc : c.IsWork) (index count : ℕ) (w : ℕ → List Command) :
    o.runner.slice c index count w =
      (o.failure? index count (w index) c, Function.update w index (w index ++ [c])) := by
  unfold SliceRunner.slice failure? runner
  rcases hk : c.kind with _ | _ | _
  · rcases o index count (w index) c with e | ⟨⟩ <;> rfl
  · rcases o index count (w index) c with e | ⟨⟩ <;> rfl
  · exact absurd hk hc

/-- Slices with different numbers do not notice one another. -/
lemma foldl_next_runner {c : Command} (hc : c.IsWork) (count : ℕ) {l : List ℕ} (hl : l.Nodup)
    (failures : List Failure) (w : ℕ → List Command) :
    l.foldl (o.runner.next c count) (failures, w) =
      (failures ++ l.filterMap fun i => o.failure? i count (w i) c,
        fun i => if i ∈ l then w i ++ [c] else w i) := by
  induction l generalizing failures w with
  | nil => simp
  | cons a l ih =>
    obtain ⟨ha, hl⟩ := List.nodup_cons.1 hl
    have hnext : o.runner.next c count (failures, w) a =
        (failures ++ (o.failure? a count (w a) c).toList,
          Function.update w a (w a ++ [c])) := by
      simp only [SliceRunner.next, slice_runner hc]
      rcases o.failure? a count (w a) c with _ | f
      · rw [Option.toList_none, List.append_nil]
      · rfl
    rw [List.foldl_cons, hnext, ih hl]
    congr 1
    · have hrest : l.filterMap
          (fun i => o.failure? i count (Function.update w a (w a ++ [c]) i) c) =
          l.filterMap fun i => o.failure? i count (w i) c := by
        refine List.filterMap_congr fun i hi => ?_
        rw [Function.update_of_ne (ne_of_mem_of_not_mem hi ha)]
      rw [hrest, List.append_assoc, List.filterMap_cons]
      cases o.failure? a count (w a) c <;> rfl
    · funext i
      by_cases hi : i = a
      · subst hi
        simp [ha]
      · simp [hi]

end Script

namespace Pool

variable {W : Type}

/-- Dispatches commands in turn, and lists what each returned. -/
def dispatchEach (p : Pool W) : List Command → W → List (List Failure) × W
  | [], w => ([], w)
  | c :: rest, w =>
    let first := p.dispatch c w
    let others := dispatchEach p rest first.2
    (first.1 :: others.1, others.2)

lemma dispatchEach_append (p : Pool W) (l m : List Command) (w : W) :
    p.dispatchEach (l ++ m) w =
      ((p.dispatchEach l w).1 ++ (p.dispatchEach m (p.dispatchEach l w).2).1,
        (p.dispatchEach m (p.dispatchEach l w).2).2) := by
  induction l generalizing w with
  | nil => rfl
  | cons c l ih => simp only [List.cons_append, dispatchEach, ih]

lemma slices_exit (run : SliceRunner W) {c : Command} (hc : c.kind = .exit) (count : ℕ)
    (l : List ℕ) (w : W) : run.slices c count l w = ([], w) := by
  have hnext : ∀ i failures, run.next c count (failures, w) i = (failures, w) := by
    intro i failures
    simp only [SliceRunner.next, SliceRunner.slice, hc]
  unfold SliceRunner.slices
  induction l with
  | nil => rfl
  | cons i l ih => rw [List.foldl_cons, hnext, ih]

/-- A pool of threads, once its workers meet around every command, is the pool in turn. -/
lemma threaded_eq_inline (threads : ℕ) (run : SliceRunner W) :
    threaded threads run = inline threads run := by
  have hdispatch : (threaded threads run).dispatch = (inline threads run).dispatch := by
    funext c w
    change (if c.kind = .exit then ([], w) else run.slices c _ _ w) = run.slices c _ _ w
    split_ifs with hc
    · exact (slices_exit run hc _ _ w).symm
    · rfl
  exact congrArg (Pool.mk (max threads 1)) hdispatch

variable {o : Script} {n : ℕ}

lemma inline_dispatch (hn : 0 < n) (c : Command) (w : ℕ → List Command) :
    (inline n o.runner).dispatch c w = o.runner.slices c n (List.range n) w := by
  change o.runner.slices c (max n 1) (List.range (max n 1)) w = _
  rw [max_eq_left hn]

lemma inline_memory (hn : 0 < n) (l : List Command) {i : ℕ} (hi : i < n) :
    ((inline n o.runner).dispatchEach l fun _ => []).2 i = l.filter (·.IsWork) := by
  induction l using List.reverseRecOn with
  | nil => rfl
  | append_singleton l c ih =>
    simp only [dispatchEach_append, dispatchEach, inline_dispatch hn, List.filter_append]
    by_cases hc : c.IsWork
    · rw [SliceRunner.slices, Script.foldl_next_runner hc n List.nodup_range]
      simp [hi, hc, ih]
    · rw [slices_exit o.runner (not_not.1 hc), ih]
      simp [hc]

/-- **What the slices in turn return:** the failures of all workers, by worker. -/
lemma inline_returns (hn : 0 < n) (l : List Command) (c : Command) :
    ((inline n o.runner).dispatchEach (l ++ [c]) fun _ => []).1 =
      ((inline n o.runner).dispatchEach l fun _ => []).1 ++
        [o.failures n n (l.filter (·.IsWork)) c] := by
  simp only [dispatchEach_append, dispatchEach, inline_dispatch hn]
  congr 2
  by_cases hc : c.IsWork
  · rw [SliceRunner.slices, Script.foldl_next_runner hc n List.nodup_range, List.nil_append]
    refine List.filterMap_congr fun i hi => ?_
    rw [inline_memory hn l (List.mem_range.1 hi)]
  · rw [slices_exit o.runner (not_not.1 hc), Script.failures_exit o n n _ (not_not.1 hc)]

end Pool

end SolidTrace
