import Mathlib.Data.Finset.Card
import Mathlib.Data.Fintype.Card
import SolidTrace.Proofs.Work.Script

/-!
A pool of threads behind two gates, step by step.

A lead and its workers share a word and two gates, and every worker has a slot for the failure of
its slice. The lead stores the word of a command and comes to the start gate; each worker that gets
through reads the word, runs its slice, leaves a failure in its slot and comes to the finish gate,
and so does the lead, which then empties the slots. At the end the lead stores the command to leave
and waits for the workers.

`BarrierPool.step` lets one party take a single step, if it can. A schedule is the list of the
parties in the order of their steps, so that every interleaving is the run of a schedule. A party
that has come to a gate waits while the gate is at the generation at which it came: it may get
through long after the others have gone on.
-/

namespace SolidTrace

/-- A gate for a number of parties: how many have come, and how often it has opened. -/
structure Gate where
  arrived : ℕ
  generation : ℕ
deriving DecidableEq, Repr

namespace Gate

/-- One party comes; the last one opens the gate for all. -/
def arrive (parties : ℕ) (g : Gate) : Gate :=
  if g.arrived + 1 < parties then ⟨g.arrived + 1, g.generation⟩ else ⟨0, g.generation + 1⟩

end Gate

/-- Where a worker is. -/
inductive Stage
  /-- Before the start gate. -/
  | ready
  /-- At the start gate, since some generation of it. -/
  | starting (generation : ℕ)
  /-- Through the start gate; the word is yet to be read. -/
  | woken
  | loaded (c : Command)
  /-- In its slice. -/
  | running (c : Command)
  /-- Out of its slice; the slot is yet to be filled. -/
  | ended (failure : Option Failure)
  | reported
  /-- At the finish gate, since some generation of it. -/
  | finishing (generation : ℕ)
  /-- Out of its loop. -/
  | gone
deriving DecidableEq, Repr

/-- A worker: its stage, its slot, and the commands whose slices it has begun and ended. -/
structure Post where
  stage : Stage
  slot : Option Failure
  begun : List Command
  ended : List Command
deriving DecidableEq, Repr

/-- Where the lead is. -/
inductive Lead
  /-- Between two dispatches. -/
  | idle
  /-- The word of a command is stored. -/
  | stored (c : Command)
  | starting (c : Command) (generation : ℕ)
  | started (c : Command)
  | finishing (c : Command) (generation : ℕ)
  /-- The slots below the next one are emptied. -/
  | collecting (c : Command) (next : ℕ) (failures : List Failure)
  /-- The command to leave is stored, once and for all. -/
  | leaving
  | leavingStart (generation : ℕ)
  /-- The workers below the next one have been waited for. -/
  | joining (next : ℕ)
  | left
deriving DecidableEq, Repr

namespace Lead

def command : Lead → Option Command
  | stored c | starting c _ | started c | finishing c _ | collecting c _ _ => some c
  | idle | leaving | leavingStart _ | joining _ | left => none

def Drops : Lead → Prop
  | leaving | leavingStart _ | joining _ | left => True
  | idle | stored _ | starting _ _ | started _ | finishing _ _ | collecting _ _ _ => False

end Lead

/-- The lead or one of the workers. -/
inductive Party (n : ℕ)
  | lead
  | worker (i : Fin n)
deriving DecidableEq, Repr

/-- A lead and `n` workers, with what they share, the commands yet to dispatch, and what the
dispatches have returned. -/
structure BarrierPool (n : ℕ) where
  word : UInt32
  start : Gate
  finish : Gate
  posts : Fin n → Post
  lead : Lead
  pending : List Command
  returned : List (Command × List Failure)

namespace BarrierPool

variable {n : ℕ}

/-- A new pool, and the commands that it will be given before it is dropped. -/
def init (n : ℕ) (commands : List Command) : BarrierPool n where
  word := Command.exit.pack
  start := ⟨0, 0⟩
  finish := ⟨0, 0⟩
  posts := fun _ => ⟨.ready, none, [], []⟩
  lead := .idle
  pending := commands
  returned := []

def put (s : BarrierPool n) (i : Fin n) (p : Post) : BarrierPool n :=
  { s with posts := Function.update s.posts i p }

def work (o : Script) (s : BarrierPool n) (i : Fin n) : Option (BarrierPool n) :=
  let p := s.posts i
  match p.stage with
  | .ready =>
    some { s.put i { p with stage := .starting s.start.generation } with
      start := s.start.arrive (n + 1) }
  | .starting g =>
    if s.start.generation = g then none else some (s.put i { p with stage := .woken })
  | .woken =>
    let c := Command.unpack s.word
    some (s.put i { p with stage := if c.kind = .exit then .gone else .loaded c })
  | .loaded c => some (s.put i { p with stage := .running c, begun := p.begun ++ [c] })
  | .running c =>
    some (s.put i { p with stage := .ended (o.failure? i n p.ended c), ended := p.ended ++ [c] })
  | .ended failure => some (s.put i { p with stage := .reported, slot := failure.or p.slot })
  | .reported =>
    some { s.put i { p with stage := .finishing s.finish.generation } with
      finish := s.finish.arrive (n + 1) }
  | .finishing g =>
    if s.finish.generation = g then none else some (s.put i { p with stage := .ready })
  | .gone => none

/-- The lead takes a step. A dispatch of a command to leave returns at once; after the last command
the pool is dropped. -/
def direct (s : BarrierPool n) : Option (BarrierPool n) :=
  match s.lead with
  | .idle =>
    match s.pending with
    | [] => some { s with word := Command.exit.pack, lead := .leaving }
    | c :: rest =>
      if c.kind = .exit then some { s with pending := rest, returned := s.returned ++ [(c, [])] }
      else some { s with word := c.pack, lead := .stored c, pending := rest }
  | .stored c =>
    some { s with start := s.start.arrive (n + 1), lead := .starting c s.start.generation }
  | .starting c g => if s.start.generation = g then none else some { s with lead := .started c }
  | .started c =>
    some { s with finish := s.finish.arrive (n + 1), lead := .finishing c s.finish.generation }
  | .finishing c g =>
    if s.finish.generation = g then none else some { s with lead := .collecting c 0 [] }
  | .collecting c next failures =>
    if h : next < n then
      let p := s.posts ⟨next, h⟩
      some { s.put ⟨next, h⟩ { p with slot := none } with
        lead := .collecting c (next + 1) (failures ++ p.slot.toList) }
    else some { s with lead := .idle, returned := s.returned ++ [(c, failures)] }
  | .leaving =>
    some { s with start := s.start.arrive (n + 1), lead := .leavingStart s.start.generation }
  | .leavingStart g => if s.start.generation = g then none else some { s with lead := .joining 0 }
  | .joining next =>
    if h : next < n then
      if (s.posts ⟨next, h⟩).stage = .gone then some { s with lead := .joining (next + 1) }
      else none
    else some { s with lead := .left }
  | .left => none

def step (o : Script) (s : BarrierPool n) : Party n → Option (BarrierPool n)
  | .lead => s.direct
  | .worker i => s.work o i

/-- The parties take their steps in the order of a schedule. -/
def run (o : Script) (s : BarrierPool n) : List (Party n) → Option (BarrierPool n)
  | [] => some s
  | p :: schedule => (s.step o p).bind fun t => t.run o schedule

lemma run_keeps {o : Script} {P : BarrierPool n → Prop}
    (hstep : ∀ s p t, P s → s.step o p = some t → P t) {s t : BarrierPool n} (hs : P s)
    {schedule : List (Party n)} (h : s.run o schedule = some t) : P t := by
  induction schedule generalizing s with
  | nil =>
    cases h
    exact hs
  | cons p schedule ih =>
    obtain ⟨r, hr, hrun⟩ := Option.bind_eq_some_iff.1 h
    exact ih (hstep s p r hs hr) hrun

/-! ### How many workers are at a stage -/

/-- How many workers are at a stage. -/
def count (posts : Fin n → Post) (x : Stage) : ℕ :=
  (Finset.univ.filter fun i => (posts i).stage = x).card

section

variable {posts : Fin n → Post} {x : Stage} {i : Fin n} {p : Post}

lemma count_le : count posts x ≤ n := by
  have h := Finset.card_filter_le Finset.univ fun i => (posts i).stage = x
  rwa [Finset.card_univ, Fintype.card_fin] at h

lemma count_eq_zero (h : ∀ j, (posts j).stage ≠ x) : count posts x = 0 := by
  rw [count, Finset.card_eq_zero, Finset.filter_eq_empty_iff]
  exact fun j _ => h j

lemma count_eq_iff : count posts x = n ↔ ∀ i, (posts i).stage = x := by
  have h := Finset.card_filter_eq_iff (s := Finset.univ) (p := fun i => (posts i).stage = x)
  rw [Finset.card_univ, Fintype.card_fin] at h
  exact h.trans (forall_congr' fun i => forall_prop_of_true (Finset.mem_univ i))

lemma count_update_of_iff (h : p.stage = x ↔ (posts i).stage = x) :
    count (Function.update posts i p) x = count posts x := by
  refine congrArg Finset.card (Finset.filter_congr fun j _ => ?_)
  by_cases hj : j = i
  · subst hj
    rw [Function.update_self, h]
  · rw [Function.update_of_ne hj]

lemma count_update (hi : (posts i).stage ≠ x) (hp : p.stage = x) :
    count (Function.update posts i p) x = count posts x + 1 := by
  have hset : (Finset.univ.filter fun j => (Function.update posts i p j).stage = x) =
      insert i (Finset.univ.filter fun j => (posts j).stage = x) := by
    ext j
    by_cases hj : j = i
    · subst hj
      simp [hp]
    · simp [hj]
  rw [count, hset, Finset.card_insert_of_notMem (by simp [hi]), count]

end

end BarrierPool

/-! ### Parties at a gate -/

namespace Gate

variable {n : ℕ} {posts : Fin n → Post} {x : Stage} {g : Gate} {k : ℕ} {led : Bool}

/-- The gate has yet to open again: the workers at a stage have come to it, maybe the lead too, and
somebody is missing. -/
structure Holds (g : Gate) (k : ℕ) (posts : Fin n → Post) (x : Stage) (led : Bool) : Prop where
  eq : g = ⟨BarrierPool.count posts x + led.toNat, k⟩
  room : BarrierPool.count posts x + led.toNat ≤ n

/-- The gate has let all parties through. -/
structure Opened (g : Gate) (k : ℕ) (posts : Fin n → Post) (x : Stage) : Prop where
  eq : g = ⟨0, k + 1⟩
  all : ∀ i, (posts i).stage = x

lemma Holds.generation (h : g.Holds k posts x led) : g.generation = k := by
  rw [h.eq]

lemma Holds.nobody (h : ∀ i, (posts i).stage ≠ x) :
    Holds ⟨0, k⟩ k posts x false := by
  have hcount := BarrierPool.count_eq_zero h
  exact ⟨by rw [hcount]; rfl, by rw [hcount]; exact Nat.zero_le n⟩

lemma Holds.update (h : g.Holds k posts x led) {i : Fin n} {p : Post}
    (hp : p.stage = x ↔ (posts i).stage = x) :
    g.Holds k (Function.update posts i p) x led := by
  have hcount := BarrierPool.count_update_of_iff hp
  exact ⟨by rw [hcount, h.eq], by rw [hcount]; exact h.room⟩

/-- A worker comes to the gate; it is the last one only if the lead has come. -/
lemma Holds.arrive_worker (h : g.Holds k posts x led) {i : Fin n} {p : Post}
    (hi : (posts i).stage ≠ x) (hp : p.stage = x) :
    (g.arrive (n + 1)).Holds k (Function.update posts i p) x led ∨
      led = true ∧ (g.arrive (n + 1)).Opened k (Function.update posts i p) x := by
  have hcount := BarrierPool.count_update hi hp
  have hle : BarrierPool.count (Function.update posts i p) x ≤ n := BarrierPool.count_le
  rw [h.eq]
  unfold arrive
  dsimp only
  split_ifs with hroom
  · refine .inl ⟨?_, ?_⟩
    · rw [hcount, Nat.add_right_comm]
    · omega
  · have hled : led.toNat = 1 := by
      cases led with
      | false => simp only [Bool.toNat_false] at hroom; omega
      | true => rfl
    exact .inr ⟨Bool.toNat_eq_one.1 hled, rfl, BarrierPool.count_eq_iff.1 (by omega)⟩

/-- The lead comes to the gate; it is the last one only if all workers have come. -/
lemma Holds.arrive_lead (h : g.Holds k posts x false) :
    (g.arrive (n + 1)).Holds k posts x true ∨ (g.arrive (n + 1)).Opened k posts x := by
  rw [h.eq]
  unfold arrive
  simp only [Bool.toNat_false, Nat.add_zero]
  split_ifs with hroom
  · exact .inl ⟨rfl, Nat.lt_succ_iff.1 hroom⟩
  · have hle : BarrierPool.count posts x ≤ n := BarrierPool.count_le
    exact .inr ⟨rfl, BarrierPool.count_eq_iff.1 (by omega)⟩

lemma Holds.exists_missing (h : g.Holds k posts x true) : ∃ i, (posts i).stage ≠ x := by
  by_contra hall
  push Not at hall
  have hfull := BarrierPool.count_eq_iff.2 hall
  have hroom := h.room
  rw [Bool.toNat_true] at hroom
  omega

end Gate

end SolidTrace
