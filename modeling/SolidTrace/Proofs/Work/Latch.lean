import Mathlib.Data.List.DropRight
import Mathlib.Tactic.Common
import SolidTrace.Work.Scheduler

/-!
The latch of a scheduler.

What a scheduler answers is not enough to tell whether it keeps its promises: a pool that was called
while a failure stood would not show in an answer. So the pool is `recorded`: beside its state it
keeps every command that reaches it, with the failures that it gave back. A `Session` puts calls to
a scheduler over such a pool, and notes for each call what reached the pool meanwhile.

`Plays` is what a call has to do with the commands that it stands for: dispatch them one after the
other, up to the first that fails. From it everything else follows, call by call.
-/

namespace SolidTrace

variable {W : Type}

/-- A command that reached a pool, with the failures that came of it. -/
structure Dispatched where
  command : Command
  failures : List Failure
deriving DecidableEq

namespace Dispatched

def failed (d : Dispatched) : Bool := !d.failures.isEmpty

/-- How a failed dispatch is reported. -/
def error (d : Dispatched) : DispatchError := .workers d.command.kind d.failures

end Dispatched

/-- The pool with a record of what reaches it. -/
def Pool.recorded (p : Pool W) : Pool (W × List Dispatched) :=
  ⟨p.threads, fun c v =>
    ((p.dispatch c v.1).1, (p.dispatch c v.1).2, v.2 ++ [⟨c, (p.dispatch c v.1).1⟩])⟩

/-- What can be asked of a scheduler. -/
inductive Call
  | update
  | render
  | dispatch (c : Command)
  | acknowledge
deriving DecidableEq

namespace Call

/-- The commands that a call stands for. -/
def plan : Call → List Command
  | update => [Command.update 1, Command.update 2, Command.update 3]
  | render => [Command.render 0]
  | dispatch c => [c]
  | acknowledge => []

end Call

inductive Answer
  | result (r : Except DispatchError Unit)
  /-- Whether there was a failure to acknowledge. -/
  | pending (b : Bool)

namespace Answer

/-- The failed dispatch that an answer reports. -/
def reported? : Answer → Option DispatchError
  | result (.error (.workers kind failures)) => some (.workers kind failures)
  | result _ | pending _ => none

end Answer

namespace Scheduler

def call (s : Scheduler W) (w : W) : Call → Answer × Scheduler W × W
  | .update => (s.update w).map .result id
  | .render => (s.render w).map .result id
  | .dispatch c => (s.dispatch c w).map .result id
  | .acknowledge => (.pending s.acknowledge.1, s.acknowledge.2, w)

/-- The answers to calls, one after the other, and what they leave. -/
def serve (s : Scheduler W) (w : W) : List Call → List Answer × Scheduler W × W
  | [] => ([], s, w)
  | c :: rest =>
    let (answer, s, w) := s.call w c
    let (answers, s, w) := s.serve w rest
    (answer :: answers, s, w)

end Scheduler

/-- Commands are dispatched one after the other, up to the first that fails, and the failures of
that one are the result. -/
inductive Plays : List Command → List Dispatched → Except DispatchError Unit → Prop
  | done : Plays [] [] (.ok ())
  | next {c : Command} {rest : List Command} {later : List Dispatched}
      {r : Except DispatchError Unit} (h : Plays rest later r) :
      Plays (c :: rest) (⟨c, []⟩ :: later) r
  | fail {c : Command} {rest : List Command} {failures : List Failure} (h : failures ≠ []) :
      Plays (c :: rest) [⟨c, failures⟩] (.error (.workers c.kind failures))

/-- What happened at a call. -/
structure Event where
  /-- Whether a failure stood before. -/
  blocked : Bool
  call : Call
  /-- What reached the pool. -/
  dispatched : List Dispatched
  answer : Answer

namespace Event

/-- What may happen at a call: an acknowledgement is answered by what stood, other calls are refused
while a failure stands and play their plan otherwise. -/
inductive Lawful : Event → Prop
  | acknowledged (b : Bool) : Lawful ⟨b, .acknowledge, [], .pending b⟩
  | refused {c : Call} (hc : c ≠ .acknowledge) :
      Lawful ⟨true, c, [], .result (.error .unacknowledged)⟩
  | played {c : Call} (hc : c ≠ .acknowledge) {l : List Dispatched}
      {r : Except DispatchError Unit} (h : Plays c.plan l r) : Lawful ⟨false, c, l, .result r⟩

def dispatches (l : List Event) : List Dispatched := l.flatMap Event.dispatched

/-- The events since the last acknowledgement, or since the beginning. -/
def sinceAcknowledged (l : List Event) : List Event := l.rtakeWhile fun e => e.call ≠ .acknowledge

end Event

/-- A scheduler in use over a recorded pool, and what has happened. -/
structure Session (W : Type) where
  scheduler : Scheduler (W × List Dispatched)
  shared : W × List Dispatched
  events : List Event

namespace Session

def start (p : Pool W) (w : W) : Session W := ⟨.ofPool p.recorded, (w, []), []⟩

/-- The session after one more call; what is new in the record was dispatched by it. -/
def call (s : Session W) (c : Call) : Session W :=
  let (answer, scheduler, shared) := s.scheduler.call s.shared c
  ⟨scheduler, shared, s.events ++
    [⟨s.scheduler.blocked, c, shared.2.drop s.shared.2.length, answer⟩]⟩

def after (s : Session W) (calls : List Call) : Session W := calls.foldl call s

/-- The scheduler has kept its promises in every event. -/
structure Latches (s : Session W) : Prop where
  lawful : ∀ e ∈ s.events, e.Lawful
  /-- A failure stands at a call when some dispatch has failed since the last acknowledgement. -/
  stood : ∀ before e later, s.events = before ++ e :: later →
    (e.blocked = true ↔
      ∃ d ∈ Event.dispatches (Event.sinceAcknowledged before), d.failed = true)
  /-- Nothing reached the pool but by these events. -/
  record : s.shared.2 = Event.dispatches s.events
  /-- The pool was called as often as the scheduler counts. -/
  counted : s.scheduler.dispatches = s.shared.2.length
  /-- So it does at the end. -/
  blocked_iff : s.scheduler.blocked = true ↔
    ∃ d ∈ Event.dispatches (Event.sinceAcknowledged s.events), d.failed = true
  /-- The failed dispatches are reported, each of them once. -/
  reported : s.events.filterMap (fun e => e.answer.reported?) =
    (s.shared.2.filter Dispatched.failed).map Dispatched.error

end Session

/-! ### Dispatches -/

section

variable {l : List Command} {ds : List Dispatched} {r : Except DispatchError Unit}

@[simp]
lemma failed_mk (c : Command) (failures : List Failure) :
    (Dispatched.mk c failures).failed = !failures.isEmpty := rfl

lemma Plays.reported (h : Plays l ds r) :
    (Answer.result r).reported?.toList = (ds.filter Dispatched.failed).map Dispatched.error := by
  induction h with
  | done => rfl
  | next _ ih => simpa using ih
  | fail hne =>
    rw [List.filter_cons_of_pos (by simpa using hne)]
    rfl

end

namespace Scheduler

lemma dispatch_eq_dispatchAll (s : Scheduler W) (c : Command) (w : W) :
    s.dispatch c w = s.dispatchAll [c] w := by
  unfold dispatchAll
  split
  · next h => rw [h]; rfl
  · rfl

/-- Calls are answered by dispatching their plans, except for acknowledgements. -/
lemma call_eq (s : Scheduler W) (w : W) {c : Call} (hc : c ≠ .acknowledge) :
    s.call w c = (s.dispatchAll c.plan w).map .result id := by
  cases c with
  | update => rfl
  | render => rw [call, render, dispatch_eq_dispatchAll]; rfl
  | dispatch c => rw [call, dispatch_eq_dispatchAll]; rfl
  | acknowledge => exact absurd rfl hc

lemma call_of_blocked {s : Scheduler W} (h : s.blocked = true) (w : W) {c : Call}
    (hc : c ≠ .acknowledge) : s.call w c = (.result (.error .unacknowledged), s, w) := by
  have hall : ∀ d rest, s.dispatchAll (d :: rest) w = (.error .unacknowledged, s, w) := by
    intro d rest
    have hd : s.dispatch d w = (.error .unacknowledged, s, w) := if_pos h
    rw [dispatchAll, hd]
  rw [call_eq s w hc]
  cases c with
  | update => rw [Call.plan, hall]; rfl
  | render => rw [Call.plan, hall]; rfl
  | dispatch c => rw [Call.plan, hall]; rfl
  | acknowledge => exact absurd rfl hc

/-- **An open scheduler plays its commands.** What reaches the pool is recorded, and a failure
stands when one of the dispatches has failed. -/
lemma dispatchAll_plays (p : Pool W) {s : Scheduler (W × List Dispatched)}
    (hp : s.pool = p.recorded) (hopen : s.blocked = false) (l : List Command)
    (v : W × List Dispatched) :
    ∃ ds w, Plays l ds (s.dispatchAll l v).1 ∧
      (s.dispatchAll l v).2 = ({ s with
        blocked := ds.any Dispatched.failed
        dispatches := s.dispatches + ds.length }, w, v.2 ++ ds) := by
  -- after a success the scheduler is open as before; after a failure nothing is left to dispatch
  induction l generalizing s v with
  | nil => exact ⟨[], v.1, .done, by simp [dispatchAll, ← hopen]⟩
  | cons c rest ih =>
    obtain ⟨w, record⟩ := v
    rcases hd : p.dispatch c w with ⟨_ | ⟨f, failures⟩, w'⟩
    · have hfirst : s.dispatch c (w, record) =
          (.ok (), { s with dispatches := s.dispatches + 1 }, w', record ++ [⟨c, []⟩]) := by
        simp [dispatch, hopen, hp, Pool.recorded, hd]
      obtain ⟨ds, w'', hplays, hrest⟩ := ih (s := { s with dispatches := s.dispatches + 1 }) hp
        hopen (w', record ++ [⟨c, []⟩])
      refine ⟨⟨c, []⟩ :: ds, w'', ?_, ?_⟩
      · rw [dispatchAll, hfirst]
        exact hplays.next
      · rw [dispatchAll, hfirst]
        simp only [hrest, List.any_cons, failed_mk, List.isEmpty_nil, List.length_cons,
          List.append_assoc, List.singleton_append]
        simp [Nat.add_comm, Nat.add_left_comm]
    · have hfirst : s.dispatch c (w, record) =
          (.error (.workers c.kind (f :: failures)),
            { s with blocked := true, dispatches := s.dispatches + 1 }, w',
              record ++ [⟨c, f :: failures⟩]) := by
        simp [dispatch, hopen, hp, Pool.recorded, hd]
      refine ⟨[⟨c, f :: failures⟩], w', ?_, ?_⟩
      · rw [dispatchAll, hfirst]
        exact .fail (List.cons_ne_nil f failures)
      · rw [dispatchAll, hfirst]
        simp

end Scheduler

/-! ### Calls -/

lemma Event.Lawful.reported {e : Event} (h : e.Lawful) :
    e.answer.reported?.toList = (e.dispatched.filter Dispatched.failed).map Dispatched.error := by
  cases h with
  | acknowledged => rfl
  | refused => rfl
  | played _ h => exact h.reported

/-- What one call does: it is lawful, its dispatches are recorded and counted, and a failure stands
afterwards when one stood or came, unless it was acknowledged. -/
lemma Scheduler.call_lawful (p : Pool W) {s : Scheduler (W × List Dispatched)}
    (hp : s.pool = p.recorded) (v : W × List Dispatched) (c : Call) :
    ∃ ds w answer blocked, s.call v c = (answer,
        { s with blocked, dispatches := s.dispatches + ds.length }, w, v.2 ++ ds) ∧
      Event.Lawful ⟨s.blocked, c, ds, answer⟩ ∧
      blocked = (c ≠ .acknowledge && (s.blocked || ds.any Dispatched.failed)) := by
  by_cases hc : c = .acknowledge
  · subst hc
    exact ⟨[], v.1, .pending s.blocked, false, by simp [call, acknowledge], .acknowledged _, rfl⟩
  cases hblocked : s.blocked with
  | true =>
    refine ⟨[], v.1, _, true, ?_, .refused hc, by simp [hc]⟩
    rw [call_of_blocked hblocked v hc]
    simp [← hblocked]
  | false =>
    obtain ⟨ds, w, hplays, hrest⟩ := dispatchAll_plays p hp hblocked c.plan v
    refine ⟨ds, w, _, ds.any Dispatched.failed, ?_, .played hc hplays, by simp [hc]⟩
    rw [call_eq s v hc, Prod.map, hrest]
    simp

namespace Session

variable {s : Session W}

/-- **One more call** keeps the promises. -/
lemma Latches.call (h : s.Latches) {p : Pool W} (hp : s.scheduler.pool = p.recorded) (c : Call) :
    (s.call c).Latches ∧ (s.call c).scheduler.pool = p.recorded := by
  obtain ⟨ds, w, answer, blocked, hcall, hlawful, hblocked⟩ :=
    s.scheduler.call_lawful p hp s.shared c
  have hs : s.call c =
      ⟨{ s.scheduler with blocked, dispatches := s.scheduler.dispatches + ds.length },
        (w, s.shared.2 ++ ds), s.events ++ [⟨s.scheduler.blocked, c, ds, answer⟩]⟩ := by
    simp [Session.call, hcall]
  rw [hs]
  refine ⟨⟨?_, ?_, ?_, ?_, ?_, ?_⟩, hp⟩
  · intro e he
    rcases List.mem_append.mp he with he | he
    · exact h.lawful e he
    · rw [List.mem_singleton.mp he]
      exact hlawful
  · intro before e later heq
    -- the event is the new one, or it was there before
    rcases List.eq_nil_or_concat later with rfl | ⟨later, last, rfl⟩
    · have heq : s.events ++ [⟨s.scheduler.blocked, c, ds, answer⟩] = before ++ [e] := heq
      obtain ⟨rfl, hlast⟩ := List.append_inj' heq rfl
      rw [← List.singleton_inj.mp hlast]
      exact h.blocked_iff
    · have heq : s.events ++ [⟨s.scheduler.blocked, c, ds, answer⟩] =
          (before ++ e :: later) ++ [last] := by simpa using heq
      exact h.stood before e later (List.append_inj' heq rfl).1
  · simp [Event.dispatches, h.record]
  · simp [h.counted]
  · dsimp only
    rw [hblocked, Event.sinceAcknowledged, List.rtakeWhile_concat]
    by_cases hc : c = .acknowledge
    · simp [hc, Event.dispatches]
    · have hstood := h.blocked_iff
      simp only [Event.sinceAcknowledged, Event.dispatches] at hstood
      simp [hc, Event.dispatches, hstood, or_and_right, exists_or]
  · have hreported := hlawful.reported
    rw [List.filterMap_append, List.filter_append, List.map_append, h.reported, ← hreported]
    cases hanswer : answer.reported? <;> simp [hanswer]

lemma latches_start (p : Pool W) (w : W) : (start p w).Latches where
  lawful := nofun
  stood before e later h := by simp [start] at h
  record := rfl
  counted := rfl
  blocked_iff := by simp [start, Scheduler.ofPool, Event.sinceAcknowledged, Event.dispatches]
  reported := rfl

end Session

/-! ### Pools without a record -/

namespace Scheduler

def withPool {V : Type} (s : Scheduler V) (p : Pool W) : Scheduler W := ⟨p, s.blocked, s.dispatches⟩

variable {p : Pool W} {s : Scheduler (W × List Dispatched)}

lemma dispatch_withPool (hp : s.pool = p.recorded) (c : Command) (v : W × List Dispatched) :
    (s.withPool p).dispatch c v.1 =
        ((s.dispatch c v).1, (s.dispatch c v).2.1.withPool p, (s.dispatch c v).2.2.1) ∧
      (s.dispatch c v).2.1.pool = p.recorded := by
  cases hblocked : s.blocked with
  | true => simp [dispatch, withPool, hblocked, hp]
  | false => rcases hd : p.dispatch c v.1 with ⟨_ | ⟨f, failures⟩, w⟩ <;>
      simp [dispatch, withPool, hblocked, hp, Pool.recorded, hd]

lemma dispatchAll_withPool (hp : s.pool = p.recorded) (l : List Command) (v : W × List Dispatched) :
    (s.withPool p).dispatchAll l v.1 =
      ((s.dispatchAll l v).1, (s.dispatchAll l v).2.1.withPool p, (s.dispatchAll l v).2.2.1) := by
  induction l generalizing s v with
  | nil => rfl
  | cons c rest ih =>
    obtain ⟨hover, hpool⟩ := dispatch_withPool hp c v
    rcases hd : s.dispatch c v with ⟨_ | ⟨⟩, s', v'⟩
    · rw [hd] at hover
      rw [dispatchAll, dispatchAll, hover, hd]
    · rw [hd] at hover hpool
      rw [dispatchAll, dispatchAll, hover, hd]
      exact ih hpool v'

lemma call_withPool (hp : s.pool = p.recorded) (v : W × List Dispatched) (c : Call) :
    (s.withPool p).call v.1 c =
      ((s.call v c).1, (s.call v c).2.1.withPool p, (s.call v c).2.2.1) := by
  by_cases hc : c = .acknowledge
  · subst hc
    rfl
  · rw [call_eq _ _ hc, call_eq _ _ hc, dispatchAll_withPool hp]
    rfl

end Scheduler

namespace Session

/-- Calls one after the other keep the promises, and they are answered as by the scheduler over the
pool itself. -/
lemma Latches.after {s : Session W} (h : s.Latches) {p : Pool W}
    (hp : s.scheduler.pool = p.recorded) (calls : List Call) :
    (s.after calls).Latches ∧ ∃ more, (s.after calls).events = s.events ++ more ∧
      more.map Event.call = calls ∧
      (s.scheduler.withPool p).serve s.shared.1 calls = (more.map Event.answer,
        (s.after calls).scheduler.withPool p, (s.after calls).shared.1) := by
  induction calls generalizing s with
  | nil => exact ⟨h, [], by simp [Session.after, Scheduler.serve]⟩
  | cons c calls ih =>
    obtain ⟨hnext, hpool⟩ := h.call hp c
    obtain ⟨hlatches, more, hevents, hcalls, hserve⟩ := ih hnext hpool
    have hover := Scheduler.call_withPool hp s.shared c
    rcases hcall : s.scheduler.call s.shared c with ⟨answer, scheduler, shared⟩
    have hs : s.call c = ⟨scheduler, shared, s.events ++
        [⟨s.scheduler.blocked, c, shared.2.drop s.shared.2.length, answer⟩]⟩ := by
      simp only [Session.call, hcall]
    rw [hcall] at hover
    refine ⟨hlatches,
      ⟨s.scheduler.blocked, c, shared.2.drop s.shared.2.length, answer⟩ :: more, ?_, ?_, ?_⟩
    · calc ((s.call c).after calls).events
          = (s.call c).events ++ more := hevents
        _ = _ := by rw [hs, List.append_assoc, List.singleton_append]
    · rw [List.map_cons, hcalls]
    · rw [hs] at hserve
      rw [Scheduler.serve, hover]
      dsimp only
      rw [hserve, ← hs]
      rfl

end Session

/-- **The latch of a scheduler.** Over any pool and under any calls, a failure stands exactly when
some dispatch since the last acknowledgement has failed; while it stands the pool is not called and
every call is refused; an open call dispatches its commands in order, up to the first that fails,
and reports that one; so every failed dispatch is reported once. That the pool is recorded makes no
difference to the answers. -/
theorem failures_latched (p : Pool W) (w : W) (calls : List Call) :
    let s := (Session.start p w).after calls
    s.Latches ∧ s.events.map Event.call = calls ∧
      (Scheduler.ofPool p).serve w calls =
        (s.events.map Event.answer, s.scheduler.withPool p, s.shared.1) := by
  intro s
  obtain ⟨hlatches, more, hevents, hcalls, hserve⟩ :=
    (Session.latches_start p w).after (p := p) rfl calls
  have hmore : s.events = more := hevents
  rw [hmore]
  exact ⟨hlatches, hcalls, hserve⟩

end SolidTrace
