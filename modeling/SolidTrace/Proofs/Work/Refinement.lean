import SolidTrace.Proofs.Work.Rendezvous

/-!
A pool of threads returns what the slices in turn return.

Whatever the order in which the parties go on, a dispatch of work runs one slice on every worker,
behind all slices of the dispatch before, and returns the failures of its own slices by worker: the
slots are written between the gates and emptied outside them. Nobody is ever stuck before the pool
is gone, and once the command to leave is stored no slice is begun.
-/

namespace SolidTrace

namespace BarrierPool

/-- The commands that are work among those that have returned. -/
def past {n : ℕ} (s : BarrierPool n) : List Command :=
  (s.returned.map Prod.fst).filter (·.IsWork)

variable {n : ℕ} {o : Script} {s t : BarrierPool n} {l : List Command} {c : Command}
  {slots : Fin n → Option Failure} {led : Bool} {i : Fin n}

/-- Where the lead is after the work of some commands, and what this says of the workers. -/
inductive Phase (o : Script) (s : BarrierPool n) (l : List Command) : Prop
  | idle (hlead : s.lead = .idle) (h : s.Gathering l (fun _ => none) false)
  | stored {c : Command} (hlead : s.lead = .stored c) (hc : c.IsWork) (hword : s.word = c.pack)
      (h : s.Gathering l (fun _ => none) false)
  | starting {c : Command} (hlead : s.lead = .starting c l.length) (hc : c.IsWork)
      (hword : s.word = c.pack) (h : s.Gathering l (fun _ => none) true)
  | started {c : Command} (hlead : s.lead = .starting c l.length ∨ s.lead = .started c)
      (h : s.Working o l c false)
  | finishing {c : Command} (hlead : s.lead = .finishing c l.length) (h : s.Working o l c true)
  | finished {c : Command} (hlead : s.lead = .finishing c l.length) (hc : c.IsWork)
      (h : s.Gathering (l ++ [c]) (fun i => o.failure? i n l c) false)
  | collecting {c : Command} {next : ℕ} (hc : c.IsWork) (hnext : next ≤ n)
      (hlead : s.lead = .collecting c next (o.failures n next l c))
      (h : s.Gathering (l ++ [c])
        (fun i => if i < next then none else o.failure? i n l c) false)
  | leaving (hlead : s.lead = .leaving) (hpending : s.pending = [])
      (hword : s.word = Command.exit.pack) (h : s.Gathering l (fun _ => none) false)
  | departing (hlead : s.lead = .leavingStart l.length) (hpending : s.pending = [])
      (hword : s.word = Command.exit.pack) (h : s.Gathering l (fun _ => none) true)
  | exiting (hlead : s.lead = .leavingStart l.length ∨ (∃ next, s.lead = .joining next) ∨
      s.lead = .left) (hpending : s.pending = []) (h : s.Exiting l)

lemma Phase.work (hs : s.Phase o l) (h : s.work o i = some t) : t.Phase o l := by
  obtain ⟨hword', hlead', hpending', -⟩ := work_frame h
  cases hs with
  | idle hlead hg => exact .idle (hlead'.trans hlead) (hg.work_of_apart h)
  | stored hlead hc hword hg =>
    exact .stored (hlead'.trans hlead) hc (hword'.trans hword) (hg.work_of_apart h)
  | starting hlead hc hword hg =>
    rcases hg.work h with hg | ⟨-, hg⟩
    · exact .starting (hlead'.trans hlead) hc (hword'.trans hword) hg
    · exact .started (.inl (hlead'.trans hlead)) (hg.working hc (hword'.trans hword))
  | started hlead hw =>
    rcases hw.work h with hw | ⟨hled, -⟩
    · exact .started (hlead' ▸ hlead) hw
    · cases hled
  | finishing hlead hw =>
    rcases hw.work h with hw' | ⟨-, hw'⟩
    · exact .finishing (hlead'.trans hlead) hw'
    · exact .finished (hlead'.trans hlead) hw.isWork hw'.gathering
  | finished hlead hc hg => exact .finished (hlead'.trans hlead) hc (hg.work_of_apart h)
  | collecting hc hnext hlead hg =>
    exact .collecting hc hnext (hlead'.trans hlead) (hg.work_of_apart h)
  | leaving hlead hpending hword hg =>
    exact .leaving (hlead'.trans hlead) (hpending'.trans hpending) (hword'.trans hword)
      (hg.work_of_apart h)
  | departing hlead hpending hword hg =>
    rcases hg.work h with hg | ⟨-, hg⟩
    · exact .departing (hlead'.trans hlead) (hpending'.trans hpending) (hword'.trans hword) hg
    · exact .exiting (.inl (hlead'.trans hlead)) (hpending'.trans hpending)
        (hg.exiting (hword'.trans hword))
  | exiting hlead hpending he =>
    exact .exiting (hlead' ▸ hlead) (hpending'.trans hpending) (he.work h)

/-! ### A step of the lead -/

lemma Gathering.emptied (hs : s.Gathering l slots led) :
    (s.put i { s.posts i with slot := none }).Gathering l (Function.update slots i none) led where
  start := hs.start.update Iff.rfl
  finish := hs.finish
  posts := fun j => by
    by_cases hj : j = i
    · subst hj
      have hrests := hs.posts j
      simp only [put, Function.update_self]
      generalize s.posts j = p at hrests ⊢
      cases hrests with
      | ready => exact .ready
      | starting => exact .starting
      | finishing hg => exact .finishing hg
    · simpa only [put, Function.update_of_ne hj] using hs.posts j

lemma Gathering.slot (hs : s.Gathering l slots led) (i : Fin n) : (s.posts i).slot = slots i := by
  have hrests := hs.posts i
  generalize s.posts i = p at hrests
  cases hrests <;> rfl

/-- What holds before and after every step. -/
structure Inv (o : Script) (commands : List Command) (s : BarrierPool n) : Prop where
  phase : s.Phase o s.past
  order : s.returned.map Prod.fst ++ (s.lead.command.toList ++ s.pending) = commands
  failures : s.returned.map Prod.snd =
    ((Pool.inline n o.runner).dispatchEach (s.returned.map Prod.fst) fun _ => []).1
  exits : ∀ r ∈ s.returned, r.1.kind = .exit → r.2 = []

variable {commands : List Command}

lemma Inv.init (o : Script) (commands : List Command) : (init n commands).Inv o commands where
  phase := .idle rfl ⟨.nobody nofun, rfl, fun _ => .ready⟩
  order := rfl
  failures := rfl
  exits := nofun

lemma Inv.work (hs : s.Inv o commands) (h : s.work o i = some t) : t.Inv o commands := by
  obtain ⟨-, hlead, hpending, hreturned⟩ := work_frame h
  have hpast : t.past = s.past := by rw [BarrierPool.past, BarrierPool.past, hreturned]
  refine ⟨hpast ▸ hs.phase.work h, ?_, ?_, hreturned ▸ hs.exits⟩
  · rw [hreturned, hlead, hpending]
    exact hs.order
  · rw [hreturned]
    exact hs.failures

lemma Inv.of_phase (hs : s.Inv o commands) (hreturned : t.returned = s.returned)
    (hcommands : t.lead.command.toList ++ t.pending = s.lead.command.toList ++ s.pending)
    (h : t.Phase o s.past) : t.Inv o commands := by
  have hpast : t.past = s.past := by rw [BarrierPool.past, BarrierPool.past, hreturned]
  refine ⟨hpast ▸ h, ?_, ?_, hreturned ▸ hs.exits⟩
  · rw [hreturned, hcommands]
    exact hs.order
  · rw [hreturned]
    exact hs.failures

lemma Inv.of_returned (hn : 0 < n) (hs : s.Inv o commands)
    (hreturned : t.returned = s.returned ++ [(c, o.failures n n s.past c)])
    (hcommands : c :: (t.lead.command.toList ++ t.pending) = s.lead.command.toList ++ s.pending)
    (h : t.Phase o (s.past ++ [c].filter (·.IsWork))) : t.Inv o commands := by
  have hpast : t.past = s.past ++ [c].filter (·.IsWork) := by
    rw [BarrierPool.past, BarrierPool.past, hreturned, List.map_append, List.filter_append]
    rfl
  refine ⟨hpast ▸ h, ?_, ?_, fun r hr hexit => ?_⟩
  · rw [hreturned, ← hs.order, ← hcommands, List.map_append, List.append_assoc]
    rfl
  · rw [hreturned, List.map_append, List.map_append, hs.failures]
    exact (Pool.inline_returns hn _ c).symm
  · rw [hreturned, List.mem_append, List.mem_singleton] at hr
    rcases hr with hr | rfl
    · exact hs.exits r hr hexit
    · exact o.failures_exit n n s.past hexit

/-- The lead empties the next slot, or returns when there is none. -/
lemma Inv.collect (hn : 0 < n) (hs : s.Inv o commands) (hc : c.IsWork) {next : ℕ} (hnext : next ≤ n)
    (hlead : s.lead = .collecting c next (o.failures n next s.past c))
    (hg : s.Gathering (s.past ++ [c])
      (fun i => if i < next then none else o.failure? i n s.past c) false)
    (h : s.direct = some t) : t.Inv o commands := by
  by_cases hlt : next < n
  · have hslot : (s.posts ⟨next, hlt⟩).slot = o.failure? next n s.past c := by
      rw [hg.slot, if_neg (lt_irrefl next)]
    simp only [BarrierPool.direct, hlead, dif_pos hlt, hslot, ← Script.failures_succ,
      Option.some.injEq] at h
    subst h
    refine hs.of_phase rfl (by rw [hlead]; rfl) (.collecting hc hlt rfl ?_)
    have hg' := hg.emptied (i := ⟨next, hlt⟩)
    have hslots : Function.update (fun i : Fin n => if i.1 < next then none else
        o.failure? i n s.past c) ⟨next, hlt⟩ none =
        fun i : Fin n => if i.1 < next + 1 then none else o.failure? i n s.past c := by
      funext i
      by_cases hi : i = ⟨next, hlt⟩
      · subst hi
        simp
      · have hne : i.1 ≠ next := fun h => hi (Fin.ext h)
        rw [Function.update_of_ne hi]
        exact if_congr (by omega) rfl rfl
    rw [hslots] at hg'
    exact ⟨hg'.start, hg'.finish, hg'.posts⟩
  · have hend : next = n := by omega
    subst hend
    simp only [BarrierPool.direct, hlead, dif_neg hlt, Option.some.injEq] at h
    subst h
    refine hs.of_returned hn (c := c) rfl (by rw [hlead]; rfl) ?_
    have hkeep : [c].filter (·.IsWork) = [c] := by simp [hc]
    have hslots : (fun i : Fin next => if i.1 < next then none else o.failure? i next s.past c) =
        fun _ => none := funext fun i => if_pos i.2
    rw [hkeep]
    rw [hslots] at hg
    exact .idle rfl ⟨hg.start, hg.finish, hg.posts⟩

/-- The lead stores the next command, skips one to leave, or drops the pool when there is none. -/
lemma Inv.fetch (hn : 0 < n) (hs : s.Inv o commands) (hlead : s.lead = .idle)
    (hg : s.Gathering s.past (fun _ => none) false) (h : s.direct = some t) :
    t.Inv o commands := by
  cases hpending : s.pending with
  | nil =>
    simp only [BarrierPool.direct, hlead, hpending, Option.some.injEq] at h
    subst h
    exact hs.of_phase rfl (by rw [hlead, hpending]; rfl)
      (.leaving rfl rfl rfl ⟨hg.start, hg.finish, hg.posts⟩)
  | cons c rest =>
    by_cases hc : c.kind = .exit
    · simp only [BarrierPool.direct, hlead, hpending, if_pos hc, Option.some.injEq] at h
      subst h
      have hnone := o.failures_exit n n s.past hc
      have hskip : [c].filter (·.IsWork) = [] := by
        simp [Command.IsWork, hc]
      refine hs.of_returned hn (c := c) (by rw [hnone]) (by rw [hlead, hpending]; rfl) ?_
      rw [hskip, List.append_nil]
      exact .idle rfl ⟨hg.start, hg.finish, hg.posts⟩
    · simp only [BarrierPool.direct, hlead, hpending, if_neg hc, Option.some.injEq] at h
      subst h
      exact hs.of_phase rfl (by rw [hlead, hpending]; rfl)
        (.stored rfl hc rfl ⟨hg.start, hg.finish, hg.posts⟩)

lemma Inv.enter (hs : s.Inv o commands) (hlead : s.lead = .stored c) (hc : c.IsWork)
    (hword : s.word = c.pack) (hg : s.Gathering s.past (fun _ => none) false)
    (h : s.direct = some t) : t.Inv o commands := by
  simp only [BarrierPool.direct, hlead, Option.some.injEq] at h
  subst h
  refine hs.of_phase rfl (by rw [hlead]; rfl) ?_
  rw [hg.start.generation]
  rcases hg.start.arrive_lead with hstart | hstart
  · exact .starting rfl hc hword ⟨hstart, hg.finish, hg.posts⟩
  · exact .started (.inl rfl) (Gathered.working ⟨hstart, hg.finish, hg.posts⟩ hc hword)

lemma Inv.pass (hs : s.Inv o commands)
    (hlead : s.lead = .starting c s.past.length ∨ s.lead = .started c)
    (hw : s.Working o s.past c false) (h : s.direct = some t) : t.Inv o commands := by
  rcases hlead with hlead | hlead
  · have hgen : ¬s.past.length + 1 = s.past.length := Nat.succ_ne_self _
    simp only [BarrierPool.direct, hlead, hw.start, if_neg hgen, Option.some.injEq] at h
    subst h
    exact hs.of_phase rfl (by rw [hlead]; rfl)
      (.started (.inr rfl) ⟨hw.isWork, hw.word, rfl, hw.finish, hw.posts⟩)
  · simp only [BarrierPool.direct, hlead, Option.some.injEq] at h
    subst h
    refine hs.of_phase rfl (by rw [hlead]; rfl) ?_
    rw [hw.finish.generation]
    rcases hw.finish.arrive_lead with hfinish | hfinish
    · exact .finishing rfl ⟨hw.isWork, hw.word, hw.start, hfinish, hw.posts⟩
    · exact .finished rfl hw.isWork (Worked.gathering ⟨hw.start, hfinish, hw.posts⟩)

lemma Inv.leave (hs : s.Inv o commands) (hlead : s.lead = .leaving) (hpending : s.pending = [])
    (hword : s.word = Command.exit.pack) (hg : s.Gathering s.past (fun _ => none) false)
    (h : s.direct = some t) : t.Inv o commands := by
  simp only [BarrierPool.direct, hlead, Option.some.injEq] at h
  subst h
  refine hs.of_phase rfl (by rw [hlead]; rfl) ?_
  rw [hg.start.generation]
  rcases hg.start.arrive_lead with hstart | hstart
  · exact .departing rfl hpending hword ⟨hstart, hg.finish, hg.posts⟩
  · exact .exiting (.inl rfl) hpending (Gathered.exiting ⟨hstart, hg.finish, hg.posts⟩ hword)

/-- The lead waits for the workers to be gone, one by one. -/
lemma Inv.join (hs : s.Inv o commands) (hlead : s.lead = .leavingStart s.past.length ∨
      (∃ next, s.lead = .joining next) ∨ s.lead = .left)
    (hpending : s.pending = []) (he : s.Exiting s.past) (h : s.direct = some t) :
    t.Inv o commands := by
  rcases hlead with hlead | ⟨next, hlead⟩ | hlead
  · have hgen : ¬s.past.length + 1 = s.past.length := Nat.succ_ne_self _
    simp only [BarrierPool.direct, hlead, he.start, if_neg hgen, Option.some.injEq] at h
    subst h
    exact hs.of_phase rfl (by rw [hlead]; rfl)
      (.exiting (.inr (.inl ⟨0, rfl⟩)) hpending ⟨he.word, rfl, he.posts⟩)
  · simp only [BarrierPool.direct, hlead] at h
    split_ifs at h
    · cases h
      exact hs.of_phase rfl (by rw [hlead]; rfl)
        (.exiting (.inr (.inl ⟨next + 1, rfl⟩)) hpending ⟨he.word, he.start, he.posts⟩)
    · cases h
      exact hs.of_phase rfl (by rw [hlead]; rfl)
        (.exiting (.inr (.inr rfl)) hpending ⟨he.word, he.start, he.posts⟩)
  · simp only [BarrierPool.direct, hlead, reduceCtorEq] at h

lemma Inv.direct (hn : 0 < n) (hs : s.Inv o commands) (h : s.direct = some t) :
    t.Inv o commands := by
  cases hs.phase with
  | idle hlead hg => exact hs.fetch hn hlead hg h
  | stored hlead hc hword hg => exact hs.enter hlead hc hword hg h
  | started hlead hw => exact hs.pass hlead hw h
  | @finished c hlead hc hg =>
    have hgen : ¬(s.past ++ [c]).length = s.past.length := by simp
    simp only [BarrierPool.direct, hlead, hg.finish, if_neg hgen, Option.some.injEq] at h
    subst h
    refine hs.of_phase rfl (by rw [hlead]; rfl) (.collecting hc (Nat.zero_le n) rfl ?_)
    simp only [Nat.not_lt_zero, if_false]
    exact ⟨hg.start, by simp, hg.posts⟩
  | collecting hc hnext hlead hg => exact hs.collect hn hc hnext hlead hg h
  | leaving hlead hpending hword hg => exact hs.leave hlead hpending hword hg h
  | exiting hlead hpending he => exact hs.join hlead hpending he h
  -- the lead waits at a closed gate, and has no step
  | starting hlead hc hword hg | departing hlead hpending hword hg =>
    simp only [BarrierPool.direct, hlead, hg.start.generation, if_true, reduceCtorEq] at h
  | finishing hlead hw =>
    simp only [BarrierPool.direct, hlead, hw.finish.generation, if_true, reduceCtorEq] at h

lemma Inv.step (hn : 0 < n) (hs : s.Inv o commands) {p : Party n} (h : s.step o p = some t) :
    t.Inv o commands := by
  cases p with
  | lead => exact hs.direct hn h
  | worker i => exact hs.work h

lemma Inv.run (hn : 0 < n) (hs : s.Inv o commands) {schedule : List (Party n)}
    (h : s.run o schedule = some t) : t.Inv o commands :=
  run_keeps (P := fun s => s.Inv o commands) (fun _ _ _ hs h => hs.step hn h) hs h

/-! ### What follows -/

lemma Phase.exists_step (hs : s.Phase o l) (hleft : s.lead ≠ .left) :
    ∃ p t, s.step o p = some t := by
  cases hs with
  | idle hlead hg =>
    refine ⟨.lead, ?_⟩
    cases hpending : s.pending with
    | nil => simp [BarrierPool.step, direct, hlead, hpending]
    | cons c rest =>
      by_cases hc : c.kind = .exit <;> simp [BarrierPool.step, direct, hlead, hpending, hc]
  | stored hlead | leaving hlead => exact ⟨.lead, by simp [BarrierPool.step, direct, hlead]⟩
  | starting hlead hc hword hg =>
    obtain ⟨i, hi⟩ := hg.start.exists_missing
    exact ⟨.worker i, hg.enabled hi⟩
  | started hlead hw =>
    refine ⟨.lead, ?_⟩
    rcases hlead with hlead | hlead <;> simp [BarrierPool.step, direct, hlead, hw.start]
  | finishing hlead hw =>
    obtain ⟨i, hi⟩ := hw.finish.exists_missing
    exact ⟨.worker i, hw.enabled hi⟩
  | finished hlead hc hg => exact ⟨.lead, by simp [BarrierPool.step, direct, hlead, hg.finish]⟩
  | @collecting c next hc hnext hlead hg =>
    refine ⟨.lead, ?_⟩
    by_cases hlt : next < n <;> simp [BarrierPool.step, direct, hlead, hlt]
  | departing hlead hpending hword hg =>
    obtain ⟨i, hi⟩ := hg.start.exists_missing
    exact ⟨.worker i, hg.enabled hi⟩
  | exiting hlead hpending he =>
    rcases hlead with hlead | ⟨next, hlead⟩ | hlead
    · exact ⟨.lead, by simp [BarrierPool.step, direct, hlead, he.start]⟩
    · by_cases hlt : next < n
      · by_cases hgone : (s.posts ⟨next, hlt⟩).stage = .gone
        · exact ⟨.lead, by simp [BarrierPool.step, direct, hlead, hlt, hgone]⟩
        · exact ⟨.worker ⟨next, hlt⟩, he.enabled hgone⟩
      · exact ⟨.lead, by simp [BarrierPool.step, direct, hlead, hlt]⟩
    · exact absurd hlead hleft

end BarrierPool

/-- The slices of all past commands have ended, at most that of the command at hand is begun beyond
them, and a slice that runs is of that command. -/
structure Post.Follows (p : Post) (past : List Command) (current : Option Command) : Prop where
  ended_past : past <+: p.ended
  begun_ended : p.ended <+: p.begun
  begun_prefix : p.begun <+: past ++ current.toList
  running : ∀ c, p.stage = .running c → current = some c

namespace Post

variable {p : Post} {l : List Command} {c : Command} {current : Option Command}
  {slot failure : Option Failure}

lemma Follows.eq (h : p.Follows l none) : p.begun = l ∧ p.ended = l := by
  have hbegun : p.begun <+: l := by simpa using h.begun_prefix
  have hle : l <+: p.begun := h.ended_past.trans h.begun_ended
  have heq := hbegun.eq_of_length (hbegun.length_le.antisymm hle.length_le)
  have hended := h.begun_ended
  rw [heq] at hended
  exact ⟨heq, hended.eq_of_length (hended.length_le.antisymm h.ended_past.length_le)⟩

lemma Rests.follows (h : p.Rests l slot) : p.Follows l current := by
  cases h <;> exact ⟨List.prefix_rfl, List.prefix_rfl, List.prefix_append _ _, nofun⟩

lemma Rests.follows_append (h : p.Rests (l ++ [c]) slot) : p.Follows l (some c) := by
  cases h <;> exact ⟨List.prefix_append _ _, List.prefix_rfl, List.prefix_rfl, nofun⟩

lemma Works.follows (h : p.Works failure l c) : p.Follows l (some c) := by
  cases h with
  | starting | woken | loaded =>
    exact ⟨List.prefix_rfl, List.prefix_rfl, List.prefix_append _ _, nofun⟩
  | running =>
    refine ⟨List.prefix_rfl, List.prefix_append _ _, List.prefix_rfl, fun d hd => ?_⟩
    cases hd
    rfl
  | ended | reported | finishing =>
    exact ⟨List.prefix_append _ _, List.prefix_rfl, List.prefix_rfl, nofun⟩

lemma Exits.follows (h : p.Exits l) : p.Follows l current := by
  cases h <;> exact ⟨List.prefix_rfl, List.prefix_rfl, List.prefix_append _ _, nofun⟩

end Post

lemma Lead.Drops.command {lead : Lead} (h : lead.Drops) : lead.command = none := by
  cases lead with
  | leaving | leavingStart | joining | left => rfl
  | idle | stored | starting | started | finishing | collecting => cases h

namespace BarrierPool

variable {n : ℕ} {o : Script} {s t : BarrierPool n} {l commands : List Command}

lemma Phase.follows (hs : s.Phase o l) (i : Fin n) : (s.posts i).Follows l s.lead.command := by
  cases hs with
  | idle hlead hg | stored hlead hc hword hg | starting hlead hc hword hg
  | leaving hlead hpending hword hg | departing hlead hpending hword hg =>
    exact (hg.posts i).follows
  | @started c hlead hw =>
    have hcommand : s.lead.command = some c := by
      rcases hlead with hlead | hlead <;> rw [hlead] <;> rfl
    rw [hcommand]
    exact (hw.posts i).follows
  | finishing hlead hw =>
    rw [hlead]
    exact (hw.posts i).follows
  | finished hlead hc hg | collecting hc hnext hlead hg =>
    rw [hlead]
    exact (hg.posts i).follows_append
  | exiting hlead hpending he => exact (he.posts i).follows

/-- The pool has returned what another one returns for the same commands. -/
def Returns (s : BarrierPool n) (p : Pool (ℕ → List Command)) : Prop :=
  s.returned.map Prod.snd = (p.dispatchEach (s.returned.map Prod.fst) fun _ => []).1

lemma Inv.order_of_drops (hs : s.Inv o commands) (hdrops : s.lead.Drops) :
    s.returned.map Prod.fst = commands := by
  have hpending : s.pending = [] := by
    cases hs.phase with
    | leaving hlead hpending | departing hlead hpending | exiting hlead hpending => exact hpending
    | idle hlead | stored hlead | starting hlead | finishing hlead | finished hlead
    | collecting _ _ hlead =>
      rw [hlead] at hdrops
      cases hdrops
    | started hlead =>
      rcases hlead with hlead | hlead <;> rw [hlead] at hdrops <;> cases hdrops
  have horder := hs.order
  rwa [hdrops.command, hpending, Option.toList_none, List.append_nil, List.append_nil] at horder

lemma Inv.begun_of_drops (hs : s.Inv o commands) (hdrops : s.lead.Drops) (i : Fin n) :
    (s.posts i).begun = commands.filter (·.IsWork) := by
  have hfollows := hs.phase.follows i
  rw [hdrops.command] at hfollows
  rw [hfollows.eq.1, past, hs.order_of_drops hdrops]

lemma drops_step {p : Party n} (hdrops : s.lead.Drops) (h : s.step o p = some t) :
    t.lead.Drops := by
  cases p with
  | worker i => rwa [(work_frame h).2.1]
  | lead =>
    cases hlead : s.lead with
    | leaving =>
      simp only [step, direct, hlead, Option.some.injEq] at h
      subst h
      trivial
    | leavingStart g =>
      simp only [step, direct, hlead, Option.ite_none_left_eq_some, Option.some.injEq] at h
      obtain ⟨-, rfl⟩ := h
      trivial
    | joining next =>
      simp only [step, direct, hlead] at h
      split_ifs at h <;> cases h <;> trivial
    | left => simp only [step, direct, hlead, reduceCtorEq] at h
    | idle | stored c | starting c g | started c | finishing c g | collecting c next failures =>
      rw [hlead] at hdrops
      cases hdrops

/-- **A pool of threads is the pool in turn**, for slices that look at nothing but their own past.
In every state that a new pool can come to, in any order of the parties: the dispatches so far have
returned what the slices in turn return, and a command to leave nothing; every worker has ended the
slices of all past work and has begun at most that of the command at hand, which is all that it can
be running; between two dispatches it has run each once; unless the pool is gone, some party can go
on; and once the command to leave is stored, no slice is begun any more. -/
theorem refines_inline (hn : 0 < n) (o : Script) (commands : List Command)
    {schedule : List (Party n)} {s : BarrierPool n}
    (h : (init n commands).run o schedule = some s) :
    s.returned.map Prod.fst ++ (s.lead.command.toList ++ s.pending) = commands ∧
      s.Returns (Pool.inline n o.runner) ∧ s.Returns (Pool.threaded n o.runner) ∧
      (∀ r ∈ s.returned, r.1.kind = .exit → r.2 = []) ∧
      (∀ i, (s.posts i).Follows s.past s.lead.command) ∧
      (s.lead.command = none → ∀ i, (s.posts i).begun = s.past ∧ (s.posts i).ended = s.past) ∧
      (s.lead ≠ .left → ∃ p t, s.step o p = some t) ∧
      (s.lead.Drops → s.returned.map Prod.fst = commands ∧ ∀ later t, s.run o later = some t →
        ∀ i, (t.posts i).begun = (s.posts i).begun) := by
  have hs : s.Inv o commands := (Inv.init o commands).run hn h
  have hthreaded := Pool.threaded_eq_inline n o.runner
  refine ⟨hs.order, hs.failures, hthreaded ▸ hs.failures, hs.exits, hs.phase.follows,
    fun hcommand i => ?_, hs.phase.exists_step,
    fun hdrops => ⟨hs.order_of_drops hdrops, fun later t hrun i => ?_⟩⟩
  · have hfollows := hs.phase.follows i
    rw [hcommand] at hfollows
    exact hfollows.eq
  · have ht : t.Inv o commands := hs.run hn hrun
    have htdrops : t.lead.Drops :=
      run_keeps (P := fun s => s.lead.Drops) (fun _ _ _ hs h => drops_step hs h) hdrops hrun
    rw [hs.begun_of_drops hdrops i, ht.begun_of_drops htdrops i]

end BarrierPool

/-! ### Two workers -/

namespace Duo

/-- Both workers fail in an update, and the first one breaks off a rendering. -/
def script : Script := fun index _ past c =>
  match c.kind with
  | .render => if index = 0 then .error (.panicked "no picture") else .ok ()
  | _ => .error (.failed s!"after {past.length} commands")

def commands : List Command := [Command.update 2, Command.exit, Command.render 0]

/-- The first worker is always ahead: it comes to the next start gate while the second one has yet
to get through the finish gate. -/
def schedule : List (Party 2) :=
  [(.worker 0, 1), (.lead, 2), (.worker 1, 1), (.worker 0, 6), (.lead, 2), (.worker 1, 6),
    (.worker 0, 2), (.lead, 7), (.worker 1, 2), (.worker 0, 6), (.lead, 2), (.worker 1, 6),
    (.worker 0, 2), (.lead, 6), (.worker 1, 2), (.worker 0, 2), (.lead, 2), (.worker 1, 2),
    (.lead, 2)].flatMap fun (p, k) => List.replicate k p

def returned : List (Command × List Failure) :=
  [(Command.update 2, [⟨0, 2, .failed "after 0 commands"⟩, ⟨1, 2, .failed "after 0 commands"⟩]),
    (Command.exit, []), (Command.render 0, [⟨0, 0, .panicked "no picture"⟩])]

end Duo

namespace BarrierPool

/-- Two workers, one ahead of the other, come to the end of two dispatches and of the pool. -/
theorem refines_inline_duo : ∃ s : BarrierPool 2, (0 < 2 ∧
    (init 2 Duo.commands).run Duo.script Duo.schedule = some s) ∧ s.lead = .left ∧
      s.returned = Duo.returned ∧ s.Returns (Pool.inline 2 Duo.script.runner) ∧
      ∀ i, (s.posts i).begun = [Command.update 2, Command.render 0] ∧
        (s.posts i).ended = [Command.update 2, Command.render 0] := by
  have hchecked : ((init 2 Duo.commands).run Duo.script Duo.schedule).map
      (fun s => (s.lead, s.returned)) = some (.left, Duo.returned) := by
    decide +kernel
  obtain ⟨s, hrun, hs⟩ := Option.map_eq_some_iff.1 hchecked
  have hlead : s.lead = .left := congrArg Prod.fst hs
  have hreturned : s.returned = Duo.returned := congrArg Prod.snd hs
  have hpast : s.past = [Command.update 2, Command.render 0] := by
    rw [past, hreturned]
    decide
  obtain ⟨-, hinline, -, -, -, hslices, -⟩ :=
    refines_inline Nat.two_pos Duo.script Duo.commands hrun
  rw [hlead, hpast] at hslices
  exact ⟨s, ⟨Nat.two_pos, hrun⟩, hlead, hreturned, hinline, hslices rfl⟩

end BarrierPool

end SolidTrace
