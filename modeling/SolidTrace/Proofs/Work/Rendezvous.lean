import SolidTrace.Proofs.Work.Barrier

/-!
What the two gates keep apart.

Between two dispatches every worker is on its way to the start gate (`Gathering`); some may still
be leaving the finish gate of the dispatch before, which has moved on without them. Once all have
come, the start gate stays at its new generation until the dispatch is over, while the workers go
through their slices (`Working`); the last one at the finish gate ends the dispatch for all. No
party is ever on the other side of a gate that has yet to open, and each has the gate's generation
in hand, so that the two gates can be used over and over. When the command to leave is stored, the
workers find it behind the start gate and go (`Exiting`).
-/

namespace SolidTrace

namespace Post

/-- A worker on its way to the start gate, with the slices of all past commands done. -/
inductive Rests (past : List Command) (slot : Option Failure) : Post → Prop
  | ready : Rests past slot ⟨.ready, slot, past, past⟩
  | starting : Rests past slot ⟨.starting past.length, slot, past, past⟩
  | finishing {g : ℕ} (hg : g < past.length) : Rests past slot ⟨.finishing g, slot, past, past⟩

/-- A worker between the gates, with the slice of a command that fails or not. -/
inductive Works (failure : Option Failure) (past : List Command) (c : Command) : Post → Prop
  | starting : Works failure past c ⟨.starting past.length, none, past, past⟩
  | woken : Works failure past c ⟨.woken, none, past, past⟩
  | loaded : Works failure past c ⟨.loaded c, none, past, past⟩
  | running : Works failure past c ⟨.running c, none, past ++ [c], past⟩
  | ended : Works failure past c ⟨.ended failure, none, past ++ [c], past ++ [c]⟩
  | reported : Works failure past c ⟨.reported, failure, past ++ [c], past ++ [c]⟩
  | finishing : Works failure past c ⟨.finishing past.length, failure, past ++ [c], past ++ [c]⟩

/-- A worker on its way out. -/
inductive Exits (past : List Command) : Post → Prop
  | starting : Exits past ⟨.starting past.length, none, past, past⟩
  | woken : Exits past ⟨.woken, none, past, past⟩
  | gone : Exits past ⟨.gone, none, past, past⟩

end Post

namespace BarrierPool

variable {n : ℕ} {o : Script} {s t : BarrierPool n} {past : List Command} {c : Command}
  {slots : Fin n → Option Failure} {led : Bool} {i : Fin n}

/-- The workers come to the start gate after the past commands. -/
structure Gathering (s : BarrierPool n) (past : List Command) (slots : Fin n → Option Failure)
    (led : Bool) : Prop where
  start : s.start.Holds past.length s.posts (.starting past.length) led
  finish : s.finish = ⟨0, past.length⟩
  posts : ∀ i, (s.posts i).Rests past (slots i)

/-- The start gate has just opened. -/
structure Gathered (s : BarrierPool n) (past : List Command) (slots : Fin n → Option Failure) :
    Prop where
  start : s.start.Opened past.length s.posts (.starting past.length)
  finish : s.finish = ⟨0, past.length⟩
  posts : ∀ i, (s.posts i).Rests past (slots i)

/-- The workers are on their slices of a command, after the past commands. -/
structure Working (o : Script) (s : BarrierPool n) (past : List Command) (c : Command)
    (led : Bool) : Prop where
  isWork : c.IsWork
  word : s.word = c.pack
  start : s.start = ⟨0, past.length + 1⟩
  finish : s.finish.Holds past.length s.posts (.finishing past.length) led
  posts : ∀ i, (s.posts i).Works (o.failure? i n past c) past c

/-- The finish gate has just opened. -/
structure Worked (o : Script) (s : BarrierPool n) (past : List Command) (c : Command) : Prop where
  start : s.start = ⟨0, past.length + 1⟩
  finish : s.finish.Opened past.length s.posts (.finishing past.length)
  posts : ∀ i, (s.posts i).Works (o.failure? i n past c) past c

/-- The workers leave after the past commands. -/
structure Exiting (s : BarrierPool n) (past : List Command) : Prop where
  word : s.word = Command.exit.pack
  start : s.start = ⟨0, past.length + 1⟩
  posts : ∀ i, (s.posts i).Exits past

/-- A worker touches neither the word nor what belongs to the lead. -/
lemma work_frame (h : s.work o i = some t) :
    t.word = s.word ∧ t.lead = s.lead ∧ t.pending = s.pending ∧ t.returned = s.returned := by
  cases hstage : (s.posts i).stage with
  | starting g | finishing g =>
    simp only [work, hstage, Option.ite_none_left_eq_some, Option.some.injEq] at h
    obtain ⟨-, rfl⟩ := h
    exact ⟨rfl, rfl, rfl, rfl⟩
  | gone => simp only [work, hstage, reduceCtorEq] at h
  | ready | woken | loaded | running | ended | reported =>
    simp only [work, hstage, Option.some.injEq] at h
    subst h
    exact ⟨rfl, rfl, rfl, rfl⟩

lemma Gathering.work (hs : s.Gathering past slots led) (h : s.work o i = some t) :
    t.Gathering past slots led ∨ led = true ∧ t.Gathered past slots := by
  have hi := hs.posts i
  generalize hp : s.posts i = p at hi
  have hupdate : ∀ q, q.Rests past (slots i) →
      ∀ j, (Function.update s.posts i q j).Rests past (slots j) :=
    fun q hq => (Function.forall_update_iff s.posts fun j q => q.Rests past (slots j)).2
      ⟨hq, fun j _ => hs.posts j⟩
  cases hi with
  | ready =>
    simp only [BarrierPool.work, hp, Option.some.injEq] at h
    subst h
    rw [hs.start.generation]
    have hposts := hupdate _ .starting
    rcases hs.start.arrive_worker (i := i) (p := ⟨.starting past.length, slots i, past, past⟩)
      (by rw [hp]; nofun) rfl with hstart | ⟨hled, hstart⟩
    · exact .inl ⟨hstart, hs.finish, hposts⟩
    · exact .inr ⟨hled, hstart, hs.finish, hposts⟩
  | starting =>
    simp only [BarrierPool.work, hp, hs.start.generation, if_true, reduceCtorEq] at h
  | finishing hg =>
    simp only [BarrierPool.work, hp, hs.finish, if_neg hg.ne', Option.some.injEq] at h
    subst h
    exact .inl ⟨hs.start.update (iff_of_false nofun (by rw [hp]; nofun)), hs.finish,
      hupdate _ .ready⟩

lemma Gathering.work_of_apart (hs : s.Gathering past slots false) (h : s.work o i = some t) :
    t.Gathering past slots false := by
  rcases hs.work h with ht | ⟨hled, -⟩
  · exact ht
  · cases hled

lemma Working.work (hs : s.Working o past c led) (h : s.work o i = some t) :
    t.Working o past c led ∨ led = true ∧ t.Worked o past c := by
  have hi := hs.posts i
  generalize hp : s.posts i = p at hi
  have hupdate : ∀ q, q.Works (o.failure? i n past c) past c →
      ∀ j, (Function.update s.posts i q j).Works (o.failure? j n past c) past c :=
    fun q hq => (Function.forall_update_iff s.posts fun j q =>
      q.Works (o.failure? j n past c) past c).2 ⟨hq, fun j _ => hs.posts j⟩
  have hinside : ∀ q, p.stage ≠ .finishing past.length → q.stage ≠ .finishing past.length →
      q.Works (o.failure? i n past c) past c → (s.put i q).Working o past c led :=
    fun q hne hq hworks => ⟨hs.isWork, hs.word, hs.start,
      hs.finish.update (iff_of_false hq (by rw [hp]; exact hne)), hupdate q hworks⟩
  -- only the arrival at the second gate may open it; all other steps leave both gates alone
  cases hi with
  | starting =>
    have hgen : ¬past.length + 1 = past.length := Nat.succ_ne_self _
    simp only [BarrierPool.work, hp, hs.start, if_neg hgen, Option.some.injEq] at h
    subst h
    exact .inl (hinside _ nofun nofun .woken)
  | woken =>
    have hkind : ¬c.kind = .exit := hs.isWork
    simp only [BarrierPool.work, hp, hs.word, Command.unpack_pack, if_neg hkind,
      Option.some.injEq] at h
    subst h
    exact .inl (hinside _ nofun nofun .loaded)
  | loaded =>
    simp only [BarrierPool.work, hp, Option.some.injEq] at h
    subst h
    exact .inl (hinside _ nofun nofun .running)
  | running =>
    simp only [BarrierPool.work, hp, Option.some.injEq] at h
    subst h
    exact .inl (hinside _ nofun nofun .ended)
  | ended =>
    simp only [BarrierPool.work, hp, Option.some.injEq, Option.or_none] at h
    subst h
    exact .inl (hinside _ nofun nofun .reported)
  | reported =>
    simp only [BarrierPool.work, hp, Option.some.injEq] at h
    subst h
    rw [hs.finish.generation]
    have hposts := hupdate _ .finishing
    rcases hs.finish.arrive_worker (i := i)
      (p := ⟨.finishing past.length, o.failure? i n past c, past ++ [c], past ++ [c]⟩)
      (by rw [hp]; nofun) rfl with hfinish | ⟨hled, hfinish⟩
    · exact .inl ⟨hs.isWork, hs.word, hs.start, hfinish, hposts⟩
    · exact .inr ⟨hled, hs.start, hfinish, hposts⟩
  | finishing =>
    simp only [BarrierPool.work, hp, hs.finish.generation, if_true, reduceCtorEq] at h

lemma Exiting.work (hs : s.Exiting past) (h : s.work o i = some t) : t.Exiting past := by
  have hi := hs.posts i
  generalize hp : s.posts i = p at hi
  have hupdate : ∀ q, q.Exits past → ∀ j, (Function.update s.posts i q j).Exits past :=
    fun q hq => (Function.forall_update_iff s.posts fun _ q => q.Exits past).2
      ⟨hq, fun j _ => hs.posts j⟩
  cases hi with
  | starting =>
    have hgen : ¬past.length + 1 = past.length := Nat.succ_ne_self _
    simp only [BarrierPool.work, hp, hs.start, if_neg hgen, Option.some.injEq] at h
    subst h
    exact ⟨hs.word, hs.start, hupdate _ .woken⟩
  | woken =>
    have hkind : Command.exit.kind = .exit := rfl
    simp only [BarrierPool.work, hp, hs.word, Command.unpack_pack, if_pos hkind,
      Option.some.injEq] at h
    subst h
    exact ⟨hs.word, hs.start, hupdate _ .gone⟩
  | gone => simp only [BarrierPool.work, hp, reduceCtorEq] at h

lemma Gathered.post (hs : s.Gathered past slots) (i : Fin n) :
    s.posts i = ⟨.starting past.length, slots i, past, past⟩ := by
  have hi := hs.posts i
  have hstage := hs.start.all i
  generalize s.posts i = p at hi hstage
  cases hi with
  | starting => rfl
  | ready | finishing => cases hstage

lemma Gathered.working (hs : s.Gathered past fun _ => none) (hc : c.IsWork)
    (hword : s.word = c.pack) : s.Working o past c false where
  isWork := hc
  word := hword
  start := hs.start.eq
  finish := by
    rw [hs.finish]
    exact .nobody fun i => by rw [hs.start.all i]; nofun
  posts := fun i => hs.post i ▸ .starting

lemma Gathered.exiting (hs : s.Gathered past fun _ => none)
    (hword : s.word = Command.exit.pack) : s.Exiting past where
  word := hword
  start := hs.start.eq
  posts := fun i => hs.post i ▸ .starting

lemma Worked.gathering (hs : s.Worked o past c) :
    s.Gathering (past ++ [c]) (fun i => o.failure? i n past c) false := by
  have hlength : (past ++ [c]).length = past.length + 1 := List.length_append
  refine ⟨?_, by rw [hs.finish.eq, hlength], fun i => ?_⟩
  · rw [hs.start, hlength]
    exact .nobody fun i => by rw [hs.finish.all i]; nofun
  · have hi := hs.posts i
    have hstage := hs.finish.all i
    generalize s.posts i = p at hi hstage
    cases hi with
    | finishing => exact .finishing (by omega)
    | starting | woken | loaded | running | ended | reported => cases hstage

lemma Gathering.enabled (hs : s.Gathering past slots led)
    (hi : (s.posts i).stage ≠ .starting past.length) : ∃ t, s.work o i = some t := by
  have hrests := hs.posts i
  generalize hp : s.posts i = p at hrests hi
  cases hrests with
  | ready => simp [BarrierPool.work, hp]
  | starting => exact absurd rfl hi
  | finishing hg => simp [BarrierPool.work, hp, hs.finish, hg.ne']

lemma Working.enabled (hs : s.Working o past c led)
    (hi : (s.posts i).stage ≠ .finishing past.length) : ∃ t, s.work o i = some t := by
  have hworks := hs.posts i
  generalize hp : s.posts i = p at hworks hi
  cases hworks with
  | starting => simp [BarrierPool.work, hp, hs.start]
  | finishing => exact absurd rfl hi
  | woken | loaded | running | ended | reported => simp [BarrierPool.work, hp]

lemma Exiting.enabled (hs : s.Exiting past) (hi : (s.posts i).stage ≠ .gone) :
    ∃ t, s.work o i = some t := by
  have hexits := hs.posts i
  generalize hp : s.posts i = p at hexits hi
  cases hexits with
  | starting => simp [BarrierPool.work, hp, hs.start]
  | woken => simp [BarrierPool.work, hp]
  | gone => exact absurd rfl hi

end BarrierPool

end SolidTrace
