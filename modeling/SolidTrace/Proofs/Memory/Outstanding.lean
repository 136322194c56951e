import SolidTrace.Proofs.Memory.Leases
import SolidTrace.Proofs.Memory.Search

/-!
What is outstanding of a heap.

A heap takes back by address alone, and it may be given any block: one of its own, one that it has
back already, or one that was made up. `Heap.history` carries out any calls and keeps a log of what
they came to. The blocks recorded as live are those that the log shows as outstanding: handed out,
and of an address that no block given back later has. Since every block lies above all earlier ones,
an address stands for one block for good, and a block that is given back late or twice can not be
taken for another one.
-/

namespace SolidTrace

namespace Blocks

variable {l : Blocks} {b : Block} {a : ℕ}

lemma bytes_eq_sum (l : Blocks) : l.bytes = (l.map Block.size).sum := by
  induction l with
  | nil => rfl
  | cons b l ih => rw [bytes_cons, ih, List.map_cons, List.sum_cons]

lemma Apart.mem_erase (h : l.Apart) : b ∈ l.erase a ↔ b ∈ l ∧ b.address ≠ a := by
  induction l with
  | nil => exact ⟨nofun, nofun⟩
  | cons c l ih =>
    by_cases hc : c.address = a
    · have hbelow := h.lt_of_head (Nat.le_of_eq hc)
      rw [erase_cons_of_eq hc]
      constructor
      · exact fun hb => ⟨List.mem_cons_of_mem c hb, Nat.ne_of_lt (hbelow b hb)⟩
      · rintro ⟨hb, hne⟩
        rcases List.mem_cons.mp hb with rfl | hb
        · exact absurd hc hne
        · exact hb
    · rw [erase_cons_of_ne hc, List.mem_cons, List.mem_cons, ih h.of_cons]
      constructor
      · rintro (rfl | ⟨hb, hne⟩)
        · exact ⟨.inl rfl, hc⟩
        · exact ⟨.inr hb, hne⟩
      · rintro ⟨rfl | hb, hne⟩
        · exact .inl rfl
        · exact .inr ⟨hb, hne⟩

end Blocks

namespace Heap

/-! ### Calls and logs -/

/-- What a heap can be asked: to hand out a block, or to take back one that may be anybody's. -/
inductive Call
  | allocate (size align : ℕ)
  | free (b : Block)
deriving DecidableEq

/-- What a call came to. -/
inductive Event
  | granted (lease : Lease)
  | refused (cause : AllocError)
  | returned (b : Block)
deriving DecidableEq

def Event.lease? : Event → Option Lease
  | .granted lease => some lease
  | _ => none

def call (h : Heap) : Call → Event × Heap
  | .allocate size align =>
    match h.allocate size align with
    | (.ok b, h) => (.granted ⟨b, align⟩, h)
    | (.error e, h) => (.refused e, h)
  | .free b => (.returned b, h.free b.address)

/-- One more call, after those of a log. -/
def logged (x : List Event × Heap) (c : Call) : List Event × Heap :=
  (x.1 ++ [(x.2.call c).1], (x.2.call c).2)

/-- The log of calls to a new heap, and the heap that they leave. -/
def history (budget : Option ℕ) (calls : List Call) : List Event × Heap :=
  calls.foldl logged ([], ofBudget budget)

/-- The lease was granted, and no block given back later has its address. -/
def Outstanding (log : List Event) (lease : Lease) : Prop :=
  ∃ before later, log = before ++ .granted lease :: later ∧
    ∀ b, .returned b ∈ later → b.address ≠ lease.block.address

/-- An aligned address can be found for a request, and it does not take the heap beyond the
addresses. -/
def HasRoom (h : Heap) (size align : ℕ) : Prop :=
  max h.next align + (align - 1) + max size 1 < addressLimit

/-- The heap has the blocks that the log shows as outstanding, and hands out more of them as its
budget allows. -/
structure Accounted (budget : Option ℕ) (log : List Event) (h : Heap) : Prop where
  live : ∀ b, b ∈ h.live ↔ ∃ align, Outstanding log ⟨b, align⟩
  /-- A block of any other address may be given back and nothing happens. -/
  stray : ∀ b : Block, (∀ lease, Outstanding log lease → lease.block.address ≠ b.address) →
    h.free b.address = h
  aligned : ∀ lease, Outstanding log lease → lease.align ∣ lease.block.address
  disjoint : h.live.Pairwise fun b c => b.address ≠ c.address ∧ ∀ x, b.Holds x → ¬c.Holds x
  /-- No address is handed out twice. -/
  fresh : (log.filterMap Event.lease?).Pairwise fun l m => l.block.address ≠ m.block.address
  balance : h.allocated = (h.live.map Block.size).sum
  within : ∀ n, budget = some n → h.allocated ≤ n
  /-- A request is refused for its alignment or for the budget, as long as there are addresses. -/
  refused_iff : ∀ size align, h.HasRoom size align →
    ((∃ e, (h.allocate size align).1 = .error e) ↔
      (¬∃ k, align = 2 ^ k) ∨ ∃ n, budget = some n ∧ n - h.allocated < size)
  unchanged : ∀ size align e, (h.allocate size align).1 = .error e →
    (h.allocate size align).2 = h

/-! ### Requests -/

variable {h h' : Heap} {b : Block} {size align : ℕ}

lemma check_eq_ok : h.check size = .ok () ↔ ∀ n, h.budget = some n → size ≤ n - h.allocated := by
  unfold check
  rcases hb : h.budget with _ | n
  · exact ⟨fun _ => nofun, fun _ => rfl⟩
  · dsimp only
    split
    · next hlt => exact ⟨nofun, fun hle => absurd (hle n rfl) (Nat.not_le_of_lt hlt)⟩
    · next hge =>
      refine ⟨fun _ m hm => ?_, fun _ => rfl⟩
      obtain rfl := Option.some.inj hm
      exact Nat.le_of_not_lt hge

lemma allocate_granted (ha : h.allocate size align = (.ok b, h')) :
    validAlign align ∧ h.check size = .ok () ∧ align ∣ b.address := by
  unfold allocate at ha
  split at ha
  · cases congrArg Prod.fst ha
  · next halign =>
    split at ha
    · cases congrArg Prod.fst ha
    · next hcheck =>
      split at ha
      · cases congrArg Prod.fst ha
      · next address haddress =>
        obtain rfl := Except.ok.inj (congrArg Prod.fst ha)
        exact ⟨not_not.mp halign, hcheck, dvd_of_alignUp? haddress⟩

lemma call_granted (ha : h.allocate size align = (.ok b, h')) :
    h.call (.allocate size align) = (.granted ⟨b, align⟩, h') := by
  unfold call
  dsimp only
  rw [ha]

lemma call_refused {e : AllocError} (ha : h.allocate size align = (.error e, h')) :
    h.call (.allocate size align) = (.refused e, h') := by
  unfold call
  dsimp only
  rw [ha]

/-- Where there are addresses, that is all that it must meet. -/
lemma exists_allocate (hroom : h.HasRoom size align) (halign : validAlign align)
    (hcheck : h.check size = .ok ()) : ∃ b, (h.allocate size align).1 = .ok b := by
  unfold HasRoom at hroom
  have haddress : alignUp? (max h.next align) align =
      some ((max h.next align + (align - 1)) / align * align) := if_pos (by omega)
  unfold allocate
  rw [if_neg (not_not.mpr halign), hcheck]
  dsimp only
  rw [haddress]
  exact ⟨_, rfl⟩

lemma allocate_refused_iff (hroom : h.HasRoom size align) :
    (∃ e, (h.allocate size align).1 = .error e) ↔
      (¬∃ k, align = 2 ^ k) ∨ ∃ n, h.budget = some n ∧ n - h.allocated < size := by
  have hcheck : h.check size = .ok () ↔ ¬∃ n, h.budget = some n ∧ n - h.allocated < size := by
    rw [check_eq_ok]
    simp
  rw [← validAlign_iff, ← not_iff_not, not_or, not_not, ← hcheck]
  constructor
  · intro hgranted
    rcases ha : h.allocate size align with ⟨e | b, h'⟩
    · exact absurd ⟨e, congrArg Prod.fst ha⟩ hgranted
    · obtain ⟨halign, hbudget, -⟩ := allocate_granted ha
      exact ⟨halign, hbudget⟩
  · rintro ⟨halign, hbudget⟩ ⟨e, he⟩
    obtain ⟨b, hb⟩ := exists_allocate hroom halign hbudget
    cases hb.symm.trans he

section

variable {log : List Event} {lease : Lease} {e : Event}

lemma outstanding_concat : Outstanding (log ++ [e]) lease ↔ e = .granted lease ∨
    Outstanding log lease ∧ ∀ b, e = .returned b → b.address ≠ lease.block.address := by
  constructor
  · rintro ⟨before, later, hlog, hkept⟩
    rcases List.eq_nil_or_concat later with rfl | ⟨later, last, rfl⟩
    · exact .inl (List.singleton_inj.mp (List.append_inj_right' hlog rfl))
    · rw [List.concat_eq_append] at hlog hkept
      rw [← List.cons_append, ← List.append_assoc] at hlog
      obtain ⟨rfl, hlast⟩ := List.append_inj' hlog rfl
      obtain rfl := List.singleton_inj.mp hlast
      refine .inr ⟨⟨before, later, rfl, fun b hb => hkept b (List.mem_append_left _ hb)⟩, ?_⟩
      rintro b rfl
      exact hkept b (List.mem_append_right _ (List.mem_singleton_self _))
  · rintro (rfl | ⟨⟨before, later, rfl, hkept⟩, hlast⟩)
    · exact ⟨log, [], rfl, nofun⟩
    · refine ⟨before, later ++ [e], List.append_assoc .., fun b hb => ?_⟩
      rcases List.mem_append.mp hb with hb | hb
      · exact hkept b hb
      · exact hlast b (List.mem_singleton.mp hb).symm

lemma Outstanding.mem (h : Outstanding log lease) : .granted lease ∈ log := by
  obtain ⟨before, later, rfl, -⟩ := h
  exact List.mem_append_right _ List.mem_cons_self

end

/-! ### Heaps and logs -/

/-- What each call keeps: all that was ever granted lies aligned below the next address. -/
structure Tracks (budget : Option ℕ) (log : List Event) (h : Heap) : Prop where
  sound : h.Sound
  budgeted : h.budget = budget
  live : ∀ b, b ∈ h.live ↔ ∃ align, Outstanding log ⟨b, align⟩
  granted : ∀ lease, .granted lease ∈ log →
    lease.block.behind ≤ h.next ∧ lease.align ∣ lease.block.address
  fresh : (log.filterMap Event.lease?).Pairwise fun l m => l.block.address ≠ m.block.address
  within : ∀ n, budget = some n → h.allocated ≤ n

variable {budget : Option ℕ} {log : List Event}

lemma tracks_ofBudget (budget : Option ℕ) : Tracks budget [] (ofBudget budget) := by
  refine ⟨sound_ofBudget budget, rfl, fun b => ⟨nofun, ?_⟩, nofun, .nil, fun n _ => Nat.zero_le n⟩
  rintro ⟨align, houtstanding⟩
  cases houtstanding.mem

/-- A block that is handed out lies above all that were handed out before. -/
lemma Tracks.granted_call (ht : Tracks budget log h)
    (ha : h.allocate size align = (.ok b, h')) :
    Tracks budget (log ++ [.granted ⟨b, align⟩]) h' := by
  obtain ⟨-, hcheck, hdvd⟩ := allocate_granted ha
  obtain ⟨hsize, hnext, hlater⟩ := allocate_ok ha
  have hbelow : ∀ lease, .granted lease ∈ log → lease.block.address < b.address := fun lease hl =>
    Blocks.lt_of_behind_le (Nat.le_trans (ht.granted lease hl).1 hnext)
  have hnew : ∀ c ∈ h.live, c.address ≠ b.address := fun c hc =>
    Nat.ne_of_lt (Blocks.lt_of_behind_le (Nat.le_trans (ht.sound.below c hc) hnext))
  have hsound := ht.sound.allocate ha
  subst hlater
  -- what is recorded, what was granted, that nothing was granted twice, and the budget
  refine ⟨hsound, ht.budgeted, fun c => ?_, fun lease hl => ?_, ?_, fun n hn => ?_⟩
  · rw [(Blocks.insert_perm hnew).mem_iff, List.mem_cons, ht.live c]
    constructor
    · rintro (rfl | ⟨align', hold⟩)
      · exact ⟨align, outstanding_concat.mpr (.inl rfl)⟩
      · exact ⟨align', outstanding_concat.mpr (.inr ⟨hold, nofun⟩)⟩
    · rintro ⟨align', houtstanding⟩
      rcases outstanding_concat.mp houtstanding with hgranted | ⟨hold, -⟩
      · exact .inl (congrArg Lease.block (Event.granted.inj hgranted)).symm
      · exact .inr ⟨align', hold⟩
  · rcases List.mem_append.mp hl with hl | hl
    · obtain ⟨hbehind, haligned⟩ := ht.granted lease hl
      exact ⟨Nat.le_trans hbehind (Nat.le_trans hnext (Nat.le_add_right _ _)), haligned⟩
    · obtain rfl := Event.granted.inj (List.mem_singleton.mp hl)
      exact ⟨Nat.le_refl _, hdvd⟩
  · rw [List.filterMap_append, List.pairwise_append]
    refine ⟨ht.fresh, List.pairwise_singleton .., fun l hl m hm => ?_⟩
    obtain rfl := List.mem_singleton.mp hm
    obtain ⟨event, hevent, hlease⟩ := List.mem_filterMap.mp hl
    obtain rfl : event = .granted l := by
      cases event with
      | granted => exact congrArg Event.granted (Option.some.inj hlease)
      | refused => cases hlease
      | returned => cases hlease
    exact Nat.ne_of_lt (hbelow l hevent)
  · have hwithin := ht.within n hn
    have hbudget := check_eq_ok.mp hcheck n (ht.budgeted.trans hn)
    dsimp only
    omega

lemma Tracks.concat (ht : Tracks budget log h) {e : Event} (hlease : e.lease? = none)
    (hkept : ∀ lease, Outstanding log lease → ∀ b, e = .returned b →
      b.address ≠ lease.block.address) : Tracks budget (log ++ [e]) h := by
  have hne : ∀ lease, e ≠ .granted lease := by
    rintro lease rfl
    cases hlease
  have houtstanding : ∀ lease, Outstanding (log ++ [e]) lease ↔ Outstanding log lease :=
    fun lease => outstanding_concat.trans
      ⟨fun hl => hl.elim (fun hl => absurd hl (hne lease)) And.left,
        fun hl => .inr ⟨hl, hkept lease hl⟩⟩
  refine ⟨ht.sound, ht.budgeted, fun b => ?_, fun lease hl => ?_, ?_, ht.within⟩
  · simp only [houtstanding]
    exact ht.live b
  · refine ht.granted lease ((List.mem_append.mp hl).resolve_right fun hl => ?_)
    exact hne lease (List.mem_singleton.mp hl).symm
  · rw [List.filterMap_append, List.filterMap_cons_none hlease, List.filterMap_nil,
      List.append_nil]
    exact ht.fresh

lemma Tracks.free_of_stray (ht : Tracks budget log h) {address : ℕ}
    (hstray : ∀ lease, Outstanding log lease → lease.block.address ≠ address) :
    h.free address = h := by
  have hnone : h.live.find? address = none := by
    refine List.find?_eq_none.mpr fun b hb => ?_
    obtain ⟨align, houtstanding⟩ := (ht.live b).mp hb
    simpa using hstray _ houtstanding
  unfold free
  rw [hnone]

/-- **Any block may be given back**: at most the one that is outstanding at its address is no longer
live. -/
lemma Tracks.returned (ht : Tracks budget log h) (b : Block) :
    Tracks budget (log ++ [.returned b]) (h.free b.address) := by
  have hbudget : (h.free b.address).budget = h.budget := by
    unfold free
    split <;> rfl
  have hnext : (h.free b.address).next = h.next := by
    unfold free
    split <;> rfl
  have hallocated : (h.free b.address).allocated ≤ h.allocated := by
    unfold free
    split
    · exact Nat.le_refl _
    · exact Nat.sub_le _ _
  refine ⟨ht.sound.free b.address, hbudget.trans ht.budgeted, fun c => ?_, fun lease hl => ?_, ?_,
    fun n hn => Nat.le_trans hallocated (ht.within n hn)⟩
  · rw [free_live, ht.sound.apart.mem_erase, ht.live c]
    constructor
    · rintro ⟨⟨align, hold⟩, hne⟩
      refine ⟨align, outstanding_concat.mpr (.inr ⟨hold, fun d hd => ?_⟩)⟩
      obtain rfl := Event.returned.inj hd
      exact hne.symm
    · rintro ⟨align, houtstanding⟩
      rcases outstanding_concat.mp houtstanding with hgranted | ⟨hold, hne⟩
      · cases hgranted
      · exact ⟨⟨align, hold⟩, (hne b rfl).symm⟩
  · rw [hnext]
    refine ht.granted lease ((List.mem_append.mp hl).resolve_right fun hl => ?_)
    cases List.mem_singleton.mp hl
  · rw [List.filterMap_append]
    exact (List.append_nil _).symm ▸ ht.fresh

lemma Tracks.logged (ht : Tracks budget log h) (c : Call) :
    Tracks budget (logged (log, h) c).1 (logged (log, h) c).2 := by
  cases c with
  | allocate size align =>
    unfold Heap.logged
    rcases ha : h.allocate size align with ⟨e | b, h'⟩
    · rw [call_refused ha]
      obtain rfl := allocate_error ha
      exact ht.concat rfl fun _ _ _ => nofun
    · rw [call_granted ha]
      exact ht.granted_call ha
  | free b => exact ht.returned b

/-- **A heap keeps track** of its blocks, whatever it is asked. -/
lemma tracks_history (budget : Option ℕ) (calls : List Call) :
    Tracks budget (history budget calls).1 (history budget calls).2 := by
  have hfold : ∀ x : List Event × Heap, Tracks budget x.1 x.2 →
      Tracks budget (calls.foldl Heap.logged x).1 (calls.foldl Heap.logged x).2 := by
    induction calls with
    | nil => exact fun _ hx => hx
    | cons c calls ih => exact fun x hx => ih (Heap.logged x c) (hx.logged c)
  exact hfold _ (tracks_ofBudget budget)

/-- **The account of a heap.** Whatever blocks a heap is asked for and whatever blocks are given
back to it, be it twice, late or made up, its live blocks are the ones outstanding: aligned, apart,
at addresses of their own, and with their bytes as its balance, within its budget. As long as there
are addresses, a request is refused just for an alignment that is no power of two or for a size that
goes beyond what is left of the budget, and then nothing changes. -/
theorem history_accounted (budget : Option ℕ) (calls : List Call) :
    Accounted budget (history budget calls).1 (history budget calls).2 := by
  have ht := tracks_history budget calls
  refine ⟨ht.live, fun b hb => ht.free_of_stray hb, fun lease hl => (ht.granted lease hl.mem).2, ?_,
    ht.fresh, ?_, ht.within, fun size align hroom => ?_, fun size align e he => ?_⟩
  · refine ht.sound.apart.imp fun {b c} hbehind => ?_
    have hlt := Blocks.lt_of_behind_le hbehind
    exact ⟨Nat.ne_of_gt hlt, fun x hb => Region.not_holds_of_behind_le hbehind hb⟩
  · rw [ht.sound.balance, Blocks.bytes_eq_sum]
  · have hrefused := allocate_refused_iff hroom
    rwa [ht.budgeted] at hrefused
  · exact allocate_error (Prod.ext he rfl)

/-- Of three blocks the first one is given back twice and a part of the second one once, which is no
block; the third one is refused, then granted. -/
example : history (some 12) [.allocate 4 4, .allocate 4 8, .allocate 8 4, .free ⟨4, 4⟩,
      .free ⟨4, 4⟩, .free ⟨10, 2⟩, .allocate 8 4] =
    ([.granted ⟨⟨4, 4⟩, 4⟩, .granted ⟨⟨8, 4⟩, 8⟩, .refused (.exhausted 8 4), .returned ⟨4, 4⟩,
      .returned ⟨4, 4⟩, .returned ⟨10, 2⟩, .granted ⟨⟨12, 8⟩, 4⟩],
      ⟨some 12, [⟨12, 8⟩, ⟨8, 4⟩], 12, 20⟩) := by
  decide +kernel

end Heap

end SolidTrace
