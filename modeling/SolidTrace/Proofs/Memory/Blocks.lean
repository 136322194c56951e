import Mathlib.Data.List.Perm.Basic
import SolidTrace.Memory.Allocator

/-!
Live blocks in order.

Live blocks stand by descending address, each with room for a byte at least. What an allocator owes
is said of the blocks that hold bytes, `Blocks.occupied`: an empty block may come to lie where
another block starts, and then one of the two records is lost, but never one that holds bytes. A
block that is recorded in a clear place is one more occupied block, and taking back an address takes
away the occupied block that starts there.
-/

namespace SolidTrace

/-- The first address behind a block, which has room for a byte at least. -/
def Block.behind (b : Block) : ℕ := b.address + max b.size 1

namespace Blocks

/-- Every block lies wholly below the ones before it. -/
def Apart (l : Blocks) : Prop := l.Pairwise fun b c => c.behind ≤ b.address

/-- No block is in the way of so many bytes at an address. -/
def Clear (l : Blocks) (size address : ℕ) : Prop :=
  ∀ c ∈ l, c.address + c.size ≤ address ∨ Region.limit size address ≤ c.address

/-- The blocks that hold bytes. -/
def occupied (l : Blocks) : Blocks := l.filter fun b => 0 < b.size

def bytes (l : Blocks) : ℕ := l.foldr (fun b sum => b.size + sum) 0

variable {l : Blocks} {b c : Block} {a size : ℕ}

lemma lt_of_behind_le (h : c.behind ≤ a) : c.address < a := by
  unfold Block.behind at h
  omega

lemma mem_occupied : b ∈ l.occupied ↔ b ∈ l ∧ 0 < b.size := by
  simp [occupied]

lemma occupied_cons_of_pos (h : 0 < b.size) (l : Blocks) :
    occupied (b :: l) = b :: occupied l :=
  List.filter_cons_of_pos (by simpa using h)

lemma occupied_cons_of_empty (h : b.size = 0) (l : Blocks) : occupied (b :: l) = occupied l :=
  List.filter_cons_of_neg (by simp [h])

lemma Apart.occupied (h : l.Apart) : l.occupied.Apart := h.filter _

lemma bytes_cons (b : Block) (l : Blocks) : bytes (b :: l) = b.size + bytes l := rfl

lemma bytes_perm {m : Blocks} (h : List.Perm l m) : l.bytes = m.bytes := by
  induction h with
  | nil => rfl
  | cons b _ ih => rw [bytes_cons, bytes_cons, ih]
  | swap b c l =>
    rw [bytes_cons, bytes_cons, bytes_cons, bytes_cons]
    omega
  | trans _ _ ih ih' => exact ih.trans ih'

lemma bytes_occupied (l : Blocks) : l.occupied.bytes = l.bytes := by
  induction l with
  | nil => rfl
  | cons b l ih =>
    rcases Nat.eq_zero_or_pos b.size with hb | hb
    · rw [occupied_cons_of_empty hb, ih, bytes_cons, hb, Nat.zero_add]
    · rw [occupied_cons_of_pos hb, bytes_cons, bytes_cons, ih]

lemma insert_eq_cons (h : ∀ c ∈ l, c.address < b.address) : l.insert b = b :: l := by
  cases l with
  | nil => rfl
  | cons c l => rw [insert, if_pos (h c List.mem_cons_self)]

lemma insert_of_eq (h : c.address = b.address) (l : Blocks) : insert b (c :: l) = b :: l := by
  rw [insert, if_neg (by omega), if_pos h]

lemma insert_of_lt (h : b.address < c.address) (l : Blocks) :
    insert b (c :: l) = c :: insert b l := by
  rw [insert, if_neg (by omega), if_neg (by omega)]

lemma mem_of_mem_insert (h : c ∈ l.insert b) : c = b ∨ c ∈ l := by
  induction l with
  | nil => exact .inl (List.mem_singleton.mp h)
  | cons d l ih =>
    rcases Nat.lt_trichotomy d.address b.address with hd | hd | hd
    · rw [insert, if_pos hd] at h
      exact List.mem_cons.mp h
    · rw [insert_of_eq hd] at h
      exact (List.mem_cons.mp h).imp_right (List.mem_cons_of_mem d)
    · rw [insert_of_lt hd] at h
      rcases List.mem_cons.mp h with rfl | h
      · exact .inr List.mem_cons_self
      · exact (ih h).imp_right (List.mem_cons_of_mem d)

lemma Clear.tail (h : Clear (c :: l) size a) : l.Clear size a :=
  fun d hd => h d (List.mem_cons_of_mem c hd)

/-- A block below a clear place lies wholly below it. -/
lemma Clear.behind_le (h : l.Clear size a) (hc : c ∈ l) (hlt : c.address < a) : c.behind ≤ a := by
  have hclear := h c hc
  unfold Region.limit at hclear
  unfold Block.behind
  omega

lemma Clear.empty (h : l.Clear size a) (hc : c ∈ l) (heq : c.address = a) : c.size = 0 := by
  have hclear := h c hc
  unfold Region.limit at hclear
  omega

lemma Clear.address_ne (h : l.Clear size a) : ∀ c ∈ l.occupied, c.address ≠ a := by
  intro c hc heq
  obtain ⟨hmem, hpos⟩ := mem_occupied.mp hc
  have hempty := h.empty hmem heq
  omega

lemma Apart.lt_of_head (h : Apart (c :: l)) (hle : c.address ≤ a) : ∀ d ∈ l, d.address < a := by
  intro d hd
  have hbehind := lt_of_behind_le (List.rel_of_pairwise_cons h hd)
  omega

lemma Apart.lt_of_cons (h : Apart (c :: l)) (hlt : c.address < a) : ∀ d ∈ c :: l, d.address < a :=
  List.forall_mem_cons.mpr ⟨hlt, h.lt_of_head (Nat.le_of_lt hlt)⟩

/-- **A block is recorded in a clear place.** -/
lemma Apart.insert (h : l.Apart) (hb : l.Clear b.size b.address) : (l.insert b).Apart := by
  induction l with
  | nil => exact List.pairwise_singleton ..
  | cons c l ih =>
    have hrest : Apart l := h.of_cons
    rcases Nat.lt_trichotomy c.address b.address with hc | hc | hc
    · have hlt := h.lt_of_cons hc
      rw [insert_eq_cons hlt]
      exact List.pairwise_cons.mpr ⟨fun d hd => hb.behind_le hd (hlt d hd), h⟩
    · rw [insert_of_eq hc]
      refine List.pairwise_cons.mpr ⟨fun d hd => ?_, hrest⟩
      exact hc ▸ List.rel_of_pairwise_cons h hd
    · rw [insert_of_lt hc]
      refine List.pairwise_cons.mpr ⟨fun d hd => ?_, ih hrest hb.tail⟩
      rcases mem_of_mem_insert hd with rfl | hd
      · have hclear := hb c List.mem_cons_self
        unfold Region.limit at hclear
        unfold Block.behind
        omega
      · exact List.rel_of_pairwise_cons h hd

/-- What is recorded in a clear place comes to what is held, if it holds anything. -/
lemma occupied_insert (h : l.Apart) (hb : l.Clear b.size b.address) :
    (l.insert b).occupied = if b.size = 0 then l.occupied else l.occupied.insert b := by
  induction l with
  | nil =>
    split
    · next hsize => exact occupied_cons_of_empty hsize []
    · next hsize => exact occupied_cons_of_pos (Nat.pos_of_ne_zero hsize) []
  | cons c l ih =>
    have hrest : Apart l := h.of_cons
    rcases Nat.lt_trichotomy c.address b.address with hc | hc | hc
    · rw [insert, if_pos hc]
      split
      · next hsize => exact occupied_cons_of_empty hsize _
      · next hsize =>
        rw [occupied_cons_of_pos (Nat.pos_of_ne_zero hsize), insert_eq_cons]
        exact fun d hd => h.lt_of_cons hc d (mem_occupied.mp hd).1
    · -- a block at the address itself holds nothing, or it would be in the way
      have hempty : c.size = 0 := hb.empty List.mem_cons_self hc
      rw [insert_of_eq hc, occupied_cons_of_empty hempty]
      split
      · next hsize => exact occupied_cons_of_empty hsize _
      · next hsize =>
        rw [occupied_cons_of_pos (Nat.pos_of_ne_zero hsize), insert_eq_cons]
        exact fun d hd => h.lt_of_head (Nat.le_of_eq hc) d (mem_occupied.mp hd).1
    · have hih := ih hrest hb.tail
      rw [insert_of_lt hc]
      rcases Nat.eq_zero_or_pos c.size with hempty | hpos
      · rw [occupied_cons_of_empty hempty, occupied_cons_of_empty hempty, hih]
      · rw [occupied_cons_of_pos hpos, occupied_cons_of_pos hpos, hih, insert_of_lt hc]
        split <;> rfl

lemma erase_cons_of_eq (h : b.address = a) (l : Blocks) : erase (b :: l) a = l := by
  simp [erase, h]

lemma erase_cons_of_ne (h : b.address ≠ a) (l : Blocks) : erase (b :: l) a = b :: erase l a := by
  simp [erase, h]

lemma erase_of_ne (h : ∀ b ∈ l, b.address ≠ a) : l.erase a = l :=
  List.eraseP_of_forall_not fun b hb => by simpa using h b hb

lemma find?_cons_of_eq (h : b.address = a) (l : Blocks) : find? (b :: l) a = some b := by
  simp [find?, h]

lemma find?_cons_of_ne (h : b.address ≠ a) (l : Blocks) : find? (b :: l) a = find? l a := by
  simp [find?, h]

lemma Apart.erase (h : l.Apart) (a : ℕ) : (l.erase a).Apart := h.sublist List.eraseP_sublist

lemma mem_of_mem_erase (h : b ∈ l.erase a) : b ∈ l := List.mem_of_mem_eraseP h

lemma occupied_erase (h : l.Apart) (a : ℕ) : (l.erase a).occupied = l.occupied.erase a := by
  induction l with
  | nil => rfl
  | cons b l ih =>
    have hrest : Apart l := h.of_cons
    by_cases ha : b.address = a
    · have hother : ∀ c ∈ occupied l, c.address ≠ a := fun c hc =>
        Nat.ne_of_lt (h.lt_of_head (Nat.le_of_eq ha) c (mem_occupied.mp hc).1)
      rw [erase_cons_of_eq ha]
      rcases Nat.eq_zero_or_pos b.size with hempty | hpos
      · rw [occupied_cons_of_empty hempty, erase_of_ne hother]
      · rw [occupied_cons_of_pos hpos, erase_cons_of_eq ha]
    · rw [erase_cons_of_ne ha]
      rcases Nat.eq_zero_or_pos b.size with hempty | hpos
      · rw [occupied_cons_of_empty hempty, occupied_cons_of_empty hempty, ih hrest]
      · rw [occupied_cons_of_pos hpos, occupied_cons_of_pos hpos, ih hrest, erase_cons_of_ne ha]

lemma erase_of_find?_eq_none (h : l.find? a = none) : l.erase a = l := by
  refine erase_of_ne fun b hb => ?_
  simpa using List.find?_eq_none.mp h b hb

lemma bytes_erase (h : l.find? a = some b) : l.bytes = (l.erase a).bytes + b.size := by
  induction l with
  | nil => cases h
  | cons c l ih =>
    by_cases hc : c.address = a
    · rw [find?_cons_of_eq hc] at h
      obtain rfl := Option.some.inj h
      rw [erase_cons_of_eq hc, bytes_cons, Nat.add_comm]
    · rw [find?_cons_of_ne hc] at h
      rw [erase_cons_of_ne hc, bytes_cons, bytes_cons, ih h, Nat.add_assoc]

lemma perm_cons_erase (h : l.Apart) (hb : b ∈ l) : List.Perm l (b :: l.erase b.address) := by
  induction l with
  | nil => cases hb
  | cons c l ih =>
    rcases List.mem_cons.mp hb with rfl | hb
    · rw [erase_cons_of_eq rfl]
    · have hlt := h.lt_of_head (Nat.le_refl _) b hb
      rw [erase_cons_of_ne (by omega)]
      exact ((ih h.of_cons hb).cons c).trans (.swap b c _)

lemma erase_insert (h : ∀ c ∈ l, c.address ≠ b.address) : (l.insert b).erase b.address = l := by
  induction l with
  | nil => exact erase_cons_of_eq rfl []
  | cons c l ih =>
    have hc := h c List.mem_cons_self
    rcases Nat.lt_or_gt_of_ne hc with hlt | hgt
    · rw [insert, if_pos hlt, erase_cons_of_eq rfl]
    · rw [insert_of_lt hgt, erase_cons_of_ne hc, ih fun d hd => h d (List.mem_cons_of_mem c hd)]

lemma insert_perm (h : ∀ c ∈ l, c.address ≠ b.address) : (l.insert b).Perm (b :: l) := by
  induction l with
  | nil => exact .refl _
  | cons c l ih =>
    have hc := h c List.mem_cons_self
    rcases Nat.lt_or_gt_of_ne hc with hlt | hgt
    · rw [insert, if_pos hlt]
    · rw [insert_of_lt hgt]
      exact ((ih fun d hd => h d (List.mem_cons_of_mem c hd)).cons c).trans (.swap b c l)

lemma bytes_insert (h : ∀ c ∈ l, c.address ≠ b.address) :
    (l.insert b).bytes = l.bytes + b.size := by
  rw [bytes_perm (insert_perm h), bytes_cons, Nat.add_comm]

end Blocks

end SolidTrace
