/-!
Dictionaries with text keys.

Entries are kept in the order of their keys, so dictionaries with the same look-ups are equal.
-/

namespace SolidTrace

abbrev Entries (α : Type) : Type := List (String × α)

namespace Entries

variable {α : Type}

/-- Keys ascend, so none repeats. -/
def Ascending (l : Entries α) : Prop := l.Pairwise fun a b => a.1 < b.1

/-- Puts an entry in its place and drops the one that had its key. -/
def insert (key : String) (value : α) : Entries α → Entries α
  | [] => [(key, value)]
  | (k, v) :: rest =>
    if key < k then (key, value) :: (k, v) :: rest
    else if key = k then (key, value) :: rest
    else (k, v) :: insert key value rest

theorem mem_keys_insert {key k : String} {value : α} {l : Entries α} :
    k ∈ (insert key value l).map Prod.fst → k = key ∨ k ∈ l.map Prod.fst := by
  induction l with
  | nil => simp [insert]
  | cons e rest ih =>
    obtain ⟨k', v⟩ := e
    simp only [insert]
    split
    · simp only [List.map_cons, List.mem_cons]
      exact id
    · split
      · next h =>
        subst h
        simp only [List.map_cons, List.mem_cons]
        rintro (h | h)
        · exact .inl h
        · exact .inr (.inr h)
      · simp only [List.map_cons, List.mem_cons]
        rintro (h | h)
        · exact .inr (.inl h)
        · rcases ih h with h | h
          · exact .inl h
          · exact .inr (.inr h)

theorem Ascending.insert {key : String} {value : α} {l : Entries α} (h : Ascending l) :
    Ascending (insert key value l) := by
  induction l with
  | nil => simp [Entries.insert, Ascending]
  | cons e rest ih =>
    obtain ⟨k, v⟩ := e
    have hr := List.pairwise_cons.1 h
    simp only [Entries.insert]
    split
    · next hlt =>
      refine List.pairwise_cons.2 ⟨fun e he => ?_, h⟩
      rcases List.mem_cons.1 he with rfl | he
      · exact hlt
      · exact String.lt_trans hlt (hr.1 e he)
    · split
      · next heq =>
        subst heq
        exact List.pairwise_cons.2 hr
      · next hlt hne =>
        have hk : k < key := by
          rcases String.le_total k key with hle | hle
          · rcases Decidable.em (k < key) with hk | hk
            · exact hk
            · exact absurd (String.le_antisymm hle (String.not_lt.1 hk)).symm hne
          · exact absurd (String.le_antisymm hle (String.not_lt.1 hlt)) hne
        refine List.pairwise_cons.2 ⟨fun e he => ?_, ih hr.2⟩
        rcases mem_keys_insert (List.mem_map_of_mem he) with h' | h'
        · rw [h']; exact hk
        · obtain ⟨e', he', h''⟩ := List.mem_map.1 h'
          rw [← h'']; exact hr.1 e' he'

theorem lookup_cons_eq (k key : String) (value : α) (l : Entries α) :
    List.lookup k ((key, value) :: l) = if k = key then some value else List.lookup k l := by
  rw [List.lookup_cons]
  by_cases h : k = key
  · rw [if_pos h, beq_iff_eq.2 h]
  · rw [if_neg h, beq_eq_false_iff_ne.2 h]

theorem lookup_insert {key : String} {value : α} {l : Entries α} (k : String) :
    List.lookup k (insert key value l) = if k = key then some value else List.lookup k l := by
  induction l with
  | nil => rw [insert, lookup_cons_eq]
  | cons e rest ih =>
    obtain ⟨k', v⟩ := e
    simp only [insert]
    split
    · rw [lookup_cons_eq]
    · split
      · next h =>
        subst h
        rw [lookup_cons_eq, lookup_cons_eq]
        split <;> rfl
      · next hne =>
        rw [lookup_cons_eq, lookup_cons_eq, ih]
        split
        · next hk =>
          subst hk
          rw [if_neg fun h => hne h.symm]
        · rfl

theorem Ascending.length_insert {key : String} {value : α} {l : Entries α} (h : Ascending l)
    (hk : key ∈ l.map Prod.fst) : (Entries.insert key value l).length = l.length := by
  induction l with
  | nil => simp at hk
  | cons e rest ih =>
    obtain ⟨k, v⟩ := e
    have hr := List.pairwise_cons.1 h
    simp only [List.map_cons, List.mem_cons] at hk
    simp only [Entries.insert]
    split
    · next hlt =>
      exfalso
      rcases hk with rfl | hk
      · exact String.lt_irrefl key hlt
      · obtain ⟨e, he, rfl⟩ := List.mem_map.1 hk
        exact String.lt_irrefl e.1 (String.lt_trans hlt (hr.1 e he))
    · split
      · rfl
      · next hne =>
        rcases hk with rfl | hk
        · exact absurd rfl hne
        · simp [ih hr.2 hk]

end Entries

structure Dict (α : Type) where
  entries : Entries α
  ascending : entries.Ascending

namespace Dict

variable {α : Type}

def empty : Dict α := ⟨[], List.Pairwise.nil⟩

def insert (d : Dict α) (key : String) (value : α) : Dict α :=
  ⟨d.entries.insert key value, d.ascending.insert⟩

/-- The dictionary of a list of entries; of several with one key the last counts. -/
def ofList (l : Entries α) : Dict α := l.foldl (fun d e => d.insert e.1 e.2) empty

def get? (d : Dict α) (key : String) : Option α := d.entries.lookup key

def keys (d : Dict α) : List String := d.entries.map Prod.fst

def size (d : Dict α) : Nat := d.entries.length

theorem get?_insert (d : Dict α) (key : String) (value : α) (k : String) :
    (d.insert key value).get? k = if k = key then some value else d.get? k :=
  Entries.lookup_insert k

/-- Replacing the value of a key adds no entry. -/
theorem size_insert {d : Dict α} {key : String} {old : α} (value : α)
    (h : d.get? key = some old) : (d.insert key value).size = d.size := by
  refine d.ascending.length_insert ?_
  obtain ⟨l₁, l₂, heq, -⟩ := List.lookup_eq_some_iff.1 h
  simp [heq]

instance [BEq α] : BEq (Dict α) := ⟨fun a b => a.entries == b.entries⟩

end Dict

end SolidTrace
