import Mathlib.Data.List.Forall2
import SolidTrace.Proofs.Json.Printing

/-!
Values with their members in another order.

`Reordered` moves members of objects about, at any depth. What is proper stays so, and the value
nests no deeper, so it can be held as data where the first one can.
-/

namespace SolidTrace.Json

/-- The same key with related values. -/
inductive Entry (R : Json → Json → Prop) : JsonText × Json → JsonText × Json → Prop
  | mk (key : JsonText) {v v' : Json} (h : R v v') : Entry R (key, v) (key, v')

/-- Members of objects stand in another order, at any depth. -/
inductive Reordered : Json → Json → Prop
  | null : Reordered .null .null
  | bool (b : Bool) : Reordered (.bool b) (.bool b)
  | number (n : Numeral) : Reordered (.number n) (.number n)
  | string (s : JsonText) : Reordered (.string s) (.string s)
  | array {items items' : List Json} (h : List.Forall₂ Reordered items items') :
    Reordered (.array items) (.array items')
  | object {members between members' : List (JsonText × Json)}
    (h : List.Forall₂ (Entry Reordered) members between) (hperm : between.Perm members') :
    Reordered (.object members) (.object members')

mutual

/-- How many arrays and objects stand inside one another. -/
def height : Json → ℕ
  | null | bool _ | number _ | string _ => 0
  | array items => heightItems items + 1
  | object members => heightMembers members + 1

def heightItems : List Json → ℕ
  | [] => 0
  | v :: rest => max v.height (heightItems rest)

def heightMembers : List (JsonText × Json) → ℕ
  | [] => 0
  | (_, v) :: rest => max v.height (heightMembers rest)

end

variable {n : ℕ}

lemma heightMembers_le_iff {members : List (JsonText × Json)} :
    heightMembers members ≤ n ↔ ∀ m ∈ members, m.2.height ≤ n := by
  induction members with
  | nil => simp [heightMembers]
  | cons m members ih => rw [heightMembers, max_le_iff, ih, List.forall_mem_cons]

mutual

theorem Reordered.proper : ∀ {w v : Json}, w.Reordered v → w.Proper → v.Proper
  | _, _, .null, h => h
  | _, _, .bool b, h => h
  | _, _, .number m, h => h
  | _, _, .string s, h => h
  | _, _, .array h, .array hp => .array (proper_items h hp)
  | _, _, .object h hperm, .object hkeys hp => by
    obtain ⟨hkeys', hp'⟩ := proper_members h hkeys hp
    exact .object (fun m hm => hkeys' m (hperm.mem_iff.mpr hm)) fun m hm =>
      hp' m (hperm.mem_iff.mpr hm)

theorem proper_items : ∀ {items items' : List Json}, List.Forall₂ Reordered items items' →
    (∀ w ∈ items, w.Proper) → ∀ v ∈ items', v.Proper
  | _, _, .nil, _ => nofun
  | _, _, .cons h hrest, hp => by
    obtain ⟨hw, hp⟩ := List.forall_mem_cons.mp hp
    exact List.forall_mem_cons.mpr ⟨h.proper hw, proper_items hrest hp⟩

theorem proper_members : ∀ {members members' : List (JsonText × Json)},
    List.Forall₂ (Entry Reordered) members members' → (∀ m ∈ members, m.1.isSome) →
      (∀ m ∈ members, m.2.Proper) → (∀ m ∈ members', m.1.isSome) ∧ ∀ m ∈ members', m.2.Proper
  | _, _, .nil, _, _ => ⟨nofun, nofun⟩
  | _, _, .cons (.mk key h) hrest, hkeys, hp => by
    obtain ⟨hkey, hkeys⟩ := List.forall_mem_cons.mp hkeys
    obtain ⟨hw, hp⟩ := List.forall_mem_cons.mp hp
    obtain ⟨hkeys', hp'⟩ := proper_members hrest hkeys hp
    exact ⟨List.forall_mem_cons.mpr ⟨hkey, hkeys'⟩, List.forall_mem_cons.mpr ⟨h.proper hw, hp'⟩⟩

end

lemma heightMembers_perm {members members' : List (JsonText × Json)} (h : members.Perm members') :
    heightMembers members' = heightMembers members := by
  induction h with
  | nil => rfl
  | cons m _ ih => rw [heightMembers, heightMembers, ih]
  | swap m m' rest => exact max_left_comm ..
  | trans _ _ ih ih' => exact ih'.trans ih

mutual

theorem Reordered.height_eq : ∀ {w v : Json}, w.Reordered v → v.height = w.height
  | _, _, .null => rfl
  | _, _, .bool _ => rfl
  | _, _, .number _ => rfl
  | _, _, .string _ => rfl
  | _, _, .array h => by rw [height, height, heightItems_eq h]
  | _, _, .object h hperm => by
    rw [height, height, heightMembers_perm hperm, heightMembers_eq h]

theorem heightItems_eq : ∀ {items items' : List Json}, List.Forall₂ Reordered items items' →
    heightItems items' = heightItems items
  | _, _, .nil => rfl
  | _, _, .cons h hrest => by rw [heightItems, heightItems, h.height_eq, heightItems_eq hrest]

theorem heightMembers_eq : ∀ {members members' : List (JsonText × Json)},
    List.Forall₂ (Entry Reordered) members members' →
      heightMembers members' = heightMembers members
  | _, _, .nil => rfl
  | _, _, .cons (.mk key h) hrest => by
    rw [heightMembers, heightMembers, h.height_eq, heightMembers_eq hrest]

end

mutual

/-- What is proper can be held where there are levels enough. -/
theorem Proper.sound : ∀ {v : Json} {depth : ℕ}, v.Proper → v.height ≤ depth →
    v.sound depth = true
  | null, _, _, _ => by rw [Json.sound]
  | bool _, _, _, _ => by rw [Json.sound]
  | number _, _, .number _ hvalue, _ => by
    rw [Json.sound]
    exact Bool.or_eq_true_iff.mpr hvalue
  | string _, _, .string _, _ => by rw [Json.sound]; rfl
  | array items, depth, .array h, hdepth => by
    rw [height] at hdepth
    rw [Json.sound, Bool.and_eq_true_iff, decide_eq_true_iff]
    exact ⟨by omega, soundItems_of_proper h (by omega)⟩
  | object members, depth, .object hkeys h, hdepth => by
    rw [height] at hdepth
    rw [Json.sound, Bool.and_eq_true_iff, decide_eq_true_iff]
    exact ⟨by omega, soundMembers_of_proper hkeys h (by omega)⟩

theorem soundItems_of_proper : ∀ {items : List Json} {depth : ℕ}, (∀ v ∈ items, v.Proper) →
    heightItems items ≤ depth → soundItems depth items = true
  | [], _, _, _ => by rw [soundItems]
  | v :: rest, depth, h, hdepth => by
    obtain ⟨hv, hrest⟩ := List.forall_mem_cons.mp h
    rw [heightItems, max_le_iff] at hdepth
    rw [soundItems, hv.sound hdepth.1, soundItems_of_proper hrest hdepth.2]
    rfl

theorem soundMembers_of_proper : ∀ {members : List (JsonText × Json)} {depth : ℕ},
    (∀ m ∈ members, m.1.isSome) → (∀ m ∈ members, m.2.Proper) →
      heightMembers members ≤ depth → soundMembers depth members = true
  | [], _, _, _, _ => by rw [soundMembers]
  | (key, v) :: rest, depth, hkeys, h, hdepth => by
    obtain ⟨hkey, hkeys⟩ := List.forall_mem_cons.mp hkeys
    obtain ⟨hv, hrest⟩ := List.forall_mem_cons.mp h
    rw [heightMembers, max_le_iff] at hdepth
    rw [soundMembers, hv.sound hdepth.1, soundMembers_of_proper hkeys hrest hdepth.2, hkey]
    rfl

end

mutual

lemma Reordered.refl : ∀ v : Json, v.Reordered v
  | .null => .null
  | .bool b => .bool b
  | .number n => .number n
  | .string s => .string s
  | .array items => .array (refl_items items)
  | .object members => .object (refl_members members) (.refl _)

lemma Reordered.refl_items : ∀ items : List Json, List.Forall₂ Reordered items items
  | [] => .nil
  | v :: rest => .cons (.refl v) (refl_items rest)

lemma Reordered.refl_members : ∀ members : List (JsonText × Json),
    List.Forall₂ (Entry Reordered) members members
  | [] => .nil
  | (key, v) :: rest => .cons (.mk key (.refl v)) (refl_members rest)

end

end SolidTrace.Json
