import SolidTrace.Document.Write
import SolidTrace.Proofs.Json.Reordered

/-!
Readers of what is written.

`Reads` says of a reader, a written value and what was written that the reader gives it back from
every reordering of the value. There is one rule for each way in which readers are put together: a
record finds each field wherever it stands, and a tag is found and taken away before the rest is
read.
-/

namespace SolidTrace.Json.Reader

variable {α β : Type} {limit : ℕ}

/-- The value can be written, and is read again in any order of its members, at places with levels
enough for it and no more than the limit. -/
structure Reads (limit : ℕ) (r : Reader α) (w : Json) (a : α) : Prop where
  proper : w.Proper
  read : ∀ p v, w.Reordered v → w.height ≤ p.depth → p.depth ≤ limit → r p v = some a

/-! ### Simple values -/

lemma reads_string (s : String) : Reads limit string (ofString s) s where
  proper := .string s
  read
    | _, _, .string _, _, _ => rfl

lemma reads_integer {low high i : ℤ} (h : low ≤ i ∧ i ≤ high)
    (hfits : i.natAbs < NumberLiteral.significandLimit) :
    Reads limit (integer low high) (ofInt i) i := by
  have hvalue : (Numeral.ofInt i).toInt? = some i := by
    simp only [Numeral.toInt?, Numeral.ofInt, decide_eq_true_eq]
    rw [if_pos ⟨trivial, by omega⟩]
    split_ifs <;> congr 1 <;> omega
  refine ⟨.number (Numeral.regular_ofInt hfits) (Or.inl (by simp [hvalue])), ?_⟩
  rintro p _ (_ | _) - -
  simp [integer, hvalue, h]

lemma reads_double {x : Float} (hfinite : x.isFinite = true)
    (h : (Numeral.ofDouble x).toDouble? = some x) : Reads limit double (ofDouble x) x := by
  have hwrite : ofDouble x = .number (Numeral.ofDouble x) := if_pos hfinite
  rw [hwrite]
  refine ⟨.number (Numeral.regular_ofDouble x) (Or.inr (by simp [h])), ?_⟩
  rintro p _ (_ | _) - -
  exact h

lemma Reads.map {r : Reader α} {w : Json} {a : α} (h : Reads limit r w a) (f : α → β) :
    Reads limit (map f r) w (f a) where
  proper := h.proper
  read p v hv hheight hlimit := by rw [Reader.map, h.read p v hv hheight hlimit, Option.map_some]

lemma Reads.bind {r : Reader α} {w : Json} {a : α} (h : Reads limit r w a) {f : α → Option β}
    {b : β} (hf : f a = some b) : Reads limit (fun p v => r p v >>= f) w b where
  proper := h.proper
  read p v hv hheight hlimit := by
    show (r p v).bind f = some b
    rw [h.read p v hv hheight hlimit, Option.bind_some, hf]

/-- What is not written as `null` may also be absent. -/
lemma Reads.optional {r : Reader α} {f : α → Json} :
    ∀ {o : Option α}, (∀ a ∈ o, f a ≠ .null) → (∀ a ∈ o, Reads limit r (f a) a) →
      Reads limit (optional r) (ofOption f o) o
  | none, _, _ => by
    refine ⟨.null, ?_⟩
    rintro p _ (_ | _) - -
    rfl
  | some a, hnull, h => by
    have ha := h a rfl
    refine ⟨ha.proper, fun p v hv hheight hlimit => ?_⟩
    have hread := ha.read p v hv hheight hlimit
    have hsome : Reader.optional r p v = (r p v).map some := by
      have hne := hnull a rfl
      rw [ofOption] at hv
      generalize f a = w at hv hne
      cases hv with
      | null => exact absurd rfl hne
      | _ => rfl
    rw [hsome, hread, Option.map_some]

lemma reads_choice {names : List (String × α)} {name : String} {a : α}
    (h : names.lookup name = some a) : Reads limit (choice names) (ofString name) a := by
  refine ⟨.string name, ?_⟩
  rintro p _ (_ | _) - -
  exact h

lemma enter_of_lt {p : Place} (h : 0 < p.depth) :
    ∃ inner, p.enter = some inner ∧ inner.depth + 1 = p.depth := by
  obtain ⟨depth, held⟩ := p
  cases depth with
  | zero => exact absurd h (Nat.lt_irrefl 0)
  | succ depth => exact ⟨⟨depth, held⟩, rfl, rfl⟩

lemma mapM_eq_some {r : Reader α} {p : Place} {ws items : List Json} {as : List α}
    (h : List.Forall₂ (Reads limit r) ws as) (hitems : List.Forall₂ Reordered ws items)
    (hheight : heightItems ws ≤ p.depth) (hlimit : p.depth ≤ limit) :
    items.mapM (r p) = some as := by
  induction h generalizing items with
  | nil =>
    cases hitems
    rfl
  | cons hr _ ih =>
    cases hitems with
    | cons hv hrest =>
      rw [heightItems, max_le_iff] at hheight
      rw [List.mapM_cons, hr.read p _ hv hheight.1 hlimit, ih hrest hheight.2]
      rfl

lemma reads_list {r : Reader α} {ws : List Json} {as : List α}
    (h : List.Forall₂ (Reads (limit - 1) r) ws as) : Reads limit (list r) (.array ws) as where
  proper := by
    refine .array ?_
    induction h with
    | nil => exact List.forall_mem_nil _
    | cons hr _ ih => exact List.forall_mem_cons.mpr ⟨hr.proper, ih⟩
  read := by
    rintro p _ (_ | _ | _ | _ | hitems) hheight hlimit
    rw [height] at hheight
    obtain ⟨inner, henter, hdepth⟩ := enter_of_lt (show 0 < p.depth by omega)
    simp only [list, henter, Option.bind_eq_bind, Option.bind_some]
    exact mapM_eq_some h hitems (by omega) (by omega)

lemma reads_tuple {r : Reader α} {ws : List Json} {as : List α}
    (h : List.Forall₂ (Reads (limit - 1) r) ws as) :
    Reads limit (tuple as.length r) (.array ws) as where
  proper := (reads_list h).proper
  read p v hv hheight hlimit := by
    simp [tuple, (reads_list h).read p v hv hheight hlimit]

/-! ### Records -/

/-- A field with a value in another order. -/
def Same (m m' : String × Json) : Prop := m'.1 = m.1 ∧ m.2.Reordered m'.2

lemma exists_of_forall₂_entry {ms : List (String × Json)} {members : List (JsonText × Json)}
    (h : List.Forall₂ (Entry Reordered) (ms.map fun m => (some m.1, m.2)) members) :
    ∃ between, List.Forall₂ Same ms between ∧ members = between.map fun m => (some m.1, m.2) := by
  induction ms generalizing members with
  | nil =>
    cases h
    exact ⟨[], .nil, rfl⟩
  | cons m ms ih =>
    obtain ⟨name, w⟩ := m
    cases h with
    | cons he hrest =>
      cases he with
      | @mk _ _ v hv =>
        obtain ⟨between, hsame, rfl⟩ := ih hrest
        exact ⟨(name, v) :: between, .cons ⟨rfl, hv⟩ hsame, rfl⟩

lemma exists_perm_of_map {f : α → β} {l : List α} {l' : List β} (h : (l.map f).Perm l') :
    ∃ l₁, l.Perm l₁ ∧ l' = l₁.map f := by
  have hmap : List.Forall₂ (fun b a => b = f a) (l.map f) l :=
    List.forall₂_map_left_iff.mpr (List.forall₂_same.mpr fun _ _ => rfl)
  obtain ⟨l₁, hl₁, hperm⟩ := List.perm_comp_forall₂ h.symm hmap
  refine ⟨l₁, hperm.symm, ?_⟩
  exact List.forall₂_eq_eq_eq ▸ (List.forall₂_map_right_iff.mpr hl₁)

lemma reordered_record {ms : List (String × Json)} {v : Json} (h : (record ms).Reordered v) :
    ∃ between ms', List.Forall₂ Same ms between ∧ between.Perm ms' ∧ v = record ms' := by
  obtain _ | _ | _ | _ | _ | ⟨hentries, hperm⟩ := h
  obtain ⟨between, hsame, rfl⟩ := exists_of_forall₂_entry hentries
  obtain ⟨ms', hperm', rfl⟩ := exists_perm_of_map hperm
  exact ⟨between, ms', hsame, hperm', rfl⟩

/-- The fields hold what is written of them, with levels enough for it. -/
structure Holds (limit : ℕ) (ms : List (String × Json)) (f : Fields) : Prop where
  found : ∀ m ∈ ms, ∃ v, m.2.Reordered v ∧ f.values.lookup m.1 = some v
  enough : ∀ m ∈ ms, m.2.height ≤ f.place.depth
  below : f.place.depth ≤ limit - 1

lemma Holds.read {ms : List (String × Json)} {f : Fields} (h : Holds limit ms f) {name : String}
    {r : Reader α} {w : Json} {a : α} (hr : Reads (limit - 1) r w a)
    (hm : (name, w) ∈ ms) : ∃ v, f.values.lookup name = some v ∧ r f.place v = some a := by
  obtain ⟨v, hv, hlookup⟩ := h.found _ hm
  exact ⟨v, hlookup, hr.read _ v hv (h.enough _ hm) h.below⟩

lemma Holds.required {ms : List (String × Json)} {f : Fields} (h : Holds limit ms f)
    {name : String} {r : Reader α} {w : Json} {a : α} (hr : Reads (limit - 1) r w a)
    (hm : (name, w) ∈ ms) : f.required name r = some a := by
  obtain ⟨v, hlookup, hread⟩ := h.read hr hm
  rw [Fields.required, hlookup, Option.bind_some, hread]

lemma Holds.withDefault {ms : List (String × Json)} {f : Fields} (h : Holds limit ms f)
    {name : String} {r : Reader α} {w : Json} {a : α} (hr : Reads (limit - 1) r w a)
    (hm : (name, w) ∈ ms) (default : α) : f.withDefault name r default = some a := by
  obtain ⟨v, hlookup, hread⟩ := h.read hr hm
  rw [Fields.withDefault, hlookup]
  exact hread

lemma lookup_of_mem {l : List (String × β)} (hd : (l.map Prod.fst).Nodup) {name : String} {b : β}
    (h : (name, b) ∈ l) : l.lookup name = some b := by
  induction l with
  | nil => cases h
  | cons e l ih =>
    obtain ⟨key, b'⟩ := e
    rw [List.map_cons, List.nodup_cons] at hd
    rw [Entries.lookup_cons_eq]
    rcases List.mem_cons.mp h with heq | hmem
    · obtain ⟨rfl, rfl⟩ := Prod.mk.inj heq
      exact if_pos rfl
    · have hne : name ≠ key := fun hkey => hd.1 (List.mem_map.mpr ⟨_, hmem, hkey⟩)
      rw [if_neg hne, ih hd.2 hmem]

lemma keys_eq {ms between : List (String × Json)} (h : List.Forall₂ Same ms between) :
    between.map Prod.fst = ms.map Prod.fst := by
  induction h with
  | nil => rfl
  | cons hm _ ih => rw [List.map_cons, List.map_cons, hm.1, ih]

lemma exists_same {ms between : List (String × Json)} (h : List.Forall₂ Same ms between) :
    ∀ m ∈ ms, ∃ v, m.2.Reordered v ∧ (m.1, v) ∈ between := by
  induction h with
  | nil => nofun
  | @cons m m' _ _ hm _ ih =>
    refine List.forall_mem_cons.mpr ⟨⟨m'.2, hm.2, ?_⟩, fun m₁ hm₁ => ?_⟩
    · rw [← hm.1]
      exact List.mem_cons_self
    · obtain ⟨v, hv, hmem⟩ := ih m₁ hm₁
      exact ⟨v, hv, List.mem_cons_of_mem _ hmem⟩

lemma height_record {ms : List (String × Json)} {n : ℕ} :
    (record ms).height ≤ n + 1 ↔ ∀ m ∈ ms, m.2.height ≤ n := by
  rw [record, height, Nat.add_le_add_iff_right, heightMembers_le_iff, List.forall_mem_map]

lemma mapM_record {ms : List (String × Json)} :
    (ms.map fun m => (some m.1, m.2)).mapM (fun ((key, v) : JsonText × Json) =>
      key.map (·, v)) = some ms := by
  induction ms with
  | nil => rfl
  | cons m ms ih =>
    rw [List.map_cons, List.mapM_cons, ih]
    rfl

/-- **The fields of a record are found** in whatever order they stand. -/
theorem fields_record {ms : List (String × Json)} (hd : (ms.map Prod.fst).Nodup) {p : Place}
    {v : Json} (hv : (record ms).Reordered v) (hheight : (record ms).height ≤ p.depth)
    (hlimit : p.depth ≤ limit) : ∃ f, fields (ms.map Prod.fst) p v = some f ∧ Holds limit ms f := by
  obtain ⟨between, ms', hsame, hperm, rfl⟩ := reordered_record hv
  have hkeys : (ms'.map Prod.fst).Perm (ms.map Prod.fst) :=
    keys_eq hsame ▸ (hperm.map Prod.fst).symm
  have hd' : (ms'.map Prod.fst).Nodup := hkeys.nodup_iff.mpr hd
  have hall : ms'.filter (fun m => (ms.map Prod.fst).contains m.1) = ms' :=
    List.filter_eq_self.mpr fun m hm => by
      simpa using hkeys.mem_iff.mp (List.mem_map_of_mem hm)
  obtain ⟨inner, henter, hdepth⟩ := enter_of_lt (show 0 < p.depth by
    rw [record, height] at hheight
    omega)
  have hbelow : inner.depth ≤ limit - 1 := by omega
  refine ⟨⟨inner, ms'⟩, ?_, fun m hm => ?_, ?_, hbelow⟩
  · simp only [record, fields, henter, Option.bind_eq_bind, Option.bind_some, mapM_record, hall,
      if_pos hd']
  · obtain ⟨w, hw, hmem⟩ := exists_same hsame m hm
    exact ⟨w, hw, lookup_of_mem hd' (hperm.mem_iff.mp hmem)⟩
  · rw [← hdepth] at hheight
    exact height_record.mp hheight

lemma proper_record {ms : List (String × Json)} (h : ∀ m ∈ ms, m.2.Proper) :
    (record ms).Proper := by
  refine .object (fun m hm => ?_) fun m hm => ?_
  · obtain ⟨m', -, rfl⟩ := List.mem_map.mp hm
    rfl
  · obtain ⟨m', hm', rfl⟩ := List.mem_map.mp hm
    exact h m' hm'

/-- A record is read by what reads its fields. -/
theorem reads_record {ms : List (String × Json)} {names : List String}
    (hnames : ms.map Prod.fst = names) (hd : names.Nodup) (hproper : ∀ m ∈ ms, m.2.Proper)
    {body : Fields → Option α} {a : α} (hbody : ∀ f, Holds limit ms f → body f = some a) :
    Reads limit (fun p v => fields names p v >>= body) (record ms) a := by
  refine ⟨proper_record hproper, fun p v hv hheight hlimit => ?_⟩
  subst hnames
  obtain ⟨f, hf, hholds⟩ := fields_record hd hv hheight hlimit
  show (fields (ms.map Prod.fst) p v).bind body = some a
  rw [hf, Option.bind_some, hbody f hholds]

lemma reordered_of_same {ms between ms' : List (String × Json)} (h : List.Forall₂ Same ms between)
    (hperm : between.Perm ms') : (record ms).Reordered (record ms') := by
  have hentries : List.Forall₂ (Entry Reordered) (ms.map fun m => (some m.1, m.2))
      (between.map fun m => (some m.1, m.2)) := by
    refine List.forall₂_map_left_iff.mpr (List.forall₂_map_right_iff.mpr (h.imp ?_))
    rintro ⟨name, w⟩ ⟨name', v⟩ ⟨hname, hv⟩
    obtain rfl : name' = name := hname
    exact .mk _ hv
  exact .object hentries (hperm.map _)

/-- **A tag is found** wherever it stands among the fields of its variant, and what is left is these
fields. -/
theorem tagged_record {names : List String} {name : String} (hname : name ∈ names)
    {ms : List (String × Json)} (htype : "type" ∉ ms.map Prod.fst)
    (hproper : ∀ m ∈ ms, m.2.Proper) {p : Place} {v : Json}
    (hv : (record (("type", ofString name) :: ms)).Reordered v)
    (hheight : (record (("type", ofString name) :: ms)).height ≤ p.depth) :
    ∃ v', (record ms).Reordered v' ∧
      tagged names p v = some (name, { p with held := true }, v') := by
  have hwritten : (record (("type", ofString name) :: ms)).Proper :=
    proper_record (List.forall_mem_cons.mpr ⟨.string name, hproper⟩)
  -- The value is held as a whole before its tag is looked for, so all of it has to be sound.
  have hhold : p.hold v = some { p with held := true } := by
    have hsound := (hv.proper hwritten).sound (hv.height_eq.trans_le hheight)
    rw [Place.hold, hsound, Bool.or_true, if_pos rfl]
  obtain ⟨between, ms', hsame, hperm, rfl⟩ := reordered_record hv
  cases hsame with
  | @cons _ tag _ rest htag hrest =>
    obtain ⟨key, w⟩ := tag
    obtain ⟨rfl, hw⟩ : key = "type" ∧ (ofString name).Reordered w := htag
    obtain _ | _ | _ | _ := hw
    have hothers : ∀ m ∈ rest, m.1 ≠ "type" := fun m hm hkey =>
      htype (keys_eq hrest ▸ hkey ▸ List.mem_map_of_mem hm)
    have htags : ms'.filter (fun m => m.1 == "type") = [("type", .string (some name))] := by
      have hnone : rest.filter (fun m => m.1 == "type") = [] :=
        List.filter_eq_nil_iff.mpr fun m hm => by simpa using hothers m hm
      have hfilter := (hperm.filter fun m => m.1 == "type").symm
      rwa [List.filter_cons_of_pos (by simp), hnone, List.perm_singleton] at hfilter
    have hfields : rest.Perm (ms'.filter fun m => m.1 != "type") := by
      have hall : rest.filter (fun m => m.1 != "type") = rest :=
        List.filter_eq_self.mpr fun m hm => by simpa using hothers m hm
      have hfilter := hperm.filter fun m => m.1 != "type"
      rwa [List.filter_cons_of_neg (by simp), hall] at hfilter
    refine ⟨record (ms'.filter fun m => m.1 != "type"), reordered_of_same hrest hfields, ?_⟩
    have htags' : (ms'.map fun m => (some m.1, m.2)).filter (fun m => m.1 == some "type") =
        [(some "type", .string (some name))] := by
      rw [List.filter_map]
      show (ms'.filter fun m => some m.1 == some "type").map _ = _
      simp only [Option.some_beq_some, htags, List.map_cons, List.map_nil]
    have hothers' : (ms'.map fun m => (some m.1, m.2)).filter (fun m => m.1 != some "type") =
        (ms'.filter fun m => m.1 != "type").map fun m => (some m.1, m.2) := by
      rw [List.filter_map]
      rfl
    have hvariant : variant names p (.string (some name)) = some name := by
      simp [variant, hname]
    rw [record] at hhold
    simp only [tagged, taggedBy, record, hhold, htags', hothers', hvariant]
    rfl

lemma Proper.members {ms : List (String × Json)} (h : (record ms).Proper) :
    ∀ m ∈ ms, m.2.Proper := by
  cases h with
  | object _ h => exact fun m hm => h _ (List.mem_map_of_mem hm)

/-- A variant is read by what reads its fields. -/
theorem reads_tagged {names : List String} {name : String} (hname : name ∈ names)
    {ms : List (String × Json)} (htype : "type" ∉ ms.map Prod.fst)
    {body : String × Place × Json → Option α} {a : α}
    (hbody : Reads limit (fun p v => body (name, p, v)) (record ms) a) :
    Reads limit (fun p v => tagged names p v >>= body) (record (("type", ofString name) :: ms))
      a where
  proper := proper_record (List.forall_mem_cons.mpr ⟨.string name, Proper.members hbody.proper⟩)
  read p v hv hheight hlimit := by
    obtain ⟨v', hv', htagged⟩ :=
      tagged_record hname htype (Proper.members hbody.proper) hv hheight
    have hrest : (record ms).height ≤ p.depth :=
      (Nat.succ_le_succ (le_max_right _ _)).trans hheight
    show (tagged names p v).bind body = some a
    rw [htagged, Option.bind_some]
    exact hbody.read { p with held := true } v' hv' hrest hlimit

lemma reads_noFields : Reads limit noFields (record []) () where
  proper := proper_record nofun
  read p v hv _ _ := by
    obtain ⟨_, ms', -, -, rfl⟩ := reordered_record hv
    rfl

/-! ### Dictionaries -/

lemma mapM_entries {r : Reader α} {p : Place} {ms : List (String × Json)} {l : Entries α}
    (h : List.Forall₂ (fun m e => m.1 = e.1 ∧ r p m.2 = some e.2) ms l) :
    (ms.map fun m => (some m.1, m.2)).mapM (fun ((key, v) : JsonText × Json) => do
      return (← key, ← r p v)) = some l := by
  induction h with
  | nil => rfl
  | cons he _ ih =>
    rw [List.map_cons, List.mapM_cons, ih]
    simp [he.1, he.2]

/-- The entries of a dictionary are read, in some order. -/
theorem entries_record {r : Reader α} {f : α → Json} {l : Entries α}
    (h : ∀ e ∈ l, Reads (limit - 1) r (f e.2) e.2) {p : Place} {v : Json}
    (hv : (record (l.map fun e => (e.1, f e.2))).Reordered v)
    (hheight : (record (l.map fun e => (e.1, f e.2))).height ≤ p.depth) (hlimit : p.depth ≤ limit) :
    ∃ l', l'.Perm l ∧ entries r p v = some l' := by
  obtain ⟨between, ms', hsame, hperm, rfl⟩ := reordered_record hv
  obtain ⟨inner, henter, hdepth⟩ := enter_of_lt (show 0 < p.depth by
    rw [record, height] at hheight
    omega)
  rw [← hdepth, height_record, List.forall_mem_map] at hheight
  -- Read in the order of writing; the members then take their values along.
  have hread : List.Forall₂ (fun m e => m.1 = e.1 ∧ r inner m.2 = some e.2) between l := by
    rw [List.forall₂_map_left_iff] at hsame
    clear hv hperm
    induction hsame with
    | nil => exact .nil
    | cons hm _ ih =>
      rw [List.forall_mem_cons] at h hheight
      exact .cons ⟨hm.1, h.1.read inner _ hm.2 hheight.1 (by omega)⟩ (ih h.2 hheight.2)
  obtain ⟨l', hl', hperm'⟩ := List.perm_comp_forall₂ hperm.symm hread
  refine ⟨l', hperm', ?_⟩
  simp only [record, entries, henter, Option.bind_eq_bind, Option.bind_some]
  exact mapM_entries hl'

end SolidTrace.Json.Reader

namespace SolidTrace

open Json.Reader

variable {α : Type}

lemma Entries.perm_insert {key : String} {value : α} {l : Entries α} (h : key ∉ l.map Prod.fst) :
    (Entries.insert key value l).Perm ((key, value) :: l) := by
  induction l with
  | nil => rfl
  | cons e rest ih =>
    obtain ⟨k, v⟩ := e
    rw [List.map_cons, List.mem_cons, not_or] at h
    rw [Entries.insert]
    split_ifs with hlt heq
    · rfl
    · exact absurd heq h.1
    · exact ((ih h.2).cons _).trans (.swap _ _ _)

namespace Dict

lemma perm_foldl_insert {l : Entries α} {d : Dict α} (h : ((d.entries ++ l).map Prod.fst).Nodup) :
    (l.foldl (fun d e => d.insert e.1 e.2) d).entries.Perm (d.entries ++ l) := by
  induction l generalizing d with
  | nil => rw [List.append_nil, List.foldl_nil]
  | cons e l ih =>
    have hmove : (d.entries ++ e :: l).Perm (e :: (d.entries ++ l)) := List.perm_middle
    have hd := (hmove.map Prod.fst).nodup_iff.mp h
    rw [List.map_cons, List.nodup_cons, List.map_append, List.mem_append, not_or] at hd
    have hinsert : (d.insert e.1 e.2).entries.Perm (e :: d.entries) := Entries.perm_insert hd.1.1
    have hall : ((d.insert e.1 e.2).entries ++ l).Perm (d.entries ++ e :: l) :=
      (hinsert.append_right l).trans hmove.symm
    exact (ih ((hall.map Prod.fst).nodup_iff.mpr h)).trans hall

/-- A dictionary is made again from its entries in any order. -/
theorem ofList_eq {l : Entries α} {d : Dict α} (h : l.Perm d.entries) : ofList l = d := by
  have hd : (l.map Prod.fst).Nodup := by
    refine (h.map Prod.fst).nodup_iff.mpr (List.pairwise_map.mpr (d.ascending.imp ?_))
    rintro a b hlt heq
    exact String.lt_irrefl _ (heq ▸ hlt)
  have hperm : (ofList l).entries.Perm d.entries := (perm_foldl_insert (d := empty) hd).trans h
  have hentries : (ofList l).entries = d.entries :=
    hperm.eq_of_pairwise
      (fun a b _ _ hab hba => absurd (String.lt_trans hab hba) (String.lt_irrefl _))
      (ofList l).ascending d.ascending
  generalize ofList l = d' at hentries
  obtain ⟨l', hl'⟩ := d'
  obtain rfl : l' = d.entries := hentries
  rfl

theorem reads {limit : ℕ} {r : Json.Reader α} {f : α → Json} {d : Dict α}
    (h : ∀ e ∈ d.entries, Reads (limit - 1) r (f e.2) e.2) :
    Reads limit (Dict.read r) (d.write f) d where
  proper := proper_record (List.forall_mem_map.mpr fun e he => (h e he).proper)
  read p v hv hheight hlimit := by
    obtain ⟨l, hperm, hread⟩ := entries_record h hv hheight hlimit
    rw [Dict.read, map, hread, Option.map_some, ofList_eq hperm]

end Dict

end SolidTrace
