import Mathlib.Order.Lattice
import Mathlib.Data.List.Induction
import Mathlib.Data.List.Pairwise
import Mathlib.Order.Basic

/-! # Sorted tables

Finite maps with a listing order: the directory of a file system, the objects of a store, the rows
of a database table by their key. A table carries the proof that its keys are strictly increasing,
so a key has at most one value and equal listings are equal tables.

* **`SortedTable`** — the type, with `lookup`, `insert`, `erase`, `modify` and `filter`.
* The lookup after each operation, and the listing after an operation at the end of the table. -/

/-- **A table** with strictly increasing keys. -/
structure SortedTable (κ β : Type) [LinearOrder κ] where
  entries : List (κ × β)
  sorted : entries.Pairwise fun a b => a.1 < b.1

namespace SortedTable

variable {κ β : Type} [LinearOrder κ]

/-- Equal listings are equal tables. -/
theorem ext {t t' : SortedTable κ β} (h : t.entries = t'.entries) : t = t' := by
  obtain ⟨entries, sorted⟩ := t
  obtain ⟨entries', sorted'⟩ := t'
  cases h
  rfl

instance [DecidableEq β] : DecidableEq (SortedTable κ β) := fun _ _ =>
  decidable_of_iff _ ⟨ext, congrArg entries⟩

/-- The table with no rows. -/
def empty : SortedTable κ β := ⟨[], List.Pairwise.nil⟩

instance : EmptyCollection (SortedTable κ β) := ⟨empty⟩

@[simp] theorem entries_empty : (∅ : SortedTable κ β).entries = [] := rfl

/-- The keys, in increasing order. -/
def keys (t : SortedTable κ β) : List κ := t.entries.map Prod.fst

/-- The values, in the order of their keys. -/
def values (t : SortedTable κ β) : List β := t.entries.map Prod.snd

/-- The value at a key. -/
def lookup (t : SortedTable κ β) (k : κ) : Option β :=
  (t.entries.find? fun e => decide (e.1 = k)).map Prod.snd

/-- A row is what the lookup finds. -/
theorem lookup_eq_some {t : SortedTable κ β} {k : κ} {b : β} :
    t.lookup k = some b ↔ (k, b) ∈ t.entries := by
  obtain ⟨entries, sorted⟩ := t
  simp only [lookup]
  induction entries with
  | nil => simp
  | cons e entries ih =>
    obtain ⟨hhead, htail⟩ := List.pairwise_cons.mp sorted
    rw [List.find?_cons]
    by_cases hk : e.1 = k
    · subst hk
      simp only [decide_true, Option.map_some, Option.some.injEq, List.mem_cons]
      refine ⟨fun h => Or.inl (by rw [← h]), ?_⟩
      rintro (h | h)
      · rw [← h]
      · exact absurd (hhead _ h) (lt_irrefl _)
    · simp only [hk, decide_false, ih htail, List.mem_cons]
      refine ⟨Or.inr, ?_⟩
      rintro (h | h)
      · exact absurd (by rw [← h]) hk
      · exact h

theorem lookup_eq_none {t : SortedTable κ β} {k : κ} :
    t.lookup k = none ↔ ∀ e ∈ t.entries, e.1 ≠ k := by
  rw [lookup, Option.map_eq_none_iff, List.find?_eq_none]
  simp

/-- Two tables with the same lookups are equal. -/
theorem ext_lookup {t t' : SortedTable κ β} (h : ∀ k, t.lookup k = t'.lookup k) : t = t' := by
  apply ext
  have hmem : ∀ e, e ∈ t.entries ↔ e ∈ t'.entries := by
    rintro ⟨k, b⟩
    rw [← lookup_eq_some, ← lookup_eq_some, h k]
  have hnodup : ∀ {u : SortedTable κ β}, u.entries.Nodup := fun {u} =>
    u.sorted.imp fun hlt heq => absurd (heq ▸ hlt) (lt_irrefl _)
  refine List.Perm.eq_of_pairwise (fun a b _ _ hab hba => absurd (hab.trans hba) (lt_irrefl _))
    t.sorted t'.sorted ?_
  exact (List.perm_ext_iff_of_nodup hnodup hnodup).mpr hmem

/-- Collecting the rows of one key out of a table of lists. -/
theorem flatMap_ite_key {γ : Type} (t : SortedTable κ (List γ)) (k : κ) :
    (t.entries.flatMap fun e => if e.1 = k then e.2 else []) = (t.lookup k).getD [] := by
  obtain ⟨entries, sorted⟩ := t
  simp only [lookup]
  induction entries with
  | nil => rfl
  | cons e entries ih =>
    obtain ⟨hhead, htail⟩ := List.pairwise_cons.mp sorted
    rw [List.flatMap_cons, List.find?_cons, ih htail]
    by_cases hk : e.1 = k
    · -- no later row has the same key
      have hnone : entries.find? (fun e => decide (e.1 = k)) = none := by
        rw [List.find?_eq_none]
        intro e' hmem heq
        have := hhead e' hmem
        rw [hk, of_decide_eq_true heq] at this
        exact lt_irrefl _ this
      simp [hk, hnone]
    · simp [hk]

/-! ### Removing and changing rows -/

/-- The rows that satisfy a test. -/
def filter (t : SortedTable κ β) (p : κ → β → Bool) : SortedTable κ β :=
  ⟨t.entries.filter fun e => p e.1 e.2, t.sorted.filter _⟩

/-- Remove the row at a key. -/
def erase (t : SortedTable κ β) (k : κ) : SortedTable κ β :=
  t.filter fun k' _ => decide (k' ≠ k)

/-- Change every row's value, given its key. -/
def mapValues {γ : Type} (t : SortedTable κ β) (f : κ → β → γ) : SortedTable κ γ :=
  ⟨t.entries.map fun e => (e.1, f e.1 e.2), List.pairwise_map.mpr t.sorted⟩

/-- Change the value at a key, if there is one. -/
def modify (t : SortedTable κ β) (k : κ) (f : β → β) : SortedTable κ β :=
  t.mapValues fun k' b => if k' = k then f b else b

@[simp] theorem entries_filter (t : SortedTable κ β) (p : κ → β → Bool) :
    (t.filter p).entries = t.entries.filter fun e => p e.1 e.2 := rfl

theorem filter_true (t : SortedTable κ β) : t.filter (fun _ _ => true) = t :=
  ext (List.filter_eq_self.mpr fun _ _ => rfl)

@[simp] theorem entries_erase (t : SortedTable κ β) (k : κ) :
    (t.erase k).entries = t.entries.filter fun e => decide (e.1 ≠ k) := rfl

theorem lookup_filter (t : SortedTable κ β) (p : κ → β → Bool) (k : κ) :
    (t.filter p).lookup k = (t.lookup k).filter (p k) := by
  ext b
  rw [lookup_eq_some, entries_filter, List.mem_filter, Option.filter_eq_some_iff, lookup_eq_some]

theorem lookup_erase (t : SortedTable κ β) (k k' : κ) :
    (t.erase k).lookup k' = if k' = k then none else t.lookup k' := by
  rw [erase, lookup_filter]
  by_cases h : k' = k <;> cases t.lookup k' <;> simp [h, Option.filter]

theorem lookup_mapValues {γ : Type} (t : SortedTable κ β) (f : κ → β → γ) (k : κ) :
    (t.mapValues f).lookup k = (t.lookup k).map (f k) := by
  ext c
  rw [lookup_eq_some, Option.map_eq_some_iff]
  simp only [mapValues, List.mem_map, Prod.mk.injEq]
  constructor
  · rintro ⟨⟨k', b⟩, hmem, rfl, rfl⟩
    exact ⟨b, lookup_eq_some.mpr hmem, rfl⟩
  · rintro ⟨b, hb, rfl⟩
    exact ⟨(k, b), lookup_eq_some.mp hb, rfl, rfl⟩

theorem lookup_modify (t : SortedTable κ β) (k k' : κ) (f : β → β) :
    (t.modify k f).lookup k' = if k' = k then (t.lookup k').map f else t.lookup k' := by
  rw [modify, lookup_mapValues]
  by_cases h : k' = k
  · simp [h]
  · simp only [h, if_false]
    exact Option.map_id'

theorem entries_modify (t : SortedTable κ β) (k : κ) (f : β → β) :
    (t.modify k f).entries = t.entries.map fun e => (e.1, if e.1 = k then f e.2 else e.2) := rfl

@[simp] theorem keys_modify (t : SortedTable κ β) (k : κ) (f : β → β) :
    (t.modify k f).keys = t.keys := by
  rw [keys, keys, modify, mapValues, List.map_map]
  rfl

/-- Changing a value into itself changes nothing. -/
theorem modify_eq_self (t : SortedTable κ β) (k : κ) {f : β → β} (h : ∀ b, f b = b) :
    t.modify k f = t := by
  refine ext_lookup fun k' => ?_
  rw [lookup_modify, funext h]
  split_ifs
  · exact Option.map_id'
  · rfl

/-! ### Adding rows -/

/-- Put a row at its place in a sorted listing, over a row with the same key. -/
def insertEntry (k : κ) (b : β) : List (κ × β) → List (κ × β)
  | [] => [(k, b)]
  | e :: es =>
    if k < e.1 then (k, b) :: e :: es
    else if e.1 < k then e :: insertEntry k b es
    else (k, b) :: es

theorem mem_insertEntry {k : κ} {b : β} {es : List (κ × β)}
    (h : es.Pairwise fun a b => a.1 < b.1) {e : κ × β} :
    e ∈ insertEntry k b es ↔ e = (k, b) ∨ (e ∈ es ∧ e.1 ≠ k) := by
  induction es with
  | nil => simp [insertEntry]
  | cons e' es ih =>
    obtain ⟨hhead, htail⟩ := List.pairwise_cons.mp h
    rw [insertEntry]
    by_cases hlt : k < e'.1
    · rw [if_pos hlt, List.mem_cons]
      refine or_congr_right ⟨fun hmem => ⟨hmem, ?_⟩, And.left⟩
      rcases List.mem_cons.mp hmem with rfl | hmem
      · exact hlt.ne'
      · exact (hlt.trans (hhead _ hmem)).ne'
    · rw [if_neg hlt]
      by_cases hgt : e'.1 < k
      · rw [if_pos hgt, List.mem_cons, ih htail, List.mem_cons]
        constructor
        · rintro (rfl | rfl | ⟨hmem, hne⟩)
          · exact Or.inr ⟨Or.inl rfl, hgt.ne⟩
          · exact Or.inl rfl
          · exact Or.inr ⟨Or.inr hmem, hne⟩
        · rintro (rfl | ⟨rfl | hmem, hne⟩)
          · exact Or.inr (Or.inl rfl)
          · exact Or.inl rfl
          · exact Or.inr (Or.inr ⟨hmem, hne⟩)
      · rw [if_neg hgt, List.mem_cons]
        have heq : e'.1 = k := le_antisymm (not_lt.mp hlt) (not_lt.mp hgt)
        refine or_congr_right ⟨fun hmem => ⟨List.mem_cons_of_mem _ hmem, ?_⟩, ?_⟩
        · exact (heq ▸ hhead _ hmem).ne'
        · rintro ⟨hmem, hne⟩
          rcases List.mem_cons.mp hmem with rfl | hmem
          · exact absurd heq hne
          · exact hmem

theorem insertEntry_sorted (k : κ) (b : β) {es : List (κ × β)}
    (h : es.Pairwise fun a b => a.1 < b.1) :
    (insertEntry k b es).Pairwise fun a b => a.1 < b.1 := by
  induction es with
  | nil => exact List.pairwise_singleton _ _
  | cons e' es ih =>
    obtain ⟨hhead, htail⟩ := List.pairwise_cons.mp h
    rw [insertEntry]
    by_cases hlt : k < e'.1
    · rw [if_pos hlt]
      refine List.pairwise_cons.mpr ⟨fun e hmem => ?_, h⟩
      rcases List.mem_cons.mp hmem with rfl | hmem
      · exact hlt
      · exact hlt.trans (hhead e hmem)
    · rw [if_neg hlt]
      by_cases hgt : e'.1 < k
      · rw [if_pos hgt]
        refine List.pairwise_cons.mpr ⟨fun e hmem => ?_, ih htail⟩
        rcases (mem_insertEntry htail).mp hmem with rfl | ⟨hmem, -⟩
        · exact hgt
        · exact hhead e hmem
      · rw [if_neg hgt]
        have heq : e'.1 = k := le_antisymm (not_lt.mp hlt) (not_lt.mp hgt)
        exact List.pairwise_cons.mpr ⟨fun e hmem => heq ▸ hhead e hmem, htail⟩

/-- Put a row into the table, over a row with the same key. -/
def insert (t : SortedTable κ β) (k : κ) (b : β) : SortedTable κ β :=
  ⟨insertEntry k b t.entries, insertEntry_sorted k b t.sorted⟩

theorem mem_entries_insert {t : SortedTable κ β} {k : κ} {b : β} {e : κ × β} :
    e ∈ (t.insert k b).entries ↔ e = (k, b) ∨ (e ∈ t.entries ∧ e.1 ≠ k) :=
  mem_insertEntry t.sorted

theorem mem_keys_insert {t : SortedTable κ β} {k k' : κ} {b : β} :
    k' ∈ (t.insert k b).keys ↔ k' ∈ t.keys ∨ k' = k := by
  simp only [keys, List.mem_map, mem_entries_insert]
  constructor
  · rintro ⟨e, rfl | ⟨hmem, -⟩, rfl⟩
    · exact Or.inr rfl
    · exact Or.inl ⟨e, hmem, rfl⟩
  · rintro (⟨e, hmem, rfl⟩ | rfl)
    · by_cases hkey : e.1 = k
      · exact ⟨(k, b), Or.inl rfl, hkey.symm⟩
      · exact ⟨e, Or.inr ⟨hmem, hkey⟩, rfl⟩
    · exact ⟨(k', b), Or.inl rfl, rfl⟩

theorem lookup_insert (t : SortedTable κ β) (k k' : κ) (b : β) :
    (t.insert k b).lookup k' = if k' = k then some b else t.lookup k' := by
  ext c
  rw [lookup_eq_some, mem_entries_insert]
  by_cases h : k' = k
  · subst h
    simp [eq_comm]
  · simp [h, lookup_eq_some]

/-- **Collecting pairs** into a table: a later pair wins over an earlier one with the same key. -/
def ofPairs (pairs : List (κ × β)) : SortedTable κ β :=
  pairs.foldl (fun t pair => t.insert pair.1 pair.2) ∅

@[simp] theorem ofPairs_nil : (ofPairs [] : SortedTable κ β) = ∅ := rfl

theorem ofPairs_append_singleton (pairs : List (κ × β)) (pair : κ × β) :
    ofPairs (pairs ++ [pair]) = (ofPairs pairs).insert pair.1 pair.2 := by
  rw [ofPairs, List.foldl_append]
  rfl

/-- A key has the value of its last pair. -/
theorem lookup_ofPairs (pairs : List (κ × β)) (k : κ) :
    (ofPairs pairs).lookup k =
      ((pairs.filter fun pair => decide (pair.1 = k)).getLast?).map Prod.snd := by
  induction pairs using List.reverseRecOn with
  | nil => rfl
  | append_singleton pairs pair ih =>
    rw [ofPairs_append_singleton, lookup_insert, List.filter_append]
    by_cases hk : k = pair.1
    · subst hk
      simp
    · rw [if_neg hk, ih, List.filter_cons, decide_eq_false (Ne.symm hk), if_neg Bool.false_ne_true,
        List.filter_nil, List.append_nil]

/-- Collecting the rows of a table gives the table back. -/
theorem ofPairs_entries (t : SortedTable κ β) : ofPairs t.entries = t := by
  refine ext_lookup fun k => ?_
  have hmem : ∀ b, t.lookup k = some b ↔ (k, b) ∈ t.entries.filter (fun pair =>
      decide (pair.1 = k)) := fun b => by
    rw [lookup_eq_some, List.mem_filter]
    simp
  rw [lookup_ofPairs]
  cases hlast : (t.entries.filter fun pair => decide (pair.1 = k)).getLast? with
  | none =>
    rw [List.getLast?_eq_none_iff] at hlast
    rw [Option.map_none, eq_comm, Option.eq_none_iff_forall_ne_some]
    intro b hb
    rw [hmem, hlast] at hb
    cases hb
  | some pair =>
    have hpair := List.mem_of_getLast? hlast
    obtain ⟨k', b⟩ := pair
    obtain rfl : k' = k := of_decide_eq_true (List.mem_filter.mp hpair).2
    rw [Option.map_some, eq_comm, hmem]
    exact hpair

/-! ### Splitting a table at a key -/

/-- The rows from a key on. -/
def upFrom (t : SortedTable κ β) (k : κ) : SortedTable κ β := t.filter fun k' _ => decide (k ≤ k')

/-- The rows before a key. -/
def below (t : SortedTable κ β) (k : κ) : SortedTable κ β := t.filter fun k' _ => decide (k' < k)

theorem lookup_upFrom (t : SortedTable κ β) (k k' : κ) :
    (t.upFrom k).lookup k' = if k ≤ k' then t.lookup k' else none := by
  rw [upFrom, lookup_filter]
  by_cases h : k ≤ k' <;> cases t.lookup k' <;> simp [h, Option.filter]

theorem lookup_below (t : SortedTable κ β) (k k' : κ) :
    (t.below k).lookup k' = if k' < k then t.lookup k' else none := by
  rw [below, lookup_filter]
  by_cases h : k' < k <;> cases t.lookup k' <;> simp [h, Option.filter]

/-- The rows before the key, and then those from it on. -/
theorem entries_eq_below_append_upFrom (t : SortedTable κ β) (k : κ) :
    t.entries = (t.below k).entries ++ (t.upFrom k).entries := by
  obtain ⟨entries, sorted⟩ := t
  show entries = entries.filter _ ++ entries.filter _
  induction entries with
  | nil => rfl
  | cons e entries ih =>
    obtain ⟨hhead, htail⟩ := List.pairwise_cons.mp sorted
    rw [List.filter_cons, List.filter_cons]
    by_cases hlt : e.1 < k
    · rw [if_pos (decide_eq_true hlt), if_neg (by simpa using hlt), List.cons_append, ← ih htail]
    · -- all rows are from the key on
      have hle : ∀ e' ∈ entries, ¬e'.1 < k := fun e' hmem h =>
        hlt ((hhead e' hmem).trans h)
      have hnil : entries.filter (fun e => decide (e.1 < k)) = [] :=
        List.filter_eq_nil_iff.mpr fun e' hmem => by simpa using not_lt.mp (hle e' hmem)
      have hall : entries.filter (fun e => decide (k ≤ e.1)) = entries :=
        List.filter_eq_self.mpr fun e' hmem => decide_eq_true (not_lt.mp (hle e' hmem))
      rw [if_neg (by simpa using hlt), if_pos (decide_eq_true (not_lt.mp hlt)), hnil, hall]
      rfl

section Split

variable (t : SortedTable κ β) {k k' : κ}

theorem upFrom_insert (h : k ≤ k') (b : β) : (t.insert k' b).upFrom k = (t.upFrom k).insert k' b := by
  refine ext_lookup fun i => ?_
  rw [lookup_upFrom, lookup_insert, lookup_insert, lookup_upFrom]
  by_cases hi : i = k'
  · subst hi
    rw [if_pos h, if_pos rfl, if_pos rfl]
  · rw [if_neg hi, if_neg hi]

theorem below_insert (h : k ≤ k') (b : β) : (t.insert k' b).below k = t.below k := by
  refine ext_lookup fun i => ?_
  rw [lookup_below, lookup_insert, lookup_below]
  by_cases hi : i < k
  · rw [if_pos hi, if_pos hi, if_neg (hi.trans_le h).ne]
  · rw [if_neg hi, if_neg hi]

theorem upFrom_erase : (t.erase k').upFrom k = (t.upFrom k).erase k' := by
  refine ext_lookup fun i => ?_
  rw [lookup_upFrom, lookup_erase, lookup_erase, lookup_upFrom]
  split_ifs <;> rfl

/-- Removing a row before the key leaves the rows from it on. -/
theorem upFrom_erase_of_lt (h : k' < k) : (t.erase k').upFrom k = t.upFrom k := by
  refine ext_lookup fun i => ?_
  rw [lookup_upFrom, lookup_erase, lookup_upFrom]
  by_cases hi : k ≤ i
  · rw [if_pos hi, if_pos hi, if_neg (h.trans_le hi).ne']
  · rw [if_neg hi, if_neg hi]

theorem below_erase (h : k ≤ k') : (t.erase k').below k = t.below k := by
  refine ext_lookup fun i => ?_
  rw [lookup_below, lookup_erase, lookup_below]
  by_cases hi : i < k
  · rw [if_pos hi, if_pos hi, if_neg (hi.trans_le h).ne]
  · rw [if_neg hi, if_neg hi]

theorem upFrom_modify (f : β → β) : (t.modify k' f).upFrom k = (t.upFrom k).modify k' f := by
  refine ext_lookup fun i => ?_
  rw [lookup_upFrom, lookup_modify, lookup_modify, lookup_upFrom]
  split_ifs <;> rfl

theorem below_modify (h : k ≤ k') (f : β → β) : (t.modify k' f).below k = t.below k := by
  refine ext_lookup fun i => ?_
  rw [lookup_below, lookup_modify, lookup_below]
  by_cases hi : i < k
  · rw [if_pos hi, if_pos hi, if_neg (hi.trans_le h).ne]
  · rw [if_neg hi, if_neg hi]

end Split

/-! ### The end of the table -/

/-- A row with a larger key goes to the end. -/
theorem entries_insert_of_lt {t : SortedTable κ β} {k : κ} (h : ∀ e ∈ t.entries, e.1 < k) (b : β) :
    (t.insert k b).entries = t.entries ++ [(k, b)] := by
  show insertEntry k b t.entries = _
  obtain ⟨entries, sorted⟩ := t
  simp only at h ⊢
  induction entries with
  | nil => rfl
  | cons e entries ih =>
    have hlt := h e List.mem_cons_self
    rw [insertEntry, if_neg hlt.not_gt, if_pos hlt, List.cons_append,
      ih (List.pairwise_cons.mp sorted).2 fun e' hmem => h e' (List.mem_cons_of_mem _ hmem)]

/-- The rows before the last have smaller keys. -/
theorem lt_of_entries_eq_append {t : SortedTable κ β} {front : List (κ × β)} {last : κ × β}
    (h : t.entries = front ++ [last]) : ∀ e ∈ front, e.1 < last.1 := by
  have hsorted := t.sorted
  rw [h, List.pairwise_append] at hsorted
  exact fun e hmem => hsorted.2.2 e hmem last (List.mem_singleton.mpr rfl)

/-- Changing the last row. -/
theorem entries_modify_last {t : SortedTable κ β} {front : List (κ × β)} {k : κ} {b : β}
    (h : t.entries = front ++ [(k, b)]) (f : β → β) :
    (t.modify k f).entries = front ++ [(k, f b)] := by
  have hlt := lt_of_entries_eq_append h
  show t.entries.map _ = _
  rw [h, List.map_append]
  congr 1
  · refine (List.map_congr_left fun e hmem => ?_).trans (List.map_id' front)
    simp only [if_neg (hlt e hmem).ne]
  · simp

/-- Removing the last row. -/
theorem entries_erase_last {t : SortedTable κ β} {front : List (κ × β)} {k : κ} {b : β}
    (h : t.entries = front ++ [(k, b)]) : (t.erase k).entries = front := by
  have hlt := lt_of_entries_eq_append h
  rw [entries_erase, h, List.filter_append, List.filter_eq_self.mpr]
  · simp
  · exact fun e hmem => decide_eq_true (hlt e hmem).ne

end SortedTable
