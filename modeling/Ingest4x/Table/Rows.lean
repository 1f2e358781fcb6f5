import Ingest4x.Table.Sorted
import Mathlib.Data.Nat.Basic

/-! # Tables of rows with generated ids

A table of a database: rows by an id that the table generates, and unique indexes over the other
columns. A table carries the proof that its next id is fresh and that its rows do not clash.

* **`UniqueIndexes`** — when two rows may not stand in one table.
* **`RowTable`** — the table, with `insert?` and `update?`, which are refused for a row that clashes,
  and `delete` and `deleteWhere`.
* The rows after each operation, by their ids. -/

/-- **The unique indexes of a kind of rows**: two rows clash if they agree on one of them. -/
class UniqueIndexes (Row : Type) where
  clash : Row → Row → Bool
  clash_comm : ∀ row row', clash row row' = clash row' row

/-- **A table of rows.** -/
structure RowTable (Row : Type) [UniqueIndexes Row] where
  rows : SortedTable Nat Row
  nextId : Nat
  fresh : ∀ e ∈ rows.entries, e.1 < nextId
  unique : ∀ id id' row row', rows.lookup id = some row → rows.lookup id' = some row' →
    UniqueIndexes.clash row row' = true → id = id'

namespace RowTable

variable {Row : Type} [UniqueIndexes Row]

/-- Tables with the same rows and the same next id are the same. -/
theorem ext {t t' : RowTable Row} (hrows : t.rows = t'.rows) (hnext : t.nextId = t'.nextId) :
    t = t' := by
  cases t
  cases t'
  cases hrows
  cases hnext
  rfl

/-- The table with no rows. -/
def empty : RowTable Row := ⟨∅, 1, nofun, nofun⟩

/-- The row with an id. -/
def get (t : RowTable Row) (id : Nat) : Option Row := t.rows.lookup id

/-- All rows with their ids, in the order of the ids. -/
def all (t : RowTable Row) : List (Nat × Row) := t.rows.entries

/-- The first row that has a property. -/
def find? (t : RowTable Row) (p : Row → Bool) : Option (Nat × Row) := t.all.find? fun e => p e.2

@[simp] theorem get_empty (id : Nat) : (empty : RowTable Row).get id = none := rfl

theorem mem_all {t : RowTable Row} {id : Nat} {row : Row} :
    (id, row) ∈ t.all ↔ t.get id = some row :=
  SortedTable.lookup_eq_some.symm

theorem find?_eq_some {t : RowTable Row} {p : Row → Bool} {id : Nat} {row : Row}
    (h : t.find? p = some (id, row)) : t.get id = some row ∧ p row = true := by
  rw [find?] at h
  exact ⟨mem_all.mp (List.mem_of_find?_eq_some h), by simpa using List.find?_some h⟩

theorem find?_eq_none {t : RowTable Row} {p : Row → Bool} :
    t.find? p = none ↔ ∀ id row, t.get id = some row → p row = false := by
  rw [find?, List.find?_eq_none]
  refine ⟨fun h id row hrow => ?_, fun h e he => ?_⟩
  · simpa using h (id, row) (mem_all.mpr hrow)
  · simp [h e.1 e.2 (mem_all.mp he)]

/-- The next id has no row. -/
theorem get_nextId (t : RowTable Row) : t.get t.nextId = none :=
  SortedTable.lookup_eq_none.mpr fun e he heq => absurd (t.fresh e he) (by rw [heq]; exact lt_irrefl _)

theorem lt_nextId {t : RowTable Row} {id : Nat} {row : Row} (h : t.get id = some row) :
    id < t.nextId :=
  t.fresh (id, row) (mem_all.mpr h)

/-! ### Inserting -/

/-- A row clashes with a row of the table. -/
def clashes (t : RowTable Row) (row : Row) : Bool :=
  t.all.any fun e => UniqueIndexes.clash row e.2

theorem clashes_eq_false {t : RowTable Row} {row : Row} : t.clashes row = false ↔
    ∀ id row', t.get id = some row' → UniqueIndexes.clash row row' = false := by
  rw [clashes, List.any_eq_false]
  refine ⟨fun h id row' hrow => ?_, fun h e he => ?_⟩
  · simpa using h (id, row') (mem_all.mpr hrow)
  · simp [h e.1 e.2 (mem_all.mp he)]

/-- **A new row** gets the next id, if it does not clash. -/
def insert? (t : RowTable Row) (row : Row) : Option (Nat × RowTable Row) :=
  if h : t.clashes row = false then
    some (t.nextId, {
      rows := t.rows.insert t.nextId row
      nextId := t.nextId + 1
      fresh := by
        intro e he
        rcases SortedTable.mem_entries_insert.mp he with rfl | ⟨he, -⟩
        · exact Nat.lt_succ_self _
        · exact Nat.lt_succ_of_lt (t.fresh e he)
      unique := by
        have hclash := clashes_eq_false.mp h
        intro id id' r r' hr hr' hrr'
        rw [SortedTable.lookup_insert] at hr hr'
        split at hr
        · cases hr
          split at hr'
          · next h₁ h₂ => rw [h₁, h₂]
          · rw [hclash id' r' hr'] at hrr'
            cases hrr'
        · split at hr'
          · cases hr'
            rw [UniqueIndexes.clash_comm, hclash id r hr] at hrr'
            cases hrr'
          · exact t.unique id id' r r' hr hr' hrr' })
  else none

/-- What an insertion that is not refused does. -/
theorem insert?_eq_some {t t' : RowTable Row} {row : Row} {id : Nat}
    (h : t.insert? row = some (id, t')) : id = t.nextId ∧ t.clashes row = false ∧
      t'.nextId = t.nextId + 1 ∧ ∀ id', t'.get id' = if id' = id then some row else t.get id' := by
  rw [insert?] at h
  split at h
  · next hclash =>
    cases h
    exact ⟨rfl, hclash, rfl, fun id' => SortedTable.lookup_insert _ _ _ _⟩
  · cases h

theorem isSome_insert? {t : RowTable Row} {row : Row} :
    (t.insert? row).isSome = true ↔ t.clashes row = false := by
  rw [insert?]
  split <;> simp_all

/-! ### Updating -/

/-- A row clashes with a row that has another id. -/
def clashesBeside (t : RowTable Row) (id : Nat) (row : Row) : Bool :=
  t.all.any fun e => e.1 ≠ id && UniqueIndexes.clash row e.2

theorem clashesBeside_eq_false {t : RowTable Row} {id : Nat} {row : Row} :
    t.clashesBeside id row = false ↔
      ∀ id' row', t.get id' = some row' → id' ≠ id → UniqueIndexes.clash row row' = false := by
  rw [clashesBeside, List.any_eq_false]
  refine ⟨fun h id' row' hrow hid => ?_, fun h e he => ?_⟩
  · simpa [hid] using h (id', row') (mem_all.mpr hrow)
  · simp only [ne_eq, decide_not, Bool.and_eq_true, Bool.not_eq_eq_eq_not, Bool.not_true,
      decide_eq_false_iff_not, not_and, Bool.not_eq_true]
    exact h e.1 e.2 (mem_all.mp he)

/-- **A row is replaced**, if the new one does not clash with another. -/
def update? (t : RowTable Row) (id : Nat) (row : Row) : Option (RowTable Row) :=
  if h : t.clashesBeside id row = false then
    some {
      rows := t.rows.modify id fun _ => row
      nextId := t.nextId
      fresh := by
        intro e he
        have hkey : e.1 ∈ (t.rows.modify id fun _ => row).keys := List.mem_map_of_mem he
        rw [SortedTable.keys_modify] at hkey
        obtain ⟨e', he', heq⟩ := List.mem_map.mp hkey
        rw [← heq]
        exact t.fresh e' he'
      unique := by
        have hclash := clashesBeside_eq_false.mp h
        intro id₁ id₂ r₁ r₂ h₁ h₂ h₁₂
        rw [SortedTable.lookup_modify] at h₁ h₂
        split at h₁
        · next hid₁ =>
          obtain ⟨_, _, rfl⟩ := Option.map_eq_some_iff.mp h₁
          split at h₂
          · next hid₂ => rw [hid₁, hid₂]
          · next hid₂ =>
            rw [hclash id₂ r₂ h₂ hid₂] at h₁₂
            cases h₁₂
        · next hid₁ =>
          split at h₂
          · obtain ⟨_, _, rfl⟩ := Option.map_eq_some_iff.mp h₂
            rw [UniqueIndexes.clash_comm, hclash id₁ r₁ h₁ hid₁] at h₁₂
            cases h₁₂
          · exact t.unique id₁ id₂ r₁ r₂ h₁ h₂ h₁₂ }
  else none

/-- What an update that is not refused does. -/
theorem update?_eq_some {t t' : RowTable Row} {id : Nat} {row : Row}
    (h : t.update? id row = some t') : t.clashesBeside id row = false ∧ t'.nextId = t.nextId ∧
      ∀ id', t'.get id' = if id' = id then (t.get id).map fun _ => row else t.get id' := by
  rw [update?] at h
  split at h
  · next hclash =>
    cases h
    refine ⟨hclash, rfl, fun id' => ?_⟩
    rw [get, SortedTable.lookup_modify]
    split
    · next hid => rw [hid, get]
    · rfl
  · cases h

theorem isSome_update? {t : RowTable Row} {id : Nat} {row : Row} :
    (t.update? id row).isSome = true ↔ t.clashesBeside id row = false := by
  rw [update?]
  split <;> simp_all

/-- A row that is replaced by itself leaves the table as it is. -/
theorem update?_self {t : RowTable Row} {id : Nat} {row : Row} (h : t.get id = some row) :
    t.update? id row = some t := by
  have hclash : t.clashesBeside id row = false := by
    rw [clashesBeside_eq_false]
    intro id' row' hrow' hid
    cases hcl : UniqueIndexes.clash row row' with
    | false => rfl
    | true => exact absurd (t.unique id id' row row' h hrow' hcl).symm hid
  obtain ⟨t', hupdate⟩ := Option.isSome_iff_exists.mp (isSome_update?.mpr hclash)
  obtain ⟨-, hnext, hget⟩ := update?_eq_some hupdate
  have hrows : t'.rows = t.rows := by
    refine SortedTable.ext_lookup fun id' => ?_
    have hid' := hget id'
    rw [h] at hid'
    split at hid'
    · next heq => exact hid'.trans (heq ▸ h.symm)
    · exact hid'
  rwa [ext hrows hnext] at hupdate

/-! ### Deleting -/

/-- The rows without a property stay. -/
def deleteWhere (t : RowTable Row) (p : Nat → Row → Bool) : RowTable Row where
  rows := t.rows.filter fun id row => !p id row
  nextId := t.nextId
  fresh e he := t.fresh e (List.mem_filter.mp he).1
  unique id id' row row' h h' hclash := by
    rw [SortedTable.lookup_filter] at h h'
    exact t.unique id id' row row' (Option.filter_eq_some_iff.mp h).1
      (Option.filter_eq_some_iff.mp h').1 hclash

/-- A row is deleted. -/
def delete (t : RowTable Row) (id : Nat) : RowTable Row := t.deleteWhere fun id' _ => id' = id

theorem get_deleteWhere {t : RowTable Row} {p : Nat → Row → Bool} {id : Nat} {row : Row} :
    (t.deleteWhere p).get id = some row ↔ t.get id = some row ∧ p id row = false := by
  rw [get, deleteWhere, SortedTable.lookup_filter, Option.filter_eq_some_iff, get]
  simp

theorem get_delete (t : RowTable Row) (id id' : Nat) :
    (t.delete id).get id' = if id' = id then none else t.get id' := by
  refine Option.ext fun row => ?_
  rw [delete, get_deleteWhere]
  split <;> simp_all

end RowTable

/-! ### Ordering -/

/-- Rows in the order of a column that differs among them. -/
def orderBy {κ β : Type} [LinearOrder κ] (key : β → κ) (rows : List β) : List β :=
  (SortedTable.ofPairs (rows.map fun row => (key row, row))).values

/-- Ordering keeps the rows. -/
theorem mem_orderBy {κ β : Type} [LinearOrder κ] {key : β → κ} {rows : List β}
    (hkey : ∀ row ∈ rows, ∀ row' ∈ rows, key row = key row' → row = row') {row : β} :
    row ∈ orderBy key rows ↔ row ∈ rows := by
  have hlookup : ∀ k, (SortedTable.ofPairs (rows.map fun row => (key row, row))).lookup k =
      some row ↔ row ∈ rows ∧ key row = k := by
    intro k
    rw [SortedTable.lookup_ofPairs, List.filter_map, List.getLast?_map, Option.map_map]
    cases hlast : ((rows.filter ((fun e => decide (e.1 = k)) ∘ fun row => (key row, row))).getLast?)
      with
    | none =>
      rw [List.getLast?_eq_none_iff, List.filter_eq_nil_iff] at hlast
      simp only [Option.map_none, reduceCtorEq, false_iff, not_and]
      intro hrow
      simpa using hlast row hrow
    | some row' =>
      obtain ⟨hrow', hk⟩ := List.mem_filter.mp (List.mem_of_getLast? hlast)
      have hk' : key row' = k := by simpa using hk
      simp only [Option.map_some, Function.comp_apply, Option.some.injEq]
      constructor
      · rintro rfl
        exact ⟨hrow', hk'⟩
      · rintro ⟨hrow, rfl⟩
        exact hkey row' hrow' row hrow hk'
  rw [orderBy, SortedTable.values, List.mem_map]
  constructor
  · rintro ⟨⟨k, row'⟩, hmem, rfl⟩
    exact ((hlookup k).mp (SortedTable.lookup_eq_some.mpr hmem)).1
  · intro hrow
    exact ⟨(key row, row), SortedTable.lookup_eq_some.mp ((hlookup _).mpr ⟨hrow, rfl⟩), rfl⟩

/-- Ordering orders strictly. -/
theorem pairwise_orderBy {κ β : Type} [LinearOrder κ] (key : β → κ) (rows : List β) :
    (orderBy key rows).Pairwise fun row row' => key row < key row' := by
  have hkeys : ∀ e ∈ (SortedTable.ofPairs (rows.map fun row => (key row, row))).entries,
      key e.2 = e.1 := by
    intro e he
    have hlookup := SortedTable.lookup_eq_some.mpr he
    rw [SortedTable.lookup_ofPairs] at hlookup
    obtain ⟨e', hlast, heq⟩ := Option.map_eq_some_iff.mp hlookup
    obtain ⟨hmem, hkey⟩ := List.mem_filter.mp (List.mem_of_getLast? hlast)
    obtain ⟨row, -, rfl⟩ := List.mem_map.mp hmem
    rw [← heq]
    exact of_decide_eq_true hkey
  rw [orderBy, SortedTable.values, List.pairwise_map]
  refine (SortedTable.ofPairs (rows.map fun row => (key row, row))).sorted.imp_of_mem ?_
  intro e e' he he' hlt
  rwa [hkeys e he, hkeys e' he']
