import Ingest4x.Json
import Ingest4x.Table.Sorted
import Mathlib.Data.String.Basic

/-! # Reading structs from JSON values

What the derived readers and writers of the `serde` crate do for a struct: its fields by name from an
object, or by position from an array, no other fields, and defaults for fields that are missing.

* **`Codec`** — a reader and a writer of one type; a value that was read is read back from what is
  written for it.
* **`FieldCodec` / `FieldsCodec`** — one field, and the fields of a struct.
* **`Codec.struct`** — the codec of a struct. -/

namespace Ingest4x

/-- **A reader and a writer** of a type. The reader gives `none` where the crate reports an error. -/
structure Codec (α : Type) where
  decode : Value → Option α
  encode : α → Value
  decode_encode : ∀ {v : Value} {a : α}, decode v = some a → decode (encode a) = some a

namespace Codec

/-! ### Scalars -/

/-- `String`. -/
def string : Codec String where
  decode
    | .string s => some s
    | _ => none
  encode := .string
  decode_encode _ := rfl

/-- `bool`. -/
def bool : Codec Bool where
  decode
    | .bool b => some b
    | _ => none
  encode := .bool
  decode_encode _ := rfl

/-- `u64`, and `usize` on a machine with 64-bit addresses. -/
def u64 : Codec Nat where
  decode
    | .number (.posInt n) => some n.toNat
    | _ => none
  encode n := .number (.posInt (UInt64.ofNat n))
  decode_encode {v a} h := by
    split at h
    · cases h
      rw [UInt64.ofNat_toNat]
    · cases h

/-- An enum without data, by the names of its variants: a name, or an object with the name as its only
field and `null` in it. -/
def unitEnum {α : Type} (name : α → String) (variants : List α)
    (hvariants : ∀ a ∈ variants, variants.find? (fun b => name b == name a) = some a) : Codec α where
  decode
    | .string s => variants.find? fun a => name a == s
    | .object [(s, .null)] => variants.find? fun a => name a == s
    | _ => none
  encode a := .string (name a)
  decode_encode {v a} h := by
    refine hvariants a ?_
    split at h
    · exact List.mem_of_find?_eq_some h
    · exact List.mem_of_find?_eq_some h
    · cases h

/-! ### Collections -/

/-- The items of an array, read one after another. -/
def decodeItems {α : Type} (decode : Value → Option α) : List Value → Option (List α)
  | [] => some []
  | v :: vs => (decode v).bind fun a => (decodeItems decode vs).map (a :: ·)

/-- Items that were read are read back. -/
theorem decodeItems_map {α : Type} (c : Codec α) {vs : List Value} {as : List α}
    (h : decodeItems c.decode vs = some as) : decodeItems c.decode (as.map c.encode) = some as := by
  induction vs generalizing as with
  | nil =>
    cases h
    rfl
  | cons v vs ih =>
    rw [decodeItems, Option.bind_eq_some_iff] at h
    obtain ⟨a, ha, h⟩ := h
    obtain ⟨as', has', rfl⟩ := Option.map_eq_some_iff.mp h
    rw [List.map_cons, decodeItems, c.decode_encode ha, ih has']
    rfl

/-- `Vec<T>`. -/
def list {α : Type} (c : Codec α) : Codec (List α) where
  decode
    | .array items => decodeItems c.decode items
    | _ => none
  encode as := .array (as.map c.encode)
  decode_encode {v as} h := by
    split at h
    · exact decodeItems_map c h
    · cases h

/-- The fields of an object of texts. -/
def decodeTexts : List (String × Value) → Option (List (String × String))
  | [] => some []
  | (k, v) :: fields => (string.decode v).bind fun s => (decodeTexts fields).map ((k, s) :: ·)

theorem decodeTexts_map (texts : List (String × String)) :
    decodeTexts (texts.map fun field => (field.1, .string field.2)) = some texts := by
  induction texts with
  | nil => rfl
  | cons field texts ih =>
    rw [List.map_cons, decodeTexts, ih]
    rfl

/-- `BTreeMap<String, String>`. -/
def stringMap : Codec (SortedTable String String) where
  decode
    | .object fields => (decodeTexts fields).map SortedTable.ofPairs
    | _ => none
  encode table := .object (table.entries.map fun field => (field.1, .string field.2))
  decode_encode {v table} _ := by
    simp only [decodeTexts_map, Option.map_some, SortedTable.ofPairs_entries]

end Codec

/-! ### Fields -/

/-- **A field of a struct**: what is read where it is there or missing, and what is written, if it is
not left out. -/
structure FieldCodec (α : Type) where
  read : Option Value → Option α
  write : α → Option Value
  read_write : ∀ {v : Option Value} {a : α}, read v = some a → read (write a) = some a

namespace FieldCodec

variable {α : Type}

/-- A field without attributes. -/
def required (c : Codec α) : FieldCodec α where
  read v := v.bind c.decode
  write a := some (c.encode a)
  read_write h := by
    obtain ⟨v, -, hv⟩ := Option.bind_eq_some_iff.mp h
    exact c.decode_encode hv

/-- A field with a default. -/
def defaulted (c : Codec α) (default : α) (hdefault : c.decode (c.encode default) = some default) :
    FieldCodec α where
  read
    | none => some default
    | some v => c.decode v
  write a := some (c.encode a)
  read_write {v a} h := by
    cases v with
    | none =>
      cases h
      exact hdefault
    | some v => exact c.decode_encode h

/-- A field with a default that is left out where it has it. -/
def skipped [DecidableEq α] (c : Codec α) (default : α) : FieldCodec α where
  read
    | none => some default
    | some v => c.decode v
  write a := if a = default then none else some (c.encode a)
  read_write {v a} h := by
    by_cases ha : a = default
    · rw [if_pos ha, ha]
    · rw [if_neg ha]
      cases v with
      | none =>
        cases h
        exact absurd rfl ha
      | some v => exact c.decode_encode h

/-- An `Option` field that is left out where it is `None`. -/
def optional (c : Codec α) (hencode : ∀ a, c.encode a ≠ .null) : FieldCodec (Option α) where
  read
    | none => some none
    | some v => if v = .null then some none else (c.decode v).map some
  write a := a.map c.encode
  read_write {v a} h := by
    cases a with
    | none => rfl
    | some a =>
      simp only [Option.map_some, if_neg (hencode a)]
      cases v with
      | none => cases h
      | some v =>
        simp only at h
        by_cases hnull : v = .null
        · rw [if_pos hnull] at h
          cases h
        · rw [if_neg hnull] at h
          obtain ⟨a', ha', heq⟩ := Option.map_eq_some_iff.mp h
          cases heq
          rw [c.decode_encode ha', Option.map_some]

end FieldCodec

/-! ### Structs -/

/-- **The fields of a struct** by their names: one value or none for each. -/
structure FieldsCodec (α : Type) where
  names : List String
  read : List (Option Value) → Option α
  write : α → List (Option Value)
  length_write : ∀ a, (write a).length = names.length
  read_write : ∀ {vs : List (Option Value)} {a : α}, read vs = some a → read (write a) = some a

namespace FieldsCodec

variable {α β : Type}

/-- No field. -/
def nil : FieldsCodec Unit where
  names := []
  read
    | [] => some ()
    | _ :: _ => none
  write _ := []
  length_write _ := rfl
  read_write _ := rfl

/-- One more field in front. -/
def cons (name : String) (field : FieldCodec α) (fields : FieldsCodec β) : FieldsCodec (α × β) where
  names := name :: fields.names
  read
    | [] => none
    | v :: vs => (field.read v).bind fun a => (fields.read vs).map fun b => (a, b)
  write ab := field.write ab.1 :: fields.write ab.2
  length_write ab := congrArg Nat.succ (fields.length_write ab.2)
  read_write {vs ab} h := by
    cases vs with
    | nil => cases h
    | cons v vs =>
      obtain ⟨a, ha, h⟩ := Option.bind_eq_some_iff.mp h
      obtain ⟨b, hb, rfl⟩ := Option.map_eq_some_iff.mp h
      simp only [field.read_write ha, fields.read_write hb, Option.bind_some, Option.map_some]

/-- The first field is read from the first value, the others from the rest. -/
theorem read_cons {name : String} {field : FieldCodec α} {fields : FieldsCodec β}
    {v : Option Value} {vs : List (Option Value)} {ab : α × β} :
    (cons name field fields).read (v :: vs) = some ab ↔
      field.read v = some ab.1 ∧ fields.read vs = some ab.2 := by
  obtain ⟨a, b⟩ := ab
  simp only [cons, Option.bind_eq_some_iff, Option.map_eq_some_iff, Prod.mk.injEq]
  constructor
  · rintro ⟨a', ha, b', hb, rfl, rfl⟩
    exact ⟨ha, hb⟩
  · rintro ⟨ha, hb⟩
    exact ⟨a, ha, b, hb, rfl, rfl⟩

end FieldsCodec

/-- The values at the names, in an object without other fields or in an array by position. -/
def structValues (names : List String) : Value → Option (List (Option Value))
  | .object fields =>
    if ∀ field ∈ fields, field.1 ∈ names then some (names.map (Value.object fields).get) else none
  | .array items =>
    if items.length ≤ names.length then
      some (items.map some ++ List.replicate (names.length - items.length) none)
    else none
  | _ => none

/-- The fields that are written, with their names. -/
def presentFields : List String → List (Option Value) → List (String × Value)
  | name :: names, some v :: vs => (name, v) :: presentFields names vs
  | _ :: names, none :: vs => presentFields names vs
  | _, _ => []

/-- An object of fields, in the order of the map. -/
def Value.ofFields (fields : List (String × Value)) : Value :=
  .object (SortedTable.ofPairs fields).entries

/-- The field of an object in the order of the map. -/
theorem Value.get_entries (table : SortedTable String Value) (name : String) :
    (Value.object table.entries).get name = table.lookup name := by
  rw [Value.get, SortedTable.lookup]
  congr 2

theorem mem_of_mem_presentFields {names : List String} {vs : List (Option Value)}
    {field : String × Value} (h : field ∈ presentFields names vs) : field.1 ∈ names := by
  induction names generalizing vs with
  | nil => cases vs <;> cases h
  | cons name names ih =>
    cases vs with
    | nil => cases h
    | cons v vs =>
      cases v with
      | none => exact List.mem_cons_of_mem _ (ih h)
      | some v =>
        rcases List.mem_cons.mp h with rfl | h
        · exact List.mem_cons_self
        · exact List.mem_cons_of_mem _ (ih h)

/-- Every name finds its own value. -/
theorem map_lookup_presentFields {names : List String} (hnames : names.Nodup)
    {vs : List (Option Value)} (hlength : vs.length = names.length) :
    names.map (SortedTable.ofPairs (presentFields names vs)).lookup = vs := by
  have hfind : ∀ {names : List String} {vs : List (Option Value)}, names.Nodup →
      vs.length = names.length → names.map (fun name =>
        (((presentFields names vs).filter fun field => decide (field.1 = name)).getLast?).map
          Prod.snd) = vs := by
    clear hlength hnames vs names
    intro names vs hnames hlength
    induction names generalizing vs with
    | nil =>
      cases vs with
      | nil => rfl
      | cons v vs => cases hlength
    | cons name names ih =>
      cases vs with
      | nil => cases hlength
      | cons v vs =>
        obtain ⟨hname, hnames⟩ := List.nodup_cons.mp hnames
        have hnone : (presentFields names vs).filter (fun field => decide (field.1 = name)) = [] := by
          refine List.filter_eq_nil_iff.mpr fun field hfield => ?_
          intro heq
          exact hname (of_decide_eq_true heq ▸ mem_of_mem_presentFields hfield)
        have hrest : names.map (fun name' => (((presentFields (name :: names) (v :: vs)).filter
            fun field => decide (field.1 = name')).getLast?).map Prod.snd) = vs := by
          refine Eq.trans (List.map_congr_left fun name' hname' => ?_)
            (ih hnames (Nat.succ.inj hlength))
          cases v with
          | none => rfl
          | some v =>
            rw [presentFields, List.filter_cons, if_neg]
            intro heq
            have heq' : name = name' := of_decide_eq_true heq
            exact hname (heq' ▸ hname')
        rw [List.map_cons, hrest]
        congr 1
        cases v with
        | none =>
          rw [presentFields, hnone]
          rfl
        | some v =>
          rw [presentFields, List.filter_cons, if_pos (by simp), hnone]
          rfl
  refine Eq.trans (List.map_congr_left fun name _ => ?_) (hfind hnames hlength)
  rw [SortedTable.lookup_ofPairs]

/-- What is written for a struct is read by name. -/
theorem structValues_presentFields {names : List String} (hnames : names.Nodup)
    {vs : List (Option Value)} (hlength : vs.length = names.length) :
    structValues names (Value.ofFields (presentFields names vs)) = some vs := by
  rw [Value.ofFields, structValues, if_pos]
  · rw [← map_lookup_presentFields hnames hlength]
    congr 1
    refine List.map_congr_left fun name _ => ?_
    rw [Value.get_entries, map_lookup_presentFields hnames hlength]
  · intro field hfield
    have hlookup := SortedTable.lookup_eq_some.mpr hfield
    rw [SortedTable.lookup_ofPairs] at hlookup
    obtain ⟨pair, hpair, -⟩ := Option.map_eq_some_iff.mp hlookup
    have hmem := List.mem_filter.mp (List.mem_of_getLast? hpair)
    exact of_decide_eq_true hmem.2 ▸ mem_of_mem_presentFields hmem.1

/-- **The codec of a struct** that a value `α` is made of the fields `β` of. -/
def Codec.struct {α β : Type} (fields : FieldsCodec β) (hnames : fields.names.Nodup) (make : β → α)
    (parts : α → β) (parts_make : ∀ b, parts (make b) = b) : Codec α where
  decode v := ((structValues fields.names v).bind fields.read).map make
  encode a := .ofFields (presentFields fields.names (fields.write (parts a)))
  decode_encode {v a} h := by
    obtain ⟨b, hb, rfl⟩ := Option.map_eq_some_iff.mp h
    obtain ⟨vs, -, hread⟩ := Option.bind_eq_some_iff.mp hb
    rw [structValues_presentFields hnames (fields.length_write _), Option.bind_some, parts_make,
      fields.read_write hread, Option.map_some]

/-- A struct is written as an object that has only its own fields. -/
theorem Codec.struct_encode {α β : Type} (fields : FieldsCodec β) (hnames : fields.names.Nodup)
    (make : β → α) (parts : α → β) (parts_make : ∀ b, parts (make b) = b) (a : α) :
    ∃ table : SortedTable String Value,
      (Codec.struct fields hnames make parts parts_make).encode a = .object table.entries ∧
        ∀ name, name ∉ fields.names → table.lookup name = none := by
  refine ⟨_, rfl, fun name hname => ?_⟩
  rw [SortedTable.lookup_ofPairs, Option.map_eq_none_iff, List.getLast?_eq_none_iff,
    List.filter_eq_nil_iff]
  intro field hfield heq
  exact hname (of_decide_eq_true heq ▸ mem_of_mem_presentFields hfield)

/-- The fields of a struct are found in what is written for it. -/
theorem Codec.struct_get {α β : Type} (fields : FieldsCodec β) (hnames : fields.names.Nodup)
    (make : β → α) (parts : α → β) (parts_make : ∀ b, parts (make b) = b) (a : α) :
    fields.names.map ((Codec.struct fields hnames make parts parts_make).encode a).get =
      fields.write (parts a) := by
  refine Eq.trans (List.map_congr_left fun name _ => ?_)
    (map_lookup_presentFields hnames (fields.length_write (parts a)))
  exact Value.get_entries _ name

end Ingest4x
