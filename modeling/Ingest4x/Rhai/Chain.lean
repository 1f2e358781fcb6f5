import Ingest4x.Rhai.EventValidation

/-! # What a chain of checks decides

A chain carries three things on: the event, the type of the last type check, and whether letters lose
their case. What it decides is a predicate of the value at the path and of the list of calls.

* **`Check` / `Call.check`** — the families of the calls.
* **`Check.Accepts`** — a value meets a constraint; nothing but the value and the case is looked at.
* **`Rejected`** — what a chain is to reject.
* **`FieldRef.Sets`** — what a field carries after the calls before; `Call.run_unless` is the step.
* **`chain_raises_iff`** — a chain raises an error if and only if it is to reject the event. -/

namespace Ingest4x.Rhai

open Sinks.Parquet (asI64 asU64)

/-! ### Constraints -/

/-- **A check**: a call without the name it has in scripts. -/
inductive Check
  | type (fieldType : FieldType)
  | min (threshold : Int64)
  | ignoreCase
  | enum (values : List Dynamic)
  | oneOf (values : List Dynamic)
  | compare (comparison : NumberComparison) (threshold : Float.Model)

/-- The check of a call. -/
def Call.check : Call → Check
  | .string => .type .string
  | .number => .type .number
  | .integer => .type .integer
  | .boolean => .type .boolean
  | .object => .type .object
  | .array => .type .array
  | .min threshold => .min threshold
  | .ignoreCase => .ignoreCase
  | .enum values => .enum values
  | .oneOf values => .oneOf values
  | .gtInt threshold => .compare .gt (Float.Model.ofInt64 threshold)
  | .gtFloat threshold => .compare .gt threshold
  | .gteInt threshold => .compare .gte (Float.Model.ofInt64 threshold)
  | .gteFloat threshold => .compare .gte threshold
  | .ltInt threshold => .compare .lt (Float.Model.ofInt64 threshold)
  | .ltFloat threshold => .compare .lt threshold
  | .lteInt threshold => .compare .lte (Float.Model.ofInt64 threshold)
  | .lteFloat threshold => .compare .lte threshold

/-- What a check does to a field. -/
def Check.run (check : Check) (field : FieldRef) : Except ScriptError FieldRef :=
  match check with
  | .type fieldType => field.validateChainedType fieldType
  | .min threshold => field.minInt threshold
  | .ignoreCase => .ok field.setIgnoreCase
  | .enum values => field.enumStrings values
  | .oneOf values => field.oneOf values
  | .compare comparison threshold => field.compareNumber comparison threshold

/-- A call does what its check does. -/
theorem Call.run_check (call : Call) (field : FieldRef) : call.run field = call.check.run field := by
  cases call <;> rfl

/-- The value of a type. -/
def FieldType.Describes (fieldType : FieldType) (value : Value) : Prop :=
  match fieldType with
  | .string => ∃ s, value = .string s
  | .number => ∃ n, value = .number n
  | .integer => (∃ n, value = .number (.posInt n)) ∨ ∃ n, value = .number (.negInt n)
  | .boolean => ∃ b, value = .bool b
  | .object => ∃ fields, value = .object fields
  | .array => ∃ items, value = .array items

/-- **What a comparison says**, of any numbers. -/
def NumberComparison.Holds {α : Type} [LT α] [LE α] (comparison : NumberComparison)
    (value threshold : α) : Prop :=
  match comparison with
  | .gt => threshold < value
  | .gte => threshold ≤ value
  | .lt => value < threshold
  | .lte => value ≤ threshold

/-- Two texts are the same, up to the case of their letters where it is ignored. -/
def SameText (ignoringCase : Prop) (left right : String) : Prop :=
  left = right ∨ ignoringCase ∧ eqIgnoreAsciiCase left right = true

/-- **A value meets a constraint.** -/
def Check.Accepts (check : Check) (ignoringCase : Prop) (value : Value) : Prop :=
  match check with
  | .type fieldType => fieldType.Describes value
  | .min threshold => ∀ s, value = .string s → threshold.toInt ≤ s.length
  | .ignoreCase => True
  | .enum values =>
    ∃ s, value = .string s ∧ ∃ allowed, Dynamic.string allowed ∈ values ∧
      SameText ignoringCase s allowed
  | .oneOf values =>
    ∃ s, value = .string s ∧ ∃ allowed, Dynamic.string allowed ∈ values ∧ SameText True s allowed
  | .compare comparison threshold => ∃ x, asF64 value = some x ∧ comparison.Holds x threshold

/-! ### Chains -/

/-- The type that a call checks. -/
def Call.fieldType? (call : Call) : Option FieldType :=
  match call.check with
  | .type fieldType => some fieldType
  | _ => none

/-- The last type check of some calls. -/
def lastType (before : List Call) : Option FieldType := (before.filterMap Call.fieldType?).getLast?

/-- **A call that is no constraint at its place**: a list of texts without `string()` as the last type
check before it, or that is empty, or that has something else in it. -/
def Call.IllFormed (before : List Call) (call : Call) : Prop :=
  ∃ values, call.check = .enum values ∧
    (lastType before ≠ some .string ∨ values = [] ∨ ∃ value ∈ values, value.tryCastString = none)

/-- The value at a path that is neither missing nor null. -/
def Present (payload : Value) (path : String) (value : Value) : Prop :=
  lookupPath payload path = some value ∧ value ≠ .null

/-- **What a chain is to reject**: a required field that is missing or null, a call that is ill-formed,
and a value that violates a constraint. -/
def Rejected (start : Start) (payload : Value) (path : String) (calls : List Call) : Prop :=
  (start = .required ∧ ¬ ∃ value, Present payload path value) ∨
    (∃ before call after, calls = before ++ call :: after ∧ call.IllFormed before) ∨
    ∃ value, Present payload path value ∧ ∃ before call after, calls = before ++ call :: after ∧
      ¬ call.check.Accepts (Call.ignoreCase ∈ before) value

/-- A constraint other than a type check, a list of texts, and the change of the case. -/
def Call.Plain (call : Call) : Prop :=
  match call.check with
  | .min _ | .oneOf _ | .compare _ _ => True
  | _ => False

/-! ### One check -/

/-- **A result**: an error if something fails, else the field. -/
def Unless (fails : Prop) (result : Except ScriptError FieldRef) (field : FieldRef) : Prop :=
  (fails → Raises result) ∧ (¬ fails → result = .ok field)

@[simp] theorem raises_error {α : Type} (error : ScriptError) :
    Raises (.error error : Except ScriptError α) := ⟨error, rfl⟩

@[simp] theorem not_raises_ok {α : Type} (a : α) : ¬ Raises (.ok a : Except ScriptError α) := by
  rintro ⟨error, h⟩
  cases h

/-- No error is raised where there is an answer. -/
theorem raises_iff_toOption {α : Type} (result : Except ScriptError α) :
    Raises result ↔ result.toOption.isSome = false := by
  cases result with
  | error error => exact iff_of_true (raises_error error) rfl
  | ok a => exact iff_of_false (not_raises_ok a) (by simp [Except.toOption])

/-- A test that fails raises the error. -/
theorem unless_ite {test accepts : Prop} [Decidable test] (h : test ↔ accepts) (field : FieldRef)
    (error : ScriptError) :
    Unless (¬ accepts) (if test then .ok field else .error error) field := by
  rw [← h]
  constructor
  · intro hfails
    rw [if_neg hfails]
    exact raises_error error
  · intro hholds
    rw [if_pos (not_not.mp hholds)]

/-- A test for what fails raises the error. -/
theorem unless_ite_error {test fails : Prop} [Decidable test] (h : test ↔ fails) (field : FieldRef)
    (error : ScriptError) :
    Unless fails (if test then .error error else .ok field) field := by
  rw [← h]
  constructor
  · intro hfails
    rw [if_pos hfails]
    exact raises_error error
  · intro hholds
    rw [if_neg hholds]

/-- Equivalent failures. -/
theorem Unless.congr {fails fails' : Prop} {result : Except ScriptError FieldRef} {field : FieldRef}
    (h : Unless fails result field) (hiff : fails' ↔ fails) : Unless fails' result field := by
  rwa [Unless, hiff]

/-- The value that a call checks, whatever the start was. -/
theorem FieldRef.valueForChainedValidation_eq_some (field : FieldRef) (value : Value) :
    field.valueForChainedValidation = some value ↔ Present field.payload field.path value := by
  unfold FieldRef.valueForChainedValidation Present
  dsimp only
  split
  · -- an optional field without a value
    rename_i h
    simp only [Bool.and_eq_true, decide_eq_true_eq, Bool.not_eq_true'] at h
    have habsent := h.2
    constructor
    · intro h
      cases h
    · rintro ⟨hlookup, hnull⟩
      rw [hlookup] at habsent
      cases value <;> simp [existsNonNull] at habsent hnull
  · simp [Option.filter_eq_some_iff]

/-- **A check of the value**, where nothing is checked without one. -/
theorem unless_checked {field field' : FieldRef} {check : Value → Except ScriptError FieldRef}
    {accepts : Value → Prop} (h : ∀ value, Unless (¬ accepts value) (check value) field') :
    Unless (∃ value, Present field.payload field.path value ∧ ¬ accepts value)
      (match field.valueForChainedValidation with
        | none => .ok field'
        | some value => check value) field' := by
  cases hvalue : field.valueForChainedValidation with
  | none =>
    refine ⟨?_, fun _ => rfl⟩
    rintro ⟨value, hpresent, -⟩
    rw [← FieldRef.valueForChainedValidation_eq_some, hvalue] at hpresent
    cases hpresent
  | some value =>
    have hpresent := (field.valueForChainedValidation_eq_some value).mp hvalue
    refine (h value).congr ⟨?_, fun hfails => ⟨value, hpresent, hfails⟩⟩
    rintro ⟨value', ⟨hlookup, -⟩, hfails⟩
    rw [hpresent.1, Option.some.injEq] at hlookup
    rwa [hlookup]

/-- `FieldType::matches` says what the type describes. -/
theorem FieldType.matchesValue_iff (fieldType : FieldType) (value : Value) :
    fieldType.matchesValue value = true ↔ fieldType.Describes value := by
  unfold FieldType.matchesValue FieldType.Describes
  cases fieldType with
  | integer =>
    cases value with
    | number n => cases n <;> simp [asI64, asU64]
    | _ => simp [asI64, asU64]
  | _ => cases value <;> simp

/-- `strings_equal` with the flag. -/
theorem stringsEqual_iff (left right : String) (ignoreCase : Bool) :
    stringsEqual left right ignoreCase = true ↔ SameText (ignoreCase = true) left right := by
  unfold stringsEqual SameText
  cases ignoreCase with
  | false => simp
  | true =>
    simp only [if_true, true_and]
    constructor
    · exact .inr
    · rintro (rfl | h)
      · simp [eqIgnoreAsciiCase]
      · exact h

/-- A text of a list, with the case ignored or not. -/
theorem any_sameText {values : List Dynamic} {strings : List String} {actual : String}
    {test : String → Bool} {ignoringCase : Prop}
    (hmem : ∀ s, s ∈ strings ↔ Dynamic.string s ∈ values)
    (htest : ∀ s, test s = true ↔ SameText ignoringCase actual s) :
    strings.any test = true ↔
      ∃ s, Value.string actual = .string s ∧ ∃ allowed, Dynamic.string allowed ∈ values ∧
        SameText ignoringCase s allowed := by
  rw [List.any_eq_true]
  constructor
  · rintro ⟨s, hs, ht⟩
    exact ⟨actual, rfl, s, (hmem s).mp hs, (htest s).mp ht⟩
  · rintro ⟨s, hs, allowed, hmem', hsame⟩
    cases hs
    exact ⟨allowed, (hmem allowed).mpr hmem', (htest allowed).mpr hsame⟩

/-- A string comes out of `try_cast`. -/
theorem Dynamic.tryCastString_eq_some {value : Dynamic} {s : String} :
    value.tryCastString = some s ↔ value = .string s := by
  cases value <;> simp [Dynamic.tryCastString, eq_comm]

/-- The strings of a list. -/
theorem mem_dynamicArrayToStrings {values : List Dynamic} {s : String} :
    s ∈ dynamicArrayToStrings values ↔ Dynamic.string s ∈ values := by
  unfold dynamicArrayToStrings
  simp only [List.mem_filterMap, Dynamic.tryCastString_eq_some]
  simp

/-- **`dynamic_array_to_string_enum`** answers the strings, unless something else is in the list. -/
theorem dynamicArrayToStringEnum_cases (values : List Dynamic) (path : String) :
    (∃ value ∈ values, value.tryCastString = none) ∧
        Raises (dynamicArrayToStringEnum values path) ∨
      (¬ ∃ value ∈ values, value.tryCastString = none) ∧
        dynamicArrayToStringEnum values path = .ok (dynamicArrayToStrings values) := by
  induction values with
  | nil => right; exact ⟨by simp, rfl⟩
  | cons value values ih =>
    have hcons : dynamicArrayToStringEnum (value :: values) path
        = (enumString path value).bind fun s =>
            (dynamicArrayToStringEnum values path).bind fun strings => .ok (s :: strings) := by
      unfold dynamicArrayToStringEnum
      rw [List.mapM_cons]
      rfl
    rw [hcons, enumString]
    cases hvalue : value.tryCastString with
    | none =>
      left
      exact ⟨⟨value, List.mem_cons_self, hvalue⟩, raises_error _⟩
    | some s =>
      obtain ⟨⟨bad, hbad, hnone⟩, error, herror⟩ | ⟨hall, hok⟩ := ih
      · left
        refine ⟨⟨bad, List.mem_cons_of_mem _ hbad, hnone⟩, ?_⟩
        rw [herror]
        exact raises_error _
      · right
        refine ⟨?_, ?_⟩
        · rintro ⟨bad, hbad, hnone⟩
          obtain rfl | hbad := List.mem_cons.mp hbad
          · rw [hvalue] at hnone
            cases hnone
          · exact hall ⟨bad, hbad, hnone⟩
        · have hstrings : dynamicArrayToStrings (value :: values)
              = s :: dynamicArrayToStrings values := by
            rw [dynamicArrayToStrings, List.filterMap_cons, hvalue]
            rfl
          rw [hok, hstrings]
          rfl

/-! ### The step -/

/-- **What a field carries after some calls.** -/
structure FieldRef.Sets (field : FieldRef) (payload : Value) (path : String) (before : List Call) :
    Prop where
  payload : field.payload = payload
  path : field.path = path
  fieldType : field.fieldType = lastType before
  ignoreCase : field.ignoreCase = true ↔ Call.ignoreCase ∈ before

/-- A call fails after the calls before it. -/
def Call.Fails (payload : Value) (path : String) (before : List Call) (call : Call) : Prop :=
  call.IllFormed before ∨
    ∃ value, Present payload path value ∧ ¬ call.check.Accepts (Call.ignoreCase ∈ before) value

/-- The field after a check that did not fail. -/
def Check.mark (check : Check) (field : FieldRef) : FieldRef :=
  match check with
  | .type fieldType => { field with fieldType := some fieldType }
  | .ignoreCase => field.setIgnoreCase
  | _ => field

/-- A type check. -/
theorem FieldRef.validateChainedType_unless (field : FieldRef) (fieldType : FieldType) :
    Unless (∃ value, Present field.payload field.path value ∧ ¬ fieldType.Describes value)
      (field.validateChainedType fieldType) { field with fieldType := some fieldType } :=
  @unless_checked field { field with fieldType := some fieldType } _ _ fun value =>
    unless_ite (fieldType.matchesValue_iff value) _ _

/-- A length. -/
theorem FieldRef.minInt_unless (field : FieldRef) (threshold : Int64) (ignoringCase : Prop) :
    Unless (∃ value, Present field.payload field.path value ∧
      ¬ (Check.min threshold).Accepts ignoringCase value) (field.minInt threshold) field := by
  apply unless_checked
  intro value
  cases value with
  | string text =>
    have htest : text.length < (max threshold.toInt 0).toNat ↔
        ¬ (Check.min threshold).Accepts ignoringCase (.string text) := by
      simp only [Check.Accepts, Value.string.injEq, forall_eq']
      omega
    exact unless_ite_error htest field _
  | _ => exact ⟨fun h => absurd (by intro s hs; cases hs) h, fun _ => rfl⟩

/-- A value that is no text, where a text is asked for. -/
theorem unless_noText {value : Value} {allows : String → Prop} (h : value.asStr = none)
    (field : FieldRef) (error : ScriptError) :
    Unless (¬ ∃ s, value = .string s ∧ allows s) (.error error) field := by
  refine ⟨fun _ => raises_error error, fun hnot => absurd ?_ hnot⟩
  rintro ⟨s, rfl, -⟩
  cases h

/-- A text of a list. -/
theorem FieldRef.oneOf_unless (field : FieldRef) (values : List Dynamic) (ignoringCase : Prop) :
    Unless (∃ value, Present field.payload field.path value ∧
      ¬ (Check.oneOf values).Accepts ignoringCase value) (field.oneOf values) field := by
  apply unless_checked
  intro value
  cases value with
  | string actual =>
    refine unless_ite (any_sameText (fun _ => mem_dynamicArrayToStrings) ?_) field _
    intro s
    rw [SameText, true_and, eqIgnoreAsciiCase, eqIgnoreAsciiCase, decide_eq_true_iff,
      decide_eq_true_iff]
    constructor
    · exact fun h => .inr h.symm
    · rintro (rfl | h)
      · rfl
      · exact h.symm
  | _ => exact unless_noText rfl field _

/-- A number. -/
theorem FieldRef.compareNumber_unless (field : FieldRef) (comparison : NumberComparison)
    (threshold : Float.Model) (ignoringCase : Prop) :
    Unless (∃ value, Present field.payload field.path value ∧
        ¬ (Check.compare comparison threshold).Accepts ignoringCase value)
      (field.compareNumber comparison threshold) field := by
  apply unless_checked
  intro value
  cases hx : asF64 value with
  | none =>
    refine ⟨fun _ => raises_error _, fun hnot => absurd ?_ hnot⟩
    rintro ⟨x, hx', -⟩
    rw [hx] at hx'
    cases hx'
  | some x =>
    refine unless_ite ?_ field _
    simp only [Check.Accepts, hx, Option.some.injEq, exists_eq_left']
    cases comparison <;>
      simp only [NumberComparison.matchesNumbers, NumberComparison.Holds, decide_eq_true_eq]

/-- **A list of texts** at its place, where the field carries what the calls before have set. -/
theorem FieldRef.enumStrings_unless {field : FieldRef} {payload : Value} {path : String}
    {before : List Call} {call : Call} (hsets : field.Sets payload path before)
    {values : List Dynamic} (hcall : call.check = .enum values) :
    Unless (call.Fails payload path before) (field.enumStrings values) field := by
  have hill : call.IllFormed before ↔ lastType before ≠ some .string ∨ values = [] ∨
      ∃ value ∈ values, value.tryCastString = none := by
    constructor
    · rintro ⟨values', hvalues, h⟩
      rw [hcall] at hvalues
      cases hvalues
      exact h
    · exact fun h => ⟨values, hcall, h⟩
  unfold FieldRef.enumStrings Call.Fails
  rw [hill, hsets.fieldType]
  by_cases htype : lastType before ≠ some .string
  · rw [if_pos htype]
    exact ⟨fun _ => raises_error _, fun h => absurd (.inl (.inl htype)) h⟩
  · rw [if_neg htype]
    obtain ⟨hbad, error, herror⟩ | ⟨hall, hok⟩ := dynamicArrayToStringEnum_cases values field.path
    · rw [herror]
      exact ⟨fun _ => raises_error _, fun h => absurd (.inl (.inr (.inr hbad))) h⟩
    · rw [hok]
      dsimp only
      by_cases hempty : values = []
      · rw [hempty]
        exact ⟨fun _ => raises_error _, fun h => absurd (.inl (.inr (.inl rfl))) h⟩
      · -- a well-formed list: what is left is the check of the value
        have hstrings : (dynamicArrayToStrings values).isEmpty = false := by
          obtain ⟨value, hvalue⟩ := List.exists_mem_of_ne_nil values hempty
          cases hs : value.tryCastString with
          | none => exact absurd ⟨value, hvalue, hs⟩ hall
          | some s =>
            rw [Dynamic.tryCastString_eq_some.mp hs] at hvalue
            rw [List.isEmpty_eq_false_iff_exists_mem]
            exact ⟨s, mem_dynamicArrayToStrings.mpr hvalue⟩
        rw [hstrings]
        refine Unless.congr (?_ : Unless (∃ value, Present field.payload field.path value ∧
          ¬ (Check.enum values).Accepts (Call.ignoreCase ∈ before) value) _ field) ?_
        · apply unless_checked
          intro value
          cases value with
          | string actual =>
            refine unless_ite (any_sameText (fun _ => mem_dynamicArrayToStrings) ?_) field _
            intro s
            rw [stringsEqual_iff, SameText, SameText, hsets.ignoreCase]
          | _ => exact unless_noText rfl field _
        · rw [hcall, hsets.payload, hsets.path, or_iff_right]
          rintro (h | h | h)
          · exact htype h
          · exact hempty h
          · exact hall h

/-- The last type check, with one more call. -/
theorem lastType_append (before : List Call) (call : Call) :
    lastType (before ++ [call]) = call.fieldType?.or (lastType before) := by
  unfold lastType
  rw [List.filterMap_append]
  cases htype : call.fieldType? with
  | none => simp [htype]
  | some fieldType => simp [htype]

/-- A call that is no list of texts fails by its constraint alone. -/
theorem Call.fails_iff {payload : Value} {path : String} {before : List Call} {call : Call}
    (h : ∀ values, call.check ≠ .enum values) : call.Fails payload path before ↔
      ∃ value, Present payload path value ∧
        ¬ call.check.Accepts (Call.ignoreCase ∈ before) value := by
  unfold Call.Fails
  rw [or_iff_right]
  rintro ⟨values, hvalues, -⟩
  exact h values hvalues

/-- **A call raises an error if and only if it fails**; else the field carries on what it sets. -/
theorem Call.run_unless {field : FieldRef} {payload : Value} {path : String} {before : List Call}
    (hsets : field.Sets payload path before) (call : Call) :
    Unless (call.Fails payload path before) (call.run field) (call.check.mark field) := by
  rw [call.run_check]
  by_cases henum : ∃ values, call.check = .enum values
  · obtain ⟨values, hcheck⟩ := henum
    rw [hcheck]
    exact FieldRef.enumStrings_unless hsets hcheck
  · rw [call.fails_iff (not_exists.mp henum), ← hsets.payload, ← hsets.path]
    cases hcheck : call.check with
    | type fieldType => exact field.validateChainedType_unless fieldType
    | min threshold => exact field.minInt_unless threshold _
    | ignoreCase =>
      refine ⟨?_, fun _ => rfl⟩
      rintro ⟨value, -, hnot⟩
      exact absurd trivial hnot
    | enum values => exact absurd ⟨values, hcheck⟩ henum
    | oneOf values => exact field.oneOf_unless values _
    | compare comparison threshold => exact field.compareNumber_unless comparison threshold _

/-- Only `ignore_case` changes the case. -/
theorem Call.check_eq_ignoreCase (call : Call) : call.check = .ignoreCase ↔ call = .ignoreCase := by
  cases call <;> simp [Call.check]

/-- What a field carries after one more call. -/
theorem FieldRef.Sets.mark {field : FieldRef} {payload : Value} {path : String} {before : List Call}
    (hsets : field.Sets payload path before) (call : Call) :
    (call.check.mark field).Sets payload path (before ++ [call]) := by
  have hcase : Call.ignoreCase ∈ before ++ [call] ↔
      Call.ignoreCase ∈ before ∨ call.check = .ignoreCase := by
    rw [List.mem_append, List.mem_singleton, call.check_eq_ignoreCase, eq_comm (b := call)]
  have htype : call.fieldType? = match call.check with
      | .type fieldType => some fieldType
      | _ => none := rfl
  obtain ⟨hpayload, hpath, hfieldType, hignore⟩ := hsets
  cases hcheck : call.check <;> rw [hcheck] at hcase htype <;> constructor <;>
    first
    | exact hpayload
    | exact hpath
    | (rw [lastType_append, htype]; first | rfl | exact hfieldType)
    | (rw [hcase]; simp [Check.mark, FieldRef.setIgnoreCase, hignore])

/-! ### Runs -/

/-- **A run of calls raises an error if and only if one of them fails** where it stands. -/
theorem runCalls_raises_iff {field : FieldRef} {payload : Value} {path : String} {before : List Call}
    (hsets : field.Sets payload path before) (calls : List Call) :
    Raises (runCalls field calls) ↔ ∃ passed call after, calls = passed ++ call :: after ∧
      call.Fails payload path (before ++ passed) := by
  induction calls generalizing field before with
  | nil => simp [runCalls]
  | cons call calls ih =>
    obtain ⟨hraises, hok⟩ := Call.run_unless hsets call
    rw [runCalls]
    by_cases hfails : call.Fails payload path before
    · obtain ⟨error, herror⟩ := hraises hfails
      rw [herror]
      refine iff_of_true (raises_error error) ⟨[], call, calls, rfl, ?_⟩
      rwa [List.append_nil]
    · rw [hok hfails]
      change Raises (runCalls (call.check.mark field) calls) ↔ _
      rw [ih (hsets.mark call)]
      constructor
      · rintro ⟨passed, failing, after, rfl, h⟩
        exact ⟨call :: passed, failing, after, rfl, by rwa [List.append_assoc] at h⟩
      · rintro ⟨passed, failing, after, hcalls, h⟩
        -- the failing call is not the first one
        cases passed with
        | nil =>
          rw [List.nil_append, List.cons.injEq] at hcalls
          rw [List.append_nil, ← hcalls.1] at h
          exact absurd h hfails
        | cons first passed =>
          rw [List.cons_append, List.cons.injEq] at hcalls
          refine ⟨passed, failing, after, hcalls.2, ?_⟩
          rwa [hcalls.1, List.append_assoc, List.singleton_append]

/-- A fresh field carries nothing. -/
theorem FieldRef.sets_new (payload : Value) (path : String) (presence : FieldPresence) :
    (FieldRef.new payload path presence).Sets payload path [] :=
  ⟨rfl, rfl, rfl, by simp [FieldRef.new]⟩

/-- A value is there exactly when `exists_non_null` says so. -/
theorem existsNonNull_iff (payload : Value) (path : String) :
    existsNonNull (lookupPath payload path) = true ↔ ∃ value, Present payload path value := by
  unfold Present
  cases h : lookupPath payload path with
  | none => simp [existsNonNull]
  | some value => cases value <;> simp [existsNonNull]

section Event

variable [EventMap] {event : EventMap.Map} {payload : Value}

/-- **The start of a chain.** -/
theorem Start.open_unless (hevent : EventMap.fromDynamic event = .ok payload) (start : Start)
    (path : String) : ∃ presence,
      Unless (start = .required ∧ ¬ ∃ value, Present payload path value) (start.open event path)
        (FieldRef.new payload path presence) := by
  have hjson : mapToJson event = .ok payload := by rw [mapToJson, hevent]; rfl
  cases start with
  | optional =>
    refine ⟨.optional, ?_, ?_⟩
    · rintro ⟨h, -⟩
      cases h
    · intro _
      rw [Start.open, mapOptional, hjson]
      rfl
  | field =>
    refine ⟨.inspect, ?_, ?_⟩
    · rintro ⟨h, -⟩
      cases h
    · intro _
      rw [Start.open, mapField, hjson]
      rfl
  | required =>
    refine ⟨.required, ?_⟩
    have hopen : Start.open .required event path
        = if (!existsNonNull (lookupPath payload path)) = true then
            .error (.text ("missing required field \x60" ++ path ++ "\x60"))
          else .ok (FieldRef.new payload path .required) := by
      rw [Start.open, mapRequired, hjson]
      rfl
    rw [hopen]
    apply unless_ite_error
    rw [eq_self_iff_true, true_and, ← existsNonNull_iff, Bool.not_eq_true', Bool.not_eq_true]

/-- A chain raises an error exactly when it is to reject the event. -/
theorem raises_chain_iff_rejected (hevent : EventMap.fromDynamic event = .ok payload) (start : Start)
    (path : String) (calls : List Call) :
    Raises (chain start event path calls) ↔ Rejected start payload path calls := by
  obtain ⟨presence, hraises, hok⟩ := start.open_unless hevent path
  unfold chain Rejected
  by_cases habsent : start = .required ∧ ¬ ∃ value, Present payload path value
  · obtain ⟨error, herror⟩ := hraises habsent
    rw [herror]
    exact iff_of_true (raises_error error) (.inl habsent)
  · rw [hok habsent, or_iff_right habsent]
    change Raises (runCalls _ calls) ↔ _
    rw [runCalls_raises_iff (FieldRef.sets_new payload path presence)]
    constructor
    · rintro ⟨before, call, after, hcalls, hill | ⟨value, hpresent, hnot⟩⟩
      · exact .inl ⟨before, call, after, hcalls, hill⟩
      · exact .inr ⟨value, hpresent, before, call, after, hcalls, hnot⟩
    · rintro (⟨before, call, after, hcalls, hill⟩ |
        ⟨value, hpresent, before, call, after, hcalls, hnot⟩)
      · exact ⟨before, call, after, hcalls, .inl hill⟩
      · exact ⟨before, call, after, hcalls, .inr ⟨value, hpresent, hnot⟩⟩

omit [EventMap] in
/-- A field without a value is rejected by its start, or by an ill-formed call. -/
theorem rejected_of_absent {start : Start} {path : String} {calls : List Call}
    (hstart : start ≠ .required) (habsent : ¬ ∃ value, Present payload path value) :
    Rejected start payload path calls ↔
      ∃ before call after, calls = before ++ call :: after ∧ call.IllFormed before := by
  unfold Rejected
  constructor
  · rintro (⟨h, -⟩ | h | ⟨value, hpresent, -⟩)
    · exact absurd h hstart
    · exact h
    · exact absurd ⟨value, hpresent⟩ habsent
  · exact fun h => .inr (.inl h)

end Event

/-! ### Order of the calls -/

/-- A plain constraint leaves the field as it is. -/
theorem Call.Plain.run {call : Call} (h : call.Plain) (field : FieldRef) :
    Raises (call.run field) ∨ call.run field = .ok field := by
  have hsplit : ∀ {fails : Prop} {result : Except ScriptError FieldRef},
      Unless fails result field → Raises result ∨ result = .ok field := by
    intro fails result ⟨hraises, hok⟩
    by_cases hfails : fails
    · exact .inl (hraises hfails)
    · exact .inr (hok hfails)
  rw [call.run_check]
  unfold Call.Plain at h
  cases hcheck : call.check with
  | min threshold => exact hsplit (field.minInt_unless threshold True)
  | oneOf values => exact hsplit (field.oneOf_unless values True)
  | compare comparison threshold => exact hsplit (field.compareNumber_unless comparison threshold True)
  | type fieldType => rw [hcheck] at h; exact h.elim
  | ignoreCase => rw [hcheck] at h; exact h.elim
  | enum values => rw [hcheck] at h; exact h.elim

/-- A plain constraint in front: the run fails if it does, or if the rest does. -/
theorem Call.Plain.runCalls {call : Call} (h : call.Plain) (field : FieldRef) (calls : List Call) :
    Raises (runCalls field (call :: calls)) ↔
      Raises (call.run field) ∨ Raises (runCalls field calls) := by
  rw [Rhai.runCalls]
  obtain ⟨error, herror⟩ | hok := h.run field
  · rw [herror]
    exact iff_of_true (raises_error error) (.inl (raises_error error))
  · rw [hok, or_iff_right (not_raises_ok field)]
    rfl

/-- Runs that raise errors together do so after any calls. -/
theorem runCalls_append_congr {calls calls' : List Call}
    (h : ∀ field, Raises (runCalls field calls) ↔ Raises (runCalls field calls'))
    (before : List Call) (field : FieldRef) :
    Raises (runCalls field (before ++ calls)) ↔ Raises (runCalls field (before ++ calls')) := by
  induction before generalizing field with
  | nil => exact h field
  | cons call before ih =>
    rw [List.cons_append, List.cons_append, runCalls, runCalls]
    cases call.run field with
    | error error => exact Iff.rfl
    | ok field' => exact ih field'

/-- **Two plain constraints next to each other may be swapped.** -/
theorem raises_chain_swap [EventMap] {first second : Call} (hfirst : first.Plain)
    (hsecond : second.Plain) (start : Start) (event : EventMap.Map) (path : String)
    (before after : List Call) :
    Raises (chain start event path (before ++ first :: second :: after)) ↔
      Raises (chain start event path (before ++ second :: first :: after)) := by
  unfold chain
  cases start.open event path with
  | error error => exact Iff.rfl
  | ok field =>
    refine runCalls_append_congr (fun field => ?_) before field
    rw [hfirst.runCalls, hsecond.runCalls, hsecond.runCalls, hfirst.runCalls, or_left_comm]

/-! ### The decision -/

/-- **What a chain decides.** It raises an error if and only if the event is to be rejected; a field
without a value is rejected by an ill-formed call only, unless it is required; and the order of two
plain constraints next to each other does not matter. -/
theorem chain_raises_iff [EventMap] {event : EventMap.Map} {payload : Value}
    (hevent : EventMap.fromDynamic event = .ok payload) (start : Start) (path : String)
    (calls : List Call) :
    (Raises (chain start event path calls) ↔ Rejected start payload path calls) ∧
    (start ≠ .required → (¬ ∃ value, Present payload path value) →
      (Raises (chain start event path calls) ↔
        ∃ before call after, calls = before ++ call :: after ∧ call.IllFormed before)) ∧
    ∀ before first second after, first.Plain → second.Plain →
      calls = before ++ first :: second :: after →
      (Raises (chain start event path calls) ↔
        Raises (chain start event path (before ++ second :: first :: after))) := by
  have hiff := raises_chain_iff_rejected hevent start path calls
  refine ⟨hiff, ?_, ?_⟩
  · intro hstart habsent
    rw [hiff, rejected_of_absent hstart habsent]
  · rintro before first second after hfirst hsecond rfl
    exact raises_chain_swap hfirst hsecond start event path before after

section Sample

/-- Events that are JSON objects, as the crate reads them. -/
@[reducible] def objectMap : EventMap where
  Map := List (String × Value)
  fromDynamic fields := .ok (.object fields)

/-- The event of the samples. -/
def sampleEvent : List (String × Value) :=
  [("os", .string "iOS"), ("level", .number (.posInt 3)), ("note", .null)]

/-- The calls of the sample. -/
def sampleCalls : List Call :=
  [.string, .ignoreCase, .enum [.string "ios", .string "android"], .min 2]

/-- **A chain that passes**, with a text in another case than the list. -/
theorem chain_raises_iff_sample :
    ¬ Rejected .required (.object sampleEvent) "os" sampleCalls := by
  have hiff := (@chain_raises_iff objectMap sampleEvent (.object sampleEvent) rfl .required "os"
    sampleCalls).1
  rw [← hiff, raises_iff_toOption]
  decide +kernel

end Sample

end Ingest4x.Rhai
