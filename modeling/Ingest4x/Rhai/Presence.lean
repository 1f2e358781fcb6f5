import Ingest4x.Rhai.Chain

/-! # When a field is there

The scripts have three ways to ask whether a field is there: `required`, which raises an error,
`exists` and `missing`, which answer, and `any`, which asks it of several fields. Two predicates decide
them, and they differ on one value, the empty text.

* **`PresenceAgrees` / `AnyAgrees`** — the ways agree at a path, and on a list of paths.
* **`presence_agrees_iff`** — when they do. -/

namespace Ingest4x.Rhai

section Event

variable [EventMap]

/-- **`required`, `exists` and `missing` agree** at a path. -/
def PresenceAgrees (event : EventMap.Map) (path : String) : Prop :=
  (¬ Raises (mapRequired event path) ↔ (mapField event path).map FieldRef.exists_ = .ok true) ∧
    (¬ Raises (mapRequired event path) ↔ (mapField event path).map FieldRef.missing = .ok false)

/-- **`any` agrees with `required`** on a list of paths. -/
def AnyAgrees (event : EventMap.Map) (paths : List String) : Prop :=
  ¬ Raises ((mapAny event (paths.map Dynamic.string)).bind AnyFields.required) ↔
    ∃ path ∈ paths, ¬ Raises (mapRequired event path)

omit [EventMap] in
/-- `is_present` asks for more than `exists_non_null`: a text that is not empty. -/
theorem isPresent_iff (payload : Value) (path : String) :
    isPresent (lookupPath payload path) = true ↔
      ∃ value, Present payload path value ∧ value ≠ .string "" := by
  unfold Present
  cases h : lookupPath payload path with
  | none => simp [isPresent]
  | some value => cases value <;> simp [isPresent]

omit [EventMap] in
/-- A value that is there is present, unless it is the empty text. -/
theorem present_iff_isPresent {payload : Value} {path : String} :
    ((∃ value, Present payload path value) ↔ isPresent (lookupPath payload path) = true) ↔
      lookupPath payload path ≠ some (.string "") := by
  rw [isPresent_iff]
  constructor
  · intro hiff hempty
    obtain ⟨value, hpresent, hne⟩ := hiff.mp ⟨_, hempty, by intro h; cases h⟩
    rw [hpresent.1, Option.some.injEq] at hempty
    exact hne hempty
  · intro hne
    constructor
    · rintro ⟨value, hpresent⟩
      refine ⟨value, hpresent, ?_⟩
      rintro rfl
      exact hne hpresent.1
    · rintro ⟨value, hpresent, -⟩
      exact ⟨value, hpresent⟩

variable {event : EventMap.Map} {payload : Value}

/-- What `required` asks. -/
theorem not_raises_mapRequired_iff (hevent : EventMap.fromDynamic event = .ok payload)
    (path : String) : ¬ Raises (mapRequired event path) ↔ ∃ value, Present payload path value := by
  obtain ⟨presence, hraises, hok⟩ := Start.open_unless hevent .required path
  change (_ → Raises (mapRequired event path)) at hraises
  change (_ → mapRequired event path = _) at hok
  constructor
  · intro h
    by_contra habsent
    exact h (hraises ⟨rfl, habsent⟩)
  · intro h
    rw [hok fun habsent => habsent.2 h]
    exact not_raises_ok _

/-- What `exists` asks. -/
theorem map_exists_eq (hevent : EventMap.fromDynamic event = .ok payload) (path : String) :
    (mapField event path).map FieldRef.exists_ = .ok (isPresent (lookupPath payload path)) := by
  rw [mapField, mapToJson, hevent]
  rfl

/-- What `missing` asks. -/
theorem map_missing_eq (hevent : EventMap.fromDynamic event = .ok payload) (path : String) :
    (mapField event path).map FieldRef.missing = .ok (!isPresent (lookupPath payload path)) := by
  rw [mapField, mapToJson, hevent]
  rfl

/-- What `any` asks. -/
theorem not_raises_any_iff (hevent : EventMap.fromDynamic event = .ok payload)
    (paths : List String) :
    ¬ Raises ((mapAny event (paths.map Dynamic.string)).bind AnyFields.required) ↔
      ∃ path ∈ paths, isPresent (lookupPath payload path) = true := by
  have hpaths : dynamicArrayToStrings (paths.map Dynamic.string) = paths := by
    unfold dynamicArrayToStrings
    rw [List.filterMap_map]
    exact List.filterMap_some
  have hany : (mapAny event (paths.map Dynamic.string)).bind AnyFields.required
      = AnyFields.required { payload := payload, paths := paths } := by
    rw [mapAny, mapToJson, hevent, hpaths]
    rfl
  rw [hany, AnyFields.required, ← List.any_eq_true]
  split
  · exact iff_of_true (not_raises_ok _) (by assumption)
  · exact iff_of_false (not_not.mpr (raises_error _)) (by assumption)

/-- **When the ways to ask agree.** At a path: exactly when there is no empty text at it. On a list of
paths: exactly when an empty text at one of them comes with another value at one of them. -/
theorem presence_agrees_iff (hevent : EventMap.fromDynamic event = .ok payload) (path : String)
    (paths : List String) :
    (PresenceAgrees event path ↔ lookupPath payload path ≠ some (.string "")) ∧
      (AnyAgrees event paths ↔
        ((∃ p ∈ paths, lookupPath payload p = some (.string "")) →
          ∃ p ∈ paths, ∃ value, Present payload p value ∧ value ≠ .string "")) := by
  constructor
  · unfold PresenceAgrees
    rw [not_raises_mapRequired_iff hevent, map_exists_eq hevent, map_missing_eq hevent,
      Except.ok.injEq, Except.ok.injEq, Bool.not_eq_false', and_self, present_iff_isPresent]
  · unfold AnyAgrees
    rw [not_raises_any_iff hevent]
    simp only [not_raises_mapRequired_iff hevent, isPresent_iff]
    constructor
    · rintro hiff ⟨p, hp, hempty⟩
      exact hiff.mpr ⟨p, hp, _, hempty, by intro h; cases h⟩
    · intro hcond
      constructor
      · rintro ⟨p, hp, value, hpresent, -⟩
        exact ⟨p, hp, value, hpresent⟩
      · rintro ⟨p, hp, value, hpresent⟩
        -- the value is the empty text, or it counts for `any` too
        by_cases hvalue : value = .string ""
        · exact hcond ⟨p, hp, by rw [hpresent.1, hvalue]⟩
        · exact ⟨p, hp, value, hpresent, hvalue⟩

end Event

section Sample

/-- An event with a field that is there, and an empty one. -/
def presenceEvent : List (String × Value) := [("caid", .string "c"), ("idfa", .string "")]

/-- **An event where they agree**: at a field, and on a list that has an empty field in it. -/
theorem presence_agrees_iff_sample :
    @PresenceAgrees objectMap presenceEvent "caid" ∧
      @AnyAgrees objectMap presenceEvent ["idfa", "caid"] := by
  have h := @presence_agrees_iff objectMap presenceEvent (.object presenceEvent) rfl "caid"
    ["idfa", "caid"]
  refine ⟨h.1.mpr (by decide +kernel), h.2.mpr fun _ => ⟨"caid", by simp, .string "c", ⟨?_, ?_⟩, ?_⟩⟩
  · decide +kernel
  · simp
  · simp

/-- **An empty text is required and missing at once**: `required("idfa")` succeeds, but the field does
not exist, and `any(["idfa"])` does not have it. -/
theorem not_presence_agrees :
    ¬ @PresenceAgrees objectMap presenceEvent "idfa" ∧
      ¬ @AnyAgrees objectMap presenceEvent ["idfa"] := by
  have hrequired : ¬ Raises (@mapRequired objectMap presenceEvent "idfa") := by
    rw [raises_iff_toOption]
    decide +kernel
  constructor
  · intro hagrees
    have hexists : ((@mapField objectMap presenceEvent "idfa").map FieldRef.exists_).toOption
        = some false := by
      decide +kernel
    rw [hagrees.1.mp hrequired] at hexists
    cases hexists
  · intro hagrees
    have hany : Raises ((@mapAny objectMap presenceEvent (["idfa"].map Dynamic.string)).bind
        AnyFields.required) := by
      rw [raises_iff_toOption]
      decide +kernel
    exact hagrees.mpr ⟨"idfa", List.mem_singleton_self _, hrequired⟩ hany

end Sample

end Ingest4x.Rhai
