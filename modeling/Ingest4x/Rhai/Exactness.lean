import Ingest4x.Number.Binary64
import Ingest4x.Rhai.Chain

/-! # Comparisons of integers

`gt`, `gte`, `lt` and `lte` compare two `f64`, so an integer of an event and an integer threshold are
both rounded to 53 bits before they are compared.

* **`IsInteger`** — a JSON value is an integer.
* **`Exact`** — a comparison answers what it says over the integers.
* **`comparisons_exact_iff`** — when it does: the integers stay apart, or their order is on the side
  where the loss does not show. -/

namespace Ingest4x.Rhai

open Rounding

/-- **A JSON integer**, with its value. -/
def IsInteger (value : Value) (v : ℤ) : Prop :=
  (∃ n, value = .number (.posInt n) ∧ v = n.toNat) ∨
    ∃ n, value = .number (.negInt n) ∧ v = n.toInt

/-- The call of a comparison with an integer. -/
def NumberComparison.intCall (comparison : NumberComparison) (threshold : Int64) : Call :=
  match comparison with
  | .gt => .gtInt threshold
  | .gte => .gteInt threshold
  | .lt => .ltInt threshold
  | .lte => .lteInt threshold

/-- **A comparison is exact** on a field with an integer: it succeeds where it holds of the
integers. -/
def Exact (field : FieldRef) (v : ℤ) (threshold : Int64) (comparison : NumberComparison) : Prop :=
  ¬ Raises ((comparison.intCall threshold).run field) ↔ comparison.Holds v threshold.toInt

/-- The integers on whose side a comparison is right even when both become one number. -/
def NumberComparison.Safe (comparison : NumberComparison) (v threshold : ℤ) : Prop :=
  match comparison with
  | .gt | .lte => v ≤ threshold
  | .gte | .lt => threshold ≤ v

/-- An integer as `f64`. -/
theorem asF64_isInteger {value : Value} {v : ℤ} (h : IsInteger value v) :
    asF64 value = some (Float.Model.ofInt v) := by
  obtain ⟨n, rfl, rfl⟩ | ⟨n, rfl, rfl⟩ := h
  · rfl
  · rfl

/-- A JSON integer fits 64 bits. -/
theorem IsInteger.natAbs_lt {value : Value} {v : ℤ} (h : IsInteger value v) :
    v.natAbs < 2 ^ 64 := by
  obtain ⟨n, -, rfl⟩ | ⟨n, -, rfl⟩ := h
  · rw [Int.natAbs_natCast]
    exact n.toNat_lt
  · have hlo := n.le_toInt
    have hhi := n.toInt_lt
    omega

/-- A threshold fits 64 bits. -/
theorem natAbs_threshold_lt (threshold : Int64) : threshold.toInt.natAbs < 2 ^ 64 := by
  have hlo := threshold.le_toInt
  have hhi := threshold.toInt_lt
  omega

/-- **A comparison is decided on the rounded integers.** -/
theorem not_raises_intCall_iff {field : FieldRef} {value : Value} {v : ℤ}
    (hvalue : lookupPath field.payload field.path = some value) (hint : IsInteger value v)
    (threshold : Int64) (comparison : NumberComparison) :
    ¬ Raises ((comparison.intCall threshold).run field) ↔
      comparison.Holds (roundInt 52 v) (roundInt 52 threshold.toInt) := by
  have hpresent : Present field.payload field.path value := by
    refine ⟨hvalue, ?_⟩
    rintro rfl
    obtain ⟨n, h, -⟩ | ⟨n, h, -⟩ := hint <;> cases h
  have hcall : (comparison.intCall threshold).run field
      = field.compareNumber comparison (Float.Model.ofInt threshold.toInt) := by
    cases comparison <;> rfl
  obtain ⟨hraises, hok⟩ :=
    field.compareNumber_unless comparison (Float.Model.ofInt threshold.toInt) False
  have hv := hint.natAbs_lt
  have ht := natAbs_threshold_lt threshold
  -- the comparison of the converted integers
  have hholds : comparison.Holds (Float.Model.ofInt v) (Float.Model.ofInt threshold.toInt) ↔
      comparison.Holds (roundInt 52 v) (roundInt 52 threshold.toInt) := by
    cases comparison with
    | gt => exact Binary64.ofInt_lt_ofInt ht hv
    | gte => exact Binary64.ofInt_le_ofInt ht hv
    | lt => exact Binary64.ofInt_lt_ofInt hv ht
    | lte => exact Binary64.ofInt_le_ofInt hv ht
  rw [hcall, ← hholds]
  constructor
  · intro hnot
    by_contra hfails
    refine hnot (hraises ⟨value, hpresent, ?_⟩)
    rintro ⟨x, hx, hx'⟩
    rw [asF64_isInteger hint, Option.some.injEq] at hx
    exact hfails (hx ▸ hx')
  · intro hholds'
    rw [hok]
    · exact not_raises_ok field
    · rintro ⟨value', hpresent', hnot⟩
      rw [hpresent.1.symm.trans hpresent'.1 |> Option.some.inj] at hint
      exact hnot ⟨_, asF64_isInteger hint, hholds'⟩

/-- **When comparisons are exact.** One comparison: exactly when the two integers stay apart under
rounding, or are on its safe side. All four: exactly when they stay apart, or are equal. -/
theorem comparisons_exact_iff {field : FieldRef} {value : Value} {v : ℤ}
    (hvalue : lookupPath field.payload field.path = some value) (hint : IsInteger value v)
    (threshold : Int64) :
    (∀ comparison, Exact field v threshold comparison ↔
      Separated 52 v threshold.toInt ∨ comparison.Safe v threshold.toInt) ∧
    ((∀ comparison, Exact field v threshold comparison) ↔
      Separated 52 v threshold.toInt ∨ v = threshold.toInt) := by
  have hone : ∀ comparison, Exact field v threshold comparison ↔
      Separated 52 v threshold.toInt ∨ comparison.Safe v threshold.toInt := by
    intro comparison
    unfold Exact
    rw [not_raises_intCall_iff hvalue hint]
    have hlt := @roundInt_lt_iff 52 v threshold.toInt
    have hgt := @roundInt_lt_iff 52 threshold.toInt v
    have hsymm : Separated 52 threshold.toInt v ↔ Separated 52 v threshold.toInt :=
      ⟨Separated.symm, Separated.symm⟩
    rw [hsymm] at hgt
    have hle : roundInt 52 v ≤ roundInt 52 threshold.toInt ↔
        ¬ (threshold.toInt < v ∧ Separated 52 v threshold.toInt) := by rw [← hgt, not_lt]
    have hge : roundInt 52 threshold.toInt ≤ roundInt 52 v ↔
        ¬ (v < threshold.toInt ∧ Separated 52 v threshold.toInt) := by rw [← hlt, not_lt]
    by_cases hsep : Separated 52 v threshold.toInt
    · refine iff_of_true ?_ (.inl hsep)
      cases comparison <;>
        simp only [NumberComparison.Holds, hlt, hgt, hle, hge, hsep, and_true, not_lt]
    · rw [or_iff_right hsep]
      cases comparison <;>
        simp only [NumberComparison.Holds, NumberComparison.Safe, hlt, hgt, hle, hge, hsep, and_false,
          not_false_eq_true, true_iff, false_iff, not_lt]
  refine ⟨hone, ?_⟩
  constructor
  · intro hall
    obtain hsep | hgt := (hone .gt).mp (hall .gt)
    · exact .inl hsep
    · obtain hsep | hlt := (hone .lt).mp (hall .lt)
      · exact .inl hsep
      · exact .inr (le_antisymm hgt hlt)
  · rintro (hsep | heq) comparison
    · exact (hone comparison).mpr (.inl hsep)
    · refine (hone comparison).mpr (.inr ?_)
      cases comparison with
      | gt => exact heq.le
      | gte => exact heq.ge
      | lt => exact heq.ge
      | lte => exact heq.le

section Sample

/-- A field with an integer. -/
def integerField (n : UInt64) : FieldRef :=
  FieldRef.new (.object [("amount", .number (.posInt n))]) "amount" .required

/-- **Small integers** are compared exactly. -/
theorem comparisons_exact_iff_sample :
    Exact (integerField 9007199254740992) 9007199254740992 9007199254740991 .gt ∧
      Exact (integerField 9007199254740992) 9007199254740992 9007199254740991 .lt := by
  have hvalue : lookupPath (integerField 9007199254740992).payload
      (integerField 9007199254740992).path = some (.number (.posInt 9007199254740992)) := by
    decide +kernel
  have hint : IsInteger (.number (.posInt 9007199254740992)) 9007199254740992 :=
    .inl ⟨_, rfl, by decide⟩
  have hexact := (comparisons_exact_iff hvalue hint 9007199254740991).2.mpr
    (.inl (separated_of_le (by decide) (by decide) (by decide)))
  exact ⟨hexact .gt, hexact .lt⟩

/-- **Two neighbours above `2 ^ 53`**: `gt(9007199254740992)` rejects `9007199254740993`. -/
theorem not_comparisons_exact :
    ¬ Exact (integerField 9007199254740993) 9007199254740993 9007199254740992 .gt := by
  intro hexact
  have hraises : Raises ((Call.gtInt 9007199254740992).run (integerField 9007199254740993)) := by
    rw [raises_iff_toOption]
    decide +kernel
  exact hexact.mpr (show (9007199254740992 : Int64).toInt < 9007199254740993 by decide) hraises

end Sample

end Ingest4x.Rhai
