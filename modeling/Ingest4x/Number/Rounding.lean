import Mathlib.Algebra.Order.Group.Nat
import Mathlib.Data.Int.ConditionallyCompleteOrder
import Mathlib.Data.Nat.Log
import Mathlib.Order.Monotone.Basic
import Mathlib.Tactic.Ring
import Mathlib.Tactic.Linarith

/-! # Rounding integers to a number of bits

Integers that are rounded to the nearest number with `f + 1` significant bits, where a number in the
middle goes to the even neighbour. Nothing here knows of a format.

* **`halfEven n e`** — `n / 2 ^ e` to the nearest integer.
* **`roundBits f n`** — the rounded number; **`roundBits_mono`** — the order is kept.
* **`Cut f c`** — where the rounded number jumps: every number up to `2 ^ (f + 1)`, and the middles
  between two neighbours above.
* **`roundBits_lt_iff`** — two numbers stay apart if and only if a cut lies between them.
* **`roundInt f z`** — with a sign; **`roundInt_lt_iff`** — which integers stay apart. -/

namespace Ingest4x.Rounding

/-! ### One quotient -/

/-- **`n / 2 ^ e` to the nearest integer**, the even one of two that are as near. -/
def halfEven (n e : ℕ) : ℕ :=
  if 2 * (n % 2 ^ e) < 2 ^ e then n / 2 ^ e
  else if 2 ^ e < 2 * (n % 2 ^ e) then n / 2 ^ e + 1
  else n / 2 ^ e + n / 2 ^ e % 2

/-- Nothing is lost without bits to drop. -/
@[simp] theorem halfEven_zero (n : ℕ) : halfEven n 0 = n := by
  simp [halfEven, Nat.mod_one]

/-- `halfEven` by quotient and remainder. -/
theorem halfEven_add (q r e : ℕ) (hr : r < 2 ^ e) :
    halfEven (q * 2 ^ e + r) e
      = if 2 * r < 2 ^ e then q else if 2 ^ e < 2 * r then q + 1 else q + q % 2 := by
  have hq : (q * 2 ^ e + r) / 2 ^ e = q := by
    rw [Nat.add_comm, Nat.add_mul_div_right _ _ (Nat.two_pow_pos e), Nat.div_eq_of_lt hr, Nat.zero_add]
  have hm : (q * 2 ^ e + r) % 2 ^ e = r := by
    rw [Nat.add_comm, Nat.add_mul_mod_self_right, Nat.mod_eq_of_lt hr]
  rw [halfEven, hq, hm]

/-- A multiple is its quotient. -/
@[simp] theorem halfEven_mul (q e : ℕ) : halfEven (q * 2 ^ e) e = q := by
  have h := halfEven_add q 0 e (Nat.two_pow_pos e)
  rwa [Nat.add_zero, Nat.mul_zero, if_pos (Nat.two_pow_pos e)] at h

/-- The quotient is rounded down or up. -/
theorem halfEven_bounds (n e : ℕ) : n / 2 ^ e ≤ halfEven n e ∧ halfEven n e ≤ n / 2 ^ e + 1 := by
  unfold halfEven
  split
  · omega
  · split <;> omega

/-- **Where the quotient jumps**: at the middle, on the side of the odd neighbour. -/
theorem halfEven_succ (q r e : ℕ) (hr : r < 2 ^ (e + 1)) :
    halfEven (q * 2 ^ (e + 1) + r + 1) (e + 1)
      = halfEven (q * 2 ^ (e + 1) + r) (e + 1)
        + if r + 1 = 2 ^ e + (if q % 2 = 0 then 1 else 0) then 1 else 0 := by
  have hpos : 0 < 2 ^ e := Nat.two_pow_pos e
  rw [halfEven_add q r _ hr]
  by_cases hlast : r + 1 < 2 ^ (e + 1)
  · rw [Nat.add_assoc, halfEven_add q (r + 1) _ hlast]
    rw [Nat.pow_succ] at hr hlast ⊢
    generalize 2 ^ e = p at *
    have := Nat.mod_two_eq_zero_or_one q
    split_ifs <;> omega
  · -- the remainder wraps around: the next number is a multiple
    have hwrap : q * 2 ^ (e + 1) + r + 1 = (q + 1) * 2 ^ (e + 1) := by
      rw [Nat.add_mul, Nat.one_mul]
      omega
    rw [hwrap, halfEven_mul]
    rw [Nat.pow_succ] at hr hlast ⊢
    generalize 2 ^ e = p at *
    have := Nat.mod_two_eq_zero_or_one q
    split_ifs <;> omega

/-! ### Rounding -/

/-- **The nearest number with `f + 1` significant bits.** -/
def roundBits (f n : ℕ) : ℕ :=
  halfEven n (Nat.log2 n - f) * 2 ^ (Nat.log2 n - f)

/-- A number inside a binade. -/
theorem roundBits_of_lt {f e n : ℕ} (hlo : 2 ^ (f + e) ≤ n) (hhi : n < 2 ^ (f + e + 1)) :
    roundBits f n = halfEven n e * 2 ^ e := by
  have hlog : Nat.log2 n = f + e := by
    refine (Nat.log2_eq_iff ?_).mpr ⟨hlo, hhi⟩
    have := Nat.two_pow_pos (f + e)
    omega
  rw [roundBits, hlog, Nat.add_sub_cancel_left]

/-- **A number with few bits stays.** -/
theorem roundBits_eq_self {f n : ℕ} (h : n < 2 ^ (f + 1)) : roundBits f n = n := by
  have hlog : Nat.log2 n - f = 0 := by
    by_cases hn : n = 0
    · simp [hn]
    · have := (Nat.log2_lt hn).mpr h
      omega
  rw [roundBits, hlog, halfEven_zero, Nat.pow_zero, Nat.mul_one]

/-- So does the first number of a binade. -/
theorem roundBits_two_pow (f e : ℕ) : roundBits f (2 ^ (f + e)) = 2 ^ (f + e) := by
  rw [roundBits_of_lt le_rfl (Nat.pow_lt_pow_right (by omega) (by omega)), Nat.pow_add, halfEven_mul]

/-- **The numbers of a binade, and the first of the next one**, drop the same bits. -/
theorem roundBits_eq {f e n : ℕ} (hlo : 2 ^ (f + e) ≤ n) (hhi : n ≤ 2 ^ (f + e + 1)) :
    roundBits f n = halfEven n e * 2 ^ e := by
  by_cases h : n < 2 ^ (f + e + 1)
  · exact roundBits_of_lt hlo h
  · have hn : n = 2 ^ (f + 1) * 2 ^ e := by
      rw [← Nat.pow_add, Nat.add_right_comm]
      omega
    have hp : 2 ^ (f + 1) * 2 ^ e = 2 ^ (f + (e + 1)) := by
      rw [← Nat.pow_add, Nat.add_right_comm, Nat.add_assoc]
    rw [hn, halfEven_mul, hp, roundBits_two_pow]

/-- A number is small, or it is in a binade where bits are dropped. -/
theorem lt_or_exists_binade (f n : ℕ) : n < 2 ^ (f + 1) ∨
    ∃ e q r, 2 ^ f ≤ q ∧ q < 2 ^ (f + 1) ∧ r < 2 ^ (e + 1) ∧ n = q * 2 ^ (e + 1) + r := by
  by_cases hn : n < 2 ^ (f + 1)
  · exact .inl hn
  · right
    have hne : n ≠ 0 := by
      have := Nat.two_pow_pos (f + 1)
      omega
    obtain ⟨e, he⟩ := Nat.exists_eq_add_of_le ((Nat.le_log2 hne).mpr (Nat.le_of_not_lt hn))
    obtain ⟨hlo, hhi⟩ := (Nat.log2_eq_iff hne).mp he
    refine ⟨e, n / 2 ^ (e + 1), n % 2 ^ (e + 1), ?_, ?_, Nat.mod_lt _ (Nat.two_pow_pos _), ?_⟩
    · rw [Nat.le_div_iff_mul_le (Nat.two_pow_pos _), ← Nat.pow_add]
      rwa [Nat.add_assoc, Nat.add_comm 1 e] at hlo
    · rw [Nat.div_lt_iff_lt_mul (Nat.two_pow_pos _), ← Nat.pow_add]
      rwa [Nat.add_assoc] at hhi
    · rw [Nat.mul_comm]
      exact (Nat.div_add_mod n _).symm

/-- **Where the rounded number jumps** in a binade. -/
theorem roundBits_succ {f e q r : ℕ} (hlo : 2 ^ f ≤ q) (hhi : q < 2 ^ (f + 1))
    (hr : r < 2 ^ (e + 1)) :
    roundBits f (q * 2 ^ (e + 1) + r + 1) = roundBits f (q * 2 ^ (e + 1) + r)
      + if r + 1 = 2 ^ e + (if q % 2 = 0 then 1 else 0) then 2 ^ (e + 1) else 0 := by
  have hle : 2 ^ (f + (e + 1)) ≤ q * 2 ^ (e + 1) + r := by
    rw [Nat.pow_add]
    exact Nat.le_add_right_of_le (Nat.mul_le_mul_right _ hlo)
  have hlt : q * 2 ^ (e + 1) + r < 2 ^ (f + (e + 1) + 1) := by
    have h : (q + 1) * 2 ^ (e + 1) ≤ 2 ^ (f + 1) * 2 ^ (e + 1) := Nat.mul_le_mul_right _ hhi
    rw [Nat.add_mul, Nat.one_mul, ← Nat.pow_add] at h
    rw [Nat.add_right_comm]
    omega
  rw [roundBits_eq (Nat.le_succ_of_le hle) hlt, roundBits_eq hle hlt.le, halfEven_succ q r e hr,
    Nat.add_mul]
  congr 1
  split_ifs <;> simp

/-! ### Cuts -/

/-- **A cut**: the rounded number below it is smaller. Every number with at most `f + 1` bits is one;
above, the middle of two neighbours `k` and `k + 1` at some scale is, or the number after it where the
middle goes down. -/
def Cut (f c : ℕ) : Prop :=
  c ≤ 2 ^ (f + 1) ∨
    ∃ k e, 2 ^ f ≤ k ∧ k < 2 ^ (f + 1) ∧ c = (2 * k + 1) * 2 ^ e + if k % 2 = 0 then 1 else 0

/-- A middle, as quotient and remainder at the scale of its binade. -/
theorem middle_eq (k e : ℕ) :
    (2 * k + 1) * 2 ^ e + (if k % 2 = 0 then 1 else 0)
      = k * 2 ^ (e + 1) + (2 ^ e - 1 + if k % 2 = 0 then 1 else 0) + 1 := by
  have hpos : 0 < 2 ^ e := Nat.two_pow_pos e
  rw [Nat.pow_succ]
  have : (2 * k + 1) * 2 ^ e = k * (2 ^ e * 2) + 2 ^ e := by ring
  omega

/-- The quotient, the remainder and the scale of a number above are determined. -/
theorem binade_unique {f e e' q q' r r' : ℕ} (hq : 2 ^ f ≤ q) (hq' : q < 2 ^ (f + 1))
    (hr : r < 2 ^ (e + 1)) (hk : 2 ^ f ≤ q') (hk' : q' < 2 ^ (f + 1)) (hr' : r' < 2 ^ (e' + 1))
    (h : q * 2 ^ (e + 1) + r = q' * 2 ^ (e' + 1) + r') : e = e' ∧ q = q' ∧ r = r' := by
  -- the logarithm of the number gives the scale
  have hlog : ∀ {e q r : ℕ}, 2 ^ f ≤ q → q < 2 ^ (f + 1) → r < 2 ^ (e + 1) →
      Nat.log2 (q * 2 ^ (e + 1) + r) = f + (e + 1) := by
    intro e q r hq hq' hr
    have hlo : 2 ^ (f + (e + 1)) ≤ q * 2 ^ (e + 1) + r := by
      rw [Nat.pow_add]
      exact Nat.le_add_right_of_le (Nat.mul_le_mul_right _ hq)
    have hhi : (q + 1) * 2 ^ (e + 1) ≤ 2 ^ (f + 1) * 2 ^ (e + 1) := Nat.mul_le_mul_right _ hq'
    rw [Nat.add_mul, Nat.one_mul, ← Nat.pow_add] at hhi
    refine (Nat.log2_eq_iff ?_).mpr ⟨hlo, ?_⟩
    · have := Nat.two_pow_pos (f + (e + 1))
      omega
    · rw [Nat.add_right_comm]
      omega
  have he : e = e' := by
    have h₁ := hlog hq hq' hr
    rw [h, hlog hk hk' hr'] at h₁
    omega
  subst he
  have hdiv := congrArg (· / 2 ^ (e + 1)) h
  have hmod := congrArg (· % 2 ^ (e + 1)) h
  simp only [Nat.mul_comm _ (2 ^ (e + 1)), Nat.mul_add_div (Nat.two_pow_pos _), Nat.mul_add_mod,
    Nat.div_eq_of_lt hr, Nat.div_eq_of_lt hr', Nat.mod_eq_of_lt hr, Nat.mod_eq_of_lt hr',
    Nat.add_zero] at hdiv hmod
  exact ⟨rfl, hdiv, hmod⟩

/-- In a binade where bits are dropped, the cuts are the middles. -/
theorem cut_succ_iff {f e q r : ℕ} (hlo : 2 ^ f ≤ q) (hhi : q < 2 ^ (f + 1)) (hr : r < 2 ^ (e + 1)) :
    Cut f (q * 2 ^ (e + 1) + r + 1) ↔ r + 1 = 2 ^ e + if q % 2 = 0 then 1 else 0 := by
  have hpos : 0 < 2 ^ e := Nat.two_pow_pos e
  constructor
  · rintro (hsmall | ⟨k, e', hk, hk', hc⟩)
    · -- the number is too large to be small
      exfalso
      have hmul : 2 ^ f * 2 ^ (e + 1) ≤ q * 2 ^ (e + 1) := Nat.mul_le_mul_right _ hlo
      have hpow : 2 ^ (f + 1) ≤ 2 ^ f * 2 ^ (e + 1) := by
        rw [← Nat.pow_add]
        exact Nat.pow_le_pow_right (by omega) (by omega)
      omega
    · rw [middle_eq] at hc
      have hpos' : 0 < 2 ^ e' := Nat.two_pow_pos e'
      have hr' : 2 ^ e' - 1 + (if k % 2 = 0 then 1 else 0) < 2 ^ (e' + 1) := by
        rw [Nat.pow_succ]
        split <;> omega
      obtain ⟨rfl, rfl, rfl⟩ := binade_unique hlo hhi hr hk hk' hr' (Nat.add_right_cancel hc)
      omega
  · intro h
    refine .inr ⟨q, e, hlo, hhi, ?_⟩
    rw [middle_eq]
    omega

/-- **The rounded number jumps exactly at the cuts.** -/
theorem roundBits_succ_cases (f n : ℕ) :
    (Cut f (n + 1) ∧ roundBits f n < roundBits f (n + 1)) ∨
      (¬ Cut f (n + 1) ∧ roundBits f n = roundBits f (n + 1)) := by
  obtain hn | ⟨e, q, r, hlo, hhi, hr, rfl⟩ := lt_or_exists_binade f n
  · left
    refine ⟨.inl hn, ?_⟩
    rw [roundBits_eq_self hn]
    by_cases hlast : n + 1 < 2 ^ (f + 1)
    · rw [roundBits_eq_self hlast]
      omega
    · have hsucc : n + 1 = 2 ^ (f + 1) := by omega
      rw [hsucc, roundBits_two_pow]
      exact hn
  · rw [cut_succ_iff hlo hhi hr, roundBits_succ hlo hhi hr]
    by_cases h : r + 1 = 2 ^ e + if q % 2 = 0 then 1 else 0
    · left
      rw [if_pos h]
      exact ⟨h, Nat.lt_add_of_pos_right (Nat.two_pow_pos _)⟩
    · right
      rw [if_neg h]
      exact ⟨h, rfl⟩

/-- **Rounding keeps the order.** -/
theorem roundBits_mono (f : ℕ) : Monotone (roundBits f) := by
  apply monotone_nat_of_le_succ
  intro n
  obtain ⟨-, h⟩ | ⟨-, h⟩ := roundBits_succ_cases f n
  · exact h.le
  · exact h.le

/-- **Two numbers stay apart if and only if a cut lies between them.** -/
theorem roundBits_lt_iff {f a b : ℕ} :
    roundBits f a < roundBits f b ↔ ∃ c, a < c ∧ c ≤ b ∧ Cut f c := by
  constructor
  · intro h
    have hab : a < b := lt_of_not_ge fun hba => absurd h (Nat.not_lt.mpr (roundBits_mono f hba))
    -- the first step that jumps
    induction b with
    | zero => omega
    | succ b ih =>
      obtain ⟨hcut, -⟩ | ⟨-, heq⟩ := roundBits_succ_cases f b
      · exact ⟨b + 1, hab, le_rfl, hcut⟩
      · rw [← heq] at h
        have hb : a < b := lt_of_not_ge fun hba => absurd h (Nat.not_lt.mpr (roundBits_mono f hba))
        obtain ⟨c, hac, hcb, hcut⟩ := ih h hb
        exact ⟨c, hac, Nat.le_succ_of_le hcb, hcut⟩
  · rintro ⟨c, hac, hcb, hcut⟩
    obtain ⟨n, rfl⟩ : ∃ n, c = n + 1 := ⟨c - 1, by omega⟩
    obtain ⟨-, hjump⟩ | ⟨hno, -⟩ := roundBits_succ_cases f n
    · calc roundBits f a ≤ roundBits f n := roundBits_mono f (by omega)
        _ < roundBits f (n + 1) := hjump
        _ ≤ roundBits f b := roundBits_mono f hcb
    · exact absurd hcut hno

/-! ### Integers -/

/-- Only zero becomes zero. -/
theorem roundBits_pos {f n : ℕ} (h : 0 < n) : 0 < roundBits f n := by
  have hone : roundBits f 1 = 1 := roundBits_eq_self (Nat.one_lt_two_pow (by omega))
  calc 0 < roundBits f 1 := by omega
    _ ≤ roundBits f n := roundBits_mono f h

@[simp] theorem roundBits_zero (f : ℕ) : roundBits f 0 = 0 := roundBits_eq_self (Nat.two_pow_pos _)

/-- **The nearest integer with `f + 1` significant bits.** -/
def roundInt (f : ℕ) (z : ℤ) : ℤ := z.sign * roundBits f z.natAbs

/-- The absolute value is rounded. -/
theorem roundInt_natCast (f n : ℕ) : roundInt f n = roundBits f n := by
  by_cases h : n = 0
  · simp [roundInt, h]
  · rw [roundInt, Int.natAbs_natCast, Int.sign_eq_one_of_pos (by omega), one_mul]

/-- Rounding commutes with the sign. -/
@[simp] theorem roundInt_neg (f : ℕ) (z : ℤ) : roundInt f (-z) = -roundInt f z := by
  simp [roundInt]

/-- **Two integers stay apart**: their signs differ, or a cut lies between their absolute values. -/
def Separated (f : ℕ) (a b : ℤ) : Prop :=
  a.sign ≠ b.sign ∨ ∃ c, min a.natAbs b.natAbs < c ∧ c ≤ max a.natAbs b.natAbs ∧ Cut f c

/-- Staying apart has no direction. -/
theorem Separated.symm {f : ℕ} {a b : ℤ} (h : Separated f a b) : Separated f b a := by
  unfold Separated at *
  rwa [ne_comm, min_comm, max_comm]

/-- **Small integers stay apart.** -/
theorem separated_of_le {f : ℕ} {a b : ℤ} (hne : a ≠ b) (ha : a.natAbs ≤ 2 ^ (f + 1))
    (hb : b.natAbs ≤ 2 ^ (f + 1)) : Separated f a b := by
  by_cases hsign : a.sign = b.sign
  · right
    refine ⟨max a.natAbs b.natAbs, ?_, le_rfl, .inl (max_le ha hb)⟩
    rw [min_lt_max]
    intro habs
    -- the same sign and the same absolute value
    apply hne
    rw [← Int.sign_mul_natAbs a, ← Int.sign_mul_natAbs b, hsign, habs]
  · exact .inl hsign

/-- **Rounding keeps the order** of integers. -/
theorem roundInt_mono (f : ℕ) : Monotone (roundInt f) := by
  intro a b hab
  obtain ⟨m, rfl | rfl⟩ := a.eq_nat_or_neg <;> obtain ⟨n, rfl | rfl⟩ := b.eq_nat_or_neg
  · rw [roundInt_natCast, roundInt_natCast]
    exact_mod_cast roundBits_mono f (by omega)
  · have hm : m = 0 := by omega
    have hn : n = 0 := by omega
    rw [hm, hn]
    simp [roundInt]
  · rw [roundInt_neg, roundInt_natCast, roundInt_natCast]
    omega
  · rw [roundInt_neg, roundInt_neg, roundInt_natCast, roundInt_natCast]
    have h : roundBits f n ≤ roundBits f m := roundBits_mono f (by omega)
    omega

/-- The sign of an integer stays. -/
theorem sign_roundInt (f : ℕ) (z : ℤ) : (roundInt f z).sign = z.sign := by
  by_cases h : z = 0
  · simp [roundInt, h]
  · have hpos : 0 < roundBits f z.natAbs := roundBits_pos (by omega)
    rw [roundInt, Int.sign_mul, Int.sign_sign, Int.sign_natCast_of_ne_zero (by omega), mul_one]

/-- **Which integers become different.** -/
theorem roundInt_ne_iff {f : ℕ} {a b : ℤ} : roundInt f a ≠ roundInt f b ↔ Separated f a b := by
  by_cases hsign : a.sign = b.sign
  · have hcut : Separated f a b ↔ roundBits f a.natAbs ≠ roundBits f b.natAbs := by
      unfold Separated
      rw [hsign, ne_self_iff_false, false_or]
      obtain hab | hab := le_total a.natAbs b.natAbs
      · rw [min_eq_left hab, max_eq_right hab, ← roundBits_lt_iff]
        exact ⟨ne_of_lt, fun h => lt_of_le_of_ne (roundBits_mono f hab) h⟩
      · rw [min_eq_right hab, max_eq_left hab, ← roundBits_lt_iff]
        exact ⟨ne_of_gt, fun h => lt_of_le_of_ne (roundBits_mono f hab) h.symm⟩
    rw [hcut, roundInt, roundInt, hsign]
    by_cases hb : b = 0
    · have ha : a = 0 := by rwa [hb, Int.sign_zero, Int.sign_eq_zero_iff_zero] at hsign
      simp [ha, hb]
    · have hne : b.sign ≠ 0 := by rwa [ne_eq, Int.sign_eq_zero_iff_zero]
      rw [ne_eq, mul_right_inj' hne, Int.natCast_inj]
  · refine iff_of_true (fun h => hsign ?_) (.inl hsign)
    rw [← sign_roundInt f a, h, sign_roundInt]

/-- **Which integers keep their strict order.** -/
theorem roundInt_lt_iff {f : ℕ} {a b : ℤ} : roundInt f a < roundInt f b ↔ a < b ∧ Separated f a b := by
  rw [← roundInt_ne_iff]
  constructor
  · intro h
    exact ⟨lt_of_not_ge fun hba => absurd h (not_lt.mpr (roundInt_mono f hba)), ne_of_lt h⟩
  · rintro ⟨hab, hne⟩
    exact lt_of_le_of_ne (roundInt_mono f hab.le) hne

end Ingest4x.Rounding
