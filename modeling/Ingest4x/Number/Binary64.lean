import Ingest4x.Number.Rounding
import Mathlib

/-! # Integers as binary64 numbers

What the conversion of an integer to the IEEE format `binary64` does to the order. `Float.Model` is the
model of the format that comes with Lean; the rounding of an integer is the one of `Rounding`.

* **`Denotes`** — an unpacked float is an integer.
* **`denotes_ofInt`** — a converted integer is the integer rounded to 53 bits.
* **`ofInt_lt_ofInt`, `ofInt_le_ofInt`** — converted integers compare as the rounded ones. -/

namespace Ingest4x.Binary64

open Float.Model Float.Model.UnpackedFloat Rounding

/-! ### Dropping bits -/

/-- One more bit is dropped. -/
theorem shiftRight_succ (em : ExtendedMantissa) (k : ℕ) :
    em >>> (k + 1) = (em >>> k).shiftRightOne := rfl

@[simp] theorem shiftRight_zero (em : ExtendedMantissa) : em >>> 0 = em := rfl

/-- **What is left of a mantissa**: the quotient, the first bit that was dropped, and whether one of the
others was set. -/
theorem shiftRight_eq (m k : ℕ) : ExtendedMantissa.mk m false false >>> (k + 1)
    = ⟨m / 2 ^ (k + 1), m / 2 ^ k % 2 != 0, m % 2 ^ k != 0⟩ := by
  induction k with
  | zero => simp [shiftRight_succ, ExtendedMantissa.shiftRightOne, Nat.mod_one]
  | succ k ih =>
    rw [shiftRight_succ, ih]
    simp only [ExtendedMantissa.shiftRightOne, Nat.div_div_eq_div_mul, ← Nat.pow_succ]
    congr 1
    -- the remainder gains the bit that was dropped before
    have hmod : m % 2 ^ (k + 1) = m % 2 ^ k + 2 ^ k * (m / 2 ^ k % 2) := Nat.mod_pow_succ
    have hpos : 0 < 2 ^ k := Nat.two_pow_pos k
    rw [hmod, Bool.eq_iff_iff]
    simp only [Bool.or_eq_true, bne_iff_ne, ne_eq, Nat.add_eq_zero_iff, Nat.mul_eq_zero]
    omega

/-- The mantissa that is left is rounded to the nearest one. -/
theorem roundedMantissa_shiftRight (m k : ℕ) :
    (ExtendedMantissa.mk m false false >>> k).roundedMantissa = halfEven m k := by
  cases k with
  | zero => rw [shiftRight_zero, halfEven_zero]; rfl
  | succ k =>
    rw [shiftRight_eq, halfEven]
    have hmod : m % 2 ^ (k + 1) = m % 2 ^ k + 2 ^ k * (m / 2 ^ k % 2) := Nat.mod_pow_succ
    have hpow : 2 ^ (k + 1) = 2 ^ k * 2 := Nat.pow_succ _ _
    have hlt : m % 2 ^ k < 2 ^ k := Nat.mod_lt _ (Nat.two_pow_pos k)
    -- the four values of the two residual bits
    by_cases hround : m / 2 ^ k % 2 = 0
    · have hr : m % 2 ^ (k + 1) = m % 2 ^ k := by rw [hmod, hround, Nat.mul_zero, Nat.add_zero]
      rw [if_pos (by omega), hround, bne_self_eq_false]
      by_cases hsticky : m % 2 ^ k = 0
      · rw [hsticky, bne_self_eq_false]; rfl
      · rw [bne_iff_ne.mpr hsticky]; rfl
    · have hone : m / 2 ^ k % 2 = 1 := by omega
      have hr : m % 2 ^ (k + 1) = m % 2 ^ k + 2 ^ k := by rw [hmod, hone, Nat.mul_one]
      rw [if_neg (by omega), hone, bne_iff_ne.mpr one_ne_zero]
      by_cases hsticky : m % 2 ^ k = 0
      · rw [hsticky, bne_self_eq_false, if_neg (by omega)]; rfl
      · rw [bne_iff_ne.mpr hsticky, if_pos (by omega)]; rfl

/-! ### Conversion -/

/-- **An unpacked float is an integer**, in canonical form. -/
def Denotes (u : UnpackedFloat) (z : ℤ) : Prop :=
  match u with
  | .zero _ => z = 0
  | .finite s m e _ => 2 ^ 52 ≤ m ∧ m < 2 ^ 53 ∧
      ∃ k : ℕ, k ≤ 64 ∧ e = k - 52 ∧ z * 2 ^ 52 = s.apply m * 2 ^ k
  | _ => False

/-- The exponent of a number with `53` bits is its own. -/
theorem targetExponent_eq {m : ℕ} {e : ℤ} (he : -1074 ≤ Nat.log2 m + e - 52) :
    Format.binary64.targetExponent (totalExponent m e) = Nat.log2 m + e - 52 := by
  simp only [Format.targetExponent, totalExponent, Format.mantissaBits, Format.minExponent]
  norm_num
  omega

/-- A mantissa with `53` bits stays. -/
theorem shiftToTargetExponent_canonical {m : ℕ} {e : ℤ} (hlo : 2 ^ 52 ≤ m) (hhi : m < 2 ^ 53)
    (he : -1074 ≤ e) :
    shiftToTargetExponent Format.binary64 m e .exact = (⟨m, false, false⟩, e) := by
  have hlog : Nat.log2 m = 52 := (Nat.log2_eq_iff (by omega)).mpr ⟨hlo, hhi⟩
  rw [shiftToTargetExponent, targetExponent_eq (by omega), hlog]
  simp [shiftToExponent, ExtendedMantissa.ofMantissaAndAccuracy]

/-- One that overflowed when it was rounded loses its last bit. -/
theorem shiftToTargetExponent_overflow {e : ℤ} (he : -1074 ≤ e) :
    shiftToTargetExponent Format.binary64 (2 ^ 53) e .exact = (⟨2 ^ 52, false, false⟩, e + 1) := by
  rw [shiftToTargetExponent, targetExponent_eq (by rw [Nat.log2_two_pow]; omega), Nat.log2_two_pow]
  have hshift : (((53 : ℕ) : ℤ) + e - 52 - e).toNat = 0 + 1 := by omega
  simp only [shiftToExponent, ExtendedMantissa.ofMantissaAndAccuracy]
  rw [hshift, shiftRight_eq]
  norm_num

/-- **The second shift of the rounding**: the rounded mantissa in canonical form. -/
theorem denotes_finalMantissa {s : Sign} {r : ℕ} {k : ℕ} (hlo : 2 ^ 52 ≤ r) (hhi : r ≤ 2 ^ 53)
    (hk : k < 64) {z : ℤ} (hz : z * 2 ^ 52 = s.apply r * 2 ^ k) {m : ℕ} {e : ℤ}
    (heq : shiftToTargetExponent Format.binary64 r ((k : ℤ) - 52) .exact = (⟨m, false, false⟩, e))
    (hm : 0 < m) : Denotes (.finite s m e hm) z := by
  by_cases hr : r < 2 ^ 53
  · rw [shiftToTargetExponent_canonical hlo hr (by omega)] at heq
    obtain ⟨⟨rfl, -, -⟩, rfl⟩ := by simpa using heq
    exact ⟨hlo, hr, k, hk.le, rfl, hz⟩
  · have hr' : r = 2 ^ 53 := by omega
    rw [hr', shiftToTargetExponent_overflow (by omega)] at heq
    obtain ⟨⟨rfl, -, -⟩, rfl⟩ := by simpa using heq
    refine ⟨by norm_num, by norm_num, k + 1, hk, by push_cast; ring, ?_⟩
    rw [hz, hr']
    cases s <;> simp only [Sign.apply] <;> push_cast <;> ring

/-- What `roundWithAccuracy` makes of a mantissa, when the first shift and the rounding are known. -/
theorem denotes_roundWithAccuracy {s : Sign} {m t k r : ℕ} {e : ℤ} {z : ℤ}
    (hfirst : shiftToTargetExponent Format.binary64 m e .exact
      = (ExtendedMantissa.mk m false false >>> t, (k : ℤ) - 52)) (hr : halfEven m t = r)
    (hlo : 2 ^ 52 ≤ r) (hhi : r ≤ 2 ^ 53) (hk : k < 64) (hz : z * 2 ^ 52 = s.apply r * 2 ^ k) :
    Denotes (roundWithAccuracy Format.binary64 s m e .exact) z := by
  -- the mantissa of the second shift: the rounded one, or half of it
  obtain ⟨m', e', hsecond, hpos⟩ : ∃ m' e', shiftToTargetExponent Format.binary64 r ((k : ℤ) - 52) .exact
      = (⟨m', false, false⟩, e') ∧ 0 < m' := by
    by_cases hlt : r < 2 ^ 53
    · exact ⟨r, _, shiftToTargetExponent_canonical hlo hlt (by omega), by omega⟩
    · have hr' : r = 2 ^ 53 := by omega
      exact ⟨2 ^ 52, _, by rw [hr']; exact shiftToTargetExponent_overflow (by omega), by norm_num⟩
  rw [roundWithAccuracy, hfirst]
  simp only [roundedMantissa_shiftRight, hr, hsecond]
  rw [dif_neg hpos.ne']
  exact denotes_finalMantissa hlo hhi hk hz hsecond hpos

/-- **A rounded number.** -/
theorem denotes_round {s : Sign} {n : ℕ} (hpos : 0 < n) (hn : n < 2 ^ 64) :
    Denotes (UnpackedFloat.round Format.binary64 s n 0) (s.apply (roundBits 52 n)) := by
  have hlog : Nat.log2 n < 64 := (Nat.log2_lt hpos.ne').mpr hn
  have hself : 2 ^ Nat.log2 n ≤ n := Nat.log2_self_le hpos.ne'
  have hlt : n < 2 ^ (Nat.log2 n + 1) := Nat.lt_log2_self
  unfold UnpackedFloat.round
  rw [targetExponent_eq (by omega)]
  by_cases hsmall : n < 2 ^ 53
  · -- the mantissa is extended to 53 bits
    have hle : Nat.log2 n ≤ 52 := by
      have := (Nat.log2_lt hpos.ne').mpr hsmall
      omega
    obtain ⟨d, hd⟩ := Nat.exists_eq_add_of_le hle
    have hshift : ((0 : ℤ) - (Nat.log2 n + 0 - 52)).toNat = d := by omega
    have hpow : 2 ^ Nat.log2 n * 2 ^ d = 2 ^ 52 := by rw [← Nat.pow_add, ← hd]
    have hlo : 2 ^ 52 ≤ n * 2 ^ d := by
      rw [← hpow]
      exact Nat.mul_le_mul_right _ hself
    have hhi : n * 2 ^ d < 2 ^ 53 := by
      have h : n * 2 ^ d < 2 ^ (Nat.log2 n + 1) * 2 ^ d :=
        Nat.mul_lt_mul_of_pos_right hlt (Nat.two_pow_pos d)
      rw [Nat.pow_succ, Nat.mul_right_comm, hpow] at h
      exact h
    have hexp : (0 : ℤ) - d = (Nat.log2 n : ℤ) - 52 := by omega
    simp only [decreaseExponent, hshift, Nat.shiftLeft_eq, hexp]
    refine denotes_roundWithAccuracy (t := 0) (k := Nat.log2 n)
      (shiftToTargetExponent_canonical hlo hhi (by omega)) (halfEven_zero _) hlo hhi.le (by omega) ?_
    have hpow' : (2 : ℤ) ^ 52 = 2 ^ Nat.log2 n * 2 ^ d := by exact_mod_cast hpow.symm
    rw [roundBits_eq_self hsmall, hpow']
    cases s <;> simp only [Sign.apply] <;> push_cast <;> ring
  · -- bits are dropped
    have hge : 53 ≤ Nat.log2 n := (Nat.le_log2 hpos.ne').mpr (Nat.le_of_not_lt hsmall)
    obtain ⟨t, ht⟩ := Nat.exists_eq_add_of_le (Nat.le_of_succ_le hge)
    have hshift : ((0 : ℤ) - (Nat.log2 n + 0 - 52)).toNat = 0 := by omega
    simp only [decreaseExponent, hshift, Nat.shiftLeft_zero, Nat.cast_zero, sub_zero]
    have hfirst : shiftToTargetExponent Format.binary64 n 0 .exact
        = (ExtendedMantissa.mk n false false >>> t, ((t + 52 : ℕ) : ℤ) - 52) := by
      have hamount : ((Nat.log2 n : ℤ) + 0 - 52 - 0).toNat = t := by omega
      rw [shiftToTargetExponent, targetExponent_eq (by omega)]
      simp only [shiftToExponent, ExtendedMantissa.ofMantissaAndAccuracy, hamount]
      congr 1
      omega
    have hround : roundBits 52 n = halfEven n t * 2 ^ t :=
      roundBits_eq (by rwa [← ht]) (by rw [← ht]; exact hlt.le)
    have hq : n / 2 ^ t < 2 ^ 53 := by
      rw [Nat.div_lt_iff_lt_mul (Nat.two_pow_pos t), ← Nat.pow_add]
      rwa [ht, Nat.add_right_comm] at hlt
    have hq' : 2 ^ 52 ≤ n / 2 ^ t := by
      rw [Nat.le_div_iff_mul_le (Nat.two_pow_pos t), ← Nat.pow_add, ← ht]
      exact hself
    have hb := halfEven_bounds n t
    refine denotes_roundWithAccuracy (r := halfEven n t) hfirst rfl (by omega) (by omega) (by omega) ?_
    rw [hround]
    cases s <;> simp only [Sign.apply] <;> push_cast <;> ring

/-- **A converted integer is the integer rounded to 53 bits.** -/
theorem denotes_ofInt {z : ℤ} (hz : z.natAbs < 2 ^ 64) :
    Denotes (UnpackedFloat.ofInt Format.binary64 z) (roundInt 52 z) := by
  unfold UnpackedFloat.ofInt UnpackedFloat.normalize
  obtain hneg | rfl | hpos := lt_trichotomy z 0
  · rw [compare_lt_iff_lt.mpr hneg]
    have hn : (-z).toNat = z.natAbs := by omega
    have h := denotes_round (s := .negative) (n := z.natAbs) (by omega) hz
    rw [roundInt, Int.sign_eq_neg_one_of_neg hneg]
    simpa [hn, Sign.apply] using h
  · simp [Denotes, roundInt]
  · rw [compare_gt_iff_gt.mpr hpos]
    have hn : z.toNat = z.natAbs := by omega
    have h := denotes_round (s := .positive) (n := z.natAbs) (by omega) hz
    rw [roundInt, Int.sign_eq_one_of_pos hpos]
    simpa [hn, Sign.apply] using h

/-! ### Packing -/

/-- The sign that was packed. -/
theorem unpackSign_packComponents {spec : Format} (s : Sign) (exponent : BitVec spec.exponentBits)
    (mantissa : BitVec spec.mantissaBitsWithoutImplicit) :
    Sign.ofBitVec (unpackSign (packComponents spec s exponent mantissa)) = s := by
  have hbit : unpackSign (packComponents spec s exponent mantissa) = s.toBitVec := by
    ext i hi
    have hi0 : i = 0 := by omega
    simp [unpackSign, packComponents, BitVec.getLsbD_append, hi0, BitVec.getLsbD_eq_getElem,
      BitVec.getElem_append]
  rw [hbit]
  cases s <;> rfl

/-- The leading bit is put back. -/
theorem toNat_append_mantissa {m : ℕ} (hlo : 2 ^ 52 ≤ m) (hhi : m < 2 ^ 53) :
    (1#1 ++ BitVec.ofNat 52 m).toNat = m := by
  rw [BitVec.toNat_append, BitVec.toNat_ofNat, ← Nat.shiftLeft_add_eq_or_of_lt (by omega),
    Nat.shiftLeft_eq, BitVec.toNat_ofNat]
  omega

/-- **An integer survives packing.** -/
theorem unpack_pack {u : UnpackedFloat} {z : ℤ} (h : Denotes u z) :
    UnpackedFloat.unpack Format.binary64 (UnpackedFloat.pack Format.binary64 u) = u := by
  match u with
  | .notANumber => exact h.elim
  | .infinity _ => exact h.elim
  | .zero s =>
    simp [UnpackedFloat.pack, packedZero, UnpackedFloat.unpack]
  | .finite s m e hm =>
    obtain ⟨hlo, hhi, k, hk, rfl, -⟩ := h
    have hlog : Nat.log2 m + 1 = 53 := by
      rw [(Nat.log2_eq_iff (by omega)).mpr ⟨hlo, hhi⟩]
    have hbias : ((k : ℤ) - 52 + ((2 ^ (11 - 1) - 1 : ℕ) : ℤ) + (52 : ℕ)).toNat = k + 1023 := by
      norm_num
      omega
    have hpack : UnpackedFloat.pack Format.binary64 (.finite s m (k - 52) hm)
        = packComponents Format.binary64 s (BitVec.ofNat 11 (k + 1023)) (BitVec.ofNat 52 m) := by
      simp only [UnpackedFloat.pack, Format.exponentBias, Format.mantissaBits, hlog]
      rw [hbias, if_neg (by omega), if_pos trivial]
    -- the biased exponent is neither zero nor all ones
    have hexp : (BitVec.ofNat 11 (k + 1023)).toNat = k + 1023 := by
      rw [BitVec.toNat_ofNat, Nat.mod_eq_of_lt (by omega)]
    have hzero : BitVec.ofNat 11 (k + 1023) ≠ 0#11 := by
      intro h
      have := congrArg BitVec.toNat h
      rw [hexp, BitVec.toNat_ofNat] at this
      omega
    have hones : BitVec.ofNat 11 (k + 1023) ≠ -1#11 := by
      intro h
      have := congrArg BitVec.toNat h
      rw [hexp] at this
      simp at this
      omega
    rw [hpack, UnpackedFloat.unpack]
    simp only [unpackMantissa_packComponents, unpackExponent_packComponents,
      unpackSign_packComponents]
    rw [if_neg hones, if_neg hzero, UnpackedFloat.finite.injEq]
    refine ⟨rfl, toNat_append_mantissa hlo hhi, ?_⟩
    rw [hexp, Format.exponentBias]
    norm_num
    omega

/-! ### Order -/

/-- Two comparisons have the same outcome. -/
theorem compare_congr {α β : Type} [LinearOrder α] [LinearOrder β] {a b : α} {c d : β}
    (hlt : a < b → c < d) (heq : a = b → c = d) (hgt : b < a → d < c) :
    compare a b = compare c d := by
  obtain h | h | h := lt_trichotomy a b
  · rw [compare_lt_iff_lt.mpr h, compare_lt_iff_lt.mpr (hlt h)]
  · rw [compare_eq_iff_eq.mpr h, compare_eq_iff_eq.mpr (heq h)]
  · rw [compare_gt_iff_gt.mpr h, compare_gt_iff_gt.mpr (hgt h)]

/-- A positive factor changes nothing. -/
theorem compare_mul_right (a b : ℤ) {c : ℤ} (hc : 0 < c) : compare (a * c) (b * c) = compare a b :=
  (compare_congr (fun h => mul_lt_mul_of_pos_right h hc) (fun h => by rw [h])
    fun h => mul_lt_mul_of_pos_right h hc).symm

/-- Negated numbers compare the other way. -/
theorem compare_neg (a b : ℤ) : compare (-a) (-b) = (compare a b).swap := by
  obtain h | rfl | h := lt_trichotomy a b
  · rw [compare_lt_iff_lt.mpr h, compare_gt_iff_gt.mpr (neg_lt_neg h)]; rfl
  · rw [compare_eq_iff_eq.mpr rfl, compare_eq_iff_eq.mpr rfl]; rfl
  · rw [compare_gt_iff_gt.mpr h, compare_lt_iff_lt.mpr (neg_lt_neg h)]; rfl

/-- **Canonical mantissas with exponents** compare as the numbers. -/
theorem compare_then_eq {m n j k : ℕ} (hm : 2 ^ 52 ≤ m) (hm' : m < 2 ^ 53) (hn : 2 ^ 52 ≤ n)
    (hn' : n < 2 ^ 53) :
    (compare ((j : ℤ) - 52) ((k : ℤ) - 52)).then (compare m n)
      = compare ((m : ℤ) * 2 ^ j) ((n : ℤ) * 2 ^ k) := by
  -- a larger exponent outweighs every mantissa
  have hlt : ∀ {m n j k : ℕ}, m < 2 ^ 53 → 2 ^ 52 ≤ n → j < k →
      (m : ℤ) * 2 ^ j < (n : ℤ) * 2 ^ k := by
    intro m n j k hm hn hjk
    have h : m * 2 ^ j < n * 2 ^ k := by
      calc m * 2 ^ j < 2 ^ 53 * 2 ^ j := Nat.mul_lt_mul_of_pos_right hm (Nat.two_pow_pos j)
        _ = 2 ^ 52 * 2 ^ (j + 1) := by rw [Nat.pow_succ]; ring
        _ ≤ 2 ^ 52 * 2 ^ k := Nat.mul_le_mul_left _ (Nat.pow_le_pow_right (by omega) hjk)
        _ ≤ n * 2 ^ k := Nat.mul_le_mul_right _ hn
    exact_mod_cast h
  obtain hjk | rfl | hkj := lt_trichotomy j k
  · rw [compare_lt_iff_lt.mpr (sub_lt_sub_right (by exact_mod_cast hjk) _),
      compare_lt_iff_lt.mpr (hlt hm' hn hjk)]
    rfl
  · rw [compare_eq_iff_eq.mpr rfl, Ordering.then, compare_mul_right _ _ (by positivity)]
    exact compare_congr Int.ofNat_lt.mpr Int.ofNat_inj.mpr Int.ofNat_lt.mpr
  · rw [compare_gt_iff_gt.mpr (sub_lt_sub_right (by exact_mod_cast hkj) _),
      compare_gt_iff_gt.mpr (hlt hn' hm hkj)]
    rfl

/-- **Floats that are integers** compare as the integers. -/
theorem compare_eq {u v : UnpackedFloat} {a b : ℤ} (hu : Denotes u a) (hv : Denotes v b) :
    u.compare v = some (compare a b) := by
  -- both sides scaled, so that the denoted integers can be replaced
  rw [← compare_mul_right a b (show (0 : ℤ) < 2 ^ 52 by norm_num)]
  match u, v with
  | .zero _, .zero _ =>
    rw [show a = 0 from hu, show b = 0 from hv, compare_eq_iff_eq.mpr rfl]
    rfl
  | .zero _, .finite t n _ _ =>
    obtain ⟨hn, -, k, -, rfl, hb⟩ := hv
    have hn' : (0 : ℤ) < n * 2 ^ k := by positivity
    rw [show a = 0 from hu, hb, zero_mul]
    cases t
    · rw [compare_gt_iff_gt.mpr (by simpa [Sign.apply] using hn')]; rfl
    · rw [compare_lt_iff_lt.mpr (by simpa [Sign.apply] using hn')]; rfl
  | .finite s m _ _, .zero _ =>
    obtain ⟨hm, -, j, -, rfl, ha⟩ := hu
    have hm' : (0 : ℤ) < m * 2 ^ j := by positivity
    rw [show b = 0 from hv, ha, zero_mul]
    cases s
    · rw [compare_lt_iff_lt.mpr (by simpa [Sign.apply] using hm')]; rfl
    · rw [compare_gt_iff_gt.mpr (by simpa [Sign.apply] using hm')]; rfl
  | .finite s m _ hm₀, .finite t n _ hn₀ =>
    obtain ⟨hm, hm', j, -, rfl, ha⟩ := hu
    obtain ⟨hn, hn', k, -, rfl, hb⟩ := hv
    have hmpos : (0 : ℤ) < m * 2 ^ j := by positivity
    have hnpos : (0 : ℤ) < n * 2 ^ k := by positivity
    rw [ha, hb]
    cases s <;> cases t
    · -- both negative: the order is turned around
      simp only [UnpackedFloat.compare, compare_then_eq hm hm' hn hn', Sign.apply, neg_mul,
        compare_neg]
    · rw [compare_lt_iff_lt.mpr (by simp only [Sign.apply, neg_mul]; omega)]; rfl
    · rw [compare_gt_iff_gt.mpr (by simp only [Sign.apply, neg_mul]; omega)]; rfl
    · simp only [UnpackedFloat.compare, compare_then_eq hm hm' hn hn', Sign.apply]

/-- What a converted integer is, when it is read back. -/
theorem denotes_unpack_ofInt {z : ℤ} (hz : z.natAbs < 2 ^ 64) :
    Denotes (Float.Model.ofInt z).unpack (roundInt 52 z) := by
  have h := denotes_ofInt hz
  rw [← unpack_pack h] at h
  exact h

/-- **Converted integers compare as the rounded ones**: strictly. -/
theorem ofInt_lt_ofInt {a b : ℤ} (ha : a.natAbs < 2 ^ 64) (hb : b.natAbs < 2 ^ 64) :
    Float.Model.ofInt a < Float.Model.ofInt b ↔ roundInt 52 a < roundInt 52 b := by
  have h := compare_eq (denotes_unpack_ofInt ha) (denotes_unpack_ofInt hb)
  change UnpackedFloat.lt _ _ = true ↔ _
  rw [UnpackedFloat.lt, h, beq_iff_eq, Option.some.injEq, compare_lt_iff_lt]

/-- The same for `≤`. -/
theorem ofInt_le_ofInt {a b : ℤ} (ha : a.natAbs < 2 ^ 64) (hb : b.natAbs < 2 ^ 64) :
    Float.Model.ofInt a ≤ Float.Model.ofInt b ↔ roundInt 52 a ≤ roundInt 52 b := by
  have h := compare_eq (denotes_unpack_ofInt ha) (denotes_unpack_ofInt hb)
  change UnpackedFloat.le _ _ = true ↔ _
  rw [UnpackedFloat.le, h, Option.any_some, ← compare_le_iff_le, Ordering.isLE_iff_ne_gt]

end Ingest4x.Binary64
