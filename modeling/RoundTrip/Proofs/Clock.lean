import Mathlib.Algebra.Order.Ring.Nat
import RoundTrip.World.Command

/-! # Durations

    A clock reading is a binary64 value, and a duration is the difference of two of
    them, taken a thousand times.  **`milliseconds_isOk`**: where the readings are
    below `10 ^ 300`, the duration has a whole number of milliseconds.

    The route goes through the bits: `Below` bounds a value by a power of two, and
    each operation raises the power by little. -/

namespace RoundTrip

open Float.Model Float.Model.UnpackedFloat

namespace Clock

/-- An unpacked value is a number below `2 ^ k`, and its exponent is not above the one that such
    a number has in binary64. -/
inductive Below (k : Int) : UnpackedFloat → Prop where
  | zero (s : Sign) : Below k (.zero s)
  | finite {s : Sign} {m : Nat} {e : Int} {hm : 0 < m} (exponent : e ≤ k - 53)
      (mantissa : m < Number.power 2 (k - e)) : Below k (.finite s m e hm)

variable {j k : Int} {m : Nat} {e : Int} {u v : UnpackedFloat}

/-- Powers of two multiply as their exponents add up. -/
theorem power_two_add {a b : Int} (ha : 0 ≤ a) (hb : 0 ≤ b) :
    Number.power 2 (a + b) = Number.power 2 a * Number.power 2 b := by
  unfold Number.power
  rw [Int.toNat_add ha hb]
  exact Nat.pow_add 2 _ _

theorem power_two_pos (a : Int) : 0 < Number.power 2 a := Nat.pow_pos (by decide)

/-- A power with a negative exponent counts as one. -/
theorem power_of_nonpos {base : Nat} {a : Int} (h : a ≤ 0) : Number.power base a = 1 := by
  unfold Number.power
  rw [Int.toNat_of_nonpos h]
  rfl

theorem power_two_mono {a b : Int} (h : a ≤ b) : Number.power 2 a ≤ Number.power 2 b :=
  Nat.pow_le_pow_right (by decide) (Int.toNat_le_toNat h)

/-- The total exponent of a number below `2 ^ k` is at most `k`. -/
theorem totalExponent_le (he : e + 1 ≤ k) (hm : m < Number.power 2 (k - e)) :
    totalExponent m e ≤ k := by
  unfold totalExponent
  by_cases hzero : m = 0
  · subst hzero
    simp only [Nat.log2_zero]
    omega
  · have hlog : m.log2 < (k - e).toNat := (Nat.log2_lt hzero).mpr hm
    omega

/-! ## Rounding -/

/-- To shift a mantissa right is to divide it. -/
theorem shiftRight_mantissa (em : ExtendedMantissa) (n : Nat) :
    (em >>> n).mantissa = em.mantissa / Number.power 2 n := by
  induction n with
  | zero => exact (Nat.div_one _).symm
  | succ n ih =>
      show (em >>> n).mantissa / 2 = _
      rw [ih, Nat.div_div_eq_div_mul]
      rfl

/-- What is known of the accuracy does not change the mantissa. -/
theorem mantissa_ofMantissaAndAccuracy (m : Nat) (a : Accuracy) :
    (ExtendedMantissa.ofMantissaAndAccuracy m a).mantissa = m := by
  cases a with
  | exact => rfl
  | inexact o => cases o <;> rfl

/-- Rounding adds one unit at most. -/
theorem roundedMantissa_le (em : ExtendedMantissa) : em.roundedMantissa ≤ em.mantissa + 1 := by
  obtain ⟨m, roundBit, stickyBit⟩ := em
  cases roundBit <;> cases stickyBit <;>
    simp only [ExtendedMantissa.roundedMantissa, ExtendedMantissa.accuracy,
      Accuracy.roundToNearestEven] <;> omega

/-- A number below `2 ^ k` has an exponent of at most `k - 53`. -/
theorem targetExponent_le (hk : 0 ≤ k) {total : Int} (h : total ≤ k) :
    Format.binary64.targetExponent total ≤ k - 53 := by
  unfold Format.targetExponent Format.minExponent Format.mantissaBits
  simp only
  omega

/-- Shifting to the target exponent keeps a number below `2 ^ k`. -/
theorem shiftToTargetExponent_below (hk : 0 ≤ k) (a : Accuracy) (he : e ≤ k - 53)
    (hm : m < Number.power 2 (k - e)) :
    (shiftToTargetExponent Format.binary64 m e a).2 ≤ k - 53
      ∧ (shiftToTargetExponent Format.binary64 m e a).1.mantissa
        < Number.power 2 (k - (shiftToTargetExponent Format.binary64 m e a).2) := by
  have htarget := targetExponent_le hk (totalExponent_le (by omega) hm)
  unfold shiftToTargetExponent shiftToExponent
  dsimp only
  generalize Format.binary64.targetExponent (totalExponent m e) = t at htarget ⊢
  have hexp : e + ((t - e).toNat : Int) ≤ k - 53 := by omega
  refine ⟨hexp, ?_⟩
  rw [shiftRight_mantissa, mantissa_ofMantissaAndAccuracy,
    Nat.div_lt_iff_lt_mul (power_two_pos _), ← power_two_add (by omega) (by omega)]
  rwa [show k - (e + ((t - e).toNat : Int)) + ((t - e).toNat : Int) = k - e by omega]

/-- Rounding may carry, so the bound is doubled. -/
theorem roundWithAccuracy_below (hk : 0 ≤ k) (s : Sign) (a : Accuracy) (he : e ≤ k - 53)
    (hm : m < Number.power 2 (k - e)) :
    Below (k + 1) (roundWithAccuracy Format.binary64 s m e a) := by
  obtain ⟨he₁, hm₁⟩ := shiftToTargetExponent_below hk a he hm
  unfold roundWithAccuracy
  dsimp only
  generalize shiftToTargetExponent Format.binary64 m e a = first at he₁ hm₁ ⊢
  -- after rounding the mantissa may be one digit longer, so it is shifted a second time
  have hrounded : first.1.roundedMantissa < Number.power 2 (k + 1 - first.2) := by
    have hle := roundedMantissa_le first.1
    have hdouble : Number.power 2 (k + 1 - first.2) = Number.power 2 (k - first.2) * 2 := by
      rw [show k + 1 - first.2 = k - first.2 + 1 by omega, power_two_add (by omega) (by decide)]
      rfl
    omega
  obtain ⟨he₂, hm₂⟩ := shiftToTargetExponent_below (k := k + 1) (by omega) .exact
    (by omega) hrounded
  generalize shiftToTargetExponent Format.binary64 first.1.roundedMantissa first.2 .exact
    = second at he₂ hm₂ ⊢
  by_cases hzero : second.1.mantissa = 0
  · rw [dif_pos hzero]
    exact .zero s
  · rw [dif_neg hzero]
    exact .finite he₂ hm₂

/-- A number that is rounded to binary64 stays below twice its bound. -/
theorem round_below (hk : 0 ≤ k) (s : Sign) (he : e + 1 ≤ k) (hm : m < Number.power 2 (k - e)) :
    Below (k + 1) (UnpackedFloat.round Format.binary64 s m e) := by
  have htarget := targetExponent_le hk (totalExponent_le he hm)
  unfold UnpackedFloat.round decreaseExponent
  dsimp only
  generalize Format.binary64.targetExponent (totalExponent m e) = t at htarget ⊢
  refine roundWithAccuracy_below hk s .exact (by omega) ?_
  rw [Nat.shiftLeft_eq]
  have hpow : Number.power 2 (k - (e - ((e - t).toNat : Int)))
      = Number.power 2 (k - e) * Number.power 2 ((e - t).toNat : Int) := by
    rw [← power_two_add (by omega) (by omega)]
    congr 1
    omega
  rw [hpow]
  exact Nat.mul_lt_mul_of_pos_right hm (power_two_pos _)

/-! ## Operations -/

/-- A bound may be raised. -/
theorem Below.mono (h : Below j u) (hjk : j ≤ k) : Below k u := by
  cases h with
  | zero s => exact .zero s
  | finite he hm =>
      exact .finite (by omega) (Nat.lt_of_lt_of_le hm (power_two_mono (by omega)))

/-- The same of a number with its sign. -/
theorem normalize_below (hk : 0 ≤ k) {n : Int} (s : Sign) (he : e + 1 ≤ k)
    (hn : n.natAbs < Number.power 2 (k - e)) :
    Below (k + 1) (UnpackedFloat.normalize Format.binary64 n e s) := by
  unfold UnpackedFloat.normalize
  split
  · exact round_below hk _ he (by omega)
  · exact .zero s
  · exact round_below hk _ he (by omega)

/-- With a smaller exponent the mantissa grows, but the number is the same. -/
theorem decreaseExponent_lt {t : Int} (ht : t ≤ e) (he : e ≤ k)
    (hm : m < Number.power 2 (k - e)) : (decreaseExponent m e t).1 < Number.power 2 (k - t) := by
  unfold decreaseExponent
  dsimp only
  rw [Nat.shiftLeft_eq]
  have hpow : Number.power 2 (k - t) = Number.power 2 (k - e) * Number.power 2 (e - t) := by
    rw [← power_two_add (by omega) (by omega)]
    congr 1
    omega
  rw [hpow]
  exact Nat.mul_lt_mul_of_pos_right hm (power_two_pos _)

theorem natAbs_apply (s : Sign) (n : Nat) : (s.apply (n : Int)).natAbs = n := by
  cases s
  · exact Int.natAbs_neg _
  · rfl

/-- A difference is at most twice as large. -/
theorem sub_below (hk : 0 ≤ k) (hu : Below k u) (hv : Below k v) :
    Below (k + 2) (UnpackedFloat.sub Format.binary64 u v) := by
  cases hu with
  | zero s =>
      cases hv with
      | zero s' =>
          unfold UnpackedFloat.sub
          dsimp only
          split <;> exact .zero _
      | finite he hm => exact (Below.finite he hm).mono (by omega)
  | @finite s₁ m₁ e₁ _ he₁ hm₁ =>
      cases hv with
      | zero s' => exact (Below.finite he₁ hm₁).mono (by omega)
      | @finite s₂ m₂ e₂ _ he₂ hm₂ =>
          unfold UnpackedFloat.sub
          dsimp only
          have h₁ := decreaseExponent_lt (k := k) (t := min e₁ e₂) (by omega) (by omega) hm₁
          have h₂ := decreaseExponent_lt (k := k) (t := min e₁ e₂) (by omega) (by omega) hm₂
          have hdouble :
              Number.power 2 (k + 1 - min e₁ e₂) = Number.power 2 (k - min e₁ e₂) * 2 := by
            rw [show k + 1 - min e₁ e₂ = k - min e₁ e₂ + 1 by omega,
              power_two_add (by omega) (by decide)]
            rfl
          -- on the smaller exponent both mantissas keep their bound, so the difference has
          -- twice that; to round it doubles once more
          rw [show k + 2 = k + 1 + 1 by omega]
          refine normalize_below (k := k + 1) (e := min e₁ e₂) (by omega) _ (by omega) ?_
          have ha := natAbs_apply s₁ (decreaseExponent m₁ e₁ (min e₁ e₂)).1
          have hb := natAbs_apply s₂ (decreaseExponent m₂ e₂ (min e₁ e₂)).1
          omega

/-- The powers of a product add up. -/
theorem mul_below (hj : 0 ≤ j) (hk : 0 ≤ k) (hu : Below j u) (hv : Below k v) :
    Below (j + k + 1) (UnpackedFloat.mul Format.binary64 u v) := by
  cases hu with
  | zero s => cases hv <;> exact .zero _
  | @finite s₁ m₁ e₁ _ he₁ hm₁ =>
      cases hv with
      | zero s' => exact .zero _
      | @finite s₂ m₂ e₂ _ he₂ hm₂ =>
          refine roundWithAccuracy_below (by omega) _ .exact (by omega) ?_
          rw [show j + k - (e₁ + e₂) = (j - e₁) + (k - e₂) by omega,
            power_two_add (by omega) (by omega)]
          exact Nat.mul_lt_mul'' hm₁ hm₂

/-! ## Packing -/

/-- Bits whose exponent field is small stand for a small number. -/
theorem unpack_below (hk : 0 ≤ k) {b : BitVec Format.binary64.numBits}
    (hne : unpackExponent b ≠ -1#_) (hfield : ((unpackExponent b).toNat : Int) ≤ k + 1022) :
    Below k (UnpackedFloat.unpack Format.binary64 b) := by
  have hbits : (unpackMantissa b).toNat < Number.power 2 52 := (unpackMantissa b).isLt
  unfold UnpackedFloat.unpack
  dsimp only
  rw [if_neg hne]
  by_cases hzero : unpackExponent b = 0#_
  · rw [if_pos hzero]
    by_cases hmantissa : unpackMantissa b = 0#_
    · rw [dif_pos hmantissa]
      exact .zero _
    · rw [dif_neg hmantissa]
      refine .finite ?_ (Nat.lt_of_lt_of_le hbits (power_two_mono ?_)) <;>
        simp [hzero, Format.exponentBias] <;> omega
  · rw [if_neg hzero]
    have hnormal : (1#1 ++ unpackMantissa b).toNat < Number.power 2 53 := BitVec.isLt _
    refine .finite ?_ (Nat.lt_of_lt_of_le hnormal (power_two_mono ?_)) <;>
      simp [Format.exponentBias] <;> omega

/-- A number that is small enough comes back from its bits below the same power. -/
theorem unpack_pack_below (hk : 0 ≤ k) (hk' : k ≤ 1024) (h : Below k u) :
    Below k (Float.Model.pack u).unpack := by
  show Below k (UnpackedFloat.unpack Format.binary64 (UnpackedFloat.pack Format.binary64 u))
  unfold UnpackedFloat.pack
  cases h with
  | zero s =>
      unfold packedZero
      refine unpack_below hk ?_ ?_ <;> rw [unpackExponent_packComponents]
      · decide
      · simp
        omega
  | @finite s m e _ he hm =>
      dsimp only
      have hbiased : (e + (Format.binary64.exponentBias : Int)
          + (Format.binary64.mantissaBitsWithoutImplicit : Int)).toNat ≤ (k + 1022).toNat := by
        simp [Format.exponentBias]
        omega
      generalize (e + (Format.binary64.exponentBias : Int)
          + (Format.binary64.mantissaBitsWithoutImplicit : Int)).toNat = biased at hbiased ⊢
      -- the exponent is too small to be packed as an infinity
      have hsmall : ¬2 ^ Format.binary64.exponentBits ≤ biased + 1 := by
        simp
        omega
      rw [if_neg hsmall]
      split
      · refine unpack_below hk ?_ ?_ <;> rw [unpackExponent_packComponents]
        · intro hall
          have hnat := congrArg BitVec.toNat hall
          simp [Nat.mod_eq_of_lt (show biased < 2048 by omega)] at hnat
          omega
        · simp [Nat.mod_eq_of_lt (show biased < 2048 by omega)]
          omega
      · refine unpack_below hk ?_ ?_ <;> rw [unpackExponent_packComponents]
        · decide
        · simp
          omega

/-- A number is normal, or its exponent is the least one. -/
theorem unpack_eq_finite {x : Float.Model} {s : Sign} {hm : 0 < m}
    (h : x.unpack = .finite s m e hm) : e = -1074 ∨ Number.power 2 52 ≤ m := by
  obtain ⟨b, h⟩ : ∃ b : BitVec Format.binary64.numBits,
      UnpackedFloat.unpack Format.binary64 b = .finite s m e hm := ⟨x.toBits.toBitVec, h⟩
  unfold UnpackedFloat.unpack at h
  dsimp only at h
  -- the exponent field is all ones (no finite number), zero (the least exponent) or of a
  -- normal number
  by_cases hones : unpackExponent b = -1#_
  · rw [if_pos hones] at h
    by_cases hmantissa : unpackMantissa b = 0#_
    · rw [if_pos hmantissa] at h
      cases h
    · rw [if_neg hmantissa] at h
      cases h
  rw [if_neg hones] at h
  by_cases hzero : unpackExponent b = 0#_
  · rw [if_pos hzero] at h
    by_cases hmantissa : unpackMantissa b = 0#_
    · rw [dif_pos hmantissa] at h
      cases h
    · rw [dif_neg hmantissa] at h
      cases h
      exact Or.inl (by simp [hzero, Format.exponentBias])
  · rw [if_neg hzero] at h
    cases h
    refine Or.inr ?_
    rw [BitVec.toNat_append]
    exact Nat.left_le_or

/-! ## Readings -/

/-- The bound of clock readings. -/
def bound : Int := Number.power 10 300

/-- A reading that is a number between the bounds. -/
structure Moderate (x : Float) : Prop where
  above : Number.lt (.int (-bound)) (.float x) = true
  below : Number.lt (.float x) (.int bound) = true

/-- A finite number below a power, both scaled by its exponent, is one below that power. -/
theorem below_of_scaled {x : Float} {s : Sign} {m : Nat} {e : Int} {hm : 0 < m}
    (hx : x.toModel.unpack = .finite s m e hm)
    (hscaled : m * Number.power 2 e < Number.power 2 997 * Number.power 2 (-e)) :
    Below 997 (.finite s m e hm) := by
  -- a normal mantissa has 53 digits, so an exponent above this would take the number over the
  -- power
  have hexp : e ≤ 944 := by
    obtain rfl | hnormal := unpack_eq_finite hx
    · decide
    by_contra hlarge
    have hone : Number.power 2 (-e) = 1 := power_of_nonpos (by omega)
    have hlow : Number.power 2 52 * Number.power 2 945 ≤ m * Number.power 2 e :=
      Nat.mul_le_mul hnormal (power_two_mono (by omega))
    rw [← power_two_add (by decide) (by decide)] at hlow
    rw [hone, Nat.mul_one] at hscaled
    exact absurd (hlow.trans_lt hscaled) (lt_irrefl _)
  refine .finite hexp ?_
  obtain hneg | hpos := lt_or_ge e 0
  · rwa [power_of_nonpos hneg.le, Nat.mul_one, ← power_two_add (by decide) (by omega)] at hscaled
  · rw [power_of_nonpos (show -e ≤ 0 by omega), Nat.mul_one,
      show (997 : Int) = 997 - e + e by omega, power_two_add (by omega) hpos] at hscaled
    exact lt_of_mul_lt_mul_right hscaled (Nat.zero_le _)

/-- A moderate reading is below a power of two. -/
theorem Moderate.below_power {x : Float} (h : Moderate x) : Below 997 x.toModel.unpack := by
  obtain ⟨habove, hbelow⟩ := h
  simp only [Number.lt, Number.exact] at habove hbelow
  cases hx : x.toModel.unpack with
  | notANumber =>
      rw [hx] at hbelow
      cases hbelow
  | infinity s =>
      rw [hx] at habove hbelow
      cases s
      · cases habove
      · cases hbelow
  | zero s => exact .zero s
  | finite s m e hm =>
      rw [hx] at habove hbelow
      have hpower : bound ≤ (Number.power 2 997 : Int) := by decide +kernel
      have hle : bound * Number.power 2 (-e)
          ≤ (Number.power 2 997 : Int) * Number.power 2 (-e) :=
        Int.mul_le_mul_of_nonneg_right hpower (Int.natCast_nonneg _)
      refine below_of_scaled hx ?_
      cases s with
      | positive =>
          have hlt : (m : Int) * Number.power 2 e < bound * Number.power 2 (-e) :=
            of_decide_eq_true hbelow
          exact_mod_cast hlt.trans_le hle
      | negative =>
          have hlt : -bound * Number.power 2 (-e) < -(m : Int) * Number.power 2 e :=
            of_decide_eq_true habove
          -- the lower bound is for the negative numbers
          rw [Int.neg_mul, Int.neg_mul] at hlt
          exact_mod_cast (Int.neg_lt_neg_iff.mp hlt).trans_le hle

/-- **Between two moderate readings lies a whole number of milliseconds.**  Readings are below
    `2 ^ 997` and their difference is below `2 ^ 999`, so a thousand times that is far from an
    infinity. -/
theorem milliseconds_isOk {a b : Float} (ha : Moderate a) (hb : Moderate b) :
    ∃ n, Command.milliseconds (b - a) = .ok n := by
  have hdiff : Below 999 (b - a).toModel.unpack :=
    unpack_pack_below (by decide) (by decide) (sub_below (by decide) hb.below_power ha.below_power)
  have hthousand : Below 10 (1000 : Float).toModel.unpack := by
    have hunpack : (1000 : Float).toModel.unpack
        = .finite .positive (1000 * Number.power 2 43) (-43) (by decide) := by rfl
    rw [hunpack]
    exact .finite (by decide) (by decide)
  have hproduct : Below 1010 ((b - a) * 1000).toModel.unpack :=
    unpack_pack_below (by decide) (by decide) (mul_below (by decide) (by decide) hdiff hthousand)
  have hwhole : ∃ n, Number.truncate? ((b - a) * 1000) = some n := by
    unfold Number.truncate? Number.exact
    generalize ((b - a) * 1000).toModel.unpack = u at hproduct
    cases hproduct <;> exact ⟨_, rfl⟩
  obtain ⟨n, hn⟩ := hwhole
  exact ⟨n, by unfold Command.milliseconds; rw [hn]⟩

end Clock
end RoundTrip
