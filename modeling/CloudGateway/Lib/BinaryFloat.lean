import Mathlib.Algebra.Order.Field.Rat
import Mathlib.Algebra.Order.Group.Abs
import Mathlib.Tactic.Linarith
import Mathlib.Tactic.NormNum

/-!
# Integers in a binary floating-point format

Lean's own model of floating-point numbers, seen from the integers. A format
represents the integers whose significant bits fit its mantissa (`Fits`), and no
others: rounding gives such an integer itself, and whatever a number of the
format is cut down to is such an integer.
-/

namespace BinaryFloat

open Float.Model (Format UnpackedFloat totalExponent)
open Float.Model.UnpackedFloat

/-! ## Significant bits -/

/-- At most `p` significant bits. -/
def Fits (p n : Nat) : Prop := ∃ m e, m < 2 ^ p ∧ n = m * 2 ^ e

theorem fits_of_lt {p n : Nat} (h : n < 2 ^ p) : Fits p n := ⟨n, 0, h, by simp⟩

/-- All bits below the first `p` are zero. -/
theorem fits_iff_dvd {p n : Nat} : Fits p n ↔ 2 ^ (n.log2 + 1 - p) ∣ n := by
  rcases Nat.eq_zero_or_pos n with rfl | hn
  · exact iff_of_true (fits_of_lt (Nat.two_pow_pos p)) (dvd_zero _)
  constructor
  · rintro ⟨m, e, hm, rfl⟩
    have hlt : m * 2 ^ e < 2 ^ (p + e) := by
      rw [Nat.pow_add]
      exact Nat.mul_lt_mul_of_pos_right hm (Nat.two_pow_pos e)
    have hlog := (Nat.log2_lt (Nat.pos_iff_ne_zero.mp hn)).mpr hlt
    exact Dvd.dvd.mul_left (Nat.pow_dvd_pow 2 (by omega)) m
  · rintro ⟨m, hm⟩
    rcases Nat.eq_zero_or_pos (n.log2 + 1 - p) with h0 | hpos
    · have hlt := Nat.lt_log2_self (n := n)
      exact fits_of_lt (Nat.lt_of_lt_of_le hlt (Nat.pow_le_pow_right (by decide) (by omega)))
    · refine ⟨m, n.log2 + 1 - p, ?_, by rw [Nat.mul_comm]; exact hm⟩
      have hlt := Nat.lt_log2_self (n := n)
      have hexp : n.log2 + 1 = (n.log2 + 1 - p) + p := by omega
      rw [hexp, Nat.pow_add] at hlt
      exact Nat.lt_of_mul_lt_mul_left (Nat.lt_of_le_of_lt (Nat.le_of_eq hm.symm) hlt)

instance (p n : Nat) : Decidable (Fits p n) := decidable_of_iff _ fits_iff_dvd.symm

theorem log2_mul_pow {a : Nat} (ha : a ≠ 0) (k : Nat) : (a * 2 ^ k).log2 = a.log2 + k := by
  have hne : a * 2 ^ k ≠ 0 := Nat.mul_ne_zero ha (Nat.pos_iff_ne_zero.mp (Nat.two_pow_pos k))
  refine (Nat.log2_eq_iff hne).mpr ⟨?_, ?_⟩
  · rw [Nat.pow_add]
    exact Nat.mul_le_mul_right _ (Nat.log2_self_le ha)
  · rw [Nat.add_right_comm, Nat.pow_add]
    exact Nat.mul_lt_mul_of_pos_right Nat.lt_log2_self (Nat.two_pow_pos k)

/-! ## What a number stands for -/

/-- The value of a number; infinities and NaN have none. -/
def value : UnpackedFloat → Option ℚ
  | .infinity _ | .notANumber => none
  | .zero _ => some 0
  | .finite s m e _ => some (s.apply m * 2 ^ e)

/-- Its integer part, towards zero. -/
def trunc : UnpackedFloat → Option Int
  | .infinity _ | .notANumber => none
  | .zero _ => some 0
  | .finite s m e _ => some (roundToInt s m e)

theorem value_zero (s : Sign) : value (.zero s) = some 0 := rfl

theorem value_finite (s : Sign) (m : Nat) (e : Int) (hm : 0 < m) :
    value (.finite s m e hm) = some (((s.apply m : Int) : ℚ) * 2 ^ e) := rfl

theorem trunc_zero (s : Sign) : trunc (.zero s) = some 0 := rfl

theorem trunc_finite (s : Sign) (m : Nat) (e : Int) (hm : 0 < m) :
    trunc (.finite s m e hm) = some (roundToInt s m e) := rfl

theorem apply_cast (s : Sign) (a : Nat) : ((s.apply a : Int) : ℚ) = (s.apply 1 : Int) * a := by
  cases s <;> simp [Sign.apply]

theorem shiftRight_mantissa (em : ExtendedMantissa) (k : Nat) :
    (em >>> k).mantissa = em.mantissa / 2 ^ k := by
  induction k with
  | zero => simp [HShiftRight.hShiftRight, Nat.repeat]
  | succ k ih =>
      have hone : (em >>> (k + 1)).mantissa = (em >>> k).mantissa / 2 := rfl
      rw [hone, ih, Nat.div_div_eq_div_mul, Nat.pow_succ]

/-- One of the two shifts is by nothing. -/
theorem roundToInt_eq (s : Sign) (m : Nat) (e : Int) :
    roundToInt s m e = s.apply ((m * 2 ^ e.toNat / 2 ^ (-e).toNat : Nat) : Int) := by
  have hshift : (0 - (e - (e.toNat : Int))).toNat = (-e).toNat := by omega
  simp only [roundToInt, decreaseExponent, shiftToExponent, shiftRight_mantissa,
    ExtendedMantissa.ofMantissaAndAccuracy, Nat.shiftLeft_eq, Int.sub_zero, hshift]

/-- A value that is an integer is its own integer part. -/
theorem trunc_of_value {f : UnpackedFloat} {n : Int} (h : value f = some (n : ℚ)) :
    trunc f = some n := by
  cases f with
  | infinity s => exact nomatch h
  | notANumber => exact nomatch h
  | zero s =>
      have h0 : (0 : ℚ) = n := Option.some.inj h
      rw [trunc_zero, show n = 0 by exact_mod_cast h0.symm]
  | finite s m e hm =>
      have hval : ((s.apply m : Int) : ℚ) * 2 ^ e = n := Option.some.inj h
      -- the same equation between integers, with the exponent on whichever side it belongs
      have hint : s.apply m * 2 ^ e.toNat = n * 2 ^ (-e).toNat := by
        have hexp : (2 : ℚ) ^ e.toNat = 2 ^ e * 2 ^ (-e).toNat := by
          rw [← zpow_natCast, ← zpow_natCast, ← zpow_add₀ (by norm_num)]
          congr 1
          omega
        have hrat : ((s.apply m : Int) : ℚ) * 2 ^ e.toNat = n * 2 ^ (-e).toNat := by
          rw [hexp, ← mul_assoc, hval]
        exact_mod_cast hrat
      rw [trunc_finite, roundToInt_eq]
      cases s with
      | positive =>
          have hdiv : ((m * 2 ^ e.toNat : Nat) : Int) = n * 2 ^ (-e).toNat := by
            push_cast
            exact hint
          simp only [Sign.apply]
          push_cast at hdiv ⊢
          rw [hdiv, Int.mul_ediv_cancel _ (by positivity)]
      | negative =>
          have hdiv : ((m * 2 ^ e.toNat : Nat) : Int) = -n * 2 ^ (-e).toNat := by
            push_cast
            simp only [Sign.apply] at hint
            linarith
          simp only [Sign.apply]
          push_cast at hdiv ⊢
          rw [hdiv, Int.mul_ediv_cancel _ (by positivity), neg_neg]

/-- The integer part of a number has no more significant bits than its mantissa. -/
theorem fits_roundToInt {p m : Nat} {s : Sign} {e : Int} (hm : m < 2 ^ p) :
    Fits p (roundToInt s m e).natAbs := by
  have habs : (roundToInt s m e).natAbs = m * 2 ^ e.toNat / 2 ^ (-e).toNat := by
    rw [roundToInt_eq]
    cases s with
    | positive => exact Int.natAbs_natCast _
    | negative => exact (Int.natAbs_neg _).trans (Int.natAbs_natCast _)
  rw [habs]
  rcases Int.le_total 0 e with he | he
  · refine ⟨m, e.toNat, hm, ?_⟩
    rw [show (-e).toNat = 0 by omega, Nat.pow_zero, Nat.div_one]
  · refine fits_of_lt (Nat.lt_of_le_of_lt (Nat.div_le_self _ _) ?_)
    rw [show e.toNat = 0 by omega, Nat.pow_zero, Nat.mul_one]
    exact hm

/-! ## Rounding an integer that fits -/

theorem shiftRight_exact {m t : Nat} (h : 2 ^ t ∣ m) :
    (⟨m, false, false⟩ : ExtendedMantissa) >>> t = ⟨m / 2 ^ t, false, false⟩ := by
  induction t with
  | zero => simp [HShiftRight.hShiftRight, Nat.repeat]
  | succ t ih =>
      obtain ⟨c, rfl⟩ := h
      have hone : ∀ em : ExtendedMantissa, em >>> (t + 1) = (em >>> t).shiftRightOne := fun _ => rfl
      have hhalf : 2 ^ (t + 1) * c / 2 ^ t = 2 * c := by
        rw [Nat.pow_succ, Nat.mul_assoc]
        exact Nat.mul_div_cancel_left _ (Nat.two_pow_pos t)
      rw [hone, ih ⟨2 * c, by rw [Nat.pow_succ, Nat.mul_assoc]⟩, hhalf,
        Nat.mul_div_cancel_left _ (Nat.two_pow_pos (t + 1))]
      simp [ExtendedMantissa.shiftRightOne]

section Format

variable {F : Format}

/-- The implicit bit, and the others. -/
theorem mantissaBits_eq : F.mantissaBits = F.mantissaBitsWithoutImplicit + 1 := Nat.add_comm _ _

theorem mantissaBits_pos : 0 < F.mantissaBits := by
  rw [mantissaBits_eq]
  exact Nat.succ_pos _

/-- The biased exponents go up to twice the bias, and two more are reserved. -/
theorem two_pow_exponentBits : 2 ^ F.exponentBits = 2 * F.exponentBias + 2 := by
  have hsucc : F.exponentBits = (F.exponentBits - 1) + 1 := by have := F.he; omega
  have hpos := Nat.two_pow_pos (F.exponentBits - 1)
  rw [hsucc, Nat.pow_succ, Format.exponentBias]
  omega

theorem minExponent_eq : F.minExponent = 2 - F.exponentBias - F.mantissaBits := by
  have hpos := Nat.two_pow_pos (F.exponentBits - 1)
  unfold Format.minExponent Format.exponentBias
  push_cast [Nat.cast_sub hpos]
  omega

variable (hbias : 0 < F.exponentBias)
include hbias

/-- The exponent of an integer with `l + 1` bits is far from the smallest one. -/
theorem targetExponent_of_log {m : Nat} {e : Int} {l : Nat} (h : (m.log2 : Int) + e = l) :
    F.targetExponent (totalExponent m e) = l + 1 - F.mantissaBits := by
  rw [Format.targetExponent, totalExponent, minExponent_eq]
  omega

omit hbias in
theorem shiftToTargetExponent_exact {m t : Nat} {e : Int}
    (ht : F.targetExponent (totalExponent m e) = e + t) (hdvd : 2 ^ t ∣ m) :
    shiftToTargetExponent F m e .exact = (⟨m / 2 ^ t, false, false⟩, e + t) := by
  have hshift : (e + (t : Int) - e).toNat = t := by omega
  simp only [shiftToTargetExponent, ht, shiftToExponent, hshift,
    ExtendedMantissa.ofMantissaAndAccuracy, shiftRight_exact hdvd]

omit hbias in
/-- A number is rounded by two shifts. -/
theorem roundWithAccuracy_of_shifts {s : Sign} {m : Nat} {e e₁ e₂ : Int} {acc : Accuracy}
    {em₁ em₂ : ExtendedMantissa} (h₁ : shiftToTargetExponent F m e acc = (em₁, e₁))
    (h₂ : shiftToTargetExponent F em₁.roundedMantissa e₁ .exact = (em₂, e₂))
    (hm : 0 < em₂.mantissa) :
    roundWithAccuracy F s m e acc = .finite s em₂.mantissa e₂ hm := by
  rw [roundWithAccuracy, h₁]
  dsimp only
  rw [h₂]
  exact dif_neg (Nat.pos_iff_ne_zero.mp hm)

/-- A mantissa whose low bits are zero is shifted to fill the format, and not rounded. -/
theorem roundWithAccuracy_exact (s : Sign) {m t l : Nat} {e : Int} (hl : (m * 2 ^ t).log2 + e = l)
    (he : e + t = l + 1 - F.mantissaBits) (hm : 0 < m) :
    roundWithAccuracy F s (m * 2 ^ t) e .exact = .finite s m (e + t) hm := by
  have hdiv : m * 2 ^ t / 2 ^ t = m := Nat.mul_div_cancel _ (Nat.two_pow_pos t)
  have hlog : (m.log2 : Int) + (e + t) = l := by
    rw [log2_mul_pow (Nat.pos_iff_ne_zero.mp hm)] at hl
    push_cast at hl
    omega
  have hfirst := shiftToTargetExponent_exact (F := F) (m := m * 2 ^ t) (e := e) (t := t)
    (by rw [targetExponent_of_log hbias hl, he]) (Dvd.intro_left _ rfl)
  have hsecond := shiftToTargetExponent_exact (F := F) (m := m) (e := e + t) (t := 0)
    (by rw [targetExponent_of_log hbias hlog, he]; simp) (by simp)
  rw [hdiv] at hfirst
  rw [Nat.pow_zero, Nat.div_one, Int.natCast_zero, Int.add_zero] at hsecond
  exact roundWithAccuracy_of_shifts hfirst hsecond hm

omit hbias in
theorem finite_congr {s : Sign} {m m' : Nat} {e e' : Int} {hm : 0 < m} (hmant : m = m')
    (hexp : e = e') : UnpackedFloat.finite s m e hm = .finite s m' e' (hmant ▸ hm) := by
  subst hmant hexp
  rfl

/-- **Rounding keeps an integer that fits.** -/
theorem round_exact (s : Sign) {a : Nat} (ha : a ≠ 0) (hfit : Fits F.mantissaBits a) :
    ∃ m hm, UnpackedFloat.round F s a 0 = .finite s m (a.log2 + 1 - F.mantissaBits) hm
      ∧ m.log2 + 1 = F.mantissaBits
      ∧ m * 2 ^ (a.log2 + 1 - F.mantissaBits) = a * 2 ^ (F.mantissaBits - (a.log2 + 1)) := by
  -- the integer is shifted left by `k` to fill the mantissa, or right by `t` over zeros
  obtain ⟨k, hk⟩ : ∃ k, k = F.mantissaBits - (a.log2 + 1) := ⟨_, rfl⟩
  obtain ⟨t, ht⟩ : ∃ t, t = a.log2 + 1 - F.mantissaBits := ⟨_, rfl⟩
  have hp := mantissaBits_pos (F := F)
  obtain ⟨m, hm⟩ : ∃ m, a * 2 ^ k = m * 2 ^ t := by
    have hdvd : 2 ^ t ∣ a * 2 ^ k := by
      rw [ht]
      exact Dvd.dvd.mul_right (fits_iff_dvd.mp hfit) _
    obtain ⟨m, hm⟩ := hdvd
    exact ⟨m, by rw [hm, Nat.mul_comm]⟩
  have hm0 : m ≠ 0 := by
    rintro rfl
    rw [Nat.zero_mul] at hm
    exact (Nat.mul_ne_zero ha (Nat.pos_iff_ne_zero.mp (Nat.two_pow_pos k))) hm
  have hlog : m.log2 + t = a.log2 + k := by rw [← log2_mul_pow hm0, ← hm, log2_mul_pow ha]
  refine ⟨m, Nat.pos_of_ne_zero hm0, ?_, by omega, by rw [← hk, ← ht, hm]⟩
  have htarget := targetExponent_of_log hbias (m := a) (e := 0) (l := a.log2) (by omega)
  have hleft : (0 - (a.log2 + 1 - F.mantissaBits : Int)).toNat = k := by omega
  have hexp : (0 - k : Int) + t = a.log2 + 1 - F.mantissaBits := by omega
  have hround := roundWithAccuracy_exact hbias s (m := m) (t := t) (l := a.log2) (e := 0 - k)
    (by rw [log2_mul_pow hm0]; omega) hexp (Nat.pos_of_ne_zero hm0)
  have hshift : UnpackedFloat.round F s a 0
      = roundWithAccuracy F s (m * 2 ^ t) (0 - k) .exact := by
    simp only [UnpackedFloat.round, htarget, decreaseExponent, hleft, Nat.shiftLeft_eq, hm]
  exact hshift.trans (hround.trans (finite_congr rfl hexp))

/-- The sign and the magnitude of an integer that is not zero are rounded separately. -/
theorem value_ofInt {n : Int} (hn : n ≠ 0) (hfit : Fits F.mantissaBits n.natAbs) :
    ∃ s m hm, ofInt F n
        = .finite s m (n.natAbs.log2 + 1 - F.mantissaBits) hm
      ∧ m.log2 + 1 = F.mantissaBits ∧ value (ofInt F n) = some (n : ℚ) := by
  obtain ⟨s, happly, hround⟩ : ∃ s : Sign, s.apply n.natAbs = n
      ∧ ofInt F n = UnpackedFloat.round F s n.natAbs 0 := by
    rcases Int.lt_or_gt_of_ne hn with hneg | hpos
    · refine ⟨.negative, by simp only [Sign.apply]; omega, ?_⟩
      simp only [ofInt, UnpackedFloat.normalize, Int.compare_eq_lt.mpr hneg]
      congr 1
      omega
    · refine ⟨.positive, by simp only [Sign.apply]; omega, ?_⟩
      simp only [ofInt, UnpackedFloat.normalize, Int.compare_eq_gt.mpr hpos]
      congr 1
      omega
  obtain ⟨m, hm, heq, hlog, hval⟩ := round_exact hbias s (Int.natAbs_ne_zero.mpr hn) hfit
  refine ⟨s, m, hm, hround.trans heq, hlog, ?_⟩
  obtain ⟨l, hl⟩ : ∃ l, l = n.natAbs.log2 + 1 := ⟨_, rfl⟩
  have hexp : ((n.natAbs.log2 : Int) + 1 - F.mantissaBits)
      = ((l - F.mantissaBits : Nat) : Int) - ((F.mantissaBits - l : Nat) : Int) := by omega
  have hmag : (m : ℚ) * 2 ^ ((n.natAbs.log2 : Int) + 1 - F.mantissaBits) = n.natAbs := by
    rw [← hl] at hval
    rw [hexp, zpow_sub₀ (by norm_num), zpow_natCast, zpow_natCast, mul_div_assoc',
      div_eq_iff (by positivity)]
    exact_mod_cast hval
  rw [hround, heq, value_finite, apply_cast, mul_assoc, hmag, ← apply_cast, happly]

end Format

/-! ## The bits of a number -/

section Bits

variable {F : Format}

theorem unpackSign_packComponents {s : Sign} {e : BitVec F.exponentBits}
    {m : BitVec F.mantissaBitsWithoutImplicit} :
    unpackSign (packComponents F s e m) = s.toBitVec := by
  have hsign : ∀ b : BitVec F.numBits, unpackSign b
      = (b.extractLsb (F.mantissaBitsWithoutImplicit + F.exponentBits)
          (F.mantissaBitsWithoutImplicit + F.exponentBits)).cast (by omega) := fun _ => rfl
  ext i hi
  obtain rfl : i = 0 := by omega
  rw [hsign]
  simp [packComponents, BitVec.getLsbD_append, BitVec.getElem_append]

theorem ofBitVec_toBitVec (s : Sign) : Sign.ofBitVec s.toBitVec = s := by
  cases s <;> rfl

/-- The implicit bit in front of a mantissa. -/
theorem toNat_implicit {w : Nat} (v : BitVec w) : (1#1 ++ v).toNat = 2 ^ w + v.toNat := by
  rw [BitVec.toNat_append, ← Nat.shiftLeft_add_eq_or_of_lt v.isLt, Nat.shiftLeft_eq]
  simp

/-- How a number is packed that fills its mantissa. -/
theorem pack_normal {s : Sign} {m : Nat} {e : Int} {hm : 0 < m}
    (hmax : ¬ 2 ^ F.exponentBits
      ≤ (e + F.exponentBias + F.mantissaBitsWithoutImplicit).toNat + 1)
    (hlog : m.log2 + 1 = F.mantissaBits) :
    pack F (.finite s m e hm)
      = packComponents F s
          (BitVec.ofNat _ (e + F.exponentBias + F.mantissaBitsWithoutImplicit).toNat)
          (BitVec.ofNat _ m) :=
  (if_neg hmax).trans (if_pos hlog)

section Unpack

variable {b : BitVec F.numBits}

/-! The exponent tells what is unpacked. -/

theorem unpack_reserved (hmax : unpackExponent b = -1#_) :
    unpack F b = .infinity (Sign.ofBitVec (unpackSign b)) ∨ unpack F b = .notANumber := by
  by_cases hmant : unpackMantissa b = 0#_
  · exact .inl ((if_pos hmax).trans (if_pos hmant))
  · exact .inr ((if_pos hmax).trans (if_neg hmant))

theorem unpack_signedZero (hmax : unpackExponent b ≠ -1#_) (hzero : unpackExponent b = 0#_)
    (hmant : unpackMantissa b = 0#_) : unpack F b = .zero (Sign.ofBitVec (unpackSign b)) :=
  (if_neg hmax).trans ((if_pos hzero).trans (dif_pos hmant))

theorem unpack_subnormal (hmax : unpackExponent b ≠ -1#_) (hzero : unpackExponent b = 0#_)
    (hmant : unpackMantissa b ≠ 0#_) :
    ∃ hm, unpack F b = .finite (Sign.ofBitVec (unpackSign b)) (unpackMantissa b).toNat
      (((unpackExponent b).toNat : Int)
        - (F.exponentBias + F.mantissaBitsWithoutImplicit) + 1) hm :=
  ⟨_, (if_neg hmax).trans ((if_pos hzero).trans (dif_neg hmant))⟩

theorem unpack_normal (hmax : unpackExponent b ≠ -1#_) (hzero : unpackExponent b ≠ 0#_) :
    ∃ hm, unpack F b = .finite (Sign.ofBitVec (unpackSign b)) (1#1 ++ unpackMantissa b).toNat
      (((unpackExponent b).toNat : Int) - (F.exponentBias + F.mantissaBitsWithoutImplicit)) hm :=
  ⟨_, (if_neg hmax).trans (if_neg hzero)⟩

end Unpack

/-- A number that fills its mantissa and whose exponent is in range survives being packed. -/
theorem unpack_pack_normal {s : Sign} {m : Nat} {e : Int} {hm : 0 < m}
    (hlog : m.log2 + 1 = F.mantissaBits)
    (hlo : 0 < e + F.exponentBias + F.mantissaBitsWithoutImplicit)
    (hhi : e + F.exponentBias + F.mantissaBitsWithoutImplicit ≤ 2 * F.exponentBias) :
    unpack F (pack F (.finite s m e hm)) = .finite s m e hm := by
  obtain ⟨b, hb⟩ : ∃ b : Nat, (e + F.exponentBias + F.mantissaBitsWithoutImplicit).toNat = b :=
    ⟨_, rfl⟩
  have hpow := two_pow_exponentBits (F := F)
  have hbits := mantissaBits_eq (F := F)
  have hexp : (BitVec.ofNat F.exponentBits b).toNat = b := by
    rw [BitVec.toNat_ofNat, Nat.mod_eq_of_lt (by omega)]
  -- neither reserved exponent
  have hmax : BitVec.ofNat F.exponentBits b ≠ -1#_ := by
    intro h
    have := congrArg BitVec.toNat h
    rw [hexp, BitVec.neg_one_eq_allOnes, BitVec.toNat_allOnes] at this
    omega
  have hzero : BitVec.ofNat F.exponentBits b ≠ 0#_ := by
    intro h
    have := congrArg BitVec.toNat h
    rw [hexp, BitVec.toNat_zero] at this
    omega
  -- the leading bit of the mantissa is the implicit one
  have hmant : (1#1 ++ BitVec.ofNat F.mantissaBitsWithoutImplicit m).toNat = m := by
    have hle := Nat.log2_self_le (Nat.pos_iff_ne_zero.mp hm)
    have hlt := Nat.lt_log2_self (n := m)
    rw [show m.log2 = F.mantissaBitsWithoutImplicit by omega] at hle hlt
    rw [toNat_implicit, BitVec.toNat_ofNat]
    rw [Nat.pow_succ] at hlt
    rw [Nat.mod_eq_sub_mod hle, Nat.mod_eq_of_lt (by omega)]
    omega
  have hpack : pack F (.finite s m e hm)
      = packComponents F s (BitVec.ofNat _ b) (BitVec.ofNat _ m) := by
    rw [pack_normal (by omega) hlog, hb]
  obtain ⟨_, hunpack⟩ := unpack_normal (b := pack F (.finite s m e hm))
    (by rwa [hpack, unpackExponent_packComponents]) (by rwa [hpack, unpackExponent_packComponents])
  have hsign : Sign.ofBitVec (unpackSign (pack F (.finite s m e hm))) = s := by
    rw [hpack, unpackSign_packComponents, ofBitVec_toBitVec]
  rw [hunpack, hsign]
  refine finite_congr ?_ ?_
  · rw [hpack, unpackMantissa_packComponents, hmant]
  · rw [hpack, unpackExponent_packComponents, hexp]
    omega

/-- Every mantissa that is unpacked has the bits of the format. -/
theorem mantissa_lt {b : BitVec F.numBits} {s : Sign} {m : Nat} {e : Int} {hm : 0 < m}
    (h : unpack F b = .finite s m e hm) : m < 2 ^ F.mantissaBits := by
  have hbits : 2 ^ F.mantissaBits = 2 * 2 ^ F.mantissaBitsWithoutImplicit := by
    rw [mantissaBits_eq, Nat.pow_succ']
  have hlt := (unpackMantissa b).isLt
  by_cases hmax : unpackExponent b = -1#_
  · rcases unpack_reserved hmax with hb | hb
    · rw [hb] at h; cases h
    · rw [hb] at h; cases h
  · by_cases hzero : unpackExponent b = 0#_
    · by_cases hmant : unpackMantissa b = 0#_
      · rw [unpack_signedZero hmax hzero hmant] at h
        cases h
      · obtain ⟨_, hb⟩ := unpack_subnormal hmax hzero hmant
        obtain ⟨_, rfl, _⟩ := UnpackedFloat.finite.inj (hb.symm.trans h)
        omega
    · obtain ⟨_, hb⟩ := unpack_normal hmax hzero
      obtain ⟨_, rfl, _⟩ := UnpackedFloat.finite.inj (hb.symm.trans h)
      rw [toNat_implicit]
      omega

/-- **Whatever is cut down to an integer gives one that fits.** -/
theorem fits_of_trunc {b : BitVec F.numBits} {n : Int} (h : trunc (unpack F b) = some n) :
    Fits F.mantissaBits n.natAbs := by
  cases hb : unpack F b with
  | infinity s => rw [hb] at h; exact nomatch h
  | notANumber => rw [hb] at h; exact nomatch h
  | zero s =>
      rw [hb] at h
      obtain rfl := Option.some.inj h
      exact fits_of_lt (Nat.two_pow_pos _)
  | finite s m e hm =>
      rw [hb] at h
      obtain rfl := Option.some.inj h
      exact fits_roundToInt (mantissa_lt hb)

end Bits

/-! ## Integers in a format -/

section Integers

variable {F : Format}

/-- The number a format has for an integer. -/
def fromInt (F : Format) (n : Int) : BitVec F.numBits :=
  pack F (ofInt F n)

theorem unpack_zero (hbias : 0 < F.exponentBias) :
    unpack F (fromInt F 0) = .zero .positive := by
  have hpow := two_pow_exponentBits (F := F)
  have hmax : (0 : BitVec F.exponentBits) ≠ -1#_ := by
    intro h
    have := congrArg BitVec.toNat h
    rw [BitVec.neg_one_eq_allOnes, BitVec.toNat_allOnes] at this
    simp at this
    omega
  have hpack : fromInt F 0 = packComponents F .positive 0 0 := rfl
  have hsign : Sign.ofBitVec (unpackSign (fromInt F 0)) = .positive := by
    rw [hpack, unpackSign_packComponents, ofBitVec_toBitVec]
  rw [← hsign]
  refine unpack_signedZero ?_ ?_ ?_
  · rwa [hpack, unpackExponent_packComponents]
  · rw [hpack, unpackExponent_packComponents]; rfl
  · rw [hpack, unpackMantissa_packComponents]; rfl

/-- **An integer that fits is represented exactly.** -/
theorem value_fromInt (hbias : 0 < F.exponentBias) {n : Int}
    (hfit : Fits F.mantissaBits n.natAbs) (hlog : n.natAbs.log2 ≤ F.exponentBias) :
    value (unpack F (fromInt F n)) = some (n : ℚ) := by
  rcases eq_or_ne n 0 with rfl | hn
  · rw [unpack_zero hbias]
    rw [value_zero, Int.cast_zero]
  · obtain ⟨s, m, hm, heq, hbits, hval⟩ := value_ofInt hbias hn hfit
    have hmb := mantissaBits_eq (F := F)
    rw [← hval, fromInt, heq, unpack_pack_normal hbits (by omega) (by omega)]

/-- **An integer comes back from a format exactly if it fits.** -/
theorem trunc_fromInt_iff (hbias : 0 < F.exponentBias) {n : Int}
    (hlog : n.natAbs.log2 ≤ F.exponentBias) :
    trunc (unpack F (fromInt F n)) = some n ↔ Fits F.mantissaBits n.natAbs :=
  ⟨fits_of_trunc, fun hfit => trunc_of_value (value_fromInt hbias hfit hlog)⟩

/-! ## Rounding to the nearest -/

/-- No finite number of the format is closer to `q`. -/
def Nearest (b : BitVec F.numBits) (q : ℚ) : Prop :=
  ∃ v, value (unpack F b) = some v
    ∧ ∀ b' v', value (unpack F b') = some v' → |q - v| ≤ |q - v'|

theorem nearest_of_value {b : BitVec F.numBits} {q : ℚ} (h : value (unpack F b) = some q) :
    Nearest b q := by
  refine ⟨q, h, fun b' v' _ => ?_⟩
  rw [sub_self, abs_zero]
  exact abs_nonneg _

/-- **The nearest number to an integer that fits is the integer.** -/
theorem value_of_nearest (hbias : 0 < F.exponentBias) {b : BitVec F.numBits} {n : Int}
    (hfit : Fits F.mantissaBits n.natAbs) (hlog : n.natAbs.log2 ≤ F.exponentBias)
    (h : Nearest b (n : ℚ)) : value (unpack F b) = some (n : ℚ) := by
  obtain ⟨v, hv, hmin⟩ := h
  have hle := hmin _ _ (value_fromInt hbias hfit hlog)
  rw [sub_self, abs_zero] at hle
  have hzero := abs_eq_zero.mp (le_antisymm hle (abs_nonneg _))
  rw [hv, sub_eq_zero.mp hzero]

end Integers

end BinaryFloat
