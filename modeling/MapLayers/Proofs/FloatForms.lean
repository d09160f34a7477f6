import Mathlib
import MapLayers.Numeric.Number
import MapLayers.Proofs.Rounding

/-!
# The forms of floating-point numbers

A stored number unpacks to a sign, a significand and an exponent. These forms are canonical, packing them
gives the number back, and the rational that they denote is the one read off the fields of the word.
-/

namespace MapLayers.Binary64

open Float.Model (Format UnpackedFloat)
open Float.Model.UnpackedFloat

/-- The rational number that an unpacked number denotes. -/
def ratOf? : UnpackedFloat → Option Rat
  | .zero _ => some 0
  | .finite s m e _ => some (s.apply m * 2 ^ e)
  | .infinity _ | .notANumber => none

/-- A mantissa with the exponent of its last place. -/
structure InPlace (m : Nat) (e : Int) : Prop where
  bits : m < 2 ^ 53
  low : -1074 ≤ e
  lead : 2 ^ 52 ≤ m ∨ e = -1074

/-- What a stored number unpacks to. -/
inductive Canonical : UnpackedFloat → Prop where
  | notANumber : Canonical .notANumber
  | infinity (s : Sign) : Canonical (.infinity s)
  | zero (s : Sign) : Canonical (.zero s)
  | finite (s : Sign) (m : Nat) (e : Int) (hpos : 0 < m) (hplace : InPlace m e) (hhigh : e ≤ 971) :
      Canonical (.finite s m e hpos)

section Fields

variable (b : BitVec Format.binary64.numBits)

theorem toNat_unpackMantissa : (unpackMantissa b).toNat = b.toNat % leadingBit := by
  simp [unpackMantissa, leadingBit]

theorem toNat_unpackExponent : (unpackExponent b).toNat = b.toNat / leadingBit % 2048 := by
  simp [unpackExponent, leadingBit, Nat.shiftRight_eq_div_pow]

theorem toNat_unpackSign : (unpackSign b).toNat = b.toNat / 9223372036854775808 := by
  have hb : b.toNat < 2 ^ 64 := b.isLt
  simp [unpackSign, Nat.shiftRight_eq_div_pow]
  omega

end Fields

theorem toNat_lead (m : BitVec 52) : (1#1 ++ m).toNat = leadingBit + m.toNat := by
  rw [BitVec.toNat_append, ← Nat.shiftLeft_add_eq_or_of_lt m.isLt]
  rfl

theorem canonical_unpack (b : BitVec Format.binary64.numBits) :
    Canonical (UnpackedFloat.unpack .binary64 b) := by
  have hmantissa := (unpackMantissa b).isLt
  have hexponent := (unpackExponent b).isLt
  have hbias : (Format.binary64.exponentBias : Int) = 1023 := rfl
  unfold UnpackedFloat.unpack
  dsimp only at hmantissa hexponent ⊢
  split_ifs with hlast hzero hfirst hzero'
  · exact .infinity _
  · exact .notANumber
  · exact .zero _
  · rw [hfirst]
    refine .finite _ _ _ _ ⟨by omega, ?_, .inr ?_⟩ ?_ <;> simp [hbias]
  · have hlast' : (unpackExponent b).toNat ≠ 2047 := fun h => hlast (BitVec.toNat_inj.mp h)
    have hfirst' : (unpackExponent b).toNat ≠ 0 := fun h => hfirst (BitVec.toNat_inj.mp h)
    have hlead := toNat_lead (unpackMantissa b)
    unfold leadingBit at hlead
    refine .finite _ _ _ _ ⟨by omega, ?_, .inl (by omega)⟩ ?_ <;>
    · simp only [hbias]
      omega

/-- The form that a stored number unpacks to. -/
theorem canonical (x : Float) : Canonical x.toModel.unpack := canonical_unpack _

theorem sign_packComponents (s : Sign) (e : BitVec 11) (m : BitVec 52) :
    Sign.ofBitVec (unpackSign (packComponents .binary64 s e m)) = s := by
  simp only [unpackSign, packComponents, BitVec.extractLsb]
  rw [BitVec.extractLsb'_append_eq_of_le (by omega),
    BitVec.extractLsb'_append_eq_of_le (by omega)]
  cases s <;> rfl

/-- A canonical form is stored as it is. -/
theorem unpack_pack {u : UnpackedFloat} (h : Canonical u) : (Float.Model.pack u).unpack = u := by
  change UnpackedFloat.unpack .binary64 (UnpackedFloat.pack .binary64 u) = u
  have hbias : (Format.binary64.exponentBias : Int) = 1023 := rfl
  cases h with
  | notANumber => rfl
  | infinity s => cases s <;> rfl
  | zero s => cases s <;> rfl
  | finite s m e hpos hplace hhigh =>
    obtain ⟨hbits, hlow, hlead⟩ := hplace
    have hstored : (e + Format.binary64.exponentBias + Format.binary64.mantissaBitsWithoutImplicit).toNat
        = (e + 1075).toNat := by
      simp only [hbias]
      omega
    unfold UnpackedFloat.pack
    simp only [hstored]
    rw [if_neg (by simp; omega)]
    split_ifs with hnormal
    · have hlog : m.log2 = 52 := by
        have : Format.binary64.mantissaBits = 53 := rfl
        omega
      have hm := (Nat.log2_eq_iff (by omega)).mp hlog
      unfold UnpackedFloat.unpack
      simp only [unpackMantissa_packComponents, unpackExponent_packComponents, sign_packComponents]
      have hexponent : (BitVec.ofNat 11 (e + 1075).toNat).toNat = (e + 1075).toNat := by
        rw [BitVec.toNat_ofNat]
        omega
      have hmantissa : (1#1 ++ BitVec.ofNat 52 m).toNat = m := by
        rw [toNat_lead, BitVec.toNat_ofNat, leadingBit]
        omega
      rw [if_neg, if_neg]
      · simp only [hexponent, hmantissa, hbias]
        congr 1
        omega
      · rw [← BitVec.toNat_inj, hexponent]
        simp
        omega
      · rw [← BitVec.toNat_inj, hexponent]
        simp
        omega
    · have hlog : m.log2 ≠ 52 := by
        have : Format.binary64.mantissaBits = 53 := rfl
        omega
      have hm : m < 2 ^ 52 := by
        rw [ne_eq, Nat.log2_eq_iff (by omega)] at hlog
        omega
      unfold UnpackedFloat.unpack
      simp only [unpackMantissa_packComponents, unpackExponent_packComponents, sign_packComponents]
      have hmantissa : (BitVec.ofNat 52 m).toNat = m := by
        rw [BitVec.toNat_ofNat]
        omega
      rw [if_neg (by decide), if_pos trivial, dif_neg]
      · simp only [hmantissa, hbias]
        congr 1
        simp
        omega
      · rw [← BitVec.toNat_inj, hmantissa]
        simp
        omega

theorem exponentField_eq (x : Float) :
    exponentField x = (@unpackExponent Format.binary64 x.toModel.toBits.toBitVec).toNat :=
  (toNat_unpackExponent _).symm

theorem fractionField_eq (x : Float) :
    fractionField x = (@unpackMantissa Format.binary64 x.toModel.toBits.toBitVec).toNat :=
  (toNat_unpackMantissa _).symm

theorem signBit_eq (x : Float) : signBit x =
    decide ((@unpackSign Format.binary64 x.toModel.toBits.toBitVec).toNat = 1) :=
  congrArg (fun n => decide (n = 1)) (toNat_unpackSign _).symm

/-- The number that the fields of a word denote. -/
def ratOfFields? (sign exponent fraction : Nat) : Option Rat :=
  if exponent = 2047 then none
  else
    let magnitude : Rat :=
      if exponent = 0 then fraction * 2 ^ (-1074 : Int)
      else (leadingBit + fraction : Nat) * 2 ^ ((exponent : Int) - 1075)
    some (if sign = 1 then -magnitude else magnitude)

theorem value?_eq_ratOfFields? (x : Float) : value? x =
    ratOfFields? (@unpackSign Format.binary64 x.toModel.toBits.toBitVec).toNat
      (exponentField x) (fractionField x) := by
  unfold value? isFinite magnitude significand ratOfFields?
  rw [signBit_eq]
  by_cases hlast : exponentField x = 2047
  · simp [hlast]
  · by_cases hfirst : exponentField x = 0 <;> simp [hlast, hfirst]

theorem ratOf?_unpack (b : BitVec Format.binary64.numBits) :
    ratOf? (UnpackedFloat.unpack .binary64 b) =
      ratOfFields? (unpackSign b).toNat (unpackExponent b).toNat (unpackMantissa b).toNat := by
  have hbias : (Format.binary64.exponentBias : Int) = 1023 := rfl
  have hsign (m : Nat) : (((Sign.ofBitVec (unpackSign b)).apply m : Int) : Rat) =
      if (unpackSign b).toNat = 1 then -(m : Rat) else m := by
    rcases BitVec.eq_zero_or_eq_one (unpackSign b) with h | h <;>
      simp [h, Sign.ofBitVec, Sign.apply]
  unfold UnpackedFloat.unpack ratOfFields?
  dsimp only
  by_cases hlast : unpackExponent b = -1#11
  · have hfield : (unpackExponent b).toNat = 2047 := congrArg BitVec.toNat hlast
    rw [if_pos hlast, if_pos hfield]
    split_ifs <;> rfl
  have hlast' : (unpackExponent b).toNat ≠ 2047 := fun h => hlast (BitVec.toNat_inj.mp h)
  rw [if_neg hlast, if_neg hlast']
  by_cases hfirst : unpackExponent b = 0#11
  · have hfield : (unpackExponent b).toNat = 0 := congrArg BitVec.toNat hfirst
    rw [if_pos hfirst, if_pos hfield]
    split_ifs with hzero hsigned hsigned
    · simp [hzero, ratOf?]
    · simp [hzero, ratOf?]
    · simp [ratOf?, hsign, hsigned, hfield, hbias]
    · simp [ratOf?, hsign, hsigned, hfield, hbias]
  · have hfield : (unpackExponent b).toNat ≠ 0 := fun h => hfirst (BitVec.toNat_inj.mp h)
    rw [if_neg hfirst, if_neg hfield]
    simp only [ratOf?, hsign, toNat_lead, hbias]
    split_ifs
    · exact congrArg some (neg_mul _ _)
    · rfl

theorem value?_eq (x : Float) : value? x = ratOf? x.toModel.unpack := by
  rw [value?_eq_ratOfFields?, exponentField_eq, fractionField_eq]
  exact (ratOf?_unpack _).symm

end MapLayers.Binary64
