import Mathlib
import ScriptBridge.Number.Binary

/-!
# The bits of doubles

A word of 64 bits that is not a NaN is a double with those bits, so the fields that `write` and
`infinity` put together are the fields that `read` finds.
-/

namespace ScriptBridge.Number

open Float.Model.UnpackedFloat (pack unpack packComponents unpackSign unpackExponent
  unpackMantissa Sign)

/-- The 64 bits of a double. -/
abbrev Word : Type :=
  BitVec Float.Model.Format.binary64.numBits

lemma toBitVec_ofBitVec (s : BitVec 1) : (Sign.ofBitVec s).toBitVec = s := by
  revert s
  decide

/-- Splitting a word into its fields loses nothing. -/
lemma word_of_fields (b : Word) :
    packComponents .binary64 (.ofBitVec (unpackSign b)) (unpackExponent b) (unpackMantissa b)
      = b := by
  unfold packComponents unpackExponent unpackMantissa
  rw [toBitVec_ofBitVec]
  unfold unpackSign
  apply BitVec.eq_of_getElem_eq
  intro i hi
  simp only [BitVec.extractLsb]
  grind

lemma pack_subnormal (s : Sign) (f : BitVec 52) (e : Int) (he : e = -1074) (hf : 0 < f.toNat) :
    pack .binary64 (.finite s f.toNat e hf) = packComponents .binary64 s 0#11 f := by
  have small : f.toNat.log2 < 52 := (Nat.log2_lt (by omega)).2 f.isLt
  have bias : Float.Model.Format.binary64.exponentBias = 1023 := rfl
  have bits : Float.Model.Format.binary64.mantissaBits = 53 := rfl
  simp only [pack, he, bias, bits]
  rw [if_neg (by decide), if_neg (by omega), BitVec.ofNat_toNat, BitVec.setWidth_eq]

lemma pack_normal (s : Sign) (k : BitVec 11) (f : BitVec 52) (e : Int)
    (he : e = (k.toNat : Int) - (1023 + 52)) (hk : k ≠ -1#11) (hf : 0 < (1#1 ++ f).toNat) :
    pack .binary64 (.finite s (1#1 ++ f).toNat e hf) = packComponents .binary64 s k f := by
  have small := f.isLt
  have top : k.toNat + 1 < 2 ^ 11 := by
    have := k.isLt
    have : k.toNat ≠ 2047 := fun h => hk (BitVec.eq_of_toNat_eq h)
    omega
  have value : (1#1 ++ f).toNat = 2 ^ 52 + f.toNat := by
    rw [BitVec.toNat_append, ← Nat.shiftLeft_add_eq_or_of_lt small]
    rfl
  have log : (2 ^ 52 + f.toNat).log2 = 52 := by
    rw [Nat.log2_eq_iff (by omega)]
    omega
  have bias : Float.Model.Format.binary64.exponentBias = 1023 := rfl
  have bits : Float.Model.Format.binary64.mantissaBits = 53 := rfl
  have biased : (e + (1023 : Nat) + (52 : Nat)).toNat = k.toNat := by omega
  simp only [pack, value, bias, bits, biased, log]
  rw [if_neg (by omega), if_pos trivial]
  congr 1
  · simp
  · apply BitVec.eq_of_toNat_eq
    rw [BitVec.toNat_ofNat]
    omega

theorem pack_unpack (b : Word) (h : unpackExponent b ≠ (-1#11) ∨ unpackMantissa b = 0#52) :
    pack .binary64 (unpack .binary64 b) = b := by
  have fields := word_of_fields b
  unfold unpack
  by_cases top : unpackExponent b = (-1#11)
  · have zero : unpackMantissa b = 0#52 := by simpa [top] using h
    simp only [top, zero, if_true]
    rw [top, zero] at fields
    exact fields
  · by_cases bottom : unpackExponent b = 0#11
    · by_cases zero : unpackMantissa b = 0#52
      · simp only [bottom, zero]
        rw [bottom, zero] at fields
        exact fields
      · simp only [bottom, zero, if_true, dite_false]
        rw [bottom] at fields
        rw [if_neg (by decide)]
        exact (pack_subnormal _ _ _ rfl _).trans fields
    · simp only [bottom, top, if_false]
      exact (pack_normal _ _ _ _ rfl top _).trans fields

lemma toNat_unpackExponent (b : Word) :
    (unpackExponent b).toNat = b.toNat / 2 ^ 52 % 2 ^ 11 := by
  simp [unpackExponent, BitVec.extractLsb, Nat.shiftRight_eq_div_pow]

lemma toNat_unpackMantissa (b : Word) : (unpackMantissa b).toNat = b.toNat % 2 ^ 52 := by
  simp [unpackMantissa, BitVec.extractLsb]

/-- A word that is not a NaN is kept as the bits of a double. -/
theorem toBits_ofBits (w : Nat) (hw : w < 2 ^ 64)
    (h : w / 2 ^ 52 % 2 ^ 11 ≠ 2 ^ 11 - 1 ∨ w % 2 ^ 52 = 0) :
    (Float.ofBits (UInt64.ofNat w)).toBits.toNat = w := by
  have same : (BitVec.ofNat 64 w).toNat = w := by
    rw [BitVec.toNat_ofNat, Nat.mod_eq_of_lt hw]
  show (pack .binary64 (unpack .binary64 (BitVec.ofNat 64 w))).toNat = w
  rw [pack_unpack, same]
  rcases h with h | h
  · refine Or.inl fun top => h ?_
    rw [← same, ← toNat_unpackExponent (BitVec.ofNat 64 w), top]
    rfl
  · refine Or.inr (BitVec.eq_of_toNat_eq ?_)
    rw [toNat_unpackMantissa, same, h]
    rfl

lemma twoTo_eq (n : Nat) : twoTo n = 2 ^ n :=
  rfl

/-- Sign, exponent field and fraction are read back. -/
lemma read_fields (negative : Bool) (field fraction : Nat) (hfield : field < 2 ^ 11 - 1)
    (hfraction : fraction < 2 ^ 52) :
    read (Float.ofBits
        (UInt64.ofNat ((if negative then 2 ^ 63 else 0) + field * 2 ^ 52 + fraction)))
      = if field = 0 then .finite negative fraction (-1074)
        else .finite negative (fraction + 2 ^ 52) ((field : Int) - 1075) := by
  obtain ⟨sign, hsign, word⟩ : ∃ sign < 2, (if negative then 2 ^ 63 else 0) = sign * 2 ^ 63 ∧
      negative = decide (sign = 1) := by
    cases negative
    · exact ⟨0, by decide, by decide, by decide⟩
    · exact ⟨1, by decide, by decide, by decide⟩
  have bits := toBits_ofBits ((if negative then 2 ^ 63 else 0) + field * 2 ^ 52 + fraction)
    (by omega) (Or.inl (by omega))
  simp only [read, bits, twoTo_eq]
  rw [word.1]
  have top : (sign * 2 ^ 63 + field * 2 ^ 52 + fraction) / 2 ^ 63 = sign := by omega
  have middle : (sign * 2 ^ 63 + field * 2 ^ 52 + fraction) / 2 ^ 52 % 2 ^ 11 = field := by omega
  have low : (sign * 2 ^ 63 + field * 2 ^ 52 + fraction) % 2 ^ 52 = fraction := by omega
  rw [top, middle, low, if_neg (by omega), ← word.2]

lemma read_infinity (negative : Bool) : read (infinity negative) = .infinite negative := by
  have bits := toBits_ofBits ((if negative then 2 ^ 63 else 0) + (2 ^ 11 - 1) * 2 ^ 52)
    (by cases negative <;> decide) (Or.inr (by cases negative <;> decide))
  simp only [read, infinity, twoTo_eq, bits]
  cases negative <;> decide

end ScriptBridge.Number
