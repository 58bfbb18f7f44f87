import Mathlib.Algebra.Ring.Int.Defs
import Mathlib.Algebra.Ring.Nat

/-!
# Saturating arithmetic on 64-bit words

Subtraction and multiplication that stop at the ends of the range instead of wrapping around, and
the cast of a word to a signed one. Each operation has one lemma that says which number it computes,
and `toNat_min` and `toNat_one_shiftLeft` say it for the operations they are used with.
-/

namespace Library

/-- The difference, or 0 where it would be negative. -/
def saturatingSub (a b : UInt64) : UInt64 := if a ≤ b then 0 else a - b

/-- The product, or the largest word where it does not fit. -/
def saturatingMul (a b : UInt64) : UInt64 :=
  if a.toNat * b.toNat < 2 ^ 64 then a * b else UInt64.ofNat (2 ^ 64 - 1)

variable {a b : UInt64}

@[simp] theorem toNat_saturatingSub : (saturatingSub a b).toNat = a.toNat - b.toNat := by
  unfold saturatingSub
  split
  · rename_i h
    have hle : a.toNat ≤ b.toNat := UInt64.le_iff_toNat_le.mp h
    rw [UInt64.toNat_zero]
    omega
  · rename_i h
    have hle : b ≤ a := UInt64.le_iff_toNat_le.mpr (by
      rw [UInt64.le_iff_toNat_le] at h
      omega)
    exact UInt64.toNat_sub_of_le a b hle

@[simp] theorem toNat_saturatingMul :
    (saturatingMul a b).toNat = min (a.toNat * b.toNat) (2 ^ 64 - 1) := by
  unfold saturatingMul
  split
  · rename_i h
    rw [UInt64.toNat_mul, Nat.mod_eq_of_lt h]
    omega
  · rename_i h
    rw [UInt64.toNat_ofNat']
    omega

theorem toNat_min : (min a b).toNat = min a.toNat b.toNat := by
  show (if a ≤ b then a else b).toNat = _
  split
  · rename_i h
    exact (Nat.min_eq_left (UInt64.le_iff_toNat_le.mp h)).symm
  · rename_i h
    have hle : b.toNat ≤ a.toNat := Nat.le_of_not_le (fun hle => h (UInt64.le_iff_toNat_le.mpr hle))
    exact (Nat.min_eq_right hle).symm

/-- A shift of 1 within the word is a power of two. -/
theorem toNat_one_shiftLeft (h : a.toNat < 64) : ((1 : UInt64) <<< a).toNat = 2 ^ a.toNat := by
  have hfits : 2 ^ a.toNat < 2 ^ 64 := Nat.pow_lt_pow_right (by omega) h
  rw [UInt64.toNat_shiftLeft, Nat.mod_eq_of_lt h, UInt64.toNat_one, Nat.one_shiftLeft,
    Nat.mod_eq_of_lt hfits]

/-- Adding 1 to the word for a number is exact up to the last but one. -/
theorem toNat_ofNat_add_one_iff {n : Nat} :
    (UInt64.ofNat n + 1).toNat = n + 1 ↔ n < 2 ^ 64 - 1 := by
  rw [UInt64.toNat_add, UInt64.toNat_ofNat', UInt64.toNat_one]
  omega

/-- A word cast to a signed one: the upper half of the range becomes negative. -/
theorem toInt_toInt64 (a : UInt64) :
    a.toInt64.toInt = if a.toNat < 2 ^ 63 then (a.toNat : Int) else (a.toNat : Int) - 2 ^ 64 := by
  have hlt : a.toNat < 2 ^ 64 := a.toNat_lt
  rw [← Int64.toInt_toBitVec, UInt64.toBitVec_toInt64, BitVec.toInt_eq_toNat_cond,
    UInt64.toNat_toBitVec]
  split
  · rw [if_pos (by omega)]
  · rw [if_neg (by omega)]
    rfl

end Library
