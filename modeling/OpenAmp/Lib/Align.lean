import Mathlib.Algebra.Group.Nat.Defs
import Mathlib.Tactic.Common

/-!
# Rounding up with a mask

The usual way to round an address up, by a mask made from the alignment.
For a power of two the result is the next multiple. For any other
alignment it is only an address that is not before the first one and not
an alignment behind it, which is what holds in general.
-/

namespace OpenAmp.Lib

/-- `size` rounded up with the mask of `align`. -/
def alignUp (size align : UInt64) : UInt64 :=
  (size + align - 1) &&& ~~~(align - 1)

theorem toNat_and_not (y m : UInt64) :
    (y &&& ~~~m).toNat + (y &&& m).toNat = y.toNat := by
  have hdisj : (y &&& ~~~m).toBitVec &&& (y &&& m).toBitVec = 0#64 := by
    ext i
    simp +contextual
  have hor : (y &&& ~~~m).toBitVec ||| (y &&& m).toBitVec = y.toBitVec := by
    ext i
    simp only [UInt64.toBitVec_and, UInt64.toBitVec_not,
      BitVec.getElem_or, BitVec.getElem_and, BitVec.getElem_not]
    cases y.toBitVec[i] <;> simp
  have h := BitVec.toNat_add_of_and_eq_zero hdisj
  rw [BitVec.add_eq_or_of_and_eq_zero _ _ hdisj, hor] at h
  exact h.symm

/-- **The result lies less than an alignment behind**, whatever the
alignment. -/
theorem alignUp_bounds {size align : UInt64} (ha : 0 < align.toNat)
    (hfit : size.toNat + align.toNat ≤ 2 ^ 64) :
    size.toNat ≤ (alignUp size align).toNat ∧
      (alignUp size align).toNat < size.toNat + align.toNat := by
  have hlt := align.toNat_lt
  have hone : (1 : UInt64).toNat = 1 := rfl
  have hmask : (align - 1).toNat = align.toNat - 1 := by
    rw [UInt64.toNat_sub, hone]
    omega
  have hsum : (size + align - 1).toNat = size.toNat + (align.toNat - 1) := by
    rw [UInt64.toNat_sub, UInt64.toNat_add, hone]
    omega
  have hsplit := toNat_and_not (size + align - 1) (align - 1)
  have hlow : ((size + align - 1) &&& (align - 1)).toNat ≤
      align.toNat - 1 := by
    rw [UInt64.toNat_and, hmask]
    exact Nat.and_le_right
  rw [alignUp]
  omega

/-- Rounding with a power of two gives a multiple of it. -/
theorem alignUp_mod {align : UInt64} {k : Nat} (ha : align.toNat = 2 ^ k)
    (size : UInt64) : (alignUp size align).toNat % 2 ^ k = 0 := by
  have hpos : 0 < 2 ^ k := Nat.pow_pos (by decide)
  have hlt := align.toNat_lt
  have hmask : (align - 1).toNat = 2 ^ k - 1 := by
    rw [UInt64.toNat_sub, show (1 : UInt64).toNat = 1 from rfl]
    omega
  have hsplit := toNat_and_not (size + align - 1) (align - 1)
  rw [UInt64.toNat_and _ (align - 1), hmask,
    Nat.and_two_pow_sub_one_eq_mod] at hsplit
  have hdiv := Nat.div_add_mod (size + align - 1).toNat (2 ^ k)
  have hmul : (alignUp size align).toNat =
      2 ^ k * ((size + align - 1).toNat / 2 ^ k) := by
    rw [alignUp]
    omega
  rw [hmul, Nat.mul_mod_right]

end OpenAmp.Lib
