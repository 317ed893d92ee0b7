import Mathlib.Data.Nat.Log
import SimpleSSD.Data.BitField

namespace SimpleSSD.Util

open Data

def clzl (v : UInt64) : Nat := 63 - v.toNat.log2

def ffsl (v : UInt64) : Nat :=
  if v = 0 then 0 else (List.range 64).findIdx v.toNat.testBit + 1

def generateMask (val count : UInt32) : UInt64 × UInt32 :=
  let tmp :=
    if val > 0 then
      let shift := clzl val.toUInt64
      64 - (if shift + ffsl val.toUInt64 = 64 then shift + 1 else shift)
    else 0
  let mask := (0xFFFFFFFFFFFFFFFF : UInt64) <<< UInt64.ofNat tmp
  ((~~~mask) <<< count.toUInt64, count + UInt32.ofNat tmp)

def width (val : Nat) : Nat :=
  if 2 ^ val.log2 = val then val.log2 else val.log2 + 1

theorem le_two_pow_width (val : Nat) : val ≤ 2 ^ width val := by
  simp only [width]
  split
  · next exact => exact Nat.le_of_eq exact.symm
  · exact Nat.le_of_lt Nat.lt_log2_self

theorem width_eq_iff {val : Nat} :
    2 ^ width val = val ↔ ∃ bits, val = 2 ^ bits := by
  constructor
  · intro same
    exact ⟨_, same.symm⟩
  · intro power
    obtain ⟨bits, rfl⟩ := power
    simp only [width, Nat.log2_two_pow, if_true]

theorem findIdx_testBit {val bits : Nat} (inside : bits < 64)
    (set : val.testBit bits = true)
    (clear : ∀ lower, lower < bits → val.testBit lower = false) :
    (List.range 64).findIdx val.testBit = bits := by
  rw [List.findIdx_eq (by simpa using inside)]
  constructor
  · simpa using set
  · intro lower below
    simpa using clear lower below

/-- The lowest bit is the highest one if the number is a power of two. -/
theorem findIdx_eq_log2_iff {val : Nat} (small : val < 2 ^ 64)
    (some : val ≠ 0) :
    (List.range 64).findIdx val.testBit = val.log2 ↔ 2 ^ val.log2 = val := by
  have inside := (Nat.log2_lt some).mpr small
  constructor
  · intro first
    apply Nat.eq_of_testBit_eq
    intro index
    rw [Nat.testBit_two_pow]
    rcases Nat.lt_trichotomy index val.log2 with lower | here | higher
    · have clear := List.not_of_lt_findIdx (first ▸ lower)
      simp only [List.getElem_range] at clear
      rw [clear]
      exact decide_eq_false (by omega)
    · rw [here, Nat.testBit_log2 some]
      exact decide_eq_true rfl
    · rw [Nat.testBit_lt_two_pow (Nat.lt_of_lt_of_le Nat.lt_log2_self
        (Nat.pow_le_pow_right (by decide) higher))]
      exact decide_eq_false (by omega)
  · intro exact
    apply findIdx_testBit inside (Nat.testBit_log2 some)
    intro lower below
    rw [← exact, Nat.testBit_two_pow]
    exact decide_eq_false (by omega)

theorem width_eq {val : UInt32} (some : val > 0) :
    64 - (if clzl val.toUInt64 + ffsl val.toUInt64 = 64 then
      clzl val.toUInt64 + 1 else clzl val.toUInt64) = width val.toNat := by
  have positive : val.toNat ≠ 0 := by
    have := UInt32.lt_iff_toNat_lt.mp some
    simpa using Nat.ne_of_gt this
  have small : val.toNat < 2 ^ 64 :=
    Nat.lt_trans val.toNat_lt (by decide)
  have inside := (Nat.log2_lt positive).mpr small
  have nonzero : val.toUInt64 ≠ 0 := by
    intro zero
    apply positive
    rw [← UInt32.toNat_toUInt64, zero, UInt64.toNat_zero]
  have same := findIdx_eq_log2_iff small positive
  simp only [clzl, ffsl, UInt32.toNat_toUInt64, if_neg nonzero, width]
  split
  · next equal =>
      rw [if_pos (same.mp (by omega))]
      omega
  · next different =>
      rw [if_neg (fun exact => different (by rw [same.mpr exact]; omega))]
      omega

theorem toNat_ones (bits : Nat) (small : bits < 64) :
    (~~~((0xFFFFFFFFFFFFFFFF : UInt64) <<< UInt64.ofNat bits)).toNat =
      2 ^ bits - 1 := by
  have positive : 0 < 2 ^ bits := Nat.two_pow_pos bits
  have bound : 2 ^ bits < 2 ^ 64 := Nat.pow_lt_pow_right (by decide) small
  have amount : (UInt64.ofNat bits).toNat % 64 = bits := by
    rw [UInt64.toNat_ofNat']
    omega
  have shifted : (2 ^ 64 - 1) <<< bits % 2 ^ 64 = 2 ^ 64 - 2 ^ bits := by
    have parts : (2 ^ 64 - 1) * 2 ^ bits =
        2 ^ 64 - 2 ^ bits + 2 ^ 64 * (2 ^ bits - 1) := by
      rw [Nat.sub_mul, Nat.mul_sub, Nat.mul_one, Nat.one_mul]
      omega
    rw [Nat.shiftLeft_eq, parts, Nat.add_mul_mod_self_left,
      Nat.mod_eq_of_lt (by omega)]
  rw [UInt64.toNat_not, UInt64.toNat_shiftLeft, amount]
  change 2 ^ 64 - 1 - (2 ^ 64 - 1) <<< bits % 2 ^ 64 = _
  rw [shifted]
  omega

theorem generateMask_eq {val count : UInt32}
    (fits : count.toNat + width val.toNat < 64) (some : val > 0) :
    (generateMask val count).1.toNat =
        BitField.mask count.toNat (width val.toNat) ∧
      (generateMask val count).2.toNat =
        count.toNat + width val.toNat := by
  have bound : 2 ^ (count.toNat + width val.toNat) < 2 ^ 64 :=
    Nat.pow_lt_pow_right (by decide) fits
  have positive := Nat.two_pow_pos count.toNat
  simp only [generateMask]
  rw [if_pos some, width_eq some]
  constructor
  · rw [UInt64.toNat_shiftLeft, toNat_ones _ (by omega),
      UInt32.toNat_toUInt64, Nat.mod_eq_of_lt (by omega : count.toNat < 64),
      BitField.mask, Nat.shiftLeft_eq, Nat.mod_eq_of_lt]
    rw [Nat.sub_mul, Nat.one_mul, ← Nat.pow_add, Nat.add_comm]
    omega
  · rw [UInt32.toNat_add, UInt32.toNat_ofNat',
      Nat.mod_eq_of_lt (by omega : width val.toNat < 2 ^ 32),
      Nat.mod_eq_of_lt (by omega)]

end SimpleSSD.Util
