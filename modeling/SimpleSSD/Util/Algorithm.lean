import Mathlib.Algebra.Ring.Nat
import Mathlib.Tactic.Common

namespace SimpleSSD.Util

/-- `DIVCEIL`, on operands of type `uint64_t`. -/
def divCeil (x y : UInt64) : UInt64 := (x - 1) / y + 1

theorem divCeil_toNat {x : UInt64} (hx : x ≠ 0) (y : UInt64) :
    (divCeil x y).toNat = (x.toNat - 1) / y.toNat + 1 := by
  have hpos : 1 ≤ x.toNat := by
    rw [Nat.one_le_iff_ne_zero]
    intro hzero
    exact hx (UInt64.toNat_inj.mp hzero)
  have hle : (1 : UInt64) ≤ x := UInt64.le_iff_toNat_le.mpr hpos
  have hbound : (x.toNat - 1) / y.toNat ≤ x.toNat - 1 := Nat.div_le_self _ _
  have hlt := x.toNat_lt
  unfold divCeil
  rw [UInt64.toNat_add, UInt64.toNat_div, UInt64.toNat_sub_of_le _ _ hle]
  apply Nat.mod_eq_of_lt
  change (x.toNat - 1) / y.toNat + 1 < 2 ^ 64
  omega

theorem divCeil_spec {x y : UInt64} (hx : x ≠ 0) (hy : y ≠ 0) :
    ∃ units, (divCeil x y).toNat = units + 1 ∧
      units * y.toNat < x.toNat ∧ x.toNat ≤ (units + 1) * y.toNat := by
  have hxpos : x.toNat ≠ 0 := fun hzero => hx (UInt64.toNat_inj.mp hzero)
  have hypos : 0 < y.toNat :=
    Nat.pos_of_ne_zero fun hzero => hy (UInt64.toNat_inj.mp hzero)
  refine ⟨_, divCeil_toNat hx y, ?_, ?_⟩
  · have hle := Nat.div_mul_le_self (x.toNat - 1) y.toNat
    omega
  · have hlt := Nat.lt_mul_of_div_lt
      (Nat.lt_add_one ((x.toNat - 1) / y.toNat)) hypos
    omega

/-- Whole units, from the one with the first byte on, hold a range when they
have room for what stands before it in that unit. -/
theorem blocks_cover {offset length unit blocks : Nat} (hlength : length ≠ 0) :
    (∀ byte, offset ≤ byte → byte < offset + length →
        offset / unit * unit ≤ byte ∧ byte < (offset / unit + blocks) * unit) ↔
      offset % unit + length ≤ blocks * unit := by
  have hsplit := Nat.div_add_mod' offset unit
  constructor
  · intro hcovers
    have hlast := (hcovers (offset + length - 1) (by omega) (by omega)).2
    rw [Nat.add_mul] at hlast
    omega
  · intro hroom byte hfirst hlast
    rw [Nat.add_mul]
    omega

end SimpleSSD.Util
