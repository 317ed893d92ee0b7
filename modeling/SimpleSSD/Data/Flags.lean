import Mathlib.Tactic.Common

namespace SimpleSSD.Data.Flags

/-! A word whose bits are flags. -/

def flag (index : Nat) : UInt32 := 1 <<< UInt32.ofNat index

def Has (word : UInt32) (index : Nat) : Prop :=
  word.toBitVec.getLsbD index = true

variable {word other : UInt32} {index place : Nat}

theorem flag_toBitVec (small : index < 32) :
    (flag index).toBitVec = BitVec.twoPow 32 index := by
  have fits : ((UInt32.ofNat index).toBitVec % 32).toNat = index := by
    rw [BitVec.toNat_umod]
    change index % 4294967296 % 32 = index
    omega
  rw [flag, UInt32.toBitVec_shiftLeft, BitVec.twoPow_eq, BitVec.shiftLeft_eq',
    fits]
  rfl

theorem has_flag (small : index < 32) :
    Has (flag index) place ↔ place = index := by
  rw [Has, flag_toBitVec small, BitVec.getLsbD_twoPow]
  simp [small, eq_comm]

theorem and_flag_ne_zero (small : index < 32) :
    word &&& flag index ≠ 0 ↔ Has word index := by
  rw [ne_eq, ← UInt32.toBitVec_inj, UInt32.toBitVec_and, flag_toBitVec small,
    BitVec.and_twoPow, Has]
  split
  · next has =>
      simp only [has, iff_true]
      intro zero
      have here := congrArg (BitVec.getLsbD · index) zero
      simp [small] at here
  · next none => simp [none]

theorem has_or : Has (word ||| other) index ↔
    Has word index ∨ Has other index := by
  simp [Has, UInt32.toBitVec_or]

theorem has_clear (small : index < 32) :
    Has (word &&& ~~~other) index ↔ Has word index ∧ ¬Has other index := by
  simp [Has, UInt32.toBitVec_and, UInt32.toBitVec_not, small]

theorem not_has_zero (index : Nat) : ¬Has 0 index := by
  simp [Has]

theorem flag_inj (small : index < 32) (fits : place < 32)
    (same : flag index = flag place) : index = place := by
  rw [← has_flag fits, ← same]
  exact (has_flag small).mpr rfl

end SimpleSSD.Data.Flags
