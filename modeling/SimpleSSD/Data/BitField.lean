import Mathlib.Data.Nat.Bitwise
import Mathlib.Tactic.Common

namespace SimpleSSD.Data.BitField

/-! Fields of neighbouring bits in a number. -/

def mask (first bits : Nat) : Nat := (2 ^ bits - 1) <<< first

def get (first bits word : Nat) : Nat := (word &&& mask first bits) >>> first

/-- A word with the number in the field, as far as it fits. -/
def put (first bits number : Nat) : Nat :=
  (number <<< first) &&& mask first bits

theorem testBit_mask (first bits index : Nat) :
    (mask first bits).testBit index =
      (decide (first ≤ index) && decide (index - first < bits)) := by
  simp only [mask, Nat.testBit_shiftLeft, Nat.testBit_two_pow_sub_one]

theorem testBit_get (first bits word index : Nat) :
    (get first bits word).testBit index =
      (decide (index < bits) && word.testBit (first + index)) := by
  simp only [get, Nat.testBit_shiftRight, Nat.testBit_and, testBit_mask,
    Nat.add_sub_cancel_left, Nat.le_add_right, decide_true, Bool.true_and]
  exact Bool.and_comm _ _

theorem testBit_put (first bits number index : Nat) :
    (put first bits number).testBit index =
      (decide (first ≤ index) && decide (index - first < bits) &&
        number.testBit (index - first)) := by
  simp only [put, Nat.testBit_and, testBit_mask, Nat.testBit_shiftLeft]
  cases decide (first ≤ index) <;>
    cases number.testBit (index - first) <;> simp

theorem get_lt (first bits word : Nat) : get first bits word < 2 ^ bits := by
  apply Nat.lt_pow_two_of_testBit
  intro index high
  rw [testBit_get, decide_eq_false (Nat.not_lt.mpr high), Bool.false_and]

theorem get_or (first bits left right : Nat) :
    get first bits (left ||| right) =
      get first bits left ||| get first bits right := by
  apply Nat.eq_of_testBit_eq
  intro index
  simp only [testBit_get, Nat.testBit_or, Bool.and_or_distrib_left]

theorem get_put_self {first bits number : Nat} (fits : number < 2 ^ bits) :
    get first bits (put first bits number) = number := by
  apply Nat.eq_of_testBit_eq
  intro index
  simp only [testBit_get, testBit_put, Nat.le_add_right, decide_true,
    Nat.add_sub_cancel_left, Bool.true_and]
  rcases Nat.lt_or_ge index bits with low | high
  · simp [low]
  · have clear : number.testBit index = false :=
      Nat.testBit_lt_two_pow
        (Nat.lt_of_lt_of_le fits (Nat.pow_le_pow_right (by decide) high))
    rw [clear]
    simp

theorem get_put_apart {first bits other width number : Nat}
    (apart : first + bits ≤ other ∨ other + width ≤ first) :
    get first bits (put other width number) = 0 := by
  apply Nat.eq_of_testBit_eq
  intro index
  rw [testBit_get, testBit_put, Nat.zero_testBit]
  rcases Nat.lt_or_ge index bits with low | high
  · have outside : (decide (other ≤ first + index) &&
        decide (first + index - other < width)) = false := by
      rcases apart with before | behind
      · rw [decide_eq_false (by omega), Bool.false_and]
      · rw [decide_eq_false (show ¬ first + index - other < width by omega),
          Bool.and_false]
    rw [outside]
    simp
  · rw [decide_eq_false (Nat.not_lt.mpr high), Bool.false_and]

end SimpleSSD.Data.BitField
