import Mathlib.Algebra.Ring.Nat
import Mathlib.Tactic.Common

namespace SimpleSSD.Data.BigEndian

/-! Numbers in bytes, the most significant first. -/

def bytes : (width number : Nat) → List UInt8
  | 0, _ => []
  | width + 1, number => bytes width (number / 256) ++ [UInt8.ofNat number]

def value (row : List UInt8) : Nat :=
  row.foldl (fun number byte => 256 * number + byte.toNat) 0

@[simp] theorem length_bytes (width number : Nat) :
    (bytes width number).length = width := by
  induction width generalizing number with
  | zero => rfl
  | succ width induction => simp [bytes, induction]

theorem value_concat (row : List UInt8) (byte : UInt8) :
    value (row ++ [byte]) = 256 * value row + byte.toNat := by
  simp [value]

theorem value_bytes (width number : Nat) :
    value (bytes width number) = number % 256 ^ width := by
  induction width generalizing number with
  | zero => simp [bytes, value, Nat.mod_one]
  | succ width induction =>
      have last : (UInt8.ofNat number).toNat = number % 256 := by simp
      rw [bytes, value_concat, induction, last, Nat.pow_succ', Nat.mod_mul,
        Nat.add_comm]

theorem value_bytes_of_lt {width number : Nat} (fits : number < 256 ^ width) :
    value (bytes width number) = number := by
  rw [value_bytes, Nat.mod_eq_of_lt fits]

end SimpleSSD.Data.BigEndian
