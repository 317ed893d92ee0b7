import Mathlib.Algebra.Ring.Nat
import Mathlib.Data.List.Basic
import Mathlib.Tactic.Common

namespace SimpleSSD.Ring

/-! Positions in a ring of `size` slots, seen as remainders of positions that
never wrap. -/

def next (size index : Nat) : Nat :=
  if index + 1 = size then 0 else index + 1

/-- Number of slots from `head` up to `tail`. -/
def count (size head tail : Nat) : Nat :=
  if head ≤ tail then tail - head else size - head + tail

/-- The first slots from `head` on, in the order of the ring. -/
def slots (size head : Nat) (amount : Nat) : List Nat :=
  (List.range amount).map fun offset => (head + offset) % size

theorem slots_succ (size head amount : Nat) :
    slots size head (amount + 1) =
      slots size head amount ++ [(head + amount) % size] := by
  simp [slots, List.range_succ]

theorem next_mod {size : Nat} (positive : 0 < size) (position : Nat) :
    next size (position % size) = (position + 1) % size := by
  have inside := Nat.mod_lt position positive
  have carry : (position + 1) % size = (position % size + 1) % size :=
    (Nat.mod_add_mod position size 1).symm
  unfold next
  rw [carry]
  split
  · next last => rw [last, Nat.mod_self]
  · exact (Nat.mod_eq_of_lt (by omega)).symm

theorem next_lt {size index : Nat} (inside : index < size) :
    next size index < size := by
  unfold next
  split <;> omega

/-- Remainders of positions less than a turn apart tell their distance. -/
theorem count_mod {size start stop : Nat} (ordered : start ≤ stop)
    (near : stop < start + size) :
    count size (start % size) (stop % size) = stop - start := by
  have startInside : start % size < size := Nat.mod_lt start (by omega)
  have here : stop % size = (start % size + (stop - start)) % size := by
    rw [Nat.mod_add_mod]
    congr 1
    omega
  unfold count
  rw [here]
  by_cases wraps : start % size + (stop - start) < size
  · rw [Nat.mod_eq_of_lt wraps, if_pos (by omega)]
    omega
  · have once : (start % size + (stop - start)) % size =
        start % size + (stop - start) - size := by
      rw [Nat.mod_eq_sub_mod (by omega), Nat.mod_eq_of_lt (by omega)]
    rw [once, if_neg (by omega)]
    omega

theorem count_eq_zero {size head tail : Nat} (headInside : head < size) :
    count size head tail = 0 ↔ head = tail := by
  unfold count
  split <;> omega

theorem count_next {size head tail : Nat} (headInside : head < size)
    (tailInside : tail < size) (different : head ≠ tail) :
    count size (next size head) tail + 1 = count size head tail := by
  unfold count next
  split <;> split <;> split <;> omega

end SimpleSSD.Ring
