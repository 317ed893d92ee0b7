import Mathlib.Algebra.BigOperators.Group.List.Basic
import Mathlib.Algebra.Ring.Nat
import Mathlib.Order.Interval.Finset.Nat
import Mathlib.Tactic.Common

namespace SimpleSSD.Data

/-! Closed intervals of natural numbers, given by the records that hold their
first and last number. -/

section

variable {α : Type} (first last : α → Nat)

def covered (slots : List α) : Finset Nat :=
  slots.foldr (fun slot rest => Finset.Icc (first slot) (last slot) ∪ rest) ∅

def extent (slot : α) : Nat := last slot + 1 - first slot

structure Ordered (slots : List α) : Prop where
  nonempty : ∀ slot ∈ slots, first slot ≤ last slot
  apart : slots.Pairwise fun slot later => last slot < first later

variable {first last} {slots : List α}

@[simp] theorem covered_nil : covered first last [] = ∅ := rfl

@[simp] theorem covered_cons (slot : α) (slots : List α) :
    covered first last (slot :: slots) =
      Finset.Icc (first slot) (last slot) ∪ covered first last slots := rfl

theorem mem_covered {number : Nat} :
    number ∈ covered first last slots ↔
      ∃ slot ∈ slots, first slot ≤ number ∧ number ≤ last slot := by
  induction slots with
  | nil => simp
  | cons slot slots induction =>
      simp only [covered_cons, Finset.mem_union, Finset.mem_Icc, induction,
        List.mem_cons, exists_eq_or_imp]

theorem covered_append (slots others : List α) :
    covered first last (slots ++ others) =
      covered first last slots ∪ covered first last others := by
  induction slots with
  | nil => simp
  | cons slot slots induction =>
      rw [List.cons_append, covered_cons, covered_cons, induction,
        Finset.union_assoc]

theorem Ordered.tail {slot : α} (ordered : Ordered first last (slot :: slots)) :
    Ordered first last slots where
  nonempty := fun later member =>
    ordered.nonempty later (List.mem_cons_of_mem _ member)
  apart := (List.pairwise_cons.mp ordered.apart).2

theorem Ordered.lt_of_mem {slot : α} {number : Nat}
    (ordered : Ordered first last (slot :: slots))
    (member : number ∈ covered first last slots) : last slot < number := by
  obtain ⟨later, later_member, lower, -⟩ := mem_covered.mp member
  exact Nat.lt_of_lt_of_le
    ((List.pairwise_cons.mp ordered.apart).1 later later_member) lower

theorem Ordered.card (ordered : Ordered first last slots) :
    (covered first last slots).card =
      (slots.map (extent first last)).sum := by
  induction slots with
  | nil => rfl
  | cons slot slots induction =>
      have disjoint : Disjoint (Finset.Icc (first slot) (last slot))
          (covered first last slots) := by
        rw [Finset.disjoint_left]
        intro number inside member
        have behind := ordered.lt_of_mem member
        have upper := (Finset.mem_Icc.mp inside).2
        omega
      rw [covered_cons, Finset.card_union_of_disjoint disjoint,
        induction ordered.tail, Nat.card_Icc, List.map_cons, List.sum_cons]
      rfl

end

/-- Numbers up to `reach` that go on without a gap from `start` are extended by
an interval that starts behind `start`. -/
theorem card_extend {numbers : Finset Nat} {start reach low high : Nat}
    (bounded : ∀ number ∈ numbers, number ≤ reach)
    (solid : Finset.Icc start reach ⊆ numbers) (le : start ≤ low)
    (nonempty : low ≤ high) :
    (numbers ∪ Finset.Icc low high).card = numbers.card +
      if low ≤ reach then high - reach else high + 1 - low := by
  have fresh : numbers ∪ Finset.Icc low high =
      numbers ∪ Finset.Icc (max low (reach + 1)) high := by
    ext number
    simp only [Finset.mem_union, Finset.mem_Icc]
    constructor
    · rintro (member | inside)
      · exact .inl member
      · by_cases beyond : number ≤ reach
        · exact .inl (solid (Finset.mem_Icc.mpr ⟨by omega, beyond⟩))
        · exact .inr ⟨by omega, by omega⟩
    · rintro (member | inside)
      · exact .inl member
      · exact .inr ⟨by omega, by omega⟩
  have disjoint : Disjoint numbers
      (Finset.Icc (max low (reach + 1)) high) := by
    rw [Finset.disjoint_left]
    intro number member inside
    have upper := bounded number member
    have lower := (Finset.mem_Icc.mp inside).1
    omega
  rw [fresh, Finset.card_union_of_disjoint disjoint, Nat.card_Icc]
  split <;> omega

end SimpleSSD.Data
