import Mathlib.Algebra.Ring.Nat
import Mathlib.Tactic.Common

namespace SimpleSSD.Data

/-! `while` loops whose end is not known beforehand. -/

/-- The state in which a loop ends, if it takes fewer rounds than `fuel`. -/
def whileLoop (test : σ → Bool) (body : σ → σ) : (fuel : Nat) → σ → Option σ
  | 0, _ => none
  | fuel + 1, state =>
      if test state then whileLoop test body fuel (body state) else some state

def Ends (test : σ → Bool) (body : σ → σ) (state result : σ) : Prop :=
  ∃ fuel, whileLoop test body fuel state = some result

section

variable {test : σ → Bool} {body : σ → σ} {state result : σ}

theorem Ends.done (failed : test state = false) :
    Ends test body state state :=
  ⟨1, by simp [whileLoop, failed]⟩

theorem Ends.round (passed : test state = true)
    (rest : Ends test body (body state) result) :
    Ends test body state result := by
  obtain ⟨fuel, reached⟩ := rest
  refine ⟨fuel + 1, ?_⟩
  rw [whileLoop, if_pos passed]
  exact reached

theorem whileLoop_succ {fuel : Nat}
    (reached : whileLoop test body fuel state = some result) :
    whileLoop test body (fuel + 1) state = some result := by
  induction fuel generalizing state with
  | zero => cases reached
  | succ fuel induction =>
      rw [whileLoop] at reached ⊢
      split at reached
      · next passed =>
          rw [if_pos passed]
          exact induction reached
      · next failed =>
          rw [if_neg failed]
          exact reached

theorem whileLoop_le {fuel more : Nat} (le : fuel ≤ more)
    (reached : whileLoop test body fuel state = some result) :
    whileLoop test body more state = some result := by
  induction le with
  | refl => exact reached
  | step _ induction => exact whileLoop_succ induction

theorem Ends.unique {other : σ} (first : Ends test body state result)
    (second : Ends test body state other) : result = other := by
  obtain ⟨fuel, reached⟩ := first
  obtain ⟨fuel', reached'⟩ := second
  have left := whileLoop_le (Nat.le_max_left fuel fuel') reached
  have right := whileLoop_le (Nat.le_max_right fuel fuel') reached'
  exact Option.some.inj (left.symm.trans right)

theorem Ends.failed (ends : Ends test body state result) :
    test result = false := by
  obtain ⟨fuel, reached⟩ := ends
  induction fuel generalizing state with
  | zero => cases reached
  | succ fuel induction =>
      rw [whileLoop] at reached
      split at reached
      · exact induction reached
      · next failed =>
          cases reached
          simpa using failed

end

/-- Taking `size` away for as long as that is possible leaves the rest. -/
theorem subtract_ends {size : UInt64} (positive : size ≠ 0)
    (value : UInt64) :
    Ends (fun value => decide (value ≥ size)) (· - size) value
      (value % size) := by
  have pos : 0 < size.toNat :=
    Nat.pos_of_ne_zero fun zero => positive (UInt64.toNat_inj.mp zero)
  induction bound : value.toNat using Nat.strong_induction_on generalizing value
    with
  | _ bound induction =>
      subst bound
      by_cases above : size ≤ value
      · have le := UInt64.le_iff_toNat_le.mp above
        have less : (value - size).toNat = value.toNat - size.toNat :=
          UInt64.toNat_sub_of_le _ _ above
        have rest : (value - size) % size = value % size := by
          apply UInt64.toNat_inj.mp
          rw [UInt64.toNat_mod, UInt64.toNat_mod, less, Nat.mod_eq_sub_mod le]
        refine Ends.round (decide_eq_true above) ?_
        rw [← rest]
        exact induction _ (by omega) _ rfl
      · have below : value.toNat < size.toNat := by
          rw [UInt64.le_iff_toNat_le] at above
          omega
        have same : value % size = value := by
          apply UInt64.toNat_inj.mp
          rw [UInt64.toNat_mod, Nat.mod_eq_of_lt below]
        rw [same]
        exact Ends.done (decide_eq_false above)

end SimpleSSD.Data
