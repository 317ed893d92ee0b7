import Mathlib.Algebra.Ring.Nat
import Mathlib.Tactic.Common

namespace SimpleSSD

variable {run : Nat → σ} {goal : σ → Prop} {rank : σ → Nat}

/-! Liveness by a rank.  While the goal is open the rank does not grow, and at
some later time it falls; so the goal is reached, and it is kept. -/

theorem rank_antitone {first : Nat}
    (bounded : ∀ time, first ≤ time → rank (run (time + 1)) ≤ rank (run time))
    {time : Nat} (later : first ≤ time) : rank (run time) ≤ rank (run first) := by
  induction time, later using Nat.le_induction with
  | base => exact Nat.le_refl _
  | succ time later induction => exact Nat.le_trans (bounded time later) induction

theorem kept_from {first : Nat}
    (kept : ∀ time, first ≤ time → goal (run time) → goal (run (time + 1)))
    (reached : goal (run first)) {time : Nat} (later : first ≤ time) :
    goal (run time) := by
  induction time, later using Nat.le_induction with
  | base => exact reached
  | succ time later induction => exact kept time later induction

/-- The rank rule. -/
theorem eventually_of_rank {first : Nat}
    (kept : ∀ time, first ≤ time → goal (run time) → goal (run (time + 1)))
    (bounded : ∀ time, first ≤ time → rank (run (time + 1)) ≤ rank (run time))
    (falls : ∀ time, first ≤ time → ¬ goal (run time) →
      ∃ later, time ≤ later ∧ rank (run (later + 1)) < rank (run later)) :
    ∃ start, first ≤ start ∧ ∀ time, start ≤ time → goal (run time) := by
  generalize size : rank (run first) = bound
  induction bound using Nat.strong_induction_on generalizing first with
  | _ bound induction =>
      by_cases reached : goal (run first)
      · exact ⟨first, Nat.le_refl _, fun time later =>
          kept_from kept reached later⟩
      · obtain ⟨later, after, fell⟩ := falls first (Nat.le_refl _) reached
        have below : rank (run (later + 1)) < bound := by
          rw [← size]
          exact Nat.lt_of_lt_of_le fell (rank_antitone bounded after)
        have from_later : first ≤ later + 1 := Nat.le_succ_of_le after
        obtain ⟨start, begun, holds⟩ := induction _ below
          (fun time from_there => kept time (Nat.le_trans from_later from_there))
          (fun time from_there => bounded time (Nat.le_trans from_later from_there))
          (fun time from_there => falls time (Nat.le_trans from_later from_there))
          rfl
        exact ⟨start, Nat.le_trans from_later begun, holds⟩

end SimpleSSD
