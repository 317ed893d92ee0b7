import Mathlib.Algebra.Ring.Nat
import Mathlib.Tactic.Common

namespace SimpleSSD.Data

/-! `while (1)` loops, which are left from inside a round. -/

inductive Round (σ ρ : Type) where
  | again (next : σ)
  | leave (result : ρ)
  deriving DecidableEq, Repr

/-- What holds of the state that the loop goes on with, or of what it is left
with. -/
def Round.All (goesOn : σ → Prop) (leaves : ρ → Prop) : Round σ ρ → Prop
  | .again next => goesOn next
  | .leave result => leaves result

/-- What the loop is left with, if it takes fewer rounds than `fuel`.  A round
may contain loops of its own, which have the same fuel. -/
def rounds (round : Nat → σ → Option (Round σ ρ)) :
    (fuel : Nat) → σ → Option ρ
  | 0, _ => none
  | fuel + 1, state =>
      match round fuel state with
      | none => none
      | some (.leave result) => some result
      | some (.again next) => rounds round fuel next

def Settled (computation : Nat → Option α) : Prop :=
  ∀ fuel more result, fuel ≤ more → computation fuel = some result →
    computation more = some result

def Comes (computation : Nat → Option α) (result : α) : Prop :=
  ∃ fuel, computation fuel = some result

/-- The loop that starts in a state has a round that starts in another. -/
inductive Visits (round : Nat → σ → Option (Round σ ρ)) (state : σ) :
    σ → Prop
  | start : Visits round state state
  | next (earlier : Visits round state before)
      (again : Comes (round · before) (.again after)) :
      Visits round state after

theorem Round.All.mono {goesOn goesOn' : σ → Prop} {leaves leaves' : ρ → Prop}
    {round : Round σ ρ} (all : round.All goesOn leaves)
    (next : ∀ next, goesOn next → goesOn' next)
    (result : ∀ result, leaves result → leaves' result) :
    round.All goesOn' leaves' := by
  cases round with
  | again state => exact next state all
  | leave value => exact result value all

theorem Settled.const (value : α) : Settled fun _ => some value :=
  fun _ _ _ _ reached => reached

theorem Settled.map {computation : Nat → Option α}
    (settled : Settled computation) (f : α → β) :
    Settled fun fuel => (computation fuel).map f := by
  intro fuel more result le reached
  obtain ⟨value, first, rfl⟩ := Option.map_eq_some_iff.mp reached
  exact Option.map_eq_some_iff.mpr ⟨value, settled _ _ _ le first, rfl⟩

theorem Settled.unique {computation : Nat → Option α} {first second : α}
    (settled : Settled computation) (one : Comes computation first)
    (other : Comes computation second) : first = second := by
  obtain ⟨fuel, reached⟩ := one
  obtain ⟨fuel', reached'⟩ := other
  have left := settled _ _ _ (Nat.le_max_left fuel fuel') reached
  have right := settled _ _ _ (Nat.le_max_right fuel fuel') reached'
  exact Option.some.inj (left.symm.trans right)

section

variable {round : Nat → σ → Option (Round σ ρ)} {state : σ} {P : σ → Prop}
  {Q : ρ → Prop}

theorem rounds_settled (settled : ∀ state, Settled (round · state))
    (state : σ) : Settled (rounds round · state) := by
  intro fuel more result le reached
  induction fuel generalizing more state with
  | zero => cases reached
  | succ fuel induction =>
      obtain ⟨more, rfl⟩ : ∃ rest, more = rest + 1 := ⟨more - 1, by omega⟩
      have le := Nat.le_of_succ_le_succ le
      dsimp only [rounds] at reached ⊢
      cases taken : round fuel state with
      | none => simp [taken] at reached
      | some outcome =>
          have later : round more state = some outcome :=
            settled state _ _ _ le taken
          rw [later]
          rw [taken] at reached
          cases outcome with
          | leave => exact reached
          | again next => exact induction next _ le reached

/-- A loop ends whose rounds end, and lessen a measure unless they leave it. -/
theorem rounds_end (settled : ∀ state, Settled (round · state))
    (measure : σ → Nat)
    (progress : ∀ state, P state → ∃ outcome,
      Comes (round · state) outcome ∧
        outcome.All (fun next => P next ∧ measure next < measure state)
          fun _ => True)
    (start : P state) : ∃ result, Comes (rounds round · state) result := by
  induction bound : measure state using Nat.strong_induction_on
    generalizing state with
  | _ bound induction =>
      obtain ⟨outcome, ⟨fuel, taken⟩, less⟩ := progress state start
      cases outcome with
      | leave result =>
          exact ⟨result, fuel + 1, by simp [rounds, taken]⟩
      | again next =>
          obtain ⟨kept, less⟩ := less
          obtain ⟨result, fuel', reached⟩ :=
            induction _ (bound ▸ less) kept rfl
          refine ⟨result, max fuel fuel' + 1, ?_⟩
          have later : round (max fuel fuel') state = some (.again next) :=
            settled state _ _ _ (Nat.le_max_left fuel fuel') taken
          dsimp only [rounds]
          rw [later]
          exact rounds_settled settled next _ _ _
            (Nat.le_max_right fuel fuel') reached

/-- The invariant rule. -/
theorem rounds_all
    (kept : ∀ state outcome, P state → Comes (round · state) outcome →
      outcome.All P Q)
    (start : P state) {result : ρ}
    (reached : Comes (rounds round · state) result) : Q result := by
  obtain ⟨fuel, reached⟩ := reached
  induction fuel generalizing state with
  | zero => cases reached
  | succ fuel induction =>
      dsimp only [rounds] at reached
      cases taken : round fuel state with
      | none => simp [taken] at reached
      | some outcome =>
          have all := kept state outcome start ⟨fuel, taken⟩
          rw [taken] at reached
          cases outcome with
          | leave value =>
              cases reached
              exact all
          | again next => exact induction all reached

/-- A loop that no round leaves does not end. -/
theorem rounds_eq_none
    (kept : ∀ state outcome, P state → Comes (round · state) outcome →
      outcome.All P fun _ => False)
    (start : P state) (fuel : Nat) : rounds round fuel state = none := by
  cases reached : rounds round fuel state with
  | none => rfl
  | some result => exact (rounds_all kept start ⟨fuel, reached⟩).elim

/-- The invariant rule for the rounds of a loop. -/
theorem Visits.all {reached : σ} (visits : Visits round state reached)
    (kept : ∀ state outcome, P state → Comes (round · state) outcome →
      outcome.All P Q)
    (start : P state) : P reached := by
  induction visits with
  | start => exact start
  | next _ again induction => exact kept _ _ induction again

end

end SimpleSSD.Data
