import Mathlib.Algebra.Ring.Nat
import Mathlib.Data.List.Basic
import Mathlib.Tactic.Common

namespace SimpleSSD

/-! `for` loops whose counter is a `uint16_t`, with a bound that may lie beyond
what the counter can reach. -/

def forLoop (exhausted : ε) (bound : Nat)
    (body : Nat → σ → Except ε (σ × Bool)) :
    (fuel : Nat) → (counter : UInt16) → σ → Except ε σ
  | 0, _, _ => .error exhausted
  | fuel + 1, counter, state =>
      if counter.toNat < bound then
        match body counter.toNat state with
        | .error raised => .error raised
        | .ok (updated, true) => .ok updated
        | .ok (updated, false) =>
            forLoop exhausted bound body fuel (counter + 1) updated
      else .ok state

def walk (body : Nat → σ → Except ε (σ × Bool)) : List Nat → σ → Except ε σ
  | [], state => .ok state
  | index :: rest, state =>
      match body index state with
      | .error raised => .error raised
      | .ok (updated, true) => .ok updated
      | .ok (updated, false) => walk body rest updated

variable {exhausted : ε} {bound : Nat}
  {body : Nat → σ → Except ε (σ × Bool)} {state : σ}

private theorem counter_succ {counter : UInt16} {limit : Nat}
    (inside : counter.toNat < limit) (fits : limit < 65536) :
    (counter + 1).toNat = counter.toNat + 1 := by
  rw [UInt16.toNat_add]
  exact Nat.mod_eq_of_lt (by simp; omega)

/-- A bound that the counter reaches. -/
theorem forLoop_eq_walk (fits : bound < 65536) {fuel : Nat}
    {counter : UInt16} (enough : bound - counter.toNat < fuel) :
    forLoop exhausted bound body fuel counter state =
      walk body (List.range' counter.toNat (bound - counter.toNat)) state := by
  induction fuel generalizing counter state with
  | zero => omega
  | succ fuel induction =>
      unfold forLoop
      split
      · next inside =>
          have stepped := counter_succ inside fits
          obtain ⟨rest, length⟩ :=
            Nat.exists_eq_add_one.mpr (Nat.sub_pos_of_lt inside)
          rw [length, List.range'_succ]
          unfold walk
          cases body counter.toNat state with
          | error raised => rfl
          | ok result =>
              obtain ⟨updated, stop⟩ := result
              cases stop with
              | true => rfl
              | false =>
                  have remaining : bound - (counter + 1).toNat = rest := by
                    omega
                  have follows := @induction updated (counter + 1) (by omega)
                  rwa [remaining, stepped] at follows
      · next outside =>
          have none : bound - counter.toNat = 0 := by omega
          rw [none]
          rfl

/-- Rounds that leave the state alone can be left out. -/
theorem forLoop_skip {fuel : Nat} {counter : UInt16} (amount : Nat)
    (fits : counter.toNat + amount < 65536)
    (inside : counter.toNat + amount ≤ bound)
    (idle : ∀ index, counter.toNat ≤ index →
      index < counter.toNat + amount → body index state = .ok (state, false)) :
    forLoop exhausted bound body (fuel + amount) counter state =
      forLoop exhausted bound body fuel
        (UInt16.ofNat (counter.toNat + amount)) state := by
  induction amount generalizing counter with
  | zero => simp
  | succ amount induction =>
      have stepped : (counter + 1).toNat = counter.toNat + 1 :=
        counter_succ (Nat.lt_succ_self _) (by omega)
      rw [← Nat.add_assoc fuel amount 1, forLoop, if_pos (by omega),
        idle counter.toNat (Nat.le_refl _) (by omega)]
      dsimp only
      rw [induction (by omega) (by omega)
        fun index lower upper => idle index (by omega) (by omega), stepped,
        Nat.add_assoc, Nat.add_comm 1 amount]

/-- A bound out of reach, and a body that never ends the loop. -/
theorem forLoop_endless (unreachable : 65536 ≤ bound) {kept : σ → Prop}
    (continues : ∀ index < 65536, ∀ state, kept state → ∃ updated,
      body index state = .ok (updated, false) ∧ kept updated)
    (start : kept state) (fuel : Nat) (counter : UInt16) :
    forLoop exhausted bound body fuel counter state = .error exhausted := by
  induction fuel generalizing counter state with
  | zero => rfl
  | succ fuel induction =>
      have below := counter.toNat_lt
      obtain ⟨updated, same, holds⟩ :=
        continues counter.toNat below state start
      rw [forLoop, if_pos (by omega), same]
      exact induction holds (counter + 1)

end SimpleSSD
