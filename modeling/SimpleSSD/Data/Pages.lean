import Mathlib.Logic.Function.Basic
import Mathlib.Tactic.Common

namespace SimpleSSD.Data

/-! Blocks whose pages are programmed upwards and erased together. -/

inductive PageOp (κ : Type) where
  | program (block : κ) (page : Nat)
  | erase (block : κ)
  deriving DecidableEq, Repr

namespace PageOp

variable {κ : Type} [DecidableEq κ]

/-- `next` is the first page that may be programmed. -/
def apply (next : κ → Nat) : PageOp κ → Option (κ → Nat)
  | .program block page =>
      if next block ≤ page then
        some (Function.update next block (page + 1))
      else none
  | .erase block => some (Function.update next block 0)

def applyAll : (next : κ → Nat) → List (PageOp κ) → Option (κ → Nat)
  | next, [] => some next
  | next, op :: rest => (op.apply next).bind fun after => applyAll after rest

theorem applyAll_append (next : κ → Nat) (first second : List (PageOp κ)) :
    applyAll next (first ++ second) =
      (applyAll next first).bind fun after => applyAll after second := by
  induction first generalizing next with
  | nil => rfl
  | cons op rest induction =>
      simp only [List.cons_append, applyAll, Option.bind_assoc]
      cases op.apply next with
      | none => rfl
      | some after => exact induction after

variable {next after : κ → Nat} {ops : List (PageOp κ)} {block : κ}

/-- Only an erase takes a block back. -/
theorem le_of_applyAll (applied : applyAll next ops = some after)
    (kept : .erase block ∉ ops) : next block ≤ after block := by
  induction ops generalizing next with
  | nil =>
      cases applied
      exact Nat.le_refl _
  | cons op rest induction =>
      simp only [applyAll, Option.bind_eq_some_iff] at applied
      obtain ⟨middle, first, remaining⟩ := applied
      have rest_kept : .erase block ∉ rest :=
        fun member => kept (List.mem_cons_of_mem _ member)
      apply Nat.le_trans _ (induction remaining rest_kept)
      cases op with
      | program other page =>
          simp only [apply] at first
          split at first
          · next allowed =>
              cases first
              by_cases same : block = other
              · subst same
                rw [Function.update_self]
                omega
              · exact Nat.le_of_eq (Function.update_of_ne same _ _).symm
          · cases first
      | erase other =>
          cases first
          have different : block ≠ other := by
            intro same
            exact kept (same ▸ List.mem_cons_self)
          exact Nat.le_of_eq (Function.update_of_ne different _ _).symm

/-- Between two erases of a block its pages are programmed once and upwards. -/
theorem lt_of_applyAll {before between behind : List (PageOp κ)}
    {page later : Nat}
    (applied : applyAll next (before ++ .program block page :: between ++
      .program block later :: behind) = some after)
    (kept : .erase block ∉ between) : page < later := by
  rw [List.append_assoc, applyAll_append, Option.bind_eq_some_iff] at applied
  obtain ⟨first, _, applied⟩ := applied
  simp only [List.cons_append, applyAll, Option.bind_eq_some_iff] at applied
  obtain ⟨second, programmed, applied⟩ := applied
  rw [applyAll_append, Option.bind_eq_some_iff] at applied
  obtain ⟨third, passed, applied⟩ := applied
  simp only [applyAll, Option.bind_eq_some_iff] at applied
  obtain ⟨fourth, again, _⟩ := applied
  have grown := le_of_applyAll passed kept
  simp only [apply] at programmed again
  split at programmed
  · cases programmed
    rw [Function.update_self] at grown
    split at again
    · omega
    · cases again
  · cases programmed

end PageOp

end SimpleSSD.Data
