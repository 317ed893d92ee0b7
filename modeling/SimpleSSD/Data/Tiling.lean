import Mathlib.Tactic.Common

namespace SimpleSSD.Data

/-! Lists of items that lie one behind the other on a line. -/

/-- The items lie end to end between two positions, and none is empty. -/
inductive EndToEnd {Item : Type} (first length : Item → Nat) :
    Nat → List Item → Nat → Prop
  | nil (position : Nat) : EndToEnd first length position [] position
  | cons {item : Item} {items : List Item} {finish : Nat}
      (some : 0 < length item)
      (rest : EndToEnd first length (first item + length item) items finish) :
      EndToEnd first length (first item) (item :: items) finish

namespace EndToEnd

variable {Item : Type} {first length : Item → Nat} {items others : List Item}
  {start middle finish : Nat}

theorem le (tiled : EndToEnd first length start items finish) :
    start ≤ finish := by
  induction tiled with
  | nil => exact Nat.le_refl _
  | cons some rest induction => omega

theorem between (tiled : EndToEnd first length start items finish)
    {item : Item} (member : item ∈ items) :
    start ≤ first item ∧ 0 < length item ∧
      first item + length item ≤ finish := by
  induction tiled with
  | nil => cases member
  | cons some rest induction =>
      rcases List.mem_cons.mp member with rfl | later
      · exact ⟨Nat.le_refl _, some, rest.le⟩
      · have bounds := induction later
        omega

/-- The items have the positions from start to finish and no others. -/
theorem covered (tiled : EndToEnd first length start items finish)
    (position : Nat) :
    (∃ item ∈ items, first item ≤ position ∧
      position < first item + length item) ↔
        start ≤ position ∧ position < finish := by
  induction tiled with
  | nil =>
      simp only [List.not_mem_nil, false_and, exists_false, false_iff]
      omega
  | cons some rest induction =>
      have order := rest.le
      simp only [List.mem_cons, exists_eq_or_imp]
      rw [induction]
      omega

end EndToEnd

end SimpleSSD.Data
