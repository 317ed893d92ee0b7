import Mathlib.Data.List.Basic
import Mathlib.Logic.Function.Basic
import Mathlib.Tactic.Common

namespace SimpleSSD.Data

/-! A value at every index, of which some in a row are read or written. -/

abbrev Store (β : Type u) := Nat → β

namespace Store

variable {β : Type u}

/-- The value that is written to an index, if it is in the row. -/
def written (first : Nat) (values : List β) (index : Nat) : Option β :=
  if first ≤ index then values[index - first]? else none

def write (store : Store β) (first : Nat) (values : List β) : Store β :=
  fun index => (written first values index).getD (store index)

def read (store : Store β) : (first count : Nat) → List β
  | _, 0 => []
  | first, count + 1 => store first :: read store (first + 1) count

@[simp] theorem length_read (store : Store β) (first count : Nat) :
    (store.read first count).length = count := by
  induction count generalizing first with
  | zero => rfl
  | succ count induction => simp only [read, List.length_cons, induction]

theorem getElem?_read (store : Store β) (first count offset : Nat) :
    (store.read first count)[offset]? =
      if offset < count then some (store (first + offset)) else none := by
  induction count generalizing first offset with
  | zero => simp [read]
  | succ count induction =>
      cases offset with
      | zero => simp [read]
      | succ offset =>
          simp only [read, List.getElem?_cons_succ, induction]
          simp [Nat.add_right_comm, Nat.add_assoc]

theorem read_add (store : Store β) (first left right : Nat) :
    store.read first (left + right) =
      store.read first left ++ store.read (first + left) right := by
  induction left generalizing first with
  | zero => simp [read]
  | succ left induction =>
      rw [Nat.add_right_comm]
      simp only [read, List.cons_append, induction]
      rw [Nat.add_assoc first 1 left, Nat.add_comm 1 left]

theorem read_congr {store other : Store β} {first count : Nat}
    (agree : ∀ index, first ≤ index → index < first + count →
      store index = other index) :
    store.read first count = other.read first count := by
  apply List.ext_getElem?
  intro offset
  simp only [getElem?_read]
  split
  · next inside => rw [agree _ (Nat.le_add_right first offset) (by omega)]
  · rfl

theorem written_eq_none {first : Nat} {values : List β} {index : Nat} :
    written first values index = none ↔
      index < first ∨ first + values.length ≤ index := by
  simp only [written]
  split
  · rw [List.getElem?_eq_none_iff]
    omega
  · simp only [true_iff]
    omega

theorem written_inside {first : Nat} {values : List β} {offset : Nat}
    (inside : offset < values.length) :
    written first values (first + offset) = some values[offset] := by
  simp only [written]
  rw [if_pos (Nat.le_add_right first offset), Nat.add_sub_cancel_left,
    List.getElem?_eq_getElem inside]

theorem write_outside {store : Store β} {first : Nat} {values : List β}
    {index : Nat} (outside : index < first ∨ first + values.length ≤ index) :
    store.write first values index = store index := by
  rw [write, written_eq_none.mpr outside, Option.getD_none]

theorem write_inside {store : Store β} {first : Nat} {values : List β}
    {offset : Nat} (inside : offset < values.length) :
    store.write first values (first + offset) = values[offset] := by
  rw [write, written_inside inside, Option.getD_some]

@[simp] theorem write_nil (store : Store β) (first : Nat) :
    store.write first [] = store := by
  funext index
  apply write_outside
  simp only [List.length_nil, Nat.add_zero]
  omega

theorem write_append (store : Store β) (first : Nat) (left right : List β) :
    store.write first (left ++ right) =
      (store.write first left).write (first + left.length) right := by
  funext index
  rcases Nat.lt_or_ge index first with before | from_first
  · rw [write_outside (.inl before), write_outside (.inl (by omega)),
      write_outside (.inl before)]
  · obtain ⟨offset, rfl⟩ := Nat.exists_eq_add_of_le from_first
    rcases Nat.lt_or_ge offset left.length with in_left | from_right
    · rw [write_inside (by rw [List.length_append]; omega),
        write_outside (.inl (by omega)), write_inside in_left,
        List.getElem_append_left in_left]
    · obtain ⟨more, rfl⟩ := Nat.exists_eq_add_of_le from_right
      rcases Nat.lt_or_ge more right.length with in_right | behind
      · rw [write_inside (by rw [List.length_append]; omega),
          ← Nat.add_assoc, write_inside in_right]
        simp
      · rw [write_outside (.inr (by rw [List.length_append]; omega)),
          write_outside (.inr (by omega)), write_outside (.inr (by omega))]

theorem read_write (store : Store β) (first : Nat) (values : List β) :
    (store.write first values).read first values.length = values := by
  apply List.ext_getElem?
  intro offset
  rw [getElem?_read]
  split
  · next inside => rw [write_inside inside, List.getElem?_eq_getElem inside]
  · next outside =>
      rw [List.getElem?_eq_none (Nat.le_of_not_lt outside)]

theorem read_write_apart {store : Store β} {first : Nat} {values : List β}
    {start count : Nat}
    (apart : start + count ≤ first ∨ first + values.length ≤ start) :
    (store.write first values).read start count = store.read start count := by
  apply read_congr
  intro index from_start inside
  apply write_outside
  omega

/-- The last value that was written to an index, the latest row first. -/
def lastWritten : List (Nat × List β) → (index : Nat) → Option β
  | [], _ => none
  | (first, values) :: earlier, index =>
      (written first values index).or (lastWritten earlier index)

def after (store : Store β) : List (Nat × List β) → Store β
  | [] => store
  | (first, values) :: earlier => (store.after earlier).write first values

theorem after_apply (store : Store β) (rows : List (Nat × List β))
    (index : Nat) :
    store.after rows index =
      (lastWritten rows index).getD (store index) := by
  induction rows with
  | nil => rfl
  | cons row earlier induction =>
      obtain ⟨first, values⟩ := row
      simp only [after, lastWritten, write, induction]
      cases written first values index <;> rfl

/-! Values that are kept by blocks of one size. -/

def ofBlocks (size : Nat) (block : Nat → List β) (absent : β) : Store β :=
  fun index => ((block (index / size))[index % size]?).getD absent

variable {size : Nat} {block : Nat → List β} {absent : β}

theorem ofBlocks_apply {position offset : Nat} (inside : offset < size) :
    ofBlocks size block absent (position * size + offset) =
      ((block position)[offset]?).getD absent := by
  have positive : 0 < size := by omega
  simp only [ofBlocks]
  rw [Nat.mul_comm, Nat.mul_add_div positive, Nat.div_eq_of_lt inside,
    Nat.add_zero, Nat.mul_add_mod, Nat.mod_eq_of_lt inside]

theorem read_ofBlocks {position : Nat}
    (length : (block position).length = size) :
    (ofBlocks size block absent).read (position * size) size =
      block position := by
  apply List.ext_getElem?
  intro offset
  rw [getElem?_read]
  split
  · next inside =>
      rw [ofBlocks_apply inside, List.getElem?_eq_getElem (by omega),
        Option.getD_some]
  · next outside => rw [List.getElem?_eq_none (by omega)]

theorem write_ofBlocks {position : Nat} {values : List β}
    (positive : 0 < size) (length : values.length = size) :
    (ofBlocks size block absent).write (position * size) values =
      ofBlocks size (Function.update block position values) absent := by
  funext index
  have split_index := Nat.div_add_mod index size
  have inside := Nat.mod_lt index positive
  rw [Nat.mul_comm] at split_index
  by_cases same : index / size = position
  · rw [← split_index, same, write_inside (by omega), ofBlocks_apply inside,
      Function.update_self, List.getElem?_eq_getElem (by omega),
      Option.getD_some]
  · rw [write_outside]
    · simp only [ofBlocks, Function.update_of_ne same]
    · rw [length]
      rcases Nat.lt_or_gt_of_ne same with before | behind
      · left
        exact (Nat.div_lt_iff_lt_mul positive).mp before
      · right
        have next := Nat.mul_le_mul_right size (Nat.succ_le_of_lt behind)
        rw [Nat.succ_mul] at next
        omega

end Store

end SimpleSSD.Data
