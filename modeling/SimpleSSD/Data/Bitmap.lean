import Mathlib.Algebra.BigOperators.Group.List.Basic
import Mathlib.Algebra.Ring.Nat
import Mathlib.Data.List.GetD
import Mathlib.Tactic.Common

namespace SimpleSSD.Data.Bitmap

/-! A sequence of bits kept in words of one width, read one bit at a time. -/

variable {width : Nat}

/-- Word `index / width` holds the bit, low bits first. -/
def bit (words : List (BitVec width)) (index : Nat) : Bool :=
  (words.getD (index / width) (BitVec.ofNat width 0)).getLsbD (index % width)

def ones (word : BitVec width) : Nat :=
  (List.range width).countP word.getLsbD

theorem bit_beyond {words : List (BitVec width)} {index : Nat}
    (beyond : words.length * width ≤ index) : bit words index = false := by
  unfold bit
  by_cases wide : width = 0
  · subst wide
    simp
  · have outside : words.length ≤ index / width :=
      (Nat.le_div_iff_mul_le (by omega)).mpr beyond
    rw [List.getD_eq_default _ _ outside]
    simp

theorem bit_of_word {words : List (BitVec width)} {offset : Nat}
    (inside : offset < width) (position : Nat) :
    bit words (position * width + offset) =
      (words.getD position (BitVec.ofNat width 0)).getLsbD offset := by
  have quotient : (position * width + offset) / width = position := by
    rw [Nat.add_comm, Nat.add_mul_div_right _ _ (by omega),
      Nat.div_eq_of_lt inside, Nat.zero_add]
  have remainder : (position * width + offset) % width = offset := by
    rw [Nat.add_comm, Nat.add_mul_mod_self_right, Nat.mod_eq_of_lt inside]
  unfold bit
  rw [quotient, remainder]

theorem word_inside {words : List (BitVec width)} {index : Nat}
    (inside : index < words.length * width) : index / width < words.length :=
  Nat.div_lt_of_lt_mul (by rwa [Nat.mul_comm])

theorem offset_lt {words : List (BitVec width)} {index : Nat}
    (inside : index < words.length * width) : index % width < width := by
  apply Nat.mod_lt
  by_contra narrow
  have zero : width = 0 := by omega
  simp [zero] at inside

/-! Operations on whole words act on each bit. -/

section Pointwise

variable {words others : List (BitVec width)} {index : Nat}

theorem bit_map {onWord : BitVec width → BitVec width} {onBit : Bool → Bool}
    (pointwise : ∀ word offset, offset < width →
      (onWord word).getLsbD offset = onBit (word.getLsbD offset))
    (inside : index < words.length * width) :
    bit (words.map onWord) index = onBit (bit words index) := by
  have word := word_inside inside
  have offset := offset_lt inside
  unfold bit
  rw [List.getD_eq_getElem _ _ (by simpa using word),
    List.getD_eq_getElem _ _ word, List.getElem_map]
  exact pointwise _ _ offset

theorem bit_zipWith {onWords : BitVec width → BitVec width → BitVec width}
    {onBits : Bool → Bool → Bool}
    (pointwise : ∀ word other offset, offset < width →
      (onWords word other).getLsbD offset =
        onBits (word.getLsbD offset) (other.getLsbD offset))
    (sized : words.length = others.length)
    (inside : index < words.length * width) :
    bit (List.zipWith onWords words others) index =
      onBits (bit words index) (bit others index) := by
  have word := word_inside inside
  have offset := offset_lt inside
  unfold bit
  rw [List.getD_eq_getElem _ _ (by simpa [← sized] using word),
    List.getD_eq_getElem _ _ word, List.getD_eq_getElem _ _ (sized ▸ word),
    List.getElem_zipWith]
  exact pointwise _ _ _ offset

theorem bit_modify {onWord : BitVec width → BitVec width} {position : Nat}
    (inside : position < words.length) :
    bit (words.modify position onWord) index =
      if index / width = position then
        (onWord (words.getD position (BitVec.ofNat width 0))).getLsbD (index % width)
      else bit words index := by
  unfold bit
  simp only [List.getD_eq_getElem?_getD, List.getElem?_modify]
  split
  · next same =>
      subst same
      rw [if_pos rfl, List.getElem?_eq_getElem inside]
      rfl
  · next different =>
      rw [if_neg (Ne.symm different)]
      simp

end Pointwise

/-! Loops over the words that read all bits at once. -/

theorem foldl_and (words : List (BitVec width)) (start : BitVec width) :
    words.foldl (fun result word => result &&& word) start =
        BitVec.allOnes width ↔
      start = BitVec.allOnes width ∧
        ∀ word ∈ words, word = BitVec.allOnes width := by
  induction words generalizing start with
  | nil => simp
  | cons head tail induction =>
      simp only [List.foldl_cons, induction, List.mem_cons, forall_eq_or_imp,
        BitVec.and_eq_allOnes_iff, and_assoc]

theorem foldl_or (words : List (BitVec width)) (start : BitVec width) :
    words.foldl (fun result word => result ||| word) start = BitVec.ofNat width 0 ↔
      start = BitVec.ofNat width 0 ∧
        ∀ word ∈ words, word = BitVec.ofNat width 0 := by
  induction words generalizing start with
  | nil => simp
  | cons head tail induction =>
      simp only [List.foldl_cons, induction, List.mem_cons, forall_eq_or_imp,
        BitVec.or_eq_zero_iff, and_assoc]

theorem eq_allOnes_iff (word : BitVec width) :
    word = BitVec.allOnes width ↔
      ∀ offset, offset < width → word.getLsbD offset = true := by
  constructor
  · rintro rfl offset inside
    simp [inside]
  · intro set
    apply BitVec.eq_of_getLsbD_eq
    intro offset inside
    rw [set offset inside, BitVec.getLsbD_allOnes]
    simp [inside]

theorem eq_zero_iff (word : BitVec width) :
    word = BitVec.ofNat width 0 ↔
      ∀ offset, offset < width → word.getLsbD offset = false := by
  constructor
  · rintro rfl offset _
    exact BitVec.getLsbD_zero
  · intro clear
    apply BitVec.eq_of_getLsbD_eq
    intro offset inside
    rw [clear offset inside, BitVec.getLsbD_zero]

theorem forall_bit {words : List (BitVec width)} {expected : Bool} :
    (∀ word ∈ words, ∀ offset, offset < width →
        word.getLsbD offset = expected) ↔
      ∀ index, index < words.length * width →
        bit words index = expected := by
  constructor
  · intro set index inside
    have word := word_inside inside
    unfold bit
    rw [List.getD_eq_getElem _ _ word]
    exact set _ (List.getElem_mem word) _ (offset_lt inside)
  · intro set word member offset inside
    obtain ⟨position, below, rfl⟩ := List.getElem_of_mem member
    have reached := set (position * width + offset) (by
      have room := Nat.mul_le_mul_right width (Nat.succ_le_of_lt below)
      rw [Nat.succ_mul] at room
      omega)
    rwa [bit_of_word inside, List.getD_eq_getElem _ _ below] at reached

theorem bit_take {words : List (BitVec width)} {index count : Nat}
    (inside : index / width < count) :
    bit (words.take count) index = bit words index := by
  unfold bit
  rw [List.getD_eq_getElem?_getD, List.getD_eq_getElem?_getD,
    List.getElem?_take_of_lt inside]

theorem countP_range_of_beyond {p : Nat → Bool} {count bound : Nat}
    (beyond : ∀ index, count ≤ index → p index = false)
    (le : count ≤ bound) :
    (List.range bound).countP p = (List.range count).countP p := by
  obtain ⟨rest, rfl⟩ := Nat.exists_eq_add_of_le le
  rw [List.range_add, List.countP_append, Nat.add_eq_left,
    List.countP_eq_zero]
  intro index member
  obtain ⟨offset, -, rfl⟩ := List.mem_map.mp member
  simp [beyond (count + offset) (by omega)]

theorem count_true (bits : List Bool) :
    bits.count true =
      (List.range bits.length).countP fun index => bits[index]?.getD false := by
  induction bits with
  | nil => rfl
  | cons head tail induction =>
      rw [List.length_cons, List.range_succ_eq_map, List.countP_cons,
        List.countP_map, List.count_cons, induction]
      cases head <;> rfl

theorem sum_ones (words : List (BitVec width)) :
    (words.map ones).sum =
      (List.range (words.length * width)).countP (bit words) := by
  induction words with
  | nil => simp
  | cons head tail induction =>
      have first : (List.range width).countP (bit (head :: tail)) =
          ones head := by
        apply List.countP_congr
        intro offset member
        have inside := List.mem_range.mp member
        have read : bit (head :: tail) (0 * width + offset) = _ :=
          bit_of_word inside 0
        simp only [Nat.zero_mul, Nat.zero_add] at read
        rw [read]
        rfl
      have later : (List.range (tail.length * width)).countP
            (bit (head :: tail) ∘ (width + ·)) =
          (List.range (tail.length * width)).countP (bit tail) := by
        apply List.countP_congr
        intro index member
        have offset := offset_lt (List.mem_range.mp member)
        have shifted : (width + index) / width = index / width + 1 := by
          rw [Nat.add_div_left _ (by omega)]
        simp only [Function.comp_apply, bit, shifted, Nat.add_mod_left,
          List.getD_cons_succ]
      rw [List.map_cons, List.sum_cons, induction, List.length_cons,
        Nat.succ_mul, Nat.add_comm (tail.length * width), List.range_add,
        List.countP_append, first, List.countP_map, later]

end SimpleSSD.Data.Bitmap
