import SimpleSSD.Data.Bitmap
import SimpleSSD.Data.Result

namespace SimpleSSD.Util

open Data Data.Bitmap

def popcount (v : BitVec width) : BitVec 8 :=
  let v := v - ((v >>> 1) &&& (BitVec.allOnes width / 3))
  let v := (v &&& (BitVec.allOnes width / 15 * 3)) +
    ((v >>> 2) &&& (BitVec.allOnes width / 15 * 3))
  let v := (v + (v >>> 4)) &&& (BitVec.allOnes width / 255 * 15)
  let v := (v * (BitVec.allOnes width / 255)) >>> ((width / 8 - 1) * 8)
  v.setWidth 8

/-- A `Bitset` owns `allocSize` bytes. -/
structure Bitset where
  data : List (BitVec 8)
  dataSize : UInt32
  allocSize : UInt32
  allocated : data.length = allocSize.toNat

/-- The sum by pairs, nibbles and bytes finds the set bits of a byte. -/
theorem popcount_byte :
    ∀ byte : BitVec 8, (popcount byte).toNat = ones byte := by
  decide +kernel

inductive Fault where
  /-- An access outside an array, or through a null pointer. -/
  | outOfBounds
  /-- Thrown by `std::vector::at`. -/
  | outOfRange
  | panic (message : String)
  deriving DecidableEq, Repr

namespace Bitset

def make (size : UInt32) : Bitset :=
  if 0 < size then
    { data := List.replicate ((size - 1) / 8 + 1).toNat 0x00#8
      dataSize := size
      allocSize := (size - 1) / 8 + 1
      allocated := List.length_replicate }
  else
    { data := [], dataSize := 0, allocSize := 0, allocated := rfl }

def byte (bits : Bitset) (position : Nat) : Except Fault (BitVec 8) :=
  match bits.data[position]? with
  | some byte => .ok byte
  | none => .error .outOfBounds

def update (bits : Bitset) (position : Nat)
    (change : BitVec 8 → BitVec 8) : Except Fault Bitset :=
  if position < bits.data.length then
    .ok { bits with
      data := bits.data.modify position change
      allocated := (List.length_modify _ _ _).trans bits.allocated }
  else
    .error .outOfBounds

def each (bits : Bitset) (change : BitVec 8 → BitVec 8) : Bitset :=
  { bits with
    data := bits.data.map change
    allocated := (List.length_map _).trans bits.allocated }

def test (bits : Bitset) (idx : Nat) : Except Fault Bool := do
  let byte ← bits.byte (idx / 8)
  return byte &&& (0x01#8 <<< (idx % 8)) != 0

def all (bits : Bitset) : Except Fault Bool := do
  let mask := 0xFF#8 <<< (bits.dataSize + 8 - bits.allocSize * 8).toNat
  let ret := (bits.data.take (bits.allocSize - 1).toNat).foldl
    (fun ret byte => ret &&& byte) 0xFF#8
  let last ← bits.byte (bits.allocSize - 1).toNat
  return ret &&& (last ||| mask) == 0xFF#8

def none (bits : Bitset) : Bool :=
  bits.data.foldl (fun ret byte => ret ||| byte) 0x00#8 == 0x00#8

def any (bits : Bitset) : Bool :=
  !bits.none

def count (bits : Bitset) : UInt32 :=
  bits.data.foldl
    (fun count byte => count + UInt32.ofNat (popcount byte).toNat) 0

def set (bits : Bitset) : Except Fault Bitset :=
  let mask := 0xFF#8 >>> (bits.allocSize * 8 - bits.dataSize).toNat
  { bits with
    data := bits.data.mapIdx fun position byte =>
      if position < (bits.allocSize - 1).toNat then 0xFF#8 else byte
    allocated := List.length_mapIdx.trans bits.allocated
  : Bitset }.update (bits.allocSize - 1).toNat fun _ => mask

def setAt (bits : Bitset) (idx : Nat) (value : Bool) :
    Except Fault Bitset := do
  let bits ← bits.update (idx / 8) (· &&& ~~~ (0x01#8 <<< (idx % 8)))
  if value then
    bits.update (idx / 8) (· ||| (0x01#8 <<< (idx % 8)))
  else
    return bits

def reset (bits : Bitset) : Bitset :=
  bits.each fun _ => 0x00#8

def resetAt (bits : Bitset) (idx : Nat) : Except Fault Bitset :=
  bits.update (idx / 8) (· &&& ~~~ (0x01#8 <<< (idx % 8)))

def flip (bits : Bitset) : Except Fault Bitset :=
  let mask := 0xFF#8 >>> (bits.allocSize * 8 - bits.dataSize).toNat
  (bits.each (~~~ ·)).update (bits.allocSize - 1).toNat (· &&& mask)

def flipAt (bits : Bitset) (idx : Nat) : Except Fault Bitset :=
  bits.update (idx / 8) fun byte =>
    (~~~ byte &&& (0x01#8 <<< (idx % 8))) |||
      (byte &&& ~~~ (0x01#8 <<< (idx % 8)))

/-- The loop of `operator&=`, `operator|=` and `operator^=`. -/
def combine (operation : BitVec 8 → BitVec 8 → BitVec 8)
    (bits rhs : Bitset) : Except Fault Bitset :=
  if bits.dataSize ≠ rhs.dataSize then
    .error (.panic "Size does not match")
  else if room : bits.data.length ≤ rhs.data.length then
    .ok { bits with
      data := List.zipWith operation bits.data rhs.data
      allocated := by
        rw [List.length_zipWith, Nat.min_eq_left room]
        exact bits.allocated }
  else
    .error .outOfBounds

def and : Bitset → Bitset → Except Fault Bitset := combine (· &&& ·)

def or : Bitset → Bitset → Except Fault Bitset := combine (· ||| ·)

def xor : Bitset → Bitset → Except Fault Bitset := combine (· ^^^ ·)

/-- `operator~`, on a copy. -/
def complement (bits : Bitset) : Except Fault Bitset :=
  bits.flip

/-! The masks of the last byte. -/

structure Sized (bits : Bitset) (size : Nat) : Prop where
  nonempty : 0 < size
  dataSize_eq : bits.dataSize.toNat = size
  allocSize_eq : bits.allocSize.toNat = (size - 1) / 8 + 1

section Sized

variable {bits : Bitset} {size : Nat}

theorem Sized.lt (sized : bits.Sized size) : size < 2 ^ 32 :=
  sized.dataSize_eq ▸ bits.dataSize.toNat_lt

theorem Sized.length_eq (sized : bits.Sized size) :
    bits.data.length = (size - 1) / 8 + 1 :=
  bits.allocated.trans sized.allocSize_eq

theorem Sized.last_eq (sized : bits.Sized size) :
    (bits.allocSize - 1).toNat = (size - 1) / 8 := by
  have allocSize_eq := sized.allocSize_eq
  have lt := bits.allocSize.toNat_lt
  rw [UInt32.toNat_sub]
  simp only [UInt32.reduceToNat]
  omega

theorem Sized.used_eq (sized : bits.Sized size) :
    (bits.dataSize + 8 - bits.allocSize * 8).toNat =
      size - (size - 1) / 8 * 8 := by
  have allocSize_eq := sized.allocSize_eq
  have dataSize_eq := sized.dataSize_eq
  have lt := sized.lt
  have nonempty := sized.nonempty
  rw [UInt32.toNat_sub, UInt32.toNat_add, UInt32.toNat_mul]
  simp only [UInt32.reduceToNat]
  omega

theorem Sized.unused_eq (sized : bits.Sized size) :
    (bits.allocSize * 8 - bits.dataSize).toNat =
      8 - (size - (size - 1) / 8 * 8) := by
  have allocSize_eq := sized.allocSize_eq
  have dataSize_eq := sized.dataSize_eq
  have lt := sized.lt
  have nonempty := sized.nonempty
  rw [UInt32.toNat_sub, UInt32.toNat_mul]
  simp only [UInt32.reduceToNat]
  omega

theorem paddingMask_bit {used offset : Nat} (inside : offset < 8) :
    (0xFF#8 <<< used).getLsbD offset = decide (used ≤ offset) := by
  rw [BitVec.getLsbD_shiftLeft]
  have set : ∀ index, index < 8 → (0xFF#8).getLsbD index = true := by decide
  rw [set _ (by omega), Bool.and_true, decide_eq_true inside,
    Bool.true_and, ← decide_not, decide_eq_decide]
  exact Nat.not_lt

theorem valueMask_bit {used offset : Nat} (inside : offset < 8)
    (le : used ≤ 8) :
    (0xFF#8 >>> (8 - used)).getLsbD offset = decide (offset < used) := by
  rw [BitVec.getLsbD_ushiftRight]
  have set : ∀ index, index < 16 →
      (0xFF#8).getLsbD index = decide (index < 8) := by decide
  rw [set _ (by omega), decide_eq_decide]
  omega

theorem unitMask_bit {position : Nat} (inside : position < 8)
    (offset : Nat) :
    (0x01#8 <<< position).getLsbD offset = decide (offset = position) := by
  rw [BitVec.getLsbD_shiftLeft]
  by_cases same : offset = position
  · subst same
    simp [inside]
  · simp only [same, decide_false]
    by_cases below : offset < position
    · simp [below]
    · have rest : offset - position ≠ 0 := by omega
      simp [BitVec.getLsbD_one, rest]

theorem test_bit : ∀ byte : BitVec 8, ∀ offset < 8,
    (byte &&& (0x01#8 <<< offset) != 0) = byte.getLsbD offset := by
  decide +kernel

end Sized

structure Refines (bits : Bitset) (vector : Vector Bool size) : Prop
    extends bits.Sized size where
  bit_eq : ∀ index, bit bits.data index = vector[index]?.getD false

section Refines

variable {bits : Bitset} {size : Nat} {vector : Vector Bool size}

theorem Sized.byte (sized : bits.Sized size) {position : Nat}
    (inside : position ≤ (size - 1) / 8) :
    bits.byte position = .ok (bits.data.getD position 0#8) := by
  have below : position < bits.data.length := by
    rw [sized.length_eq]
    omega
  unfold Bitset.byte
  rw [List.getElem?_eq_getElem below, List.getD_eq_getElem _ _ below]

theorem Sized.update (sized : bits.Sized size) {position : Nat}
    (inside : position ≤ (size - 1) / 8) (change : BitVec 8 → BitVec 8) :
    ∃ result, bits.update position change = .ok result ∧
      result.Sized size ∧ ∀ index, bit result.data index =
        if index / 8 = position then
          (change (bits.data.getD position 0#8)).getLsbD (index % 8)
        else bit bits.data index := by
  have below : position < bits.data.length := by
    rw [sized.length_eq]
    omega
  unfold Bitset.update
  rw [if_pos below]
  exact ⟨_, rfl,
    ⟨sized.nonempty, sized.dataSize_eq, sized.allocSize_eq⟩,
    fun index => bit_modify below⟩

theorem Sized.each (sized : bits.Sized size)
    (change : BitVec 8 → BitVec 8) : (bits.each change).Sized size :=
  ⟨sized.nonempty, sized.dataSize_eq, sized.allocSize_eq⟩

theorem Refines.beyond (refines : bits.Refines vector) {index : Nat}
    (outside : size ≤ index) : bit bits.data index = false := by
  rw [refines.bit_eq, Vector.getElem?_eq_none outside]
  rfl

theorem Refines.inside (refines : bits.Refines vector) {index : Nat}
    (inside : index < size) : bit bits.data index = vector[index] := by
  rw [refines.bit_eq, Vector.getElem?_eq_getElem inside]
  rfl

theorem make_sized {size : UInt32} (nonempty : size ≠ 0) :
    (make size).Sized size.toNat := by
  have positive : 0 < size.toNat := by
    apply Nat.pos_of_ne_zero
    intro zero
    exact nonempty (UInt32.toNat_inj.mp zero)
  have lt := size.toNat_lt
  unfold make
  rw [if_pos (show 0 < size from UInt32.lt_iff_toNat_lt.mpr positive)]
  refine ⟨positive, rfl, ?_⟩
  change (((size - 1) / 8 + 1 : UInt32)).toNat = _
  rw [UInt32.toNat_add, UInt32.toNat_div, UInt32.toNat_sub]
  simp only [UInt32.reduceToNat]
  omega

theorem Sized.refines (sized : bits.Sized size)
    (inside : ∀ index (below : index < size),
      bit bits.data index = vector[index])
    (beyond : ∀ index, size ≤ index → index / 8 ≤ (size - 1) / 8 →
      bit bits.data index = false) : bits.Refines vector := by
  refine ⟨sized, fun index => ?_⟩
  by_cases below : index < size
  · rw [inside index below, Vector.getElem?_eq_getElem below]
    rfl
  · rw [Vector.getElem?_eq_none (by omega)]
    by_cases padding : index / 8 ≤ (size - 1) / 8
    · exact beyond index (by omega) padding
    · apply bit_beyond
      rw [sized.length_eq]
      omega

theorem make_refines {size : UInt32} (nonempty : size ≠ 0) :
    (make size).Refines (Vector.replicate size.toNat false) := by
  have zero : ∀ index, bit (make size).data index = false := by
    intro index
    unfold make bit
    split
    · dsimp only
      rw [List.getD_eq_getElem?_getD, List.getElem?_getD_replicate_default_eq]
      exact BitVec.getLsbD_zero
    · exact BitVec.getLsbD_zero
  exact (make_sized nonempty).refines
    (fun index below => by rw [zero, Vector.getElem_replicate])
    (fun index _ _ => zero index)

theorem Refines.test (refines : bits.Refines vector) {idx : Nat}
    (inside : idx < size) : bits.test idx = .ok vector[idx] := by
  have read := refines.inside inside
  unfold Bitset.test
  rw [refines.byte (by omega)]
  change Except.ok _ = _
  rw [test_bit _ _ (Nat.mod_lt _ (by decide)), ← read]
  rfl

/-! Every operation does to the bytes what it does to the vector. -/

theorem Refines.reset (refines : bits.Refines vector) :
    bits.reset.Refines (Vector.replicate size false) := by
  have zero : ∀ index, bit bits.reset.data index = false := by
    intro index
    by_cases inside : index < bits.data.length * 8
    · exact @bit_map 8 bits.data index (fun _ => 0x00#8) (fun _ => false)
        (fun _ _ _ => BitVec.getLsbD_zero) inside
    · apply bit_beyond
      rw [show bits.reset.data.length = bits.data.length from
        List.length_map _]
      omega
  exact (refines.each _).refines
    (fun index below => by
      rw [Vector.getElem_replicate]
      exact zero index)
    (fun index _ _ => zero index)

theorem Refines.updateAt (refines : bits.Refines vector) {idx : Nat}
    (inside : idx < size) (change : BitVec 8 → BitVec 8) (value : Bool)
    (changed : ∀ offset < 8, (change (bits.data.getD (idx / 8) 0#8)).getLsbD
        offset = if offset = idx % 8 then value else
          (bits.data.getD (idx / 8) 0#8).getLsbD offset) :
    ∃ result, bits.update (idx / 8) change = .ok result ∧
      result.Refines (vector.set idx value) := by
  obtain ⟨result, updated, sized, bits_eq⟩ :=
    refines.update (Nat.div_le_div_right (Nat.le_sub_one_of_lt inside)) change
  have changed_eq : ∀ index, bit result.data index =
      if index = idx then value else bit bits.data index := by
    intro index
    rw [bits_eq]
    split
    · next same =>
        rw [changed _ (Nat.mod_lt _ (by decide)), ← same]
        by_cases equal : index = idx
        · rw [if_pos (by rw [equal]), if_pos equal]
        · rw [if_neg (by omega), if_neg equal]
          rfl
    · next different =>
        rw [if_neg (by rintro rfl; exact different rfl)]
  refine ⟨result, updated, sized.refines ?_ ?_⟩
  · intro index below
    rw [changed_eq, Vector.getElem_set]
    by_cases equal : idx = index
    · rw [if_pos equal.symm, if_pos equal]
    · rw [if_neg (Ne.symm equal), if_neg equal, refines.inside below]
  · intro index outside _
    rw [changed_eq, if_neg (by omega), refines.beyond outside]

theorem Refines.resetAt (refines : bits.Refines vector) {idx : Nat}
    (inside : idx < size) : ∃ result, bits.resetAt idx = .ok result ∧
      result.Refines (vector.set idx false) := by
  refine refines.updateAt inside _ _ ?_
  intro offset below
  have position := Nat.mod_lt idx (show 0 < 8 by decide)
  rw [BitVec.getLsbD_and, BitVec.getLsbD_not, unitMask_bit position]
  by_cases same : offset = idx % 8
  · simp [same]
  · simp [same, below]

theorem Refines.setAt (refines : bits.Refines vector) {idx : Nat}
    (inside : idx < size) (value : Bool) :
    ∃ result, bits.setAt idx value = .ok result ∧
      result.Refines (vector.set idx value) := by
  obtain ⟨cleared, updated, cleared_refines⟩ := refines.resetAt inside
  unfold Bitset.setAt
  change ∃ result, (bits.resetAt idx >>= _) = .ok result ∧ _
  rw [updated]
  change ∃ result, (if value then _ else _) = Except.ok result ∧ _
  cases value with
  | false => exact ⟨cleared, rfl, cleared_refines⟩
  | true =>
      rw [if_pos rfl]
      have changed : ∀ offset < 8,
          (cleared.data.getD (idx / 8) 0#8 |||
            (0x01#8 <<< (idx % 8))).getLsbD offset =
          if offset = idx % 8 then true
          else (cleared.data.getD (idx / 8) 0#8).getLsbD offset := by
        intro offset below
        have position := Nat.mod_lt idx (show 0 < 8 by decide)
        rw [BitVec.getLsbD_or, unitMask_bit position]
        by_cases same : offset = idx % 8
        · simp [same]
        · simp [same]
      obtain ⟨result, set, set_refines⟩ :=
        cleared_refines.updateAt inside (· ||| (0x01#8 <<< (idx % 8))) true
          changed
      exact ⟨result, set, by simpa using set_refines⟩

theorem Refines.flipAt (refines : bits.Refines vector) {idx : Nat}
    (inside : idx < size) : ∃ result, bits.flipAt idx = .ok result ∧
      result.Refines (vector.set idx (!vector[idx])) := by
  have read := refines.inside inside
  refine refines.updateAt inside _ _ ?_
  intro offset below
  have position := Nat.mod_lt idx (show 0 < 8 by decide)
  rw [BitVec.getLsbD_or, BitVec.getLsbD_and, BitVec.getLsbD_and,
    BitVec.getLsbD_not, BitVec.getLsbD_not, unitMask_bit position, ← read]
  by_cases same : offset = idx % 8
  · simp [same, position, bit]
  · simp [same, below]

/-- A last byte with no bit from `size` on completes the bytes before it. -/
theorem Sized.completed (sized : bits.Sized size)
    {change : BitVec 8 → BitVec 8}
    (changed : ∀ offset < 8,
      (change (bits.data.getD ((size - 1) / 8) 0#8)).getLsbD offset =
        vector[(size - 1) / 8 * 8 + offset]?.getD false)
    (kept : ∀ index < (size - 1) / 8 * 8,
      bit bits.data index = vector[index]?.getD false) :
    ∃ result, bits.update (bits.allocSize - 1).toNat change = .ok result ∧
      result.Refines vector := by
  obtain ⟨result, updated, result_sized, bits_eq⟩ :=
    sized.update (Nat.le_refl _) change
  rw [sized.last_eq]
  refine ⟨result, updated, result_sized, fun index => ?_⟩
  have split := Nat.div_add_mod' index 8
  rcases Nat.lt_trichotomy (index / 8) ((size - 1) / 8) with
    earlier | last | later
  · rw [bits_eq, if_neg (by omega), kept index (by omega)]
  · rw [last] at split
    rw [bits_eq, if_pos last, changed _ (Nat.mod_lt _ (by decide)), split]
  · rw [bits_eq, if_neg (by omega), Vector.getElem?_eq_none (by omega)]
    apply bit_beyond
    rw [sized.length_eq]
    omega

theorem Refines.set (refines : bits.Refines vector) :
    ∃ result, bits.set = .ok result ∧
      result.Refines (Vector.replicate size true) := by
  have nonempty := refines.nonempty
  have value : ∀ index, (Vector.replicate size true)[index]?.getD false =
      decide (index < size) := by
    intro index
    rw [Vector.getElem?_replicate]
    split <;> simp [*]
  have base : Sized { bits with
      data := bits.data.mapIdx fun position byte =>
        if position < (bits.allocSize - 1).toNat then 0xFF#8 else byte
      allocated := List.length_mapIdx.trans bits.allocated } size :=
    ⟨nonempty, refines.dataSize_eq, refines.allocSize_eq⟩
  apply base.completed
  · intro offset below
    rw [refines.unused_eq, valueMask_bit below (by omega), value,
      decide_eq_decide]
    omega
  · intro index earlier
    have word : index / 8 < bits.data.length := by
      rw [refines.length_eq]
      omega
    have filled : ∀ offset < 8, (0xFF#8).getLsbD offset = true := by decide
    rw [value, decide_eq_true (by omega)]
    simp only [bit]
    rw [List.getD_eq_getElem _ _ (by simpa using word), List.getElem_mapIdx,
      refines.last_eq, if_pos (by omega)]
    exact filled _ (Nat.mod_lt _ (by decide))

theorem Refines.flip (refines : bits.Refines vector) :
    ∃ result, bits.flip = .ok result ∧
      result.Refines (vector.map (!·)) := by
  have nonempty := refines.nonempty
  have inverted : ∀ index < ((size - 1) / 8 + 1) * 8,
      bit (bits.each (~~~ ·)).data index = !bit bits.data index := by
    intro index below
    apply bit_map
    · intro word offset inside
      simp [inside]
    · rwa [refines.length_eq]
  have value : ∀ index < size,
      (vector.map (!·))[index]?.getD false = !bit bits.data index := by
    intro index below
    rw [refines.inside below, Vector.getElem?_eq_getElem (by simpa using below)]
    simp
  apply (refines.each _).completed
  · intro offset below
    have read := inverted ((size - 1) / 8 * 8 + offset) (by omega)
    rw [bit_of_word below] at read
    rw [BitVec.getLsbD_and, read]
    change (_ && (0xFF#8 >>> (bits.allocSize * 8 - bits.dataSize).toNat).getLsbD
      offset) = _
    rw [refines.unused_eq, valueMask_bit below (by omega)]
    by_cases used : offset < size - (size - 1) / 8 * 8
    · rw [value _ (by omega), decide_eq_true used, Bool.and_true]
    · rw [decide_eq_false used, Bool.and_false,
        Vector.getElem?_eq_none (by omega)]
      rfl
  · intro index earlier
    rw [inverted _ (by omega), value _ (by omega)]

theorem Refines.combine {operation : BitVec 8 → BitVec 8 → BitVec 8}
    {onBits : Bool → Bool → Bool}
    (pointwise : ∀ byte other offset, offset < 8 →
      (operation byte other).getLsbD offset =
        onBits (byte.getLsbD offset) (other.getLsbD offset))
    (clear : onBits false false = false)
    (refines : bits.Refines vector) {rhs : Bitset} {operand : Vector Bool size}
    (rhs_refines : rhs.Refines operand) :
    ∃ result, Bitset.combine operation bits rhs = .ok result ∧
      result.Refines (Vector.zipWith onBits vector operand) := by
  have sizes : bits.dataSize = rhs.dataSize := by
    apply UInt32.toNat_inj.mp
    rw [refines.dataSize_eq, rhs_refines.dataSize_eq]
  have lengths : bits.data.length = rhs.data.length := by
    rw [refines.length_eq, rhs_refines.length_eq]
  unfold Bitset.combine
  rw [if_neg (not_not_intro sizes), dif_pos (Nat.le_of_eq lengths)]
  refine ⟨_, rfl, Sized.refines
    ⟨refines.nonempty, refines.dataSize_eq, refines.allocSize_eq⟩ ?_ ?_⟩
  · intro index below
    rw [bit_zipWith pointwise lengths (by rw [refines.length_eq]; omega),
      refines.inside below, rhs_refines.inside below, Vector.getElem_zipWith]
  · intro index outside padding
    rw [bit_zipWith pointwise lengths (by rw [refines.length_eq]; omega),
      refines.beyond outside, rhs_refines.beyond outside, clear]

/-! An index that is not below the size meets the padding or no byte. -/

theorem Refines.test_any (refines : bits.Refines vector) (idx : Nat) :
    Returns (fun value => value = vector[idx]?.getD false)
      (fun _ => size ≤ idx) (bits.test idx) := by
  by_cases inside : idx < size
  · rw [refines.test inside, Vector.getElem?_eq_getElem inside]
    rfl
  · by_cases padding : idx / 8 ≤ (size - 1) / 8
    · have read := refines.bit_eq idx
      unfold Bitset.test
      rw [refines.byte padding, ← read]
      exact test_bit _ _ (Nat.mod_lt _ (by decide))
    · have outside : bits.data.length ≤ idx / 8 := by
        rw [refines.length_eq]
        omega
      unfold Bitset.test Bitset.byte
      rw [List.getElem?_eq_none outside]
      exact Nat.le_of_not_lt inside

theorem set_eq (vector : Vector α size) {idx : Nat} (inside : idx < size)
    (value : α) : vector.set idx value = vector.setIfInBounds idx value := by
  apply Vector.ext
  intro index below
  rw [Vector.getElem_set, Vector.getElem_setIfInBounds]

theorem Refines.resetAt_any (refines : bits.Refines vector) (idx : Nat) :
    Returns (fun result => result.Refines (vector.setIfInBounds idx false))
      (fun _ => size ≤ idx) (bits.resetAt idx) := by
  by_cases inside : idx < size
  · obtain ⟨result, reset, result_refines⟩ := refines.resetAt inside
    rw [reset, ← set_eq vector inside]
    exact result_refines
  · by_cases padding : idx / 8 ≤ (size - 1) / 8
    · obtain ⟨result, updated, sized, bits_eq⟩ := refines.update padding
        (· &&& ~~~ (0x01#8 <<< (idx % 8)))
      unfold Bitset.resetAt
      rw [updated]
      refine ⟨sized, fun index => ?_⟩
      have unchanged : (vector.setIfInBounds idx false)[index]?.getD false =
          bit bits.data index := by
        rw [refines.bit_eq, Vector.getElem?_setIfInBounds]
        split
        · next same =>
            subst same
            rw [Vector.getElem?_eq_none (by omega)]
        · rfl
      rw [unchanged, bits_eq]
      split
      · next same =>
          have position := Nat.mod_lt idx (show 0 < 8 by decide)
          have offset := Nat.mod_lt index (show 0 < 8 by decide)
          rw [BitVec.getLsbD_and, BitVec.getLsbD_not, unitMask_bit position,
            ← same]
          change (bit bits.data index && _) = _
          by_cases equal : index % 8 = idx % 8
          · rw [refines.beyond (by omega), Bool.false_and]
          · simp [equal, offset]
      · rfl
    · have outside : ¬ idx / 8 < bits.data.length := by
        rw [refines.length_eq]
        omega
      unfold Bitset.resetAt Bitset.update
      rw [if_neg outside]
      exact Nat.le_of_not_lt inside

/-! The queries read the bytes whole. -/

theorem Refines.none (refines : bits.Refines vector) :
    bits.none = vector.all (!·) := by
  have bytes := foldl_or bits.data 0x00#8
  rw [eq_self_iff_true, true_and] at bytes
  rw [Bool.eq_iff_iff, Vector.all_eq_true]
  unfold Bitset.none
  rw [beq_iff_eq, bytes]
  simp only [eq_zero_iff, forall_bit, Bool.not_eq_eq_eq_not, Bool.not_true]
  constructor
  · intro clear index below
    rw [← refines.inside below]
    by_cases inside : index < bits.data.length * 8
    · exact clear index inside
    · exact bit_beyond (by omega)
  · intro clear index _
    by_cases below : index < size
    · rw [refines.inside below]
      exact clear index below
    · exact refines.beyond (by omega)

theorem Refines.any (refines : bits.Refines vector) :
    bits.any = vector.any (·) := by
  unfold Bitset.any
  rw [refines.none, Bool.eq_iff_iff]
  simp [Vector.any_eq_true]

theorem Refines.all (refines : bits.Refines vector) :
    bits.all = .ok (vector.all (·)) := by
  have nonempty := refines.nonempty
  unfold Bitset.all
  rw [refines.last_eq, refines.byte (Nat.le_refl _), refines.used_eq]
  change Except.ok _ = Except.ok _
  rw [Except.ok.injEq, Bool.eq_iff_iff, Vector.all_eq_true, beq_iff_eq]
  have bytes := foldl_and (bits.data.take ((size - 1) / 8)) 0xFF#8
  rw [show BitVec.allOnes 8 = 0xFF#8 from rfl, eq_self_iff_true,
    true_and] at bytes
  rw [← show BitVec.allOnes 8 = 0xFF#8 from rfl, BitVec.and_eq_allOnes_iff,
    show BitVec.allOnes 8 = 0xFF#8 from rfl, bytes]
  have early : (∀ byte ∈ bits.data.take ((size - 1) / 8), byte = 0xFF#8) ↔
      ∀ index < (size - 1) / 8 * 8, bit bits.data index = true := by
    rw [← show BitVec.allOnes 8 = 0xFF#8 from rfl]
    simp only [eq_allOnes_iff, forall_bit, List.length_take,
      refines.length_eq]
    rw [Nat.min_eq_left (by omega)]
    apply forall₂_congr
    intro index below
    rw [bit_take (by omega)]
  have late : bits.data.getD ((size - 1) / 8) 0#8 |||
          0xFF#8 <<< (size - (size - 1) / 8 * 8) = 0xFF#8 ↔
      ∀ offset < size - (size - 1) / 8 * 8,
        bit bits.data ((size - 1) / 8 * 8 + offset) = true := by
    rw [← show BitVec.allOnes 8 = 0xFF#8 from rfl, eq_allOnes_iff]
    constructor
    · intro set offset below
      have read := set offset (by omega)
      rw [BitVec.getLsbD_or, show BitVec.allOnes 8 = 0xFF#8 from rfl,
        paddingMask_bit (by omega), decide_eq_false (by omega),
        Bool.or_false] at read
      rwa [bit_of_word (by omega)]
    · intro set offset below
      rw [BitVec.getLsbD_or, show BitVec.allOnes 8 = 0xFF#8 from rfl,
        paddingMask_bit below]
      by_cases used : offset < size - (size - 1) / 8 * 8
      · have read := set offset used
        rw [bit_of_word below] at read
        rw [read, Bool.true_or]
      · rw [decide_eq_true (by omega), Bool.or_true]
  rw [early, late]
  constructor
  · rintro ⟨before, last⟩ index below
    rw [← refines.inside below]
    by_cases earlier : index < (size - 1) / 8 * 8
    · exact before index earlier
    · have read := last (index - (size - 1) / 8 * 8) (by omega)
      rwa [Nat.add_sub_cancel' (by omega)] at read
  · intro set
    constructor
    · intro index below
      rw [refines.inside (by omega)]
      exact set index (by omega)
    · intro offset below
      rw [refines.inside (by omega)]
      exact set _ (by omega)

theorem foldl_count (bytes : List (BitVec 8)) (start : UInt32) :
    (bytes.foldl (fun count byte =>
        count + UInt32.ofNat (popcount byte).toNat) start).toNat =
      (start.toNat + (bytes.map ones).sum) % 2 ^ 32 := by
  induction bytes generalizing start with
  | nil => exact (Nat.mod_eq_of_lt start.toNat_lt).symm
  | cons head tail induction =>
      have small : (popcount head).toNat < 2 ^ 32 :=
        Nat.lt_trans (popcount head).isLt (by decide)
      rw [List.foldl_cons, induction, UInt32.toNat_add,
        UInt32.toNat_ofNat_of_lt' small, popcount_byte, List.map_cons,
        List.sum_cons, Nat.mod_add_mod, Nat.add_assoc]

theorem Refines.count (refines : bits.Refines vector) :
    bits.count.toNat = vector.count true := by
  have total : (bits.data.map ones).sum = vector.count true := by
    have read : bit bits.data = fun index => vector[index]?.getD false :=
      funext refines.bit_eq
    rw [sum_ones, countP_range_of_beyond (fun _ => refines.beyond)
      (by rw [refines.length_eq]; omega), read, ← Vector.count_toList,
      count_true, Vector.length_toList]
    simp only [Vector.getElem?_toList]
  have le : vector.count true ≤ size := Vector.count_le_size
  have lt := refines.lt
  unfold Bitset.count
  rw [foldl_count, total]
  change (0 + _) % 2 ^ 32 = _
  rw [Nat.zero_add, Nat.mod_eq_of_lt (by omega)]

end Refines

/-! The calls that made a set, with the sets given to them. -/

inductive Script (size : UInt32) where
  | construct
  | set (script : Script size)
  | setAt (script : Script size) (idx : Fin size.toNat) (value : Bool)
  | reset (script : Script size)
  | resetAt (script : Script size) (idx : Fin size.toNat)
  | flip (script : Script size)
  | flipAt (script : Script size) (idx : Fin size.toNat)
  | and (script rhs : Script size)
  | or (script rhs : Script size)
  | xor (script rhs : Script size)
  | complement (script : Script size)

namespace Script

variable {size : UInt32}

def run : Script size → Except Fault Bitset
  | construct => .ok (make size)
  | set script => do (← script.run).set
  | setAt script idx value => do (← script.run).setAt idx value
  | reset script => do return (← script.run).reset
  | resetAt script idx => do (← script.run).resetAt idx
  | flip script => do (← script.run).flip
  | flipAt script idx => do (← script.run).flipAt idx
  | and script rhs => do (← script.run).and (← rhs.run)
  | or script rhs => do (← script.run).or (← rhs.run)
  | xor script rhs => do (← script.run).xor (← rhs.run)
  | complement script => do (← script.run).complement

def vector : Script size → Vector Bool size.toNat
  | construct => Vector.replicate size.toNat false
  | set _ => Vector.replicate size.toNat true
  | setAt script idx value => script.vector.set idx value
  | reset _ => Vector.replicate size.toNat false
  | resetAt script idx => script.vector.set idx false
  | flip script => script.vector.map (!·)
  | flipAt script idx => script.vector.set idx (!script.vector[idx])
  | and script rhs => Vector.zipWith (· && ·) script.vector rhs.vector
  | or script rhs => Vector.zipWith (· || ·) script.vector rhs.vector
  | xor script rhs => Vector.zipWith (· ^^ ·) script.vector rhs.vector
  | complement script => script.vector.map (!·)

theorem run_refines (nonempty : size ≠ 0) (script : Script size) :
    ∃ bits, script.run = .ok bits ∧ bits.Refines script.vector := by
  induction script with
  | construct => exact ⟨_, rfl, make_refines nonempty⟩
  | set script induction =>
      obtain ⟨bits, run, refines⟩ := induction
      rw [Script.run, run]
      exact refines.set
  | setAt script idx value induction =>
      obtain ⟨bits, run, refines⟩ := induction
      rw [Script.run, run]
      exact refines.setAt idx.isLt value
  | reset script induction =>
      obtain ⟨bits, run, refines⟩ := induction
      rw [Script.run, run]
      exact ⟨_, rfl, refines.reset⟩
  | resetAt script idx induction =>
      obtain ⟨bits, run, refines⟩ := induction
      rw [Script.run, run]
      exact refines.resetAt idx.isLt
  | flip script induction =>
      obtain ⟨bits, run, refines⟩ := induction
      rw [Script.run, run]
      exact refines.flip
  | flipAt script idx induction =>
      obtain ⟨bits, run, refines⟩ := induction
      rw [Script.run, run]
      exact refines.flipAt idx.isLt
  | and script rhs induction rhs_induction =>
      obtain ⟨bits, run, refines⟩ := induction
      obtain ⟨operand, rhs_run, rhs_refines⟩ := rhs_induction
      rw [Script.run, run, rhs_run]
      exact refines.combine (fun _ _ _ _ => BitVec.getLsbD_and) rfl rhs_refines
  | or script rhs induction rhs_induction =>
      obtain ⟨bits, run, refines⟩ := induction
      obtain ⟨operand, rhs_run, rhs_refines⟩ := rhs_induction
      rw [Script.run, run, rhs_run]
      exact refines.combine (fun _ _ _ _ => BitVec.getLsbD_or) rfl rhs_refines
  | xor script rhs induction rhs_induction =>
      obtain ⟨bits, run, refines⟩ := induction
      obtain ⟨operand, rhs_run, rhs_refines⟩ := rhs_induction
      rw [Script.run, run, rhs_run]
      exact refines.combine (fun _ _ _ _ => BitVec.getLsbD_xor) rfl rhs_refines
  | complement script induction =>
      obtain ⟨bits, run, refines⟩ := induction
      rw [Script.run, run]
      exact refines.flip

/-- The set a script makes answers as the vector does, and what its bytes
hold from bit `size` on is zero. -/
theorem answers (nonempty : size ≠ 0) (script : Script size) :
    ∃ bits, script.run = .ok bits ∧
      (∀ index, size.toNat ≤ index → bit bits.data index = false) ∧
      (∀ (idx : Nat) (inside : idx < size.toNat),
        bits.test idx = .ok script.vector[idx]) ∧
      bits.all = .ok (script.vector.all (·)) ∧
      bits.any = script.vector.any (·) ∧
      bits.none = script.vector.all (!·) ∧
      bits.count.toNat = script.vector.count true := by
  obtain ⟨bits, run, refines⟩ := script.run_refines nonempty
  exact ⟨bits, run, fun _ => refines.beyond, fun _ => refines.test,
    refines.all, refines.any, refines.none, refines.count⟩

def allButThird : Script 12 :=
  complement (setAt construct ⟨3, Nat.le_of_ble_eq_true rfl⟩ true)

theorem answers_allButThird :
    ∃ bits, allButThird.run = .ok bits ∧ bits.all = .ok false ∧
      bits.count = 11 := by
  obtain ⟨bits, run, -, -, all, -, -, count⟩ :=
    answers (by decide) allButThird
  have all_eq : allButThird.vector.all (·) = false := by
    decide +kernel
  have count_eq : allButThird.vector.count true = (11 : UInt32).toNat := by
    decide +kernel
  rw [all_eq] at all
  exact ⟨bits, run, all, UInt32.toNat_inj.mp (count.trans count_eq)⟩

end Script

end Bitset

end SimpleSSD.Util
