import SimpleSSD.HIL.NVMe.Chunks

namespace SimpleSSD.HIL.NVMe.OpenChannel.OpenChannelSSD20

open Data

/-! The bits of the completion entry name the entries that are refused. -/

def maskOf (reply : Reply) : UInt64 :=
  (reply.reserved.toUInt64 <<< 32) ||| reply.dword0.toUInt64

def errors (check : Check) : List ChunkUpdateEntry →
    (pDescriptor : List ChunkDescriptor) → (err : Bool) → List Bool
  | [], _, _ => []
  | iter :: rest, pDescriptor, err =>
      match pDescriptor[iter.pDesc]? with
      | none => []
      | some desc =>
          let (err, _, desc) := check err desc iter.pageIdx
          err :: errors check rest (pDescriptor.set iter.pDesc desc) err

def kept : List ChunkUpdateEntry → List Bool → List ChunkUpdateEntry
  | iter :: rest, err :: more =>
      if err then kept rest more else iter :: kept rest more
  | _, _ => []

def bitAt (position : Nat) : UInt64 := UInt64.ofNat (2 ^ position)

theorem bitAt_succ {position : Nat} (inside : position < 64) :
    bitAt position <<< 1 = bitAt (position + 1) := by
  have every : ∀ position : Fin 64,
      bitAt position.val <<< 1 = bitAt (position.val + 1) := by
    decide +kernel
  exact every ⟨position, inside⟩

theorem bitAt_toNat {position : Nat} (inside : position < 64) :
    (bitAt position).toNat = 2 ^ position := by
  rw [bitAt, UInt64.toNat_ofNat']
  exact Nat.mod_eq_of_lt (Nat.pow_lt_pow_right (by decide) inside)

theorem bitAt_halves {position : Nat} (inside : position < 64) :
    if bitAt position ≤ 0xFFFFFFFF then
      (bitAt position).toUInt32.toUInt64 = bitAt position
    else (bitAt position >>> 32).toUInt32.toUInt64 <<< 32 =
      bitAt position := by
  have every : ∀ position : Fin 64,
      if bitAt position.val ≤ 0xFFFFFFFF then
        (bitAt position.val).toUInt32.toUInt64 = bitAt position.val
      else (bitAt position.val >>> 32).toUInt32.toUInt64 <<< 32 =
        bitAt position.val := by
    decide +kernel
  exact every ⟨position, inside⟩

theorem maskOf_mark {position : Nat} (inside : position < 64) (err : Bool)
    (reply : Reply) :
    maskOf (mark err (bitAt position) reply) =
      if err then maskOf reply ||| bitAt position else maskOf reply := by
  have halves := bitAt_halves inside
  simp only [mark]
  cases err with
  | false => rfl
  | true =>
      simp only [if_true]
      split
      · next low =>
          rw [if_pos low] at halves
          simp only [maskOf, UInt32.toUInt64_or, halves, UInt64.or_assoc]
      · next high =>
          rw [if_neg high] at halves
          simp only [maskOf, UInt32.toUInt64_or, UInt64.shiftLeft_or, halves]
          rw [UInt64.or_assoc, UInt64.or_assoc,
            UInt64.or_comm (bitAt position)]

theorem testBit_mark {position : Nat} (inside : position < 64) (err : Bool)
    (reply : Reply) (index : Nat) :
    (maskOf (mark err (bitAt position) reply)).toNat.testBit index =
      ((maskOf reply).toNat.testBit index ||
        (decide (index = position) && err)) := by
  rw [maskOf_mark inside]
  cases err with
  | false => simp
  | true =>
      simp only [if_true, UInt64.toNat_or, Nat.testBit_or,
        bitAt_toNat inside, Nat.testBit_two_pow, Bool.and_true]
      congr 1
      exact decide_eq_decide.mpr eq_comm

theorem testBit_updateChunks {check : Check} {position : Nat}
    {chunks : List ChunkUpdateEntry} {pDescriptor after : List ChunkDescriptor}
    {err failed : Bool} {reply replied : Reply}
    (inside : position + chunks.length ≤ 64)
    (updated : updateChunks check chunks pDescriptor err (bitAt position)
      reply = some (after, failed, replied)) (index : Nat) :
    (maskOf replied).toNat.testBit index =
      ((maskOf reply).toNat.testBit index ||
        (decide (position ≤ index) &&
          (errors check chunks pDescriptor err)[index - position]? ==
            some true)) := by
  induction chunks generalizing position pDescriptor err reply with
  | nil =>
      cases updated
      simp [errors]
  | cons iter rest induction =>
      rw [List.length_cons] at inside
      simp only [updateChunks, Option.bind_eq_some_iff] at updated
      obtain ⟨desc, found, updated⟩ := updated
      rw [bitAt_succ (by omega)] at updated
      rw [induction (by omega) updated, testBit_mark (by omega)]
      simp only [errors, found]
      rcases Nat.lt_trichotomy index position with before | here | behind
      · rw [decide_eq_false (by omega : ¬ index = position),
          decide_eq_false (by omega : ¬ position + 1 ≤ index),
          decide_eq_false (by omega : ¬ position ≤ index)]
        simp [maskOf]
      · subst here
        rw [decide_eq_false (by omega : ¬ index + 1 ≤ index), Nat.sub_self]
        simp [maskOf]
      · obtain ⟨more, rfl⟩ := Nat.exists_eq_add_of_lt behind
        rw [decide_eq_false (by omega : ¬ position + more + 1 = position),
          decide_eq_true (by omega : position + 1 ≤ position + more + 1),
          decide_eq_true (by omega : position ≤ position + more + 1),
          show position + more + 1 - (position + 1) = more by omega,
          show position + more + 1 - position = more + 1 by omega,
          List.getElem?_cons_succ]
        simp [maskOf]

theorem removeInvalid_eq {mask : UInt64} {position : Nat}
    {chunks : List ChunkUpdateEntry} {failed : List Bool}
    (inside : position + chunks.length ≤ 64)
    (sized : failed.length = chunks.length)
    (bits : ∀ offset, offset < chunks.length →
      mask.toNat.testBit (position + offset) =
        (failed[offset]? == some true)) :
    removeInvalid mask (bitAt position) chunks = kept chunks failed := by
  induction chunks generalizing position failed with
  | nil => rfl
  | cons iter rest induction =>
      rw [List.length_cons] at inside sized bits
      cases failed with
      | nil => cases sized
      | cons err more =>
          have here := bits 0 (by omega)
          rw [Nat.add_zero] at here
          have tested : mask &&& bitAt position ≠ 0 ↔ err = true := by
            rw [ne_eq, ← UInt64.toNat_inj, UInt64.toNat_and,
              bitAt_toNat (by omega), Nat.and_two_pow, here,
              UInt64.toNat_zero]
            cases err <;> simp
          have remaining := induction (by omega : position + 1 + rest.length ≤ 64)
            (Nat.succ.inj sized) (by
              intro offset below
              have next := bits (offset + 1) (by omega)
              rw [List.getElem?_cons_succ] at next
              rw [← next]
              congr 1
              omega)
          simp only [removeInvalid, kept, tested, bitAt_succ
            (by omega : position < 64), remaining]

end SimpleSSD.HIL.NVMe.OpenChannel.OpenChannelSSD20
