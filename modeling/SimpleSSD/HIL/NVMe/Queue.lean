import SimpleSSD.Data.Ring

namespace SimpleSSD.HIL.NVMe

inductive Panic where
  | completionQueueOverflow
  | completionQueueNotCreated
  | invalidArbitration
  /-- A queue table is read past its end. -/
  | outOfTable
  /-- A member of a queue that does not exist is used. -/
  | nullQueue
  /-- An end iterator is erased or advanced. -/
  | invalidIterator
  /-- A loop takes more rounds than the model was given. -/
  | outOfFuel
  deriving DecidableEq, Repr

def Panic.message : Panic → String
  | .completionQueueOverflow => "Completion queue overflow"
  | .completionQueueNotCreated =>
      "nvme_ctrl: Completion Queue not created! CQID %d"
  | .invalidArbitration => "nvme_ctrl: Invalid arbitration method"
  | .outOfTable | .nullQueue | .invalidIterator | .outOfFuel => ""

inductive Priority where
  | urgent
  | high
  | medium
  | low
  deriving DecidableEq, Repr

structure Queue where
  id : Nat
  head : UInt16
  tail : UInt16
  size : UInt16
  deriving DecidableEq, Repr

structure SQueue extends Queue where
  cqID : Nat
  priority : Priority
  deriving DecidableEq, Repr

structure CQueue extends Queue where
  ien : Bool
  phase : Bool
  interruptVector : Nat
  deriving DecidableEq, Repr

/-- The members of `CQEntry` that the queues and the driver use. -/
structure CQEntry where
  commandID : UInt16
  status : UInt16
  deriving DecidableEq, Repr

namespace Queue

def make (qid : Nat) (length : UInt16) : Queue where
  id := qid
  head := 0
  tail := 0
  size := length

def getItemCount (queue : Queue) : UInt16 :=
  if queue.head ≤ queue.tail then queue.tail - queue.head
  else queue.size - queue.head + queue.tail

/-- `index++`, with a turn at the end of the ring. -/
def next (queue : Queue) (index : UInt16) : UInt16 :=
  if index + 1 = queue.size then 0 else index + 1

structure InRange (queue : Queue) : Prop where
  head_lt : queue.head < queue.size
  tail_lt : queue.tail < queue.size

instance (queue : Queue) : Decidable queue.InRange :=
  decidable_of_iff (queue.head < queue.size ∧ queue.tail < queue.size)
    ⟨fun both => ⟨both.1, both.2⟩, fun inRange => ⟨inRange.1, inRange.2⟩⟩

theorem next_toNat {queue : Queue} {index : UInt16}
    (inside : index < queue.size) :
    (queue.next index).toNat = Ring.next queue.size.toNat index.toNat := by
  have below := UInt16.lt_iff_toNat_lt.mp inside
  have bounded := queue.size.toNat_lt
  have stepped : (index + 1).toNat = index.toNat + 1 := by
    rw [UInt16.toNat_add]
    exact Nat.mod_eq_of_lt (by simp; omega)
  unfold next Ring.next
  rw [← stepped]
  by_cases last : index + 1 = queue.size
  · rw [if_pos last, if_pos (congrArg UInt16.toNat last)]
    rfl
  · rw [if_neg last, if_neg fun equal => last (UInt16.toNat_inj.mp equal)]

theorem next_lt {queue : Queue} {index : UInt16}
    (inside : index < queue.size) : queue.next index < queue.size := by
  rw [UInt16.lt_iff_toNat_lt, next_toNat inside]
  exact Ring.next_lt (UInt16.lt_iff_toNat_lt.mp inside)

theorem InRange.getItemCount_toNat {queue : Queue} (inRange : queue.InRange) :
    queue.getItemCount.toNat =
      Ring.count queue.size.toNat queue.head.toNat queue.tail.toNat := by
  have headInside := UInt16.lt_iff_toNat_lt.mp inRange.head_lt
  have tailInside := UInt16.lt_iff_toNat_lt.mp inRange.tail_lt
  have bounded := queue.size.toNat_lt
  unfold getItemCount Ring.count
  simp only [UInt16.le_iff_toNat_le]
  split
  · next ordered =>
      exact UInt16.toNat_sub_of_le _ _ (UInt16.le_iff_toNat_le.mpr ordered)
  · next turned =>
      have rest : (queue.size - queue.head).toNat =
          queue.size.toNat - queue.head.toNat :=
        UInt16.toNat_sub_of_le _ _ (UInt16.le_iff_toNat_le.mpr (by omega))
      rw [UInt16.toNat_add, rest]
      exact Nat.mod_eq_of_lt (by omega)

end Queue

namespace SQueue

def make (cqid : Nat) (priority : Priority) (qid : Nat) (size : UInt16) :
    SQueue where
  toQueue := Queue.make qid size
  cqID := cqid
  priority := priority

def setTail (queue : SQueue) (newTail : UInt16) : SQueue :=
  { queue with tail := newTail }

def getData (queue : SQueue) : Option UInt16 × SQueue :=
  if queue.head ≠ queue.tail then
    (some queue.head, { queue with head := queue.next queue.head })
  else (none, queue)

end SQueue

namespace CQueue

def make (iv : Nat) (ien : Bool) (qid : Nat) (size : UInt16) : CQueue where
  toQueue := Queue.make qid size
  ien := ien
  phase := true
  interruptVector := iv

def setHead (queue : CQueue) (newHead : UInt16) : CQueue :=
  { queue with head := newHead }

def tagged (queue : CQueue) (entry : CQEntry) : CQEntry :=
  { entry with
    status := (entry.status &&& 0xFFFE) ||| (if queue.phase then 1 else 0) }

/-- The slot that is written with the tagged entry, and the queue after it. -/
def setData (queue : CQueue) (entry : CQEntry) :
    Except Panic ((UInt16 × CQEntry) × CQueue) :=
  let tail := queue.tail + 1
  let moved := if tail = queue.size then
      { queue with tail := 0, phase := !queue.phase }
    else { queue with tail := tail }
  if moved.head = moved.tail then .error .completionQueueOverflow
  else .ok ((queue.tail, queue.tagged entry), moved)

end CQueue

end SimpleSSD.HIL.NVMe
