import SimpleSSD.Data.Result
import SimpleSSD.Util.Delivery

namespace SimpleSSD.Util

namespace FIFO

open Data

/-! How full the queues of the FIFO become. -/

/-- `usage` is what the entries of the transfer queue take up, as numbers, and
these fit into the queue. -/
structure Queue.Within (param : FIFOParam) (limit : UInt64) (queue : Queue) :
    Prop where
  capacity : queue.capacity = limit
  usage : queue.usage.toNat =
    (queue.transferQueue.map fun entry => (unitSize param entry.size).toNat).sum
  bounded : queue.usage.toNat ≤ queue.capacity.toNat

/-- There is room for what the first stage takes when it is asked to.  The first
unit of an entry that is larger than the queue is taken without a look at
`usage`; of other entries the sum is looked at, which can wrap. -/
def Queue.Roomy (param : FIFOParam) (limit : UInt64) (pending : Bool)
    (queue : Queue) : Prop :=
  ∀ iter ∈ queue.waitQueue.head?,
    if limit < unitSize param iter.size then
      queue.usage.toNat + param.transferUnit.toNat ≤ queue.capacity.toNat
    else pending = true ∨
      queue.usage.toNat + (unitSize param iter.size).toNat < 2 ^ 64

instance (param : FIFOParam) (limit : UInt64) (pending : Bool) (queue : Queue) :
    Decidable (queue.Roomy param limit pending) :=
  inferInstanceAs (Decidable (∀ iter ∈ queue.waitQueue.head?, ite _ _ _))

section Room

variable (param : FIFOParam)

/-! Room wherever an entry can be taken in the course of a call. -/

def insertWriteRoom (fifo : FIFO) : Prop :=
  fifo.writeQueue.Roomy param param.wqSize fifo.writeQueue.insertPending

def transferReadRoom (fifo : FIFO) : Prop :=
  fifo.readQueue.Roomy param param.rqSize fifo.readQueue.transferPending

def dmaReadRoom (req : DMARequest) (fifo : FIFO) : Prop :=
  req.size ≠ 0 →
    transferReadRoom param { fifo with readQueue := { fifo.readQueue with
      requested := fifo.readQueue.requested ++ [req]
      waitQueue := fifo.readQueue.waitQueue ++ [⟨req.whole, 0, 0⟩] } }

def dmaWriteRoom (req : DMARequest) (fifo : FIFO) : Prop :=
  req.size ≠ 0 →
    insertWriteRoom param { fifo with writeQueue := { fifo.writeQueue with
      requested := fifo.writeQueue.requested ++ [req]
      waitQueue := fifo.writeQueue.waitQueue ++ [⟨req.whole, 0, 0⟩] } }

def requestRoom (fifo : FIFO) (req : DMARequest) : Prop :=
  match req.direction with
  | .read => dmaReadRoom param req fifo
  | .write => dmaWriteRoom param req fifo

def callsRoom (calls : List DMARequest) (fifo : FIFO) : Prop :=
  Along (request param) (requestRoom param) fifo calls

def leaveWriteRoom (iter : FIFOEntry) (fifo : FIFO) : Prop :=
  insertWriteRoom param { fifo with writeQueue := { fifo.writeQueue with
    usage := fifo.writeQueue.usage - unitSize param iter.size } }

def transferWriteDoneNextRoom (calls : List DMARequest) (fifo : FIFO) : Prop :=
  match fifo.writeQueue.transferQueue with
  | [] => True
  | iter :: _ =>
      if iter.last then
        let fifo := { fifo with writeQueue := { fifo.writeQueue with
          called := fifo.writeQueue.called ++ [iter.func] } }
        callsRoom param calls fifo ∧
          Returns (leaveWriteRoom param iter) (fun _ => True)
            (calls.foldlM (request param) fifo)
      else leaveWriteRoom param iter fifo

def transferWriteDoneRoom (calls : List DMARequest) (fifo : FIFO) : Prop :=
  ∀ iter ∈ fifo.writeQueue.transferQueue.head?,
    iter.insertEndAt + entryLatency param iter ≤ fifo.now →
      transferWriteDoneNextRoom param calls fifo

def insertWriteDoneRoom (fifo : FIFO) : Prop :=
  insertWriteRoom param { fifo with writeQueue := { fifo.writeQueue with
    waitQueue := fifo.writeQueue.waitQueue.tail, insertPending := false } }

def leaveReadRoom (iter : FIFOEntry) (fifo : FIFO) : Prop :=
  transferReadRoom param { fifo with readQueue := { fifo.readQueue with
    usage := fifo.readQueue.usage - unitSize param iter.size } }

def insertReadDoneNextRoom (calls : List DMARequest) (fifo : FIFO) : Prop :=
  match fifo.readQueue.transferQueue with
  | [] => True
  | iter :: _ =>
      if iter.last then
        let fifo := { fifo with readQueue := { fifo.readQueue with
          called := fifo.readQueue.called ++ [iter.func] } }
        callsRoom param calls fifo ∧
          Returns (leaveReadRoom param iter) (fun _ => True)
            (calls.foldlM (request param) fifo)
      else leaveReadRoom param iter fifo

def insertReadDoneMergeRoom (calls : List DMARequest) (comp : ReadEntry)
    (fifo : FIFO) : Prop :=
  comp.dmaEndAt + comp.latency ≤ fifo.now →
    insertReadDoneNextRoom param calls fifo

def saveTransferRoom (calls : List DMARequest) (iter : FIFOEntry)
    (fifo : FIFO) : Prop :=
  ∀ comp ∈ fifo.find iter.id,
    insertReadDoneMergeRoom param calls { comp with dmaEndAt := fifo.now } fifo

def transferReadDoneRoom (calls : List DMARequest) (fifo : FIFO) : Prop :=
  ∀ iter ∈ fifo.readQueue.waitQueue.head?,
    saveTransferRoom param calls iter fifo ∧
      Returns
        (fun fifo => transferReadRoom param { fifo with
          readQueue := { fifo.readQueue with
            waitQueue := fifo.readQueue.waitQueue.tail
            transferPending := false } })
        (fun _ => True) (saveTransfer param calls iter fifo)

def insertReadDoneRoom (calls : List DMARequest) (fifo : FIFO) : Prop :=
  ∀ iter ∈ fifo.readQueue.transferQueue.head?, ∀ comp ∈ fifo.find iter.id,
    insertReadDoneMergeRoom param calls comp fifo

def performRoom : Action → FIFO → Prop
  | .request req, fifo => requestRoom param fifo req
  | .transferDone .write calls, fifo =>
      transferWriteDoneRoom param calls { fifo with writeQueue :=
        { fifo.writeQueue with
          transferred := fifo.writeQueue.transferred + 1 } }
  | .transferDone .read calls, fifo =>
      transferReadDoneRoom param calls { fifo with readQueue :=
        { fifo.readQueue with
          transferred := fifo.readQueue.transferred + 1 } }
  | .insertDone .write _, fifo =>
      insertWriteDoneRoom param { fifo with writeQueue :=
        { fifo.writeQueue with insertDone := none } }
  | .insertDone .read calls, fifo =>
      insertReadDoneRoom param calls { fifo with readQueue :=
        { fifo.readQueue with insertDone := none } }
  | .beginTransfer _, _ => True
  | .submitCompletion .write calls, fifo =>
      transferWriteDoneNextRoom param calls { fifo with writeQueue :=
        { fifo.writeQueue with submitCompletion := none } }
  | .submitCompletion .read calls, fifo =>
      insertReadDoneNextRoom param calls { fifo with readQueue :=
        { fifo.readQueue with submitCompletion := none } }

inductive ReachesRoomy : FIFO → Prop
  | make {fifo : FIFO} (made : make param = .ok fifo) : ReachesRoomy fifo
  | step {fifo after : FIFO} {tick : UInt64} {action : Action}
      (before : ReachesRoomy fifo) (enabled : fifo.Enabled tick action)
      (room : performRoom param action { fifo with now := tick })
      (performed : perform param action { fifo with now := tick } = .ok after) :
      ReachesRoomy after

end Room

variable {param : FIFOParam} {limit size : UInt64} {pending : Bool}
  {queue after : Queue} {iter entry : FIFOEntry} {rest : List FIFOEntry}
  {fifo : FIFO}

theorem calcSize_returns (size : UInt64) :
    Returns
      (fun result => result.1 = unitSize param size ∧
        (size = param.transferUnit → result.1 = param.transferUnit))
      (fun _ => True) (calcSize param size) := by
  by_cases unit : param.transferUnit = 0
  · unfold calcSize
    have none : ¬size < param.transferUnit := by
      rw [unit]
      exact UInt64.not_lt_zero
    rw [if_neg none, if_pos unit]
    trivial
  · rw [calcSize_eq unit]
    refine ⟨rfl, ?_⟩
    rintro rfl
    exact unitSize_unit unit

/-- What the first stage takes fits just when there was room. -/
theorem takeHead_room (within : queue.Within param limit) :
    Returns
      (fun result =>
        (∀ taken ∈ result, taken.size = unitSize param taken.iter.size) ∧
        (queue.Roomy param limit pending ↔ ∀ taken ∈ result,
          queue.usage.toNat + taken.size.toNat ≤ queue.capacity.toNat))
      (fun _ => True) (takeHead param limit pending queue) := by
  obtain ⟨rfl, _, bounded⟩ := within
  unfold takeHead Queue.Roomy
  cases there : queue.waitQueue with
  | nil => trivial
  | cons iter rest =>
      refine (calcSize_returns iter.size).bind fun result sized => ?_
      obtain ⟨size, smaller⟩ := result
      dsimp only at sized ⊢
      obtain ⟨rfl, -⟩ := sized
      simp only [List.head?_cons, Option.mem_def, Option.some.injEq,
        forall_eq']
      have small := UInt64.toNat_lt queue.capacity
      have sum := UInt64.toNat_add queue.usage (unitSize param iter.size)
      by_cases large : queue.capacity < unitSize param iter.size
      · rw [if_pos large, if_pos large,
          if_neg (not_and_of_not_right _ (UInt64.not_le.mpr large))]
        refine (calcSize_returns param.transferUnit).bind fun result sized => ?_
        obtain ⟨size, smaller⟩ := result
        obtain ⟨own, same⟩ := sized
        dsimp only at own same ⊢
        refine ⟨?_, ?_⟩
        · rintro taken ⟨⟩
          exact own
        · simp only [Option.some.injEq, forall_eq', same rfl]
      · rw [if_neg large, if_neg large]
        have fits := UInt64.le_iff_toNat_le.mp (UInt64.not_lt.mp large)
        by_cases waits : pending = true ∨
            queue.capacity < queue.usage + unitSize param iter.size
        · rw [if_pos ⟨waits, UInt64.not_lt.mp large⟩]
          refine ⟨nofun, ?_⟩
          refine iff_of_true ?_ nofun
          refine waits.imp_right fun full => ?_
          have above := UInt64.lt_iff_toNat_lt.mp full
          omega
        · rw [if_neg (not_and_of_not_left _ waits)]
          obtain ⟨idle, room⟩ := not_or.mp waits
          have below := UInt64.le_iff_toNat_le.mp (UInt64.not_lt.mp room)
          refine ⟨?_, ?_⟩
          · rintro taken ⟨⟩
            rfl
          · simp only [Option.some.injEq, forall_eq', or_iff_right idle]
            have wraps := Nat.div_add_mod (queue.usage.toNat +
              (unitSize param iter.size).toNat) (2 ^ 64)
            omega

namespace Queue.Within

theorem frame (within : queue.Within param limit)
    (capacity : after.capacity = queue.capacity)
    (usage : after.usage = queue.usage)
    (sizes : after.transferQueue.map (·.size) =
      queue.transferQueue.map (·.size)) : after.Within param limit := by
  refine ⟨capacity.trans within.capacity, ?_, ?_⟩
  · have same := congrArg
      (List.map fun size => (unitSize param size).toNat) sizes
    rw [List.map_map, List.map_map] at same
    rw [usage, within.usage]
    exact congrArg List.sum same.symm
  · rw [capacity, usage]
    exact within.bounded

theorem enter (within : queue.Within param limit)
    (capacity : after.capacity = queue.capacity)
    (usage : after.usage = queue.usage + size)
    (entered : after.transferQueue = queue.transferQueue ++ [entry])
    (own : size = unitSize param entry.size)
    (fits : queue.usage.toNat + size.toNat ≤ queue.capacity.toNat) :
    after.Within param limit := by
  subst own
  have sum : after.usage.toNat =
      queue.usage.toNat + (unitSize param entry.size).toNat := by
    have small := UInt64.toNat_lt queue.capacity
    rw [usage, UInt64.toNat_add]
    omega
  refine ⟨capacity.trans within.capacity, ?_, ?_⟩
  · rw [sum, entered, List.map_append, List.sum_append, within.usage]
    rfl
  · rw [sum, capacity]
    exact fits

theorem leave (within : queue.Within param limit)
    (there : queue.transferQueue = iter :: rest)
    (capacity : after.capacity = queue.capacity)
    (usage : after.usage = queue.usage - unitSize param iter.size)
    (left : after.transferQueue = rest) : after.Within param limit := by
  have total := within.usage
  rw [there, List.map_cons, List.sum_cons] at total
  have difference : after.usage.toNat =
      queue.usage.toNat - (unitSize param iter.size).toNat := by
    rw [usage, UInt64.toNat_sub_of_le]
    exact UInt64.le_iff_toNat_le.mpr (by omega)
  have bounded := within.bounded
  refine ⟨capacity.trans within.capacity, ?_, ?_⟩
  · rw [left]
    omega
  · rw [capacity]
    omega

end Queue.Within

theorem taken_within_iff {taken : Taken} (within : queue.Within param limit)
    (took : takeHead param limit pending queue = .ok (some taken))
    (same : entry.size = taken.iter.size)
    (capacity : after.capacity = queue.capacity)
    (usage : after.usage = queue.usage + taken.size)
    (entered : after.transferQueue = queue.transferQueue ++ [entry]) :
    after.Within param limit ↔ queue.Roomy param limit pending := by
  obtain ⟨sized, roomy⟩ := (takeHead_room within).of_ok took
  have own : taken.size = unitSize param entry.size := by
    rw [same]
    exact sized taken rfl
  refine ⟨fun fits => roomy.mpr ?_, fun room => ?_⟩
  · rintro _ ⟨⟩
    have total := fits.usage
    rw [entered, List.map_append, List.sum_append, ← within.usage,
      List.map_singleton, List.sum_singleton, ← own] at total
    rw [← total, ← capacity]
    exact fits.bounded
  · exact within.enter capacity usage entered own (roomy.mp room taken rfl)

structure Within (param : FIFOParam) (fifo : FIFO) : Prop where
  read : fifo.readQueue.Within param param.rqSize
  write : fifo.writeQueue.Within param param.wqSize

def Front (direction : Direction) (iter : FIFOEntry) (fifo : FIFO) : Prop :=
  ∃ rest, (fifo.queue direction).transferQueue = iter :: rest

variable {direction : Direction} {calls : List DMARequest} {comp : ReadEntry}

theorem insertWrite_within (room : insertWriteRoom param fifo)
    (within : Within param fifo) :
    Returns
      (fun after => Within param after ∧
        ∀ direction iter, Front direction iter fifo →
          Front direction iter after)
      (fun _ => True) (insertWrite param fifo) := by
  refine (takeHead_room within.write).bind fun result fits => ?_
  cases result with
  | none => exact ⟨within, fun _ _ => id⟩
  | some taken =>
      obtain ⟨sized, roomy⟩ := fits
      have entered : (beginInsert param fifo taken).Within param param.wqSize :=
        within.write.enter rfl rfl rfl (sized taken rfl)
          (roomy.mp room taken rfl)
      refine ⟨⟨within.read, entered⟩, ?_⟩
      · intro direction iter front
        obtain ⟨rest, there⟩ := front
        cases direction with
        | read => exact ⟨rest, there⟩
        | write => exact ⟨_, congrArg (· ++ [_]) there⟩

theorem transferRead_within (room : transferReadRoom param fifo)
    (within : Within param fifo) :
    Returns
      (fun after => Within param after ∧
        ∀ direction iter, Front direction iter fifo →
          Front direction iter after)
      (fun _ => True) (transferRead param fifo) := by
  refine (takeHead_room within.read).bind fun result fits => ?_
  cases result with
  | none => exact ⟨within, fun _ _ => id⟩
  | some taken =>
      obtain ⟨sized, roomy⟩ := fits
      have entered : (beginRead param fifo taken).Within param param.rqSize :=
        within.read.enter rfl rfl rfl (sized taken rfl)
          (roomy.mp room taken rfl)
      refine ⟨⟨entered, within.write⟩, ?_⟩
      · intro direction iter front
        obtain ⟨rest, there⟩ := front
        cases direction with
        | write => exact ⟨rest, there⟩
        | read => exact ⟨_, congrArg (· ++ [_]) there⟩

theorem request_within {req : DMARequest} (within : Within param fifo)
    (room : requestRoom param fifo req) :
    Returns
      (fun after => Within param after ∧
        ∀ direction iter, Front direction iter fifo →
          Front direction iter after)
      (fun _ => True) (request param fifo req) := by
  unfold request
  unfold requestRoom at room
  cases way : req.direction with
  | read =>
      rw [way] at room
      dsimp only [dmaRead, dmaReadRoom] at room ⊢
      split
      · exact ⟨within, fun _ _ => id⟩
      · next some =>
          refine (transferRead_within (room some)
            ⟨within.read.frame rfl rfl rfl, within.write⟩).mono ?_ fun _ => id
          exact fun after result => ⟨result.1, fun direction iter front =>
            result.2 direction iter (by cases direction <;> exact front)⟩
  | write =>
      rw [way] at room
      dsimp only [dmaWrite, dmaWriteRoom] at room ⊢
      split
      · exact ⟨within, fun _ _ => id⟩
      · next some =>
          refine (insertWrite_within (room some)
            ⟨within.read, within.write.frame rfl rfl rfl⟩).mono ?_ fun _ => id
          exact fun after result => ⟨result.1, fun direction iter front =>
            result.2 direction iter (by cases direction <;> exact front)⟩

/-- The front stays in place while its callback makes requests. -/
theorem calls_within (within : Within param fifo)
    (front : Front direction iter fifo) (room : callsRoom param calls fifo) :
    Returns (fun after => Within param after ∧ Front direction iter after)
      (fun _ => True) (calls.foldlM (request param) fifo) := by
  refine Along.returns (fun state step kept allowed => ?_) ⟨within, front⟩ room
  refine (request_within kept.1 allowed).mono ?_ fun _ => id
  exact fun after result => ⟨result.1, result.2 _ _ kept.2⟩

theorem nextInsertWrite_within (room : insertWriteRoom param fifo)
    (within : Within param fifo) :
    Returns (Within param) (fun _ => True) (nextInsertWrite param fifo) := by
  unfold nextInsertWrite
  split
  · exact within
  · exact (insertWrite_within room within).mono (fun _ => And.left) fun _ => id

theorem nextTransferRead_within (room : transferReadRoom param fifo)
    (within : Within param fifo) :
    Returns (Within param) (fun _ => True) (nextTransferRead param fifo) := by
  unfold nextTransferRead
  split
  · exact within
  · exact (transferRead_within room within).mono (fun _ => And.left) fun _ => id

/-! Write -/

theorem transferWrite_within (within : Within param fifo) :
    Returns
      (fun after => (insertWriteRoom param fifo → insertWriteRoom param after) ∧
        Within param after)
      (fun _ => True) (transferWrite fifo) := by
  unfold transferWrite
  split
  · trivial
  · split
    · exact ⟨id, within⟩
    · exact ⟨id, within.read, within.write.frame rfl rfl rfl⟩

theorem nextTransferWrite_within (within : Within param fifo) :
    Returns
      (fun after => (insertWriteRoom param fifo → insertWriteRoom param after) ∧
        Within param after)
      (fun _ => True) (nextTransferWrite fifo) := by
  unfold nextTransferWrite
  split
  · exact transferWrite_within within
  · exact ⟨id, within⟩

theorem leaveWrite_within (within : Within param fifo)
    (front : Front .write iter fifo) (room : leaveWriteRoom param iter fifo) :
    Returns (Within param) (fun _ => True) (leaveWrite param iter fifo) := by
  obtain ⟨rest, there⟩ := front
  refine (calcSize_returns iter.size).bind fun result sized => ?_
  obtain ⟨size, smaller⟩ := result
  obtain ⟨rfl, -⟩ := sized
  refine Returns.bind (nextTransferWrite_within ⟨within.read, ?_⟩)
    fun after moved => nextInsertWrite_within (moved.1 room) moved.2
  exact within.write.leave there rfl rfl (congrArg List.tail there)

theorem transferWriteDoneNext_within (within : Within param fifo)
    (room : transferWriteDoneNextRoom param calls fifo) :
    Returns (Within param) (fun _ => True)
      (transferWriteDoneNext param calls fifo) := by
  unfold transferWriteDoneNext
  unfold transferWriteDoneNextRoom at room
  cases there : fifo.writeQueue.transferQueue with
  | nil => trivial
  | cons iter rest =>
      rw [there] at room
      dsimp only at room ⊢
      split
      · next last =>
          rw [if_pos last] at room
          obtain ⟨requests, leaves⟩ := room
          have called : Within param { fifo with
              writeQueue := { fifo.writeQueue with
                called := fifo.writeQueue.called ++ [iter.func] } } :=
            ⟨within.read, within.write.frame rfl rfl rfl⟩
          have front : Front .write iter { fifo with
              writeQueue := { fifo.writeQueue with
                called := fifo.writeQueue.called ++ [iter.func] } } :=
            ⟨rest, there⟩
          have made := calls_within called front requests
          refine (made.and leaves).bind fun after kept => ?_
          exact leaveWrite_within kept.1.1 kept.1.2 kept.2
      · next more =>
          rw [if_neg more] at room
          exact leaveWrite_within within ⟨rest, there⟩ room

theorem transferWriteDone_within (within : Within param fifo)
    (room : transferWriteDoneRoom param calls fifo) :
    Returns (Within param) (fun _ => True)
      (transferWriteDone param calls fifo) := by
  unfold transferWriteDone
  cases there : fifo.writeQueue.transferQueue with
  | nil => trivial
  | cons iter rest =>
      dsimp only
      split
      · next finished =>
          exact transferWriteDoneNext_within within
            (room iter (by rw [there]; rfl) finished)
      · exact ⟨within.read, within.write.frame rfl rfl rfl⟩

theorem insertWriteDone_within (within : Within param fifo)
    (room : insertWriteDoneRoom param fifo) :
    Returns (Within param) (fun _ => True) (insertWriteDone param fifo) := by
  unfold insertWriteDone
  unfold insertWriteDoneRoom at room
  cases there : fifo.writeQueue.waitQueue with
  | nil => trivial
  | cons iter rest =>
      rw [there] at room
      exact nextInsertWrite_within room
        ⟨within.read, within.write.frame rfl rfl rfl⟩

/-! Read -/

theorem insertRead_within (within : Within param fifo) :
    Returns
      (fun after => (transferReadRoom param fifo → transferReadRoom param after) ∧
        Within param after)
      (fun _ => True) (insertRead param fifo) := by
  unfold insertRead
  cases there : fifo.readQueue.transferQueue with
  | nil => trivial
  | cons iter rest =>
      dsimp only
      split
      · exact ⟨id, within⟩
      · refine (calcSize_returns iter.size).bind fun result _ => ?_
        refine ⟨id, within.read.frame rfl rfl ?_, within.write⟩
        rw [there]
        rfl

theorem nextInsertRead_within (within : Within param fifo) :
    Returns
      (fun after => (transferReadRoom param fifo → transferReadRoom param after) ∧
        Within param after)
      (fun _ => True) (nextInsertRead param fifo) := by
  unfold nextInsertRead
  split
  · exact insertRead_within within
  · exact ⟨id, within⟩

theorem leaveRead_within (within : Within param fifo)
    (front : Front .read iter fifo) (room : leaveReadRoom param iter fifo) :
    Returns (Within param) (fun _ => True) (leaveRead param iter fifo) := by
  obtain ⟨rest, there⟩ := front
  refine (calcSize_returns iter.size).bind fun result sized => ?_
  obtain ⟨size, smaller⟩ := result
  obtain ⟨rfl, -⟩ := sized
  refine Returns.bind (nextInsertRead_within ⟨?_, within.write⟩)
    fun after moved => nextTransferRead_within (moved.1 room) moved.2
  exact within.read.leave there rfl rfl (congrArg List.tail there)

theorem insertReadDoneNext_within (within : Within param fifo)
    (room : insertReadDoneNextRoom param calls fifo) :
    Returns (Within param) (fun _ => True)
      (insertReadDoneNext param calls fifo) := by
  unfold insertReadDoneNext
  unfold insertReadDoneNextRoom at room
  cases there : fifo.readQueue.transferQueue with
  | nil => trivial
  | cons iter rest =>
      rw [there] at room
      dsimp only at room ⊢
      split
      · next last =>
          rw [if_pos last] at room
          obtain ⟨requests, leaves⟩ := room
          have called : Within param { fifo with
              readQueue := { fifo.readQueue with
                called := fifo.readQueue.called ++ [iter.func] } } :=
            ⟨within.read.frame rfl rfl rfl, within.write⟩
          have front : Front .read iter { fifo with
              readQueue := { fifo.readQueue with
                called := fifo.readQueue.called ++ [iter.func] } } :=
            ⟨rest, there⟩
          have made := calls_within called front requests
          refine (made.and leaves).bind fun after kept => ?_
          exact leaveRead_within kept.1.1 kept.1.2 kept.2
      · next more =>
          rw [if_neg more] at room
          exact leaveRead_within within ⟨rest, there⟩ room

theorem insertReadDoneMerge_within (within : Within param fifo)
    (room : insertReadDoneMergeRoom param calls comp fifo) :
    Returns (Within param) (fun _ => True)
      (insertReadDoneMerge param calls comp fifo) := by
  unfold insertReadDoneMerge
  dsimp only
  split
  · next finished =>
      refine (insertReadDoneNext_within within (room finished)).bind ?_
      exact fun after kept => ⟨kept.read, kept.write⟩
  · exact ⟨within.read.frame rfl rfl rfl, within.write⟩

theorem saveTransfer_within (within : Within param fifo)
    (room : saveTransferRoom param calls iter fifo) :
    Returns (Within param) (fun _ => True)
      (saveTransfer param calls iter fifo) := by
  unfold saveTransfer
  unfold saveTransferRoom at room
  cases found : fifo.find iter.id with
  | none => exact ⟨within.read, within.write⟩
  | some comp => exact insertReadDoneMerge_within within (room comp found)

theorem transferReadDone_within (within : Within param fifo)
    (room : transferReadDoneRoom param calls fifo) :
    Returns (Within param) (fun _ => True)
      (transferReadDone param calls fifo) := by
  unfold transferReadDone
  unfold transferReadDoneRoom at room
  cases there : fifo.readQueue.waitQueue with
  | nil => trivial
  | cons iter rest =>
      obtain ⟨saves, takes⟩ := room iter (by rw [there]; rfl)
      have saved := (saveTransfer_within within saves).and takes
      refine saved.bind fun after kept => nextTransferRead_within kept.2 ?_
      exact ⟨kept.1.read.frame rfl rfl rfl, kept.1.write⟩

theorem insertReadDone_within (within : Within param fifo)
    (room : insertReadDoneRoom param calls fifo) :
    Returns (Within param) (fun _ => True)
      (insertReadDone param calls fifo) := by
  unfold insertReadDone
  unfold insertReadDoneRoom at room
  cases there : fifo.readQueue.transferQueue with
  | nil => trivial
  | cons iter rest =>
      dsimp only
      cases found : fifo.find iter.id with
      | none => exact ⟨within.read, within.write⟩
      | some comp =>
          exact insertReadDoneMerge_within within
            (room iter (by rw [there]; rfl) comp found)

/-! Runs -/

theorem perform_within {action : Action} (within : Within param fifo)
    (room : performRoom param action fifo) :
    Returns (Within param) (fun _ => True) (perform param action fifo) := by
  cases action with
  | request req =>
      exact (request_within within room).mono (fun _ => And.left) fun _ => id
  | transferDone direction calls =>
      cases direction with
      | read =>
          exact transferReadDone_within
            ⟨within.read.frame rfl rfl rfl, within.write⟩ room
      | write =>
          exact transferWriteDone_within
            ⟨within.read, within.write.frame rfl rfl rfl⟩ room
  | insertDone direction calls =>
      cases direction with
      | read =>
          exact insertReadDone_within
            ⟨within.read.frame rfl rfl rfl, within.write⟩ room
      | write =>
          exact insertWriteDone_within
            ⟨within.read, within.write.frame rfl rfl rfl⟩ room
  | beginTransfer direction =>
      cases direction with
      | read =>
          refine (insertRead_within ?_).mono (fun _ => And.right) fun _ => id
          exact ⟨within.read.frame rfl rfl rfl, within.write⟩
      | write =>
          refine (transferWrite_within ?_).mono (fun _ => And.right) fun _ => id
          exact ⟨within.read, within.write.frame rfl rfl rfl⟩
  | submitCompletion direction calls =>
      cases direction with
      | read =>
          exact insertReadDoneNext_within
            ⟨within.read.frame rfl rfl rfl, within.write⟩ room
      | write =>
          exact transferWriteDoneNext_within
            ⟨within.read, within.write.frame rfl rfl rfl⟩ room

theorem make_within (made : FIFO.make param = .ok fifo) :
    Within param fifo := by
  unfold FIFO.make at made
  split at made
  · cases made
  · cases made
    exact ⟨⟨rfl, rfl, Nat.zero_le _⟩, rfl, rfl, Nat.zero_le _⟩

/-- In a run with room at every step `usage` is right, and within the
capacity. -/
theorem ReachesRoomy.usage_withinCapacity (reaches : ReachesRoomy param fifo) :
    Within param fifo := by
  induction reaches with
  | make made => exact make_within made
  | step _ _ room performed induction =>
      refine Returns.of_ok (perform_within ?_ room) performed
      exact ⟨induction.read, induction.write⟩

theorem not_before {queue : Queue} {tick : UInt64}
    (later : queue.scheduled.all fun other => tick ≤ other) :
    ∀ other ∈ queue.scheduled, tick ≤ other :=
  fun other member => of_decide_eq_true (List.all_eq_true.mp later other member)

/-- Twelve bytes into an empty queue of eight: the first unit is taken, and the
others have to wait. -/
theorem usage_withinCapacity_cut :
    ∃ fifo, (ReachesRoomy twoUnits fifo ∧
      fifo.writeQueue.usage = 4 ∧ fifo.writeQueue.waitQueue.length = 1) ∧
      Within twoUnits fifo := by
  have cut := @ReachesRoomy.step twoUnits _ _ 0
    (.request ⟨.write, 0, 12, none, 1⟩) (.make rfl)
    ⟨by decide, fun direction => not_before (by cases direction <;> decide), by decide⟩
    (fun _ => (by decide : Queue.Roomy twoUnits 8 false _)) rfl
  have waits := @ReachesRoomy.step twoUnits _ _ 4 (.insertDone .write []) cut
    ⟨by decide, fun direction => not_before (by cases direction <;> decide), by decide⟩
    (by decide : Queue.Roomy twoUnits 8 false _) rfl
  exact ⟨_, ⟨waits, rfl, rfl⟩, waits.usage_withinCapacity⟩

/-- Eight bytes fill the queue, and the first unit of the twelve behind them is
taken nevertheless. -/
theorem large_request_overfills :
    ¬∀ fifo, Reaches twoUnits fifo → Within twoUnits fifo := by
  intro always
  have full := @Reaches.step twoUnits _ _ 0
    (.request ⟨.write, 0, 8, none, 1⟩) (.make rfl)
    ⟨by decide, fun direction => not_before (by cases direction <;> decide), by decide⟩ rfl
  have behind := @Reaches.step twoUnits _ _ 0
    (.request ⟨.write, 8, 12, none, 2⟩) full
    ⟨by decide, fun direction => not_before (by cases direction <;> decide), by decide⟩ rfl
  have unit := @Reaches.step twoUnits _ _ 4 (.beginTransfer .write) behind
    ⟨by decide, fun direction => not_before (by cases direction <;> decide), by decide⟩ rfl
  have taken := @Reaches.step twoUnits _ _ 8 (.insertDone .write []) unit
    ⟨by decide, fun direction => not_before (by cases direction <;> decide), by decide⟩ rfl
  exact absurd (always _ taken).write.bounded (by decide)

end FIFO

end SimpleSSD.Util
