import Mathlib.Algebra.BigOperators.Group.List.Basic
import Mathlib.Data.List.AList
import SimpleSSD.Data.Loop
import SimpleSSD.HIL.NVMe.Queue

namespace SimpleSSD.HIL.NVMe

inductive Arbitration where
  | roundRobin
  | weightedRoundRobin
  | invalid
  deriving DecidableEq, Repr

/-- A command in `lSQFIFO`. -/
structure SQEntryWrapper where
  sqID : Nat
  cqID : Nat
  commandID : UInt16
  deriving DecidableEq, Repr

/-- A completion in `lCQFIFO`. -/
structure CQEntryWrapper where
  cqID : Nat
  entry : CQEntry
  deriving DecidableEq, Repr

structure AggregationInfo where
  valid : Bool
  pending : Bool
  requestCount : Nat
  deriving DecidableEq, Repr

/-- A read of submission queue memory: the queue's number and the slot. -/
structure Fetch where
  sqID : Nat
  slot : UInt16
  deriving DecidableEq, Repr

/-- The members of `Controller`; `issued` is history, kept for specifications
only. -/
structure Controller where
  /-- `registers.status & 1`. -/
  ready : Bool
  arbitration : Arbitration
  wrrHigh : UInt16
  wrrMedium : UInt16
  ppCQueue : List (Option CQueue)
  ppSQueue : List (Option SQueue)
  lSQFIFO : List SQEntryWrapper
  lCQFIFO : List CQEntryWrapper
  aggregationMap : AList fun _ : Nat => AggregationInfo
  /-- Reads of submission queues, in the order they were issued. -/
  issued : List Fetch

/-- More rounds than a loop over `uint16_t` can take without a repetition. -/
def loopFuel : Nat := 65537

def anyQueue (bound : Nat) (entry : Nat → Except Panic (Option α))
    (test : α → Bool) : Except Panic Bool :=
  forLoop .outOfFuel bound
    (fun i found =>
      match entry i with
      | .error raised => .error raised
      | .ok none => .ok (found, false)
      | .ok (some queue) =>
          if test queue then .ok (true, true) else .ok (found, false))
    loopFuel 1 false

namespace Controller

def cqsize (controller : Controller) : Nat := controller.ppCQueue.length

def sqsize (controller : Controller) : Nat := controller.ppSQueue.length

def cqueueAt (controller : Controller) (cqid : Nat) :
    Except Panic (Option CQueue) :=
  match controller.ppCQueue[cqid]? with
  | some entry => .ok entry
  | none => .error .outOfTable

def squeueAt (controller : Controller) (sqid : Nat) :
    Except Panic (Option SQueue) :=
  match controller.ppSQueue[sqid]? with
  | some entry => .ok entry
  | none => .error .outOfTable

def setCQueue (controller : Controller) (cqid : Nat)
    (queue : Option CQueue) : Controller :=
  { controller with ppCQueue := controller.ppCQueue.set cqid queue }

def setSQueue (controller : Controller) (sqid : Nat)
    (queue : Option SQueue) : Controller :=
  { controller with ppSQueue := controller.ppSQueue.set sqid queue }

/-! Creation and deletion of queues, with the codes they return. -/

def createCQueue (controller : Controller) (cqid : Nat) (size : UInt16)
    (iv : Nat) (ien : Bool) : Except Panic (Nat × Controller) := do
  let existing ← controller.cqueueAt cqid
  if existing.isNone then
    let created := controller.setCQueue cqid
      (some (CQueue.make iv ien cqid size))
    return (0, { created with
      aggregationMap := created.aggregationMap.insert iv
        { valid := false, pending := false, requestCount := 0 } })
  else return (1, controller)

def createSQueue (controller : Controller) (sqid cqid : Nat) (size : UInt16)
    (priority : Priority) : Except Panic (Nat × Controller) := do
  let existing ← controller.squeueAt sqid
  if existing.isNone then
    let completion ← controller.cqueueAt cqid
    if completion.isSome then
      return (0, controller.setSQueue sqid
        (some (SQueue.make cqid priority sqid size)))
    else return (2, controller)
  else return (1, controller)

/-- Whether a submission queue names `cqid`, as `deleteCQueue` looks for it. -/
def refers (controller : Controller) (cqid : Nat) : Except Panic Bool :=
  anyQueue controller.cqsize controller.squeueAt fun queue =>
    queue.cqID = cqid

/-- Whether a completion queue other than the admin queue uses a vector. -/
def sameIV (controller : Controller) (iv : Nat) : Except Panic Bool :=
  anyQueue controller.cqsize controller.cqueueAt fun queue =>
    queue.interruptVector = iv

def deleteCQueue (controller : Controller) (cqid : Nat) :
    Except Panic (Nat × Controller) := do
  match ← controller.cqueueAt cqid with
  | some queue =>
      if cqid = 0 then return (1, controller)
      if ← controller.refers cqid then return (2, controller)
      let removed := controller.setCQueue cqid none
      if ← removed.sameIV queue.interruptVector then return (0, removed)
      if queue.interruptVector ∈ removed.aggregationMap then
        return (0, { removed with aggregationMap :=
          removed.aggregationMap.erase queue.interruptVector })
      else throw .invalidIterator
  | none => return (1, controller)

def submit (controller : Controller) (wrapper : CQEntryWrapper) :
    Except Panic Controller := do
  if (← controller.cqueueAt wrapper.cqID).isNone then
    throw .completionQueueNotCreated
  return { controller with lCQFIFO := controller.lCQFIFO ++ [wrapper] }

/-- `0x8000 | (TYPE_GENERIC_COMMAND_STATUS << 9) |
(STATUS_ABORT_DUE_TO_SQ_DELETE << 1)`. -/
def abortedBySQDelete : UInt16 := 0x8010

/-- The loop of `deleteSQueue` over `lSQFIFO`.  Its iterator is advanced once
more after an erase, so the next command is passed over. -/
def abortCommands (sqid : Nat) : List SQEntryWrapper → Controller →
    Except Panic (List SQEntryWrapper × Controller)
  | [], controller => return ([], controller)
  | [command], controller =>
      if command.sqID = sqid then do
        let _ ← controller.submit
          { cqID := command.cqID
            entry := { commandID := command.commandID
                       status := abortedBySQDelete } }
        throw .invalidIterator
      else return ([command], controller)
  | command :: following :: rest, controller => do
      if command.sqID = sqid then
        let controller ← controller.submit
          { cqID := command.cqID
            entry := { commandID := command.commandID
                       status := abortedBySQDelete } }
        let (kept, controller) ← abortCommands sqid rest controller
        return (following :: kept, controller)
      else
        let (kept, controller) ←
          abortCommands sqid (following :: rest) controller
        return (command :: kept, controller)

def deleteSQueue (controller : Controller) (sqid : Nat) :
    Except Panic (Nat × Controller) := do
  match ← controller.squeueAt sqid with
  | some _ =>
      if sqid = 0 then return (1, controller)
      let (kept, aborted) ←
        abortCommands sqid controller.lSQFIFO controller
      return (0, { aborted with lSQFIFO := kept }.setSQueue sqid none)
  | none => return (1, controller)

/-- `0x8000 | (TYPE_GENERIC_COMMAND_STATUS << 9) |
(STATUS_ABORT_REQUESTED << 1)`. -/
def abortedByRequest : UInt16 := 0x800E

def abort (controller : Controller) (sqid : Nat) (cid : UInt16) :
    Except Panic (Nat × Controller) := do
  let named := fun command : SQEntryWrapper =>
    command.sqID = sqid && command.commandID = cid
  match controller.lSQFIFO.find? named with
  | none => return (0, controller)
  | some command =>
      if (← controller.squeueAt sqid).isNone then throw .nullQueue
      let submitted ← controller.submit
        { cqID := command.cqID
          entry := { commandID := command.commandID
                     status := abortedByRequest } }
      return (1, { submitted with
        lSQFIFO := submitted.lSQFIFO.eraseP named })

/-! Interrupt coalescing, as the features set it. -/

def setCoalescing (controller : Controller) (iv : Nat) (enable : Bool) :
    Controller :=
  if iv ∈ controller.aggregationMap then
    { controller with
      aggregationMap := controller.aggregationMap.insert iv
        { valid := enable, pending := false, requestCount := 0 } }
  else controller

def getCoalescing (controller : Controller) (iv : Nat) : Bool :=
  match controller.aggregationMap.lookup iv with
  | some info => info.valid
  | none => false

/-! Collection of commands from the submission queues. -/

/-- The controller after a read was issued, if there is a command to read. -/
def checkQueue (controller : Controller) (sqid : Nat) (queue : SQueue) :
    Option Controller :=
  if 0 < queue.getItemCount then
    match queue.getData with
    | (some slot, moved) => some
        { controller.setSQueue sqid (some moved) with
          issued := controller.issued ++ [{ sqID := sqid, slot := slot }] }
    | (none, _) => some controller
  else none

/-- The body of a loop over the queues: a queue that is selected gives at most
one command, which is counted and may end the loop. -/
def visitQueue (select : SQueue → Bool) (account : κ → κ × Bool) (sqid : Nat)
    (state : Controller × κ) : Except Panic ((Controller × κ) × Bool) :=
  match state.1.squeueAt sqid with
  | .error raised => .error raised
  | .ok none => .ok (state, false)
  | .ok (some queue) =>
      if select queue then
        match state.1.checkQueue sqid queue with
        | none => .ok (state, false)
        | some updated =>
            .ok ((updated, (account state.2).1), (account state.2).2)
      else .ok (state, false)

def countUpdated (updated : UInt16) : UInt16 × Bool := (updated + 1, false)

/-- `updated` and `total_updated` in the weighted loops: `weight` commands end
a loop. -/
def countWeighted (weight : UInt16) (counters : UInt16 × UInt32) :
    (UInt16 × UInt32) × Bool :=
  if counters.1 + 1 = weight then ((0, counters.2 + 1), true)
  else ((counters.1 + 1, counters.2 + 1), false)

/-- The loop for low priority takes one command. -/
def countLow (counters : UInt16 × UInt32) : (UInt16 × UInt32) × Bool :=
  ((counters.1, counters.2 + 1), true)

/-- Round robin from queue `first` on, over the queues that are selected. -/
def roundRobin (first : UInt16) (select : SQueue → Bool) :
    (fuel : Nat) → Controller → Except Panic Controller
  | 0, _ => .error .outOfFuel
  | fuel + 1, controller =>
      match forLoop .outOfFuel controller.sqsize
          (visitQueue select countUpdated) loopFuel first (controller, 0) with
      | .error raised => .error raised
      | .ok (collected, updated) =>
          if updated = 0 then .ok collected
          else roundRobin first select fuel collected

def adminCommands : (fuel : Nat) → Controller → Except Panic Controller
  | 0, _ => .error .outOfFuel
  | fuel + 1, controller =>
      match controller.squeueAt 0 with
      | .error raised => .error raised
      | .ok none => .error .nullQueue
      | .ok (some queue) =>
          match controller.checkQueue 0 queue with
          | none => .ok controller
          | some updated => adminCommands fuel updated

def weightedLoop (priority : Priority)
    (account : UInt16 × UInt32 → (UInt16 × UInt32) × Bool)
    (state : Controller × UInt16 × UInt32) :
    Except Panic (Controller × UInt16 × UInt32) :=
  forLoop .outOfFuel state.1.sqsize
    (visitQueue (fun queue => queue.priority = priority) account) loopFuel 1
    state

/-- A weighted round.  The third loop is the one for low priority: it tests for
medium priority. -/
def weightedRound (controller : Controller) (updated : UInt16) :
    Except Panic (Controller × UInt16 × UInt32) := do
  let state ← weightedLoop .high (countWeighted controller.wrrHigh)
    (controller, updated, 0)
  let state ← weightedLoop .medium (countWeighted controller.wrrMedium) state
  weightedLoop .medium countLow state

def weightedRoundRobin :
    (fuel : Nat) → Controller → UInt16 → Except Panic Controller
  | 0, _, _ => .error .outOfFuel
  | fuel + 1, controller, updated =>
      match weightedRound controller updated with
      | .error raised => .error raised
      | .ok (collected, updated, totalUpdated) =>
          if totalUpdated = 0 then .ok collected
          else weightedRoundRobin fuel collected updated

def weightedArbitration (fuel : Nat) (controller : Controller) :
    Except Panic Controller := do
  let controller ← adminCommands fuel controller
  let controller ← roundRobin 1 (fun queue => queue.priority = .urgent) fuel
    controller
  weightedRoundRobin fuel controller 0

def collectSQueue (fuel : Nat) (controller : Controller) :
    Except Panic Controller :=
  if controller.ready then
    match controller.arbitration with
    | .roundRobin => roundRobin 0 (fun _ => true) fuel controller
    | .weightedRoundRobin => weightedArbitration fuel controller
    | .invalid => .error .invalidArbitration
  else .ok controller

end Controller

end SimpleSSD.HIL.NVMe
