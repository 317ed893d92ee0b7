import SimpleSSD.HIL.NVMe.Queue

namespace SimpleSSD.SIL.NVMe

open HIL.NVMe (SQueue CQueue CQEntry)

/-! One I/O queue pair: the driver on its one side, the queues of the device on
the other. -/

inductive Panic where
  | invalidInterrupt
  | completionQueueOverflow
  /-- The host would have more commands outstanding than it may. -/
  | limit
  /-- A loop takes more rounds than the model was given. -/
  | outOfFuel
  deriving DecidableEq, Repr

def Panic.message : Panic → String
  | .invalidInterrupt => "Invalid interrupt"
  | .completionQueueOverflow => "Completion queue overflow"
  | .limit | .outOfFuel => ""

structure Queue where
  entries : UInt16
  head : UInt16
  tail : UInt16
  deriving DecidableEq, Repr

namespace Queue

def make (entries : UInt16) : Queue where
  entries := entries
  head := 0
  tail := 0

/-- `index++`, with a turn at the end of the memory. -/
def turn (entries index : UInt16) : UInt16 :=
  if index + 1 = entries then 0 else index + 1

def incrHead (queue : Queue) : Queue :=
  { queue with head := turn queue.entries queue.head }

def incrTail (queue : Queue) : Queue :=
  { queue with tail := turn queue.entries queue.tail }

end Queue

/-- A command in the submission queue: its id, and for its other bytes the
number of its submission. -/
structure SQEntry where
  commandID : UInt16
  number : Nat
  deriving DecidableEq, Repr

/-- An entry of `pendingCommandList`; the context of a command is its number. -/
structure CommandEntry where
  cid : UInt16
  context : Nat
  deriving DecidableEq, Repr

/-- Members of `Driver`, the device's queues, the memory between them and the
DMA in flight, in order.  `fetched` are the commands that the device works on.
The last five members are history: the number of submissions, and the numbers of
commands in the order in which they were fetched, posted and called back;
`reused` has the commands that got the id of one that was still outstanding. -/
structure QueuePair where
  ioCommandID : UInt16
  phase : Bool
  ioSQ : Queue
  ioCQ : Queue
  pendingCommandList : List CommandEntry
  sqMemory : Nat → SQEntry
  cqMemory : Nat → CQEntry
  sq : SQueue
  cq : CQueue
  reads : List UInt16
  fetched : List SQEntry
  writes : List (UInt16 × CQEntry)
  submitted : Nat
  fetches : List Nat
  posted : List Nat
  called : List Nat
  reused : List Nat

abbrev Run (Result : Type) := Except (Panic × QueuePair) Result

def maxID : UInt16 := 32767

def increaseCommandID (id : UInt16) : UInt16 :=
  if maxID < id + 1 then 1 else id + 1

namespace QueuePair

/-- After initialisation; `ioCommandID` is not set by the driver. -/
def make (entries ioCommandID : UInt16) : QueuePair where
  ioCommandID := ioCommandID
  phase := true
  ioSQ := Queue.make entries
  ioCQ := Queue.make entries
  pendingCommandList := []
  sqMemory _ := { commandID := 0, number := 0 }
  cqMemory _ := { commandID := 0, status := 0 }
  sq := SQueue.make 1 .medium 1 entries
  cq := CQueue.make 1 true 1 entries
  reads := []
  fetched := []
  writes := []
  submitted := 0
  fetches := []
  posted := []
  called := []
  reused := []

def maxOutstanding (pair : QueuePair) : Nat :=
  min (pair.ioSQ.entries.toNat - 1) 32766

/-- A command with this id has been submitted and not been called back. -/
def outstandingID (pair : QueuePair) (cid : UInt16) : Bool :=
  pair.pendingCommandList.any fun command =>
    command.cid == cid && !pair.called.contains command.context

def submitCommand (pair : QueuePair) : Run QueuePair :=
  if pair.maxOutstanding ≤ pair.submitted - pair.called.length then
    .error (.limit, pair)
  else
    let cid := increaseCommandID pair.ioCommandID
    let number := pair.submitted
    let queue := pair.ioSQ.incrTail
    .ok { pair with
      ioCommandID := cid
      sqMemory := Function.update pair.sqMemory pair.ioSQ.tail.toNat
        { commandID := cid, number := number }
      pendingCommandList := pair.pendingCommandList ++
        [{ cid := cid, context := number }]
      -- `ringSQTailDoorbell`
      sq := pair.sq.setTail queue.tail
      ioSQ := queue.incrHead
      submitted := number + 1
      reused := if pair.outstandingID cid then number :: pair.reused
        else pair.reused }

def submitCommands : (amount : Nat) → QueuePair → Run QueuePair
  | 0, pair => .ok pair
  | amount + 1, pair =>
      match pair.submitCommand with
      | .error stopped => .error stopped
      | .ok next => submitCommands amount next

def phaseTag (entry : CQEntry) : Bool := entry.status &&& 1 == 1

/-- The loop of `updateInterrupt`, with the number of entries it has taken.
`answers` has how many commands each callback submits. -/
def drain : (fuel : Nat) → (answers : List Nat) → QueuePair →
    Run (QueuePair × Nat)
  | 0, _, pair => .error (.outOfFuel, pair)
  | fuel + 1, answers, pair =>
      let entry := pair.cqMemory pair.ioCQ.head.toNat
      if phaseTag entry = pair.phase then
        let index := pair.pendingCommandList.findIdx fun command =>
          command.cid == entry.commandID
        match pair.pendingCommandList[index]? with
        | none => .error (.invalidInterrupt, pair)
        | some command =>
            match submitCommands (answers.headD 0)
                { pair with
                  ioCQ := pair.ioCQ.incrTail
                  called := pair.called ++ [command.context] } with
            | .error stopped => .error stopped
            | .ok answered =>
                let ioCQ := answered.ioCQ.incrHead
                match drain fuel answers.tail
                    { answered with
                      pendingCommandList :=
                        answered.pendingCommandList.eraseIdx index
                      ioCQ := ioCQ
                      phase := if ioCQ.head = 0 then !answered.phase
                        else answered.phase } with
                | .error stopped => .error stopped
                | .ok (drained, count) => .ok (drained, count + 1)
      else .ok (pair, 0)

def ringCQHeadDoorbell (pair : QueuePair) : QueuePair :=
  { pair with cq := pair.cq.setHead pair.ioCQ.head }

/-- The doorbell makes the controller call `updateInterrupt` again when entries
are left in its queue. -/
def updateInterrupt : (depth : Nat) → (answers : List Nat) → QueuePair →
    Run QueuePair
  | 0, _, pair => .error (.outOfFuel, pair)
  | depth + 1, answers, pair =>
      match drain (pair.ioCQ.entries.toNat + 1) answers pair with
      | .error stopped => .error stopped
      | .ok (drained, count) =>
          if 0 < count then
            let rung := drained.ringCQHeadDoorbell
            if rung.cq.ien ∧ 0 < rung.cq.getItemCount then
              updateInterrupt depth (answers.drop count) rung
            else .ok rung
          else .ok drained

def fetch (pair : QueuePair) : QueuePair :=
  match pair.sq.getData with
  | (some slot, sq) => { pair with sq := sq, reads := pair.reads ++ [slot] }
  | (none, _) => pair

def read (pair : QueuePair) : QueuePair :=
  match pair.reads with
  | [] => pair
  | slot :: rest =>
      let entry := pair.sqMemory slot.toNat
      { pair with
        reads := rest
        fetched := pair.fetched ++ [entry]
        fetches := pair.fetches ++ [entry.number] }

def complete (index : Nat) (status : UInt16) (pair : QueuePair) :
    Run QueuePair :=
  match pair.fetched[index]? with
  | none => .ok pair
  | some entry =>
      match pair.cq.setData
          { commandID := entry.commandID, status := status } with
      | .error _ => .error (.completionQueueOverflow, pair)
      | .ok (write, cq) =>
          .ok { pair with
            cq := cq
            writes := pair.writes ++ [write]
            fetched := pair.fetched.eraseIdx index
            posted := pair.posted ++ [entry.number] }

def arrive (pair : QueuePair) : QueuePair :=
  match pair.writes with
  | [] => pair
  | (slot, entry) :: rest =>
      { pair with
        cqMemory := Function.update pair.cqMemory slot.toNat entry
        writes := rest }

end QueuePair

inductive Step where
  | submit
  | fetch
  | read
  | complete (index : Nat) (status : UInt16)
  | arrive
  | interrupt (answers : List Nat)
  deriving DecidableEq, Repr

def Step.perform : Step → QueuePair → Run QueuePair
  | .submit, pair => pair.submitCommand
  | .fetch, pair => .ok pair.fetch
  | .read, pair => .ok pair.read
  | .complete index status, pair => pair.complete index status
  | .arrive, pair => .ok pair.arrive
  | .interrupt answers, pair => pair.updateInterrupt 2 answers

def Step.performAll : (steps : List Step) → QueuePair → Run QueuePair
  | [], pair => .ok pair
  | step :: rest, pair =>
      match step.perform pair with
      | .error stopped => .error stopped
      | .ok next => Step.performAll rest next

end SimpleSSD.SIL.NVMe
