import SimpleSSD.Util.Algorithm

namespace SimpleSSD.Util

/-! The FIFO between a DMA engine and its upstream. -/

namespace FIFO

inductive Panic where
  | invalidTransferUnit
  | divisionByZero
  /-- `front` or `pop` of a queue without entries. -/
  | emptyQueue
  deriving DecidableEq, Repr

def Panic.message : Panic → String
  | .invalidTransferUnit => "Invalid transferUnit size"
  | .divisionByZero => ""
  | .emptyQueue => ""

end FIFO

structure FIFOParam where
  rqSize : UInt64
  wqSize : UInt64
  transferUnit : UInt64
  latency : UInt64 → UInt64

/-- What goes upstream at once.  `func` stands for the callback and its context;
a buffer can be null. -/
structure Piece where
  last : Bool
  addr : UInt64
  size : UInt64
  buffer : Option UInt64
  func : Nat
  deriving DecidableEq, Repr

structure FIFOEntry extends Piece where
  id : Nat
  insertEndAt : UInt64
  deriving DecidableEq, Repr

structure ReadEntry where
  id : Nat
  insertEndAt : UInt64
  dmaEndAt : UInt64
  latency : UInt64
  deriving DecidableEq, Repr

inductive Direction where
  | read
  | write
  deriving DecidableEq, Repr

/-- The arguments of `dmaRead` and `dmaWrite`. -/
structure DMARequest where
  direction : Direction
  addr : UInt64
  size : UInt64
  buffer : Option UInt64
  func : Nat
  deriving DecidableEq, Repr

namespace FIFO

/-- An event is the tick it is scheduled at.  The last fields are history:
requests, pieces that went upstream, how many of them came back, pieces that
have left the transfer queue, and callbacks. -/
structure Queue where
  capacity : UInt64
  usage : UInt64
  waitQueue : List FIFOEntry
  transferQueue : List FIFOEntry
  insertDone : Option UInt64
  beginTransfer : Option UInt64
  submitCompletion : Option UInt64
  insertPending : Bool
  transferPending : Bool
  requested : List DMARequest
  issued : List Piece
  transferred : Nat
  finished : List Piece
  called : List Nat
  deriving DecidableEq, Repr

def Queue.make (capacity : UInt64) : Queue where
  capacity := capacity
  usage := 0
  waitQueue := []
  transferQueue := []
  insertDone := none
  beginTransfer := none
  submitCompletion := none
  insertPending := false
  transferPending := false
  requested := []
  issued := []
  transferred := 0
  finished := []
  called := []

end FIFO

/-- `counter` does not wrap: 2^64 pieces would have to be in the FIFO at once
for two of one number. -/
structure FIFO where
  now : UInt64
  readQueue : FIFO.Queue
  writeQueue : FIFO.Queue
  counter : Nat
  readCompletion : List ReadEntry
  deriving DecidableEq, Repr

namespace FIFO

variable (param : FIFOParam)

def make : Except Panic FIFO :=
  if param.transferUnit > param.rqSize ∨ param.transferUnit > param.wqSize then
    throw .invalidTransferUnit
  else
    pure { now := 0
           readQueue := Queue.make param.rqSize
           writeQueue := Queue.make param.wqSize
           counter := 0, readCompletion := [] }

def unitLatency : UInt64 := param.latency param.transferUnit

/-- `schedule`: the engine moves ticks of the past to the present one. -/
def due (fifo : FIFO) (tick : UInt64) : UInt64 :=
  if tick < fifo.now then fifo.now else tick

/-- `schedule` of an event that is not `scheduled`. -/
def dueUnless (fifo : FIFO) (event : Option UInt64) (tick : UInt64) :
    Option UInt64 :=
  match event with
  | some before => some before
  | none => some (fifo.due tick)

def calcSize (size : UInt64) : Except Panic (UInt64 × Bool) :=
  if size < param.transferUnit then pure (size, true)
  else if param.transferUnit = 0 then throw .divisionByZero
  else pure (divCeil size param.transferUnit * param.transferUnit, false)

def entryLatency (iter : FIFOEntry) : UInt64 :=
  if iter.size < param.transferUnit then param.latency iter.size
  else unitLatency param

/-- The entry that goes on, what stays behind it, and its size in the queue. -/
structure Taken where
  iter : FIFOEntry
  rest : List FIFOEntry
  size : UInt64
  smallerThanUnit : Bool

/-- How `insertWrite` and `transferRead` begin.  The head of the wait queue has
to wait, or it is taken; one that is larger than the whole queue is cut, and its
first unit is taken whatever the usage is. -/
def takeHead (limit : UInt64) (pending : Bool) (queue : Queue) :
    Except Panic (Option Taken) :=
  match queue.waitQueue with
  | [] => throw .emptyQueue
  | iter :: rest => do
      let (size, smallerThanUnit) ← calcSize param iter.size
      if (pending ∨ queue.usage + size > queue.capacity) ∧ size ≤ limit then
        pure none
      else if size > limit then
        let copy := { iter with
          last := true
          addr := iter.addr + param.transferUnit
          size := iter.size - param.transferUnit
          buffer := iter.buffer.map (· + param.transferUnit) }
        let current := { iter with last := false, size := param.transferUnit }
        let (size, smallerThanUnit) ← calcSize param current.size
        pure (some ⟨current, copy :: rest, size, smallerThanUnit⟩)
      else pure (some ⟨iter, rest, size, smallerThanUnit⟩)

/-- When `beginTransfer` is due for an entry that was taken. -/
def beginLatency (taken : Taken) : UInt64 :=
  if taken.smallerThanUnit then param.latency taken.size else unitLatency param

/-! Write -/

def beginInsert (fifo : FIFO) (taken : Taken) : Queue :=
  let queue := fifo.writeQueue
  let insertEndAt := fifo.now + param.latency taken.size
  let iter := { taken.iter with insertEndAt := insertEndAt }
  { queue with
    waitQueue := iter :: taken.rest
    insertPending := true
    usage := queue.usage + taken.size
    insertDone := some (fifo.due insertEndAt)
    beginTransfer := fifo.dueUnless queue.beginTransfer
      (fifo.now + beginLatency param taken)
    transferQueue := queue.transferQueue ++ [iter] }

def insertWrite (fifo : FIFO) : Except Panic FIFO := do
  let queue := fifo.writeQueue
  match ← takeHead param param.wqSize queue.insertPending queue with
  | none => pure fifo
  | some taken =>
      pure { fifo with writeQueue := beginInsert param fifo taken }

def nextInsertWrite (fifo : FIFO) : Except Panic FIFO :=
  if fifo.writeQueue.waitQueue.isEmpty then pure fifo
  else insertWrite param fifo

def insertWriteDone (fifo : FIFO) : Except Panic FIFO :=
  match fifo.writeQueue.waitQueue with
  | [] => throw .emptyQueue
  | _ :: rest =>
      nextInsertWrite param { fifo with writeQueue := { fifo.writeQueue with
        waitQueue := rest, insertPending := false } }

/-- `upstream->dmaWrite`. -/
def transferWrite (fifo : FIFO) : Except Panic FIFO :=
  match fifo.writeQueue.transferQueue with
  | [] => throw .emptyQueue
  | iter :: _ =>
      if fifo.writeQueue.transferPending then pure fifo
      else
        pure { fifo with writeQueue := { fifo.writeQueue with
          transferPending := true
          issued := fifo.writeQueue.issued ++ [iter.toPiece] } }

def nextTransferWrite (fifo : FIFO) : Except Panic FIFO :=
  if ¬fifo.writeQueue.transferQueue.isEmpty ∧
      fifo.writeQueue.beginTransfer.isNone then transferWrite fifo
  else pure fifo

/-! Read -/

/-- The rest of `transferRead`, with `upstream->dmaRead`. -/
def beginRead (fifo : FIFO) (taken : Taken) : Queue :=
  let queue := fifo.readQueue
  let iter := { taken.iter with id := fifo.counter }
  { queue with
    waitQueue := iter :: taken.rest
    transferPending := true
    usage := queue.usage + taken.size
    beginTransfer := fifo.dueUnless queue.beginTransfer
      (fifo.now + beginLatency param taken)
    transferQueue := queue.transferQueue ++ [iter]
    issued := queue.issued ++ [iter.toPiece] }

def transferRead (fifo : FIFO) : Except Panic FIFO := do
  let queue := fifo.readQueue
  match ← takeHead param param.rqSize queue.transferPending queue with
  | none => pure fifo
  | some taken =>
      pure { fifo with
        counter := fifo.counter + 1
        readQueue := beginRead param fifo taken }

def nextTransferRead (fifo : FIFO) : Except Panic FIFO :=
  if fifo.readQueue.waitQueue.isEmpty then pure fifo
  else transferRead param fifo

def insertRead (fifo : FIFO) : Except Panic FIFO :=
  match fifo.readQueue.transferQueue with
  | [] => throw .emptyQueue
  | iter :: rest =>
      if fifo.readQueue.insertPending then pure fifo
      else do
        let (size, _) ← calcSize param iter.size
        let insertEndAt := fifo.now + param.latency size
        pure { fifo with readQueue := { fifo.readQueue with
          insertPending := true
          transferQueue := { iter with insertEndAt := insertEndAt } :: rest
          insertDone := fifo.dueUnless fifo.readQueue.insertDone insertEndAt } }

def nextInsertRead (fifo : FIFO) : Except Panic FIFO :=
  if ¬fifo.readQueue.transferQueue.isEmpty ∧
      fifo.readQueue.beginTransfer.isNone then insertRead param fifo
  else pure fifo

/-! Requests -/

def dmaRead (req : DMARequest) (fifo : FIFO) : Except Panic FIFO :=
  if req.size = 0 then pure fifo
  else
    transferRead param { fifo with readQueue := { fifo.readQueue with
      requested := fifo.readQueue.requested ++ [req]
      waitQueue := fifo.readQueue.waitQueue ++
        [{ last := true, id := 0, addr := req.addr, size := req.size
           buffer := req.buffer, insertEndAt := 0, func := req.func }] } }

def dmaWrite (req : DMARequest) (fifo : FIFO) : Except Panic FIFO :=
  if req.size = 0 then pure fifo
  else
    insertWrite param { fifo with writeQueue := { fifo.writeQueue with
      requested := fifo.writeQueue.requested ++ [req]
      waitQueue := fifo.writeQueue.waitQueue ++
        [{ last := true, id := 0, addr := req.addr, size := req.size
           buffer := req.buffer, insertEndAt := 0, func := req.func }] } }

def request (fifo : FIFO) (req : DMARequest) : Except Panic FIFO :=
  match req.direction with
  | .read => dmaRead param req fifo
  | .write => dmaWrite param req fifo

/-! Completions.  A callback can issue requests. -/

def leaveWrite (iter : FIFOEntry) (fifo : FIFO) : Except Panic FIFO := do
  let (size, _) ← calcSize param iter.size
  let fifo ← nextTransferWrite { fifo with writeQueue := { fifo.writeQueue with
    usage := fifo.writeQueue.usage - size
    transferPending := false
    transferQueue := fifo.writeQueue.transferQueue.tail
    finished := fifo.writeQueue.finished ++ [iter.toPiece] } }
  nextInsertWrite param fifo

def transferWriteDoneNext (calls : List DMARequest) (fifo : FIFO) :
    Except Panic FIFO :=
  match fifo.writeQueue.transferQueue with
  | [] => throw .emptyQueue
  | iter :: _ => do
      let fifo ←
        if iter.last then
          calls.foldlM (request param) { fifo with
            writeQueue := { fifo.writeQueue with
              called := fifo.writeQueue.called ++ [iter.func] } }
        else pure fifo
      leaveWrite param iter fifo

def transferWriteDone (calls : List DMARequest) (fifo : FIFO) :
    Except Panic FIFO :=
  match fifo.writeQueue.transferQueue with
  | [] => throw .emptyQueue
  | iter :: _ =>
      let finishAt := iter.insertEndAt + entryLatency param iter
      if finishAt ≤ fifo.now then transferWriteDoneNext param calls fifo
      else
        pure { fifo with writeQueue := { fifo.writeQueue with
          submitCompletion := some (fifo.due finishAt) } }

def leaveRead (iter : FIFOEntry) (fifo : FIFO) : Except Panic FIFO := do
  let (size, _) ← calcSize param iter.size
  let fifo ← nextInsertRead param { fifo with readQueue := { fifo.readQueue with
    usage := fifo.readQueue.usage - size
    insertPending := false
    transferQueue := fifo.readQueue.transferQueue.tail
    finished := fifo.readQueue.finished ++ [iter.toPiece] } }
  nextTransferRead param fifo

def insertReadDoneNext (calls : List DMARequest) (fifo : FIFO) :
    Except Panic FIFO :=
  match fifo.readQueue.transferQueue with
  | [] => throw .emptyQueue
  | iter :: _ => do
      let fifo ←
        if iter.last then
          calls.foldlM (request param) { fifo with
            readQueue := { fifo.readQueue with
              called := fifo.readQueue.called ++ [iter.func] } }
        else pure fifo
      leaveRead param iter fifo

def insertReadDoneMerge (calls : List DMARequest) (comp : ReadEntry)
    (fifo : FIFO) : Except Panic FIFO := do
  let finishAt := comp.dmaEndAt + comp.latency
  let fifo ←
    if finishAt ≤ fifo.now then insertReadDoneNext param calls fifo
    else
      pure { fifo with readQueue := { fifo.readQueue with
        submitCompletion := some (fifo.due finishAt) } }
  pure { fifo with
    readCompletion := fifo.readCompletion.eraseP fun entry =>
      entry.id = comp.id }

def find (fifo : FIFO) (id : Nat) : Option ReadEntry :=
  fifo.readCompletion.find? fun entry => entry.id = id

def saveTransfer (calls : List DMARequest) (iter : FIFOEntry) (fifo : FIFO) :
    Except Panic FIFO :=
  match fifo.find iter.id with
  | none =>
      pure { fifo with readCompletion := fifo.readCompletion ++
        [⟨iter.id, 0, fifo.now, entryLatency param iter⟩] }
  | some comp =>
      insertReadDoneMerge param calls { comp with dmaEndAt := fifo.now } fifo

def transferReadDone (calls : List DMARequest) (fifo : FIFO) :
    Except Panic FIFO :=
  match fifo.readQueue.waitQueue with
  | [] => throw .emptyQueue
  | iter :: _ => do
      let fifo ← saveTransfer param calls iter fifo
      nextTransferRead param { fifo with readQueue := { fifo.readQueue with
        waitQueue := fifo.readQueue.waitQueue.tail
        transferPending := false } }

def insertReadDone (calls : List DMARequest) (fifo : FIFO) :
    Except Panic FIFO :=
  match fifo.readQueue.transferQueue with
  | [] => throw .emptyQueue
  | iter :: _ =>
      match fifo.find iter.id with
      | none =>
          pure { fifo with readCompletion := fifo.readCompletion ++
            [⟨iter.id, fifo.now, 0, entryLatency param iter⟩] }
      | some comp => insertReadDoneMerge param calls comp fifo

/-! Runs -/

/-- What can happen to the FIFO; `calls` are the requests of the callback, if it
is called. -/
inductive Action where
  | request (req : DMARequest)
  | transferDone (direction : Direction) (calls : List DMARequest)
  | insertDone (direction : Direction) (calls : List DMARequest)
  | beginTransfer (direction : Direction)
  | submitCompletion (direction : Direction) (calls : List DMARequest)
  deriving DecidableEq, Repr

def perform : Action → FIFO → Except Panic FIFO
  | .request req, fifo => request param fifo req
  | .transferDone .write calls, fifo =>
      transferWriteDone param calls { fifo with writeQueue :=
        { fifo.writeQueue with
          transferred := fifo.writeQueue.transferred + 1 } }
  | .transferDone .read calls, fifo =>
      transferReadDone param calls { fifo with readQueue :=
        { fifo.readQueue with
          transferred := fifo.readQueue.transferred + 1 } }
  | .insertDone .write _, fifo =>
      insertWriteDone param { fifo with writeQueue :=
        { fifo.writeQueue with insertDone := none } }
  | .insertDone .read calls, fifo =>
      insertReadDone param calls { fifo with readQueue :=
        { fifo.readQueue with insertDone := none } }
  | .beginTransfer .write, fifo =>
      transferWrite { fifo with writeQueue :=
        { fifo.writeQueue with beginTransfer := none } }
  | .beginTransfer .read, fifo =>
      insertRead param { fifo with readQueue :=
        { fifo.readQueue with beginTransfer := none } }
  | .submitCompletion .write calls, fifo =>
      transferWriteDoneNext param calls { fifo with writeQueue :=
        { fifo.writeQueue with submitCompletion := none } }
  | .submitCompletion .read calls, fifo =>
      insertReadDoneNext param calls { fifo with readQueue :=
        { fifo.readQueue with submitCompletion := none } }

def queue (fifo : FIFO) : Direction → Queue
  | .read => fifo.readQueue
  | .write => fifo.writeQueue

def Queue.scheduled (queue : Queue) : List UInt64 :=
  [queue.insertDone, queue.beginTransfer, queue.submitCompletion].filterMap id

/-- The action can happen at the tick.  Requests are not empty, upstream calls
back for pieces that it was given, and events come when they are due. -/
def Enabled (fifo : FIFO) (tick : UInt64) (action : Action) : Prop :=
  fifo.now ≤ tick ∧
    (∀ direction, ∀ other ∈ (fifo.queue direction).scheduled, tick ≤ other) ∧
    match action with
    | .request req => req.size ≠ 0
    | .transferDone direction _ =>
        (fifo.queue direction).transferred < (fifo.queue direction).issued.length
    | .insertDone direction _ => (fifo.queue direction).insertDone = some tick
    | .beginTransfer direction =>
        (fifo.queue direction).beginTransfer = some tick
    | .submitCompletion direction _ =>
        (fifo.queue direction).submitCompletion = some tick

inductive Reaches : FIFO → Prop
  | make {fifo : FIFO} (made : make param = .ok fifo) : Reaches fifo
  | step {fifo after : FIFO} {tick : UInt64} {action : Action}
      (before : Reaches fifo) (enabled : fifo.Enabled tick action)
      (performed : perform param action { fifo with now := tick } = .ok after) :
      Reaches after

end FIFO

end SimpleSSD.Util
