import Mathlib.Data.List.Sort

namespace SimpleSSD.Sim

abbrev Event := UInt64

inductive Panic where
  | allocationFailed
  | eventMissing (eid : Event)
  deriving DecidableEq, Repr

def Panic.message : Panic → String
  | .allocationFailed => "Fail to allocate event"
  | .eventMissing _ => "Event %lu does not exists"

/-- An event in the queue and the tick it is due at. -/
structure Entry where
  first : Event
  second : UInt64
  deriving DecidableEq, Repr

/-- `Engine`. Of `eventList` the model has the keys: what an event function
does is what its caller does between the call and the return. -/
structure Engine where
  simTick : UInt64
  counter : Event
  forceStop : Bool
  eventList : List Event
  eventQueue : List Entry
  eventHandled : UInt64
  deriving DecidableEq, Repr

/-- The variables of the loop of `insertEvent`; an iterator is the index of
its entry. -/
structure Scan where
  found : Bool
  flag : Bool
  old : Nat
  insert : Nat
  oldTick : UInt64

namespace Scan

def start (queue : List Entry) : Scan where
  found := false
  flag := false
  old := 0
  insert := queue.length
  oldTick := 0

def noteOld (eid : Event) (index : Nat) (entry : Entry) (scan : Scan) : Scan :=
  if entry.first = eid then
    { scan with found := true, old := index, oldTick := entry.second }
  else
    scan

def noteInsert (tick : UInt64) (index : Nat) (entry : Entry) (scan : Scan) :
    Scan :=
  if entry.second > tick ∧ scan.flag = false then
    { scan with insert := index, flag := true }
  else
    scan

def visit (eid : Event) (tick : UInt64) (scan : Scan) (entry : Entry × Nat) :
    Scan :=
  noteInsert tick entry.2 entry.1 (noteOld eid entry.2 entry.1 scan)

def run (eid : Event) (tick : UInt64) (queue : List Entry) : Scan :=
  queue.zipIdx.foldl (visit eid tick) (start queue)

end Scan

/-- The index of the old entry once the new one is in the list: an iterator
stays on its entry. -/
def shifted (insert old : Nat) : Nat :=
  if insert ≤ old then old + 1 else old

def insertEvent (eid : Event) (tick : UInt64) (queue : List Entry) :
    List Entry :=
  let scan := Scan.run eid tick queue
  if scan.found ∧ scan.oldTick = tick then
    queue
  else if scan.found then
    (queue.insertIdx scan.insert ⟨eid, tick⟩).eraseIdx
      (shifted scan.insert scan.old)
  else
    queue.insertIdx scan.insert ⟨eid, tick⟩

def removeEvent (eid : Event) (queue : List Entry) : List Entry :=
  queue.eraseP (·.first = eid)

namespace Engine

def make : Engine where
  simTick := 0
  counter := 0
  forceStop := false
  eventList := []
  eventQueue := []
  eventHandled := 0

def isEventExist (engine : Engine) (eid : Event) : Option UInt64 :=
  (engine.eventQueue.find? (·.first = eid)).map (·.second)

def allocateEvent (engine : Engine) : Except Panic Engine :=
  if engine.counter + 1 ∈ engine.eventList then
    throw .allocationFailed
  else
    pure { engine with
      counter := engine.counter + 1
      eventList := (engine.counter + 1) :: engine.eventList }

def scheduleEvent (engine : Engine) (eid : Event) (tick : UInt64) :
    Except Panic Engine :=
  if eid ∈ engine.eventList then
    let tick := if tick < engine.simTick then engine.simTick else tick
    pure { engine with eventQueue := insertEvent eid tick engine.eventQueue }
  else
    throw (.eventMissing eid)

def descheduleEvent (engine : Engine) (eid : Event) : Except Panic Engine :=
  if eid ∈ engine.eventList then
    pure { engine with eventQueue := removeEvent eid engine.eventQueue }
  else
    throw (.eventMissing eid)

def isScheduled (engine : Engine) (eid : Event) :
    Except Panic (Option UInt64) :=
  if eid ∈ engine.eventList then
    pure (engine.isEventExist eid)
  else
    throw (.eventMissing eid)

def deallocateEvent (engine : Engine) (eid : Event) : Except Panic Engine :=
  if eid ∈ engine.eventList then
    pure { engine with
      eventQueue := removeEvent eid engine.eventQueue
      eventList := engine.eventList.erase eid }
  else
    throw (.eventMissing eid)

def stopEngine (engine : Engine) : Engine :=
  { engine with forceStop := true }

/-- `doNextEvent` up to the call of the event function, with the entry whose
function is called. -/
def doNextEvent (engine : Engine) : Except Panic (Option Entry × Engine) :=
  if engine.forceStop then
    pure (none, engine)
  else
    match engine.eventQueue with
    | [] => pure (none, engine)
    | now :: rest =>
        let engine := { engine with simTick := now.second, eventQueue := rest }
        if now.first ∈ engine.eventList then
          pure (some now, engine)
        else
          throw (.eventMissing now.first)

/-- `doNextEvent` after the event function has returned. -/
def eventReturned (engine : Engine) : Engine :=
  { engine with eventHandled := engine.eventHandled + 1 }

end Engine

end SimpleSSD.Sim
