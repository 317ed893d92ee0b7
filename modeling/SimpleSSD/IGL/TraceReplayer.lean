import SimpleSSD.BIL.BIO
import SimpleSSD.Sim.Calls
import SimpleSSD.Util.Text

namespace SimpleSSD.IGL

open BIL
open Sim (Event)
open Util (strtoul)

inductive TimingMode where
  | sync
  | async
  | strict
  | num
  deriving DecidableEq, Repr

inductive Group where
  | operation
  | byteOffset
  | byteLength
  | lbaOffset
  | lbaLength
  | timeSec
  | timeMs
  | timeUs
  | timeNs
  | timePs
  deriving DecidableEq, Repr

inductive Panic where
  | operationGroup
  | lbaSize
  | offsetGroups
  | lengthGroups
  | noTime
  | timeParse
  | backupOverridden
  | depthExceeded
  | engine (raised : Sim.Panic)
  deriving DecidableEq, Repr

def Panic.message : Panic → String
  | .operationGroup => "Operation group ID cannot be 0"
  | .lbaSize => "LBA size should be power of 2"
  | .offsetGroups => "Both LBA Offset and Byte Offset group ID cannot be 0"
  | .lengthGroups => "Both LBA Length and Byte Length group ID cannot be 0"
  | .noTime => "No valid time field specified"
  | .timeParse => "Time parse failed"
  | .backupOverridden =>
      "pBackup cannot be overriden since This is a single-threaded program!"
  | .depthExceeded =>
      "io_depth cannot be bigger than maxQueueDepth since This is a " ++
        "single-threaded program!"
  | .engine raised => raised.message

/-- What the regular expression takes from a line: the groups of the match. -/
abbrev Match := List (List Char)

/-- Members that do not change after `init`. -/
structure Config where
  mode : TimingMode
  submissionLatency : UInt64
  completionLatency : UInt64
  maxQueueDepth : UInt32
  maxIO : UInt64
  groupID : Group → UInt32
  useHex : Bool
  lbaSize : UInt32
  ssdSize : UInt64

namespace Config

def useLBAOffset (config : Config) : Bool := config.groupID .lbaOffset > 0

def useLBALength (config : Config) : Bool := config.groupID .lbaLength > 0

def timeFields : List (Group × UInt64) :=
  [(.timeSec, 1000000000000), (.timeMs, 1000000000), (.timeUs, 1000000),
    (.timeNs, 1000), (.timePs, 1)]

def timeValid (config : Config) (group : Group) : Bool :=
  config.groupID group > 0

def popcount (value : UInt32) : Nat :=
  (List.range 32).countP value.toNat.testBit

def check (config : Config) : Except Panic Unit :=
  if config.groupID .operation = 0 then
    throw .operationGroup
  else if (config.useLBALength || config.useLBAOffset) ∧
      popcount config.lbaSize ≠ 1 then
    throw .lbaSize
  else if config.useLBAOffset = false ∧ config.groupID .byteOffset = 0 then
    throw .offsetGroups
  else if config.useLBALength = false ∧ config.groupID .byteLength = 0 then
    throw .lengthGroups
  else if config.mode = .strict ∧
      timeFields.all (fun field => config.timeValid field.1 = false) then
    throw .noTime
  else
    pure ()

/-- `match[groupID[group]].str()`. -/
def text (config : Config) (groups : Match) (group : Group) : List Char :=
  groups.getD (config.groupID group).toNat []

/-- One field of `mergeTime`. -/
def addField (config : Config) (groups : Match) (tick : UInt64)
    (field : Group × UInt64) : Option UInt64 :=
  if config.timeValid field.1 then
    if (config.groupID field.1).toNat < groups.length then
      some (tick + strtoul 10 (config.text groups field.1) * field.2)
    else
      none
  else
    some tick

def mergeTime (config : Config) (groups : Match) : Option UInt64 :=
  timeFields.foldlM (config.addField groups) 0

def base (config : Config) : Nat := if config.useHex then 16 else 10

def offset (config : Config) (groups : Match) : UInt64 :=
  if config.useLBAOffset then
    strtoul config.base (config.text groups .lbaOffset) *
      config.lbaSize.toUInt64
  else
    strtoul config.base (config.text groups .byteOffset)

def length (config : Config) (groups : Match) : UInt64 :=
  if config.useLBALength then
    strtoul config.base (config.text groups .lbaLength) *
      config.lbaSize.toUInt64
  else
    strtoul config.base (config.text groups .byteLength)

/-- `getType`, without its counters. -/
def typeOf (config : Config) (groups : Match) : BIOType :=
  match (config.text groups .operation).head? with
  | some 'r' | some 'R' => .read
  | some 'w' | some 'W' => .write
  | some 'f' | some 'F' => .flush
  | some 't' | some 'T' | some 'd' | some 'D' => .trim
  | _ => .num

/-- "Range check"; a device of size 0 has no I/O to replay. -/
def inRange (config : Config) (bio : BIO) : BIO :=
  if bio.offset + bio.length > config.ssdSize then
    let bio := { bio with offset := bio.offset % config.ssdSize }
    if bio.offset + bio.length > config.ssdSize then
      { bio with length := config.ssdSize - bio.offset }
    else
      bio
  else
    bio

end Config

/-- An I/O given to `bioEntry`: its line, the tick, and `io_depth` with it. -/
structure Submitted where
  line : Match
  bio : BIO
  tick : UInt64
  depth : UInt64
  deriving DecidableEq, Repr

/-- `TraceReplayer`, on the engine.  `lines` are the lines that `getline` has
not delivered yet, those that do not match without groups; `submitted` is
history. -/
structure TraceReplayer where
  sim : Sim.Run
  submitEvent : Event
  begun : Bool
  lines : List (Option Match)
  initTime : UInt64
  firstTick : UInt64
  nextIOIsSync : Bool
  reserveTermination : Bool
  pBackup : Option (Event × UInt64)
  ioSubmitted : UInt64
  ioCount : UInt64
  readCount : UInt64
  writeCount : UInt64
  ioDepth : UInt64
  ended : Nat
  submitted : List Submitted

def nextMatch : List (Option Match) → Option (Match × List (Option Match))
  | [] => none
  | none :: lines => nextMatch lines
  | some groups :: lines => some (groups, lines)

namespace TraceReplayer

def make (config : Config) (lines : List (Option Match)) (sim : Sim.Run) :
    Except Panic TraceReplayer := do
  config.check
  let sim ← (sim.perform .allocateEvent).mapError .engine
  pure {
    sim := sim
    submitEvent := sim.engine.counter
    begun := false
    lines := lines
    initTime := 0
    firstTick := 0xFFFFFFFFFFFFFFFF
    nextIOIsSync := false
    reserveTermination := false
    pBackup := none
    ioSubmitted := 0
    ioCount := 0
    readCount := 0
    writeCount := 0
    ioDepth := 0
    ended := 0
    submitted := [] }

def tick (replayer : TraceReplayer) : UInt64 :=
  replayer.sim.engine.simTick

def scheduleEvent (replayer : TraceReplayer) (event : Event) (tick : UInt64) :
    Except Panic TraceReplayer := do
  let sim ← (replayer.sim.perform (.scheduleEvent event tick)).mapError .engine
  pure { replayer with sim := sim }

/-- `endCallback`, if no I/O is on the way. -/
def finish (replayer : TraceReplayer) : TraceReplayer :=
  if replayer.ioDepth = 0 then
    { replayer with ended := replayer.ended + 1 }
  else
    replayer

/-- The BIO of a line, after `io_count` was increased. -/
def fill (replayer : TraceReplayer) (config : Config) (groups : Match) : BIO :=
  config.inRange
    { id := replayer.ioCount + 1
      type := config.typeOf groups
      offset := config.offset groups
      length := config.length groups }

/-- The members after a line was read, up to the test of the mode. -/
def take (replayer : TraceReplayer) (config : Config) (groups : Match)
    (lines : List (Option Match)) (tick : UInt64) : TraceReplayer :=
  let bio := replayer.fill config groups
  { replayer with
    lines := lines
    firstTick :=
      if replayer.firstTick = 0xFFFFFFFFFFFFFFFF then
        if config.mode = .strict then tick else replayer.initTime
      else
        replayer.firstTick
    reserveTermination :=
      replayer.reserveTermination || replayer.ioCount + 1 = config.maxIO
    ioSubmitted := replayer.ioSubmitted + bio.length
    ioCount := replayer.ioCount + 1
    readCount :=
      if bio.type = .read then replayer.readCount + 1 else replayer.readCount
    writeCount :=
      if bio.type = .write then replayer.writeCount + 1
      else replayer.writeCount
    ioDepth := replayer.ioDepth + 1 }

/-- When `submitEvent` is to fire next, in `MODE_STRICT`. -/
def plan (replayer : TraceReplayer) (config : Config) (tick : UInt64) :
    Except Panic TraceReplayer :=
  let due := tick - replayer.firstTick + replayer.initTime
  if replayer.ioDepth = config.maxQueueDepth.toUInt64 then
    match replayer.pBackup with
    | none =>
        pure { replayer with pBackup := some (replayer.submitEvent, due) }
    | some _ => throw .backupOverridden
  else if replayer.ioDepth > config.maxQueueDepth.toUInt64 then
    throw .depthExceeded
  else
    replayer.scheduleEvent replayer.submitEvent due

def submit (replayer : TraceReplayer) (line : Match) (bio : BIO) :
    TraceReplayer :=
  { replayer with
    submitted := replayer.submitted ++
      [⟨line, bio, replayer.tick, replayer.ioDepth⟩] }

def handleNextLine (replayer : TraceReplayer) (config : Config) :
    Except Panic TraceReplayer :=
  if replayer.reserveTermination then
    pure replayer
  else
    match nextMatch replayer.lines with
    | none =>
        pure (finish { replayer with lines := [], reserveTermination := true })
    | some (groups, lines) =>
        match config.mergeTime groups with
        | none => throw .timeParse
        | some tick => do
            let taken := replayer.take config groups lines tick
            let planned ←
              if config.mode = .strict then taken.plan config tick
              else pure taken
            pure (planned.submit groups (replayer.fill config groups))

def rescheduleSubmit (replayer : TraceReplayer) (config : Config)
    (breakTime : UInt64) : Except Panic TraceReplayer :=
  if config.mode = .async ∧
      replayer.ioDepth ≥ config.maxQueueDepth.toUInt64 then
    pure { replayer with nextIOIsSync := true }
  else if config.mode = .strict then
    pure replayer
  else
    replayer.scheduleEvent replayer.submitEvent (replayer.tick + breakTime)

def submitIO (replayer : TraceReplayer) (config : Config) :
    Except Panic TraceReplayer := do
  let replayer ← replayer.handleNextLine config
  if config.mode = .async then
    replayer.rescheduleSubmit config config.submissionLatency
  else
    pure replayer

/-- `begin`. -/
def start (replayer : TraceReplayer) (config : Config) :
    Except Panic TraceReplayer :=
  let started := { replayer with begun := true, initTime := replayer.tick }
  started.submitIO config

def restore (replayer : TraceReplayer) (config : Config) :
    Except Panic TraceReplayer :=
  match replayer.pBackup with
  | some backup =>
      if config.mode = .strict ∧ replayer.ioDepth = 0 then
        ({ replayer with pBackup := none }).scheduleEvent backup.1 backup.2
      else
        pure replayer
  | none => pure replayer

def iocallback (replayer : TraceReplayer) (config : Config) :
    Except Panic TraceReplayer := do
  let replayer := { replayer with ioDepth := replayer.ioDepth - 1 }
  let replayer :=
    if replayer.reserveTermination then replayer.finish else replayer
  let replayer ← replayer.restore config
  if config.mode = .sync ∨ replayer.nextIOIsSync then
    ({ replayer with nextIOIsSync := false }).rescheduleSubmit config
      (config.submissionLatency + config.completionLatency)
  else
    pure replayer

end TraceReplayer

inductive Step where
  /-- A call of another component to the engine. -/
  | others (call : Sim.Call)
  /-- The engine takes its next event. -/
  | doNextEvent
  /-- The driver is ready and calls `begin`. -/
  | start
  /-- The driver completes an I/O. -/
  | complete
  deriving DecidableEq, Repr

namespace TraceReplayer

/-- The state after a step, or `none` where the step cannot be taken or the
replayer panics. -/
def perform (config : Config) (replayer : TraceReplayer) :
    Step → Option TraceReplayer
  | .others call =>
      if call.Foreign replayer.submitEvent then do
        let sim ← (replayer.sim.perform call).toOption
        pure { replayer with sim := sim }
      else
        none
  | .doNextEvent => do
      let sim ← (replayer.sim.perform .doNextEvent).toOption
      let entered := { replayer with sim := sim }
      if sim.running = replayer.submitEvent :: replayer.sim.running then
        (entered.submitIO config).toOption
      else
        pure entered
  | .start =>
      if replayer.begun then none else (replayer.start config).toOption
  | .complete =>
      if replayer.ioDepth = 0 then none
      else (replayer.iocallback config).toOption

def performAll (config : Config) (replayer : TraceReplayer)
    (steps : List Step) : Option TraceReplayer :=
  steps.foldlM (perform config) replayer

end TraceReplayer

end SimpleSSD.IGL
