import SimpleSSD.HIL.UFS.Device
import SimpleSSD.Sim.Calls

namespace SimpleSSD.HIL.UFS

/-! The host controller: what becomes of the requests that the driver rings a
doorbell for. -/

inductive Panic where
  | engine (panic : Sim.Panic)
  | fault (fault : Fault)
  | taskNotImplemented
  | commandType
  | transferType (ct : UInt8)
  /-- There is no such call that could return. -/
  | absent
  deriving DecidableEq, Repr

def Panic.message : Panic → String
  | .engine panic => panic.message
  | .taskNotImplemented => "UTP Task is not implemented"
  | .commandType => "Unapplicable UPIU command type"
  | .transferType _ => "Undefined UTP Transfer command type %#x"
  | .fault _ | .absent => ""

/-- `UFSHCIRegister`, as far as it is written. -/
structure Registers where
  is : UInt32
  ie : UInt32
  hcs : UInt32
  hce : UInt32
  utriacr : UInt32
  utrlba : UInt64
  utrldbr : UInt32
  utrlclr : UInt32
  utrlrsr : UInt32
  utmrlba : UInt64
  utmrldbr : UInt32
  utmrlclr : UInt32
  utmrlrsr : UInt32
  uiccmdr : UInt32
  ucmdarg1 : UInt32
  ucmdarg2 : UInt32
  ucmdarg3 : UInt32
  deriving DecidableEq, Repr

def Registers.make : Registers where
  is := 0
  ie := 0
  hcs := 0x00000008
  hce := 0
  utriacr := 0
  utrlba := 0
  utrldbr := 0
  utrlclr := 0
  utrlrsr := 0
  utmrlba := 0
  utmrldbr := 0
  utmrlclr := 0
  utmrlrsr := 0
  uiccmdr := 0
  ucmdarg1 := 0
  ucmdarg2 := 0
  ucmdarg3 := 0

/-- The registers that a write only sets; the others are read only. -/
def Registers.write (table : Registers) (offset data : UInt32) : Registers :=
  if offset = 0x20 then
    { table with is := table.is &&& (~~~data &&& 0x00030FFF) }
  else if offset = 0x24 then
    { table with ie := (table.ie &&& 0x00000FFF) ||| (data &&& 0x00030FFF) }
  else if offset = 0x30 then
    { table with
      hcs := (table.hcs &&& (~~~data &&& 0x00000030)) |||
        (data &&& 0x00000700) }
  else if offset = 0x34 then
    { table with hce := data &&& 0x00000001 }
  else if offset = 0x4C then
    { table with utriacr := data &&& 0x81111FFF }
  else if offset = 0x50 then
    { table with
      utrlba := (table.utrlba &&& (0xFFFFFFFF00000000 : UInt64)) |||
        (data &&& 0xFFFFFC00).toUInt64 }
  else if offset = 0x54 then
    { table with
      utrlba := (table.utrlba &&& (0xFFFFFFFF : UInt64)) |||
        data.toUInt64 <<< 32 }
  else if offset = 0x5C then
    { table with utrlclr := data }
  else if offset = 0x60 then
    { table with utrlrsr := data &&& 0x00000001 }
  else if offset = 0x70 then
    { table with
      utmrlba := (table.utmrlba &&& (0xFFFFFFFF00000000 : UInt64)) |||
        (data &&& 0xFFFFFC00).toUInt64 }
  else if offset = 0x74 then
    { table with
      utmrlba := (table.utmrlba &&& (0xFFFFFFFF : UInt64)) |||
        data.toUInt64 <<< 32 }
  else if offset = 0x7C then
    { table with utmrlclr := data }
  else if offset = 0x80 then
    { table with utmrlrsr := data &&& 0x00000001 }
  else if offset = 0x94 then
    { table with ucmdarg1 := data }
  else if offset = 0x98 then
    { table with ucmdarg2 := data }
  else if offset = 0x9C then
    { table with ucmdarg3 := data }
  else
    table

abbrev UTP_TRANSFER_REQ_COMPL : UInt32 := 0x00000001
abbrev UIC_COMMAND_COMPL : UInt32 := 0x00000400

abbrev DME_GET : UInt32 := 0x01
abbrev DME_LINKSTARTUP : UInt32 := 0x16

abbrev ERR_SUCCESS : UInt32 := 0
abbrev UFSHCD_LINK_IS_UP : UInt32 := 2
abbrev POWERSTATE : UInt32 := 0xD0830000

abbrev UTP_TRANSFER_REQ_DESC_SIZE : UInt64 := 32

structure TransferReqDesc where
  dw0 : UInt32
  dw1 : UInt32
  dw2 : UInt32
  dw3 : UInt32
  cmdAddress : UInt32
  cmdAddressUpper : UInt32
  respUPIULength : UInt16
  respUPIUOffset : UInt16
  prdtLength : UInt16
  prdtOffset : UInt16
  deriving DecidableEq, Repr

namespace TransferReqDesc

def zero : TransferReqDesc := ⟨0, 0, 0, 0, 0, 0, 0, 0, 0, 0⟩

def ct (desc : TransferReqDesc) : UInt8 := (desc.dw0 >>> 28).toUInt8

def base (desc : TransferReqDesc) : UInt64 :=
  (desc.cmdAddressUpper.toUInt64 <<< 32) ||| desc.cmdAddress.toUInt64

def offUPIUResp (desc : TransferReqDesc) : UInt32 :=
  desc.respUPIUOffset.toUInt32 * 4

def sizeUPIUResp (desc : TransferReqDesc) : UInt32 :=
  desc.respUPIULength.toUInt32 * 4

def offPRDT (desc : TransferReqDesc) : UInt32 := desc.prdtOffset.toUInt32 * 4

def sizePRDT (desc : TransferReqDesc) : UInt32 := desc.prdtLength.toUInt32 * 16

end TransferReqDesc

inductive Stage where
  /-- Its descriptor is read. -/
  | fetching
  /-- Its unit and its table are read, in any order. -/
  | reading (transferReq : Option Buffer) (prdtDone : Bool)
  /-- The device is at it. -/
  | processing (request response : UPIU)
  /-- Its response is written. -/
  | responding
  /-- Its descriptor is written back. -/
  | writing

/-- `RequestContext`, with what `UTPCommandContext` says of it. -/
structure Command where
  index : UInt32
  transferReqDesc : TransferReqDesc
  stage : Stage

def bit (index : UInt32) : UInt32 := 1 <<< index

def Command.bitMask (command : Command) : UInt32 := bit command.index

structure Completion where
  interruptEnable : Bool
  bitmask : UInt32
  finishedAt : UInt64
  deriving DecidableEq, Repr

/-- The places of a slot, in the order it comes to them. -/
inductive Station where
  | idle
  | queued
  | fetching
  | reading
  | processing
  | responding
  | writing
  | completing
  deriving DecidableEq, Repr

/-- What the driver, the memory and the device see of the host. -/
inductive Happening where
  /-- A slot goes on from a place. -/
  | moved (bitMask : UInt32) (left : Station)
  | readDescriptor (address : UInt64)
  | readRequest (address : UInt64) (size : UInt32)
  | readPRDT (address : UInt64) (size : UInt32)
  | writeResponse (address : UInt64) (row : List UInt8)
  | writeDescriptor (address : UInt64) (desc : TransferReqDesc)
  /-- The driver starts the link. -/
  | linkStartup
  | generateInterrupt
  | clearInterrupt
  deriving DecidableEq, Repr

structure Host where
  sim : Sim.Run
  device : Device
  workEvent : Sim.Event
  requestEvent : Sim.Event
  completionEvent : Sim.Event
  workInterval : UInt64
  requestInterval : UInt64
  maxRequest : UInt64
  requestCounter : UInt64
  lastWorkAt : UInt64
  register_table : Registers
  pendingInterrupt : UInt32
  lRequestQueue : List UInt32
  commands : List Command
  /-- The first is the top: it is finished first. -/
  lResponseQueue : List Completion
  uicCommand : UInt64
  utpCommand : UInt64

namespace Host

def make (device : Device) (maxRequest workInterval : UInt64) (sim : Sim.Run) :
    Except Sim.Panic Host := do
  let sim ← sim.perform .allocateEvent
  let workEvent := sim.engine.counter
  let sim ← sim.perform .allocateEvent
  let requestEvent := sim.engine.counter
  let sim ← sim.perform .allocateEvent
  let completionEvent := sim.engine.counter
  pure {
    sim := sim
    device := device
    workEvent := workEvent
    requestEvent := requestEvent
    completionEvent := completionEvent
    workInterval := workInterval
    requestInterval := workInterval / maxRequest
    maxRequest := maxRequest
    requestCounter := 0
    lastWorkAt := 0
    register_table := .make
    pendingInterrupt := 0
    lRequestQueue := []
    commands := []
    lResponseQueue := []
    uicCommand := 0
    utpCommand := 0 }

def getTick (host : Host) : UInt64 := host.sim.engine.simTick

def schedule (host : Host) (event : Sim.Event) (tick : UInt64) :
    Except Panic Host := do
  let sim ← (host.sim.perform (.scheduleEvent event tick)).mapError .engine
  pure { host with sim := sim }

/-- The `switch` of `processUIC`. -/
def switchUIC (host : Host) (opcode : UInt32) : Except Panic Host :=
  if opcode = DME_LINKSTARTUP then
    ({ host with register_table.hcs := host.register_table.hcs ||| 0x0F } :
      Host).schedule host.workEvent (host.getTick + host.workInterval)
  else if opcode = DME_GET ∧ host.register_table.ucmdarg1 = POWERSTATE then
    pure { host with register_table.ucmdarg3 := UFSHCD_LINK_IS_UP }
  else
    pure host

def processUIC (host : Host) : Except Panic (Host × List Happening) := do
  let opcode := host.register_table.uiccmdr &&& 0xFF
  let host ← { host with
    register_table.ucmdarg2 := ERR_SUCCESS }.switchUIC opcode
  pure ({ host with
    register_table.is := host.register_table.is ||| UIC_COMMAND_COMPL
    register_table.uiccmdr := 0
    uicCommand := host.uicCommand + 1 },
    (if opcode = DME_LINKSTARTUP then [.linkStartup] else []) ++
      [.generateInterrupt])

def collect (host : Host) (i : Nat) : Host × List Happening :=
  let bit := bit (UInt32.ofNat i)
  if host.register_table.utrldbr &&& bit ≠ 0 ∧
      host.pendingInterrupt &&& bit = 0 then
    ({ host with
      pendingInterrupt := host.pendingInterrupt ||| bit
      lRequestQueue := host.lRequestQueue ++ [UInt32.ofNat i] },
      [.moved bit .idle])
  else
    (host, [])

def processUTPTransfer (host : Host) : Host × List Happening :=
  (List.range 32).foldl (fun (found : Host × List Happening) i =>
    let (host, happenings) := found.1.collect i
    (host, found.2 ++ happenings)) (host, [])

def writeRegister (host : Host) (offset data : UInt32) :
    Except Panic (Host × List Happening) :=
  if offset = 0x58 then
    pure { host with register_table.utrldbr :=
      host.register_table.utrldbr ||| data }.processUTPTransfer
  else if offset = 0x78 then
    throw .taskNotImplemented
  else if offset = 0x90 then
    { host with register_table.uiccmdr := data &&& 0x000000FF }.processUIC
  else
    pure ({ host with register_table := host.register_table.write offset data },
      if offset = 0x20 then [.clearInterrupt] else [])

def descriptorAddress (host : Host) (index : UInt32) : UInt64 :=
  host.register_table.utrlba + UTP_TRANSFER_REQ_DESC_SIZE * index.toUInt64

def fetch (host : Host) : Host × List Happening :=
  match host.lRequestQueue with
  | [] => (host, [])
  | index :: rest =>
      ({ host with
        lRequestQueue := rest
        commands := host.commands ++ [⟨index, .zero, .fetching⟩]
        requestCounter := host.requestCounter + 1 },
        [.moved (bit index) .queued,
          .readDescriptor (host.descriptorAddress index)])

def scheduleNext (host : Host) (tick : UInt64) : Except Panic Host :=
  if host.lRequestQueue.length > 0 ∧ host.requestCounter < host.maxRequest then
    host.schedule host.requestEvent (tick + host.requestInterval)
  else
    host.schedule host.workEvent
      (max (tick + host.requestInterval)
        (host.lastWorkAt + host.workInterval))

def handleRequest (host : Host) : Except Panic (Host × List Happening) := do
  let (next, happenings) := host.fetch
  let next ← next.scheduleNext host.getTick
  pure (next, happenings)

def work (host : Host) : Except Panic (Host × List Happening) :=
  { host with lastWorkAt := host.getTick }.handleRequest

def scheduleTop (host : Host) : Except Panic Host :=
  match host.lResponseQueue with
  | [] => pure host
  | top :: _ => host.schedule host.completionEvent top.finishedAt

/-- The loop of `completion`: what is finished is off the queue. -/
def popFinished (tick : UInt64) : List Completion → List Completion →
    List Completion × List Completion
  | popped, [] => (popped, [])
  | popped, iter :: rest =>
      if iter.finishedAt ≤ tick then popFinished tick (popped ++ [iter]) rest
      else (popped, iter :: rest)

def clear (host : Host) (iter : Completion) : Host :=
  { host with
    register_table.utrldbr := host.register_table.utrldbr &&& ~~~iter.bitmask
    pendingInterrupt := host.pendingInterrupt &&& ~~~iter.bitmask }

/-- The interrupt of `completion`. -/
def post (host : Host) (count : Nat) : Host × List Happening :=
  if count > 0 then
    ({ host with
      register_table.is :=
        host.register_table.is ||| UTP_TRANSFER_REQ_COMPL },
      [.generateInterrupt])
  else
    (host, [])

def completion (host : Host) : Except Panic (Host × List Happening) := do
  let (popped, rest) := popFinished host.getTick [] host.lResponseQueue
  let (host, posted) :=
    (popped.foldl clear { host with lResponseQueue := rest }).post popped.length
  let host ← host.scheduleTop
  pure (host, (popped.map fun iter => .moved iter.bitmask .completing) ++ posted)

/-! The calls that return to the host. -/

def setCommand (host : Host) (place : Nat) (command : Command) : Host :=
  { host with commands := host.commands.set place command }

/-- `doRead` of `handleRequest`, and `processUTPCommand` up to the first call
that returns. -/
def descriptorRead (host : Host) (place : Nat) (desc : TransferReqDesc) :
    Except Panic (Host × List Happening) := do
  let some command := host.commands[place]? | throw Panic.absent
  let .fetching := command.stage | throw Panic.absent
  if desc.ct = CMD_SCSI ∨ desc.ct = CMD_NATIVE_UFS_COMMAND ∨
      desc.ct = CMD_DEVICE_MGMT_FUNCTION then
    let table :=
      if desc.prdtLength > 0 then
        [Happening.readPRDT (desc.base + desc.offPRDT.toUInt64) desc.sizePRDT]
      else []
    pure (host.setCommand place { command with
        transferReqDesc := desc
        stage := .reading none (desc.prdtLength = 0) },
      [.moved command.bitMask .fetching,
        .readRequest desc.base desc.offUPIUResp] ++ table)
  else
    throw (.transferType desc.ct)

/-- `done` of `processUTPCommand`. -/
def respond (host : Host) (place : Nat) (command : Command)
    (request response : UPIU) : Except Panic (Host × List Happening) := do
  let desc := command.transferReqDesc
  let response := ⟨{ response.header with
    taskTag := request.header.taskTag }, response.fields⟩
  let (_, row, _) ← (UPIU.get response (fun _ => 0)
    desc.sizeUPIUResp.toNat).mapError .fault
  pure (host.setCommand place { command with stage := .responding },
    [.moved command.bitMask .processing,
      .writeResponse (desc.base + desc.offUPIUResp.toUInt64)
        (row.read 0 desc.sizeUPIUResp.toNat)])

/-- The response of a query is there before the device says so. -/
def startQuery (host : Host) (place : Nat) (command : Command)
    (request : UPIU) (memory : Query) :
    Except Panic (Host × List Happening) :=
  let response := getUPIU memory OPCODE_QUERY_RESPONSE
  match request.fields, response.fields with
  | .queryReq query, .queryResp answer => do
      let response ← (host.device.processQueryCommand request.header.lun query
        response answer).mapError .fault
      pure (host.setCommand place { command with
        stage := .processing request response },
        [.moved command.bitMask .reading])
  | _, _ => throw .absent

def startCommand (host : Host) (place : Nat) (command : Command)
    (request : UPIU) (memory : Query) :
    Except Panic (Host × List Happening) :=
  let response := getUPIU memory OPCODE_RESPONSE
  match request.fields, response.fields with
  | .command _ cdb, .response residualCount senseLength senseData =>
      pure (host.setCommand place { command with
        stage := .processing request
          (host.device.processCommand command.transferReqDesc.ct request.header
            cdb response.header residualCount senseLength senseData) },
        [.moved command.bitMask .reading])
  | _, _ => throw .absent

/-- `doRequest` of `processUTPCommand`. -/
def doRequest (host : Host) (place : Nat) (command : Command)
    (transferReq : Buffer) (memory : Query) :
    Except Panic (Host × List Happening) :=
  if command.transferReqDesc.offUPIUResp = 0 then
    throw (.fault .overrun)
  else do
    let reqType := transferReq 0 &&& 0x3F
    let (request, _) ← (receive memory transferReq
      command.transferReqDesc.offUPIUResp.toNat).mapError .fault
    if reqType = OPCODE_NOP_OUT then
      let (next, happenings) ← host.respond place command request
        (getUPIU memory OPCODE_NOP_IN)
      pure (next, .moved command.bitMask .reading :: happenings)
    else if reqType = OPCODE_QUERY_REQUEST then
      host.startQuery place command request memory
    else if reqType = OPCODE_COMMAND then
      host.startCommand place command request memory
    else
      throw .commandType

def requestRead (host : Host) (place : Nat) (transferReq : Buffer)
    (memory : Query) : Except Panic (Host × List Happening) := do
  let some command := host.commands[place]? | throw Panic.absent
  let .reading none prdtDone := command.stage | throw Panic.absent
  if prdtDone then
    host.doRequest place command transferReq memory
  else
    pure (host.setCommand place { command with
      stage := .reading (some transferReq) false }, [])

def prdtRead (host : Host) (place : Nat) (memory : Query) :
    Except Panic (Host × List Happening) := do
  let some command := host.commands[place]? | throw Panic.absent
  let .reading transferReq false := command.stage | throw Panic.absent
  match transferReq with
  | some transferReq => host.doRequest place command transferReq memory
  | none =>
      pure (host.setCommand place { command with
        stage := .reading none true }, [])

/-- The device has done; for a command that is not of SCSI it never says so. -/
def processed (host : Host) (place : Nat) :
    Except Panic (Host × List Happening) := do
  let some command := host.commands[place]? | throw Panic.absent
  let .processing request response := command.stage | throw Panic.absent
  match response.fields with
  | .response _ _ _ =>
      if command.transferReqDesc.ct = CMD_SCSI then
        host.respond place command request response
      else
        throw .absent
  | _ => host.respond place command request response

def responseWritten (host : Host) (place : Nat) :
    Except Panic (Host × List Happening) := do
  let some command := host.commands[place]? | throw Panic.absent
  let .responding := command.stage | throw Panic.absent
  let desc := { command.transferReqDesc with dw2 := 0 }
  pure (host.setCommand place { command with
      transferReqDesc := desc
      stage := .writing },
    [.moved command.bitMask .responding,
      .writeDescriptor (host.descriptorAddress command.index) desc])

/-- `push` of the priority queue. -/
def insertCompletion (entry : Completion) : List Completion → List Completion
  | [] => [entry]
  | iter :: rest =>
      if iter.finishedAt ≤ entry.finishedAt then
        iter :: insertCompletion entry rest
      else entry :: iter :: rest

/-- `now` is the time that the memory says it was written at. -/
def descriptorWritten (host : Host) (place : Nat) (now : UInt64) :
    Except Panic (Host × List Happening) := do
  let some command := host.commands[place]? | throw Panic.absent
  let .writing := command.stage | throw Panic.absent
  let entry : Completion :=
    ⟨command.transferReqDesc.dw0 &&& 0x01000000 ≠ 0, command.bitMask, now⟩
  let host := { host with
    commands := host.commands.eraseIdx place
    lResponseQueue := insertCompletion entry host.lResponseQueue }
  let host ← host.scheduleTop
  pure ({ host with utpCommand := host.utpCommand + 1 },
    [.moved command.bitMask .writing])

inductive Step where
  /-- The rest of the device calls the engine. -/
  | call (call : Sim.Call)
  | writeRegister (offset data : UInt32)
  | descriptorRead (place : Nat) (desc : TransferReqDesc)
  | requestRead (place : Nat) (transferReq : Buffer) (memory : Query)
  | prdtRead (place : Nat) (memory : Query)
  | processed (place : Nat)
  | responseWritten (place : Nat)
  | descriptorWritten (place : Nat) (now : UInt64)
  /-- The engine takes an event; the functions of the host's own return at
  once. -/
  | doNextEvent

def handle (host : Host) (event : Sim.Event) :
    Except Panic (Host × List Happening) :=
  if event = host.workEvent then host.work
  else if event = host.requestEvent then host.handleRequest
  else host.completion

def owns (host : Host) (event : Sim.Event) : Bool :=
  event = host.workEvent ∨ event = host.requestEvent ∨
    event = host.completionEvent

def doNextEvent (host : Host) : Except Panic (Host × List Happening) := do
  let sim ← (host.sim.perform .doNextEvent).mapError .engine
  let host := { host with sim := sim }
  match sim.running with
  | [] => pure (host, [])
  | event :: _ =>
      if host.owns event then
        let (host, happenings) ← host.handle event
        let sim ← (host.sim.perform .eventReturned).mapError .engine
        pure ({ host with sim := sim }, happenings)
      else
        pure (host, [])

def perform (host : Host) : Step → Except Panic (Host × List Happening)
  | .call call => do
      let sim ← (host.sim.perform call).mapError .engine
      pure ({ host with sim := sim }, [])
  | .writeRegister offset data => host.writeRegister offset data
  | .descriptorRead place desc => host.descriptorRead place desc
  | .requestRead place transferReq memory =>
      host.requestRead place transferReq memory
  | .prdtRead place memory => host.prdtRead place memory
  | .processed place => host.processed place
  | .responseWritten place => host.responseWritten place
  | .descriptorWritten place now => host.descriptorWritten place now
  | .doNextEvent => host.doNextEvent

/-- The others leave the events of the host alone, and the engine takes an
event when the function of the last one has returned. -/
def Suits (host : Host) : Step → Prop
  | .call call => call ≠ .doNextEvent ∧ call.Foreign host.workEvent ∧
      call.Foreign host.requestEvent ∧ call.Foreign host.completionEvent
  | .doNextEvent => host.sim.running = []
  | _ => True

inductive Reaches (start : Host) : List Happening → Host → Prop where
  | start : Reaches start [] start
  | step {log before step after happenings}
      (earlier : Reaches start log before) (suits : before.Suits step)
      (performed : before.perform step = .ok (after, happenings)) :
      Reaches start (log ++ happenings) after

end Host

end SimpleSSD.HIL.UFS
