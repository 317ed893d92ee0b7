import SimpleSSD.HIL.NVMe.Controller
import SimpleSSD.HIL.NVMe.PRPList

namespace SimpleSSD.HIL.NVMe

/-! Commands, their completions, and the part of a command's work that is left
to callbacks.  The response function of a command is named by the number of the
command; `func` stands for it. -/

/-- What stops the subsystem.  The panics have a message; the others are uses of memory that C++ leaves undefined. -/
inductive Fault where
  | controller (raised : Panic)
  /-- The panic of `createNamespace`. -/
  | bug
  | prpList (raised : PRPPanic)
  /-- The panic of `parseSGLDescriptor`. -/
  | unexpectedSubtype
  | useAfterFree
  /-- `front` of an empty list. -/
  | noNamespace
  /-- A member of a disk that a format has deleted. -/
  | nullDisk
  /-- A buffer of one page is used past its end. -/
  | outOfBuffer
  /-- `lbaSize` is read past its end. -/
  | outOfFormats
  deriving DecidableEq, Repr

def Fault.message : Fault → String
  | .controller raised => raised.message
  | .bug => "BUG"
  | .prpList raised => raised.message
  | .unexpectedSubtype => "Unexpected SGL subtype"
  | .useAfterFree | .noNamespace | .nullDisk | .outOfBuffer | .outOfFormats =>
      ""

structure ConfigData where
  maxQueueEntry : UInt16
  totalLogicalPages : Nat
  logicalPageSize : UInt32
  memoryPageSize : Nat
  maxIOCQueue : UInt32
  maxIOSQueue : UInt32
  wrrHigh : UInt64
  wrrMedium : UInt64
  useWriteCache : Bool
  enableDiskImage : Bool
  pages_lt : totalLogicalPages < 2 ^ 64

structure Command extends SQEntryWrapper where
  useSGL : Bool
  opcode : UInt8
  namespaceID : UInt32
  data1 : UInt64
  data2 : UInt64
  dword10 : UInt32
  dword11 : UInt32
  dword12 : UInt32
  dword13 : UInt32
  deriving DecidableEq, Repr

/-- `dword & mask`, as a truth value. -/
def hasBits (dword mask : UInt32) : Bool := decide (dword &&& mask ≠ 0)

/-! The data pointers of a command are two PRPs or the first descriptor of an
SGL. -/

inductive SGLType where
  | dataBlock
  | bitBucket
  | segment
  | lastSegment
  | keyedDataBlock
  | other
  deriving DecidableEq, Repr

def SGLType.decode (id : UInt8) : SGLType :=
  match (id >>> 4).toNat with
  | 0x00 => .dataBlock
  | 0x01 => .bitBucket
  | 0x02 => .segment
  | 0x03 => .lastSegment
  | 0x04 => .keyedDataBlock
  | _ => .other

namespace Command

def descriptorID (req : Command) : UInt8 := (req.data2 >>> 56).toUInt8

/-- The constructors of `PRPList` and `SGL`: whether they will call
`initFunction`.  That of `SGL` does nothing for a first descriptor that is
neither data nor a segment. -/
def setsUp (cfg : ConfigData) (req : Command) (size : Nat) :
    Except Fault Bool :=
  if req.useSGL then
    match SGLType.decode req.descriptorID with
    | .dataBlock | .keyedDataBlock =>
        if req.descriptorID &&& 0x0F = 0 then .ok true
        else .error .unexpectedSubtype
    | .segment | .lastSegment => .ok true
    | .bitBucket | .other => .ok false
  else
    match PRPList.make cfg.memoryPageSize req.data1.toNat req.data2.toNat
        size with
    | .ok _ => .ok true
    | .error raised => .error (.prpList raised)

end Command

def nsidNone : UInt32 := 0

def nsidLowest : UInt32 := 1

def nsidAll : UInt32 := 0xFFFFFFFF

inductive StatusCodeType where
  | genericCommandStatus
  | commandSpecificStatus
  | mediaAndDataIntegrityError
  deriving DecidableEq, Repr

def StatusCodeType.value : StatusCodeType → UInt16
  | .genericCommandStatus => 0
  | .commandSpecificStatus => 1
  | .mediaAndDataIntegrityError => 2

/-- The codes of `STATUS_CODE`, `ERROR_CODE` and `MEDIA_ERROR_CODE` in use. -/
inductive StatusCode where
  | success
  | invalidOpcode
  | invalidField
  | abortInvalidNamespace
  | formatInProgress
  | invalidCompletionQueue
  | invalidQueueID
  | invalidQueueSize
  | invalidLogPage
  | invalidFormat
  | invalidQueueDelete
  | featureIDNotSaveable
  | namespaceInsufficientCapacity
  | namespaceIDUnavailable
  | namespaceAlreadyAttached
  | namespaceIsPrivate
  | namespaceNotAttached
  | controllerListInvalid
  | compareFailure
  deriving DecidableEq, Repr

def StatusCode.value : StatusCode → UInt16
  | .success => 0x00
  | .invalidOpcode => 0x01
  | .invalidField => 0x02
  | .abortInvalidNamespace => 0x0B
  | .formatInProgress => 0x84
  | .invalidCompletionQueue => 0x00
  | .invalidQueueID => 0x01
  | .invalidQueueSize => 0x02
  | .invalidLogPage => 0x09
  | .invalidFormat => 0x0A
  | .invalidQueueDelete => 0x0C
  | .featureIDNotSaveable => 0x0D
  | .namespaceInsufficientCapacity => 0x15
  | .namespaceIDUnavailable => 0x16
  | .namespaceAlreadyAttached => 0x18
  | .namespaceIsPrivate => 0x19
  | .namespaceNotAttached => 0x1A
  | .controllerListInvalid => 0x1C
  | .compareFailure => 0x85

/-- `CQEntryWrapper` as the response function receives it. -/
structure Response where
  func : Nat
  cqID : Nat
  sqID : Nat
  commandID : UInt16
  status : UInt16
  dword0 : UInt32
  deriving DecidableEq, Repr

def Response.make (req : Command) (func : Nat) : Response where
  func := func
  cqID := req.cqID
  sqID := req.sqID
  commandID := req.commandID
  status := 0
  dword0 := 0

def Response.makeStatus (resp : Response) (dnr more : Bool)
    (sct : StatusCodeType) (sc : StatusCode) : Response :=
  { resp with status :=
      (dnr.toUInt16 <<< 15) ||| (more.toUInt16 <<< 14) |||
        ((sct.value &&& 0x07) <<< 9) ||| ((sc.value &&& 0xFF) <<< 1) }

@[simp] theorem Response.makeStatus_func (resp : Response) (dnr more : Bool)
    (sct : StatusCodeType) (sc : StatusCode) :
    (resp.makeStatus dnr more sct sc).func = resp.func := rfl

structure LPNRange where
  slpn : Nat
  nlp : Nat
  deriving DecidableEq, Repr

/-- `Namespace::Information`, less the fields that only describe the namespace
to the host. -/
structure Information where
  size : UInt64
  capacity : UInt64
  lbaFormatIndex : UInt8
  lbaSize : UInt32
  range : LPNRange
  deriving DecidableEq, Repr

/-- `address` tells a namespace from a later one with the same id. -/
structure Namespace where
  address : Nat
  nsid : UInt32
  info : Information
  attached : Bool
  formatFinishedAt : Nat
  /-- Whether there is a disk. -/
  pDisk : Bool
  deriving DecidableEq, Repr

/-- A request to the HIL after `convertUnit`. -/
structure Request where
  slpn : UInt64
  nlp : UInt64
  offset : UInt64
  length : UInt64
  deriving DecidableEq, Repr

inductive HILOperation where
  | read
  | write
  | flush
  | trim
  | format (erase : Bool)
  deriving DecidableEq, Repr

/-- The commands with two transfers, one of the host's data and one of the
HIL. -/
inductive Transfer where
  | read
  | write
  | compare
  deriving DecidableEq, Repr

inductive IdentifyData where
  | zeros
  | namespaces (found : List Information)
  | controller
  | namespaceList (ids : List UInt32)
  | controllerList
  deriving DecidableEq, Repr

inductive QueueName where
  | submission (sqid : Nat)
  | completion (cqid : Nat)
  deriving DecidableEq, Repr

/-- The functions that wait to be called, with the context they are called
with.  A context that belongs to one function is part of it; a shared context
is a place in the heap. -/
inductive Callback where
  /-- `cpuHandler`, and a request that `execute` passes on to the HIL. -/
  | cpuHandler (next : Callback)
  | request (operation : HILOperation) (request : Request) (next : Callback)
  /-- `doQueue` of the two queue creations. -/
  | doQueue (queue : QueueName) (resp : Response)
  | smartInfo (offset : UInt64) (resp : Response)
  | logDone (resp : Response)
  | identifyWrite (data : IdentifyData) (resp : Response)
  | identifyDone (resp : Response)
  | managementRead (nsid : UInt32) (resp : Response)
  | managementDone (nsid : UInt32) (resp : Response)
  | attachmentRead (sel : UInt32) (nsid : UInt32) (resp : Response)
  | attachmentDone (sel : UInt32) (nsid : UInt32) (resp : Response)
  | doFormat (resp : Response)
  /-- The two forms of `doSubmit` in `Subsystem::submitCommand`. -/
  | doSubmit (ns : Nat) (req : Command) (func : Nat)
  | submitFront (req : Command) (func : Nat)
  | flushBegin (ns : Nat) (resp : Response)
  | doFlush (ns : Nat) (resp : Response)
  /-- `doRead` of a transfer, and `dmaDone`, which both of its parts call. -/
  | transfer (kind : Transfer) (ns : Nat) (context : Nat) (func : Nat)
  | transferDone (kind : Transfer) (ns : Nat) (context : Nat) (func : Nat)
  | doTrim (ns : Nat) (ranges : Nat) (resp : Response)
  | trimRead (ns : Nat) (ranges : Nat) (resp : Response)
  | eachTrimDone (ns : Nat) (context : Nat) (func : Nat)
  deriving DecidableEq, Repr

def Callback.func : Callback → Nat
  | .cpuHandler next | .request _ _ next => next.func
  | .doQueue _ resp | .smartInfo _ resp | .logDone resp
  | .identifyWrite _ resp | .identifyDone resp
  | .managementRead _ resp | .managementDone _ resp
  | .attachmentRead _ _ resp | .attachmentDone _ _ resp
  | .doFormat resp | .flushBegin _ resp | .doFlush _ resp
  | .doTrim _ _ resp | .trimRead _ _ resp => resp.func
  | .doSubmit _ _ func | .submitFront _ func
  | .transfer _ _ _ func | .transferDone _ _ _ func
  | .eachTrimDone _ _ func => func

/-- `IOContext` and `CompareContext` of a transfer. -/
structure IOContext where
  resp : Response
  beginAt : Nat
  slba : UInt64
  nlb : UInt64
  /-- Whether `buffer` is set. -/
  buffer : Bool
  deriving DecidableEq, Repr

/-- `DMAContext` of a trim; `resp` is in the context it points to. -/
structure DMAContext where
  counter : Nat
  resp : Response
  deriving DecidableEq, Repr

/-- The members of `Subsystem`, the heap, the calls that are due, and the
controller.  `responses` and `submitted` are history. -/
structure Subsystem where
  controller : Controller
  aggregationTime : UInt64
  aggregationThreshold : UInt8
  lNamespaces : List Namespace
  queueAllocated : UInt32
  allocatedLogicalPages : UInt64
  /-- `getTick()`. -/
  tick : Nat
  nextAddress : Nat
  contexts : List (Option IOContext)
  trims : List (Option DMAContext)
  /-- Commands whose queue was deleted, with its PRP list, before the list was
  ready. -/
  freedLists : List Nat
  pending : List Callback
  responses : List Response
  submitted : Nat

/-- What a call brings from outside: the bytes a DMA has read, and the result
of comparing them with the disk. -/
structure Arrival where
  buffer : Nat → UInt8
  differs : Bool

namespace Subsystem

/-- `func(resp)`. -/
def reply (subsystem : Subsystem) (resp : Response) : Subsystem :=
  { subsystem with responses := subsystem.responses ++ [resp] }

/-- A DMA transfer or `execute`, each of which calls back. -/
def schedule (subsystem : Subsystem) (callback : Callback) : Subsystem :=
  { subsystem with pending := subsystem.pending ++ [callback] }

/-- A new `PRPList` or `SGL` of `size` bytes. -/
def setUp (cfg : ConfigData) (subsystem : Subsystem) (req : Command)
    (size : Nat) (func : Callback) : Except Fault Subsystem := do
  if ← req.setsUp cfg size then return subsystem.schedule func
  return subsystem

def namespaceAt (subsystem : Subsystem) (ns : Nat) : Except Fault Namespace :=
  match subsystem.lNamespaces.find? (·.address = ns) with
  | some found => .ok found
  | none => .error .useAfterFree

def contextAt (subsystem : Subsystem) (context : Nat) :
    Except Fault IOContext :=
  match subsystem.contexts[context]? with
  | some (some found) => .ok found
  | _ => .error .useAfterFree

def trimAt (subsystem : Subsystem) (context : Nat) :
    Except Fault DMAContext :=
  match subsystem.trims[context]? with
  | some (some found) => .ok found
  | _ => .error .useAfterFree

def setContext (subsystem : Subsystem) (context : Nat)
    (updated : Option IOContext) : Subsystem :=
  { subsystem with contexts := subsystem.contexts.set context updated }

def setTrim (subsystem : Subsystem) (context : Nat)
    (updated : Option DMAContext) : Subsystem :=
  { subsystem with trims := subsystem.trims.set context updated }

/-! Requests to the HIL. -/

def convertUnit (cfg : ConfigData) (ns : Namespace) (slba nlblk : UInt64) :
    Request :=
  let lbaratio := cfg.logicalPageSize / ns.info.lbaSize
  let first := UInt64.ofNat ns.info.range.slpn
  if lbaratio = 0 then
    let lbaratio := (ns.info.lbaSize / cfg.logicalPageSize).toUInt64
    { slpn := slba * lbaratio + first
      nlp := nlblk * lbaratio
      offset := 0
      length := nlblk * ns.info.lbaSize.toUInt64 }
  else
    let lbaratio := lbaratio.toUInt64
    let off := slba % lbaratio
    { slpn := slba / lbaratio + first
      nlp := (nlblk + off + lbaratio - 1) / lbaratio
      offset := off * ns.info.lbaSize.toUInt64
      length := nlblk * ns.info.lbaSize.toUInt64 }

/-- `read`, `write` and `trim` of the subsystem. -/
def issue (cfg : ConfigData) (subsystem : Subsystem)
    (operation : HILOperation) (ns : Namespace) (slba nlblk : UInt64)
    (func : Callback) : Subsystem :=
  subsystem.schedule
    (.request operation (convertUnit cfg ns slba nlblk) func)

/-- `flush` of the subsystem, which goes to the HIL at once. -/
def flushRequest (subsystem : Subsystem) (func : Callback) : Subsystem :=
  subsystem.schedule func

end Subsystem

/-! The handlers of `Namespace`. -/

namespace Namespace

def slbaOf (req : Command) : UInt64 :=
  (req.dword11.toUInt64 <<< 32) ||| req.dword10.toUInt64

/-- `nlb` of a transfer, a `uint16_t`. -/
def nlbOf (req : Command) : UInt16 :=
  (req.dword12 &&& 0xFFFF).toUInt16 + 1

def lidOf (req : Command) : UInt16 := (req.dword10 &&& 0xFFFF).toUInt16

def offsetOf (req : Command) : UInt64 :=
  (req.dword13.toUInt64 <<< 32) ||| req.dword12.toUInt64

/-- `req_size` of a log page. -/
def logSizeOf (req : Command) : UInt32 :=
  (((req.dword11 &&& 0xFFFF) <<< 16 ||| req.dword10 >>> 16) + 1) * 4

def smartHealthInformation : UInt16 := 0x02

def notAttached (resp : Response) : Response :=
  resp.makeStatus true false .commandSpecificStatus .namespaceNotAttached

def getLogPage (cfg : ConfigData) (ns : Namespace) (req : Command)
    (func : Nat) (subsystem : Subsystem) : Except Fault Subsystem :=
  let resp := Response.make req func
  if lidOf req = smartHealthInformation then
    if req.namespaceID = ns.nsid then
      subsystem.setUp cfg req (logSizeOf req).toNat
        (.smartInfo (offsetOf req) resp)
    else .ok (subsystem.reply (notAttached resp))
  else .ok (subsystem.reply
    (resp.makeStatus true false .commandSpecificStatus .invalidLogPage))

def flush (ns : Namespace) (req : Command) (func : Nat)
    (subsystem : Subsystem) : Subsystem :=
  let resp := Response.make req func
  if ns.attached then subsystem.schedule (.flushBegin ns.address resp)
  else subsystem.reply (notAttached resp)

def transferSize (ns : Namespace) (req : Command) : UInt64 :=
  (nlbOf req).toUInt64 * ns.info.lbaSize.toUInt64

/-- `read`, `write` and `compare` up to the set-up of the DMA. -/
def transfer (cfg : ConfigData) (kind : Transfer) (ns : Namespace)
    (req : Command) (func : Nat) (subsystem : Subsystem) :
    Except Fault Subsystem :=
  let resp := Response.make req func
  let resp := if ns.attached then resp else notAttached resp
  if ns.attached && nlbOf req != 0 then
    let context := subsystem.contexts.length
    let created : IOContext :=
      { resp := resp, beginAt := subsystem.tick, slba := slbaOf req
        nlb := (nlbOf req).toUInt64, buffer := false }
    { subsystem with contexts := subsystem.contexts ++ [some created] }.setUp
      cfg req (ns.transferSize req).toNat
      (.cpuHandler (.transfer kind ns.address context func))
  else .ok (subsystem.reply resp)

/-- `nr` of a dataset management command. -/
def rangesOf (req : Command) : Nat := (req.dword10 &&& 0xFF).toNat + 1

/-- `ad` of a dataset management command. -/
def deallocates (req : Command) : Bool := hasBits req.dword11 0x04

def datasetManagement (cfg : ConfigData) (ns : Namespace) (req : Command)
    (func : Nat) (subsystem : Subsystem) : Except Fault Subsystem :=
  let resp := Response.make req func
  let resp := if ns.attached then resp else notAttached resp
  if ns.attached && deallocates req then
    subsystem.setUp cfg req (rangesOf req * 0x10)
      (.cpuHandler (.doTrim ns.address (rangesOf req) resp))
  else .ok (subsystem.reply resp)

inductive NVMOpcode where
  | flush
  | write
  | read
  | compare
  | datasetManagement
  | other
  deriving DecidableEq, Repr

def NVMOpcode.decode (opcode : UInt8) : NVMOpcode :=
  match opcode.toNat with
  | 0x00 => .flush
  | 0x01 => .write
  | 0x02 => .read
  | 0x05 => .compare
  | 0x09 => .datasetManagement
  | _ => .other

/-- `OPCODE_GET_LOG_PAGE`. -/
def getLogPageOpcode : UInt8 := 0x02

def submitCommand (cfg : ConfigData) (ns : Namespace) (req : Command)
    (func : Nat) (subsystem : Subsystem) : Except Fault Subsystem :=
  let resp := Response.make req func
  if subsystem.tick < ns.formatFinishedAt then
    .ok (subsystem.reply
      (resp.makeStatus false false .genericCommandStatus .formatInProgress))
  else if req.sqID = 0 then
    if req.opcode = getLogPageOpcode then getLogPage cfg ns req func subsystem
    else .ok (subsystem.reply
      (resp.makeStatus true false .genericCommandStatus .invalidOpcode))
  else
    match NVMOpcode.decode req.opcode with
    | .flush => .ok (flush ns req func subsystem)
    | .write => transfer cfg .write ns req func subsystem
    | .read => transfer cfg .read ns req func subsystem
    | .compare => transfer cfg .compare ns req func subsystem
    | .datasetManagement => datasetManagement cfg ns req func subsystem
    | .other => .ok (subsystem.reply
        (resp.makeStatus true false .genericCommandStatus .invalidOpcode))

/-! The callbacks of a namespace. -/

/-- `doRead`: the context counts the parts that are done, from zero. -/
def beginTransfer (cfg : ConfigData) (kind : Transfer) (ns : Namespace)
    (context : Nat) (found : IOContext) (subsystem : Subsystem) : Subsystem :=
  let done := Callback.transferDone kind ns.address context found.resp.func
  match kind with
  | .write =>
      ((subsystem.setContext context
        (some { found with beginAt := 0, buffer := ns.pDisk })).schedule
          done).issue cfg .write ns found.slba found.nlb done
  | .read | .compare =>
      ((subsystem.setContext context
        (some { found with beginAt := 0, buffer := true })).issue cfg .read ns
          found.slba found.nlb done).schedule done

/-- `dmaDone`: the second of the two calls sends the response. -/
def transferDone (kind : Transfer) (ns context : Nat) (arrival : Arrival)
    (subsystem : Subsystem) : Except Fault Subsystem := do
  let found ← subsystem.contextAt context
  if found.beginAt + 1 = 2 then
    let this ← subsystem.namespaceAt ns
    let replied := subsystem.reply
      (if kind = .compare && this.pDisk && arrival.differs then
        found.resp.makeStatus false false .mediaAndDataIntegrityError
          .compareFailure
      else found.resp)
    if kind = .write && found.buffer && !this.pDisk then throw .nullDisk
    return replied.setContext context none
  else
    return subsystem.setContext context
      (some { found with beginAt := found.beginAt + 1 })

/-- `eachTrimDone` deletes the shared context in every call. -/
def eachTrimDone (ns context : Nat) (subsystem : Subsystem) :
    Except Fault Subsystem := do
  let found ← subsystem.trimAt context
  if found.counter - 1 = 0 then
    let _ ← subsystem.namespaceAt ns
    return (subsystem.reply found.resp).setTrim context none
  else return subsystem.setTrim context none

/-- A number in a `DatasetManagementRange`, the low byte first. -/
def rangeWord (arrival : Arrival) (range first bytes : Nat) : UInt64 :=
  UInt64.ofNat ((List.range bytes).foldr
    (fun k value => value * 256 +
      (arrival.buffer (range * 16 + first + k)).toNat) 0)

/-- `dmaDone` of a trim: one trim for each range, with a shared counter. -/
def beginTrims (cfg : ConfigData) (ns : Namespace) (ranges : Nat)
    (resp : Response) (arrival : Arrival) (subsystem : Subsystem) :
    Except Fault Subsystem :=
  let context := subsystem.trims.length
  let created : DMAContext :=
    { counter := if ranges = 0 then 1 else ranges, resp := resp }
  let issued := (List.range ranges).foldl
    (fun reached i => reached.issue cfg .trim ns (rangeWord arrival i 8 8)
      (rangeWord arrival i 4 4) (.eachTrimDone ns.address context resp.func))
    { subsystem with trims := subsystem.trims ++ [some created] }
  if ranges = 0 then eachTrimDone ns.address context issued else .ok issued

end Namespace

end SimpleSSD.HIL.NVMe
