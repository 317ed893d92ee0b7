import Mathlib.Data.List.Sort
import SimpleSSD.HIL.NVMe.Namespace

namespace SimpleSSD.HIL.NVMe

namespace Subsystem

/-! Namespaces are placed in the logical pages that no other namespace has. -/

def lbaSizes : List UInt32 := [512, 1024, 2048, 4096]

def lbaSize (index : UInt8) : Except Fault UInt32 :=
  match lbaSizes[index.toNat]? with
  | some size => .ok size
  | none => .error .outOfFormats

/-- The loop marked `Invert`: the free ranges below `last`, and `last`. -/
def invert : List LPNRange → (free : List LPNRange) → (last : LPNRange) →
    Except Fault (List LPNRange)
  | [], free, last => .ok (free ++ [last])
  | range :: rest, free, last =>
      if last.slpn ≤ range.slpn ∧
          range.slpn + range.nlp ≤ last.slpn + last.nlp then
        invert rest (free ++ [⟨last.slpn, range.slpn - last.slpn⟩])
          ⟨range.slpn + range.nlp,
            last.slpn + last.nlp - range.slpn - range.nlp⟩
      else .error .bug

/-- `list::sort` by the first page. -/
def sortRanges (ranges : List LPNRange) : List LPNRange :=
  ranges.insertionSort fun left right => left.slpn ≤ right.slpn

/-- The merge that stands between sorting and inverting ends before its first
round. -/
def unallocated (cfg : ConfigData) (subsystem : Subsystem) :
    Except Fault (List LPNRange) :=
  invert (sortRanges (subsystem.lNamespaces.map fun ns => ns.info.range)) []
    ⟨0, cfg.totalLogicalPages⟩

def sortNamespaces (namespaces : List Namespace) : List Namespace :=
  namespaces.insertionSort fun left right => left.nsid ≤ right.nsid

/-- What `createNamespace` and `setData` make of the free range. -/
def addNamespace (cfg : ConfigData) (subsystem : Subsystem) (nsid : UInt32)
    (info : Information) (requested : UInt64) (range : LPNRange) :
    Subsystem :=
  { subsystem with
    allocatedLogicalPages := subsystem.allocatedLogicalPages + requested
    nextAddress := subsystem.nextAddress + 1
    lNamespaces := sortNamespaces (subsystem.lNamespaces ++
      [{ address := subsystem.nextAddress, nsid := nsid
         info := { info with range := range }, attached := false
         formatFinishedAt := 0, pDisk := cfg.enableDiskImage }]) }

def requestedLogicalPages (cfg : ConfigData) (info : Information)
    (size : UInt32) : UInt64 :=
  info.size / cfg.logicalPageSize.toUInt64 * size.toUInt64

def createNamespace (cfg : ConfigData) (subsystem : Subsystem)
    (nsid : UInt32) (info : Information) :
    Except Fault (Bool × Subsystem) := do
  let size ← lbaSize info.lbaFormatIndex
  let requested := requestedLogicalPages cfg info size
  let rest := UInt64.ofNat cfg.totalLogicalPages -
    subsystem.allocatedLogicalPages
  if rest < requested then return (false, subsystem)
  let free ← unallocated cfg subsystem
  let range :=
    match free.find? fun piece => requested.toNat ≤ piece.nlp with
    | some piece => { piece with nlp := requested.toNat }
    | none => info.range
  if range.nlp = 0 then return (false, subsystem)
  return (true, addNamespace cfg subsystem nsid info requested range)

def destroyNamespace (cfg : ConfigData) (subsystem : Subsystem)
    (nsid : UInt32) : Bool × Subsystem :=
  match subsystem.lNamespaces.find? (·.nsid = nsid) with
  | none => (false, subsystem)
  | some ns => (true,
      { subsystem with
        allocatedLogicalPages := subsystem.allocatedLogicalPages -
          ns.info.size * ns.info.lbaSize.toUInt64 /
            cfg.logicalPageSize.toUInt64
        lNamespaces := subsystem.lNamespaces.eraseP (·.nsid = nsid) })

/-! Admin commands.  Each handler tells whether it has processed the
command. -/

def call (result : Except Panic α) : Except Fault α :=
  match result with
  | .ok value => .ok value
  | .error raised => .error (.controller raised)

def queueIDOf (req : Command) : Nat := (req.dword10 &&& 0xFFFF).toNat

/-- `entrySize`, a `uint16_t`. -/
def entrySizeOf (req : Command) : UInt16 := (req.dword10 >>> 16).toUInt16 + 1

/-- `cqid` of a submission queue, `iv` of a completion queue. -/
def upperDword11 (req : Command) : Nat := (req.dword11 >>> 16).toNat

def priorityOf (req : Command) : Priority :=
  match ((req.dword11 &&& 0x06) >>> 1).toNat with
  | 0 => .urgent
  | 1 => .high
  | 2 => .medium
  | _ => .low

/-- The queue is deleted together with its PRP list, which may still wait to
be read. -/
def freeList (subsystem : Subsystem) (queue : QueueName) : Subsystem :=
  { subsystem with freedLists := subsystem.freedLists ++
      subsystem.pending.filterMap fun callback =>
        match callback with
        | .cpuHandler (.doQueue name resp) =>
            if name = queue then some resp.func else none
        | _ => none }

def deleteSQueue (subsystem : Subsystem) (req : Command) (func : Nat) :
    Except Fault (Bool × Subsystem) := do
  let resp := Response.make req func
  let (ret, controller) ← call
    (subsystem.controller.deleteSQueue (queueIDOf req))
  let updated := { subsystem with controller := controller }
  if ret = 1 then
    return (true, updated.reply
      (resp.makeStatus false false .commandSpecificStatus .invalidQueueID))
  return (true,
    (updated.freeList (.submission (queueIDOf req))).reply resp)

/-- Where the controller refuses, the status is set in a response that no one
sends. -/
def createSQueue (cfg : ConfigData) (subsystem : Subsystem) (req : Command)
    (func : Nat) : Except Fault (Bool × Subsystem) := do
  let resp := Response.make req func
  if cfg.maxQueueEntry < entrySizeOf req then
    return (true, subsystem.reply
      (resp.makeStatus false false .commandSpecificStatus .invalidQueueSize))
  let (ret, controller) ← call (subsystem.controller.createSQueue
    (queueIDOf req) (upperDword11 req) (entrySizeOf req) (priorityOf req))
  let updated := { subsystem with controller := controller }
  if ret = 0 then
    return (true, updated.schedule
      (.cpuHandler (.doQueue (.submission (queueIDOf req)) resp)))
  return (true, updated)

inductive LogPage where
  | errorInformation
  | smartHealthInformation
  | firmwareSlotInformation
  | other
  deriving DecidableEq, Repr

def LogPage.decode (lid : UInt16) : LogPage :=
  match lid.toNat with
  | 0x01 => .errorInformation
  | 0x02 => .smartHealthInformation
  | 0x03 => .firmwareSlotInformation
  | _ => .other

/-- Health information that is not for all namespaces is left to the
namespace, but `submit` is still set. -/
def getLogPage (cfg : ConfigData) (subsystem : Subsystem) (req : Command)
    (func : Nat) : Except Fault (Bool × Subsystem) := do
  let resp := Response.make req func
  match LogPage.decode (Namespace.lidOf req) with
  | .errorInformation | .firmwareSlotInformation =>
      return (true, subsystem.reply resp)
  | .smartHealthInformation =>
      if req.namespaceID = nsidAll then
        return (true, ← subsystem.setUp cfg req (Namespace.logSizeOf req).toNat
          (.smartInfo (Namespace.offsetOf req) resp))
      return (false, subsystem.reply resp)
  | .other => return (true, subsystem.reply
      (resp.makeStatus true false .commandSpecificStatus .invalidLogPage))

def deleteCQueue (subsystem : Subsystem) (req : Command) (func : Nat) :
    Except Fault (Bool × Subsystem) := do
  let resp := Response.make req func
  let (ret, controller) ← call
    (subsystem.controller.deleteCQueue (queueIDOf req))
  let updated := { subsystem with controller := controller }
  if ret = 1 then
    return (true, updated.reply
      (resp.makeStatus false false .commandSpecificStatus .invalidQueueID))
  if ret = 2 then
    return (true, updated.reply
      (resp.makeStatus false false .commandSpecificStatus .invalidQueueDelete))
  return (true,
    (updated.freeList (.completion (queueIDOf req))).reply resp)

def createCQueue (cfg : ConfigData) (subsystem : Subsystem) (req : Command)
    (func : Nat) : Except Fault (Bool × Subsystem) := do
  let resp := Response.make req func
  if cfg.maxQueueEntry < entrySizeOf req then
    return (true, subsystem.reply
      (resp.makeStatus false false .commandSpecificStatus .invalidQueueSize))
  let (ret, controller) ← call (subsystem.controller.createCQueue
    (queueIDOf req) (entrySizeOf req) (upperDword11 req)
    (hasBits req.dword11 0x02))
  let updated := { subsystem with controller := controller }
  if ret = 0 then
    return (true, updated.schedule
      (.cpuHandler (.doQueue (.completion (queueIDOf req)) resp)))
  return (true, updated)

inductive CNS where
  | identifyNamespace
  | identifyController
  | activeNamespaceList
  | allocatedNamespaceList
  | identifyAllocatedNamespace
  | attachedControllerList
  | controllerList
  | other
  deriving DecidableEq, Repr

def CNS.decode (cns : UInt32) : CNS :=
  match cns.toNat with
  | 0x00 => .identifyNamespace
  | 0x01 => .identifyController
  | 0x02 => .activeNamespaceList
  | 0x10 => .allocatedNamespaceList
  | 0x11 => .identifyAllocatedNamespace
  | 0x12 => .attachedControllerList
  | 0x13 => .controllerList
  | _ => .other

/-- The ids above the one asked for; the buffer holds 1024 of them. -/
def listNamespaces (subsystem : Subsystem) (req : Command)
    (select : Namespace → Bool) : Except Fault IdentifyData :=
  let ids := (subsystem.lNamespaces.filter fun ns =>
    select ns && req.namespaceID < ns.nsid).map Namespace.nsid
  if 1024 < ids.length then .error .outOfBuffer
  else .ok (.namespaceList ids)

def identifyData (subsystem : Subsystem) (req : Command) :
    Except Fault (Option IdentifyData) :=
  let cntid := (req.dword10 >>> 16).toNat
  let named (select : Namespace → Bool) : IdentifyData :=
    .namespaces ((subsystem.lNamespaces.filter fun ns =>
      select ns && ns.nsid = req.namespaceID).map Namespace.info)
  match CNS.decode (req.dword10 &&& 0xFF) with
  | .identifyNamespace =>
      if req.namespaceID = nsidAll then .ok (some .zeros)
      else .ok (some (named Namespace.attached))
  | .identifyController => .ok (some .controller)
  | .activeNamespaceList =>
      if nsidAll - 1 ≤ req.namespaceID then .ok none
      else (listNamespaces subsystem req Namespace.attached).map some
  | .allocatedNamespaceList =>
      if nsidAll - 1 ≤ req.namespaceID then .ok none
      else (listNamespaces subsystem req fun _ => true).map some
  | .identifyAllocatedNamespace => .ok (some (named fun _ => true))
  | .attachedControllerList | .controllerList =>
      .ok (some (if cntid = 0 then .controllerList else .zeros))
  | .other => .ok (some .zeros)

def identify (cfg : ConfigData) (subsystem : Subsystem) (req : Command)
    (func : Nat) : Except Fault (Bool × Subsystem) := do
  let resp := Response.make req func
  match ← identifyData subsystem req with
  | some data => return (true, ← subsystem.setUp cfg req 0x1000
      (.identifyWrite data resp))
  | none => return (true, subsystem.reply (resp.makeStatus true false
      .genericCommandStatus .abortInvalidNamespace))

def abort (subsystem : Subsystem) (req : Command) (func : Nat) :
    Except Fault (Bool × Subsystem) := do
  let resp := (Response.make req func).makeStatus true false
    .genericCommandStatus .success
  let (ret, controller) ← call (subsystem.controller.abort (queueIDOf req)
    (req.dword10 >>> 16).toUInt16)
  return (true, { subsystem with controller := controller }.reply
    { resp with dword0 := if ret = 0 then 1 else 0 })

inductive Feature where
  | arbitration
  | volatileWriteCache
  | numberOfQueues
  | interruptCoalescing
  | interruptVectorConfiguration
  | other
  deriving DecidableEq, Repr

def Feature.decode (fid : UInt32) : Feature :=
  match fid.toNat with
  | 0x01 => .arbitration
  | 0x06 => .volatileWriteCache
  | 0x07 => .numberOfQueues
  | 0x08 => .interruptCoalescing
  | 0x09 => .interruptVectorConfiguration
  | _ => .other

/-- `dword11` with both numbers limited to what there is. -/
def limitQueues (cfg : ConfigData) (dword11 : UInt32) : UInt32 :=
  let dword11 := if cfg.maxIOSQueue ≤ (dword11 &&& 0xFFFF : UInt32) then
    (dword11 &&& 0xFFFF0000) ||| (cfg.maxIOSQueue - 1) else dword11
  if cfg.maxIOCQueue ≤ (dword11 >>> 16 : UInt32) then
    (dword11 &&& (0xFFFF : UInt32)) |||
      ((cfg.maxIOCQueue - 1) <<< (16 : UInt32)) else dword11

/-- `time * 100000000` is a product of `int`s, which wraps from 22 on. -/
def aggregationTicks (time : UInt8) : UInt64 :=
  (time.toUInt32 * 100000000).toInt32.toInt64.toUInt64

def setCoalescingParameter (subsystem : Subsystem) (time thres : UInt8) :
    Subsystem :=
  { subsystem with
    aggregationTime := aggregationTicks time
    aggregationThreshold := thres }

-- What a proof by `rfl` needs: with the product in it, the kernel would
-- multiply in unary.
theorem setCoalescingParameter_eq (subsystem : Subsystem)
    (time thres : UInt8) :
    ∃ ticks, subsystem.setCoalescingParameter time thres =
      { subsystem with
        aggregationTime := ticks
        aggregationThreshold := thres } :=
  ⟨aggregationTicks time, rfl⟩

def setFeatures (cfg : ConfigData) (subsystem : Subsystem) (req : Command)
    (func : Nat) : Bool × Subsystem :=
  let resp := Response.make req func
  if hasBits req.dword10 0x80000000 then
    (true, subsystem.reply (resp.makeStatus false false
      .commandSpecificStatus .featureIDNotSaveable))
  else
    match Feature.decode (req.dword10 &&& 0x00FF) with
    | .numberOfQueues =>
        if (req.dword11 &&& 0xFFFF : UInt32) = 0xFFFF ∨
            (req.dword11 &&& 0xFFFF0000 : UInt32) = 0xFFFF0000 then
          (true, subsystem.reply (resp.makeStatus false false
            .genericCommandStatus .invalidField))
        else
          let allocated := limitQueues cfg req.dword11
          (true, { subsystem with queueAllocated := allocated }.reply
            { resp with dword0 := allocated })
    | .interruptCoalescing =>
        (true, (subsystem.setCoalescingParameter
          ((req.dword11 >>> 8) &&& 0xFF).toUInt8
          (req.dword11 &&& 0xFF).toUInt8).reply resp)
    | .interruptVectorConfiguration =>
        (true, { subsystem with
          controller := subsystem.controller.setCoalescing
            (req.dword11 &&& 0xFFFF).toNat
            (hasBits req.dword11 0x10000) }.reply resp)
    | .arbitration | .volatileWriteCache | .other =>
        (true, subsystem.reply (resp.makeStatus true false
          .genericCommandStatus .invalidField))

/-- `dword0` of the response, where the feature is known. -/
def featureValue (cfg : ConfigData) (subsystem : Subsystem) (req : Command) :
    Option UInt32 :=
  match Feature.decode (req.dword10 &&& 0x00FF) with
  | .arbitration => some
      (((cfg.wrrHigh * cfg.wrrMedium - 1).toUInt8.toUInt32 <<< 24) |||
        ((cfg.wrrMedium - 1) <<< 16).toUInt32 ||| 0x03)
  | .volatileWriteCache => some (if cfg.useWriteCache then 1 else 0)
  | .numberOfQueues => some subsystem.queueAllocated
  | .interruptCoalescing => some
      (((subsystem.aggregationTime / 100000000).toUInt8.toUInt32 <<< 8) |||
        subsystem.aggregationThreshold.toUInt32)
  | .interruptVectorConfiguration => some
      ((req.dword11 &&& 0xFFFF) |||
        (if subsystem.controller.getCoalescing (req.dword11 &&& 0xFFFF).toNat
          then 0x10000 else 0))
  | .other => none

def getFeatures (cfg : ConfigData) (subsystem : Subsystem) (req : Command)
    (func : Nat) : Bool × Subsystem :=
  let resp := Response.make req func
  match featureValue cfg subsystem req with
  | some value => (true, subsystem.reply { resp with dword0 := value })
  | none => (true, subsystem.reply (resp.makeStatus true false
      .genericCommandStatus .invalidField))

def selectOf (req : Command) : UInt32 := req.dword10 &&& 0x0F

/-- The first id from `nsid` on that the sorted namespaces leave out. -/
def freeNSID : List Namespace → UInt32 → UInt32
  | [], nsid => nsid
  | ns :: rest, nsid => if ns.nsid = nsid then freeNSID rest (nsid + 1)
      else nsid

/-- The refusal of a wrong field sets `err`, which also stands for a response
that is sent later: it is not answered. -/
def namespaceManagement (cfg : ConfigData) (subsystem : Subsystem)
    (req : Command) (func : Nat) : Except Fault (Bool × Subsystem) := do
  let resp := Response.make req func
  if (selectOf req = 0x00 ∧ req.namespaceID ≠ nsidNone) ∨
      0x01 < selectOf req then
    return (true, subsystem)
  if selectOf req = 0x00 then
    let nsid := freeNSID subsystem.lNamespaces nsidLowest
    if nsid = nsidAll then
      return (true, subsystem.reply (resp.makeStatus false false
        .commandSpecificStatus .namespaceIDUnavailable))
    return (true, ← subsystem.setUp cfg req 0x1000 (.managementRead nsid resp))
  match destroyNamespace cfg subsystem req.namespaceID with
  | (true, destroyed) => return (true, destroyed.reply resp)
  | (false, same) => return (true, same.reply (resp.makeStatus false false
      .genericCommandStatus .abortInvalidNamespace))

def namespaceAttachment (cfg : ConfigData) (subsystem : Subsystem)
    (req : Command) (func : Nat) : Except Fault (Bool × Subsystem) := do
  return (true, ← subsystem.setUp cfg req 0x1000 (.attachmentRead
    (selectOf req) req.namespaceID (Response.make req func)))

/-- Whether `formatNVM` refuses the fields of `dword10`. -/
def refusesFormat (req : Command) : Bool :=
  let ses := (req.dword10 &&& 0x0E00) >>> 9
  decide (ses ≠ 0x00 ∧ ses ≠ 0x01) || hasBits req.dword10 0x0100 ||
    hasBits req.dword10 0x10 || hasBits req.dword10 0xE0 ||
    decide (lbaSizes.length ≤ (req.dword10 &&& 0x0F).toNat)

def formatted (cfg : ConfigData) (subsystem : Subsystem) (req : Command)
    (ns : Namespace) : Namespace :=
  let lbaf := (req.dword10 &&& 0x0F).toUInt8
  let size := lbaSizes.getD lbaf.toNat 0
  let blocks := UInt64.ofNat cfg.totalLogicalPages *
    cfg.logicalPageSize.toUInt64 / size.toUInt64
  { ns with
    info := { ns.info with lbaFormatIndex := lbaf, lbaSize := size
                           size := blocks, capacity := blocks }
    formatFinishedAt := subsystem.tick
    pDisk := false }

def formatNVM (cfg : ConfigData) (subsystem : Subsystem) (req : Command)
    (func : Nat) : Bool × Subsystem :=
  let resp := Response.make req func
  if refusesFormat req then
    (true, subsystem.reply (resp.makeStatus false false
      .genericCommandStatus .invalidFormat))
  else
    match subsystem.lNamespaces.find? (·.nsid = req.namespaceID) with
    | some ns =>
        let range := ns.info.range
        (true, { subsystem with
          lNamespaces := subsystem.lNamespaces.map fun other : Namespace =>
            if other.address = ns.address then
              formatted cfg subsystem req other else other }.schedule
          (.request (.format (((req.dword10 &&& 0x0E00) >>> 9 : UInt32) = 0x01))
            { slpn := UInt64.ofNat range.slpn, nlp := UInt64.ofNat range.nlp
              offset := 0, length := 0 } (.doFormat resp)))
    | none => (true, subsystem.reply (resp.makeStatus false false
        .genericCommandStatus .abortInvalidNamespace))

inductive AdminOpcode where
  | deleteIOSQueue
  | createIOSQueue
  | getLogPage
  | deleteIOCQueue
  | createIOCQueue
  | identify
  | abort
  | setFeatures
  | getFeatures
  | asyncEventReq
  | namespaceManagement
  | namespaceAttachment
  | formatNVM
  | other
  deriving DecidableEq, Repr

def AdminOpcode.decode (opcode : UInt8) : AdminOpcode :=
  match opcode.toNat with
  | 0x00 => .deleteIOSQueue
  | 0x01 => .createIOSQueue
  | 0x02 => .getLogPage
  | 0x04 => .deleteIOCQueue
  | 0x05 => .createIOCQueue
  | 0x06 => .identify
  | 0x08 => .abort
  | 0x09 => .setFeatures
  | 0x0A => .getFeatures
  | 0x0C => .asyncEventReq
  | 0x0D => .namespaceManagement
  | 0x15 => .namespaceAttachment
  | 0x80 => .formatNVM
  | _ => .other

/-- The first `switch` of `submitCommand`. -/
def adminCommand (cfg : ConfigData) (subsystem : Subsystem) (req : Command)
    (func : Nat) : Except Fault (Bool × Subsystem) :=
  match AdminOpcode.decode req.opcode with
  | .deleteIOSQueue => deleteSQueue subsystem req func
  | .createIOSQueue => createSQueue cfg subsystem req func
  | .getLogPage => getLogPage cfg subsystem req func
  | .deleteIOCQueue => deleteCQueue subsystem req func
  | .createIOCQueue => createCQueue cfg subsystem req func
  | .identify => identify cfg subsystem req func
  | .abort => abort subsystem req func
  | .setFeatures => .ok (setFeatures cfg subsystem req func)
  | .getFeatures => .ok (getFeatures cfg subsystem req func)
  | .namespaceManagement => namespaceManagement cfg subsystem req func
  | .namespaceAttachment => namespaceAttachment cfg subsystem req func
  | .formatNVM => .ok (formatNVM cfg subsystem req func)
  | .asyncEventReq | .other => .ok (false, subsystem)

/-- The rest of `submitCommand`, for what is not processed. -/
def toNamespace (subsystem : Subsystem) (req : Command) (func : Nat) :
    Subsystem :=
  let refused := subsystem.reply ((Response.make req func).makeStatus false
    false .genericCommandStatus .abortInvalidNamespace)
  if req.namespaceID < nsidAll then
    match subsystem.lNamespaces.find? (·.nsid = req.namespaceID) with
    | some ns => subsystem.schedule (.doSubmit ns.address req func)
    | none => refused
  else if subsystem.lNamespaces.isEmpty then refused
  else subsystem.schedule (.submitFront req func)

def submitCommand (cfg : ConfigData) (subsystem : Subsystem)
    (req : Command) : Except Fault Subsystem := do
  let func := subsystem.submitted
  let counted := { subsystem with submitted := subsystem.submitted + 1 }
  let (processed, handled) ←
    if req.sqID = 0 then adminCommand cfg counted req func
    else .ok (false, counted)
  if processed then return handled
  return toNamespace handled req func

/-! The callbacks of the subsystem. -/

def informationOf (arrival : Arrival) : Information where
  size := UInt64.ofNat ((List.range 8).foldr
    (fun k value => value * 256 + (arrival.buffer k).toNat) 0)
  capacity := UInt64.ofNat ((List.range 8).foldr
    (fun k value => value * 256 + (arrival.buffer (8 + k)).toNat) 0)
  lbaFormatIndex := arrival.buffer 26
  lbaSize := 0
  range := ⟨0, 0⟩

/-- `dmaDone` of a namespace management command: the checks set a status and
the namespace is created all the same. -/
def managementDone (cfg : ConfigData) (nsid : UInt32) (resp : Response)
    (arrival : Arrival) (subsystem : Subsystem) : Except Fault Subsystem := do
  let info := informationOf arrival
  let resp :=
    if lbaSizes.length ≤ info.lbaFormatIndex.toNat then
      resp.makeStatus false false .genericCommandStatus .abortInvalidNamespace
    else if arrival.buffer 30 ≠ 0 ∨ arrival.buffer 29 ≠ 0 then
      resp.makeStatus false false .genericCommandStatus .invalidField
    else resp
  let size ← lbaSize info.lbaFormatIndex
  let (ret, created) ←
    createNamespace cfg subsystem nsid { info with lbaSize := size }
  if ret then return created.reply { resp with dword0 := nsid }
  return created.reply (resp.makeStatus false false .commandSpecificStatus
    .namespaceInsufficientCapacity)

def controllerAt (arrival : Arrival) (index : Nat) : Nat :=
  (arrival.buffer (2 * index)).toNat + 256 *
    (arrival.buffer (2 * index + 1)).toNat

/-- The response of `namespaceAttachment` and the namespaces it leaves; the
loops go on after the first namespace with the id. -/
def attach (subsystem : Subsystem) (sel nsid : UInt32) (resp : Response) :
    Response × List Namespace :=
  if sel = 0x00 then
    let resp := if subsystem.lNamespaces.any fun ns =>
        ns.nsid = nsid && ns.attached then
      resp.makeStatus true false .commandSpecificStatus
        .namespaceAlreadyAttached else resp
    (if subsystem.lNamespaces.any (·.nsid = nsid) then resp
      else resp.makeStatus true false .genericCommandStatus
        .abortInvalidNamespace,
      subsystem.lNamespaces.map fun ns =>
        if ns.nsid = nsid then { ns with attached := true } else ns)
  else if sel = 0x01 then
    (if subsystem.lNamespaces.any fun ns =>
        ns.nsid = nsid && !ns.attached then
      resp.makeStatus true false .commandSpecificStatus .namespaceNotAttached
      else resp,
      subsystem.lNamespaces.map fun ns =>
        if ns.nsid = nsid then { ns with attached := false } else ns)
  else (resp.makeStatus false false .genericCommandStatus .invalidField,
    subsystem.lNamespaces)

/-- `dmaDone` of a namespace attachment command; the buffer holds 2048 numbers,
the first of which is their count. -/
def attachmentDone (sel nsid : UInt32) (resp : Response) (arrival : Arrival)
    (subsystem : Subsystem) : Except Fault Subsystem :=
  let count := controllerAt arrival 0
  if 2048 ≤ count then .error .outOfBuffer
  else if 1 < count ∧ sel = 0x00 then
    .ok (subsystem.reply (resp.makeStatus false false .commandSpecificStatus
      .namespaceIsPrivate))
  else if count = 0 ∨ controllerAt arrival 1 ≠ 0 then
    .ok (subsystem.reply (resp.makeStatus false false .commandSpecificStatus
      .controllerListInvalid))
  else
    let (resp, namespaces) := attach subsystem sel nsid resp
    .ok ({ subsystem with lNamespaces := namespaces }.reply resp)

def run (cfg : ConfigData) (arrival : Arrival) (subsystem : Subsystem) :
    Callback → Except Fault Subsystem
  | .cpuHandler (.doQueue queue resp) =>
      if resp.func ∈ subsystem.freedLists then .error .useAfterFree
      else .ok (subsystem.schedule (.doQueue queue resp))
  | .cpuHandler next => .ok (subsystem.schedule next)
  | .request _ _ next => .ok (subsystem.schedule next)
  | .doQueue _ resp | .logDone resp | .identifyDone resp | .doFormat resp =>
      .ok (subsystem.reply resp)
  | .smartInfo _ resp => .ok (subsystem.schedule (.logDone resp))
  | .identifyWrite _ resp => .ok (subsystem.schedule (.identifyDone resp))
  | .managementRead nsid resp =>
      .ok (subsystem.schedule (.managementDone nsid resp))
  | .managementDone nsid resp =>
      managementDone cfg nsid resp arrival subsystem
  | .attachmentRead sel nsid resp =>
      .ok (subsystem.schedule (.attachmentDone sel nsid resp))
  | .attachmentDone sel nsid resp =>
      attachmentDone sel nsid resp arrival subsystem
  | .doSubmit ns req func => do
      let this ← subsystem.namespaceAt ns
      this.submitCommand cfg req func subsystem
  | .submitFront req func =>
      match subsystem.lNamespaces with
      | [] => .error .noNamespace
      | this :: _ => this.submitCommand cfg req func subsystem
  | .flushBegin ns resp => do
      let _ ← subsystem.namespaceAt ns
      return subsystem.flushRequest (.doFlush ns resp)
  | .doFlush ns resp => do
      let _ ← subsystem.namespaceAt ns
      return subsystem.reply resp
  | .transfer kind ns context _ => do
      let this ← subsystem.namespaceAt ns
      let found ← subsystem.contextAt context
      return this.beginTransfer cfg kind context found subsystem
  | .transferDone kind ns context _ =>
      Namespace.transferDone kind ns context arrival subsystem
  | .doTrim ns ranges resp =>
      .ok (subsystem.schedule (.trimRead ns ranges resp))
  | .trimRead ns ranges resp => do
      let this ← subsystem.namespaceAt ns
      this.beginTrims cfg ranges resp arrival subsystem
  | .eachTrimDone ns context _ =>
      Namespace.eachTrimDone ns context subsystem

end Subsystem

/-! Runs: commands are submitted and the functions that are due are called, in
any order; in between, time passes and the controller does its other work. -/

inductive Step where
  | submit (req : Command)
  | call (index : Nat) (arrival : Arrival)
  | elapse (ticks : Nat)
  | work (update : Controller → Controller)

def Step.perform (cfg : ConfigData) (subsystem : Subsystem) :
    Step → Except Fault Subsystem
  | .submit req => subsystem.submitCommand cfg req
  | .call index arrival =>
      match subsystem.pending[index]? with
      | some callback =>
          { subsystem with
            pending := subsystem.pending.eraseIdx index }.run cfg arrival
              callback
      | none => .ok subsystem
  | .elapse ticks => .ok { subsystem with tick := subsystem.tick + ticks }
  | .work update => .ok
      { subsystem with controller := update subsystem.controller }

end SimpleSSD.HIL.NVMe
