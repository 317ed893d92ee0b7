import SimpleSSD.HIL.UFS.UPIU

namespace SimpleSSD.HIL.UFS

/-! The descriptors of a device, and the queries for them. -/

abbrev IDN_DEVICE_LENGTH : Nat := 0x1F
abbrev IDN_POWER_LENGTH : Nat := 0x62
abbrev IDN_STRING_LENGTH : Nat := 0xFE
abbrev IDN_UNIT_LENGTH : Nat := 0x23

abbrev OPCODE_READ_DESCRIPTOR : UInt8 := 1

abbrev IDN_DEVICE : UInt8 := 0
abbrev IDN_UNIT : UInt8 := 2
abbrev IDN_STRING : UInt8 := 5
abbrev IDN_POWER : UInt8 := 8

abbrev CMD_SCSI : UInt8 := 0
abbrev CMD_NATIVE_UFS_COMMAND : UInt8 := 1
abbrev CMD_DEVICE_MGMT_FUNCTION : UInt8 := 2

abbrev CMD_VERIFY_10 : UInt8 := 0x2F

abbrev WLUN_REPORT_LUNS : UInt8 := 0x01
abbrev WLUN_UFS_DEVICE : UInt8 := 0x50
abbrev WLUN_BOOT : UInt8 := 0x30
abbrev WLUN_RPMB : UInt8 := 0x44

def deviceDescriptor : Vector UInt8 IDN_DEVICE_LENGTH :=
  #v[0x1F, IDN_DEVICE, 0x00, 0x00, 0x00, 0x00, 0x01, 0x04, 0x01, 0x00, 0x01,
    0x7F, 0x00, 0x00, 0x00, 0x00, 0x10, 0x02, 0x00, 0x00, 0x00, 0x01, 0x02,
    0x03, 0x00, 0x00, 0x10, 0x10, 0x02, 0x00, 0x00]

def powerDescriptor : Vector UInt8 IDN_POWER_LENGTH :=
  Vector.ofFn fun index =>
    if index = 0 then 0x62
    else if index = 1 then IDN_POWER
    else if index % 2 = 0 then 0x00
    else 0x01

structure UnitSize where
  lbaSize : UInt8
  totalLogicalLBA : Vector UInt8 8
  blockLBA : Vector UInt8 4
  totalPhysicalLBA : Vector UInt8 8
  deriving DecidableEq, Repr

def UnitSize.zero : UnitSize where
  lbaSize := 0
  totalLogicalLBA := .replicate 8 0
  blockLBA := .replicate 4 0
  totalPhysicalLBA := .replicate 8 0

def unitDescriptor (bWellknown : Bool) (id : UInt8) (size : UnitSize) :
    Vector UInt8 IDN_UNIT_LENGTH :=
  #v[0x23, IDN_UNIT, (if bWellknown then 0x80 else 0x00) ||| id, 0x01, 0x01,
    0x00, 0x00, 0x00, 0x00, 0x00, size.lbaSize] ++ size.totalLogicalLBA ++
  size.blockLBA ++ #v[(0x00 : UInt8)] ++ size.totalPhysicalLBA ++
  #v[(0x00 : UInt8), 0x00, 0x00]

structure Strings where
  manufacturer : Vector UInt8 (IDN_STRING_LENGTH - 2)
  productName : Vector UInt8 (IDN_STRING_LENGTH - 2)
  serialNumber : Vector UInt8 (IDN_STRING_LENGTH - 2)
  oemID : Vector UInt8 (IDN_STRING_LENGTH - 2)
  productRevision : Vector UInt8 (IDN_STRING_LENGTH - 2)
  deriving DecidableEq, Repr

/-- `sprintf` into a string; the `memory` behind the end stays. -/
def printed (text : List UInt8) (memory : Vector UInt8 (IDN_STRING_LENGTH - 2)) :
    Vector UInt8 (IDN_STRING_LENGTH - 2) :=
  Vector.ofFn fun index => (text ++ [0]).getD index memory[index]

def ascii (text : String) : List UInt8 :=
  text.toList.map fun letter => UInt8.ofNat letter.toNat

def Strings.make (memory : Strings) : Strings where
  manufacturer := printed (ascii "CAMELab") memory.manufacturer
  productName := printed (ascii "SimpleSSD UFS Device") memory.productName
  serialNumber := printed (ascii "000000000000") memory.serialNumber
  oemID := printed (ascii "None") memory.oemID
  productRevision := printed (ascii "v02.01") memory.productRevision

/-- `Device`, of which the rest is the way of the data. -/
structure Device where
  totalLogicalPages : UInt64
  logicalPageSize : UInt32
  /-- The size of the one unit that is not well known. -/
  size : UnitSize
  strings : Strings
  deriving DecidableEq, Repr

namespace Device

def lunDescriptor (device : Device) (lun : UInt8) :
    Option (Vector UInt8 IDN_UNIT_LENGTH) :=
  if lun = 0x80 ||| WLUN_REPORT_LUNS then
    some (unitDescriptor true WLUN_REPORT_LUNS .zero)
  else if lun = 0x80 ||| WLUN_UFS_DEVICE then
    some (unitDescriptor true WLUN_UFS_DEVICE .zero)
  else if lun = 0x80 ||| WLUN_BOOT then
    some (unitDescriptor true WLUN_BOOT .zero)
  else if lun = 0x80 ||| WLUN_RPMB then
    some (unitDescriptor true WLUN_RPMB .zero)
  else if lun = 0x00 then
    some (unitDescriptor false 0x00 device.size)
  else
    none

def stringAt (device : Device) (index : UInt8) :
    Option (Vector UInt8 (IDN_STRING_LENGTH - 2)) :=
  if index = 0 then some device.strings.manufacturer
  else if index = 1 then some device.strings.productName
  else if index = 2 then some device.strings.serialNumber
  else if index = 3 then some device.strings.oemID
  else if index = 4 then some device.strings.productRevision
  else none

/-- The part of a response that every descriptor has; `data` is for the
length that is asked for, or that of the descriptor. -/
def describe (req : Query) (resp : UPIU) (answer : Query) (count : Nat)
    (data : Nat → Except Fault (List UInt8)) : Except Fault UPIU := do
  let data ← data (min req.length.toNat count)
  pure ⟨{ resp.header with dataSegmentLength := req.length },
    .queryResp { answer with length := UInt16.ofNat count, data := some data }⟩

/-- `memcpy` of a descriptor, or of none. -/
def copied (row : Option (List UInt8)) (count : Nat) :
    Except Fault (List UInt8) :=
  match row with
  | some row => if count ≤ row.length then pure (row.take count)
      else throw .overrun
  | none => pure (List.replicate count 0)

/-- The two bytes in front of a string are written in any case. -/
def copiedString (row : Option (List UInt8)) (count : Nat) :
    Except Fault (List UInt8) :=
  if count < 2 then
    throw .overrun
  else do
    let rest ← copied row (count - 2)
    pure ([0xFE, IDN_STRING] ++ rest)

def processQueryCommand (device : Device) (lun : UInt8) (req : Query)
    (resp : UPIU) (answer : Query) : Except Fault UPIU :=
  let answer := { answer with
    opcode := req.opcode
    idn := req.idn
    index := req.index
    selector := req.selector
    length := req.length }
  if req.opcode = OPCODE_READ_DESCRIPTOR then
    if req.idn = IDN_DEVICE then
      describe req resp answer IDN_DEVICE_LENGTH
        (copied (some deviceDescriptor.toList))
    else if req.idn = IDN_UNIT then
      describe req resp answer IDN_UNIT_LENGTH
        (copied ((device.lunDescriptor lun).map Vector.toList))
    else if req.idn = IDN_POWER then
      describe req resp answer IDN_POWER_LENGTH
        (copied (some powerDescriptor.toList))
    else if req.idn = IDN_STRING then
      describe req resp answer IDN_STRING_LENGTH
        (copiedString ((device.stringAt req.index).map Vector.toList))
    else
      pure ⟨resp.header, .queryResp answer⟩
  else
    pure ⟨resp.header, .queryResp answer⟩

def illegalRequest : Vector UInt8 18 :=
  #v[0x70, 0, 0x05, 0, 0, 0, 0, 0x0A, 0, 0, 0, 0, 0, 0, 0, 0, 0, 0]

def processCommand (device : Device) (cmd : UInt8) (req : UPIUHeader)
    (cdb : Vector UInt8 16) (resp : UPIUHeader) (residualCount : UInt32)
    (senseLength : UInt16) (senseData : Vector UInt8 18) : UPIU :=
  let resp := { resp with lun := req.lun }
  let slba := be32toh (fun index => cdb.toList.getD index 0) 2
  let nlb := be16toh (fun index => cdb.toList.getD index 0) 7
  if cmd = CMD_SCSI ∧ cdb[0] = CMD_VERIFY_10 ∧
      (slba + nlb.toUInt32).toUInt64 >
        device.totalLogicalPages * device.logicalPageSize.toUInt64 then
    ⟨{ resp with status := 0x0, dataSegmentLength := 20 },
      .response residualCount 18 (Vector.ofFn fun index =>
        if index = 0 ∨ index = 2 ∨ index = 7 then illegalRequest.get index
        else senseData.get index)⟩
  else
    ⟨resp, .response residualCount senseLength senseData⟩

end Device

end SimpleSSD.HIL.UFS
