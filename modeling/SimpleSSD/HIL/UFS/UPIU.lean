import SimpleSSD.Data.BigEndian
import SimpleSSD.Data.Store

namespace SimpleSSD.HIL.UFS

open Data

/-! The units that a host and a device exchange, as objects and as bytes. -/

abbrev Buffer := Store UInt8

inductive Fault where
  /-- A read or a write beyond what it points to. -/
  | overrun
  deriving DecidableEq, Repr

def be16 (number : UInt16) : List UInt8 := BigEndian.bytes 2 number.toNat

def be32 (number : UInt32) : List UInt8 := BigEndian.bytes 4 number.toNat

def be16toh (buffer : Buffer) (first : Nat) : UInt16 :=
  UInt16.ofNat (BigEndian.value (buffer.read first 2))

def be32toh (buffer : Buffer) (first : Nat) : UInt32 :=
  UInt32.ofNat (BigEndian.value (buffer.read first 4))

abbrev OPCODE_NOP_OUT : UInt8 := 0x00
abbrev OPCODE_COMMAND : UInt8 := 0x01
abbrev OPCODE_DATA_OUT : UInt8 := 0x02
abbrev OPCODE_QUERY_REQUEST : UInt8 := 0x16
abbrev OPCODE_NOP_IN : UInt8 := 0x20
abbrev OPCODE_RESPONSE : UInt8 := 0x21
abbrev OPCODE_DATA_IN : UInt8 := 0x22
abbrev OPCODE_READY_TO_TRANSFER : UInt8 := 0x31
abbrev OPCODE_QUERY_RESPONSE : UInt8 := 0x36

structure UPIUHeader where
  transactionType : UInt8
  flags : UInt8
  lun : UInt8
  taskTag : UInt8
  commandSetType : UInt8
  function : UInt8
  response : UInt8
  status : UInt8
  ehsLength : UInt8
  deviceInfo : UInt8
  dataSegmentLength : UInt16
  deriving DecidableEq, Repr

namespace UPIUHeader

def zero : UPIUHeader := ⟨0, 0, 0, 0, 0, 0, 0, 0, 0, 0, 0⟩

def parse (buffer : Buffer) : UPIUHeader where
  transactionType := buffer 0
  flags := buffer 1
  lun := buffer 2
  taskTag := buffer 3
  commandSetType := buffer 4
  function := buffer 5
  response := buffer 6
  status := buffer 7
  ehsLength := buffer 8
  deviceInfo := buffer 9
  dataSegmentLength := be16toh buffer 10

def coded (header : UPIUHeader) (code : UInt8) : UPIUHeader :=
  { header with transactionType := code }

def front (header : UPIUHeader) : List UInt8 :=
  [header.transactionType &&& 0x3F, header.flags, header.lun, header.taskTag,
    header.commandSetType, header.function, header.response, header.status,
    header.ehsLength, header.deviceInfo]

def bytes (header : UPIUHeader) : List UInt8 :=
  header.front ++ be16 header.dataSegmentLength

def set (header : UPIUHeader) (buffer : Buffer) (length : Nat) :
    UPIUHeader × Bool :=
  if length > 11 then (parse buffer, true) else (header, false)

def get (header : UPIUHeader) (buffer : Buffer) (length : Nat) :
    Buffer × Bool :=
  if length > 11 then (buffer.write 0 header.bytes, true) else (buffer, false)

def offset (header : UPIUHeader) : Nat :=
  if header.transactionType &&& 0x80 ≠ 0 then 4 else 0

end UPIUHeader

structure Query where
  opcode : UInt8
  idn : UInt8
  index : UInt8
  selector : UInt8
  length : UInt16
  val1 : UInt32
  val2 : UInt32
  data : Option (List UInt8)
  deriving DecidableEq, Repr

def Query.parse (buffer : Buffer) (data : Option (List UInt8)) : Query where
  opcode := buffer 12
  idn := buffer 13
  index := buffer 14
  selector := buffer 15
  length := be16toh buffer 18
  val1 := be32toh buffer 20
  val2 := be32toh buffer 24
  data := data

/-- The fields of `UPIUDataOut` and of `UPIUDataIn`. -/
structure Transfer where
  offset : UInt32
  count : UInt32
  data : Option (List UInt8)
  deriving DecidableEq, Repr

def Transfer.parse (buffer : Buffer) (data : Option (List UInt8)) :
    Transfer where
  offset := be32toh buffer 12
  count := be32toh buffer 16
  data := data

inductive Fields where
  | plain
  | command (expectedDataLength : UInt32) (cdb : Vector UInt8 16)
  | response (residualCount : UInt32) (senseLength : UInt16)
      (senseData : Vector UInt8 18)
  | queryReq (query : Query)
  | queryResp (query : Query)
  | dataOut (transfer : Transfer)
  | dataIn (transfer : Transfer)
  | readyToTransfer (offset count : UInt32)
  deriving DecidableEq, Repr

structure UPIU where
  header : UPIUHeader
  fields : Fields
  deriving DecidableEq, Repr

/-! The data segment. -/

def setData (header : UPIUHeader) (data : Option (List UInt8))
    (buffer : Buffer) (length : Nat) : Option (List UInt8) × Bool :=
  if header.dataSegmentLength > 0 then
    if length > 31 + header.offset + header.dataSegmentLength.toNat then
      (some (buffer.read (32 + header.offset)
        header.dataSegmentLength.toNat), true)
    else
      (data, false)
  else
    (data, true)

def getData (header : UPIUHeader) (data : Option (List UInt8))
    (buffer : Buffer) (length : Nat) : Except Fault (Buffer × Bool) :=
  if header.dataSegmentLength > 0 then
    if length > 31 + header.dataSegmentLength.toNat then
      match data with
      | none => throw .overrun
      | some values =>
          if header.dataSegmentLength.toNat ≤ values.length then
            pure (buffer.write 32
              (values.take header.dataSegmentLength.toNat), true)
          else
            throw .overrun
    else
      pure (buffer, false)
  else
    pure (buffer, true)

/-- `memcpy` into the sense data. -/
def copySense (senseLength : UInt16) (senseData : Vector UInt8 18)
    (buffer : Buffer) (first length : Nat) :
    Except Fault (Vector UInt8 18) :=
  if senseLength.toNat ≤ 18 ∧ first + senseLength.toNat ≤ length then
    pure (Vector.ofFn fun index =>
      if index < senseLength.toNat then buffer (first + index)
      else senseData[index])
  else
    throw .overrun

def setSense (header : UPIUHeader) (senseLength : UInt16)
    (senseData : Vector UInt8 18) (buffer : Buffer) (length : Nat) :
    Except Fault (UInt16 × Vector UInt8 18 × Bool) :=
  if header.dataSegmentLength > 0 then
    if length > 31 + header.offset + header.dataSegmentLength.toNat then
      -- The bytes of the length are inside, both of them, only from here on.
      if 34 + header.offset ≤ length then do
        let senseLength := be16toh buffer (32 + header.offset)
        let senseData ← copySense senseLength senseData buffer
          (34 + header.offset) length
        pure (senseLength, senseData, true)
      else
        throw .overrun
    else
      pure (senseLength, senseData, false)
  else
    pure (senseLength, senseData, true)

namespace UPIU

def accepts (code : UInt8) (buffer : Buffer) (length : Nat) : Bool :=
  buffer 0 &&& 0x3F = code ∧ length > 31

def setCommand (upiu : UPIU) (buffer : Buffer) (length : Nat) : UPIU × Bool :=
  if accepts OPCODE_COMMAND buffer length then
    let (header, ret) := upiu.header.set buffer length
    (⟨header, .command (be32toh buffer 12)
      (Vector.ofFn fun index => buffer (16 + index))⟩, ret)
  else
    (upiu, false)

def setResponse (upiu : UPIU) (senseLength : UInt16)
    (senseData : Vector UInt8 18) (buffer : Buffer) (length : Nat) :
    Except Fault (UPIU × Bool) :=
  if accepts OPCODE_RESPONSE buffer length then do
    let (header, ret) := upiu.header.set buffer length
    let (senseLength, senseData, whole) ← setSense header senseLength
      senseData buffer length
    pure (⟨header, .response (be32toh buffer 12) senseLength senseData⟩,
      ret && whole)
  else
    pure (upiu, false)

/-- `UPIUQueryReq::set` and `UPIUQueryResp::set`. -/
def setQuery (code : UInt8) (wrap : Query → Fields) (upiu : UPIU)
    (query : Query) (buffer : Buffer) (length : Nat) : UPIU × Bool :=
  if accepts code buffer length then
    let (header, ret) := upiu.header.set buffer length
    let (data, whole) := setData header query.data buffer length
    (⟨header, wrap (.parse buffer data)⟩, ret && whole)
  else
    (upiu, false)

def setQueryReq := setQuery OPCODE_QUERY_REQUEST .queryReq

def setQueryResp := setQuery OPCODE_QUERY_RESPONSE .queryResp

/-- `UPIUDataOut::set` and `UPIUDataIn::set`. -/
def setTransfer (code : UInt8) (wrap : Transfer → Fields) (upiu : UPIU)
    (transfer : Transfer) (buffer : Buffer) (length : Nat) : UPIU × Bool :=
  if accepts code buffer length then
    let (header, ret) := upiu.header.set buffer length
    let (data, whole) := setData header transfer.data buffer length
    (⟨header, wrap (.parse buffer data)⟩, ret && whole)
  else
    (upiu, false)

def setDataOut := setTransfer OPCODE_DATA_OUT .dataOut

def setDataIn := setTransfer OPCODE_DATA_IN .dataIn

/-- `UPIUReadyToTransfer::set`; it looks for the code of a data in unit. -/
def setReadyToTransfer (upiu : UPIU) (buffer : Buffer) (length : Nat) :
    UPIU × Bool :=
  if accepts OPCODE_DATA_IN buffer length then
    let (header, ret) := upiu.header.set buffer length
    (⟨header, .readyToTransfer (be32toh buffer 12) (be32toh buffer 16)⟩, ret)
  else
    (upiu, false)

def set (upiu : UPIU) (buffer : Buffer) (length : Nat) :
    Except Fault (UPIU × Bool) :=
  match upiu.fields with
  | .plain =>
      let (header, ret) := upiu.header.set buffer length
      pure (⟨header, .plain⟩, ret)
  | .command _ _ => pure (upiu.setCommand buffer length)
  | .response _ senseLength senseData =>
      upiu.setResponse senseLength senseData buffer length
  | .queryReq query => pure (upiu.setQueryReq query buffer length)
  | .queryResp query => pure (upiu.setQueryResp query buffer length)
  | .dataOut transfer => pure (upiu.setDataOut transfer buffer length)
  | .dataIn transfer => pure (upiu.setDataIn transfer buffer length)
  | .readyToTransfer _ _ => pure (upiu.setReadyToTransfer buffer length)

/-- What the `get` of the classes have in common: `body` goes behind the
header, and then the data segment. -/
def getWith (code : UInt8) (upiu : UPIU) (body : Buffer → Buffer)
    (data : UPIUHeader → Buffer → Except Fault (Buffer × Bool))
    (buffer : Buffer) (length : Nat) : Except Fault (UPIU × Buffer × Bool) :=
  if length > 31 then do
    let header := upiu.header.coded code
    let (buffer, ret) := header.get buffer length
    let (buffer, whole) ← data header (body buffer)
    pure ({ upiu with header := header }, buffer, ret && whole)
  else
    pure (upiu, buffer, false)

def getSense (senseLength : UInt16) (senseData : Vector UInt8 18)
    (length : Nat) (header : UPIUHeader) (buffer : Buffer) :
    Except Fault (Buffer × Bool) :=
  if header.dataSegmentLength > 0 then
    if length > 31 + header.dataSegmentLength.toNat then
      if senseLength.toNat ≤ 18 ∧ 34 + senseLength.toNat ≤ length then
        pure ((buffer.write 32 (be16 senseLength)).write 34
          (senseData.toList.take senseLength.toNat), true)
      else
        throw .overrun
    else
      pure (buffer, false)
  else
    pure (buffer, true)

def zeros (count : Nat) : List UInt8 := List.replicate count 0

def queryBody (query : Query) (buffer : Buffer) : Buffer :=
  ((((buffer.write 12 [query.opcode, query.idn, query.index,
    query.selector]).write 18 (be16 query.length)).write 20
    (be32 query.val1)).write 24 (be32 query.val2)).write 28 (zeros 4)

def transferBody (offset count : UInt32) (buffer : Buffer) : Buffer :=
  ((buffer.write 12 (be32 offset)).write 16 (be32 count)).write 20 (zeros 12)

def getQuery (code : UInt8) (upiu : UPIU) (query : Query) (buffer : Buffer)
    (length : Nat) : Except Fault (UPIU × Buffer × Bool) :=
  getWith code upiu (queryBody query)
    (fun header buffer => getData header query.data buffer length) buffer length

def getTransfer (code : UInt8) (upiu : UPIU) (transfer : Transfer)
    (buffer : Buffer) (length : Nat) : Except Fault (UPIU × Buffer × Bool) :=
  getWith code upiu (transferBody transfer.offset transfer.count)
    (fun header buffer => getData header transfer.data buffer length) buffer
    length

def get (upiu : UPIU) (buffer : Buffer) (length : Nat) :
    Except Fault (UPIU × Buffer × Bool) :=
  match upiu.fields with
  | .plain =>
      let (buffer, ret) := upiu.header.get buffer length
      pure (upiu, buffer, ret)
  | .command expectedDataLength cdb =>
      getWith OPCODE_COMMAND upiu
        (fun buffer => (buffer.write 12 (be32 expectedDataLength)).write 16
          cdb.toList)
        (fun _ buffer => pure (buffer, true)) buffer length
  | .response residualCount senseLength senseData =>
      getWith OPCODE_RESPONSE upiu
        (fun buffer => (buffer.write 12 (be32 residualCount)).write 16
          (zeros 16))
        (getSense senseLength senseData length) buffer length
  | .queryReq query => getQuery OPCODE_QUERY_REQUEST upiu query buffer length
  | .queryResp query => getQuery OPCODE_QUERY_RESPONSE upiu query buffer length
  | .dataOut transfer =>
      getTransfer OPCODE_DATA_OUT upiu transfer buffer length
  | .dataIn transfer => getTransfer OPCODE_DATA_IN upiu transfer buffer length
  | .readyToTransfer offset count =>
      getWith OPCODE_READY_TO_TRANSFER upiu (transferBody offset count)
        (fun _ buffer => pure (buffer, true)) buffer length

end UPIU

/-- `Host::getUPIU`. A new query unit has what was in its `memory`. -/
def getUPIU (memory : Query) (code : UInt8) : UPIU :=
  let query := { memory with data := none }
  if code = OPCODE_COMMAND then
    ⟨.zero, .command 0 (.replicate 16 0)⟩
  else if code = OPCODE_DATA_OUT then
    ⟨.zero, .dataOut ⟨0, 0, none⟩⟩
  else if code = OPCODE_QUERY_REQUEST then
    ⟨.zero, .queryReq query⟩
  else if code = OPCODE_RESPONSE then
    ⟨.zero, .response 0 0 (.replicate 18 0)⟩
  else if code = OPCODE_DATA_IN then
    ⟨.zero, .dataIn ⟨0, 0, none⟩⟩
  else if code = OPCODE_READY_TO_TRANSFER then
    ⟨.zero, .readyToTransfer 0 0⟩
  else if code = OPCODE_QUERY_RESPONSE then
    ⟨.zero, .queryResp query⟩
  else
    ⟨{ UPIUHeader.zero with transactionType := code }, .plain⟩

/-- How a unit is read: its class is that of its first byte. -/
def receive (memory : Query) (buffer : Buffer) (length : Nat) :
    Except Fault (UPIU × Bool) :=
  (getUPIU memory (buffer 0 &&& 0x3F)).set buffer length

end SimpleSSD.HIL.UFS
