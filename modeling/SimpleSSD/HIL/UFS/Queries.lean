import SimpleSSD.HIL.UFS.Exchange
import SimpleSSD.HIL.UFS.Slots

namespace SimpleSSD.HIL.UFS

open Data

/-! What the driver reads of a descriptor. -/

section

variable {buffer other : Buffer} {length : Nat}

theorem accepts_behind {code : UInt8} (behind : Behind length buffer other)
    (positive : 0 < length) :
    UPIU.accepts code other length = UPIU.accepts code buffer length := by
  rw [UPIU.accepts, behind 0 positive, UPIU.accepts]

theorem setHeader_behind (behind : Behind length buffer other)
    (header : UPIUHeader) :
    header.set other length = header.set buffer length := by
  simp only [UPIUHeader.set]
  split
  · next long => rw [UPIUHeader.parse_behind (behind.mono long)]
  · rfl

theorem setData_behind (behind : Behind length buffer other)
    (header : UPIUHeader) (data : Option (List UInt8)) :
    setData header data other length = setData header data buffer length := by
  simp only [setData]
  split
  · split
    · next inside => rw [behind.read (by omega)]
    · rfl
  · rfl

theorem copySense_behind (behind : Behind length buffer other)
    (senseLength : UInt16) (senseData : Vector UInt8 18) (first : Nat) :
    copySense senseLength senseData other first length =
      copySense senseLength senseData buffer first length := by
  simp only [copySense]
  split
  · next inside =>
      apply congrArg pure
      apply congrArg Vector.ofFn
      funext index
      split
      · next within => rw [behind (first + index) (by omega)]
      · rfl
  · rfl

theorem setSense_behind (behind : Behind length buffer other)
    (header : UPIUHeader) (senseLength : UInt16)
    (senseData : Vector UInt8 18) :
    setSense header senseLength senseData other length =
      setSense header senseLength senseData buffer length := by
  simp only [setSense]
  split
  · split
    · split
      · next inside =>
          rw [behind.be16toh (by omega), copySense_behind behind]
      · rfl
    · rfl
  · rfl

theorem cdb_behind (behind : Behind 32 buffer other) :
    (Vector.ofFn fun index : Fin 16 => other (16 + index)) =
      Vector.ofFn fun index : Fin 16 => buffer (16 + index) := by
  apply congrArg Vector.ofFn
  funext index
  exact behind (16 + index) (by omega)

theorem accepts_long {code : UInt8}
    (accepted : UPIU.accepts code buffer length = true) : 31 < length := by
  simp only [UPIU.accepts, decide_eq_true_eq] at accepted
  exact accepted.2

theorem receive_behind (behind : Behind length buffer other)
    (positive : 0 < length) (memory : Query) :
    receive memory other length = receive memory buffer length := by
  rw [receive, behind 0 positive, receive]
  generalize getUPIU memory (buffer 0 &&& 0x3F) = upiu
  have accepted (code : UInt8) : UPIU.accepts code other length =
      UPIU.accepts code buffer length := accepts_behind behind positive
  have header := setHeader_behind behind upiu.header
  simp only [UPIU.set]
  split
  · rw [header]
  · simp only [UPIU.setCommand, accepted, header]
    split
    · next long =>
        have inside := behind.mono (accepts_long long)
        rw [inside.be32toh (by omega), cdb_behind inside]
    · rfl
  · simp only [UPIU.setResponse, accepted, header, setSense_behind behind]
    split
    · next long =>
        rw [(behind.mono (accepts_long long)).be32toh (by omega)]
    · rfl
  · simp only [UPIU.setQueryReq, UPIU.setQuery, accepted, header,
      setData_behind behind]
    split
    · next long => rw [Query.parse_behind (behind.mono (accepts_long long))]
    · rfl
  · simp only [UPIU.setQueryResp, UPIU.setQuery, accepted, header,
      setData_behind behind]
    split
    · next long => rw [Query.parse_behind (behind.mono (accepts_long long))]
    · rfl
  · simp only [UPIU.setDataOut, UPIU.setTransfer, accepted, header,
      setData_behind behind]
    split
    · next long => rw [Transfer.parse_behind (behind.mono (accepts_long long))]
    · rfl
  · simp only [UPIU.setDataIn, UPIU.setTransfer, accepted, header,
      setData_behind behind]
    split
    · next long => rw [Transfer.parse_behind (behind.mono (accepts_long long))]
    · rfl
  · simp only [UPIU.setReadyToTransfer, accepted, header]
    split
    · next long =>
        have inside := behind.mono (accepts_long long)
        rw [inside.be32toh (by omega), inside.be32toh (by omega)]
    · rfl

end

def Device.descriptor (device : Device) (lun idn index : UInt8) :
    Option (List UInt8) :=
  if idn = IDN_DEVICE then
    some deviceDescriptor.toList
  else if idn = IDN_UNIT then
    some (((device.lunDescriptor lun).map Vector.toList).getD
      (List.replicate IDN_UNIT_LENGTH 0))
  else if idn = IDN_POWER then
    some powerDescriptor.toList
  else if idn = IDN_STRING then
    some ([0xFE, IDN_STRING] ++
      ((device.stringAt index).map Vector.toList).getD
        (List.replicate (IDN_STRING_LENGTH - 2) 0))
  else
    none

/-- The answer can be made: a string has two bytes in any case. -/
def Query.Asks (query : Query) (whole : List UInt8) : Prop :=
  query.length.toNat ≤ whole.length ∧
    (query.idn = IDN_STRING → 2 ≤ query.length.toNat)

section

variable {device : Device} {lun : UInt8} {query answer : Query}
  {resp : UPIU} {whole : List UInt8}

theorem copied_some {row : List UInt8} {count : Nat}
    (inside : count ≤ row.length) :
    Device.copied (some row) count = .ok (row.take count) := by
  simp only [Device.copied, if_pos inside]
  rfl

theorem copied_default {row : Option (List UInt8)} {count size : Nat}
    (full : ∀ values, row = some values → values.length = size)
    (inside : count ≤ size) :
    Device.copied row count =
      .ok ((row.getD (List.replicate size 0)).take count) := by
  cases row with
  | none =>
      simp only [Device.copied, Option.getD_none, List.take_replicate,
        Nat.min_eq_left inside]
      rfl
  | some values => exact copied_some (by rw [full values rfl]; exact inside)

theorem copiedString_eq {row : Option (List UInt8)} {count : Nat}
    (full : ∀ values, row = some values →
      values.length = IDN_STRING_LENGTH - 2)
    (long : 2 ≤ count) (inside : count ≤ IDN_STRING_LENGTH) :
    Device.copiedString row count =
      .ok (([0xFE, IDN_STRING] ++ row.getD
        (List.replicate (IDN_STRING_LENGTH - 2) 0)).take count) := by
  obtain ⟨rest, rfl⟩ := Nat.exists_eq_add_of_le long
  rw [Device.copiedString, if_neg (Nat.not_lt_of_le long),
    Nat.add_sub_cancel_left,
    copied_default full (Nat.le_sub_of_add_le' inside)]
  simp [Nat.add_comm 2 rest]

theorem describe_eq {count : Nat} {data : Nat → Except Fault (List UInt8)}
    (full : whole.length = count)
    (made : data (min query.length.toNat count) =
      .ok (whole.take (min query.length.toNat count))) :
    Device.describe query resp answer count data =
      .ok ⟨{ resp.header with dataSegmentLength := query.length },
        .queryResp { answer with
          length := UInt16.ofNat whole.length
          data := some (whole.take query.length.toNat) }⟩ := by
  have part : whole.take (min query.length.toNat count) =
      whole.take query.length.toNat := by
    rw [← full, List.take_eq_take_iff]
    omega
  rw [Device.describe, made, part, full]
  rfl

/-- A row that is not there is one of zeros. -/
theorem row_full {size : Nat} (row : Option (Vector UInt8 size)) :
    ((row.map Vector.toList).getD (List.replicate size 0)).length = size := by
  cases row with
  | none => rw [Option.map_none, Option.getD_none, List.length_replicate]
  | some row => rw [Option.map_some, Option.getD_some, Vector.length_toList]

theorem map_toList_full {size : Nat} {row : Option (Vector UInt8 size)}
    {values : List UInt8} (found : row.map Vector.toList = some values) :
    values.length = size := by
  cases row with
  | none => cases found
  | some row =>
      cases found
      exact Vector.length_toList

/-- The descriptor is copied as far as it is asked for. -/
theorem processQueryCommand_eq
    (opcode : query.opcode = OPCODE_READ_DESCRIPTOR)
    (known : device.descriptor lun query.idn query.index = some whole)
    (long : query.idn = IDN_STRING → 2 ≤ query.length.toNat) :
    device.processQueryCommand lun query resp answer =
      .ok ⟨{ resp.header with dataSegmentLength := query.length },
        .queryResp { answer with
          opcode := query.opcode
          idn := query.idn
          index := query.index
          selector := query.selector
          length := UInt16.ofNat whole.length
          data := some (whole.take query.length.toNat) }⟩ := by
  simp only [Device.descriptor] at known
  simp only [Device.processQueryCommand, if_pos opcode]
  split at known
  · next device =>
      cases known
      rw [if_pos device]
      exact describe_eq Vector.length_toList
        (copied_some ((Nat.min_le_right _ _).trans_eq
          Vector.length_toList.symm))
  · next other =>
      rw [if_neg other]
      split at known
      · next unit =>
          cases known
          rw [if_pos unit]
          exact describe_eq (row_full (device.lunDescriptor lun))
            (copied_default (fun _ => map_toList_full) (Nat.min_le_right _ _))
      · next other =>
          rw [if_neg other]
          split at known
          · next power =>
              cases known
              rw [if_pos power]
              exact describe_eq Vector.length_toList
                (copied_some ((Nat.min_le_right _ _).trans_eq
                  Vector.length_toList.symm))
          · next other =>
              rw [if_neg other]
              split at known
              · next string =>
                  cases known
                  rw [if_pos string]
                  apply describe_eq
                  · rw [List.length_append, row_full]
                    rfl
                  · exact copiedString_eq (fun _ => map_toList_full)
                      (Nat.le_min.mpr ⟨long string, by decide⟩)
                      (Nat.min_le_right _ _)
              · cases known

/-- A string of less than two bytes overruns what is there for it. -/
theorem processQueryCommand_short
    (opcode : query.opcode = OPCODE_READ_DESCRIPTOR)
    (string : query.idn = IDN_STRING) (short : query.length.toNat < 2) :
    device.processQueryCommand lun query resp answer = .error .overrun := by
  have few : min query.length.toNat IDN_STRING_LENGTH < 2 :=
    Nat.lt_of_le_of_lt (Nat.min_le_left _ _) short
  have device : query.idn ≠ IDN_DEVICE := by
    rw [string]
    decide
  have unit : query.idn ≠ IDN_UNIT := by
    rw [string]
    decide
  have power : query.idn ≠ IDN_POWER := by
    rw [string]
    decide
  simp only [Device.processQueryCommand, if_pos opcode, if_neg device,
    if_neg unit, if_neg power, if_pos string, Device.describe,
    Device.copiedString, if_pos few]
  rfl

end

section

variable {query : Query} {length : Nat} {values : List UInt8}

theorem getQuery_ok {code : UInt8} (upiu : UPIU)
    (room : 31 + upiu.header.dataSegmentLength.toNat < length)
    (data : query.data = some values)
    (enough : upiu.header.dataSegmentLength.toNat ≤ values.length)
    (buffer : Buffer) :
    ∃ written, UPIU.getQuery code upiu query buffer length =
      .ok (⟨upiu.header.coded code, upiu.fields⟩, written, true) := by
  have long : length > 31 := by omega
  have header : length > 11 := by omega
  simp only [UPIU.getQuery, UPIU.getWith, if_pos long, UPIUHeader.get,
    if_pos header, getData, UPIUHeader.coded, data, if_pos room, if_pos enough]
  split
  · exact ⟨_, rfl⟩
  · exact ⟨_, rfl⟩

theorem getQuery_overrun (code : UInt8) (upiu : UPIU)
    (room : 31 + upiu.header.dataSegmentLength.toNat < length)
    (data : query.data = some values)
    (missing : values.length < upiu.header.dataSegmentLength.toNat)
    (buffer : Buffer) :
    UPIU.getQuery code upiu query buffer length = .error .overrun := by
  have long : length > 31 := by omega
  have header : length > 11 := by omega
  have some : upiu.header.dataSegmentLength > 0 :=
    UInt16.lt_iff_toNat_lt.mpr (Nat.zero_lt_of_lt missing)
  simp only [UPIU.getQuery, UPIU.getWith, if_pos long, UPIUHeader.get,
    if_pos header, getData, UPIUHeader.coded, data, if_pos some, if_pos room,
    if_neg (Nat.not_le_of_lt missing)]
  rfl

end

/-- What the driver reads of a row: the answer to its query, with the first
bytes of the descriptor. -/
def Reads (request : UPIU) (query : Query) (whole row : List UInt8) : Prop :=
  ∀ memory, ∃ answered reply,
    receive memory (fun index => row.getD index 0) row.length =
      .ok (answered, true) ∧
    answered.header.taskTag = request.header.taskTag ∧
    answered.fields = .queryResp reply ∧
    (reply.opcode, reply.idn, reply.index, reply.selector) =
      (query.opcode, query.idn, query.index, query.selector) ∧
    reply.length = UInt16.ofNat whole.length ∧
    reply.data.getD [] = whole.take query.length.toNat

theorem read_behind (buffer : Buffer) (length : Nat) :
    Behind length buffer fun index => (buffer.read 0 length).getD index 0 := by
  intro index inside
  show (buffer.read 0 length).getD index 0 = buffer index
  rw [List.getD_eq_getElem?_getD, Store.getElem?_read, if_pos inside,
    Option.getD_some, Nat.zero_add]

theorem reads_of_answer {request sent : UPIU} {query reply : Query}
    {whole : List UInt8} {upiu : UPIU} {written : Buffer}
    {length : Nat} (done : UPIU.getQuery OPCODE_QUERY_RESPONSE upiu reply
      (fun _ => 0) length = .ok (sent, written, true))
    (fields : upiu.fields = .queryResp reply)
    (tag : upiu.header.taskTag = request.header.taskTag)
    (count : upiu.header.dataSegmentLength = query.length)
    (same : (reply.opcode, reply.idn, reply.index, reply.selector) =
      (query.opcode, query.idn, query.index, query.selector))
    (full : reply.length = UInt16.ofNat whole.length)
    (data : reply.data = some (whole.take query.length.toNat)) :
    Reads request query whole (written.read 0 length) := by
  intro memory
  obtain ⟨long, sentIs, _⟩ := UPIU.getWith_ok done
  have made : getUPIU memory OPCODE_QUERY_RESPONSE =
      ⟨.zero, .queryResp { memory with data := none }⟩ := rfl
  obtain ⟨_, segment, received, part⟩ := receive_query fields (by decide) made
    rfl Fields.queryResp.inj done
  refine ⟨⟨sent.header, .queryResp { reply with data := segment }⟩,
    { reply with data := segment }, ?_, ?_, rfl, same, full, ?_⟩
  · rw [Store.length_read, receive_behind (read_behind written length)
      (by omega), received]
  · rw [sentIs]
    exact tag
  · rw [part, data, sentIs]
    show (whole.take query.length.toNat).take
      upiu.header.dataSegmentLength.toNat = _
    rw [count, List.take_take, Nat.min_self]

def Query.reply (query memory : Query) (whole : List UInt8) : Query :=
  { memory with
    opcode := query.opcode
    idn := query.idn
    index := query.index
    selector := query.selector
    length := UInt16.ofNat whole.length
    data := some (whole.take query.length.toNat) }

def Query.response (query memory : Query) (whole : List UInt8) : UPIU :=
  ⟨{ UPIUHeader.zero with dataSegmentLength := query.length },
    .queryResp (query.reply memory whole)⟩

section

variable {host : Host} {place : Nat} {command : Command} {request : UPIU}
  {query memory : Query} {whole : List UInt8} {transferReq : Buffer}

theorem startQuery_eq (fields : request.fields = .queryReq query)
    (opcode : query.opcode = OPCODE_READ_DESCRIPTOR)
    (known : host.device.descriptor request.header.lun query.idn query.index =
      some whole)
    (long : query.idn = IDN_STRING → 2 ≤ query.length.toNat) :
    host.startQuery place command request memory =
      .ok (host.setCommand place { command with
        stage := .processing request (query.response memory whole) },
        [.moved command.bitMask .reading]) := by
  have made : getUPIU memory OPCODE_QUERY_RESPONSE =
      ⟨.zero, .queryResp { memory with data := none }⟩ := rfl
  simp only [Host.startQuery, fields, made]
  rw [processQueryCommand_eq opcode known long]
  rfl

theorem startQuery_short (fields : request.fields = .queryReq query)
    (opcode : query.opcode = OPCODE_READ_DESCRIPTOR)
    (string : query.idn = IDN_STRING) (short : query.length.toNat < 2) :
    host.startQuery place command request memory =
      .error (.fault .overrun) := by
  have made : getUPIU memory OPCODE_QUERY_RESPONSE =
      ⟨.zero, .queryResp { memory with data := none }⟩ := rfl
  simp only [Host.startQuery, fields, made]
  rw [processQueryCommand_short opcode string short]
  rfl

theorem doRequest_query
    (taken : transferReq 0 &&& 0x3F = OPCODE_QUERY_REQUEST)
    (received : receive memory transferReq
      command.transferReqDesc.offUPIUResp.toNat = .ok (request, true)) :
    host.doRequest place command transferReq memory =
      host.startQuery place command request memory := by
  have present : command.transferReqDesc.offUPIUResp ≠ 0 := by
    intro absent
    have short : UPIU.accepts OPCODE_QUERY_REQUEST transferReq 0 = false := by
      rw [UPIU.accepts, taken]
      rfl
    have made : getUPIU memory OPCODE_QUERY_REQUEST =
        ⟨.zero, .queryReq { memory with data := none }⟩ := rfl
    simp only [absent, receive, taken, made, UPIU.set, UPIU.setQueryReq,
      UPIU.setQuery, UInt32.toNat_zero, short] at received
    cases received
  rw [Host.doRequest, if_neg present, received, taken]
  rfl

theorem processed_query (found : host.commands[place]? = some command)
    {answer : Query} {header : UPIUHeader} :
    (host.setCommand place { command with
      stage := .processing request ⟨header, .queryResp answer⟩ }).processed
        place =
      (host.setCommand place { command with
        stage := .processing request ⟨header, .queryResp answer⟩ }).respond
          place { command with
            stage := .processing request ⟨header, .queryResp answer⟩ }
          request ⟨header, .queryResp answer⟩ := by
  have there := List.getElem?_eq_some_iff.mp found
  simp only [Host.processed, Host.setCommand,
    List.getElem?_set_self there.1]

theorem respond_ok
    (room : 31 + query.length.toNat <
      command.transferReqDesc.sizeUPIUResp.toNat)
    (inside : query.length.toNat ≤ whole.length) :
    ∃ next row,
      host.respond place command request (query.response memory whole) =
        .ok (next, [.moved command.bitMask .processing,
          .writeResponse (command.transferReqDesc.base +
            command.transferReqDesc.offUPIUResp.toUInt64) row]) ∧
      Reads request query whole row := by
  let response : UPIU := ⟨{ (query.response memory whole).header with
    taskTag := request.header.taskTag }, .queryResp (query.reply memory whole)⟩
  have data : (query.reply memory whole).data =
      some (whole.take query.length.toNat) := rfl
  obtain ⟨written, done⟩ := getQuery_ok response room data
    (Nat.le_of_eq (List.length_take_of_le inside).symm) fun _ => 0
  refine ⟨host.setCommand place { command with stage := .responding },
    written.read 0 command.transferReqDesc.sizeUPIUResp.toNat, ?_,
    reads_of_answer done rfl rfl rfl rfl rfl data⟩
  rw [Host.respond]
  show (UPIU.getQuery OPCODE_QUERY_RESPONSE response _ _ _ |>.mapError
    Panic.fault) >>= _ = _
  rw [done]
  rfl

theorem respond_overrun
    (room : 31 + query.length.toNat <
      command.transferReqDesc.sizeUPIUResp.toNat)
    (missing : whole.length < query.length.toNat) :
    host.respond place command request (query.response memory whole) =
      .error (.fault .overrun) := by
  let response : UPIU := ⟨{ (query.response memory whole).header with
    taskTag := request.header.taskTag }, .queryResp (query.reply memory whole)⟩
  have data : (query.reply memory whole).data =
      some (whole.take query.length.toNat) := rfl
  have failed := getQuery_overrun OPCODE_QUERY_RESPONSE response room data
    (Nat.lt_of_le_of_lt (List.length_take_le' _ _) missing) fun _ => 0
  rw [Host.respond]
  show (UPIU.getQuery OPCODE_QUERY_RESPONSE response _ _ _ |>.mapError
    Panic.fault) >>= _ = _
  rw [failed]
  rfl

end

/-- A descriptor is answered with its first bytes exactly when no more bytes
are asked for than it has, and, of a string, two at least; otherwise the host
reads or writes beyond the data that it has. -/
theorem descriptor_answered_iff {host : Host} {place : Nat} {command : Command}
    {transferReq : Buffer} {request : UPIU} {query memory : Query}
    {whole : List UInt8} (found : host.commands[place]? = some command)
    (taken : transferReq 0 &&& 0x3F = OPCODE_QUERY_REQUEST)
    (received : receive memory transferReq
      command.transferReqDesc.offUPIUResp.toNat = .ok (request, true))
    (fields : request.fields = .queryReq query)
    (opcode : query.opcode = OPCODE_READ_DESCRIPTOR)
    (known : host.device.descriptor request.header.lun query.idn query.index =
      some whole)
    (room : 31 + query.length.toNat <
      command.transferReqDesc.sizeUPIUResp.toNat) :
    (∃ asked happened answered row,
      host.doRequest place command transferReq memory =
        .ok (asked, happened) ∧
      asked.processed place =
        .ok (answered, [.moved command.bitMask .processing,
          .writeResponse (command.transferReqDesc.base +
            command.transferReqDesc.offUPIUResp.toUInt64) row]) ∧
      Reads request query whole row) ↔ query.Asks whole := by
  rw [doRequest_query taken received]
  constructor
  · intro answer
    obtain ⟨asked, happened, answered, row, started, responded, _⟩ := answer
    have long : query.idn = IDN_STRING → 2 ≤ query.length.toNat := by
      intro string
      apply Nat.le_of_not_lt
      intro short
      rw [startQuery_short fields opcode string short] at started
      cases started
    rw [startQuery_eq fields opcode known long] at started
    cases started
    rw [Query.response, processed_query found] at responded
    refine ⟨Nat.le_of_not_lt fun missing => ?_, long⟩
    have overrun := responded.symm.trans (respond_overrun room missing)
    cases overrun
  · intro asks
    rw [startQuery_eq fields opcode known asks.2, Query.response]
    obtain ⟨next, row, responded, reads⟩ := respond_ok room asks.1
    exact ⟨_, _, next, row, rfl, (processed_query found).trans responded,
      reads⟩

def wantsDevice : List UInt8 :=
  [OPCODE_QUERY_REQUEST, 0, 0, 7, 0, 0, 0, 0, 0, 0, 0, 0,
    OPCODE_READ_DESCRIPTOR, IDN_DEVICE, 0, 0, 0, 0, 0, 31,
    0, 0, 0, 0, 0, 0, 0, 0, 0, 0, 0, 0]

def wantingDevice : Buffer := fun index => wantsDevice.getD index 0

def describing : Command where
  index := 0
  transferReqDesc := { TransferReqDesc.zero with
    respUPIULength := 16
    respUPIUOffset := 8 }
  stage := .reading none true

theorem descriptor_answered_iff_device :
    ∃ asked happened answered row,
      { Host.fresh with commands := [describing] }.doRequest 0 describing
        wantingDevice ⟨0, 0, 0, 0, 0, 0, 0, none⟩ = .ok (asked, happened) ∧
      asked.processed 0 =
        .ok (answered, [.moved 1 .processing, .writeResponse 32 row]) ∧
      Reads ⟨.parse wantingDevice, .queryReq (.parse wantingDevice none)⟩
        (.parse wantingDevice none) deviceDescriptor.toList row := by
  have received : receive ⟨0, 0, 0, 0, 0, 0, 0, none⟩ wantingDevice 32 =
      .ok (⟨.parse wantingDevice, .queryReq (.parse wantingDevice none)⟩,
        true) := rfl
  have found : { Host.fresh with commands := [describing] }.commands[0]? =
      some describing := rfl
  apply (descriptor_answered_iff found rfl received rfl rfl rfl
    (by decide)).mpr
  exact ⟨by decide, fun string => absurd string (by decide)⟩

end SimpleSSD.HIL.UFS
