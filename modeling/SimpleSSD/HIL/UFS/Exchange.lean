import Mathlib.Data.List.TakeDrop
import Mathlib.Tactic.Common
import SimpleSSD.Data.Result
import SimpleSSD.HIL.UFS.UPIU

namespace SimpleSSD.HIL.UFS

open Data

/-! What is read of a unit that was written. -/

section

variable {buffer other : Buffer}

@[simp] theorem length_be16 (number : UInt16) : (be16 number).length = 2 :=
  BigEndian.length_bytes _ _

@[simp] theorem length_be32 (number : UInt32) : (be32 number).length = 4 :=
  BigEndian.length_bytes _ _

theorem be16toh_write (buffer : Buffer) (first : Nat) (number : UInt16) :
    be16toh (buffer.write first (be16 number)) first = number := by
  have row := Store.read_write buffer first (be16 number)
  rw [length_be16] at row
  rw [be16toh, row, be16, BigEndian.value_bytes_of_lt number.toNat_lt,
    UInt16.ofNat_toNat]

theorem be32toh_write (buffer : Buffer) (first : Nat) (number : UInt32) :
    be32toh (buffer.write first (be32 number)) first = number := by
  have row := Store.read_write buffer first (be32 number)
  rw [length_be32] at row
  rw [be32toh, row, be32, BigEndian.value_bytes_of_lt number.toNat_lt,
    UInt32.ofNat_toNat]

theorem be16toh_apart {first start : Nat} {values : List UInt8}
    (apart : start + 2 ≤ first ∨ first + values.length ≤ start) :
    be16toh (buffer.write first values) start = be16toh buffer start := by
  rw [be16toh, Store.read_write_apart apart, be16toh]

theorem be32toh_apart {first start : Nat} {values : List UInt8}
    (apart : start + 4 ≤ first ∨ first + values.length ≤ start) :
    be32toh (buffer.write first values) start = be32toh buffer start := by
  rw [be32toh, Store.read_write_apart apart, be32toh]

def Behind (first : Nat) (buffer other : Buffer) : Prop :=
  ∀ index < first, other index = buffer index

theorem Behind.refl (first : Nat) (buffer : Buffer) :
    Behind first buffer buffer :=
  fun _ _ => rfl

theorem Behind.write {first start : Nat} (behind : Behind first buffer other)
    (after : first ≤ start) (values : List UInt8) :
    Behind first buffer (other.write start values) := by
  intro index inside
  rw [Store.write_outside (.inl (by omega)), behind index inside]

theorem Behind.read {first start count : Nat}
    (behind : Behind first buffer other) (inside : start + count ≤ first) :
    other.read start count = buffer.read start count := by
  apply Store.read_congr
  intro index _ below
  exact behind index (by omega)

theorem Behind.be16toh {first start : Nat}
    (behind : Behind first buffer other) (inside : start + 2 ≤ first) :
    UFS.be16toh other start = UFS.be16toh buffer start := by
  rw [UFS.be16toh, behind.read inside, UFS.be16toh]

theorem Behind.be32toh {first start : Nat}
    (behind : Behind first buffer other) (inside : start + 4 ≤ first) :
    UFS.be32toh other start = UFS.be32toh buffer start := by
  rw [UFS.be32toh, behind.read inside, UFS.be32toh]

end

section

variable {buffer other written : Buffer} {header : UPIUHeader} {length : Nat}

theorem UPIUHeader.parse_write (header : UPIUHeader) (buffer : Buffer) :
    parse (buffer.write 0 header.bytes) =
      { header with transactionType := header.transactionType &&& 0x3F } := by
  have number := be16toh_write (buffer.write 0 header.front) 10
    header.dataSegmentLength
  have behind := (Behind.refl 10 (buffer.write 0 header.front)).write
    (Nat.le_refl 10) (be16 header.dataSegmentLength)
  rw [bytes, Store.write_append]
  simp only [parse, front, List.length_cons, List.length_nil, Nat.reduceAdd]
    at number behind ⊢
  rw [number, behind 0 (by omega), behind 1 (by omega), behind 2 (by omega),
    behind 3 (by omega), behind 4 (by omega), behind 5 (by omega),
    behind 6 (by omega), behind 7 (by omega), behind 8 (by omega),
    behind 9 (by omega)]
  rfl

theorem UPIUHeader.parse_behind (behind : Behind 12 buffer other) :
    parse other = parse buffer := by
  simp only [parse, behind.be16toh (show 10 + 2 ≤ 12 by decide)]
  rw [behind 0 (by omega), behind 1 (by omega), behind 2 (by omega),
    behind 3 (by omega), behind 4 (by omega), behind 5 (by omega),
    behind 6 (by omega), behind 7 (by omega), behind 8 (by omega),
    behind 9 (by omega)]

def Filled (header : UPIUHeader) (data : Option (List UInt8)) : Prop :=
  if header.dataSegmentLength > 0 then
    ∃ values, data = some values ∧
      values.length = header.dataSegmentLength.toNat
  else
    data = none

def Sensed (header : UPIUHeader) (senseLength : UInt16)
    (senseData : Vector UInt8 18) : Prop :=
  if header.dataSegmentLength > 0 then
    ∀ index : Fin 18, senseLength.toNat ≤ index → senseData.get index = 0
  else
    senseLength = 0 ∧ senseData = .replicate 18 0

def classes : List UInt8 :=
  [OPCODE_COMMAND, OPCODE_DATA_OUT, OPCODE_QUERY_REQUEST, OPCODE_RESPONSE,
    OPCODE_DATA_IN, OPCODE_READY_TO_TRANSFER, OPCODE_QUERY_RESPONSE]

def UPIU.Canonical (upiu : UPIU) : Prop :=
  match upiu.fields with
  | .plain => upiu.header.transactionType ∉ classes ∧
      upiu.header.transactionType &&& 0x3F = upiu.header.transactionType
  | .command _ _ => True
  | .response _ senseLength senseData =>
      Sensed upiu.header senseLength senseData
  | .queryReq query | .queryResp query => Filled upiu.header query.data
  | .dataOut transfer | .dataIn transfer => Filled upiu.header transfer.data
  | .readyToTransfer _ _ => False

theorem UPIU.getWith_ok {code : UInt8} {upiu sent : UPIU}
    {body : Buffer → Buffer}
    {data : UPIUHeader → Buffer → Except Fault (Buffer × Bool)}
    (done : getWith code upiu body data buffer length =
      .ok (sent, written, true)) :
    31 < length ∧
      sent = ⟨upiu.header.coded code, upiu.fields⟩ ∧
      data sent.header (body (buffer.write 0 sent.header.bytes)) =
        .ok (written, true) := by
  simp only [getWith] at done
  split at done
  · next long =>
      have header : 11 < length := by omega
      simp only [UPIUHeader.get, header, if_true] at done
      obtain ⟨⟨filled, whole⟩, behind, done⟩ := bind_ok done
      cases done
      exact ⟨long, rfl, behind⟩
  · cases done

theorem UPIUHeader.offset_coded {code : UInt8} (masked : code &&& 0x3F = code) :
    (header.coded code).offset = 0 := by
  have clear : code &&& 0x80 = 0 := by
    rw [← masked, UInt8.and_assoc]
    exact UInt8.and_zero
  simp [offset, coded, clear]

theorem UPIUHeader.parse_coded {code : UInt8}
    (behind : Behind 12 (buffer.write 0 (header.coded code).bytes) written)
    (masked : code &&& 0x3F = code) : parse written = header.coded code := by
  rw [parse_behind behind, parse_write]
  simp [coded, masked]

theorem first_coded {code : UInt8}
    (read : UPIUHeader.parse written = header.coded code) :
    written 0 = code :=
  congrArg UPIUHeader.transactionType read

theorem accepts_coded {code : UInt8} (long : 31 < length)
    (read : UPIUHeader.parse written = header.coded code)
    (masked : code &&& 0x3F = code) :
    UPIU.accepts code written length = true := by
  simp [UPIU.accepts, first_coded read, masked, long]

theorem receive_coded {memory : Query} {code : UInt8} {unit : UPIU}
    (read : UPIUHeader.parse written = header.coded code)
    (masked : code &&& 0x3F = code) (made : getUPIU memory code = unit) :
    receive memory written length = unit.set written length := by
  rw [receive, first_coded read, masked, made]

theorem getData_behind {data : Option (List UInt8)}
    (done : getData header data buffer length = .ok (written, true)) :
    Behind 32 buffer written := by
  simp only [getData] at done
  split at done
  · split at done
    · cases data with
      | none => cases done
      | some values =>
          simp only at done
          split at done
          · cases done
            exact (Behind.refl 32 buffer).write (Nat.le_refl 32) _
          · cases done
    · cases done
  · cases done
    exact .refl 32 buffer

/-- The segment is read as far as the header says. -/
theorem setData_getData {data : Option (List UInt8)}
    (done : getData header data buffer length = .ok (written, true))
    (plain : header.offset = 0) :
    ∃ segment, setData header none written length = (segment, true) ∧
      (segment = data ↔ Filled header data) ∧
      segment.getD [] =
        (data.getD []).take header.dataSegmentLength.toNat := by
  simp only [getData] at done
  simp only [setData, Filled, plain, Nat.add_zero]
  split at done
  · next some =>
      split at done
      · next inside =>
          cases data with
          | none => cases done
          | some values =>
              simp only at done
              split at done
              · next enough =>
                  cases done
                  have row := Store.read_write buffer 32
                    (values.take header.dataSegmentLength.toNat)
                  rw [List.length_take_of_le enough] at row
                  rw [if_pos some, if_pos inside, if_pos some, row]
                  refine ⟨_, rfl, ?_, rfl⟩
                  rw [Option.some_inj, List.take_eq_self_iff]
                  constructor
                  · intro short
                    exact ⟨values, rfl, Nat.le_antisymm short enough⟩
                  · intro whole
                    obtain ⟨values, same, exact⟩ := whole
                    cases same
                    exact Nat.le_of_eq exact
              · cases done
      · cases done
  · next none =>
      cases done
      have empty : header.dataSegmentLength.toNat = 0 := by
        by_contra some
        exact none (UInt16.lt_iff_toNat_lt.mpr (Nat.pos_of_ne_zero some))
      rw [if_neg none, if_neg none, empty]
      exact ⟨_, rfl, eq_comm, rfl⟩

theorem receive_command {memory : Query} {upiu sent : UPIU}
    {expectedDataLength : UInt32} {cdb : Vector UInt8 16}
    (fields : upiu.fields = .command expectedDataLength cdb)
    (done : upiu.get buffer length = .ok (sent, written, true)) :
    receive memory written length = .ok (sent, true) := by
  simp only [UPIU.get, fields] at done
  obtain ⟨long, rfl, filled⟩ := UPIU.getWith_ok done
  cases filled
  have behind := ((Behind.refl 12 (buffer.write 0
    (upiu.header.coded OPCODE_COMMAND).bytes)).write
      (Nat.le_refl 12) (be32 expectedDataLength)).write
      (show 12 ≤ 16 by decide) cdb.toList
  have masked : OPCODE_COMMAND &&& 0x3F = OPCODE_COMMAND := by
    decide
  have made : getUPIU memory OPCODE_COMMAND =
      ⟨.zero, .command 0 (.replicate 16 0)⟩ := rfl
  have read := UPIUHeader.parse_coded behind masked
  rw [receive_coded read masked made]
  simp only [UPIU.set, UPIU.setCommand, accepts_coded long read masked,
    UPIUHeader.set, read, if_pos (show length > 11 by omega), if_true]
  rw [be32toh_apart (by simp), be32toh_write]
  have cells : (Vector.ofFn fun index : Fin 16 =>
      ((buffer.write 0 (upiu.header.coded OPCODE_COMMAND).bytes).write 12
        (be32 expectedDataLength)).write 16 cdb.toList (16 + index)) = cdb := by
    ext index inside
    rw [Vector.getElem_ofFn, Store.write_inside (by simpa using inside)]
    simp
  rw [cells, fields]
  rfl

theorem queryBody_behind (query : Query) (buffer : Buffer) :
    Behind 12 buffer (UPIU.queryBody query buffer) :=
  (((((Behind.refl 12 buffer).write (Nat.le_refl 12) _).write
    (show 12 ≤ 18 by decide) _).write (show 12 ≤ 20 by decide) _).write
    (show 12 ≤ 24 by decide) _).write (show 12 ≤ 28 by decide) _

theorem transferBody_behind (offset count : UInt32) (buffer : Buffer) :
    Behind 12 buffer (UPIU.transferBody offset count buffer) :=
  (((Behind.refl 12 buffer).write (Nat.le_refl 12) _).write
    (show 12 ≤ 16 by decide) _).write (show 12 ≤ 20 by decide) _

theorem Behind.mono {first less : Nat} (behind : Behind first buffer other)
    (fewer : less ≤ first) : Behind less buffer other :=
  fun index inside => behind index (Nat.lt_of_lt_of_le inside fewer)

theorem Behind.trans {first : Nat} {middle : Buffer}
    (before : Behind first buffer middle)
    (after : Behind first middle other) : Behind first buffer other :=
  fun index inside => (after index inside).trans (before index inside)

theorem Query.parse_behind (behind : Behind 32 buffer other)
    (data : Option (List UInt8)) :
    Query.parse other data = Query.parse buffer data := by
  simp only [parse, behind.be16toh (show 18 + 2 ≤ 32 by decide),
    behind.be32toh (show 20 + 4 ≤ 32 by decide),
    behind.be32toh (show 24 + 4 ≤ 32 by decide)]
  rw [behind 12 (by omega), behind 13 (by omega), behind 14 (by omega),
    behind 15 (by omega)]

theorem Transfer.parse_behind (behind : Behind 32 buffer other)
    (data : Option (List UInt8)) :
    Transfer.parse other data = Transfer.parse buffer data := by
  simp only [parse, behind.be32toh (show 12 + 4 ≤ 32 by decide),
    behind.be32toh (show 16 + 4 ≤ 32 by decide)]

theorem Query.parse_body (query : Query) (buffer : Buffer)
    (data : Option (List UInt8)) :
    Query.parse (UPIU.queryBody query buffer) data =
      { query with data := data } := by
  have bytes : Behind 18 (buffer.write 12 [query.opcode, query.idn,
      query.index, query.selector]) (UPIU.queryBody query buffer) :=
    ((((Behind.refl 18 _).write (Nat.le_refl 18) _).write
      (show 18 ≤ 20 by decide) _).write (show 18 ≤ 24 by decide) _).write
      (show 18 ≤ 28 by decide) _
  simp only [parse, bytes 12 (by omega), bytes 13 (by omega),
    bytes 14 (by omega), bytes 15 (by omega)]
  simp only [UPIU.queryBody]
  rw [be16toh_apart (by simp), be16toh_apart (by simp),
    be16toh_apart (by simp), be16toh_write, be32toh_apart (by simp),
    be32toh_apart (by simp), be32toh_write, be32toh_apart (by simp),
    be32toh_write]
  rfl

theorem Transfer.parse_body (transfer : Transfer) (buffer : Buffer)
    (data : Option (List UInt8)) :
    Transfer.parse (UPIU.transferBody transfer.offset transfer.count buffer)
      data = { transfer with data := data } := by
  simp only [parse, UPIU.transferBody]
  rw [be32toh_apart (by simp), be32toh_apart (by simp), be32toh_write,
    be32toh_apart (by simp), be32toh_write]

theorem receive_query {memory : Query} {code : UInt8} {wrap : Query → Fields}
    {upiu sent : UPIU} {query : Query} (fields : upiu.fields = wrap query)
    (masked : code &&& 0x3F = code)
    (made : getUPIU memory code =
      ⟨.zero, wrap { memory with data := none }⟩)
    (sets : UPIU.set ⟨.zero, wrap { memory with data := none }⟩
      written length = pure (UPIU.setQuery code wrap
        ⟨.zero, wrap { memory with data := none }⟩
        { memory with data := none } written length))
    (apart : ∀ {first second}, wrap first = wrap second → first = second)
    (done : UPIU.getQuery code upiu query buffer length =
      .ok (sent, written, true)) :
    (receive memory written length = .ok (sent, true) ↔
      Filled sent.header query.data) ∧
    ∃ segment, receive memory written length =
        .ok (⟨sent.header, wrap { query with data := segment }⟩, true) ∧
      segment.getD [] =
        (query.data.getD []).take sent.header.dataSegmentLength.toNat := by
  obtain ⟨long, rfl, filled⟩ := UPIU.getWith_ok done
  have behind := getData_behind filled
  have read := UPIUHeader.parse_coded ((queryBody_behind query _).trans
    (behind.mono (show 12 ≤ 32 by decide))) masked
  obtain ⟨segment, segments, whole, part⟩ := setData_getData filled
    (UPIUHeader.offset_coded masked)
  rw [receive_coded read masked made, sets, ← whole]
  simp only [UPIU.setQuery, accepts_coded long read masked, UPIUHeader.set,
    read, if_pos (show length > 11 by omega), if_true, segments,
    Query.parse_behind behind, Query.parse_body, fields]
  refine ⟨⟨?_, ?_⟩, segment, rfl, part⟩
  · intro same
    have query := apart (congrArg (·.1.fields) (Except.ok.inj same))
    exact congrArg Query.data query
  · intro same
    rw [same]
    rfl

theorem receive_transfer {memory : Query} {code : UInt8}
    {wrap : Transfer → Fields} {upiu sent : UPIU} {transfer : Transfer}
    (fields : upiu.fields = wrap transfer) (masked : code &&& 0x3F = code)
    (made : getUPIU memory code = ⟨.zero, wrap ⟨0, 0, none⟩⟩)
    (sets : UPIU.set ⟨.zero, wrap ⟨0, 0, none⟩⟩ written length =
      pure (UPIU.setTransfer code wrap ⟨.zero, wrap ⟨0, 0, none⟩⟩
        ⟨0, 0, none⟩ written length))
    (apart : ∀ {first second}, wrap first = wrap second → first = second)
    (done : UPIU.getTransfer code upiu transfer buffer length =
      .ok (sent, written, true)) :
    receive memory written length = .ok (sent, true) ↔
      Filled sent.header transfer.data := by
  obtain ⟨long, rfl, filled⟩ := UPIU.getWith_ok done
  have behind := getData_behind filled
  have read := UPIUHeader.parse_coded ((transferBody_behind _ _ _).trans
    (behind.mono (show 12 ≤ 32 by decide))) masked
  obtain ⟨segment, segments, whole, _⟩ := setData_getData filled
    (UPIUHeader.offset_coded masked)
  rw [receive_coded read masked made, sets, ← whole]
  simp only [UPIU.setTransfer, accepts_coded long read masked, UPIUHeader.set,
    read, if_pos (show length > 11 by omega), if_true, segments,
    Transfer.parse_behind behind, Transfer.parse_body, fields]
  constructor
  · intro same
    have transfer := apart (congrArg (·.1.fields) (Except.ok.inj same))
    exact congrArg Transfer.data transfer
  · intro same
    rw [same]
    rfl

theorem getSense_behind {senseLength : UInt16} {senseData : Vector UInt8 18}
    (done : UPIU.getSense senseLength senseData length header buffer =
      .ok (written, true)) : Behind 32 buffer written := by
  simp only [UPIU.getSense] at done
  split at done
  · split at done
    · split at done
      · cases done
        exact ((Behind.refl 32 buffer).write (Nat.le_refl 32) _).write
          (show 32 ≤ 34 by decide) _
      · cases done
    · cases done
  · cases done
    exact .refl 32 buffer

/-- The sense data are read as far as their length says. -/
theorem copySense_written {senseLength : UInt16}
    {senseData : Vector UInt8 18} (short : senseLength.toNat ≤ 18)
    (inside : 34 + senseLength.toNat ≤ length) :
    ∃ read, copySense senseLength (.replicate 18 0)
        (buffer.write 34 (senseData.toList.take senseLength.toNat)) 34 length =
          .ok read ∧
      (read = senseData ↔ ∀ index : Fin 18,
        senseLength.toNat ≤ index → senseData.get index = 0) := by
  rw [copySense, if_pos ⟨short, inside⟩]
  refine ⟨_, rfl, ?_⟩
  have count : (senseData.toList.take senseLength.toNat).length =
      senseLength.toNat := by
    rw [List.length_take, Vector.length_toList, Nat.min_eq_left short]
  constructor
  · intro same index past
    show senseData[index.val] = 0
    rw [← same, Vector.getElem_ofFn,
      if_neg (Nat.not_lt_of_le past)]
    simp
  · intro zero
    ext index small
    rw [Vector.getElem_ofFn]
    split
    · next within =>
        rw [Store.write_inside (by simpa [count] using within)]
        simp
    · next past =>
        have last : senseData[index] = 0 :=
          zero ⟨index, small⟩ (Nat.le_of_not_lt past)
        rw [last]
        simp

theorem setSense_getSense {senseLength : UInt16} {senseData : Vector UInt8 18}
    (done : UPIU.getSense senseLength senseData length header buffer =
      .ok (written, true)) (plain : header.offset = 0) :
    ∃ count sense,
      setSense header 0 (.replicate 18 0) written length =
        .ok (count, sense, true) ∧
      (count = senseLength ∧ sense = senseData ↔
        Sensed header senseLength senseData) := by
  simp only [UPIU.getSense] at done
  simp only [setSense, Sensed, plain, Nat.add_zero]
  split at done
  · next some =>
      split at done
      · next room =>
          split at done
          · next fits =>
              cases done
              obtain ⟨sense, copied, whole⟩ := copySense_written fits.1 fits.2
              rw [if_pos some, if_pos room,
                if_pos (Nat.le_of_add_right_le fits.2),
                be16toh_apart (.inl (Nat.le_refl 34)), be16toh_write, copied,
                if_pos some]
              exact ⟨_, _, rfl, by rw [← whole]; simp⟩
          · cases done
      · cases done
  · next none =>
      cases done
      rw [if_neg none, if_neg none]
      exact ⟨_, _, rfl, and_congr eq_comm eq_comm⟩

theorem receive_response {memory : Query} {upiu sent : UPIU}
    {residualCount : UInt32} {senseLength : UInt16}
    {senseData : Vector UInt8 18}
    (fields : upiu.fields = .response residualCount senseLength senseData)
    (done : upiu.get buffer length = .ok (sent, written, true)) :
    receive memory written length = .ok (sent, true) ↔
      Sensed sent.header senseLength senseData := by
  simp only [UPIU.get, fields] at done
  obtain ⟨long, rfl, filled⟩ := UPIU.getWith_ok done
  have behind := getSense_behind filled
  have masked : OPCODE_RESPONSE &&& 0x3F = OPCODE_RESPONSE := by
    decide
  have made : getUPIU memory OPCODE_RESPONSE =
      ⟨.zero, .response 0 0 (.replicate 18 0)⟩ := rfl
  have body := ((Behind.refl 12 (buffer.write 0
    (upiu.header.coded OPCODE_RESPONSE).bytes)).write (Nat.le_refl 12)
      (be32 residualCount)).write (show 12 ≤ 16 by decide) (UPIU.zeros 16)
  have read := UPIUHeader.parse_coded
    (body.trans (behind.mono (show 12 ≤ 32 by decide))) masked
  have residual : be32toh written 12 = residualCount := by
    rw [behind.be32toh (by omega), be32toh_apart (by simp), be32toh_write]
  obtain ⟨count, sense, sensed, whole⟩ := setSense_getSense filled
    (UPIUHeader.offset_coded masked)
  rw [receive_coded read masked made, ← whole]
  simp only [UPIU.set, UPIU.setResponse, accepts_coded long read masked,
    UPIUHeader.set, read, if_pos (show length > 11 by omega), if_true,
    residual, sensed, fields]
  constructor
  · intro same
    have fields := congrArg (·.1.fields) (Except.ok.inj same)
    injection fields with _ count sense
    exact ⟨count, sense⟩
  · intro same
    rw [same.1, same.2]
    rfl

theorem receive_readyToTransfer {memory : Query} {upiu sent : UPIU}
    {offset count : UInt32} (fields : upiu.fields = .readyToTransfer offset count)
    (done : upiu.get buffer length = .ok (sent, written, true)) :
    receive memory written length =
      .ok (getUPIU memory OPCODE_READY_TO_TRANSFER, false) := by
  simp only [UPIU.get, fields] at done
  obtain ⟨long, rfl, filled⟩ := UPIU.getWith_ok done
  cases filled
  have masked : OPCODE_READY_TO_TRANSFER &&& 0x3F =
      OPCODE_READY_TO_TRANSFER := by
    decide
  have made : getUPIU memory OPCODE_READY_TO_TRANSFER =
      ⟨.zero, .readyToTransfer 0 0⟩ := rfl
  have read := UPIUHeader.parse_coded (transferBody_behind offset count
    (buffer.write 0 (upiu.header.coded OPCODE_READY_TO_TRANSFER).bytes)) masked
  rw [receive_coded read masked made, made]
  simp [UPIU.set, UPIU.setReadyToTransfer, UPIU.accepts, first_coded read]
  rfl

theorem getUPIU_plain {memory : Query} {code : UInt8}
    (outside : code ∉ classes) :
    getUPIU memory code =
      ⟨{ UPIUHeader.zero with transactionType := code }, .plain⟩ := by
  simp only [classes, List.mem_cons, List.not_mem_nil, or_false, not_or]
    at outside
  simp only [getUPIU, outside, if_false]

theorem getUPIU_class {memory : Query} {code : UInt8}
    (inside : code ∈ classes) : (getUPIU memory code).fields ≠ .plain := by
  simp only [classes, List.mem_cons, List.not_mem_nil, or_false] at inside
  intro plain
  rcases inside with rfl | rfl | rfl | rfl | rfl | rfl | rfl <;> cases plain

theorem UPIU.set_class {upiu after : UPIU} {ret : Bool}
    (done : upiu.set buffer length = .ok (after, ret))
    (special : upiu.fields ≠ .plain) : after.fields ≠ .plain := by
  simp only [set] at done
  split at done
  · next plain => exact absurd plain special
  · simp only [setCommand] at done
    split at done
    · cases done
      simp
    · cases done
      exact special
  · simp only [setResponse] at done
    split at done
    · obtain ⟨sensed, _, done⟩ := bind_ok done
      cases done
      simp
    · cases done
      exact special
  · simp only [setQueryReq, setQuery] at done
    split at done
    · cases done
      simp
    · cases done
      exact special
  · simp only [setQueryResp, setQuery] at done
    split at done
    · cases done
      simp
    · cases done
      exact special
  · simp only [setDataOut, setTransfer] at done
    split at done
    · cases done
      simp
    · cases done
      exact special
  · simp only [setDataIn, setTransfer] at done
    split at done
    · cases done
      simp
    · cases done
      exact special
  · simp only [setReadyToTransfer] at done
    split at done
    · cases done
      simp
    · cases done
      exact special

theorem receive_plain {memory : Query} {upiu sent : UPIU}
    (fields : upiu.fields = .plain)
    (done : upiu.get buffer length = .ok (sent, written, true)) :
    receive memory written length = .ok (sent, true) ↔
      sent.header.transactionType ∉ classes ∧
        sent.header.transactionType &&& 0x3F =
          sent.header.transactionType := by
  simp only [UPIU.get, fields, UPIUHeader.get] at done
  split at done
  · next long =>
      cases done
      have masked : upiu.header.transactionType &&& 0x3F &&& 0x3F =
          upiu.header.transactionType &&& 0x3F := by
        rw [UInt8.and_assoc]
        rfl
      have read : UPIUHeader.parse (buffer.write 0 upiu.header.bytes) =
          upiu.header.coded (upiu.header.transactionType &&& 0x3F) :=
        UPIUHeader.parse_write upiu.header buffer
      rw [receive_coded read masked rfl]
      constructor
      · intro same
        have outside : upiu.header.transactionType &&& 0x3F ∉ classes := by
          intro inside
          exact UPIU.set_class same (getUPIU_class inside) fields
        rw [getUPIU_plain outside] at same
        simp only [UPIU.set, UPIUHeader.set, if_pos long, read] at same
        have header := congrArg (·.1.header.transactionType)
          (Except.ok.inj same)
        exact ⟨by rw [← header]; exact outside, header⟩
      · intro same
        rw [same.2, getUPIU_plain same.1]
        simp only [UPIU.set, UPIUHeader.set, if_pos long, read, same.2]
        cases upiu
        cases fields
        rfl
  · cases done

theorem UPIU.get_fields {upiu sent : UPIU}
    (done : upiu.get buffer length = .ok (sent, written, true)) :
    sent.fields = upiu.fields := by
  simp only [get] at done
  split at done
  · simp only [UPIUHeader.get] at done
    split at done
    · cases done
      rfl
    · cases done
  all_goals
    obtain ⟨_, rfl, _⟩ := getWith_ok done
    rfl

/-- A unit is read as it was written exactly when its bytes say all of it; one
that is ready to transfer never is. -/
theorem receive_sent_iff {memory : Query} {upiu sent : UPIU}
    (done : upiu.get buffer length = .ok (sent, written, true)) :
    receive memory written length = .ok (sent, true) ↔ sent.Canonical := by
  have kept := UPIU.get_fields done
  cases fields : upiu.fields with
  | plain =>
      rw [receive_plain fields done, UPIU.Canonical, kept, fields]
  | command expectedDataLength cdb =>
      rw [receive_command fields done, UPIU.Canonical, kept, fields]
      simp
  | response residualCount senseLength senseData =>
      rw [receive_response fields done, UPIU.Canonical, kept, fields]
  | queryReq query =>
      simp only [UPIU.get, fields] at done
      rw [(receive_query fields (by decide) rfl rfl Fields.queryReq.inj
        done).1, UPIU.Canonical, kept, fields]
  | queryResp query =>
      simp only [UPIU.get, fields] at done
      rw [(receive_query fields (by decide) rfl rfl Fields.queryResp.inj
        done).1, UPIU.Canonical, kept, fields]
  | dataOut transfer =>
      simp only [UPIU.get, fields] at done
      rw [receive_transfer fields (by decide) rfl rfl Fields.dataOut.inj done,
        UPIU.Canonical, kept, fields]
  | dataIn transfer =>
      simp only [UPIU.get, fields] at done
      rw [receive_transfer fields (by decide) rfl rfl Fields.dataIn.inj done,
        UPIU.Canonical, kept, fields]
  | readyToTransfer offset count =>
      rw [receive_readyToTransfer fields done, UPIU.Canonical, kept, fields]
      simp

def UPIU.described : UPIU :=
  ⟨{ UPIUHeader.zero with dataSegmentLength := 2 },
    .queryResp ⟨1, 0, 0, 0, 31, 0, 0, some [31, 0]⟩⟩

theorem receive_sent_iff_described :
    ∃ sent written, UPIU.described.get (fun _ => 0) 34 =
        .ok (sent, written, true) ∧
      receive ⟨0, 0, 0, 0, 0, 0, 0, none⟩ written 34 = .ok (sent, true) := by
  obtain ⟨written, done⟩ : ∃ written, UPIU.described.get (fun _ => 0) 34 =
      .ok (⟨UPIU.described.header.coded OPCODE_QUERY_RESPONSE,
        UPIU.described.fields⟩, written, true) := ⟨_, rfl⟩
  exact ⟨_, written, done, (receive_sent_iff done).mpr ⟨[31, 0], rfl, rfl⟩⟩

end

end SimpleSSD.HIL.UFS
