import SimpleSSD.Data.Pages
import SimpleSSD.HIL.NVMe.ChunkAddress
import SimpleSSD.PAL.Address
import SimpleSSD.PAL.Config

namespace SimpleSSD.HIL.NVMe.OpenChannel

open Data PAL

/-! The chunks of an open-channel SSD, and the flash behind them. -/

inductive ChunkState where
  | free
  | closed
  | opened
  | offline
  deriving DecidableEq, Repr

structure ChunkDescriptor where
  chunkState : ChunkState
  chunkType : UInt8
  slba : UInt64
  nlb : UInt64
  writePointer : UInt64
  deriving DecidableEq, Repr

/-- What the internal operations change of a completion entry: `code` is that
of an error in media and data integrity. -/
structure Reply where
  code : Option UInt8
  dword0 : UInt32
  reserved : UInt32
  deriving DecidableEq, Repr

structure OpenChannelSSD20 where
  param : Parameter
  useMP : Bool
  geometry : Geometry
  ppaMask : Mask
  pDescriptor : List ChunkDescriptor

/-- `ChunkUpdateEntry` and the address it comes with; `pDesc` is a place in the
table. -/
structure ChunkUpdateEntry where
  pDesc : Nat
  pageIdx : UInt32
  cell : CPDPBP
  deriving DecidableEq, Repr

def lbaSize : UInt32 := 4096

def superPageSize (param : Parameter) (useMP : Bool) : UInt32 :=
  if useMP then param.pageSize * param.plane else param.pageSize

def Geometry.ofParameter (param : Parameter) (useMP : Bool) : Geometry where
  group := param.channel
  parallelUnit := param.package * param.die
  chunk := param.block * (if useMP then 1 else param.plane)
  chunkSize := param.page * superPageSize param useMP / lbaSize
  writeSize := superPageSize param useMP / lbaSize

def Geometry.descriptorIndex (geometry : Geometry) (g p c : UInt32) : UInt32 :=
  g * geometry.parallelUnit * geometry.chunk + p * geometry.chunk + c

namespace OpenChannelSSD20

def initialDescriptor (geometry : Geometry) (ppaMask : Mask)
    (g p c : Nat) : ChunkDescriptor where
  chunkState := .free
  chunkType := 0x01
  slba := ppaMask.makeLBA (UInt32.ofNat g) (UInt32.ofNat p) (UInt32.ofNat c) 0
  nlb := geometry.chunkSize.toUInt64
  writePointer := 0

def init (param : Parameter) (useMP : Bool) : OpenChannelSSD20 :=
  let geometry := Geometry.ofParameter param useMP
  let ppaMask := geometry.ppaMask
  { param := param
    useMP := useMP
    geometry := geometry
    ppaMask := ppaMask
    pDescriptor := (List.range geometry.group.toNat).flatMap fun g =>
      (List.range geometry.parallelUnit.toNat).flatMap fun p =>
        (List.range geometry.chunk.toNat).map fun c =>
          initialDescriptor geometry ppaMask g p c }

variable (device : OpenChannelSSD20)

/-- `convert` of one block, before it is compared with the last one. -/
def entryOf (lba : UInt64) : ChunkUpdateEntry :=
  let found := device.ppaMask.parseLBA lba
  let page := found.l / device.geometry.writeSize
  { pDesc := (device.geometry.descriptorIndex found.g found.p found.c).toNat
    pageIdx := page
    cell := {
      channel := found.g.toNat
      package := (found.p / device.param.die).toNat
      die := (found.p % device.param.die).toNat
      plane := if device.useMP then 0 else (found.c % device.param.plane).toNat
      block :=
        if device.useMP then found.c.toNat
        else (found.c / device.param.plane).toNat
      page := page.toNat } }

def sameBlock (back temp : CPDPBP) : Bool :=
  back.channel == temp.channel && back.package == temp.package &&
    back.die == temp.die && back.plane == temp.plane &&
    back.block == temp.block

def convert (block : Bool) (list : List ChunkUpdateEntry) (lba : UInt64) :
    List ChunkUpdateEntry :=
  let temp := device.entryOf lba
  match list.getLast? with
  | some back =>
      if sameBlock back.cell temp.cell &&
          (block || back.cell.page == temp.cell.page) then list
      else list ++ [temp]
  | none => [temp]

/-- The blocks that are listed, or those from the first number on to the second
one. -/
def blocksOf (lbaList : List UInt64) (mode : Bool) : List UInt64 :=
  if mode then lbaList
  else
    match lbaList.head?, lbaList.getLast? with
    | some front, some back =>
        (List.range (back.toNat - front.toNat)).map fun offset =>
          front + UInt64.ofNat offset
    | _, _ => []

def convertUnit (lbaList : List UInt64) (block mode : Bool) :
    List ChunkUpdateEntry :=
  (blocksOf lbaList mode).foldl (device.convert block) []

def mark (err : Bool) (idx : UInt64) (reply : Reply) : Reply :=
  if err then
    if idx ≤ 0xFFFFFFFF then
      { reply with dword0 := reply.dword0 ||| idx.toUInt32 }
    else { reply with reserved := reply.reserved ||| (idx >>> 32).toUInt32 }
  else reply

/-- What the three operations do with a descriptor: whether there is an error
now, with which code, and the descriptor after it. -/
abbrev Check := Bool → ChunkDescriptor → UInt32 →
  Bool × Option UInt8 × ChunkDescriptor

def updateChunks (check : Check) : List ChunkUpdateEntry →
    (pDescriptor : List ChunkDescriptor) → (err : Bool) → (idx : UInt64) →
    Reply → Option (List ChunkDescriptor × Bool × Reply)
  | [], pDescriptor, err, _, reply => some (pDescriptor, err, reply)
  | iter :: rest, pDescriptor, err, idx, reply =>
      pDescriptor[iter.pDesc]?.bind fun desc =>
        let (err, code, desc) := check err desc iter.pageIdx
        updateChunks check rest (pDescriptor.set iter.pDesc desc) err
          (idx <<< 1) (mark err idx { reply with code := code.or reply.code })

def removeInvalid (mask : UInt64) : (idx : UInt64) → List ChunkUpdateEntry →
    List ChunkUpdateEntry
  | _, [] => []
  | idx, iter :: rest =>
      if mask &&& idx ≠ 0 then removeInvalid mask (idx <<< 1) rest
      else iter :: removeInvalid mask (idx <<< 1) rest

/-- What the three operations have in common: the descriptors afterwards, the
reply, and what is left for the flash. -/
def internal (check : Check) (block : Bool) (lbaList : List UInt64)
    (mode : Bool) (reply : Reply) :
    Option (OpenChannelSSD20 × Reply × List ChunkUpdateEntry) :=
  let chunks := device.convertUnit lbaList block mode
  (updateChunks check chunks device.pDescriptor false 1 reply).map
    fun (pDescriptor, err, reply) =>
      let device := { device with pDescriptor := pDescriptor }
      if err then
        let mask := (reply.reserved.toUInt64 <<< 32) ||| reply.dword0.toUInt64
        (device, reply, removeInvalid mask 1 chunks)
      else
        (device, { reply with dword0 := 0xFFFFFFFF, reserved := 0xFFFFFFFF },
          chunks)

/-- A dead block is reported, but is read. -/
def readCheck : Check := fun err desc _ =>
  (err, if desc.chunkState = .offline then some 0x87 else none, desc)

def writeCheck : Check := fun err desc pageIdx =>
  let err :=
    match desc.chunkState with
    | .offline | .closed => true
    | .opened =>
        if desc.writePointer / device.geometry.writeSize.toUInt64 >
          pageIdx.toUInt64 then true else err
    | .free => err
  if err then (err, some 0xF2, desc)
  else
    (err, none, { desc with
      writePointer := ((pageIdx + 1) * device.geometry.writeSize).toUInt64
      chunkState :=
        if pageIdx = device.param.page - 1 then .closed else .opened })

/-- An earlier error does not keep a chunk from being reset. -/
def eraseCheck : Check := fun err desc _ =>
  match desc.chunkState with
  | .offline => (true, some 0xC0, desc)
  | .free | .opened => (true, some 0xC1, desc)
  | .closed =>
      (err, none, { desc with writePointer := 0, chunkState := .free })

def readInternal (lbaList : List UInt64) (mode : Bool) (reply : Reply) :
    Option (OpenChannelSSD20 × Reply × List ChunkUpdateEntry) :=
  device.internal readCheck false lbaList mode reply

def writeInternal (lbaList : List UInt64) (mode : Bool) (reply : Reply) :
    Option (OpenChannelSSD20 × Reply × List ChunkUpdateEntry) :=
  device.internal device.writeCheck false lbaList mode reply

def eraseInternal (lbaList : List UInt64) (mode : Bool) (reply : Reply) :
    Option (OpenChannelSSD20 × Reply × List ChunkUpdateEntry) :=
  device.internal eraseCheck true lbaList mode
    { reply with dword0 := 0, reserved := 0 }

end OpenChannelSSD20

end SimpleSSD.HIL.NVMe.OpenChannel
