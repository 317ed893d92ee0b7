import Mathlib.Algebra.Ring.Nat
import Mathlib.Data.List.AList
import SimpleSSD.Data.Store

namespace SimpleSSD.Util

open Data

/-! Disk images: a file, a file that is never written to, and memory. -/

/-- `memcpy` to a place in a file, which grows where it is too short. -/
def overwrite (file : List UInt8) (offset : Nat) (bytes : List UInt8) :
    List UInt8 :=
  file.take offset ++ List.replicate (offset - file.length) 0 ++ bytes ++
    file.drop (offset + bytes.length)

theorem length_le_overwrite (file : List UInt8) (offset : Nat)
    (bytes : List UInt8) :
    file.length ≤ (overwrite file offset bytes).length := by
  simp only [overwrite, List.length_append, List.length_take,
    List.length_replicate, List.length_drop]
  omega

def fileStore (file : List UInt8) : Store UInt8 :=
  fun index => (file[index]?).getD 0

theorem fileStore_overwrite (file : List UInt8) (offset : Nat)
    (bytes : List UInt8) :
    fileStore (overwrite file offset bytes) =
      (fileStore file).write offset bytes := by
  funext index
  have taken : (file.take offset ++
      List.replicate (offset - file.length) (0 : UInt8)).length = offset := by
    simp only [List.length_append, List.length_take, List.length_replicate]
    omega
  simp only [fileStore, overwrite, Store.write, Store.written]
  rcases Nat.lt_or_ge index offset with before | from_offset
  · rw [if_neg (Nat.not_le.mpr before), Option.getD_none,
      List.getElem?_append_left (by rw [List.length_append, taken]; omega),
      List.getElem?_append_left (by rw [taken]; exact before)]
    rcases Nat.lt_or_ge index file.length with inside | behind
    · rw [List.getElem?_append_left (by rw [List.length_take]; omega),
        List.getElem?_take_of_lt before]
    · rw [List.getElem?_append_right (by rw [List.length_take]; omega),
        List.getElem?_replicate, List.getElem?_eq_none behind]
      split <;> rfl
  · rw [if_pos from_offset]
    rcases Nat.lt_or_ge index (offset + bytes.length) with inside | behind
    · rw [List.getElem?_append_left (by rw [List.length_append, taken]; omega),
        List.getElem?_append_right (by rw [taken]; exact from_offset), taken,
        List.getElem?_eq_getElem (by omega)]
      rfl
    · rw [List.getElem?_append_right (by rw [List.length_append, taken]; omega),
        List.length_append, taken, List.getElem?_drop,
        List.getElem?_eq_none (l := bytes) (by omega), Option.getD_none]
      congr 2
      omega

/-- `file` is what the stream is opened on. -/
structure Disk where
  diskSize : UInt64
  sectorSize : UInt32
  file : List UInt8
  positive : 0 < sectorSize.toNat
  covers : diskSize.toNat ≤ file.length

namespace Disk

/-- `open` of a file that exists, or of a file that is created. -/
def «open» (found : Option (List UInt8)) (desiredSize : UInt64)
    (lbaSize : UInt32) (positive : 0 < lbaSize.toNat) : Disk :=
  match found with
  | some file =>
      { diskSize := UInt64.ofNat file.length, sectorSize := lbaSize
        file := file, positive := positive
        covers := by
          rw [UInt64.toNat_ofNat']
          exact Nat.mod_le _ _ }
  | none =>
      { diskSize := desiredSize, sectorSize := lbaSize
        file := List.replicate desiredSize.toNat 0, positive := positive
        covers := by rw [List.length_replicate] }

/-- A stream cannot seek behind `2 ^ 63`, and fails from then on. -/
def read (disk : Disk) (slba : UInt64) (nlblk : UInt16) :
    Option (List UInt8 × UInt16) :=
  let slba := slba * disk.sectorSize.toUInt64
  let length := (nlblk.toUInt32 * disk.sectorSize).toUInt64
  let avail :=
    if slba + length > disk.diskSize then
      if slba ≥ disk.diskSize then 0 else disk.diskSize - slba
    else length
  if avail = 0 ∨ slba.toNat < 2 ^ 63 then
    some ((disk.file.drop slba.toNat).take avail.toNat ++
      List.replicate (length - avail).toNat 0, nlblk)
  else none

def write (disk : Disk) (slba : UInt64) (nlblk : UInt16)
    (buffer : List UInt8) : Option (Disk × UInt16) :=
  let slba := slba * disk.sectorSize.toUInt64
  let length := disk.sectorSize * nlblk.toUInt32
  if slba.toNat + length.toNat < 2 ^ 63 then
    some ({ disk with
      file := overwrite disk.file slba.toNat (buffer.take length.toNat)
      covers := Nat.le_trans disk.covers (length_le_overwrite _ _ _) },
      (length / disk.sectorSize).toUInt16)
  else none

def erase (_slba : UInt64) (nlblk : UInt16) : UInt16 := nlblk

end Disk

abbrev Sector (size : Nat) := { bytes : List UInt8 // bytes.length = size }

def Sector.copy (size : Nat) (buffer : List UInt8) : Sector size where
  val := (buffer.take size).rightpad size 0
  property := by
    rw [List.length_rightpad, List.length_take]
    omega

theorem Sector.copy_val (size : Nat) (buffer : List UInt8)
    (enough : size ≤ buffer.length) :
    (Sector.copy size buffer).val = buffer.take size := by
  simp only [Sector.copy, List.rightpad, List.length_take]
  rw [Nat.min_eq_left enough, Nat.sub_self, List.replicate_zero,
    List.append_nil]

abbrev Table (size : Nat) := AList fun _ : Nat => Sector size

/-- The loop of a read, `sector` being what is read of one block. -/
def readSectors (sector : UInt64 → Option (List UInt8 × UInt16)) :
    (slba : UInt64) → (left : Nat) → Option (List UInt8 × UInt16)
  | _, 0 => some ([], 0)
  | slba, left + 1 => do
      let (block, read) ← sector slba
      let (rest, more) ← readSectors sector (slba + 1) left
      return (block ++ rest, read + more)

/-- The loop of a write: a sector that is found is overwritten, another one is
inserted. -/
def writeSectors {size : Nat} : (table : Table size) → (slba : UInt64) →
    (left : Nat) → (buffer : List UInt8) → Table size × UInt16
  | table, _, 0, _ => (table, 0)
  | table, slba, left + 1, buffer =>
      let (after, write) := writeSectors
        (table.insert slba.toNat (Sector.copy size buffer)) (slba + 1) left
        (buffer.drop size)
      (after, write + 1)

def eraseSectors {size : Nat} : (table : Table size) → (slba : UInt64) →
    (left : Nat) → Table size × UInt16
  | table, _, 0 => (table, 0)
  | table, slba, left + 1 =>
      let (after, erase) := eraseSectors (table.erase slba.toNat) (slba + 1) left
      (after, erase + 1)

structure CoWDisk extends Disk where
  table : Table sectorSize.toNat

namespace CoWDisk

def «open» (found : Option (List UInt8)) (desiredSize : UInt64)
    (lbaSize : UInt32) (positive : 0 < lbaSize.toNat) : CoWDisk where
  toDisk := Disk.open found desiredSize lbaSize positive
  table := ∅

def readSector (disk : CoWDisk) (slba : UInt64) :
    Option (List UInt8 × UInt16) :=
  match disk.table.lookup slba.toNat with
  | some block => some (block.val, 1)
  | none => disk.toDisk.read slba 1

def read (disk : CoWDisk) (slba : UInt64) (nlblk : UInt16) :
    Option (List UInt8 × UInt16) :=
  readSectors disk.readSector slba nlblk.toNat

def write (disk : CoWDisk) (slba : UInt64) (nlblk : UInt16)
    (buffer : List UInt8) : CoWDisk × UInt16 :=
  let (table, write) := writeSectors disk.table slba nlblk.toNat buffer
  ({ disk with table := table }, write)

end CoWDisk

structure MemDisk where
  diskSize : UInt64
  sectorSize : UInt32
  positive : 0 < sectorSize.toNat
  table : Table sectorSize.toNat

namespace MemDisk

def «open» (size : UInt64) (lbaSize : UInt32) (positive : 0 < lbaSize.toNat) :
    MemDisk where
  diskSize := size
  sectorSize := lbaSize
  positive := positive
  table := ∅

def readSector (disk : MemDisk) (slba : UInt64) :
    Option (List UInt8 × UInt16) :=
  match disk.table.lookup slba.toNat with
  | some block => some (block.val, 1)
  | none => some (List.replicate disk.sectorSize.toNat 0, 1)

def read (disk : MemDisk) (slba : UInt64) (nlblk : UInt16) :
    Option (List UInt8 × UInt16) :=
  readSectors disk.readSector slba nlblk.toNat

def write (disk : MemDisk) (slba : UInt64) (nlblk : UInt16)
    (buffer : List UInt8) : MemDisk × UInt16 :=
  let (table, write) := writeSectors disk.table slba nlblk.toNat buffer
  ({ disk with table := table }, write)

def erase (disk : MemDisk) (slba : UInt64) (nlblk : UInt16) :
    MemDisk × UInt16 :=
  let (table, erase) := eraseSectors disk.table slba nlblk.toNat
  ({ disk with table := table }, erase)

end MemDisk

/-- What `pDisk` points to. -/
inductive Image where
  | disk (found : Disk)
  | cow (found : CoWDisk)
  | mem (found : MemDisk)

namespace Image

def sectorSize : Image → UInt32
  | .disk found => found.sectorSize
  | .cow found => found.sectorSize
  | .mem found => found.sectorSize

def read (slba : UInt64) (nlblk : UInt16) :
    Image → Option (List UInt8 × UInt16)
  | .disk found => found.read slba nlblk
  | .cow found => found.read slba nlblk
  | .mem found => found.read slba nlblk

def write (slba : UInt64) (nlblk : UInt16) (buffer : List UInt8) :
    Image → Option (Image × UInt16)
  | .disk found => (found.write slba nlblk buffer).map fun (after, write) =>
      (.disk after, write)
  | .cow found =>
      let (after, write) := found.write slba nlblk buffer
      some (.cow after, write)
  | .mem found =>
      let (after, write) := found.write slba nlblk buffer
      some (.mem after, write)

/-- Only a disk in memory has an `erase` of its own. -/
def erase (slba : UInt64) (nlblk : UInt16) : Image → Image × UInt16
  | .disk found => (.disk found, Disk.erase slba nlblk)
  | .cow found => (.cow found, Disk.erase slba nlblk)
  | .mem found =>
      let (after, erase) := found.erase slba nlblk
      (.mem after, erase)

end Image

end SimpleSSD.Util
