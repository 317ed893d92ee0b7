import SimpleSSD.Util.Disk

namespace SimpleSSD.Util

open Data

/-! What a disk image holds, byte by byte. -/

/-- The bytes have addresses that a stream can seek to, and their number is one
of 32 bits. -/
structure Fits (sectorSize : UInt32) (slba : UInt64) (nlblk : Nat) : Prop where
  seekable : (slba.toNat + nlblk) * sectorSize.toNat < 2 ^ 63
  counted : nlblk * sectorSize.toNat < 2 ^ 32

instance (sectorSize : UInt32) (slba : UInt64) (nlblk : Nat) :
    Decidable (Fits sectorSize slba nlblk) :=
  decidable_of_iff ((slba.toNat + nlblk) * sectorSize.toNat < 2 ^ 63 ∧
      nlblk * sectorSize.toNat < 2 ^ 32)
    ⟨fun ⟨seekable, counted⟩ => ⟨seekable, counted⟩,
      fun fits => ⟨fits.seekable, fits.counted⟩⟩

namespace Fits

variable {sectorSize : UInt32} {slba : UInt64} {nlblk : Nat}

theorem first (fits : Fits sectorSize slba nlblk) :
    (slba * sectorSize.toUInt64).toNat =
      slba.toNat * sectorSize.toNat := by
  have seekable := fits.seekable
  rw [Nat.add_mul] at seekable
  rw [UInt64.toNat_mul, UInt32.toNat_toUInt64]
  exact Nat.mod_eq_of_lt (by omega)

theorem last (fits : Fits sectorSize slba nlblk) :
    slba.toNat * sectorSize.toNat + nlblk * sectorSize.toNat < 2 ^ 63 := by
  rw [← Nat.add_mul]
  exact fits.seekable

theorem next (fits : Fits sectorSize slba (nlblk + 1))
    (positive : 0 < sectorSize.toNat) :
    (slba + 1).toNat = slba.toNat + 1 := by
  have below : slba.toNat + (nlblk + 1) < 2 ^ 63 :=
    Nat.lt_of_le_of_lt (Nat.le_mul_of_pos_right _ positive) fits.seekable
  rw [UInt64.toNat_add]
  exact Nat.mod_eq_of_lt (by simp only [UInt64.toNat_one]; omega)

theorem rest (fits : Fits sectorSize slba (nlblk + 1))
    (positive : 0 < sectorSize.toNat) : Fits sectorSize (slba + 1) nlblk where
  seekable := by
    rw [fits.next positive, Nat.add_assoc, Nat.add_comm 1 nlblk]
    exact fits.seekable
  counted := by
    have counted := fits.counted
    rw [Nat.succ_mul] at counted
    omega

theorem one (fits : Fits sectorSize slba (nlblk + 1)) :
    Fits sectorSize slba 1 where
  seekable := by
    apply Nat.lt_of_le_of_lt _ fits.seekable
    exact Nat.mul_le_mul_right _ (by omega)
  counted := by
    apply Nat.lt_of_le_of_lt _ fits.counted
    exact Nat.mul_le_mul_right _ (by omega)

end Fits

namespace Disk

def contents (disk : Disk) : Store UInt8 :=
  fun index =>
    if index < disk.diskSize.toNat then fileStore disk.file index else 0

theorem length_toNat {disk : Disk} {slba : UInt64} {nlblk : UInt16}
    (fits : Fits disk.sectorSize slba nlblk.toNat) :
    (nlblk.toUInt32 * disk.sectorSize).toNat =
      nlblk.toNat * disk.sectorSize.toNat := by
  rw [UInt32.toNat_mul, UInt16.toNat_toUInt32]
  exact Nat.mod_eq_of_lt fits.counted

theorem read_eq {disk : Disk} {slba : UInt64} {nlblk : UInt16}
    (fits : Fits disk.sectorSize slba nlblk.toNat) :
    disk.read slba nlblk =
      some (disk.contents.read (slba.toNat * disk.sectorSize.toNat)
        (nlblk.toNat * disk.sectorSize.toNat), nlblk) := by
  have first := fits.first
  have last := fits.last
  have length := length_toNat fits
  have covers := disk.covers
  have seekable : (slba * disk.sectorSize.toUInt64).toNat < 2 ^ 63 := by
    omega
  simp only [Disk.read]
  rw [if_pos (.inr seekable)]
  congr 2
  generalize slba * disk.sectorSize.toUInt64 = start at *
  generalize nlblk.toUInt32 * disk.sectorSize = amount at *
  have total : (start + amount.toUInt64).toNat =
      start.toNat + amount.toNat := by
    rw [UInt64.toNat_add, UInt32.toNat_toUInt64]
    exact Nat.mod_eq_of_lt (by omega)
  have avail : (if start + amount.toUInt64 > disk.diskSize then
      if start ≥ disk.diskSize then 0 else disk.diskSize - start
      else amount.toUInt64).toNat =
      min amount.toNat (disk.diskSize.toNat - start.toNat) := by
    split
    · next clipped =>
        have clipped := UInt64.lt_iff_toNat_lt.mp clipped
        split
        · next behind =>
            have behind := UInt64.le_iff_toNat_le.mp behind
            simp only [UInt64.toNat_zero]
            omega
        · next inside =>
            have inside := UInt64.lt_iff_toNat_lt.mp (UInt64.not_le.mp inside)
            rw [UInt64.toNat_sub_of_le _ _
              (UInt64.le_iff_toNat_le.mpr (Nat.le_of_lt inside))]
            omega
    · next whole =>
        have whole := UInt64.le_iff_toNat_le.mp (UInt64.not_lt.mp whole)
        rw [UInt32.toNat_toUInt64]
        omega
  generalize (if start + amount.toUInt64 > disk.diskSize then
      if start ≥ disk.diskSize then 0 else disk.diskSize - start
      else amount.toUInt64) = taken at *
  have zeros : (amount.toUInt64 - taken).toNat =
      amount.toNat - taken.toNat := by
    rw [UInt64.toNat_sub_of_le, UInt32.toNat_toUInt64]
    rw [UInt64.le_iff_toNat_le, UInt32.toNat_toUInt64]
    omega
  rw [zeros, ← first, ← length, avail]
  apply List.ext_getElem?
  intro offset
  rw [Store.getElem?_read]
  split
  · next inside =>
      simp only [contents, fileStore]
      split
      · next held =>
          rw [List.getElem?_append_left
              (by rw [List.length_take, List.length_drop]; omega),
            List.getElem?_take_of_lt (by omega), List.getElem?_drop,
            List.getElem?_eq_getElem (by omega), Option.getD_some]
      · next behind =>
          rw [List.getElem?_append_right
              (by rw [List.length_take, List.length_drop]; omega),
            List.getElem?_replicate, if_pos]
          rw [List.length_take, List.length_drop]
          omega
  · next outside =>
      rw [List.getElem?_eq_none]
      rw [List.length_append, List.length_take, List.length_drop,
        List.length_replicate]
      omega

theorem write_eq {disk : Disk} {slba : UInt64} {nlblk : UInt16}
    {buffer : List UInt8} (fits : Fits disk.sectorSize slba nlblk.toNat)
    (filled : buffer.length = nlblk.toNat * disk.sectorSize.toNat) :
    ∃ after, disk.write slba nlblk buffer = some (after, nlblk) ∧
      after.diskSize = disk.diskSize ∧ after.sectorSize = disk.sectorSize ∧
      after.file = overwrite disk.file
        (slba.toNat * disk.sectorSize.toNat) buffer := by
  have first := fits.first
  have last := fits.last
  have length := length_toNat fits
  rw [UInt32.mul_comm] at length
  have blocks : (disk.sectorSize * nlblk.toUInt32 / disk.sectorSize).toUInt16 =
      nlblk := by
    apply UInt16.toNat_inj.mp
    rw [UInt32.toNat_toUInt16, UInt32.toNat_div, length,
      Nat.mul_div_cancel _ disk.positive]
    exact Nat.mod_eq_of_lt nlblk.toNat_lt
  simp only [Disk.write, blocks, first, length]
  rw [if_pos last]
  refine ⟨_, rfl, rfl, rfl, ?_⟩
  dsimp only
  rw [List.take_of_length_le (Nat.le_of_eq filled)]

end Disk

namespace Table

variable {size : Nat}

/-- A sector that is not in memory is as in `below`. -/
def block (table : Table size) (below : Nat → List UInt8) (position : Nat) :
    List UInt8 :=
  match table.lookup position with
  | some sector => sector.val
  | none => below position

theorem block_length {table : Table size} {below : Nat → List UInt8}
    (sized : ∀ position, (below position).length = size) (position : Nat) :
    (table.block below position).length = size := by
  simp only [block]
  split
  · next sector _ => exact sector.property
  · exact sized position

theorem block_insert (table : Table size) (below : Nat → List UInt8)
    (position : Nat) (sector : Sector size) :
    block (table.insert position sector) below =
      Function.update (table.block below) position sector.val := by
  funext other
  by_cases same : other = position
  · subst same
    rw [Function.update_self, block, AList.lookup_insert]
  · rw [Function.update_of_ne same, block, AList.lookup_insert_ne same, block]

theorem block_erase (table : Table size) (below : Nat → List UInt8)
    (position : Nat) :
    block (table.erase position) below =
      Function.update (table.block below) position (below position) := by
  funext other
  by_cases same : other = position
  · subst same
    rw [Function.update_self, block, AList.lookup_erase]
  · rw [Function.update_of_ne same, block, AList.lookup_erase_ne same, block]

def contents (table : Table size) (below : Nat → List UInt8) : Store UInt8 :=
  Store.ofBlocks size (table.block below) 0

end Table

variable {sectorSize : UInt32} {slba : UInt64} {left : Nat}

theorem readSectors_eq {sector : UInt64 → Option (List UInt8 × UInt16)}
    (store : Store UInt8) (positive : 0 < sectorSize.toNat)
    (each : ∀ lba, Fits sectorSize lba 1 → sector lba =
      some (store.read (lba.toNat * sectorSize.toNat) sectorSize.toNat, 1))
    (fits : Fits sectorSize slba left) :
    readSectors sector slba left =
      some (store.read (slba.toNat * sectorSize.toNat)
        (left * sectorSize.toNat), UInt16.ofNat left) := by
  induction left generalizing slba with
  | zero => simp [readSectors, Store.read]
  | succ left induction =>
      have next := fits.next positive
      simp only [readSectors, each slba fits.one,
        induction (fits.rest positive), Option.bind_eq_bind, Option.bind_some,
        Option.pure_def]
      rw [Nat.succ_mul, Nat.add_comm (left * _), Store.read_add, next,
        Nat.succ_mul]
      congr 2
      rw [UInt16.ofNat_add, UInt16.add_comm]
      rfl

theorem writeSectors_eq (table : Table sectorSize.toNat)
    (below : Nat → List UInt8) (buffer : List UInt8) (positive : 0 < sectorSize.toNat)
    (fits : Fits sectorSize slba left)
    (filled : buffer.length = left * sectorSize.toNat) :
    (writeSectors table slba left buffer).2 = UInt16.ofNat left ∧
      (writeSectors table slba left buffer).1.contents below =
        (table.contents below).write (slba.toNat * sectorSize.toNat)
          buffer := by
  induction left generalizing slba table buffer with
  | zero =>
      rw [Nat.zero_mul] at filled
      rw [List.eq_nil_of_length_eq_zero filled, Store.write_nil]
      exact ⟨rfl, rfl⟩
  | succ left induction =>
      rw [Nat.succ_mul] at filled
      have next := fits.next positive
      have copied := Sector.copy_val sectorSize.toNat buffer (by omega)
      have front : (buffer.take sectorSize.toNat).length =
          sectorSize.toNat := by
        rw [List.length_take]
        omega
      obtain ⟨count, contents⟩ := induction
        (table.insert slba.toNat (Sector.copy _ buffer))
        (buffer.drop sectorSize.toNat) (fits.rest positive)
        (by rw [List.length_drop]; omega)
      constructor
      · simp only [writeSectors, count]
        rw [UInt16.ofNat_add]
        rfl
      · simp only [writeSectors, contents, next]
        rw [Table.contents, Table.block_insert, copied,
          ← Store.write_ofBlocks positive front, ← Table.contents]
        conv => rhs; rw [← List.take_append_drop sectorSize.toNat buffer]
        rw [Store.write_append, front, Nat.succ_mul]

theorem eraseSectors_eq (table : Table sectorSize.toNat)
    (positive : 0 < sectorSize.toNat) (fits : Fits sectorSize slba left) :
    let zeros := fun _ => List.replicate sectorSize.toNat 0
    (eraseSectors table slba left).2 = UInt16.ofNat left ∧
      (eraseSectors table slba left).1.contents zeros =
        (table.contents zeros).write (slba.toNat * sectorSize.toNat)
          (List.replicate (left * sectorSize.toNat) 0) := by
  intro zeros
  induction left generalizing slba table with
  | zero =>
      rw [Nat.zero_mul, List.replicate_zero, Store.write_nil]
      exact ⟨rfl, rfl⟩
  | succ left induction =>
      have next := fits.next positive
      obtain ⟨count, contents⟩ := induction (table.erase slba.toNat)
        (fits.rest positive)
      constructor
      · simp only [eraseSectors, count]
        rw [UInt16.ofNat_add]
        rfl
      · simp only [eraseSectors, contents, next]
        rw [Table.contents, Table.block_erase,
          ← Store.write_ofBlocks positive List.length_replicate,
          ← Table.contents, Nat.succ_mul left, Nat.add_comm (left * _),
          ← List.replicate_append_replicate, Store.write_append,
          List.length_replicate, Nat.succ_mul]

theorem Disk.write_contents {disk after : Disk} {offset : Nat}
    {bytes : List UInt8} (size : after.diskSize = disk.diskSize)
    (file : after.file = overwrite disk.file offset bytes) :
    after.contents =
      disk.contents.write offset
        (bytes.take (disk.diskSize.toNat - offset)) := by
  funext index
  simp only [Disk.contents, size, file, fileStore_overwrite]
  split
  · next inside =>
      have held : disk.contents index = fileStore disk.file index :=
        if_pos inside
      simp only [Store.write, Store.written, held]
      split
      · next from_offset => rw [List.getElem?_take_of_lt (by omega)]
      · rfl
  · next outside =>
      rw [Store.write_outside]
      · exact (if_neg outside).symm
      · rw [List.length_take]
        omega

def CoWDisk.below (disk : CoWDisk) (position : Nat) : List UInt8 :=
  disk.toDisk.contents.read (position * disk.sectorSize.toNat)
    disk.sectorSize.toNat

def CoWDisk.contents (disk : CoWDisk) : Store UInt8 :=
  disk.table.contents disk.below

def MemDisk.below (disk : MemDisk) (_position : Nat) : List UInt8 :=
  List.replicate disk.sectorSize.toNat 0

def MemDisk.contents (disk : MemDisk) : Store UInt8 :=
  disk.table.contents disk.below

theorem CoWDisk.read_eq {disk : CoWDisk} {slba : UInt64} {nlblk : UInt16}
    (fits : Fits disk.sectorSize slba nlblk.toNat) :
    disk.read slba nlblk =
      some (disk.contents.read (slba.toNat * disk.sectorSize.toNat)
        (nlblk.toNat * disk.sectorSize.toNat), nlblk) := by
  simp only [CoWDisk.read]
  rw [readSectors_eq disk.contents disk.positive _ fits,
    UInt16.ofNat_toNat]
  intro lba one
  simp only [CoWDisk.contents, Table.contents]
  rw [Store.read_ofBlocks (Table.block_length (by simp [CoWDisk.below]) _)]
  simp only [CoWDisk.readSector, Table.block]
  cases disk.table.lookup lba.toNat with
  | some block => rfl
  | none =>
      dsimp only [CoWDisk.below]
      rw [Disk.read_eq one, UInt16.toNat_one, Nat.one_mul]

theorem MemDisk.read_eq {disk : MemDisk} {slba : UInt64} {nlblk : UInt16}
    (fits : Fits disk.sectorSize slba nlblk.toNat) :
    disk.read slba nlblk =
      some (disk.contents.read (slba.toNat * disk.sectorSize.toNat)
        (nlblk.toNat * disk.sectorSize.toNat), nlblk) := by
  simp only [MemDisk.read]
  rw [readSectors_eq disk.contents disk.positive _ fits,
    UInt16.ofNat_toNat]
  intro lba one
  simp only [MemDisk.contents, Table.contents]
  rw [Store.read_ofBlocks (Table.block_length (by simp [MemDisk.below]) _)]
  simp only [MemDisk.readSector, Table.block]
  cases disk.table.lookup lba.toNat with
  | some block => rfl
  | none => rfl

namespace Image

def contents : Image → Store UInt8
  | .disk found => found.contents
  | .cow found => found.contents
  | .mem found => found.contents

def kept (offset : Nat) (bytes : List UInt8) : Image → List UInt8
  | .disk found => bytes.take (found.diskSize.toNat - offset)
  | .cow _ | .mem _ => bytes

def erased (nlblk : UInt16) : Image → List UInt8
  | .disk _ | .cow _ => []
  | .mem found =>
      List.replicate (nlblk.toNat * found.sectorSize.toNat) 0

variable {image : Image} {slba : UInt64} {nlblk : UInt16}

theorem read_eq (fits : Fits image.sectorSize slba nlblk.toNat) :
    image.read slba nlblk =
      some (image.contents.read (slba.toNat * image.sectorSize.toNat)
        (nlblk.toNat * image.sectorSize.toNat), nlblk) := by
  cases image with
  | disk found => exact Disk.read_eq fits
  | cow found => exact CoWDisk.read_eq fits
  | mem found => exact MemDisk.read_eq fits

/-- A write says that every block is written, and keeps the sectors' size. -/
theorem write_eq {buffer : List UInt8}
    (fits : Fits image.sectorSize slba nlblk.toNat)
    (filled : buffer.length = nlblk.toNat * image.sectorSize.toNat) :
    ∃ after, image.write slba nlblk buffer = some (after, nlblk) ∧
      after.sectorSize = image.sectorSize ∧
      after.contents = image.contents.write
        (slba.toNat * image.sectorSize.toNat)
        (image.kept (slba.toNat * image.sectorSize.toNat) buffer) := by
  cases image with
  | disk found =>
      obtain ⟨after, written, size, sector, file⟩ :=
        Disk.write_eq fits filled
      refine ⟨.disk after, ?_, sector, Disk.write_contents size file⟩
      simp only [Image.write, written, Option.map_some]
  | cow found =>
      obtain ⟨count, contents⟩ := writeSectors_eq found.table found.below
        buffer found.positive fits filled
      refine ⟨.cow (found.write slba nlblk buffer).1, ?_, rfl, contents⟩
      simp only [Image.write, CoWDisk.write, count, UInt16.ofNat_toNat]
  | mem found =>
      obtain ⟨count, contents⟩ := writeSectors_eq found.table found.below
        buffer found.positive fits filled
      refine ⟨.mem (found.write slba nlblk buffer).1, ?_, rfl, contents⟩
      simp only [Image.write, MemDisk.write, count, UInt16.ofNat_toNat]

theorem erase_eq (fits : Fits image.sectorSize slba nlblk.toNat) :
    (image.erase slba nlblk).2 = nlblk ∧
      (image.erase slba nlblk).1.sectorSize = image.sectorSize ∧
      (image.erase slba nlblk).1.contents = image.contents.write
        (slba.toNat * image.sectorSize.toNat) (image.erased nlblk) := by
  cases image with
  | disk found => exact ⟨rfl, rfl, (Store.write_nil _ _).symm⟩
  | cow found => exact ⟨rfl, rfl, (Store.write_nil _ _).symm⟩
  | mem found =>
      obtain ⟨count, contents⟩ :=
        eraseSectors_eq found.table found.positive fits
      refine ⟨?_, rfl, contents⟩
      simp only [Image.erase, MemDisk.erase, count, UInt16.ofNat_toNat]

/-- The images after writes and erases, with the bytes that were kept, the
latest first. -/
inductive Keeps (start : Image) : List (Nat × List UInt8) → Image → Prop
  | start : Keeps start [] start
  | write {rows before after slba nlblk buffer count}
      (earlier : Keeps start rows before)
      (fits : Fits before.sectorSize slba nlblk.toNat)
      (filled : buffer.length = nlblk.toNat * before.sectorSize.toNat)
      (written : before.write slba nlblk buffer = some (after, count)) :
      Keeps start ((slba.toNat * before.sectorSize.toNat,
        before.kept (slba.toNat * before.sectorSize.toNat) buffer) :: rows)
        after
  | erase {rows before slba nlblk} (earlier : Keeps start rows before)
      (fits : Fits before.sectorSize slba nlblk.toNat) :
      Keeps start ((slba.toNat * before.sectorSize.toNat,
        before.erased nlblk) :: rows) (before.erase slba nlblk).1

theorem Keeps.contents_eq {start : Image} {rows : List (Nat × List UInt8)}
    (keeps : Keeps start rows image) :
    image.contents = start.contents.after rows := by
  induction keeps with
  | start => rfl
  | write earlier fits filled written induction =>
      obtain ⟨after, reached, _, contents⟩ := write_eq fits filled
      rw [written] at reached
      cases reached
      rw [contents, induction, Store.after]
  | erase earlier fits induction =>
      rw [(erase_eq fits).2.2, induction, Store.after]

/-- The disk that is read where nothing was written to a copy of it. -/
def original : Image → Option Disk
  | .cow found => some found.toDisk
  | .disk _ | .mem _ => none

theorem write_original {after : Image} {buffer : List UInt8} {count : UInt16}
    (written : image.write slba nlblk buffer = some (after, count)) :
    after.original = image.original := by
  cases image with
  | disk found =>
      simp only [Image.write, Option.map_eq_some_iff] at written
      obtain ⟨_, _, same⟩ := written
      cases same
      rfl
  | cow found =>
      cases written
      rfl
  | mem found =>
      cases written
      rfl

theorem write_sectorSize {after : Image} {buffer : List UInt8}
    {count : UInt16}
    (written : image.write slba nlblk buffer = some (after, count)) :
    after.sectorSize = image.sectorSize := by
  cases image with
  | disk found =>
      simp only [Image.write, Disk.write, Option.map_eq_some_iff,
        Option.ite_none_right_eq_some] at written
      obtain ⟨_, ⟨_, same⟩, reached⟩ := written
      cases same
      cases reached
      rfl
  | cow found =>
      cases written
      rfl
  | mem found =>
      cases written
      rfl

theorem write_some (fits : Fits image.sectorSize slba nlblk.toNat)
    (buffer : List UInt8) :
    ∃ after count, image.write slba nlblk buffer = some (after, count) := by
  cases image with
  | disk found =>
      have length := Disk.length_toNat fits
      rw [UInt32.mul_comm] at length
      have last : (slba * found.sectorSize.toUInt64).toNat +
          (found.sectorSize * nlblk.toUInt32).toNat < 2 ^ 63 := by
        rw [show (slba * found.sectorSize.toUInt64).toNat = _ from fits.first,
          length]
        exact fits.last
      simp only [Image.write, Disk.write]
      rw [if_pos last]
      exact ⟨_, _, rfl⟩
  | cow found => exact ⟨_, _, rfl⟩
  | mem found => exact ⟨_, _, rfl⟩

theorem erase_original : (image.erase slba nlblk).1.original =
    image.original := by
  cases image with
  | disk found => rfl
  | cow found => rfl
  | mem found => rfl

theorem Keeps.original_eq {start : Image} {rows : List (Nat × List UInt8)}
    (keeps : Keeps start rows image) : image.original = start.original := by
  induction keeps with
  | start => rfl
  | write _ _ _ written induction =>
      exact (write_original written).trans induction
  | erase _ _ induction => exact erase_original.trans induction

/-- After any writes and erases a read gives each byte as it was last kept, and
where none was kept as it was at first; every block is read and written, and
what a copy is made of never changes. -/
theorem read_lastWritten {start : Image} {rows : List (Nat × List UInt8)}
    (keeps : Keeps start rows image)
    (fits : Fits image.sectorSize slba nlblk.toNat) :
    (∃ bytes, image.read slba nlblk = some (bytes, nlblk) ∧
      bytes.length = nlblk.toNat * image.sectorSize.toNat ∧
      ∀ offset, offset < nlblk.toNat * image.sectorSize.toNat →
        let index := slba.toNat * image.sectorSize.toNat + offset
        bytes[offset]? =
          some ((Store.lastWritten rows index).getD (start.contents index))) ∧
      (∀ buffer : List UInt8,
        buffer.length = nlblk.toNat * image.sectorSize.toNat →
        ∃ after, image.write slba nlblk buffer = some (after, nlblk)) ∧
      image.original = start.original := by
  rw [read_eq fits]
  refine ⟨⟨_, rfl, Store.length_read _ _ _, ?_⟩, ?_, keeps.original_eq⟩
  · intro offset inside
    rw [Store.getElem?_read, if_pos inside, keeps.contents_eq,
      Store.after_apply]
  · intro buffer filled
    obtain ⟨after, written, _⟩ := write_eq fits filled
    exact ⟨after, written⟩

def smallCopy : CoWDisk := CoWDisk.open (some [1, 2, 3, 4, 5]) 0 2 (by decide)

theorem read_lastWritten_copy :
    ∃ image bytes, Keeps (.cow smallCopy) [(2, [8, 9]), (2, [6, 7])] image ∧
      image.read 0 3 = some (bytes, 3) ∧ bytes[3]? = some 9 ∧
      bytes[4]? = some 5 := by
  let once := (smallCopy.write 1 1 [6, 7]).1
  let twice := (once.write 1 1 [8, 9]).1
  have at_first : Fits (Image.cow smallCopy).sectorSize 1
      (1 : UInt16).toNat := by decide
  have at_second : Fits (Image.cow once).sectorSize 1 (1 : UInt16).toNat :=
    at_first
  have first : Keeps (.cow smallCopy) [(2, [6, 7])] (.cow once) :=
    .write .start at_first rfl rfl
  have second : Keeps (.cow smallCopy) [(2, [8, 9]), (2, [6, 7])]
      (.cow twice) :=
    .write first at_second rfl rfl
  have fits : Fits (Image.cow twice).sectorSize 0 (3 : UInt16).toNat := by
    decide
  obtain ⟨⟨bytes, read, _, each⟩, _⟩ := read_lastWritten second fits
  exact ⟨_, bytes, second, read, each 3 (by decide),
    (each 4 (by decide)).trans (by decide +kernel)⟩

end Image

end SimpleSSD.Util
