import SimpleSSD.BIL.BIO
import SimpleSSD.HIL.NVMe.Namespace
import SimpleSSD.Util.Algorithm

namespace SimpleSSD.SIL.NVMe

open BIL
open HIL.NVMe (Command)
open HIL.NVMe.Namespace (slbaOf nlbOf)

/-! The commands that the driver makes of I/Os, and how the device reads them. -/

/-- Members of `Driver` that `submitIO` uses. -/
structure Format where
  namespaceID : UInt32
  lbaSize : UInt32
  lbaSize_ne_zero : lbaSize ≠ 0

/-- `uint32_t cmd[16]`. -/
abbrev Dwords := Fin 16 → UInt32

namespace Dwords

def zero : Dwords := fun _ => 0

def set (cmd : Dwords) (index : Fin 16) (value : UInt32) : Dwords :=
  Function.update cmd index value

/-- A `uint64_t` at two dwords, the lower half first. -/
def setLong (cmd : Dwords) (low high : Fin 16) (value : UInt64) : Dwords :=
  (cmd.set low value.toUInt32).set high (value >>> 32).toUInt32

/-- `memcpy(cmd + 2, &cid, 2)`, on bytes. -/
def setCommandID (cmd : Dwords) (cid : UInt16) : Dwords :=
  cmd.set 0 ((cmd 0 &&& (0xFFFF : UInt32)) ||| (cid.toUInt32 <<< 16))

end Dwords

/-- A buffer of the host that the device reads or writes: its size, and what
the driver has written to it. -/
structure Buffer where
  size : UInt64
  data : List UInt8
  deriving DecidableEq, Repr

def bytesOf (count : Nat) (value : UInt64) : List UInt8 :=
  (List.range count).map fun index => (value >>> (8 * index).toUInt64).toUInt8

namespace Format

def slba (format : Format) (bio : BIO) : UInt64 :=
  bio.offset / format.lbaSize.toUInt64

def nlb (format : Format) (bio : BIO) : UInt32 :=
  (Util.divCeil bio.length format.lbaSize.toUInt64).toUInt32

/-- `submitIO` up to `submitCommand`; `getPointer` has the two pointers to a
buffer of some size. -/
def submitIO (format : Format) (getPointer : Buffer → UInt64 × UInt64)
    (bio : BIO) : Dwords × Option Buffer :=
  let slba := format.slba bio
  let nlb := format.nlb bio
  let cmd := Dwords.zero.set 1 format.namespaceID
  let point (cmd : Dwords) (prp : Buffer) : Dwords :=
    (cmd.setLong 6 7 (getPointer prp).1).setLong 8 9 (getPointer prp).2
  match bio.type with
  | .read =>
      let cmd := ((cmd.set 0 0x02).setLong 10 11 slba).set 12 (nlb - 1)
      let prp : Buffer := { size := bio.length, data := [] }
      (point cmd prp, some prp)
  | .write =>
      let cmd := ((cmd.set 0 0x01).setLong 10 11 slba).set 12 (nlb - 1)
      let prp : Buffer := { size := bio.length, data := [] }
      (point cmd prp, some prp)
  | .flush => (cmd.set 0 0x00, none)
  | .trim =>
      let cmd := ((cmd.set 0 0x09).set 10 0).set 11 0x04
      let prp : Buffer :=
        { size := 16
          data := bytesOf 4 0 ++ bytesOf 4 nlb.toUInt64 ++ bytesOf 8 slba }
      (point cmd prp, some prp)
  | .num => (cmd, none)

end Format

/-- The device's view of the bytes of a command, `SQEntry`, with the queues the
command came through. -/
def entryOf (sqID cqID : Nat) (cmd : Dwords) : Command where
  sqID := sqID
  cqID := cqID
  commandID := (cmd 0 >>> 16).toUInt16
  useSGL := decide ((cmd 0 >>> 8).toUInt8 >>> 6 ≠ 0)
  opcode := (cmd 0).toUInt8
  namespaceID := cmd 1
  data1 := ((cmd 7).toUInt64 <<< 32) ||| (cmd 6).toUInt64
  data2 := ((cmd 9).toUInt64 <<< 32) ||| (cmd 8).toUInt64
  dword10 := cmd 10
  dword11 := cmd 11
  dword12 := cmd 12
  dword13 := cmd 13

def Format.command (format : Format)
    (getPointer : Buffer → UInt64 × UInt64) (sqID cqID : Nat) (cid : UInt16)
    (bio : BIO) : Command :=
  entryOf sqID cqID ((format.submitIO getPointer bio).1.setCommandID cid)

def flagsOf (req : Command) : UInt32 := req.dword12 &&& 0xFFFF0000

/-- The bytes of the I/O lie in the blocks that the device reads from the
command. -/
def Covers (lbaSize : UInt32) (req : Command) (bio : BIO) : Prop :=
  ∀ byte, bio.offset.toNat ≤ byte →
    byte < bio.offset.toNat + bio.length.toNat →
    (slbaOf req).toNat * lbaSize.toNat ≤ byte ∧
      byte < ((slbaOf req).toNat + (nlbOf req).toNat) * lbaSize.toNat

theorem halves_join (value : UInt64) :
    ((value >>> 32).toUInt32.toUInt64 <<< 32) ||| value.toUInt32.toUInt64 =
      value := by
  have hlt := value.toNat_lt
  apply UInt64.toNat_inj.mp
  have hshift : (32 : UInt64).toNat % 64 = 32 := rfl
  simp only [UInt64.toNat_or, UInt64.toNat_shiftLeft, UInt32.toNat_toUInt64,
    UInt64.toNat_toUInt32, UInt64.toNat_shiftRight, hshift]
  have hhigh : value.toNat / 2 ^ 32 < 2 ^ 32 := by
    omega
  rw [Nat.shiftRight_eq_div_pow, Nat.mod_eq_of_lt hhigh, Nat.shiftLeft_eq,
    Nat.mod_eq_of_lt (by omega), ← Nat.shiftLeft_eq,
    ← Nat.shiftLeft_add_eq_or_of_lt (Nat.mod_lt _ (by decide)),
    Nat.shiftLeft_eq]
  omega

section Transfer

variable {format : Format} {getPointer : Buffer → UInt64 × UInt64}
  {sqID cqID : Nat} {cid : UInt16} {bio : BIO}

theorem command_slba (htype : bio.type = .read ∨ bio.type = .write) :
    slbaOf (format.command getPointer sqID cqID cid bio) = format.slba bio := by
  rw [← halves_join (format.slba bio)]
  obtain htype | htype := htype
  all_goals
    unfold slbaOf Format.command Format.submitIO
    rw [htype]
    rfl

theorem command_dword12 (htype : bio.type = .read ∨ bio.type = .write) :
    (format.command getPointer sqID cqID cid bio).dword12 =
      format.nlb bio - 1 := by
  obtain htype | htype := htype
  all_goals
    unfold Format.command Format.submitIO
    rw [htype]
    rfl

theorem command_nlb (htype : bio.type = .read ∨ bio.type = .write) :
    (nlbOf (format.command getPointer sqID cqID cid bio)).toNat =
      (Util.divCeil bio.length format.lbaSize.toUInt64).toNat % 2 ^ 16 := by
  have hmask : (65535 : UInt32).toNat = 2 ^ 16 - 1 := rfl
  have hone : (1 : UInt32).toNat = 1 := rfl
  have hone' : (1 : UInt16).toNat = 1 := rfl
  unfold nlbOf
  rw [command_dword12 htype]
  unfold Format.nlb
  simp only [UInt16.toNat_add, UInt32.toNat_toUInt16, UInt32.toNat_and,
    UInt32.toNat_sub, UInt64.toNat_toUInt32, hmask, hone, hone',
    Nat.and_two_pow_sub_one_eq_mod]
  omega

/-- A count that fits its field leaves the bits above it alone. -/
theorem command_flags (htype : bio.type = .read ∨ bio.type = .write)
    (hlength : bio.length ≠ 0)
    (hfits : (Util.divCeil bio.length format.lbaSize.toUInt64).toNat ≤ 65535) :
    flagsOf (format.command getPointer sqID cqID cid bio) = 0 := by
  have hpos : 1 ≤ (Util.divCeil bio.length format.lbaSize.toUInt64).toNat := by
    rw [Util.divCeil_toNat hlength]
    exact Nat.le_add_left 1 _
  have hone : (1 : UInt32).toNat = 1 := rfl
  have hmask : (0xFFFF0000 : UInt32).toNat = 65535 <<< 16 := rfl
  have hsmall : (format.nlb bio - 1).toNat < 2 ^ 16 := by
    unfold Format.nlb
    rw [UInt32.toNat_sub, UInt64.toNat_toUInt32, hone]
    omega
  unfold flagsOf
  rw [command_dword12 htype]
  apply UInt32.toNat_inj.mp
  rw [UInt32.toNat_and, hmask]
  apply Nat.eq_of_testBit_eq
  intro bit
  change Nat.testBit _ bit = Nat.testBit 0 bit
  rw [Nat.testBit_and, Nat.testBit_shiftLeft, Nat.zero_testBit]
  by_cases hbit : 16 ≤ bit
  · have hpow : 2 ^ 16 ≤ 2 ^ bit := Nat.pow_le_pow_right (by decide) hbit
    rw [Nat.testBit_lt_two_pow (Nat.lt_of_lt_of_le hsmall hpow)]
    rfl
  · rw [decide_eq_false (by omega)]
    simp

theorem lbaSize_toUInt64_ne_zero : format.lbaSize.toUInt64 ≠ 0 := by
  intro hzero
  apply format.lbaSize_ne_zero
  apply UInt32.toNat_inj.mp
  rw [← UInt32.toNat_toUInt64, hzero]
  rfl

theorem covers_iff (htype : bio.type = .read ∨ bio.type = .write)
    (hlength : bio.length ≠ 0) :
    Covers format.lbaSize (format.command getPointer sqID cqID cid bio) bio ↔
      bio.offset.toNat % format.lbaSize.toNat + bio.length.toNat ≤
        (Util.divCeil bio.length format.lbaSize.toUInt64).toNat % 2 ^ 16 *
          format.lbaSize.toNat := by
  unfold Covers
  rw [command_slba htype, command_nlb htype]
  unfold Format.slba
  rw [UInt64.toNat_div, UInt32.toNat_toUInt64]
  exact Util.blocks_cover fun hzero =>
    hlength (UInt64.toNat_inj.mp hzero)

/-- An I/O reaches the device with all its bytes when it begins at a block, or
so little after the begin of one that the blocks its length takes still hold it,
and when these are few enough for the field of the command. -/
theorem command_covers_bytes (htype : bio.type = .read ∨ bio.type = .write)
    (hlength : 1 ≤ bio.length) :
    (Covers format.lbaSize (format.command getPointer sqID cqID cid bio) bio ∧
        flagsOf (format.command getPointer sqID cqID cid bio) = 0) ↔
      bio.offset.toNat % format.lbaSize.toNat + bio.length.toNat ≤
          (Util.divCeil bio.length format.lbaSize.toUInt64).toNat *
            format.lbaSize.toNat ∧
        (Util.divCeil bio.length format.lbaSize.toUInt64).toNat ≤ 65535 := by
  have hne : bio.length ≠ 0 := by
    intro hzero
    rw [hzero] at hlength
    exact absurd hlength (by decide)
  obtain ⟨units, hunits, hfew, -⟩ := Util.divCeil_spec hne
    (@lbaSize_toUInt64_ne_zero format)
  rw [UInt32.toNat_toUInt64] at hfew
  rw [covers_iff htype hne]
  constructor
  · intro hcovers
    have hmany : units * format.lbaSize.toNat <
        (Util.divCeil bio.length format.lbaSize.toUInt64).toNat % 2 ^ 16 *
          format.lbaSize.toNat := by
      omega
    have hlt := Nat.lt_of_mul_lt_mul_right hmany
    have hsmall : (Util.divCeil bio.length format.lbaSize.toUInt64).toNat <
        2 ^ 16 := by
      omega
    rw [Nat.mod_eq_of_lt hsmall] at hcovers
    exact ⟨hcovers.1, by omega⟩
  · rintro ⟨hroom, hfits⟩
    have hsmall : (Util.divCeil bio.length format.lbaSize.toUInt64).toNat <
        2 ^ 16 := by
      omega
    rw [Nat.mod_eq_of_lt hsmall]
    exact ⟨hroom, command_flags htype hne hfits⟩

end Transfer

/-- Eight blocks of 512 bytes from the 1024th byte on. -/
theorem command_covers_bytes_aligned :
    let format : Format :=
      { namespaceID := 1, lbaSize := 512, lbaSize_ne_zero := by decide }
    let bio : BIO := { id := 1, type := .write, offset := 1024, length := 4096 }
    Covers format.lbaSize (format.command (fun _ => (0, 0)) 1 1 1 bio) bio ∧
      flagsOf (format.command (fun _ => (0, 0)) 1 1 1 bio) = 0 :=
  (command_covers_bytes (.inr rfl) (by decide)).mpr (by decide)

/-- A read of 4096 bytes from the 512th byte on becomes a read of one block of
4096 bytes, which ends before the read does. -/
theorem command_misses_bytes :
    let format : Format :=
      { namespaceID := 1, lbaSize := 4096, lbaSize_ne_zero := by decide }
    let bio : BIO := { id := 1, type := .read, offset := 512, length := 4096 }
    ¬ Covers format.lbaSize (format.command (fun _ => (0, 0)) 1 1 1 bio) bio := by
  intro format bio hcovers
  exact absurd (hcovers 4096 (by decide) (by decide)).2 (by decide)

end SimpleSSD.SIL.NVMe
