import SimpleSSD.Util.Mask

namespace SimpleSSD.HIL.NVMe.OpenChannel

open Data Util

/-! The logical blocks of an open-channel SSD. -/

structure Geometry where
  /-- Channels. -/
  group : UInt32
  /-- Ways. -/
  parallelUnit : UInt32
  /-- Blocks. -/
  chunk : UInt32
  /-- Logical blocks in a chunk and in a page. -/
  chunkSize : UInt32
  writeSize : UInt32
  deriving DecidableEq, Repr

structure Mask where
  channelMask : UInt64
  channelShift : UInt32
  wayMask : UInt64
  wayShift : UInt32
  blockMask : UInt64
  blockShift : UInt32
  sectorMask : UInt64
  deriving DecidableEq, Repr

/-- What `init` calculates. -/
def Geometry.ppaMask (geometry : Geometry) : Mask :=
  let (sectorMask, blockShift) := generateMask geometry.chunkSize 0
  let (blockMask, wayShift) := generateMask geometry.chunk blockShift
  let (wayMask, channelShift) :=
    generateMask geometry.parallelUnit wayShift
  let (channelMask, _) := generateMask geometry.group channelShift
  { channelMask := channelMask, channelShift := channelShift
    wayMask := wayMask, wayShift := wayShift
    blockMask := blockMask, blockShift := blockShift
    sectorMask := sectorMask }

structure ChunkAddress where
  g : UInt32
  p : UInt32
  c : UInt32
  l : UInt32
  deriving DecidableEq, Repr

def Mask.makeLBA (ppaMask : Mask) (g p c l : UInt32) : UInt64 :=
  (l.toUInt64 &&& ppaMask.sectorMask) |||
    ((c <<< ppaMask.blockShift).toUInt64 &&& ppaMask.blockMask) |||
    ((p <<< ppaMask.wayShift).toUInt64 &&& ppaMask.wayMask) |||
    ((g <<< ppaMask.channelShift).toUInt64 &&& ppaMask.channelMask)

def Mask.parseLBA (ppaMask : Mask) (lba : UInt64) : ChunkAddress where
  l := (lba &&& ppaMask.sectorMask).toUInt32
  c := ((lba &&& ppaMask.blockMask) >>> ppaMask.blockShift.toUInt64).toUInt32
  p := ((lba &&& ppaMask.wayMask) >>> ppaMask.wayShift.toUInt64).toUInt32
  g := ((lba &&& ppaMask.channelMask) >>>
    ppaMask.channelShift.toUInt64).toUInt32

namespace Geometry

variable {geometry : Geometry}

def sectorBits (geometry : Geometry) : Nat :=
  width geometry.chunkSize.toNat

def blockBits (geometry : Geometry) : Nat := width geometry.chunk.toNat

def wayBits (geometry : Geometry) : Nat :=
  width geometry.parallelUnit.toNat

def channelBits (geometry : Geometry) : Nat := width geometry.group.toNat

structure Addressable (geometry : Geometry) : Prop where
  group : geometry.group > 0
  parallelUnit : geometry.parallelUnit > 0
  chunk : geometry.chunk > 0
  chunkSize : geometry.chunkSize > 0
  bits : geometry.sectorBits + geometry.blockBits + geometry.wayBits +
    geometry.channelBits ≤ 32

structure Masks (geometry : Geometry) (ppaMask : Mask) : Prop where
  sectorMask : ppaMask.sectorMask.toNat =
    BitField.mask 0 geometry.sectorBits
  blockShift : ppaMask.blockShift.toNat = geometry.sectorBits
  blockMask : ppaMask.blockMask.toNat =
    BitField.mask geometry.sectorBits geometry.blockBits
  wayShift : ppaMask.wayShift.toNat =
    geometry.sectorBits + geometry.blockBits
  wayMask : ppaMask.wayMask.toNat =
    BitField.mask (geometry.sectorBits + geometry.blockBits)
      geometry.wayBits
  channelShift : ppaMask.channelShift.toNat =
    geometry.sectorBits + geometry.blockBits + geometry.wayBits
  channelMask : ppaMask.channelMask.toNat =
    BitField.mask
      (geometry.sectorBits + geometry.blockBits + geometry.wayBits)
      geometry.channelBits

theorem Addressable.masks (addressable : geometry.Addressable) :
    geometry.Masks geometry.ppaMask := by
  have bits := addressable.bits
  simp only [sectorBits, blockBits, wayBits, channelBits] at bits
  have zero : (0 : UInt32).toNat = 0 := rfl
  obtain ⟨sectorMask, blockShift⟩ := generateMask_eq
    (show (0 : UInt32).toNat + width geometry.chunkSize.toNat < 64 by omega)
    addressable.chunkSize
  rw [zero, Nat.zero_add] at blockShift
  obtain ⟨blockMask, wayShift⟩ := generateMask_eq
    (show (generateMask geometry.chunkSize 0).2.toNat +
      width geometry.chunk.toNat < 64 by omega) addressable.chunk
  obtain ⟨wayMask, channelShift⟩ := generateMask_eq
    (show (generateMask geometry.chunk
      (generateMask geometry.chunkSize 0).2).2.toNat +
      width geometry.parallelUnit.toNat < 64 by omega)
    addressable.parallelUnit
  obtain ⟨channelMask, _⟩ := generateMask_eq
    (show (generateMask geometry.parallelUnit (generateMask geometry.chunk
      (generateMask geometry.chunkSize 0).2).2).2.toNat +
      width geometry.group.toNat < 64 by omega) addressable.group
  rw [blockShift] at blockMask wayShift
  rw [wayShift] at wayMask channelShift
  rw [channelShift] at channelMask
  exact ⟨sectorMask, blockShift, blockMask, wayShift, wayMask, channelShift,
    channelMask⟩

end Geometry

section

variable {first bits : Nat}

theorem put_toNat {number shift : UInt32} {mask : UInt64}
    (fits : number.toNat < 2 ^ bits) (inside : first + bits ≤ 32)
    (shift_eq : shift.toNat = first)
    (mask_eq : mask.toNat = BitField.mask first bits) :
    ((number <<< shift).toUInt64 &&& mask).toNat =
      BitField.put first bits number.toNat := by
  have shifted : (number <<< shift).toNat = number.toNat <<< first := by
    rw [UInt32.toNat_shiftLeft, shift_eq]
    rcases Nat.lt_or_ge first 32 with small | large
    · rw [Nat.mod_eq_of_lt small, Nat.shiftLeft_eq, Nat.mod_eq_of_lt]
      have bound : 2 ^ bits * 2 ^ first ≤ 2 ^ 32 := by
        rw [← Nat.pow_add, Nat.add_comm]
        exact Nat.pow_le_pow_right (by decide) inside
      exact Nat.lt_of_lt_of_le
        (Nat.mul_lt_mul_of_pos_right fits (Nat.two_pow_pos first)) bound
    · have none_left : bits = 0 := by omega
      rw [none_left] at fits
      have zero : number.toNat = 0 := by simpa using fits
      rw [zero, Nat.zero_shiftLeft, Nat.zero_shiftLeft, Nat.zero_mod]
  rw [UInt64.toNat_and, UInt32.toNat_toUInt64, shifted, mask_eq, BitField.put]

theorem get_toNat {lba : UInt64} {shift : UInt32} {mask : UInt64}
    (inside : first + bits ≤ 32) (shift_eq : shift.toNat = first)
    (mask_eq : mask.toNat = BitField.mask first bits) :
    ((lba &&& mask) >>> shift.toUInt64).toUInt32.toNat =
      BitField.get first bits lba.toNat := by
  have small : BitField.get first bits lba.toNat < 2 ^ 32 :=
    Nat.lt_of_lt_of_le (BitField.get_lt _ _ _)
      (Nat.pow_le_pow_right (by decide) (by omega))
  rw [UInt64.toNat_toUInt32, UInt64.toNat_shiftRight, UInt64.toNat_and,
    UInt32.toNat_toUInt64, shift_eq, mask_eq,
    Nat.mod_eq_of_lt (by omega : first < 64)]
  exact Nat.mod_eq_of_lt small

end

namespace Geometry

variable {geometry : Geometry}

theorem Addressable.makeLBA_toNat (addressable : geometry.Addressable)
    {g p c l : UInt32} (g_fits : g.toNat < 2 ^ geometry.channelBits)
    (p_fits : p.toNat < 2 ^ geometry.wayBits)
    (c_fits : c.toNat < 2 ^ geometry.blockBits) :
    (geometry.ppaMask.makeLBA g p c l).toNat =
      BitField.put 0 geometry.sectorBits l.toNat |||
        BitField.put geometry.sectorBits geometry.blockBits c.toNat |||
        BitField.put (geometry.sectorBits + geometry.blockBits)
          geometry.wayBits p.toNat |||
        BitField.put
          (geometry.sectorBits + geometry.blockBits + geometry.wayBits)
          geometry.channelBits g.toNat := by
  have masks := addressable.masks
  have bits := addressable.bits
  have sector : BitField.put 0 geometry.sectorBits l.toNat =
      l.toNat &&& BitField.mask 0 geometry.sectorBits := by
    rw [BitField.put, Nat.shiftLeft_zero]
  simp only [Mask.makeLBA, UInt64.toNat_or]
  rw [put_toNat g_fits (by omega) masks.channelShift masks.channelMask,
    put_toNat p_fits (by omega) masks.wayShift masks.wayMask,
    put_toNat c_fits (by omega) masks.blockShift masks.blockMask,
    UInt64.toNat_and, masks.sectorMask, UInt32.toNat_toUInt64, sector]

theorem Addressable.parseLBA_toNat (addressable : geometry.Addressable)
    (lba : UInt64) :
    (geometry.ppaMask.parseLBA lba).l.toNat =
        BitField.get 0 geometry.sectorBits lba.toNat ∧
      (geometry.ppaMask.parseLBA lba).c.toNat =
        BitField.get geometry.sectorBits geometry.blockBits lba.toNat ∧
      (geometry.ppaMask.parseLBA lba).p.toNat =
        BitField.get (geometry.sectorBits + geometry.blockBits)
          geometry.wayBits lba.toNat ∧
      (geometry.ppaMask.parseLBA lba).g.toNat =
        BitField.get
          (geometry.sectorBits + geometry.blockBits + geometry.wayBits)
          geometry.channelBits lba.toNat := by
  have masks := addressable.masks
  have bits := addressable.bits
  refine ⟨?_, get_toNat (by omega) masks.blockShift masks.blockMask,
    get_toNat (by omega) masks.wayShift masks.wayMask,
    get_toNat (by omega) masks.channelShift masks.channelMask⟩
  have small : BitField.get 0 geometry.sectorBits lba.toNat < 2 ^ 32 :=
    Nat.lt_of_lt_of_le (BitField.get_lt _ _ _)
      (Nat.pow_le_pow_right (by decide) (by omega))
  simp only [BitField.get, Nat.shiftRight_zero] at small ⊢
  simp only [Mask.parseLBA]
  rw [UInt64.toNat_toUInt32, UInt64.toNat_and, masks.sectorMask]
  exact Nat.mod_eq_of_lt small

/-- Also where the coordinates are out of range, as far as they have bits. -/
theorem Addressable.parseLBA_makeLBA (addressable : geometry.Addressable)
    {g p c l : UInt32} (g_fits : g.toNat < 2 ^ geometry.channelBits)
    (p_fits : p.toNat < 2 ^ geometry.wayBits)
    (c_fits : c.toNat < 2 ^ geometry.blockBits)
    (l_fits : l.toNat < 2 ^ geometry.sectorBits) :
    geometry.ppaMask.parseLBA (geometry.ppaMask.makeLBA g p c l) =
      ⟨g, p, c, l⟩ := by
  obtain ⟨sector, block, way, channel⟩ := addressable.parseLBA_toNat
    (geometry.ppaMask.makeLBA g p c l)
  have made := addressable.makeLBA_toNat g_fits p_fits c_fits (l := l)
  rw [made] at sector block way channel
  simp only [BitField.get_or] at sector block way channel
  rw [BitField.get_put_self l_fits, BitField.get_put_apart (by omega),
    BitField.get_put_apart (by omega),
    BitField.get_put_apart (by omega)] at sector
  rw [BitField.get_put_self c_fits, BitField.get_put_apart (by omega),
    BitField.get_put_apart (by omega),
    BitField.get_put_apart (by omega)] at block
  rw [BitField.get_put_self p_fits, BitField.get_put_apart (by omega),
    BitField.get_put_apart (by omega),
    BitField.get_put_apart (by omega)] at way
  rw [BitField.get_put_self g_fits, BitField.get_put_apart (by omega),
    BitField.get_put_apart (by omega),
    BitField.get_put_apart (by omega)] at channel
  simp only [Nat.or_zero, Nat.zero_or] at sector block way channel
  cases parsed : geometry.ppaMask.parseLBA
    (geometry.ppaMask.makeLBA g p c l) with
  | mk g' p' c' l' =>
      rw [parsed] at sector block way channel
      cases UInt32.toNat_inj.mp sector
      cases UInt32.toNat_inj.mp block
      cases UInt32.toNat_inj.mp way
      cases UInt32.toNat_inj.mp channel
      rfl

structure Inside (geometry : Geometry) (address : ChunkAddress) : Prop where
  g : address.g < geometry.group
  p : address.p < geometry.parallelUnit
  c : address.c < geometry.chunk
  l : address.l < geometry.chunkSize

instance (geometry : Geometry) (address : ChunkAddress) :
    Decidable (geometry.Inside address) :=
  decidable_of_iff
    (address.g < geometry.group ∧ address.p < geometry.parallelUnit ∧
      address.c < geometry.chunk ∧ address.l < geometry.chunkSize)
    ⟨fun ⟨g, p, c, l⟩ => ⟨g, p, c, l⟩,
      fun inside => ⟨inside.g, inside.p, inside.c, inside.l⟩⟩

theorem lt_bits {number dimension : UInt32} (below : number < dimension) :
    number.toNat < 2 ^ width dimension.toNat :=
  Nat.lt_of_lt_of_le (UInt32.lt_iff_toNat_lt.mp below)
    (le_two_pow_width dimension.toNat)

/-- A number that is not below the dimension, if it has the bits for one. -/
theorem power_of_below {dimension : UInt32}
    (below : ∀ number : UInt32, number.toNat < 2 ^ width dimension.toNat →
      number < dimension) :
    ∃ bits, dimension.toNat = 2 ^ bits := by
  by_contra other
  have strict : dimension.toNat < 2 ^ width dimension.toNat :=
    Nat.lt_of_le_of_ne (le_two_pow_width _)
      (fun same => other ⟨_, same⟩)
  exact UInt32.lt_irrefl dimension (below dimension strict)

theorem below_of_power {dimension : UInt32}
    (power : ∃ bits, dimension.toNat = 2 ^ bits) {number : UInt32}
    (fits : number.toNat < 2 ^ width dimension.toNat) : number < dimension := by
  rw [width_eq_iff.mpr power] at fits
  exact UInt32.lt_iff_toNat_lt.mpr fits

/-- Every block has an address of its own, from which it is found again; every
address is that of a block if and only if no dimension leaves numbers over. -/
theorem parseLBA_inside_iff (addressable : geometry.Addressable) :
    (∀ address, geometry.Inside address →
      geometry.ppaMask.parseLBA (geometry.ppaMask.makeLBA address.g address.p
        address.c address.l) = address) ∧
      ((∀ lba, geometry.Inside (geometry.ppaMask.parseLBA lba)) ↔
        (∃ bits, geometry.group.toNat = 2 ^ bits) ∧
          (∃ bits, geometry.parallelUnit.toNat = 2 ^ bits) ∧
          (∃ bits, geometry.chunk.toNat = 2 ^ bits) ∧
          ∃ bits, geometry.chunkSize.toNat = 2 ^ bits) := by
  have bits := addressable.bits
  refine ⟨?_, ?_, ?_⟩
  · intro address inside
    exact addressable.parseLBA_makeLBA (lt_bits inside.g) (lt_bits inside.p)
      (lt_bits inside.c) (lt_bits inside.l)
  · intro inside
    have zero : ∀ bits, (0 : UInt32).toNat < 2 ^ bits := Nat.two_pow_pos
    refine ⟨power_of_below fun number fits => ?_,
      power_of_below fun number fits => ?_,
      power_of_below fun number fits => ?_,
      power_of_below fun number fits => ?_⟩
    · have parsed := addressable.parseLBA_makeLBA (l := 0) fits (zero _)
        (zero _) (zero _)
      have here := inside (geometry.ppaMask.makeLBA number 0 0 0)
      rw [parsed] at here
      exact here.g
    · have parsed := addressable.parseLBA_makeLBA (l := 0) (zero _) fits
        (zero _) (zero _)
      have here := inside (geometry.ppaMask.makeLBA 0 number 0 0)
      rw [parsed] at here
      exact here.p
    · have parsed := addressable.parseLBA_makeLBA (l := 0) (zero _) (zero _)
        fits (zero _)
      have here := inside (geometry.ppaMask.makeLBA 0 0 number 0)
      rw [parsed] at here
      exact here.c
    · have parsed := addressable.parseLBA_makeLBA (zero _) (zero _) (zero _)
        fits
      have here := inside (geometry.ppaMask.makeLBA 0 0 0 number)
      rw [parsed] at here
      exact here.l
  · intro powers lba
    obtain ⟨group, parallelUnit, chunk, chunkSize⟩ := powers
    obtain ⟨sector, block, way, channel⟩ := addressable.parseLBA_toNat lba
    constructor
    · apply below_of_power group
      rw [channel]
      exact BitField.get_lt _ _ _
    · apply below_of_power parallelUnit
      rw [way]
      exact BitField.get_lt _ _ _
    · apply below_of_power chunk
      rw [block]
      exact BitField.get_lt _ _ _
    · apply below_of_power chunkSize
      rw [sector]
      exact BitField.get_lt _ _ _

def sample : Geometry where
  group := 8
  parallelUnit := 4
  chunk := 512
  chunkSize := 2048
  writeSize := 4

theorem sample_addressable : sample.Addressable where
  group := by decide
  parallelUnit := by decide
  chunk := by decide
  chunkSize := by decide
  bits := by decide +kernel

theorem parseLBA_inside_sample :
    sample.ppaMask.parseLBA (sample.ppaMask.makeLBA 7 3 511 2047) =
        ⟨7, 3, 511, 2047⟩ ∧
      ∀ lba, sample.Inside (sample.ppaMask.parseLBA lba) := by
  obtain ⟨found, every⟩ := parseLBA_inside_iff sample_addressable
  refine ⟨found ⟨7, 3, 511, 2047⟩ ?_, every.mpr ?_⟩
  · constructor <;> decide
  · exact ⟨⟨3, rfl⟩, ⟨2, rfl⟩, ⟨9, rfl⟩, ⟨11, rfl⟩⟩

end Geometry

end SimpleSSD.HIL.NVMe.OpenChannel
