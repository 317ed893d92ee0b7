import SimpleSSD.Data.Result
import SimpleSSD.Data.While

namespace SimpleSSD.IGL

open Data

inductive IOType where
  | read
  | write
  | randRead
  | randWrite
  | readWrite
  | randRW
  deriving DecidableEq, Repr

def IOType.random : IOType → Bool
  | .randRead | .randWrite | .randRW => true
  | _ => false

structure RequestConfig where
  type : IOType
  offset : UInt64
  size : UInt64
  blocksize : UInt64
  blockalign : UInt64

/-- `randgen` holds the bounds of the distribution. -/
structure RequestGenerator where
  type : IOType
  offset : UInt64
  size : UInt64
  blocksize : UInt64
  blockalign : UInt64
  randgen : UInt64 × UInt64

namespace RequestGenerator

inductive Panic where
  | offset
  | blocksize
  | blockalign
  | offsetAndSize
  | divisionByZero
  deriving DecidableEq, Repr

def Panic.message : Panic → String
  | .offset => "offset is larger than SSD size"
  | .blocksize => "blocksize is smaller than SSD's logical block"
  | .blockalign => "blockalign is smaller than SSD's logical block"
  | .offsetAndSize => "Invalid offset and size provided"
  | .divisionByZero => "Floating point exception"

def make (config : RequestConfig) : RequestGenerator where
  type := config.type
  offset := config.offset
  size := config.size
  blocksize := config.blocksize
  blockalign :=
    if config.blockalign = 0 then config.blocksize else config.blockalign
  randgen := (0, 0xFFFFFFFFFFFFFFFF)

def align (value unit : UInt64) : Except Panic UInt64 :=
  if unit = 0 then
    .error .divisionByZero
  else if value % unit ≠ 0 then
    .ok (value / unit * unit)
  else
    .ok value

def init (generator : RequestGenerator) (bytesize : UInt64) (bs : UInt32) :
    Except Panic RequestGenerator :=
  if generator.offset > bytesize then
    .error .offset
  else if generator.blocksize < bs.toUInt64 then
    .error .blocksize
  else if generator.blockalign < bs.toUInt64 then
    .error .blockalign
  else do
    let blocksize ← align generator.blocksize bs.toUInt64
    let blockalign ← align generator.blockalign bs.toUInt64
    let offset ← align generator.offset blockalign
    let size :=
      if generator.size = 0 ∨ offset + generator.size > bytesize then
        bytesize - offset
      else
        generator.size
    if size = 0 then
      .error .offsetAndSize
    else
      .ok { generator with
        offset := offset
        size := size
        blocksize := blocksize
        blockalign := blockalign
        randgen := (offset, offset + size) }

/-- The values that a uniform distribution returns, both bounds included; it
promises nothing where the bounds are exchanged. -/
def Draws (generator : RequestGenerator) (value : UInt64) : Prop :=
  generator.randgen.1 ≤ generator.randgen.2 →
    generator.randgen.1 ≤ value ∧ value ≤ generator.randgen.2

instance (generator : RequestGenerator) (value : UInt64) :
    Decidable (generator.Draws value) :=
  inferInstanceAs (Decidable (_ → _))

def outside (generator : RequestGenerator) (off : UInt64) : Bool :=
  off + generator.blocksize > generator.size

def foldBack (generator : RequestGenerator) (off : UInt64) : UInt64 :=
  if off ≥ generator.size then off - generator.size
  else off - generator.blocksize

/-- Address and length of an I/O, if `fuel` is enough for the loop. -/
def generateAddress (generator : RequestGenerator) (fuel : Nat)
    (ioCount draw : UInt64) : Option (UInt64 × UInt64) :=
  if generator.type.random then
    some (draw - draw % generator.blockalign, generator.blocksize)
  else
    (whileLoop generator.outside generator.foldBack fuel
      (ioCount * generator.blockalign)).map fun off =>
        (off + generator.offset, generator.blocksize)

def InWindow (generator : RequestGenerator) (ioCount draw : UInt64) : Prop :=
  ∃ fuel off len, generator.generateAddress fuel ioCount draw =
      some (off, len) ∧
    generator.offset.toNat ≤ off.toNat ∧
    off.toNat + len.toNat ≤ generator.offset.toNat + generator.size.toNat

/-- What `init` leaves. -/
structure Accepted (generator : RequestGenerator) : Prop where
  size : 0 < generator.size.toNat
  blocksize : 0 < generator.blocksize.toNat
  blockalign : 0 < generator.blockalign.toNat
  aligned : generator.blockalign.toNat ∣ generator.offset.toNat
  randgen : generator.randgen =
    (generator.offset, generator.offset + generator.size)

theorem align_ok {value unit aligned : UInt64}
    (h : align value unit = .ok aligned) :
    0 < unit.toNat ∧ unit.toNat ∣ aligned.toNat ∧
      (unit ≤ value → 0 < aligned.toNat) := by
  unfold align at h
  split at h
  · cases h
  · next nonzero =>
      have positive : 0 < unit.toNat :=
        Nat.pos_of_ne_zero fun zero => nonzero (UInt64.toNat_inj.mp zero)
      refine ⟨positive, ?_⟩
      split at h
      · cases h
        have product : (value / unit * unit).toNat =
            value.toNat / unit.toNat * unit.toNat := by
          rw [UInt64.toNat_mul, UInt64.toNat_div]
          have := Nat.div_mul_le_self value.toNat unit.toNat
          have := value.toNat_lt
          exact Nat.mod_eq_of_lt (by omega)
        rw [product]
        refine ⟨Nat.dvd_mul_left _ _, fun le => ?_⟩
        have le := UInt64.le_iff_toNat_le.mp le
        exact Nat.mul_pos (Nat.div_pos le positive) positive
      · next exact_multiple =>
          cases h
          have multiple : value % unit = 0 := by
            simpa using exact_multiple
          have rest := congrArg UInt64.toNat multiple
          rw [UInt64.toNat_mod] at rest
          refine ⟨Nat.dvd_of_mod_eq_zero rest, fun le => ?_⟩
          exact Nat.lt_of_lt_of_le positive (UInt64.le_iff_toNat_le.mp le)

theorem init_accepted {start generator : RequestGenerator}
    {bytesize : UInt64} {bs : UInt32}
    (h : start.init bytesize bs = .ok generator) : generator.Accepted := by
  unfold init at h
  split at h
  · cases h
  split at h
  · cases h
  next large =>
  split at h
  · cases h
  next wide =>
    obtain ⟨blocksize, blocksize_ok, h⟩ := bind_ok h
    obtain ⟨blockalign, blockalign_ok, h⟩ := bind_ok h
    obtain ⟨offset, offset_ok, h⟩ := bind_ok h
    dsimp only at h
    generalize (if start.size = 0 ∨ offset + start.size > bytesize then
      bytesize - offset else start.size) = size at h
    split at h
    · cases h
    · next nonempty =>
        cases h
        obtain ⟨-, -, blocksize_pos⟩ := align_ok blocksize_ok
        obtain ⟨-, -, blockalign_pos⟩ := align_ok blockalign_ok
        obtain ⟨-, aligned, -⟩ := align_ok offset_ok
        exact
          { size := Nat.pos_of_ne_zero fun zero =>
              nonempty (UInt64.toNat_inj.mp zero)
            blocksize := blocksize_pos (UInt64.not_lt.mp large)
            blockalign := blockalign_pos (UInt64.not_lt.mp wide)
            aligned := aligned
            randgen := rfl }

/-! The sequential addresses. -/

section Sequential

variable {generator : RequestGenerator}

theorem outside_iff (off : UInt64) : generator.outside off = true ↔
    generator.size.toNat <
      (off.toNat + generator.blocksize.toNat) % 2 ^ 64 := by
  unfold outside
  rw [decide_eq_true_iff, gt_iff_lt, UInt64.lt_iff_toNat_lt,
    UInt64.toNat_add]

theorem foldBack_size {off : UInt64}
    (above : generator.size.toNat ≤ off.toNat) :
    (generator.foldBack off).toNat = off.toNat - generator.size.toNat := by
  have le := UInt64.le_iff_toNat_le.mpr above
  unfold foldBack
  rw [if_pos le, UInt64.toNat_sub_of_le _ _ le]

theorem foldBack_block {off : UInt64}
    (below : off.toNat < generator.size.toNat) :
    generator.foldBack off = off - generator.blocksize := by
  unfold foldBack
  rw [if_neg]
  intro le
  have := UInt64.le_iff_toNat_le.mp le
  omega

/-- Where the sum of address and length loses a carry, it still does so at the
end of the loop. -/
theorem Accepted.ends_wrapped (accepted : generator.Accepted) (off : UInt64)
    (wraps : 2 ^ 64 ≤ off.toNat + generator.blocksize.toNat) :
    ∃ result, Ends generator.outside generator.foldBack off result ∧
      2 ^ 64 ≤ result.toNat + generator.blocksize.toNat := by
  have size := accepted.size
  have block_lt := generator.blocksize.toNat_lt
  induction bound : off.toNat using Nat.strong_induction_on generalizing off
    with
  | _ bound induction =>
      subst bound
      have off_lt := off.toNat_lt
      cases test : generator.outside off with
      | false => exact ⟨off, Ends.done test, wraps⟩
      | true =>
          have exceeds := (outside_iff off).mp test
          have less := @foldBack_size generator off (by omega)
          obtain ⟨result, ends, kept⟩ := induction _ (by omega)
            (generator.foldBack off) (by omega) rfl
          exact ⟨result, Ends.round test ends, kept⟩

/-- Otherwise the address is folded into the window, and moved back by a block
if the block reaches past the end. -/
theorem Accepted.ends_plain (accepted : generator.Accepted) (off : UInt64)
    (plain : off.toNat + generator.blocksize.toNat < 2 ^ 64) :
    Ends generator.outside generator.foldBack off
      (if off.toNat % generator.size.toNat + generator.blocksize.toNat ≤
          generator.size.toNat then off % generator.size
        else off % generator.size - generator.blocksize) := by
  have size := accepted.size
  have block := accepted.blocksize
  induction bound : off.toNat using Nat.strong_induction_on generalizing off
    with
  | _ bound induction =>
      subst bound
      have below := Nat.mod_lt off.toNat size
      have test := @outside_iff generator off
      rw [Nat.mod_eq_of_lt plain] at test
      by_cases above : generator.size.toNat ≤ off.toNat
      · have less := foldBack_size above
        have rest : generator.foldBack off % generator.size =
            off % generator.size := by
          apply UInt64.toNat_inj.mp
          rw [UInt64.toNat_mod, UInt64.toNat_mod, less,
            Nat.mod_eq_sub_mod above]
        have rest_toNat := congrArg UInt64.toNat rest
        rw [UInt64.toNat_mod, UInt64.toNat_mod] at rest_toNat
        have ends := induction _ (by omega) (generator.foldBack off)
          (by omega) rfl
        rw [rest, rest_toNat] at ends
        exact Ends.round (test.mpr (by omega)) ends
      · have same : off % generator.size = off := by
          apply UInt64.toNat_inj.mp
          rw [UInt64.toNat_mod, Nat.mod_eq_of_lt (by omega)]
        rw [same, Nat.mod_eq_of_lt (by omega)]
        split
        · next fits =>
            refine Ends.done ?_
            rw [← Bool.not_eq_true, test]
            omega
        · next long =>
            refine Ends.round (test.mpr (by omega)) ?_
            rw [foldBack_block (by omega)]
            refine Ends.done ?_
            rw [← Bool.not_eq_true, outside_iff, ← UInt64.toNat_add,
              UInt64.sub_add_cancel]
            omega

theorem window_iff {off : UInt64} (ended : generator.outside off = false) :
    (generator.offset.toNat ≤ (off + generator.offset).toNat ∧
        (off + generator.offset).toNat + generator.blocksize.toNat ≤
          generator.offset.toNat + generator.size.toNat) ↔
      off.toNat + generator.blocksize.toNat < 2 ^ 64 ∧
        generator.offset.toNat + off.toNat < 2 ^ 64 := by
  have fits := (not_congr (outside_iff off)).mp (Bool.not_eq_true _ ▸ ended)
  have := off.toNat_lt
  have := generator.offset.toNat_lt
  have := generator.size.toNat_lt
  have := generator.blocksize.toNat_lt
  rw [UInt64.toNat_add]
  omega

/-- What a sequential address needs: neither the product with the count nor a
sum loses a carry, and the block fits behind the folded address or before
it. -/
def Folds (generator : RequestGenerator) (ioCount : UInt64) : Prop :=
  let start := (ioCount * generator.blockalign).toNat
  let folded := start % generator.size.toNat
  let block := generator.blocksize.toNat
  start + block < 2 ^ 64 ∧
    (folded + block ≤ generator.size.toNat ∧
        generator.offset.toNat + folded < 2 ^ 64 ∨
      generator.size.toNat < folded + block ∧ block ≤ folded ∧
        generator.offset.toNat + (folded - block) < 2 ^ 64)

instance (generator : RequestGenerator) (ioCount : UInt64) :
    Decidable (generator.Folds ioCount) :=
  inferInstanceAs (Decidable (_ ∧ _))

theorem Accepted.sequential (accepted : generator.Accepted)
    (sequential : generator.type.random = false) (ioCount draw : UInt64) :
    (generator.InWindow ioCount draw ↔ generator.Folds ioCount) ∧
      ∃ fuel address,
        generator.generateAddress fuel ioCount draw = some address := by
  have reached : ∀ off, Ends generator.outside generator.foldBack
      (ioCount * generator.blockalign) off →
      (generator.InWindow ioCount draw ↔
        off.toNat + generator.blocksize.toNat < 2 ^ 64 ∧
          generator.offset.toNat + off.toNat < 2 ^ 64) ∧
      ∃ fuel address,
        generator.generateAddress fuel ioCount draw = some address := by
    intro off ends
    have ended := ends.failed
    obtain ⟨fuel, loop⟩ := ends
    rw [← window_iff ended]
    have yields : generator.generateAddress fuel ioCount draw =
        some (off + generator.offset, generator.blocksize) := by
      unfold generateAddress
      rw [sequential, if_neg Bool.false_ne_true, loop]
      rfl
    refine ⟨⟨?_, fun window => ⟨fuel, _, _, yields, window⟩⟩, fuel, _, yields⟩
    rintro ⟨fuel', off', len', yields', window⟩
    have same : off' = off + generator.offset ∧
        len' = generator.blocksize := by
      unfold generateAddress at yields'
      rw [sequential, if_neg Bool.false_ne_true] at yields'
      obtain ⟨other, loop', equal⟩ := Option.map_eq_some_iff.mp yields'
      have unique := Ends.unique ⟨fuel', loop'⟩ ⟨fuel, loop⟩
      subst unique
      cases equal
      exact ⟨rfl, rfl⟩
    obtain ⟨rfl, rfl⟩ := same
    exact window
  have size := accepted.size
  by_cases plain : (ioCount * generator.blockalign).toNat +
      generator.blocksize.toNat < 2 ^ 64
  · have ends := accepted.ends_plain _ plain
    refine (reached _ ends).imp_left fun window => ?_
    rw [window]
    unfold Folds
    have below := Nat.mod_lt (ioCount * generator.blockalign).toNat size
    have lt := generator.size.toNat_lt
    have block_lt := generator.blocksize.toNat_lt
    dsimp only
    split
    · next fits =>
        rw [UInt64.toNat_mod]
        omega
    · next long =>
        rw [UInt64.toNat_sub, UInt64.toNat_mod]
        omega
  · obtain ⟨off, ends, wraps⟩ := accepted.ends_wrapped
      (ioCount * generator.blockalign) (by omega)
    refine (reached _ ends).imp_left fun window => ?_
    rw [window]
    unfold Folds
    dsimp only
    omega

end Sequential

/-! The random addresses. -/

section Random

variable {generator : RequestGenerator}

/-- The largest value drawn is the end of the window, so that a block must fit
in what is left there behind the last aligned address. -/
def Leaves (generator : RequestGenerator) : Prop :=
  generator.offset.toNat + generator.size.toNat < 2 ^ 64 ∧
    generator.blocksize.toNat ≤
      generator.size.toNat % generator.blockalign.toNat

theorem Accepted.random (accepted : generator.Accepted)
    (random : generator.type.random = true) (ioCount : UInt64) :
    ((∀ draw, generator.Draws draw → generator.InWindow ioCount draw) ↔
        generator.Leaves) ∧
      ∀ draw, ∃ fuel address,
        generator.generateAddress fuel ioCount draw = some address := by
  have yields : ∀ fuel draw, generator.generateAddress fuel ioCount draw =
      some (draw - draw % generator.blockalign, generator.blocksize) := by
    intro fuel draw
    unfold generateAddress
    rw [random, if_pos rfl]
  have window : ∀ draw, generator.InWindow ioCount draw ↔
      generator.offset.toNat ≤
          draw.toNat - draw.toNat % generator.blockalign.toNat ∧
        draw.toNat - draw.toNat % generator.blockalign.toNat +
            generator.blocksize.toNat ≤
          generator.offset.toNat + generator.size.toNat := by
    intro draw
    have aligned : (draw - draw % generator.blockalign).toNat =
        draw.toNat - draw.toNat % generator.blockalign.toNat := by
      rw [UInt64.toNat_sub_of_le, UInt64.toNat_mod]
      rw [UInt64.le_iff_toNat_le, UInt64.toNat_mod]
      exact Nat.mod_le _ _
    unfold InWindow
    simp only [yields, Option.some.injEq, Prod.mk.injEq]
    constructor
    · rintro ⟨-, off, len, ⟨rfl, rfl⟩, inside⟩
      rwa [aligned] at inside
    · intro inside
      refine ⟨0, _, _, ⟨rfl, rfl⟩, ?_⟩
      rwa [aligned]
  refine ⟨?_, fun draw => ⟨0, _, yields 0 draw⟩⟩
  have size := accepted.size
  have total := UInt64.toNat_add generator.offset generator.size
  have offset_lt := generator.offset.toNat_lt
  have size_lt := generator.size.toNat_lt
  unfold Leaves Draws
  rw [accepted.randgen]
  constructor
  · intro holds
    have fits : generator.offset.toNat + generator.size.toNat < 2 ^ 64 := by
      by_contra wraps
      have start := ((window 0).mp (holds 0 fun ordered => by
        change generator.offset ≤ generator.offset + generator.size at ordered
        have := UInt64.le_iff_toNat_le.mp ordered
        omega)).1
      change generator.offset.toNat ≤ 0 - 0 % _ at start
      omega
    rw [Nat.mod_eq_of_lt fits] at total
    have last := (window (generator.offset + generator.size)).mp
      (holds _ fun ordered => ⟨ordered, UInt64.le_refl _⟩)
    obtain ⟨multiple, aligned⟩ := accepted.aligned
    have rest : (generator.offset.toNat + generator.size.toNat) %
        generator.blockalign.toNat =
        generator.size.toNat % generator.blockalign.toNat := by
      rw [aligned, Nat.mul_add_mod]
    rw [total, rest] at last
    have le := Nat.mod_le generator.size.toNat generator.blockalign.toNat
    exact ⟨fits, by omega⟩
  · rintro ⟨fits, room⟩ draw draws
    rw [Nat.mod_eq_of_lt fits] at total
    have ordered : generator.offset ≤ generator.offset + generator.size := by
      rw [UInt64.le_iff_toNat_le, total]
      omega
    obtain ⟨lower, upper⟩ := draws ordered
    rw [UInt64.le_iff_toNat_le] at lower upper
    rw [total] at upper
    obtain ⟨multiple, aligned⟩ := accepted.aligned
    have draw_split := Nat.div_add_mod draw.toNat generator.blockalign.toNat
    have size_split := Nat.div_add_mod generator.size.toNat
      generator.blockalign.toNat
    have first : multiple ≤ draw.toNat / generator.blockalign.toNat := by
      rw [Nat.le_div_iff_mul_le accepted.blockalign, Nat.mul_comm, ← aligned]
      exact lower
    have last : draw.toNat / generator.blockalign.toNat ≤
        multiple + generator.size.toNat / generator.blockalign.toNat := by
      rw [← Nat.mul_add_div accepted.blockalign, ← aligned]
      exact Nat.div_le_div_right upper
    have first_block := Nat.mul_le_mul_left generator.blockalign.toNat first
    have last_block := Nat.mul_le_mul_left generator.blockalign.toNat last
    rw [Nat.mul_add] at last_block
    refine (window draw).mpr ⟨?_, ?_⟩
    · omega
    · omega

end Random

def Covers (generator : RequestGenerator) (ioCount : UInt64) : Prop :=
  if generator.type.random then generator.Leaves else generator.Folds ioCount

/-- Addresses are found at all times; those of an I/O lie in the window, for
whatever is drawn, exactly under `Covers`. -/
theorem generateAddress_inWindow {config : RequestConfig}
    {generator : RequestGenerator} {bytesize : UInt64} {bs : UInt32}
    (initialized : (make config).init bytesize bs = .ok generator)
    (ioCount : UInt64) :
    ((∀ draw, generator.Draws draw → generator.InWindow ioCount draw) ↔
        generator.Covers ioCount) ∧
      ∀ draw, ∃ fuel address,
        generator.generateAddress fuel ioCount draw = some address := by
  have accepted := init_accepted initialized
  unfold Covers
  cases random : generator.type.random with
  | true =>
      rw [if_pos rfl]
      exact accepted.random random ioCount
  | false =>
      rw [if_neg Bool.false_ne_true]
      have sequential := accepted.sequential random ioCount
      refine ⟨⟨fun holds => ?_, fun folds draw _ =>
        (sequential draw).1.mpr folds⟩, fun draw => (sequential draw).2⟩
      exact (sequential generator.randgen.1).1.mp
        (holds _ fun ordered => ⟨UInt64.le_refl _, ordered⟩)

def twoBlocks (type : IOType) : RequestConfig where
  type := type
  offset := 0
  size := 8192
  blocksize := 4096
  blockalign := 0

def twoBlocksGenerator (type : IOType) : RequestGenerator where
  type := type
  offset := 0
  size := 8192
  blocksize := 4096
  blockalign := 4096
  randgen := (0, 8192)

theorem generateAddress_inWindow_second :
    (make (twoBlocks .read)).init 1048576 512 =
        .ok (twoBlocksGenerator .read) ∧
      ∀ draw, (twoBlocksGenerator .read).Draws draw →
        (twoBlocksGenerator .read).InWindow 1 draw := by
  have initialized : (make (twoBlocks .read)).init 1048576 512 =
      .ok (twoBlocksGenerator .read) := rfl
  refine ⟨initialized,
    (generateAddress_inWindow initialized 1).1.mpr ?_⟩
  exact ⟨by decide, .inl ⟨by decide, by decide⟩⟩

/-- A random read behind the window, for the last value of the distribution,
and a sequential read of a block that is larger than the window. -/
theorem generateAddress_leaves_window :
    ((make (twoBlocks .randRead)).init 1048576 512 =
        .ok (twoBlocksGenerator .randRead) ∧
      (twoBlocksGenerator .randRead).Draws 8192 ∧
      ¬ (twoBlocksGenerator .randRead).InWindow 0 8192) ∧
    ∃ generator, (make { twoBlocks .read with size := 2048 }).init
        1048576 512 = .ok generator ∧ ¬ generator.InWindow 0 0 := by
  have initialized : (make { twoBlocks .read with size := 2048 }).init
      1048576 512 = .ok { twoBlocksGenerator .read with
        size := 2048, randgen := (0, 2048) } := rfl
  refine ⟨⟨rfl, by decide, ?_⟩, _, initialized, ?_⟩
  · rintro ⟨fuel, off, len, yields, -, fits⟩
    cases yields
    exact absurd fits (by decide)
  · intro window
    have sequential := (init_accepted initialized).sequential rfl 0 0
    exact absurd (sequential.1.mp window) (by decide)

end RequestGenerator

end SimpleSSD.IGL
