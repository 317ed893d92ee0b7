import SimpleSSD.Data.While
import SimpleSSD.IGL.Replay
import Mathlib.Data.Nat.ModEq

namespace SimpleSSD.IGL

open BIL Data
open Util (strtoul)

namespace Config

variable {config : Config} {groups : Match}

def parsedOffset (config : Config) (groups : Match) : Nat :=
  if config.useLBAOffset then
    (strtoul config.base (config.text groups .lbaOffset)).toNat *
      config.lbaSize.toNat
  else
    (strtoul config.base (config.text groups .byteOffset)).toNat

/-- The loop of the range check takes the size away while it can. -/
theorem inRange_loop {bio : BIO} (nonempty : config.ssdSize ≠ 0)
    (outside : bio.offset + bio.length > config.ssdSize) :
    Ends (fun offset => decide (offset ≥ config.ssdSize))
      (· - config.ssdSize) bio.offset (config.inRange bio).offset := by
  have folded : (config.inRange bio).offset =
      bio.offset % config.ssdSize := by
    unfold inRange
    rw [if_pos outside]
    dsimp only
    split <;> rfl
  rw [folded]
  exact subtract_ends nonempty bio.offset

/-- The bytes of an I/O lie on the device, at the place of the line. -/
def OnDevice (config : Config) (groups : Match) (bio : BIO) : Prop :=
  bio.offset.toNat < config.ssdSize.toNat ∧
    bio.offset.toNat + bio.length.toNat ≤ config.ssdSize.toNat ∧
    bio.offset.toNat ≡ config.parsedOffset groups [MOD config.ssdSize.toNat]

/-- Neither the sums of the range check nor the scaling lose a carry that
matters, and an empty I/O does not start at the end. -/
structure Bounded (config : Config) (groups : Match) : Prop where
  first : (config.offset groups).toNat + (config.length groups).toNat <
      2 ^ 64 ∨
    config.ssdSize.toNat + 2 ^ 64 <
      (config.offset groups).toNat + (config.length groups).toNat
  second : (config.offset groups).toNat % config.ssdSize.toNat +
    (config.length groups).toNat < 2 ^ 64
  notAtEnd : ¬ (config.offset groups = config.ssdSize ∧
    config.length groups = 0)
  scaled : (config.offset groups).toNat ≡ config.parsedOffset groups
    [MOD config.ssdSize.toNat]

theorem onDevice_iff (nonempty : config.ssdSize ≠ 0) {bio : BIO}
    (offset_eq : bio.offset = config.offset groups)
    (length_eq : bio.length = config.length groups) :
    config.OnDevice groups (config.inRange bio) ↔ config.Bounded groups := by
  have size : 0 < config.ssdSize.toNat :=
    Nat.pos_of_ne_zero fun zero => nonempty (UInt64.toNat_inj.mp zero)
  have below := Nat.mod_lt bio.offset.toNat size
  have le := Nat.mod_le bio.offset.toNat config.ssdSize.toNat
  have inside : bio.offset.toNat < config.ssdSize.toNat →
      bio.offset.toNat % config.ssdSize.toNat = bio.offset.toNat :=
    Nat.mod_eq_of_lt
  have offset_lt := bio.offset.toNat_lt
  have length_lt := bio.length.toNat_lt
  have size_lt := config.ssdSize.toNat_lt
  have total : (bio.offset + bio.length).toNat =
      (bio.offset.toNat + bio.length.toNat) % 2 ^ 64 := UInt64.toNat_add _ _
  have folded : (bio.offset % config.ssdSize + bio.length).toNat =
      (bio.offset.toNat % config.ssdSize.toNat + bio.length.toNat) %
        2 ^ 64 := by
    rw [UInt64.toNat_add, UInt64.toNat_mod]
  have atEnd : (bio.offset = config.ssdSize ∧ bio.length = 0) ↔
      (bio.offset.toNat = config.ssdSize.toNat ∧ bio.length.toNat = 0) := by
    rw [← UInt64.toNat_inj, ← UInt64.toNat_inj]
    rfl
  have bounded : config.Bounded groups ↔
      (bio.offset.toNat + bio.length.toNat < 2 ^ 64 ∨
          config.ssdSize.toNat + 2 ^ 64 <
            bio.offset.toNat + bio.length.toNat) ∧
        bio.offset.toNat % config.ssdSize.toNat + bio.length.toNat < 2 ^ 64 ∧
        ¬ (bio.offset.toNat = config.ssdSize.toNat ∧ bio.length.toNat = 0) ∧
        bio.offset.toNat ≡ config.parsedOffset groups
          [MOD config.ssdSize.toNat] := by
    rw [← atEnd, offset_eq, length_eq]
    exact ⟨fun holds => ⟨holds.first, holds.second, holds.notAtEnd,
      holds.scaled⟩, fun ⟨first, second, notAtEnd, scaled⟩ =>
      ⟨first, second, notAtEnd, scaled⟩⟩
  rw [bounded]
  unfold OnDevice inRange
  by_cases outside : bio.offset + bio.length > config.ssdSize
  · have exceeds := UInt64.lt_iff_toNat_lt.mp outside
    rw [total] at exceeds
    have scaled : bio.offset.toNat % config.ssdSize.toNat ≡
          config.parsedOffset groups [MOD config.ssdSize.toNat] ↔
        bio.offset.toNat ≡ config.parsedOffset groups
          [MOD config.ssdSize.toNat] := by
      unfold Nat.ModEq
      rw [Nat.mod_mod]
    rw [if_pos outside]
    dsimp only
    by_cases still : bio.offset % config.ssdSize + bio.length > config.ssdSize
    · have exceeds' := UInt64.lt_iff_toNat_lt.mp still
      rw [folded] at exceeds'
      have cut : (config.ssdSize - bio.offset % config.ssdSize).toNat =
          config.ssdSize.toNat -
            bio.offset.toNat % config.ssdSize.toNat := by
        rw [UInt64.toNat_sub_of_le _ _, UInt64.toNat_mod]
        exact UInt64.le_iff_toNat_le.mpr (by
          rw [UInt64.toNat_mod]
          omega)
      rw [if_pos still]
      dsimp only
      rw [UInt64.toNat_mod, cut, scaled]
      constructor
      · rintro ⟨-, -, same⟩
        exact ⟨by omega, by omega, by omega, same⟩
      · rintro ⟨-, -, -, same⟩
        exact ⟨by omega, by omega, same⟩
    · have within : ¬ config.ssdSize.toNat <
          (bio.offset % config.ssdSize + bio.length).toNat :=
        fun exceeds' => still (UInt64.lt_iff_toNat_lt.mpr exceeds')
      rw [folded] at within
      rw [if_neg still]
      dsimp only
      rw [UInt64.toNat_mod, scaled]
      constructor
      · rintro ⟨-, fits, same⟩
        exact ⟨by omega, by omega, by omega, same⟩
      · rintro ⟨-, fits, -, same⟩
        exact ⟨by omega, by omega, same⟩
  · have within : ¬ config.ssdSize.toNat <
        (bio.offset + bio.length).toNat :=
      fun exceeds => outside (UInt64.lt_iff_toNat_lt.mpr exceeds)
    rw [total] at within
    rw [if_neg outside]
    constructor
    · rintro ⟨starts, fits, same⟩
      have kept := inside starts
      exact ⟨by omega, by omega, by omega, same⟩
    · rintro ⟨first, -, notAtEnd, same⟩
      exact ⟨by omega, by omega, same⟩

end Config

namespace TraceReplayer

variable {config : Config} {replayer next : TraceReplayer}

theorem plan_submitted {tick : UInt64} {planned : TraceReplayer}
    (h : replayer.plan config tick = .ok planned) :
    planned.submitted = replayer.submitted := by
  unfold plan at h
  split at h
  · split at h
    · cases h
      rfl
    · cases h
  · split at h
    · cases h
    · unfold scheduleEvent at h
      obtain ⟨sim, -, rest⟩ := bind_ok h
      cases rest
      rfl

/-- The I/O of the next line that matches lies on the device, at the place the
line gives, exactly if the line is bounded. -/
theorem handleNextLine_onDevice {groups : Match}
    {lines : List (Option Match)} (nonempty : config.ssdSize ≠ 0)
    (running : replayer.reserveTermination = false)
    (matched : nextMatch replayer.lines = some (groups, lines))
    (handled : replayer.handleNextLine config = .ok next) :
    ∃ bio, next.submitted = replayer.submitted ++
        [⟨groups, bio, next.tick, next.ioDepth⟩] ∧
      (config.OnDevice groups bio ↔ config.Bounded groups) := by
  refine ⟨replayer.fill config groups, ?_, Config.onDevice_iff nonempty rfl rfl⟩
  unfold handleNextLine at handled
  rw [running, if_neg Bool.false_ne_true, matched] at handled
  dsimp only at handled
  cases time : config.mergeTime groups with
  | none =>
      rw [time] at handled
      cases handled
  | some tick =>
      rw [time] at handled
      dsimp only at handled
      have kept : ∃ planned : TraceReplayer,
          planned.submitted =
              (replayer.take config groups lines tick).submitted ∧
            next = planned.submit groups (replayer.fill config groups) := by
        split at handled
        · obtain ⟨planned, plan_eq, rest⟩ := bind_ok handled
          cases rest
          exact ⟨planned, plan_submitted plan_eq, rfl⟩
        · cases handled
          exact ⟨_, rfl, rfl⟩
      obtain ⟨planned, kept, rfl⟩ := kept
      unfold submit
      dsimp only
      rw [kept]
      rfl

/-- A read of a mebibyte that starts half a kibibyte behind the end of the
device is taken back to the start and cut at the end. -/
theorem handleNextLine_onDevice_folded :
    let groups := [[], ['r'], ['1', '0', '4', '9', '0', '8', '8'],
      ['1', '0', '4', '8', '5', '7', '6'], ['0']]
    ∃ next, (freshReplayer [some groups]).handleNextLine strictConfig =
        .ok next ∧
      ∃ bio, next.submitted = [⟨groups, bio, next.tick, next.ioDepth⟩] ∧
        bio.offset = 512 ∧ bio.length = 1048064 ∧
        strictConfig.OnDevice groups bio := by
  intro groups
  have handled : ∃ next,
      (freshReplayer [some groups]).handleNextLine strictConfig = .ok next ∧
        next.submitted.map (fun io => (io.bio.offset, io.bio.length)) =
          [(512, 1048064)] :=
    ⟨_, rfl, by decide +kernel⟩
  obtain ⟨next, handled, range⟩ := handled
  obtain ⟨bio, submitted, onDevice⟩ := handleNextLine_onDevice
    (by decide) (by decide) (rfl : nextMatch [some groups] = _) handled
  rw [submitted] at range
  obtain ⟨offset, length⟩ := Prod.mk.inj (List.cons.inj range).1
  refine ⟨next, handled, bio, submitted, offset, length, onDevice.mpr ?_⟩
  exact ⟨by decide, by decide, by decide, rfl⟩

/-- The last byte that 64 bits can name is read where it is. -/
theorem handleNextLine_wraps :
    let last := ['1', '8', '4', '4', '6', '7', '4', '4', '0', '7', '3', '7',
      '0', '9', '5', '5', '1', '6', '1', '5']
    let groups := [[], ['r'], last, ['1'], ['0']]
    ∃ next, (freshReplayer [some groups]).handleNextLine strictConfig =
        .ok next ∧
      ∃ io ∈ next.submitted, ¬ strictConfig.OnDevice groups io.bio := by
  intro last groups
  refine ⟨_, rfl, _, List.mem_singleton.mpr rfl, ?_⟩
  intro onDevice
  exact absurd onDevice.1 (by decide +kernel)

end TraceReplayer

end SimpleSSD.IGL
