import SimpleSSD.PAL.Filing

namespace SimpleSSD.PAL

open Data FreeSlots

structure Window where
  low : Nat
  size : Nat
  deriving DecidableEq, Repr

namespace Window

def Covers (window : Window) (tick : Nat) : Prop :=
  window.low ≤ tick ∧ tick < window.low + window.size

def Apart (window other : Window) : Prop :=
  ∀ tick, ¬ (window.Covers tick ∧ other.Covers tick)

end Window

namespace Resource

structure Booked (resource : Resource) (windows : List Window) : Prop where
  separated : resource.Separated 0
  filed : resource.freeSlots.Filed
  clear : ∀ window ∈ windows, 0 < window.size →
    resource.Clear 0 window.low (window.low + window.size - 1)
  below : ∀ window ∈ windows,
    window.low + window.size ≤ resource.startPoint.toNat

section

variable {resource after : Resource} {windows : List Window}
  {tickLen tickFrom startTick : UInt64} {split : Bool}

theorem filed_addPieces {pieces : List Piece}
    (filed : resource.freeSlots.Filed) :
    (resource.addPieces pieces).freeSlots.Filed := by
  induction pieces generalizing resource with
  | nil => exact filed
  | cons piece pieces induction =>
      exact @induction ⟨_, resource.startPoint⟩ filed.add

theorem held_addPieces {pieces : List Piece} {key : UInt64}
    {slot : UInt64 × UInt64} (held : resource.freeSlots.Held key slot) :
    (resource.addPieces pieces).freeSlots.Held key slot := by
  induction pieces generalizing resource with
  | nil => exact held
  | cons piece pieces induction =>
      exact @induction ⟨_, resource.startPoint⟩ (held_add_of_held held)

theorem keyFor_addPieces {pieces : List Piece} :
    (resource.addPieces pieces).freeSlots.keyFor =
      resource.freeSlots.keyFor := by
  induction pieces generalizing resource with
  | nil => rfl
  | cons piece pieces induction =>
      exact (@induction ⟨_, resource.startPoint⟩).trans keyFor_add

/-- A slot, or the time from the start point on, is divided: what is left
without it, and the pieces that are put back. -/
inductive Divided (resource : Resource) (tickLen tickFrom startTick : UInt64)
    (split : Bool) : Resource → Prop
  | startPoint (start : startTick = resource.startPoint) :
      Divided resource tickLen tickFrom startTick split
        (addPieces ⟨resource.freeSlots, tickFrom + tickLen⟩
          (windowPiece tickLen tickFrom split ++ leftPiece tickFrom startTick))
  | slot {key last : UInt64}
      (held : resource.freeSlots.Held key (startTick, last))
      (fits : tickLen.toNat + tickFrom.toNat ≤ last.toNat + 1) :
      Divided resource tickLen tickFrom startTick split
        (addPieces ⟨resource.freeSlots.modify key (·.erase startTick),
            resource.startPoint⟩
          (leftPiece tickFrom startTick ++ windowPiece tickLen tickFrom split ++
            rightPiece tickLen tickFrom last))

theorem insert_divided (separated : resource.Separated 0)
    (filed : resource.freeSlots.Filed)
    (holds : resource.Holds tickLen tickFrom startTick)
    (fits : tickLen.toNat + tickFrom.toNat < 2 ^ 64)
    (reached : resource.insertFreeSlot tickLen tickFrom startTick split =
      .ok after) :
    resource.Divided tickLen tickFrom startTick split after := by
  by_cases start : startTick = resource.startPoint
  · rw [insert_startPoint start reached]
    exact .startPoint start
  · obtain ⟨key, last, held, long⟩ := holds.free.resolve_left start
    have long := window_le fits long
    have le := UInt64.le_iff_toNat_le.mp holds.start_le
    have complete : resource.freeSlots.findSlot tickLen startTick =
        some (key, last) :=
      findSlot_complete separated filed held (by omega)
    rcases insert_slot start reached with ⟨absent, -⟩ | ⟨key', last', found, rfl⟩
    · rw [complete] at absent
      cases absent
    · rw [complete] at found
      cases found
      exact .slot held long

theorem Divided.startPoint_le
    (divided : resource.Divided tickLen tickFrom startTick split after)
    (separated : resource.Separated 0) (le : startTick ≤ tickFrom)
    (fits : tickLen.toNat + tickFrom.toNat < 2 ^ 64) :
    resource.startPoint.toNat ≤ after.startPoint.toNat ∧
      tickFrom.toNat + tickLen.toNat ≤ after.startPoint.toNat := by
  rw [UInt64.le_iff_toNat_le] at le
  cases divided with
  | startPoint start =>
      have moved : (tickFrom + tickLen).toNat =
          tickFrom.toNat + tickLen.toNat := by
        rw [UInt64.toNat_add]
        omega
      subst start
      change _ ≤ (tickFrom + tickLen).toNat ∧ _ ≤ (tickFrom + tickLen).toNat
      omega
  | slot held long =>
      have below := separated.below held
      change _ ≤ resource.startPoint.toNat ∧ _ ≤ resource.startPoint.toNat
      dsimp only at below
      omega

theorem Divided.clear {low high : Nat}
    (divided : resource.Divided tickLen tickFrom startTick split after)
    (separated : resource.Separated 0) (le : startTick ≤ tickFrom)
    (fits : tickLen.toNat + tickFrom.toNat < 2 ^ 64)
    (undivided : split = true → 0 < tickLen.toNat)
    (clear : resource.Clear 0 low high) (some : low ≤ high)
    (below : high < resource.startPoint.toNat) :
    after.Clear 0 low high := by
  have bound := resource.startPoint.toNat_lt
  rw [UInt64.le_iff_toNat_le] at le
  cases divided with
  | startPoint start =>
      subst start
      refine Clear.addPieces clear (fun piece member => ?_)
        fun piece member => ?_
      · rcases List.mem_append.mp member with member | member
        · have := mem_windowPiece member
          have := undivided this.1
          omega
        · have := mem_leftPiece member
          omega
      · rcases List.mem_append.mp member with member | member
        · have := mem_windowPiece member
          omega
        · have := mem_leftPiece member
          omega
  | @slot key last held long =>
      have kept : Clear 0 ⟨resource.freeSlots.modify key (·.erase startTick),
          resource.startPoint⟩ low high :=
        fun key slot held => clear key slot (held_erase held).1
      have apart := clear _ _ held
      have short := separated.below held
      dsimp only at apart short
      refine Clear.addPieces kept (fun piece member => ?_)
        fun piece member => ?_
      · rcases List.mem_append.mp member with member | member
        · rcases List.mem_append.mp member with member | member
          · have := mem_leftPiece member
            omega
          · have := mem_windowPiece member
            have := undivided this.1
            omega
        · have := mem_rightPiece fits member
          omega
      · rcases List.mem_append.mp member with member | member
        · rcases List.mem_append.mp member with member | member
          · have := mem_leftPiece member
            omega
          · have := mem_windowPiece member
            omega
        · have := mem_rightPiece fits member
          omega

theorem Divided.window_clear
    (divided : resource.Divided tickLen tickFrom startTick false after)
    (separated : resource.Separated 0) (le : startTick ≤ tickFrom)
    (fits : tickLen.toNat + tickFrom.toNat < 2 ^ 64)
    (positive : 0 < tickLen.toNat) :
    after.Clear 0 tickFrom.toNat (tickFrom.toNat + tickLen.toNat - 1) := by
  rw [UInt64.le_iff_toNat_le] at le
  cases divided with
  | startPoint start =>
      subst start
      have clear := separated.clear (tickFrom.toNat + tickLen.toNat - 1)
      refine Clear.addPieces (Clear.mono clear le (Nat.le_refl _))
        (fun piece member => ?_) fun piece member => ?_
      · have := mem_leftPiece member
        omega
      · have := mem_leftPiece member
        omega
  | @slot key last held long =>
      have below := separated.below held
      have bound := resource.startPoint.toNat_lt
      dsimp only at below
      refine Clear.addPieces
        ((separated.erase held).mono le (by omega))
        (fun piece member => ?_) fun piece member => ?_
      · rcases List.mem_append.mp member with member | member
        · rcases List.mem_append.mp member with member | member
          · have := mem_leftPiece member
            omega
          · cases member
        · have := mem_rightPiece fits member
          omega
      · rcases List.mem_append.mp member with member | member
        · rcases List.mem_append.mp member with member | member
          · have := mem_leftPiece member
            omega
          · cases member
        · have := mem_rightPiece fits member
          omega

theorem Divided.filed
    (divided : resource.Divided tickLen tickFrom startTick split after)
    (filed : resource.freeSlots.Filed) : after.freeSlots.Filed := by
  cases divided with
  | startPoint start => exact @filed_addPieces ⟨_, _⟩ _ filed
  | slot held long => exact @filed_addPieces ⟨_, _⟩ _ (filed.erase _)

/-- What is reserved was free: it is in none of the windows. -/
theorem Booked.apart (booked : resource.Booked windows)
    (holds : resource.Holds tickLen tickFrom startTick)
    (fits : tickLen.toNat + tickFrom.toNat < 2 ^ 64) :
    ∀ other ∈ windows,
      Window.Apart ⟨tickFrom.toNat, tickLen.toNat⟩ other := by
  intro other member tick both
  unfold Window.Covers at both
  have le := UInt64.le_iff_toNat_le.mp holds.start_le
  have below := booked.below other member
  have clear := booked.clear other member (by omega)
  dsimp only at both
  rcases holds.free with rfl | ⟨key, last, held, long⟩
  · omega
  · have long := window_le fits long
    have apart := clear _ _ held
    dsimp only at apart
    omega

theorem Booked.reserve (booked : resource.Booked windows)
    (holds : resource.Holds tickLen tickFrom startTick)
    (fits : tickLen.toNat + tickFrom.toNat < 2 ^ 64)
    (reached : resource.insertFreeSlot tickLen tickFrom startTick false =
      .ok after) :
    after.Booked (⟨tickFrom.toNat, tickLen.toNat⟩ :: windows) := by
  have divided := insert_divided booked.separated booked.filed holds fits
    reached
  have raised := divided.startPoint_le booked.separated holds.start_le fits
  refine ⟨?_, divided.filed booked.filed, fun other member positive => ?_,
    fun other member => ?_⟩
  · exact booked.separated.insertFreeSlot holds fits (Nat.zero_le _)
      (fun divided => absurd divided Bool.false_ne_true) reached
  · rcases List.mem_cons.mp member with rfl | old
    · exact divided.window_clear booked.separated holds.start_le fits positive
    · have below := booked.below other old
      exact divided.clear booked.separated holds.start_le fits
        (fun divided => absurd divided Bool.false_ne_true)
        (booked.clear other old positive) (by omega) (by omega)
  · rcases List.mem_cons.mp member with rfl | old
    · exact raised.2
    · exact Nat.le_trans (booked.below other old) raised.1

theorem Booked.divide (booked : resource.Booked windows)
    (holds : resource.Holds tickLen tickFrom startTick)
    (fits : tickLen.toNat + tickFrom.toNat < 2 ^ 64)
    (positive : 0 < tickLen.toNat)
    (reached : resource.insertFreeSlot tickLen tickFrom startTick true =
      .ok after) :
    after.Booked windows := by
  have divided := insert_divided booked.separated booked.filed holds fits
    reached
  have raised := divided.startPoint_le booked.separated holds.start_le fits
  refine ⟨?_, divided.filed booked.filed, fun other member some => ?_,
    fun other member => ?_⟩
  · exact booked.separated.insertFreeSlot holds fits (Nat.zero_le _)
      (fun _ => ⟨rfl, positive⟩) reached
  · have below := booked.below other member
    exact divided.clear booked.separated holds.start_le fits (fun _ => positive)
      (booked.clear other member some) (by omega) (by omega)
  · exact Nat.le_trans (booked.below other member) raised.1

/-- A piece for which there is a map becomes a free slot. -/
theorem piece_held {piece : Piece} {high : Nat} {key : UInt64}
    (clear : resource.Clear 0 piece.low high) (le : piece.low ≤ high)
    (nonempty : ∀ {key slot}, resource.freeSlots.Held key slot →
      slot.1.toNat ≤ slot.2.toNat)
    (filed : resource.freeSlots.keyFor piece.tickLen = some key) :
    (resource.addPieces [piece]).freeSlots.Held key
      (piece.tickFrom, piece.tickFrom + piece.tickLen - 1) := by
  refine held_add_self filed fun last held => ?_
  have apart := clear _ _ held
  have some := nonempty held
  unfold Piece.low at apart le
  dsimp only at apart some
  omega

theorem addPieces_concat (pieces : List Piece) (piece : Piece) :
    resource.addPieces (pieces ++ [piece]) =
      (resource.addPieces pieces).addPieces [piece] := by
  unfold addPieces
  rw [List.foldl_append]

theorem rightPiece_eq {last : UInt64}
    (positive : 0 < tickFrom.toNat + tickLen.toNat)
    (some : tickFrom.toNat + tickLen.toNat ≤ last.toNat) :
    rightPiece tickLen tickFrom last =
        [⟨last - (tickFrom + tickLen - 1), tickFrom + tickLen⟩] ∧
      (last - (tickFrom + tickLen - 1)).toNat + tickFrom.toNat +
        tickLen.toNat = last.toNat + 1 := by
  have bound := last.toNat_lt
  have window := last_toNat tickFrom tickLen (by omega) positive
  constructor
  · unfold rightPiece
    rw [UInt64.add_comm tickLen tickFrom, if_pos]
    rw [gt_iff_lt, UInt64.lt_iff_toNat_lt]
    omega
  · rw [UInt64.toNat_sub_of_le _ _ (by rw [UInt64.le_iff_toNat_le]; omega)]
    omega

theorem rest_held {key last : UInt64} {e : UInt64 × Slots}
    (held : resource.freeSlots.Held key (startTick, last))
    (separated : resource.Separated 0) (le : startTick.toNat ≤ tickFrom.toNat)
    (sound : (addPieces ⟨resource.freeSlots.modify key (·.erase startTick),
        resource.startPoint⟩
      (leftPiece tickFrom startTick ++ windowPiece tickLen tickFrom false ++
        rightPiece tickLen tickFrom last)).Separated 0)
    (positive : 0 < tickFrom.toNat + tickLen.toNat)
    (some : tickFrom.toNat + tickLen.toNat ≤ last.toNat)
    (listed : e ∈ resource.freeSlots.entries)
    (served : e.1.toNat + tickFrom.toNat + tickLen.toNat ≤ last.toNat + 1) :
    ∃ other, (addPieces ⟨resource.freeSlots.modify key (·.erase startTick),
        resource.startPoint⟩
      (leftPiece tickFrom startTick ++ windowPiece tickLen tickFrom false ++
        rightPiece tickLen tickFrom last)).freeSlots.Held other
          (tickFrom + tickLen, last) := by
  have bound := last.toNat_lt
  have low : (tickFrom + tickLen).toNat =
      tickFrom.toNat + tickLen.toNat := by
    rw [UInt64.toNat_add]
    omega
  obtain ⟨right, length⟩ := rightPiece_eq positive some
  have ends : tickFrom + tickLen + (last - (tickFrom + tickLen - 1)) - 1 =
      last := by
    grind
  have short : e.1 ≤ last - (tickFrom + tickLen - 1) := by
    rw [UInt64.le_iff_toNat_le]
    omega
  obtain ⟨other, filed⟩ := keyFor_isSome listed short
  rw [right, addPieces_concat] at sound ⊢
  have clear : Clear 0 (addPieces
      ⟨resource.freeSlots.modify key (·.erase startTick), resource.startPoint⟩
      (leftPiece tickFrom startTick ++ windowPiece tickLen tickFrom false))
      (tickFrom.toNat + tickLen.toNat) last.toNat := by
    refine Clear.addPieces
      ((separated.erase held).mono (by omega) (Nat.le_refl _))
      (fun piece member => ?_) fun piece member => ?_
    · have := mem_leftPiece (List.append_nil _ ▸ member)
      omega
    · have := mem_leftPiece (List.append_nil _ ▸ member)
      omega
  have kept : (addPieces
      ⟨resource.freeSlots.modify key (·.erase startTick), resource.startPoint⟩
      (leftPiece tickFrom startTick ++
        windowPiece tickLen tickFrom false)).freeSlots.keyFor =
      resource.freeSlots.keyFor :=
    keyFor_addPieces.trans (keyFor_mapValues _)
  generalize addPieces ⟨resource.freeSlots.modify key (·.erase startTick),
    resource.startPoint⟩ _ = divided at sound clear kept ⊢
  refine ⟨other, ?_⟩
  rw [← kept] at filed
  rw [← low] at clear some
  have added := @piece_held divided
    ⟨last - (tickFrom + tickLen - 1), tickFrom + tickLen⟩ _ other clear some
    (fun held => sound.nonempty (held_addPieces held)) filed
  rw [ends] at added
  exact added

/-- A search that was successful before a window was reserved is successful at
the same tick behind that window, if what is left between them has a map. -/
theorem Divided.findPlace_stays {nextLen nextFrom nextTick : UInt64}
    {e : UInt64 × Slots}
    (divided : resource.Divided tickLen tickFrom startTick false after)
    (separated : resource.Separated 0) (sound : after.Separated 0)
    (filed : after.freeSlots.Filed) (le : startTick ≤ tickFrom)
    (holds : resource.Holds nextLen nextFrom nextTick)
    (fits : nextLen.toNat + nextFrom.toNat < 2 ^ 64)
    (behind : tickFrom.toNat + tickLen.toNat ≤ nextFrom.toNat)
    (positive : 0 < tickFrom.toNat + tickLen.toNat)
    (some : tickFrom.toNat + tickLen.toNat < nextLen.toNat + nextFrom.toNat)
    (listed : e ∈ resource.freeSlots.entries)
    (served : e.1.toNat + tickFrom.toNat + tickLen.toNat ≤
      nextLen.toNat + nextFrom.toNat) :
    (after.findPlace nextLen nextFrom).tickFrom = nextFrom := by
  have bound := nextFrom.toNat_lt
  have moved : (tickFrom + tickLen).toNat =
      tickFrom.toNat + tickLen.toNat := by
    rw [UInt64.toNat_add]
    omega
  have le' := UInt64.le_iff_toNat_le.mp holds.start_le
  rw [UInt64.le_iff_toNat_le] at le
  rcases holds.free with rfl | ⟨key, last, held, long⟩
  · refine findPlace_behind sound ?_
    rw [UInt64.le_iff_toNat_le]
    cases divided with
    | startPoint start =>
        change (tickFrom + tickLen).toNat ≤ _
        omega
    | slot => exact le'
  · have long := window_le fits long
    have found : ∃ other start, after.freeSlots.Held other (start, last) ∧
        start ≤ nextFrom := by
      cases divided with
      | startPoint start =>
          exact ⟨key, nextTick, held_addPieces held, holds.start_le⟩
      | @slot other end' origin long' =>
          by_cases same : key = other ∧ nextTick = startTick
          · obtain ⟨rfl, rfl⟩ := same
            have equal : end' = last := by
              rcases separated.apart origin held with same | apart
              · exact (Prod.mk.inj same.2).2
              · have := separated.nonempty origin
                have := separated.nonempty held
                dsimp only at *
                omega
            subst equal
            obtain ⟨other, rest⟩ := rest_held origin separated le sound
              positive (by omega) listed (by omega)
            refine ⟨other, _, rest, ?_⟩
            rw [UInt64.le_iff_toNat_le]
            omega
          · exact ⟨key, nextTick,
              held_addPieces (held_erase_of_held held same), holds.start_le⟩
    obtain ⟨other, start, held, early⟩ := found
    exact findPlace_complete sound filed held early (by omega) long

end

end Resource

end SimpleSSD.PAL
