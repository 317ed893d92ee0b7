import SimpleSSD.PAL.FreeSlots

namespace SimpleSSD.PAL

open Data FreeSlots

namespace Resource

/-- The window of `tickLen` ticks from `tickFrom` on lies in the free slot that
starts with `tick`, or behind the start point if `tick` is that. -/
structure Holds (resource : Resource) (tickLen tickFrom tick : UInt64) :
    Prop where
  start_le : tick ≤ tickFrom
  free : tick = resource.startPoint ∨
    ∃ key last, resource.freeSlots.Held key (tick, last) ∧
      tickLen + tickFrom - 1 ≤ last

/-- A place is found at `tickFrom`, or later and then where its slot starts. -/
structure Offers (resource : Resource) (tickLen tickFrom : UInt64)
    (place : Place) : Prop where
  holds : resource.Holds tickLen place.tickFrom place.tick
  moved : place.tickFrom = tickFrom ∨
    (tickFrom < place.tickFrom ∧ place.tick = place.tickFrom)

theorem findPlace_offers (resource : Resource) (tickLen tickFrom : UInt64) :
    resource.Offers tickLen tickFrom
      (resource.findPlace tickLen tickFrom) := by
  unfold findPlace
  split
  · split
    · next before => exact ⟨⟨UInt64.le_refl _, .inl rfl⟩, .inr ⟨before, rfl⟩⟩
    · next behind =>
        exact ⟨⟨UInt64.not_lt.mp behind, .inl rfl⟩, .inl rfl⟩
  · next found reached =>
      obtain ⟨key, last, held, suits⟩ := findFreeTime_suits reached
      split at suits
      · next conflicts =>
          rw [if_pos conflicts]
          exact ⟨⟨UInt64.le_refl _, .inr ⟨key, last, held, suits.2⟩⟩,
            .inr ⟨suits.1, rfl⟩⟩
      · next conflicts =>
          rw [if_neg conflicts]
          exact ⟨⟨suits.1, .inr ⟨key, last, held, suits.2⟩⟩, .inl rfl⟩

theorem Offers.le {resource : Resource} {tickLen tickFrom : UInt64}
    {place : Place} (offers : resource.Offers tickLen tickFrom place) :
    tickFrom ≤ place.tickFrom := by
  rcases offers.moved with same | later
  · exact same ▸ UInt64.le_refl _
  · exact UInt64.le_of_lt later.1

theorem Offers.of_tick_le {resource : Resource} {tickLen tickFrom : UInt64}
    {place : Place} (offers : resource.Offers tickLen tickFrom place)
    (le : place.tick ≤ tickFrom) : place.tickFrom = tickFrom := by
  rcases offers.moved with same | ⟨less, start⟩
  · exact same
  · exact absurd less (UInt64.not_lt.mpr (start ▸ le))

/-- The free slots stand apart with more than `gap` ticks from one to the next,
and from the last to the start point. -/
structure Separated (gap : Nat) (resource : Resource) : Prop where
  nonempty : ∀ {key slot}, resource.freeSlots.Held key slot →
    slot.1.toNat ≤ slot.2.toNat
  below : ∀ {key slot}, resource.freeSlots.Held key slot →
    slot.2.toNat + gap < resource.startPoint.toNat
  apart : ∀ {key slot other later}, resource.freeSlots.Held key slot →
    resource.freeSlots.Held other later →
    (key = other ∧ slot = later) ∨ slot.2.toNat + gap < later.1.toNat ∨
      later.2.toNat + gap < slot.1.toNat

/-- The ticks from `low` to `high` stand apart from all free slots. -/
def Clear (gap : Nat) (resource : Resource) (low high : Nat) : Prop :=
  ∀ key slot, resource.freeSlots.Held key slot →
    slot.2.toNat + gap < low ∨ high + gap < slot.1.toNat

section

variable {gap : Nat} {resource : Resource}
  {tickLen tickFrom tick startTick : UInt64}

theorem last_toNat (tickFrom tickLen : UInt64)
    (fits : tickFrom.toNat + tickLen.toNat < 2 ^ 64)
    (positive : 0 < tickFrom.toNat + tickLen.toNat) :
    (tickFrom + tickLen - 1).toNat = tickFrom.toNat + tickLen.toNat - 1 := by
  have sum : (tickFrom + tickLen).toNat = tickFrom.toNat + tickLen.toNat := by
    rw [UInt64.toNat_add]
    exact Nat.mod_eq_of_lt fits
  have one : (1 : UInt64) ≤ tickFrom + tickLen := by
    rw [UInt64.le_iff_toNat_le, sum]
    exact positive
  rw [UInt64.toNat_sub_of_le _ _ one, sum]
  rfl

theorem window_le {last : UInt64}
    (fits : tickLen.toNat + tickFrom.toNat < 2 ^ 64)
    (le : tickLen + tickFrom - 1 ≤ last) :
    tickLen.toNat + tickFrom.toNat ≤ last.toNat + 1 := by
  rw [UInt64.le_iff_toNat_le] at le
  by_cases empty : tickLen.toNat + tickFrom.toNat = 0
  · omega
  · rw [last_toNat _ _ fits (by omega)] at le
    omega

/-- Two windows that begin with one tick lie in one slot. -/
theorem Separated.holds_unique {otherLen other : UInt64}
    (separated : resource.Separated gap)
    (holds : resource.Holds tickLen tickFrom tick)
    (fits : tickLen.toNat + tickFrom.toNat < 2 ^ 64)
    (holds' : resource.Holds otherLen tickFrom other)
    (fits' : otherLen.toNat + tickFrom.toNat < 2 ^ 64)
    (room : 0 < tickLen.toNat + gap) (positive : 0 < otherLen.toNat) :
    tick = other := by
  have le := UInt64.le_iff_toNat_le.mp holds.start_le
  have le' := UInt64.le_iff_toNat_le.mp holds'.start_le
  rcases holds.free with rfl | ⟨key, last, held, long⟩ <;>
    rcases holds'.free with rfl | ⟨key', last', held', long'⟩
  · rfl
  · have below := separated.below held'
    have long := window_le fits' long'
    dsimp only at below
    omega
  · have below := separated.below held
    have long := window_le fits long
    dsimp only at below
    omega
  · have long := window_le fits long
    have long' := window_le fits' long'
    rcases separated.apart held held' with same | apart
    · exact (Prod.mk.inj same.2).1
    · dsimp only at apart
      omega

theorem Clear.mono {low high low' high' : Nat}
    (clear : resource.Clear gap low high) (left : low ≤ low')
    (right : high' ≤ high) : resource.Clear gap low' high' := by
  intro key slot held
  have := clear key slot held
  omega

theorem Separated.clear (separated : resource.Separated gap) (high : Nat) :
    resource.Clear gap resource.startPoint.toNat high :=
  fun _ _ held => .inl (separated.below held)

theorem Separated.raise {startPoint : UInt64}
    (separated : resource.Separated gap)
    (le : resource.startPoint.toNat ≤ startPoint.toNat) :
    Separated gap ⟨resource.freeSlots, startPoint⟩ where
  nonempty := separated.nonempty
  below := fun held => Nat.lt_of_lt_of_le (separated.below held) le
  apart := separated.apart

theorem Separated.subset {freeSlots : FreeSlots}
    (separated : resource.Separated gap)
    (subset : ∀ {key slot}, freeSlots.Held key slot →
      resource.freeSlots.Held key slot) :
    Separated gap { resource with freeSlots } where
  nonempty := fun held => separated.nonempty (subset held)
  below := fun held => separated.below (subset held)
  apart := fun held held' => separated.apart (subset held) (subset held')

theorem Separated.erase {key last : UInt64}
    (separated : resource.Separated gap)
    (held : resource.freeSlots.Held key (startTick, last)) :
    Clear gap { resource with
      freeSlots := resource.freeSlots.modify key (·.erase startTick) }
      startTick.toNat last.toNat := by
  intro other slot kept
  obtain ⟨kept, different⟩ := held_erase kept
  rcases separated.apart held kept with ⟨rfl, rfl⟩ | apart
  · exact absurd ⟨rfl, rfl⟩ different
  · exact apart.symm

theorem Separated.add (separated : resource.Separated gap)
    (clear : resource.Clear gap tickFrom.toNat
      (tickFrom.toNat + tickLen.toNat - 1))
    (positive : 0 < tickLen.toNat)
    (below : tickFrom.toNat + tickLen.toNat + gap ≤
      resource.startPoint.toNat) :
    Separated gap { resource with
      freeSlots := resource.freeSlots.addFreeSlot tickLen tickFrom } := by
  have bound := resource.startPoint.toNat_lt
  have last := last_toNat tickFrom tickLen (by omega) (by omega)
  constructor
  · intro key slot held
    rcases held_add held with old | ⟨-, rfl⟩
    · exact separated.nonempty old
    · dsimp only
      omega
  · intro key slot held
    rcases held_add held with old | ⟨-, rfl⟩
    · exact separated.below old
    · dsimp only
      omega
  · intro key slot other later held held'
    rcases held_add held with old | ⟨filed, rfl⟩ <;>
      rcases held_add held' with old' | ⟨filed', rfl⟩
    · exact separated.apart old old'
    · have := clear _ _ old
      dsimp only
      omega
    · have := clear _ _ old'
      dsimp only
      omega
    · exact .inl ⟨Option.some.inj (filed.symm.trans filed'), rfl⟩

theorem Clear.add {low high : Nat} (clear : resource.Clear gap low high)
    (fits : tickFrom.toNat + tickLen.toNat < 2 ^ 64)
    (positive : 0 < tickLen.toNat)
    (apart : tickFrom.toNat + tickLen.toNat + gap ≤ low ∨
      high + gap < tickFrom.toNat) :
    Clear gap { resource with
      freeSlots := resource.freeSlots.addFreeSlot tickLen tickFrom }
      low high := by
  have last := last_toNat _ _ fits (by omega)
  intro key slot held
  rcases held_add held with old | ⟨-, rfl⟩
  · exact clear key slot old
  · dsimp only
    omega

end

structure Piece where
  tickLen : UInt64
  tickFrom : UInt64

namespace Piece

def low (piece : Piece) : Nat := piece.tickFrom.toNat

def size (piece : Piece) : Nat := piece.tickLen.toNat

def Apart (gap : Nat) (piece other : Piece) : Prop :=
  piece.low + piece.size + gap ≤ other.low ∨
    other.low + other.size + gap ≤ piece.low

end Piece

def addPieces (resource : Resource) (pieces : List Piece) : Resource :=
  { resource with
    freeSlots := pieces.foldl
      (fun freeSlots piece => freeSlots.addFreeSlot piece.tickLen
        piece.tickFrom)
      resource.freeSlots }

structure Suited (gap : Nat) (resource : Resource) (piece : Piece) : Prop where
  positive : 0 < piece.size
  clear : resource.Clear gap piece.low (piece.low + piece.size - 1)
  below : piece.low + piece.size + gap ≤ resource.startPoint.toNat

theorem Separated.addPieces {gap : Nat} {resource : Resource}
    {pieces : List Piece} (separated : resource.Separated gap)
    (suited : ∀ piece ∈ pieces, resource.Suited gap piece)
    (apart : pieces.Pairwise (Piece.Apart gap)) :
    (resource.addPieces pieces).Separated gap := by
  induction pieces generalizing resource with
  | nil => exact separated
  | cons piece pieces induction =>
      obtain ⟨first, rest⟩ := List.pairwise_cons.mp apart
      have fresh := suited piece List.mem_cons_self
      have fits := resource.startPoint.toNat_lt
      have below := fresh.below
      refine induction (separated.add fresh.clear fresh.positive below)
        (fun other member => ?_) rest
      have old := suited other (List.mem_cons_of_mem _ member)
      have positive := old.positive
      refine ⟨positive, ?_, old.below⟩
      have apart := first other member
      unfold Piece.Apart at apart
      refine Clear.add old.clear ?_ fresh.positive ?_
      · change piece.low + piece.size < _
        omega
      · change piece.low + piece.size + gap ≤ _ ∨ _ < piece.low
        omega

theorem Clear.addPieces {gap low high : Nat} {resource : Resource}
    {pieces : List Piece} (clear : resource.Clear gap low high)
    (fits : ∀ piece ∈ pieces, 0 < piece.size ∧
      piece.low + piece.size < 2 ^ 64)
    (apart : ∀ piece ∈ pieces, piece.low + piece.size + gap ≤ low ∨
      high + gap < piece.low) :
    (resource.addPieces pieces).Clear gap low high := by
  induction pieces generalizing resource with
  | nil => exact clear
  | cons piece pieces induction =>
      have first := fits piece List.mem_cons_self
      exact induction
        (clear.add first.2 first.1 (apart piece List.mem_cons_self))
        (fun other member => fits other (List.mem_cons_of_mem _ member))
        (fun other member => apart other (List.mem_cons_of_mem _ member))

/-- What is left of the slot in which a window is reserved, or of the time from
the start point on. -/
def leftPiece (tickFrom startTick : UInt64) : List Piece :=
  if startTick < tickFrom then [⟨tickFrom - startTick, startTick⟩] else []

def windowPiece (tickLen tickFrom : UInt64) (split : Bool) : List Piece :=
  if split then [⟨tickLen, tickFrom⟩] else []

def rightPiece (tickLen tickFrom last : UInt64) : List Piece :=
  if last > tickLen + tickFrom - 1 then
    [⟨last - (tickFrom + tickLen - 1), tickFrom + tickLen⟩]
  else
    []

section

variable {resource after : Resource}
  {tickLen tickFrom startTick : UInt64} {split : Bool}

theorem insert_startPoint (start : startTick = resource.startPoint)
    (reached : resource.insertFreeSlot tickLen tickFrom startTick split =
      .ok after) :
    after = addPieces ⟨resource.freeSlots, tickFrom + tickLen⟩
      (windowPiece tickLen tickFrom split ++ leftPiece tickFrom startTick) := by
  unfold insertFreeSlot at reached
  rw [if_pos start] at reached
  split at reached
  · next same =>
      cases reached
      subst same
      unfold leftPiece windowPiece addPieces
      rw [if_neg (UInt64.lt_irrefl _), start]
      cases split <;> rfl
  · split at reached
    · next less =>
        cases reached
        unfold leftPiece windowPiece addPieces
        rw [if_pos less]
        cases split <;> rfl
    · cases reached

theorem insert_slot (start : startTick ≠ resource.startPoint)
    (reached : resource.insertFreeSlot tickLen tickFrom startTick split =
      .ok after) :
    (resource.freeSlots.findSlot tickLen startTick = none ∧
      after = resource) ∨
    ∃ key last,
      resource.freeSlots.findSlot tickLen startTick = some (key, last) ∧
      after = addPieces ⟨resource.freeSlots.modify key (·.erase startTick),
          resource.startPoint⟩
        (leftPiece tickFrom startTick ++ windowPiece tickLen tickFrom split ++
          rightPiece tickLen tickFrom last) := by
  unfold insertFreeSlot at reached
  rw [if_neg start] at reached
  split at reached
  · next absent => exact .inl ⟨absent, (Except.ok.inj reached).symm⟩
  · next key last found =>
      refine .inr ⟨key, last, found, ?_⟩
      unfold carve at reached
      dsimp only at reached
      split at reached
      · next less =>
          split at reached
          · cases reached
            unfold leftPiece windowPiece rightPiece addPieces
            rw [if_pos less]
            cases split <;> split <;> rfl
          · cases reached
      · next notLess =>
          split at reached
          · next same =>
              subst same
              split at reached
              · cases reached
                unfold leftPiece windowPiece rightPiece addPieces
                rw [if_neg (UInt64.lt_irrefl _)]
                cases split <;> split <;> rfl
              · cases reached
          · cases reached

end

section

variable {gap : Nat} {resource after : Resource} {piece : Piece}
  {tickLen tickFrom startTick last : UInt64} {split : Bool}

theorem mem_leftPiece (member : piece ∈ leftPiece tickFrom startTick) :
    0 < piece.size ∧ piece.low = startTick.toNat ∧
      piece.low + piece.size = tickFrom.toNat := by
  unfold leftPiece at member
  split at member
  · next less =>
      obtain rfl := List.mem_singleton.mp member
      rw [UInt64.lt_iff_toNat_lt] at less
      have size := UInt64.toNat_sub_of_le _ _
        (UInt64.le_iff_toNat_le.mpr (Nat.le_of_lt less))
      unfold Piece.size Piece.low
      dsimp only
      omega
  · cases member

theorem mem_windowPiece (member : piece ∈ windowPiece tickLen tickFrom split) :
    split = true ∧ piece.low = tickFrom.toNat ∧
      piece.size = tickLen.toNat := by
  unfold windowPiece at member
  split at member
  · next divided =>
      obtain rfl := List.mem_singleton.mp member
      exact ⟨divided, rfl, rfl⟩
  · cases member

theorem mem_rightPiece (fits : tickLen.toNat + tickFrom.toNat < 2 ^ 64)
    (member : piece ∈ rightPiece tickLen tickFrom last) :
    0 < piece.size ∧ piece.low = tickFrom.toNat + tickLen.toNat ∧
      piece.low + piece.size = last.toNat + 1 := by
  unfold rightPiece at member
  split at member
  · next less =>
      obtain rfl := List.mem_singleton.mp member
      have bound := last.toNat_lt
      rw [gt_iff_lt, UInt64.lt_iff_toNat_lt] at less
      have some : 0 < tickLen.toNat + tickFrom.toNat := by
        by_contra empty
        obtain rfl : tickLen = 0 := UInt64.toNat_inj.mp (by
          change _ = 0
          omega)
        obtain rfl : tickFrom = 0 := UInt64.toNat_inj.mp (by
          change _ = 0
          omega)
        have most : (0 + 0 - 1 : UInt64).toNat = 2 ^ 64 - 1 := rfl
        omega
      rw [last_toNat _ _ fits some] at less
      have window := last_toNat tickFrom tickLen (by omega) (by omega)
      have size := UInt64.toNat_sub_of_le last (tickFrom + tickLen - 1)
        (by rw [UInt64.le_iff_toNat_le]; omega)
      have low : (tickFrom + tickLen).toNat =
          tickFrom.toNat + tickLen.toNat := by
        rw [UInt64.toNat_add]
        omega
      unfold Piece.size Piece.low
      dsimp only
      omega
  · cases member

theorem pairwise_leftPiece : (leftPiece tickFrom startTick).Pairwise
    (Piece.Apart gap) := by
  unfold leftPiece
  split
  · exact List.pairwise_singleton _ _
  · exact .nil

theorem pairwise_windowPiece : (windowPiece tickLen tickFrom split).Pairwise
    (Piece.Apart gap) := by
  unfold windowPiece
  split
  · exact List.pairwise_singleton _ _
  · exact .nil

theorem pairwise_rightPiece : (rightPiece tickLen tickFrom last).Pairwise
    (Piece.Apart gap) := by
  unfold rightPiece
  split
  · exact List.pairwise_singleton _ _
  · exact .nil

theorem Separated.insertFreeSlot (separated : resource.Separated gap)
    (holds : resource.Holds tickLen tickFrom startTick)
    (fits : tickLen.toNat + tickFrom.toNat < 2 ^ 64)
    (room : gap ≤ tickLen.toNat)
    (undivided : split = true → gap = 0 ∧ 0 < tickLen.toNat)
    (reached : resource.insertFreeSlot tickLen tickFrom startTick split =
      .ok after) : after.Separated gap := by
  have le := UInt64.le_iff_toNat_le.mp holds.start_le
  by_cases start : startTick = resource.startPoint
  · rw [insert_startPoint start reached]
    have moved : (tickFrom + tickLen).toNat =
        tickFrom.toNat + tickLen.toNat := by
      rw [UInt64.toNat_add]
      omega
    subst start
    refine Separated.addPieces (separated.raise (by omega))
      (fun piece member => ?_) ?_
    · rcases List.mem_append.mp member with member | member
      · obtain ⟨divided, low, size⟩ := mem_windowPiece member
        obtain ⟨rfl, positive⟩ := undivided divided
        refine ⟨by omega, ?_, ?_⟩
        · exact Clear.mono (separated.clear _) (by omega) (Nat.le_refl _)
        · change _ ≤ (tickFrom + tickLen).toNat
          omega
      · obtain ⟨positive, low, high⟩ := mem_leftPiece member
        refine ⟨positive, ?_, ?_⟩
        · exact Clear.mono (separated.clear _) (by omega) (Nat.le_refl _)
        · change _ ≤ (tickFrom + tickLen).toNat
          omega
    · refine List.pairwise_append.mpr ⟨pairwise_windowPiece, pairwise_leftPiece,
        fun piece member other later => ?_⟩
      obtain ⟨divided, low, size⟩ := mem_windowPiece member
      obtain ⟨rfl, -⟩ := undivided divided
      obtain ⟨-, -, high⟩ := mem_leftPiece later
      exact .inr (by omega)
  · rcases insert_slot start reached with ⟨-, rfl⟩ | ⟨key, last, found, rfl⟩
    · exact separated
    · have held := held_of_findSlot found
      obtain ⟨other, last', held', long⟩ := holds.free.resolve_left start
      have same : last' = last := by
        rcases separated.apart held' held with same | apart
        · exact (Prod.mk.inj same.2).2
        · have := separated.nonempty held
          have := separated.nonempty held'
          dsimp only at *
          omega
      have long := window_le fits (same ▸ long)
      have below := separated.below held
      dsimp only at below
      have clear := separated.erase held
      refine Separated.addPieces
        (separated.subset fun held => (held_erase held).1)
        (fun piece member => ?_) ?_
      · rcases List.mem_append.mp member with member | member
        · rcases List.mem_append.mp member with member | member
          · obtain ⟨positive, low, high⟩ := mem_leftPiece member
            refine ⟨positive, clear.mono (by omega) (by omega), ?_⟩
            change _ ≤ resource.startPoint.toNat
            omega
          · obtain ⟨divided, low, size⟩ := mem_windowPiece member
            obtain ⟨rfl, positive⟩ := undivided divided
            refine ⟨by omega, clear.mono (by omega) (by omega), ?_⟩
            change _ ≤ resource.startPoint.toNat
            omega
        · obtain ⟨positive, low, high⟩ := mem_rightPiece fits member
          refine ⟨positive, clear.mono (by omega) (by omega), ?_⟩
          change _ ≤ resource.startPoint.toNat
          omega
      · refine List.pairwise_append.mpr ⟨List.pairwise_append.mpr
          ⟨pairwise_leftPiece, pairwise_windowPiece, ?_⟩, pairwise_rightPiece, ?_⟩
        · intro piece member other later
          obtain ⟨-, -, high⟩ := mem_leftPiece member
          obtain ⟨divided, low, size⟩ := mem_windowPiece later
          obtain ⟨rfl, -⟩ := undivided divided
          exact .inl (by omega)
        · intro piece member other later
          obtain ⟨-, low', -⟩ := mem_rightPiece fits later
          rcases List.mem_append.mp member with member | member
          · obtain ⟨-, -, high⟩ := mem_leftPiece member
            exact .inl (by omega)
          · obtain ⟨divided, low, size⟩ := mem_windowPiece member
            obtain ⟨rfl, -⟩ := undivided divided
            exact .inl (by omega)

end

end Resource

end SimpleSSD.PAL
