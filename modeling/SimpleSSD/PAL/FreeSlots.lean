import SimpleSSD.Data.SortedMap

namespace SimpleSSD.PAL

open Data

abbrev Slots := SortedMap UInt64

/-- The free slots of a channel or a die, by the length that the slots of a map
have at least. -/
abbrev FreeSlots := SortedMap Slots

/-- The reference parameters that `FindFreeTime` sets. -/
structure Found where
  startTick : UInt64
  conflicts : Bool
  deriving DecidableEq, Repr

namespace Slots

/-- The slot at `tickFrom` or before it, if it is free for long enough. -/
def around (slots : Slots) (tickLen tickFrom : UInt64) : Option UInt64 :=
  match (slots.upTo tickFrom).getLast? with
  | none => none
  | some f => if f.2 ≥ tickLen + tickFrom - 1 then some f.1 else none

/-- The first slot behind `tickFrom` that is long enough. -/
def after (slots : Slots) (tickLen tickFrom : UInt64) : Option UInt64 :=
  ((slots.beyond tickFrom).find? fun f =>
    f.2 ≥ tickLen + f.1 - 1).map (·.1)

end Slots

namespace FreeSlots

/-- The maps from `--upper_bound(tickLen)` on, or all of them if that is before
the first. -/
def bucketsFor (tgtFreeSlot : FreeSlots) (tickLen : UInt64) :
    List (UInt64 × Slots) :=
  (tgtFreeSlot.upTo tickLen).getLast?.toList ++ tgtFreeSlot.beyond tickLen

/-- The loop over the maps; `(uint64_t)-1` stands for no slot so far. -/
def scan (tickLen tickFrom : UInt64) :
    List (UInt64 × Slots) → (minTick : UInt64) → Option Found
  | [], minTick =>
      if minTick = 0xFFFFFFFFFFFFFFFF then none else some ⟨minTick, true⟩
  | e :: rest, minTick =>
      match e.2.around tickLen tickFrom with
      | some startTick => some ⟨startTick, false⟩
      | none =>
          match e.2.after tickLen tickFrom with
          | none => scan tickLen tickFrom rest minTick
          | some startTick =>
              scan tickLen tickFrom rest
                (if minTick = 0xFFFFFFFFFFFFFFFF ∨ minTick > startTick then
                  startTick
                else
                  minTick)

def findFreeTime (tgtFreeSlot : FreeSlots) (tickLen tickFrom : UInt64) :
    Option Found :=
  if (tgtFreeSlot.beyond tickLen).isEmpty then
    match (tgtFreeSlot.upTo tickLen).getLast? with
    -- "tgtFreeSlot is not empty"
    | none => none
    | some e =>
        match e.2.around tickLen tickFrom with
        | some startTick => some ⟨startTick, false⟩
        | none => (e.2.after tickLen tickFrom).map (⟨·, true⟩)
  else
    scan tickLen tickFrom (tgtFreeSlot.bucketsFor tickLen) 0xFFFFFFFFFFFFFFFF

/-- A slot that is shorter than every key is dropped. -/
def addFreeSlot (tgtFreeSlot : FreeSlots) (tickLen tickFrom : UInt64) :
    FreeSlots :=
  match (tgtFreeSlot.upTo tickLen).getLast? with
  | none => tgtFreeSlot
  | some e =>
      tgtFreeSlot.modify e.1 fun slots =>
        slots.insert tickFrom (tickFrom + tickLen - 1)

def flushAFreeSlot (tgtFreeSlot : FreeSlots) (currentTick : UInt64) :
    FreeSlots :=
  tgtFreeSlot.mapValues fun _ slots =>
    slots.dropWhile fun f => f.2 < currentTick

/-- The key and the last tick of the slot that `InsertFreeSlot` looks for. -/
def findSlot (tgtFreeSlot : FreeSlots) (tickLen startTick : UInt64) :
    Option (UInt64 × UInt64) :=
  (tgtFreeSlot.bucketsFor tickLen).findSome? fun e =>
    (e.2.lookup startTick).map (e.1, ·)

end FreeSlots

/-- The free slots and the start point of a channel or a die: nothing is
reserved from the start point on. -/
structure Resource where
  freeSlots : FreeSlots
  startPoint : UInt64

inductive Fault where
  /-- `SPDIV or PGDIV is 0`. -/
  | divider
  | division
  | assertion
  | address
  deriving DecidableEq, Repr

/-- A tick to begin at, and the start of the free slot that it lies in. -/
structure Place where
  tickFrom : UInt64
  tick : UInt64
  deriving DecidableEq, Repr

namespace Resource

/-- `FindFreeTime` with what its callers do next: without a free slot the time
from the start point on is taken. -/
def findPlace (resource : Resource) (tickLen tickFrom : UInt64) : Place :=
  match resource.freeSlots.findFreeTime tickLen tickFrom with
  | none =>
      { tickFrom :=
          if tickFrom < resource.startPoint then
            resource.startPoint
          else
            tickFrom
        tick := resource.startPoint }
  | some found =>
      { tickFrom := if found.conflicts then found.startTick else tickFrom
        tick := found.startTick }

def carve (resource : Resource) (tickLen tickFrom startTick : UInt64)
    (split : Bool) (key tmpEndTick : UInt64) : Except Fault Resource :=
  let tgtFreeSlot : FreeSlots :=
    resource.freeSlots.modify key (·.erase startTick)
  if startTick < tickFrom then
    let tgtFreeSlot := tgtFreeSlot.addFreeSlot (tickFrom - startTick) startTick
    let tgtFreeSlot :=
      if split then tgtFreeSlot.addFreeSlot tickLen tickFrom else tgtFreeSlot
    if tmpEndTick - tickFrom + 1 ≥ tickLen then
      .ok { resource with
        freeSlots :=
          if tmpEndTick > tickLen + tickFrom - 1 then
            tgtFreeSlot.addFreeSlot (tmpEndTick - (tickFrom + tickLen - 1))
              (tickFrom + tickLen)
          else
            tgtFreeSlot }
    else
      .error .assertion
  else if startTick = tickFrom then
    if tmpEndTick - tickFrom + 1 ≥ tickLen then
      let tgtFreeSlot :=
        if split then tgtFreeSlot.addFreeSlot tickLen startTick
        else tgtFreeSlot
      .ok { resource with
        freeSlots :=
          if tmpEndTick > tickLen + tickFrom - 1 then
            tgtFreeSlot.addFreeSlot (tmpEndTick - (tickFrom + tickLen - 1))
              (startTick + tickLen)
          else
            tgtFreeSlot }
    else
      .error .assertion
  else
    .error .assertion

def insertFreeSlot (resource : Resource) (tickLen tickFrom startTick : UInt64)
    (split : Bool) : Except Fault Resource :=
  if startTick = resource.startPoint then
    if tickFrom = startTick then
      .ok {
        freeSlots :=
          if split then
            resource.freeSlots.addFreeSlot tickLen resource.startPoint
          else
            resource.freeSlots
        startPoint := resource.startPoint + tickLen }
    else if tickFrom > startTick then
      let tgtFreeSlot :=
        if split then resource.freeSlots.addFreeSlot tickLen tickFrom
        else resource.freeSlots
      .ok {
        freeSlots := tgtFreeSlot.addFreeSlot (tickFrom - startTick) startTick
        startPoint := tickFrom + tickLen }
    else
      .error .assertion
  else
    match resource.freeSlots.findSlot tickLen startTick with
    | none => .ok resource
    | some (key, tmpEndTick) =>
        resource.carve tickLen tickFrom startTick split key tmpEndTick

end Resource

/-! The slots that are found, and what becomes of them. -/

namespace FreeSlots

def Held (tgtFreeSlot : FreeSlots) (key : UInt64) (slot : UInt64 × UInt64) :
    Prop :=
  ∃ slots, (key, slots) ∈ tgtFreeSlot.entries ∧ slot ∈ slots.entries

/-- A found slot is free for long enough, from `tickFrom` or else from its own
start, which is a conflict. -/
def Suits (tgtFreeSlot : FreeSlots) (tickLen tickFrom : UInt64)
    (found : Found) : Prop :=
  ∃ key last, tgtFreeSlot.Held key (found.startTick, last) ∧
    if found.conflicts then
      tickFrom < found.startTick ∧ tickLen + found.startTick - 1 ≤ last
    else
      found.startTick ≤ tickFrom ∧ tickLen + tickFrom - 1 ≤ last

section

variable {tgtFreeSlot : FreeSlots} {slots : Slots}
  {key tickLen tickFrom startTick : UInt64} {slot : UInt64 × UInt64}

theorem suits_around (member : (key, slots) ∈ tgtFreeSlot.entries)
    (found : slots.around tickLen tickFrom = some startTick) :
    tgtFreeSlot.Suits tickLen tickFrom ⟨startTick, false⟩ := by
  unfold Slots.around at found
  split at found
  · cases found
  · next f last =>
      split at found
      · next long =>
          cases found
          obtain ⟨listed, le⟩ :=
            SortedMap.mem_of_upTo (List.mem_of_getLast? last)
          exact ⟨key, f.2, ⟨slots, member, listed⟩, le, long⟩
      · cases found

theorem suits_after (member : (key, slots) ∈ tgtFreeSlot.entries)
    (found : slots.after tickLen tickFrom = some startTick) :
    tgtFreeSlot.Suits tickLen tickFrom ⟨startTick, true⟩ := by
  obtain ⟨f, first, rfl⟩ := Option.map_eq_some_iff.mp found
  obtain ⟨listed, less⟩ :=
    SortedMap.mem_of_beyond (List.mem_of_find?_eq_some first)
  have long := List.find?_some first
  exact ⟨key, f.2, ⟨slots, member, listed⟩, less, of_decide_eq_true long⟩

theorem mem_of_bucketsFor {e : UInt64 × Slots}
    (member : e ∈ tgtFreeSlot.bucketsFor tickLen) :
    e ∈ tgtFreeSlot.entries := by
  rcases List.mem_append.mp member with last | later
  · exact (SortedMap.mem_of_upTo
      (List.mem_of_getLast? (Option.mem_toList.mp last))).1
  · exact (SortedMap.mem_of_beyond later).1

theorem suits_scan {buckets : List (UInt64 × Slots)} {minTick : UInt64}
    {found : Found}
    (listed : ∀ e ∈ buckets, e ∈ tgtFreeSlot.entries)
    (best : minTick = 0xFFFFFFFFFFFFFFFF ∨
      tgtFreeSlot.Suits tickLen tickFrom ⟨minTick, true⟩)
    (reached : scan tickLen tickFrom buckets minTick = some found) :
    tgtFreeSlot.Suits tickLen tickFrom found := by
  induction buckets generalizing minTick with
  | nil =>
      unfold scan at reached
      split at reached
      · cases reached
      · next some =>
          cases reached
          exact best.resolve_left some
  | cons e rest induction =>
      have member := listed e List.mem_cons_self
      have listed := fun other member =>
        listed other (List.mem_cons_of_mem _ member)
      unfold scan at reached
      split at reached
      · next startTick around =>
          cases reached
          exact suits_around member around
      · split at reached
        · exact induction listed best reached
        · next startTick after =>
            refine induction listed ?_ reached
            split
            · exact .inr (suits_after member after)
            · exact best

theorem findFreeTime_suits {found : Found}
    (reached : tgtFreeSlot.findFreeTime tickLen tickFrom = some found) :
    tgtFreeSlot.Suits tickLen tickFrom found := by
  unfold findFreeTime at reached
  split at reached
  · split at reached
    · cases reached
    · next e last =>
        have member := (SortedMap.mem_of_upTo (List.mem_of_getLast? last)).1
        split at reached
        · next startTick around =>
            cases reached
            exact suits_around member around
        · obtain ⟨startTick, after, rfl⟩ := Option.map_eq_some_iff.mp reached
          exact suits_after member after
  · exact suits_scan (fun e => mem_of_bucketsFor) (.inl rfl) reached

theorem held_add (held : (tgtFreeSlot.addFreeSlot tickLen tickFrom).Held key
      slot) :
    tgtFreeSlot.Held key slot ∨
      ((tgtFreeSlot.upTo tickLen).getLast?.map (·.1) = some key ∧
        slot = (tickFrom, tickFrom + tickLen - 1)) := by
  unfold addFreeSlot at held
  split at held
  · exact .inl held
  · next e last =>
      obtain ⟨slots, member, listed⟩ := held
      obtain ⟨before, inside, rfl⟩ := SortedMap.mem_of_mapValues member
      split at listed
      · next same =>
          rcases mem_enter listed with new | old
          · exact .inr ⟨by rw [last, same]; rfl, new⟩
          · exact .inl ⟨before, inside, old⟩
      · exact .inl ⟨before, inside, listed⟩

theorem held_erase {other : UInt64}
    (held : Held (tgtFreeSlot.modify other (·.erase startTick)) key slot) :
    tgtFreeSlot.Held key slot ∧ ¬ (key = other ∧ slot.1 = startTick) := by
  obtain ⟨slots, member, listed⟩ := held
  obtain ⟨before, inside, rfl⟩ := SortedMap.mem_of_mapValues member
  split at listed
  · obtain ⟨listed, different⟩ := List.mem_filter.mp listed
    exact ⟨⟨before, inside, listed⟩, fun same =>
      of_decide_eq_true different same.2⟩
  · next different =>
      exact ⟨⟨before, inside, listed⟩, fun same => different same.1⟩

theorem held_flush {currentTick : UInt64}
    (held : (tgtFreeSlot.flushAFreeSlot currentTick).Held key slot) :
    tgtFreeSlot.Held key slot := by
  obtain ⟨slots, member, listed⟩ := held
  obtain ⟨before, inside, rfl⟩ := SortedMap.mem_of_mapValues member
  exact ⟨before, inside, (List.dropWhile_suffix _).subset listed⟩

theorem held_of_findSlot {tmpEndTick : UInt64}
    (found : tgtFreeSlot.findSlot tickLen startTick =
      some (key, tmpEndTick)) :
    tgtFreeSlot.Held key (startTick, tmpEndTick) := by
  obtain ⟨e, member, first⟩ := List.exists_of_findSome?_eq_some found
  obtain ⟨last, lookup, same⟩ := Option.map_eq_some_iff.mp first
  obtain ⟨rfl, rfl⟩ := Prod.mk.inj same
  exact ⟨e.2, mem_of_bucketsFor member, SortedMap.mem_of_lookup lookup⟩

end

end FreeSlots

end SimpleSSD.PAL
