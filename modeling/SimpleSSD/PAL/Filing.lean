import SimpleSSD.PAL.Separation

namespace SimpleSSD.PAL

open Data

/-! Every free slot is in the map for its length, where a search finds it. -/

namespace FreeSlots

/-- The key of the map that slots of a length belong to. -/
def keyFor (tgtFreeSlot : FreeSlots) (tickLen : UInt64) : Option UInt64 :=
  (tgtFreeSlot.upTo tickLen).getLast?.map (·.1)

def Filed (tgtFreeSlot : FreeSlots) : Prop :=
  ∀ key slot, tgtFreeSlot.Held key slot →
    tgtFreeSlot.keyFor (slot.2 - slot.1 + 1) = some key

section

variable {tgtFreeSlot : FreeSlots} {tickLen tickFrom startTick : UInt64}

theorem keyFor_mapValues (f : UInt64 → Slots → Slots) :
    keyFor (tgtFreeSlot.mapValues f) = tgtFreeSlot.keyFor := by
  funext tickLen
  unfold keyFor
  rw [SortedMap.upTo_mapValues, List.getLast?_map, Option.map_map]
  rfl

theorem keyFor_add :
    keyFor (tgtFreeSlot.addFreeSlot tickLen tickFrom) =
      tgtFreeSlot.keyFor := by
  unfold addFreeSlot
  split
  · rfl
  · exact keyFor_mapValues _

theorem Filed.add (filed : tgtFreeSlot.Filed) :
    Filed (tgtFreeSlot.addFreeSlot tickLen tickFrom) := by
  intro key slot held
  rw [keyFor_add]
  rcases held_add held with old | ⟨same, rfl⟩
  · exact filed key slot old
  · have length : tickFrom + tickLen - 1 - tickFrom + 1 = tickLen := by grind
    rw [length]
    exact same

theorem Filed.erase (filed : tgtFreeSlot.Filed) (name : UInt64) :
    Filed (tgtFreeSlot.modify name (·.erase startTick)) := by
  intro key slot held
  unfold SortedMap.modify
  rw [keyFor_mapValues]
  exact filed key slot (held_erase held).1

theorem Filed.flush (filed : tgtFreeSlot.Filed) (currentTick : UInt64) :
    Filed (tgtFreeSlot.flushAFreeSlot currentTick) := by
  intro key slot held
  unfold flushAFreeSlot
  rw [keyFor_mapValues]
  exact filed key slot (held_flush held)

theorem held_add_of_held {key : UInt64} {slot : UInt64 × UInt64}
    (held : tgtFreeSlot.Held key slot) :
    Held (tgtFreeSlot.addFreeSlot tickLen tickFrom) key slot := by
  obtain ⟨slots, member, listed⟩ := held
  unfold addFreeSlot
  split
  · exact ⟨slots, member, listed⟩
  · next e last =>
      refine ⟨_, List.mem_map.mpr ⟨_, member, rfl⟩, ?_⟩
      dsimp only
      split
      · exact mem_enter_of_mem listed
      · exact listed

theorem held_erase_of_held {key name : UInt64} {slot : UInt64 × UInt64}
    (held : tgtFreeSlot.Held key slot)
    (other : ¬ (key = name ∧ slot.1 = startTick)) :
    Held (tgtFreeSlot.modify name (·.erase startTick)) key slot := by
  obtain ⟨slots, member, listed⟩ := held
  refine ⟨_, List.mem_map.mpr ⟨_, member, rfl⟩, ?_⟩
  dsimp only
  split
  · next same =>
      exact List.mem_filter.mpr
        ⟨listed, decide_eq_true fun start => other ⟨same, start⟩⟩
  · exact listed

theorem keyFor_isSome {e : UInt64 × Slots}
    (member : e ∈ tgtFreeSlot.entries) (le : e.1 ≤ tickLen) :
    ∃ key, tgtFreeSlot.keyFor tickLen = some key := by
  obtain ⟨last, found, -⟩ :=
    SortedMap.exists_last (SortedMap.mem_upTo member le)
  exact ⟨last.1, Option.map_eq_some_iff.mpr ⟨last, found, rfl⟩⟩

theorem held_add_self {key : UInt64} (filed : tgtFreeSlot.keyFor tickLen = some key)
    (absent : ∀ last, ¬ tgtFreeSlot.Held key (tickFrom, last)) :
    Held (tgtFreeSlot.addFreeSlot tickLen tickFrom) key
      (tickFrom, tickFrom + tickLen - 1) := by
  obtain ⟨e, last, rfl⟩ := Option.map_eq_some_iff.mp filed
  have member := (SortedMap.mem_of_upTo (List.mem_of_getLast? last)).1
  unfold addFreeSlot
  rw [last]
  refine ⟨_, List.mem_map.mpr ⟨_, member, rfl⟩, ?_⟩
  dsimp only
  rw [if_pos rfl]
  refine mem_enter_self fun entry listed same => ?_
  exact absent entry.2 ⟨e.2, member, same ▸ listed⟩

/-- The maps that are searched for a length have those for all greater
lengths. -/
theorem mem_bucketsFor {key length : UInt64} {slots : Slots}
    (member : (key, slots) ∈ tgtFreeSlot.entries)
    (filed : tgtFreeSlot.keyFor length = some key) (le : tickLen ≤ length) :
    (key, slots) ∈ tgtFreeSlot.bucketsFor tickLen := by
  unfold bucketsFor
  obtain ⟨e, greatest, same⟩ := Option.map_eq_some_iff.mp filed
  by_cases early : key ≤ tickLen
  · have early := SortedMap.mem_upTo member early
    obtain ⟨last, found, ge⟩ := SortedMap.exists_last early
    obtain ⟨listed, le'⟩ := SortedMap.mem_of_upTo (List.mem_of_getLast? found)
    -- the entry is the last one for the greater length as well
    obtain ⟨last', found', ge'⟩ := SortedMap.exists_last
      (SortedMap.mem_upTo listed (UInt64.le_trans le' le))
    rw [greatest] at found'
    cases found'
    have same : (key, slots) = last := tgtFreeSlot.sorted.unique member listed
      (UInt64.le_antisymm ge (same ▸ ge'))
    rw [same, found]
    exact List.mem_append_left _ (Option.mem_toList.mpr rfl)
  · exact List.mem_append_right _
      (SortedMap.mem_beyond member (UInt64.not_le.mp early))

theorem scan_direct {buckets : List (UInt64 × Slots)} {minTick : UInt64}
    {e : UInt64 × Slots} (member : e ∈ buckets)
    (around : (e.2.around tickLen tickFrom).isSome) :
    ∃ startTick, scan tickLen tickFrom buckets minTick =
      some ⟨startTick, false⟩ := by
  induction buckets generalizing minTick with
  | nil => cases member
  | cons first rest induction =>
      unfold scan
      split
      · next startTick _ => exact ⟨startTick, rfl⟩
      · next none =>
          rcases List.mem_cons.mp member with rfl | later
          · rw [none] at around
            cases around
          · split
            · exact induction later
            · exact induction later

/-- A search has no conflict if a map that is searched has a slot around the
tick. -/
theorem findFreeTime_direct {e : UInt64 × Slots}
    (member : e ∈ tgtFreeSlot.bucketsFor tickLen)
    (around : (e.2.around tickLen tickFrom).isSome) :
    ∃ startTick, tgtFreeSlot.findFreeTime tickLen tickFrom =
      some ⟨startTick, false⟩ := by
  unfold findFreeTime
  split
  · next empty =>
      unfold bucketsFor at member
      rw [List.isEmpty_iff.mp empty, List.append_nil] at member
      rw [Option.mem_toList.mp member]
      dsimp only
      obtain ⟨startTick, found⟩ := Option.isSome_iff_exists.mp around
      rw [found]
      exact ⟨startTick, rfl⟩
  · exact scan_direct member around

end

end FreeSlots

namespace Resource

open FreeSlots

variable {resource : Resource} {tickLen tickFrom tick last key : UInt64}

theorem slot_length (separated : resource.Separated gap)
    (held : resource.freeSlots.Held key (tick, last)) :
    (last - tick + 1).toNat = last.toNat + 1 - tick.toNat := by
  have le := separated.nonempty held
  have below := separated.below held
  have bound := resource.startPoint.toNat_lt
  dsimp only at le below
  rw [UInt64.toNat_add, UInt64.toNat_sub_of_le _ _
    (UInt64.le_iff_toNat_le.mpr le)]
  have : (1 : UInt64).toNat = 1 := rfl
  omega

theorem findFreeTime_complete (separated : resource.Separated 0)
    (filed : resource.freeSlots.Filed)
    (held : resource.freeSlots.Held key (tick, last))
    (le : tick ≤ tickFrom)
    (positive : 0 < tickLen.toNat + tickFrom.toNat)
    (fits : tickLen.toNat + tickFrom.toNat ≤ last.toNat + 1) :
    ∃ startTick, resource.freeSlots.findFreeTime tickLen tickFrom =
      some ⟨startTick, false⟩ := by
  have length := slot_length separated held
  have nonempty := separated.nonempty held
  have le' := UInt64.le_iff_toNat_le.mp le
  obtain ⟨slots, member, listed⟩ := held
  have searched : (key, slots) ∈ resource.freeSlots.bucketsFor tickLen := by
    refine mem_bucketsFor member (filed key _ ⟨slots, member, listed⟩) ?_
    rw [UInt64.le_iff_toNat_le]
    dsimp only
    omega
  refine findFreeTime_direct searched ?_
  obtain ⟨f, found, ge⟩ := SortedMap.exists_last (SortedMap.mem_upTo listed le)
  obtain ⟨listed', le''⟩ := SortedMap.mem_of_upTo (List.mem_of_getLast? found)
  have held' : resource.freeSlots.Held key f := ⟨slots, member, listed'⟩
  have below := separated.below ⟨slots, member, listed⟩
  have nonempty' := separated.nonempty held'
  have bound := resource.startPoint.toNat_lt
  rw [UInt64.le_iff_toNat_le] at ge le''
  dsimp only at below nonempty ge
  have long : tickLen.toNat + tickFrom.toNat ≤ f.2.toNat + 1 := by
    rcases separated.apart ⟨slots, member, listed⟩ held' with same | apart
    · rw [← same.2]
      exact fits
    · -- only an empty window has another slot that starts before it
      dsimp only at apart
      omega
  have reaches : f.2 ≥ tickLen + tickFrom - 1 := by
    rw [ge_iff_le, UInt64.le_iff_toNat_le,
      last_toNat _ _ (by omega) positive]
    omega
  unfold Slots.around
  dsimp only
  rw [found]
  dsimp only
  rw [if_pos reaches]
  rfl

/-- A search at a tick that lies in a slot with enough time stays there. -/
theorem findPlace_complete (separated : resource.Separated 0)
    (filed : resource.freeSlots.Filed)
    (held : resource.freeSlots.Held key (tick, last))
    (le : tick ≤ tickFrom)
    (positive : 0 < tickLen.toNat + tickFrom.toNat)
    (fits : tickLen.toNat + tickFrom.toNat ≤ last.toNat + 1) :
    (resource.findPlace tickLen tickFrom).tickFrom = tickFrom := by
  obtain ⟨startTick, found⟩ :=
    findFreeTime_complete separated filed held le positive fits
  unfold findPlace
  rw [found]
  rfl

theorem findPlace_behind (separated : resource.Separated 0)
    (le : resource.startPoint ≤ tickFrom) :
    (resource.findPlace tickLen tickFrom).tickFrom = tickFrom := by
  have offers := resource.findPlace_offers tickLen tickFrom
  refine offers.of_tick_le ?_
  rcases offers.holds.free with start | ⟨key, last, held, -⟩
  · exact start ▸ le
  · have below := separated.below held
    have nonempty := separated.nonempty held
    rw [UInt64.le_iff_toNat_le] at le ⊢
    dsimp only at below nonempty
    omega

theorem findSlot_complete (separated : resource.Separated 0)
    (filed : resource.freeSlots.Filed)
    (held : resource.freeSlots.Held key (tick, last))
    (fits : tick.toNat + tickLen.toNat ≤ last.toNat + 1) :
    resource.freeSlots.findSlot tickLen tick = some (key, last) := by
  have length := slot_length separated held
  have nonempty := separated.nonempty held
  cases found : resource.freeSlots.findSlot tickLen tick with
  | none =>
      obtain ⟨slots, member, listed⟩ := held
      have searched : (key, slots) ∈ resource.freeSlots.bucketsFor tickLen := by
        refine mem_bucketsFor member (filed key _ ⟨slots, member, listed⟩) ?_
        rw [UInt64.le_iff_toNat_le]
        dsimp only
        omega
      have absent := List.findSome?_eq_none_iff.mp found _ searched
      rw [SortedMap.lookup_of_mem listed] at absent
      cases absent
  | some slot =>
      have held' := held_of_findSlot found
      rcases separated.apart held held' with same | apart
      · rw [same.1, (Prod.mk.inj same.2).2]
      · have nonempty' := separated.nonempty held'
        dsimp only at apart nonempty nonempty'
        omega

end Resource

end SimpleSSD.PAL
