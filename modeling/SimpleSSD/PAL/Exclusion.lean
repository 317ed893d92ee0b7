import SimpleSSD.PAL.Booking
import SimpleSSD.PAL.Search

namespace SimpleSSD.PAL

open Data FreeSlots

/-! No two commands have the same time on a channel or on a die. -/

namespace TimeSlot

def duration (slot : TimeSlot) : UInt64 := slot.endTick - slot.startTick + 1

def window (slot : TimeSlot) : Window :=
  ⟨slot.startTick.toNat, slot.duration.toNat⟩

theorem window_make (startTick duration : UInt64) :
    (make startTick duration).window =
      ⟨startTick.toNat, duration.toNat⟩ := by
  have same : (make startTick duration).duration = duration := by
    simp only [TimeSlot.duration, make]
    grind
  simp only [window, same]
  rfl

end TimeSlot

namespace Resource

variable {resource after : Resource} {windows : List Window}

theorem Holds.advance {tickLen skipped tickFrom tick : UInt64}
    (holds : resource.Holds (tickLen + skipped) tickFrom tick)
    (fits : tickFrom.toNat + skipped.toNat < 2 ^ 64) :
    resource.Holds tickLen (tickFrom + skipped) tick := by
  constructor
  · apply UInt64.le_trans holds.start_le
    rw [UInt64.le_iff_toNat_le, UInt64.toNat_add]
    omega
  · have same : tickLen + skipped + tickFrom =
        tickLen + (tickFrom + skipped) := by
      grind
    rw [← same]
    exact holds.free

/-- The reserved windows are free no more, and no tick is in two of them. -/
structure Exclusive (resource : Resource) (windows : List Window) : Prop where
  booked : resource.Booked windows
  apart : windows.Pairwise Window.Apart

theorem Exclusive.reserve {tickLen tickFrom startTick : UInt64}
    (exclusive : resource.Exclusive windows)
    (holds : resource.Holds tickLen tickFrom startTick)
    (fits : tickLen.toNat + tickFrom.toNat < 2 ^ 64)
    (reached : resource.insertFreeSlot tickLen tickFrom startTick false =
      .ok after) :
    after.Exclusive (⟨tickFrom.toNat, tickLen.toNat⟩ :: windows) where
  booked := exclusive.booked.reserve holds fits reached
  apart := List.pairwise_cons.mpr
    ⟨exclusive.booked.apart holds fits, exclusive.apart⟩

theorem Exclusive.anticipate {latANTI tmpTick : UInt64}
    (exclusive : resource.Exclusive windows)
    (fits : tmpTick.toNat + 2 * latANTI.toNat < 2 ^ 64)
    (positive : 0 < latANTI.toNat)
    (reached : resource.anticipate latANTI tmpTick = .ok after) :
    after.Exclusive windows := by
  have twice : (latANTI * 2).toNat = 2 * latANTI.toNat := by
    rw [UInt64.toNat_mul]
    change latANTI.toNat * 2 % 2 ^ 64 = _
    omega
  have offers := resource.findPlace_offers (latANTI * 2) tmpTick
  simp only [Resource.anticipate] at reached
  split at reached
  · next stays =>
      have holds := offers.holds
      rw [stays] at holds reached
      refine ⟨?_, exclusive.apart⟩
      apply exclusive.booked.divide holds _ _ reached
      · omega
      · omega
  · cases reached
    exact exclusive

theorem Exclusive.flush (exclusive : resource.Exclusive windows)
    (currentTick : UInt64) :
    Exclusive { resource with
      freeSlots := resource.freeSlots.flushAFreeSlot currentTick } windows where
  booked :=
    { separated := exclusive.booked.separated.subset held_flush
      filed := exclusive.booked.filed.flush currentTick
      clear := fun window member some key slot held =>
        exclusive.booked.clear window member some key slot (held_flush held)
      below := exclusive.booked.below }
  apart := exclusive.apart

def Keyed (resource : Resource) (tickLen : UInt64) : Prop :=
  ∃ e ∈ resource.freeSlots.entries, e.1 ≤ tickLen

theorem Keyed.of_keyFor {tickLen : UInt64} (keyed : resource.Keyed tickLen)
    (same : after.freeSlots.keyFor = resource.freeSlots.keyFor) :
    after.Keyed tickLen := by
  obtain ⟨e, listed, le⟩ := keyed
  obtain ⟨key, found⟩ := keyFor_isSome listed le
  rw [← same] at found
  obtain ⟨last, greatest, _⟩ := Option.map_eq_some_iff.mp found
  exact ⟨last, SortedMap.mem_of_upTo (List.mem_of_getLast? greatest)⟩

theorem keyFor_insert {tickLen tickFrom startTick : UInt64} {split : Bool}
    (reached : resource.insertFreeSlot tickLen tickFrom startTick split =
      .ok after) :
    after.freeSlots.keyFor = resource.freeSlots.keyFor := by
  by_cases start : startTick = resource.startPoint
  · rw [insert_startPoint start reached]
    exact keyFor_addPieces
  · rcases insert_slot start reached with ⟨_, rfl⟩ | ⟨key, last, _, rfl⟩
    · rfl
    · exact keyFor_addPieces.trans (keyFor_mapValues _)

theorem keyFor_anticipate {latANTI tmpTick : UInt64}
    (reached : resource.anticipate latANTI tmpTick = .ok after) :
    after.freeSlots.keyFor = resource.freeSlots.keyFor := by
  simp only [Resource.anticipate] at reached
  split at reached
  · exact keyFor_insert reached
  · cases reached
    rfl

theorem freshResource_keyed {keys : List UInt64} {key : UInt64}
    (member : key ∈ keys) : (PAL2.freshResource keys).Keyed key := by
  have listed : ∀ {freeSlots : FreeSlots},
      (key ∈ keys ∨ ∃ e ∈ freeSlots.entries, e.1 ≤ key) →
      ∃ e ∈ (keys.foldl (fun freeSlots key => freeSlots.insert key .empty)
        freeSlots).entries, e.1 ≤ key := by
    clear member
    induction keys with
    | nil => exact fun some => some.resolve_left List.not_mem_nil
    | cons first keys induction =>
        intro freeSlots some
        apply induction
        rcases some with member | ⟨e, old, le⟩
        · rcases List.mem_cons.mp member with rfl | later
          · obtain ⟨e, listed, same⟩ := exists_mem_enter key .empty
              freeSlots.entries
            exact .inr ⟨e, listed, UInt64.le_of_eq same⟩
          · exact .inl later
        · exact .inr ⟨e, mem_enter_of_mem old, le⟩
  exact listed (.inl member)

theorem freshResource_exclusive (keys : List UInt64) :
    (PAL2.freshResource keys).Exclusive [] where
  booked :=
    { separated := PAL2.freshResource_separated keys 0
      filed := fun _ _ held => (PAL2.freshResource_held held).elim
      clear := fun _ member => nomatch member
      below := fun _ member => nomatch member }
  apart := .nil

end Resource

namespace Target

variable {target : Target} {arrived : UInt64} {reservation : Reservation}
  {scheduled : Scheduled} {first second : Resource} {place : Place}

def Within (target : Target) (arrived : UInt64) : Prop :=
  ∀ tick ∈ target.startTicks arrived,
    tick + target.lat.sum + target.lat.anti.toNat < 2 ^ 64

instance (target : Target) (arrived : UInt64) :
    Decidable (target.Within arrived) :=
  inferInstanceAs (Decidable (∀ tick ∈ target.startTicks arrived,
    tick + target.lat.sum + target.lat.anti.toNat < 2 ^ 64))

/-- The command takes bus time before the array works and so does a read, the
ticks do not pass the last one, and what is left of a slot behind the first
transfer is long enough for one of the maps. -/
structure Suits (target : Target) (arrived : UInt64) : Prop where
  transfers : 0 < target.lat.dma0.toNat
  anticipates : 0 < target.lat.anti.toNat
  within : target.Within arrived
  served : ∃ e ∈ target.channel.freeSlots.entries,
    e.1.toNat ≤ target.lat.mem.toNat + target.lat.dma1.toNat +
      target.lat.anti.toNat

theorem Suits.fits (suits : target.Suits arrived) : target.Fits arrived where
  some := by
    have transfers := suits.transfers
    simp only [Latencies.sum]
    omega
  within := by
    intro tick known
    have within := suits.within tick known
    omega

/-- The windows of a command: what the die is reserved for begins with the
first transfer and ends with the second. -/
structure Encloses (scheduled : Scheduled) (arrived : UInt64) : Prop where
  arrived_le : arrived.toNat ≤ scheduled.tsDMA0.window.low
  starts : scheduled.tsMEM.window.low = scheduled.tsDMA0.window.low
  ordered : scheduled.tsDMA0.window.low + scheduled.tsDMA0.window.size ≤
    scheduled.tsDMA1.window.low
  ends : scheduled.tsDMA1.window.low + scheduled.tsDMA1.window.size =
    scheduled.tsMEM.window.low + scheduled.tsMEM.window.size

/-- Behind the first transfer the second one is found where it was. -/
theorem Assigned.place_stays {windows : List Window}
    (suits : target.Suits arrived) (secured : target.Secured arrived reservation)
    (exclusive : target.channel.Exclusive windows)
    (assigned : target.Assigned reservation scheduled first second place) :
    place.tickFrom = reservation.dma1TickFrom := by
  have within := suits.within _ secured.known
  have behind := secured.total.behind
  have short := secured.total.fits
  have transfers := suits.transfers
  have anticipates := suits.anticipates
  have holds := secured.sound.channel
  have fits : target.lat.dma0.toNat +
      reservation.candidate.dma0TickFrom.toNat < 2 ^ 64 := by
    omega
  have length : (target.lat.dma1 + target.lat.anti).toNat =
      target.lat.dma1.toNat + target.lat.anti.toNat := by
    rw [UInt64.toNat_add]
    omega
  obtain ⟨tickDMA1, found⟩ := secured.dma1
  obtain ⟨e, listed, served⟩ := suits.served
  have divided := Resource.insert_divided exclusive.booked.separated
    exclusive.booked.filed holds fits assigned.dma0
  have reserved := exclusive.booked.reserve holds fits assigned.dma0
  have stays := divided.findPlace_stays (e := e) exclusive.booked.separated
    reserved.separated reserved.filed holds.start_le found (by omega) (by omega)
    (by omega) (by omega) listed (by omega)
  rw [assigned.found] at stays
  exact stays

theorem Assigned.dma1_holds
    (assigned : target.Assigned reservation scheduled first second place) :
    first.Holds (target.lat.dma1 + target.lat.anti) place.tickFrom
      place.tick := by
  have offers := first.findPlace_offers (target.lat.dma1 + target.lat.anti)
    reservation.dma1TickFrom
  rw [assigned.found] at offers
  exact offers.holds

theorem ite_gt_of_le {tick tickFrom : UInt64} (le : tick ≤ tickFrom) :
    (if tickFrom > tick then tickFrom else tick) = tickFrom := by
  split
  · rfl
  · next behind => exact UInt64.le_antisymm le (UInt64.not_lt.mp behind)

theorem ite_lt_of_le {tick tickFrom : UInt64} (le : tick ≤ tickFrom) :
    (if tickFrom < tick then tick else tickFrom) = tickFrom :=
  if_neg (UInt64.not_lt.mpr le)

theorem Assigned.exclusive {windows dieWindows : List Window}
    (suits : target.Suits arrived) (secured : target.Secured arrived reservation)
    (channel : target.channel.Exclusive windows)
    (die : target.die.Exclusive dieWindows)
    (assigned : target.Assigned reservation scheduled first second place) :
    scheduled.channel.Exclusive
        (scheduled.tsDMA1.window :: scheduled.tsDMA0.window :: windows) ∧
      scheduled.die.Exclusive (scheduled.tsMEM.window :: dieWindows) ∧
      Encloses scheduled arrived := by
  have stays := assigned.place_stays suits secured channel
  have within := suits.within _ secured.known
  have behind := secured.total.behind
  have short := secured.total.fits
  have total := secured.total.total
  have holds := secured.sound.channel
  have second_holds := assigned.dma1_holds
  have arrived_le := UInt64.le_iff_toNat_le.mp secured.arrived_le
  have placed : place.tickFrom.toNat = reservation.dma1TickFrom.toNat := by
    rw [stays]
  have sum : target.lat.sum = target.lat.dma0.toNat + target.lat.mem.toNat +
      target.lat.dma1.toNat + target.lat.anti.toNat := rfl
  have dma0_low : (reservation.candidate.dma0TickFrom +
      target.lat.dma0).toNat =
      reservation.candidate.dma0TickFrom.toNat + target.lat.dma0.toNat := by
    rw [UInt64.toNat_add]
    omega
  have dma1_low : (place.tickFrom + target.lat.anti).toNat =
      reservation.dma1TickFrom.toNat + target.lat.anti.toNat := by
    rw [UInt64.toNat_add, stays]
    omega
  have dma0_slot : scheduled.tsDMA0.window =
      ⟨reservation.candidate.dma0TickFrom.toNat,
        target.lat.dma0.toNat⟩ := by
    rw [assigned.tsDMA0, ite_lt_of_le holds.start_le, TimeSlot.window_make]
  have dma1_slot : scheduled.tsDMA1.window =
      ⟨(place.tickFrom + target.lat.anti).toNat, target.lat.dma1.toNat⟩ := by
    rw [assigned.tsDMA1, ite_lt_of_le second_holds.start_le,
      TimeSlot.window_make]
  have mem_slot : scheduled.tsMEM.window =
      ⟨reservation.candidate.dma0TickFrom.toNat,
        reservation.totalLat.toNat⟩ := by
    rw [assigned.tsMEM, ite_lt_of_le secured.sound.die.start_le,
      TimeSlot.window_make]
  have dma1 := assigned.dma1
  have anticipated := assigned.channel
  rw [ite_gt_of_le second_holds.start_le] at dma1
  rw [ite_gt_of_le holds.start_le] at anticipated
  rw [dma0_slot, dma1_slot, mem_slot]
  refine ⟨?_, die.reserve secured.die secured.fits assigned.die, ?_⟩
  · have first_exclusive := channel.reserve holds (by omega) assigned.dma0
    have second_exclusive := first_exclusive.reserve
      (second_holds.advance (by omega)) (by omega) dma1
    apply second_exclusive.anticipate _ suits.anticipates anticipated
    omega
  · constructor
    · rw [dma0_slot]
      exact arrived_le
    · rw [dma0_slot, mem_slot]
    · rw [dma0_slot, dma1_slot]
      dsimp only
      omega
    · rw [dma1_slot, mem_slot]
      dsimp only
      omega

theorem Assigned.keyFor_eq
    (assigned : target.Assigned reservation scheduled first second place) :
    scheduled.channel.freeSlots.keyFor = target.channel.freeSlots.keyFor :=
  (Resource.keyFor_anticipate assigned.channel).trans
    ((Resource.keyFor_insert assigned.dma1).trans
      (Resource.keyFor_insert assigned.dma0))

end Target

/-- Every operation has a first transfer, and what follows it lasts as long as
the slots of this length. -/
structure Latency.Timed (lat : Latency) (tickLen : UInt64) : Prop where
  transfers : ∀ oper, 0 < (lat.timing.dma0.get oper).toNat
  served : ∀ addrPage oper,
    tickLen.toNat ≤ (lat.getLatency addrPage oper .mem).toNat +
      (lat.getLatency addrPage oper .dma1).toNat +
        (lat.getLatency addrPage .read .dma0).toNat

structure Served where
  cmd : Command
  addr : CPDPBP
  scheduled : Scheduled

namespace PAL2

/-- The states after calls of `submit` and `FlushFreeSlots`, with the commands
that were served, the latest first. -/
inductive Serves (start : PAL2) : List Served → PAL2 → Prop
  | start : Serves start [] start
  | submit {log before cmd addr target scheduled}
      (earlier : Serves start log before)
      (targeted : before.target cmd addr = some target)
      (within : target.Within cmd.arrived)
      (comes : Comes (target.schedule · cmd.arrived) (.ok scheduled)) :
      Serves start (⟨cmd, addr, scheduled⟩ :: log)
        (before.update addr scheduled)
  | flushFreeSlots {log before} (earlier : Serves start log before)
      (currentTick : UInt64) :
      Serves start log (before.flushFreeSlots currentTick)

/-- What is reserved on a channel: two windows for each of its commands. -/
def channelWindows (log : List Served) (channel : Nat) : List Window :=
  (log.filter fun served => served.addr.channel = channel).flatMap fun served =>
    [served.scheduled.tsDMA1.window, served.scheduled.tsDMA0.window]

/-- What is reserved on a die: a window for each of its commands. -/
def dieWindows (param : Parameter) (log : List Served) (die : Nat) :
    List Window :=
  (log.filter fun served =>
    (cpdpbpToDieIdx param served.addr).toNat = die).map fun served =>
      served.scheduled.tsMEM.window

theorem channelWindows_cons (served : Served) (log : List Served)
    (channel : Nat) :
    channelWindows (served :: log) channel =
      if served.addr.channel = channel then
        served.scheduled.tsDMA1.window :: served.scheduled.tsDMA0.window ::
          channelWindows log channel
      else channelWindows log channel := by
  simp only [channelWindows, List.filter_cons, decide_eq_true_eq]
  split <;> simp

theorem dieWindows_cons (param : Parameter) (served : Served)
    (log : List Served) (die : Nat) :
    dieWindows param (served :: log) die =
      if (cpdpbpToDieIdx param served.addr).toNat = die then
        served.scheduled.tsMEM.window :: dieWindows param log die
      else dieWindows param log die := by
  simp only [dieWindows, List.filter_cons, decide_eq_true_eq]
  split <;> simp

/-- Each channel and each die is free outside the windows that were reserved on
it and has its short slots, and every command keeps to its die. -/
structure Timely (pal : PAL2) (tickLen : UInt64) (log : List Served) :
    Prop where
  sound : pal.Sound
  timed : pal.lat.Timed tickLen
  keyed : ∀ {index : Nat} {channel : Resource},
    pal.channels[index]? = some channel → channel.Keyed tickLen
  channels : ∀ {index : Nat} {channel : Resource},
    pal.channels[index]? = some channel →
    channel.Exclusive (channelWindows log index)
  dies : ∀ {index : Nat} {die : Resource},
    pal.dies[index]? = some die →
    die.Exclusive (dieWindows pal.param log index)
  encloses : ∀ served ∈ log,
    Target.Encloses served.scheduled served.cmd.arrived
  addressed : ∀ served ∈ log, served.addr.channel < pal.channels.length ∧
    (cpdpbpToDieIdx pal.param served.addr).toNat < pal.dies.length

theorem target_listed {pal : PAL2} {cmd : Command} {addr : CPDPBP}
    {target : Target} (targeted : pal.target cmd addr = some target) :
    pal.channels[addr.channel]? = some target.channel ∧
      pal.dies[(cpdpbpToDieIdx pal.param addr).toNat]? = some target.die := by
  simp only [PAL2.target] at targeted
  split at targeted
  · next channel die channel_listed die_listed =>
      cases targeted
      exact ⟨channel_listed, die_listed⟩
  · cases targeted

theorem target_lat {pal : PAL2} {cmd : Command} {addr : CPDPBP}
    {target : Target} (targeted : pal.target cmd addr = some target) :
    target.lat = pal.lat.latencies cmd addr := by
  simp only [PAL2.target] at targeted
  split at targeted
  · cases targeted
    rfl
  · cases targeted

theorem Timely.suits {pal : PAL2} {tickLen : UInt64} {log : List Served}
    {cmd : Command} {addr : CPDPBP} {target : Target}
    (timely : pal.Timely tickLen log)
    (targeted : pal.target cmd addr = some target)
    (within : target.Within cmd.arrived) : target.Suits cmd.arrived := by
  have lat := target_lat targeted
  obtain ⟨e, listed, le⟩ := timely.keyed (target_listed targeted).1
  have le := UInt64.le_iff_toNat_le.mp le
  have served := timely.timed.served addr.page cmd.operation
  constructor
  · rw [lat]
    exact timely.timed.transfers cmd.operation
  · rw [lat]
    exact timely.timed.transfers .read
  · exact within
  · refine ⟨e, listed, ?_⟩
    rw [lat]
    exact Nat.le_trans le served

theorem schedule_assigned {target : Target} {arrived : UInt64}
    {scheduled : Scheduled}
    (comes : Comes (target.schedule · arrived) (.ok scheduled)) :
    ∃ reservation, Comes (target.search · arrived) reservation ∧
      target.assign reservation = .ok scheduled := by
  obtain ⟨fuel, reached⟩ := comes
  obtain ⟨reservation, searched, assigned⟩ := Option.map_eq_some_iff.mp reached
  exact ⟨reservation, ⟨fuel, searched⟩, assigned⟩

theorem Timely.submit {pal : PAL2} {tickLen : UInt64} {log : List Served}
    {cmd : Command} {addr : CPDPBP} {target : Target} {scheduled : Scheduled}
    (timely : pal.Timely tickLen log)
    (targeted : pal.target cmd addr = some target)
    (within : target.Within cmd.arrived)
    (comes : Comes (target.schedule · cmd.arrived) (.ok scheduled)) :
    (pal.update addr scheduled).Timely tickLen
      (⟨cmd, addr, scheduled⟩ :: log) := by
  have suits := timely.suits targeted within
  obtain ⟨channel_listed, die_listed⟩ := target_listed targeted
  obtain ⟨reservation, searched, assigned⟩ := schedule_assigned comes
  have separated := timely.sound _ (target_die targeted)
  have secured := Target.search_secured suits.fits separated searched
  obtain ⟨first, second, place, steps⟩ := Target.assign_ok assigned
  obtain ⟨channel, die, encloses⟩ := steps.exclusive suits secured
    (timely.channels channel_listed) (timely.dies die_listed)
  constructor
  · intro other member
    rcases List.mem_or_eq_of_mem_set member with old | rfl
    · exact timely.sound other old
    · apply separated.insertFreeSlot secured.die secured.fits _ _ steps.die
      · exact Nat.le_trans suits.fits.some secured.total.le
      · exact fun divided => absurd divided Bool.false_ne_true
  · exact timely.timed
  · intro index other listed
    by_cases same : addr.channel = index
    · subst same
      have bound := (List.getElem?_eq_some_iff.mp channel_listed).1
      simp only [PAL2.update, List.getElem?_set_self bound] at listed
      cases listed
      exact (timely.keyed channel_listed).of_keyFor steps.keyFor_eq
    · simp only [PAL2.update, List.getElem?_set_ne same] at listed
      exact timely.keyed listed
  · intro index other listed
    rw [channelWindows_cons]
    split
    · next same =>
        subst same
        have bound := (List.getElem?_eq_some_iff.mp channel_listed).1
        simp only [PAL2.update, List.getElem?_set_self bound] at listed
        cases listed
        exact channel
    · next different =>
        simp only [PAL2.update, List.getElem?_set_ne different] at listed
        exact timely.channels listed
  · intro index other listed
    rw [dieWindows_cons]
    split
    · next same =>
        subst same
        have bound := (List.getElem?_eq_some_iff.mp die_listed).1
        simp only [PAL2.update, List.getElem?_set_self bound] at listed
        cases listed
        exact die
    · next different =>
        have elsewhere : (cpdpbpToDieIdx pal.param addr).toNat ≠ index :=
          different
        simp only [PAL2.update, List.getElem?_set_ne elsewhere] at listed
        exact timely.dies listed
  · intro served member
    rcases List.mem_cons.mp member with rfl | old
    · exact encloses
    · exact timely.encloses served old
  · intro served member
    simp only [PAL2.update, List.length_set]
    rcases List.mem_cons.mp member with rfl | old
    · exact ⟨(List.getElem?_eq_some_iff.mp channel_listed).1,
        (List.getElem?_eq_some_iff.mp die_listed).1⟩
    · exact timely.addressed served old

theorem Timely.flush {pal : PAL2} {tickLen : UInt64} {log : List Served}
    (timely : pal.Timely tickLen log) (currentTick : UInt64) :
    (pal.flushFreeSlots currentTick).Timely tickLen log := by
  constructor
  · exact flushFreeSlots_sound timely.sound currentTick
  · exact timely.timed
  · intro index channel listed
    simp only [PAL2.flushFreeSlots, List.getElem?_map,
      Option.map_eq_some_iff] at listed
    obtain ⟨before, listed, rfl⟩ := listed
    exact (timely.keyed listed).of_keyFor (keyFor_mapValues _)
  · intro index channel listed
    simp only [PAL2.flushFreeSlots, List.getElem?_map,
      Option.map_eq_some_iff] at listed
    obtain ⟨before, listed, rfl⟩ := listed
    exact (timely.channels listed).flush currentTick
  · intro index die listed
    simp only [PAL2.flushFreeSlots, List.getElem?_map,
      Option.map_eq_some_iff] at listed
    obtain ⟨before, listed, rfl⟩ := listed
    exact (timely.dies listed).flush currentTick
  · exact timely.encloses
  · simp only [PAL2.flushFreeSlots, List.length_map]
    exact timely.addressed

theorem make_ok {param : Parameter} {lat : Latency}
    {dmaSpeed pageSize : UInt64} {pal : PAL2}
    (made : make param lat dmaSpeed pageSize = .ok pal) :
    ∃ dieKeys, pal = {
      param
      lat
      channels := List.replicate param.channel.toNat (freshResource
        ((channelKeys (dmaSpeed / 50).toUInt32
          (16384 / pageSize).toUInt32).map (·.toUInt64)))
      dies := List.replicate (param.channel * param.package * param.die).toNat
        (freshResource dieKeys) } := by
  simp only [make] at made
  split at made
  · cases made
  · split at made
    · cases made
    · split at made
      · cases made
      · cases made
        exact ⟨_, rfl⟩

/-- The time of a transfer, for which every channel has a map. -/
def transferTime (dmaSpeed : UInt64) : UInt64 :=
  (100000 / (dmaSpeed / 50).toUInt32).toUInt64

theorem make_timely {param : Parameter} {lat : Latency}
    {dmaSpeed pageSize : UInt64} {pal : PAL2}
    (made : make param lat dmaSpeed pageSize = .ok pal)
    (timed : lat.Timed (transferTime dmaSpeed)) :
    pal.Timely (transferTime dmaSpeed) [] := by
  have sound := make_sound made
  obtain ⟨dieKeys, rfl⟩ := make_ok made
  refine ⟨sound, timed, ?_, ?_, ?_, (fun _ member => nomatch member),
    (fun _ member => nomatch member)⟩
  · intro index channel listed
    rw [(List.mem_replicate.mp (List.mem_of_getElem? listed)).2]
    exact Resource.freshResource_keyed List.mem_cons_self
  · intro index channel listed
    rw [(List.mem_replicate.mp (List.mem_of_getElem? listed)).2]
    exact Resource.freshResource_exclusive _
  · intro index die listed
    rw [(List.mem_replicate.mp (List.mem_of_getElem? listed)).2]
    exact Resource.freshResource_exclusive _

theorem Serves.timely {start pal : PAL2} {tickLen : UInt64} {log : List Served}
    (fresh : start.Timely tickLen []) (serves : Serves start log pal) :
    pal.Timely tickLen log := by
  induction serves with
  | start => exact fresh
  | submit _ targeted within comes induction =>
      exact induction.submit targeted within comes
  | flushFreeSlots _ currentTick induction => exact induction.flush currentTick

theorem Serves.param_eq {start pal : PAL2} {log : List Served}
    (serves : Serves start log pal) : pal.param = start.param := by
  induction serves with
  | start => rfl
  | submit _ _ _ _ induction => exact induction
  | flushFreeSlots _ _ induction => exact induction

theorem channelWindows_none {log : List Served} {channel : Nat}
    (apart : ∀ served ∈ log, served.addr.channel ≠ channel) :
    channelWindows log channel = [] := by
  have none : (log.filter fun served => served.addr.channel = channel) = [] :=
    List.filter_eq_nil_iff.mpr fun served member => by
      simpa using apart served member
  rw [channelWindows, none, List.flatMap_nil]

theorem dieWindows_none {param : Parameter} {log : List Served} {die : Nat}
    (apart : ∀ served ∈ log,
      (cpdpbpToDieIdx param served.addr).toNat ≠ die) :
    dieWindows param log die = [] := by
  have none : (log.filter fun served =>
      (cpdpbpToDieIdx param served.addr).toNat = die) = [] :=
    List.filter_eq_nil_iff.mpr fun served member => by
      simpa using apart served member
  rw [dieWindows, none, List.map_nil]

/-- However commands and flushes come, no tick is in two of the windows of a
channel or of a die, and the transfers of a command are at the two ends of its
time on the die. -/
theorem timeSlots_exclusive {param : Parameter} {lat : Latency}
    {dmaSpeed pageSize : UInt64} {start pal : PAL2} {log : List Served}
    (made : make param lat dmaSpeed pageSize = .ok start)
    (timed : lat.Timed (transferTime dmaSpeed))
    (serves : Serves start log pal) :
    (∀ channel, (channelWindows log channel).Pairwise Window.Apart) ∧
      (∀ die, (dieWindows param log die).Pairwise Window.Apart) ∧
      ∀ served ∈ log,
        Target.Encloses served.scheduled served.cmd.arrived := by
  have timely := serves.timely (make_timely made timed)
  have same : pal.param = param := by
    obtain ⟨_, rfl⟩ := make_ok made
    exact serves.param_eq
  refine ⟨?_, ?_, timely.encloses⟩
  · intro channel
    cases found : pal.channels[channel]? with
    | some resource => exact (timely.channels found).apart
    | none =>
        have beyond := List.getElem?_eq_none_iff.mp found
        rw [channelWindows_none fun served member => Nat.ne_of_lt
          (Nat.lt_of_lt_of_le (timely.addressed served member).1 beyond)]
        exact .nil
  · intro die
    rw [← same]
    cases found : pal.dies[die]? with
    | some resource => exact (timely.dies found).apart
    | none =>
        have beyond := List.getElem?_eq_none_iff.mp found
        rw [dieWindows_none fun served member => Nat.ne_of_lt
          (Nat.lt_of_lt_of_le (timely.addressed served member).2 beyond)]
        exact .nil

def serve (addr : CPDPBP) (fuel : Nat) :
    List Command → List Served × PAL2 → Option (List Served × PAL2)
  | [], reached => some reached
  | cmd :: rest, (log, pal) =>
      match pal.target cmd addr with
      | none => none
      | some target =>
          if target.Within cmd.arrived then
            match target.schedule fuel cmd.arrived with
            | some (.ok scheduled) => serve addr fuel rest
                (⟨cmd, addr, scheduled⟩ :: log, pal.update addr scheduled)
            | _ => none
          else
            none

theorem serve_serves {start : PAL2} {addr : CPDPBP} {fuel : Nat}
    {cmds : List Command} {before reached : List Served × PAL2}
    (earlier : Serves start before.1 before.2)
    (served : serve addr fuel cmds before = some reached) :
    Serves start reached.1 reached.2 := by
  induction cmds generalizing before with
  | nil =>
      cases served
      exact earlier
  | cons cmd rest induction =>
      obtain ⟨log, pal⟩ := before
      simp only [serve] at served
      split at served
      · cases served
      · next target targeted =>
          split at served
          · next within =>
              split at served
              · next scheduled ended =>
                  exact induction
                    (.submit earlier targeted within ⟨fuel, ended⟩) served
              · cases served
          · cases served

theorem defaultLatency_timed : defaultLatency.Timed (transferTime 400) where
  transfers := fun oper => by cases oper <;> decide
  served := by
    intro addrPage oper
    have anticipated : (transferTime 400).toNat ≤
        (defaultLatency.getLatency addrPage .read .dma0).toNat := by
      show (transferTime 400).toNat ≤ (16689 : UInt64).toNat
      decide
    omega

/-- A read comes while a page is written, and an erase behind both. -/
theorem timeSlots_exclusive_three :
    ∃ (log : List Served) (pal : PAL2), Serves fresh log pal ∧
      log.length = 3 ∧ (channelWindows log 0).Pairwise Window.Apart ∧
      (dieWindows singleDie log 0).Pairwise Window.Apart := by
  have found : (serve firstPage 9 [⟨0, .write⟩, ⟨1000, .read⟩, ⟨2000, .erase⟩]
      ([], fresh)).any (fun reached => reached.1.length = 3) = true := by
    decide +kernel
  obtain ⟨reached, served, three⟩ := (Option.any_eq_true _ _).mp found
  have serves := serve_serves .start served
  have exclusive := timeSlots_exclusive make_fresh defaultLatency_timed serves
  exact ⟨reached.1, reached.2, serves, of_decide_eq_true three,
    exclusive.1 0, exclusive.2.1 0⟩

end PAL2

end SimpleSSD.PAL
