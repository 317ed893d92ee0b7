import SimpleSSD.PAL.Separation
import SimpleSSD.PAL.Timeline

namespace SimpleSSD.PAL

open Data

/-! The search for a command's time goes on to later ticks, and ends. -/

def Latencies.sum (lat : Latencies) : Nat :=
  lat.dma0.toNat + lat.mem.toNat + lat.dma1.toNat + lat.anti.toNat

def Resource.ticks (resource : Resource) : List Nat :=
  resource.startPoint.toNat :: resource.freeSlots.entries.flatMap fun e =>
    e.2.entries.map fun f => f.1.toNat

/-- A round that goes on makes the tick larger, and the last one does not make
it smaller. -/
def Advances (tickFrom : UInt64) (reached : ρ → UInt64)
    (round : Round UInt64 ρ) : Prop :=
  round.All (tickFrom < ·) (tickFrom ≤ reached ·)

namespace Target

variable {target : Target} {arrived : UInt64}

/-- The search ends, with `DMA0tickFrom` larger after every round of LOOP1 and
of LOOP0 that goes on. -/
structure Terminates (target : Target) (arrived : UInt64) : Prop where
  ends : ∃ reservation, Comes (target.search · arrived) reservation
  inner : ∀ dma0TickFrom,
    Advances dma0TickFrom (·.dma0TickFrom) (target.loop1 dma0TickFrom)
  outer : ∀ {dma0TickFrom candidate},
    Visits target.outer arrived dma0TickFrom →
    Comes (rounds target.inner · dma0TickFrom) candidate →
    dma0TickFrom ≤ candidate.dma0TickFrom ∧
      Advances candidate.dma0TickFrom (·.candidate.dma0TickFrom)
        (target.loop0 candidate)

/-- The arrival of a command, and the ticks at which free time starts. -/
def startTicks (target : Target) (arrived : UInt64) : List Nat :=
  arrived.toNat :: (target.channel.ticks ++ target.die.ticks)

/-- With all of its latencies the command does not pass the last tick, wherever
free time starts. -/
structure Fits (target : Target) (arrived : UInt64) : Prop where
  some : 0 < target.lat.sum
  within : ∀ tick ∈ target.startTicks arrived,
    tick + target.lat.sum < 2 ^ 64

theorem loop1_advances (target : Target) (dma0TickFrom : UInt64) :
    Advances dma0TickFrom (·.dma0TickFrom) (target.loop1 dma0TickFrom) := by
  unfold Advances
  have dma0 := target.channel.findPlace_offers target.lat.dma0 dma0TickFrom
  have mem := target.die.findPlace_offers (target.lat.dma0 + target.lat.mem)
    (target.channel.findPlace target.lat.dma0 dma0TickFrom).tickFrom
  unfold loop1
  dsimp only
  split
  · exact dma0.le
  · split
    · exact UInt64.le_trans dma0.le mem.le
    · next different =>
        refine UInt64.lt_of_le_of_ne (UInt64.le_trans dma0.le mem.le) ?_
        intro same
        -- nothing has moved, and the same search has the same result
        exact different (by rw [← same])

theorem inner_settled (target : Target) (dma0TickFrom : UInt64) :
    Settled (target.inner · dma0TickFrom) :=
  Settled.const _

theorem outer_settled (target : Target) (dma0TickFrom : UInt64) :
    Settled (target.outer · dma0TickFrom) :=
  Settled.map (rounds_settled target.inner_settled dma0TickFrom) _

/-- What goes on to larger 64-bit numbers comes to an end. -/
theorem remaining_lt {tick next : UInt64} (less : tick < next) :
    2 ^ 64 - next.toNat < 2 ^ 64 - tick.toNat := by
  have bound := next.toNat_lt
  rw [UInt64.lt_iff_toNat_lt] at less
  omega

theorem inner_ends (target : Target) (dma0TickFrom : UInt64) :
    ∃ candidate, Comes (rounds target.inner · dma0TickFrom) candidate := by
  refine rounds_end (P := fun _ => True) target.inner_settled
    (fun tick => 2 ^ 64 - tick.toNat) (fun tick _ => ?_) trivial
  refine ⟨target.loop1 tick, ⟨0, rfl⟩, ?_⟩
  have advances := target.loop1_advances tick
  cases outcome : target.loop1 tick with
  | leave candidate => trivial
  | again next =>
      rw [outcome] at advances
      exact ⟨trivial, remaining_lt advances⟩

/-- The variables with which LOOP1 is left: both transfers have their free
slots, from the same tick on. -/
structure Sound (target : Target) (candidate : Candidate) : Prop where
  channel : target.channel.Holds target.lat.dma0 candidate.dma0TickFrom
    candidate.tickDMA0
  die : target.die.Holds (target.lat.dma0 + target.lat.mem)
    candidate.dma0TickFrom candidate.tickMEM

theorem loop1_sound {dma0TickFrom : UInt64} {candidate : Candidate}
    (left : target.loop1 dma0TickFrom = .leave candidate) :
    target.Sound candidate := by
  have dma0 := target.channel.findPlace_offers target.lat.dma0 dma0TickFrom
  have mem := target.die.findPlace_offers (target.lat.dma0 + target.lat.mem)
    (target.channel.findPlace target.lat.dma0 dma0TickFrom).tickFrom
  unfold loop1 at left
  dsimp only at left
  split at left
  · next same =>
      cases left
      have stays := mem.of_tick_le (same ▸ dma0.holds.start_le)
      refine ⟨dma0.holds, ?_⟩
      have holds := mem.holds
      rwa [stays] at holds
  · split at left
    · next same =>
        cases left
        have vrfy := target.channel.findPlace_offers target.lat.dma0
          (target.die.findPlace (target.lat.dma0 + target.lat.mem)
            (target.channel.findPlace target.lat.dma0
              dma0TickFrom).tickFrom).tickFrom
        have stays := vrfy.of_tick_le
          (same ▸ UInt64.le_trans dma0.holds.start_le mem.le)
        refine ⟨?_, mem.holds⟩
        have holds := vrfy.holds
        rwa [stays, same] at holds
    · cases left

theorem mem_ticks {resource : Resource} {tickLen tickFrom tick : UInt64}
    (holds : resource.Holds tickLen tickFrom tick) :
    tick.toNat ∈ resource.ticks := by
  rcases holds.free with rfl | ⟨key, last, ⟨slots, member, listed⟩, -⟩
  · exact List.mem_cons_self
  · refine List.mem_cons_of_mem _ (List.mem_flatMap.mpr ⟨_, member, ?_⟩)
    exact List.mem_map.mpr ⟨_, listed, rfl⟩

/-- A place lies at the tick that was asked for, or where free time starts. -/
theorem place_mem {resource : Resource} {tickLen tickFrom : UInt64}
    {place : Place} (offers : resource.Offers tickLen tickFrom place) :
    place.tickFrom = tickFrom ∨ place.tickFrom.toNat ∈ resource.ticks := by
  refine offers.moved.imp_right fun moved => ?_
  rw [← moved.2]
  exact mem_ticks offers.holds

theorem place_known {resource : Resource} {tickLen tickFrom : UInt64}
    {place : Place} (offers : resource.Offers tickLen tickFrom place)
    (mine : ∀ tick ∈ resource.ticks,
      tick ∈ target.channel.ticks ++ target.die.ticks)
    (known : tickFrom.toNat ∈ target.startTicks arrived) :
    place.tickFrom.toNat ∈ target.startTicks arrived := by
  rcases place_mem offers with same | member
  · rwa [same]
  · exact List.mem_cons_of_mem _ (mine _ member)

theorem loop1_known {tick : UInt64}
    (known : tick.toNat ∈ target.startTicks arrived) :
    (target.loop1 tick).All
      (fun next => next.toNat ∈ target.startTicks arrived)
      fun candidate =>
        candidate.dma0TickFrom.toNat ∈ target.startTicks arrived := by
  have dma0 := place_known
    (target.channel.findPlace_offers target.lat.dma0 tick)
    (fun _ => List.mem_append_left _) known
  have mem := place_known
    (target.die.findPlace_offers (target.lat.dma0 + target.lat.mem)
      (target.channel.findPlace target.lat.dma0 tick).tickFrom)
    (fun _ => List.mem_append_right _) dma0
  unfold loop1
  dsimp only
  split
  · exact dma0
  · split
    · exact mem
    · exact mem

theorem inner_all {dma0TickFrom : UInt64} {candidate : Candidate}
    (known : dma0TickFrom.toNat ∈ target.startTicks arrived)
    (reached : Comes (rounds target.inner · dma0TickFrom) candidate) :
    target.Sound candidate ∧ dma0TickFrom ≤ candidate.dma0TickFrom ∧
      candidate.dma0TickFrom.toNat ∈ target.startTicks arrived := by
  refine rounds_all (P := fun tick => dma0TickFrom ≤ tick ∧
      tick.toNat ∈ target.startTicks arrived)
    (Q := fun candidate => target.Sound candidate ∧
      dma0TickFrom ≤ candidate.dma0TickFrom ∧
      candidate.dma0TickFrom.toNat ∈ target.startTicks arrived)
    (fun tick outcome here comes => ?_) ⟨UInt64.le_refl _, known⟩ reached
  obtain ⟨fuel, taken⟩ := comes
  have advances := target.loop1_advances tick
  have known := loop1_known here.2
  have sound : ∀ candidate, target.loop1 tick = .leave candidate →
      target.Sound candidate := fun _ => loop1_sound
  rw [Option.some.inj taken] at advances known sound
  cases outcome with
  | again next =>
      exact ⟨UInt64.le_trans here.1 (UInt64.le_of_lt advances), known⟩
  | leave candidate =>
      exact ⟨sound candidate rfl, UInt64.le_trans here.1 advances, known⟩

structure Total (target : Target) (candidate : Candidate)
    (dma1TickFrom totalLat : UInt64) : Prop where
  behind : candidate.dma0TickFrom.toNat + target.lat.dma0.toNat +
    target.lat.mem.toNat ≤ dma1TickFrom.toNat
  fits : dma1TickFrom.toNat + target.lat.dma1.toNat +
    target.lat.anti.toNat < 2 ^ 64
  total : totalLat.toNat + candidate.dma0TickFrom.toNat =
    dma1TickFrom.toNat + target.lat.dma1.toNat + target.lat.anti.toNat

theorem total_of {candidate : Candidate} (fits : target.Fits arrived)
    (within : candidate.dma0TickFrom.toNat + target.lat.sum < 2 ^ 64)
    {dma1 : Place}
    (offers : target.channel.Offers (target.lat.dma1 + target.lat.anti)
      (candidate.dma0TickFrom + (target.lat.dma0 + target.lat.mem)) dma1) :
    target.Total candidate dma1.tickFrom
      (dma1.tickFrom + target.lat.dma1 + target.lat.anti -
        candidate.dma0TickFrom) := by
  have le := UInt64.le_iff_toNat_le.mp offers.le
  have mine : dma1.tickFrom = candidate.dma0TickFrom +
      (target.lat.dma0 + target.lat.mem) ∨
      dma1.tickFrom.toNat + target.lat.sum < 2 ^ 64 :=
    (place_mem offers).imp_right fun member =>
      fits.within _ (List.mem_cons_of_mem _ (List.mem_append_left _ member))
  have start : (candidate.dma0TickFrom +
      (target.lat.dma0 + target.lat.mem)).toNat =
      candidate.dma0TickFrom.toNat + target.lat.dma0.toNat +
        target.lat.mem.toNat := by
    unfold Latencies.sum at within
    rw [UInt64.toNat_add, UInt64.toNat_add]
    omega
  have short : dma1.tickFrom.toNat + target.lat.dma1.toNat +
      target.lat.anti.toNat < 2 ^ 64 := by
    unfold Latencies.sum at within mine
    rcases mine with same | mine
    · rw [same, start]
      omega
    · omega
  have last : (dma1.tickFrom + target.lat.dma1 + target.lat.anti).toNat =
      dma1.tickFrom.toNat + target.lat.dma1.toNat +
        target.lat.anti.toNat := by
    rw [UInt64.toNat_add, UInt64.toNat_add]
    omega
  refine ⟨by omega, short, ?_⟩
  rw [UInt64.toNat_sub_of_le _ _
    (by rw [UInt64.le_iff_toNat_le]; omega)]
  omega

theorem Total.le {candidate : Candidate} {dma1TickFrom totalLat : UInt64}
    (total : target.Total candidate dma1TickFrom totalLat) :
    target.lat.sum ≤ totalLat.toNat := by
  have behind := total.behind
  have total := total.total
  unfold Latencies.sum
  omega

/-- The variables with which LOOP0 is left: the die has its free slot for all
the time of the command, and the channel for the second transfer. -/
structure Secured (target : Target) (arrived : UInt64)
    (reservation : Reservation) : Prop where
  sound : target.Sound reservation.candidate
  arrived_le : arrived ≤ reservation.candidate.dma0TickFrom
  known : reservation.candidate.dma0TickFrom.toNat ∈
    target.startTicks arrived
  die : target.die.Holds reservation.totalLat
    reservation.candidate.dma0TickFrom reservation.candidate.tickMEM
  dma1 : ∃ tickDMA1, target.channel.Holds
    (target.lat.dma1 + target.lat.anti) reservation.dma1TickFrom tickDMA1
  total : target.Total reservation.candidate reservation.dma1TickFrom
    reservation.totalLat

theorem Secured.fits {reservation : Reservation}
    (secured : target.Secured arrived reservation) :
    reservation.totalLat.toNat +
      reservation.candidate.dma0TickFrom.toNat < 2 ^ 64 :=
  secured.total.total ▸ secured.total.fits

theorem loop0_all {candidate : Candidate} (fits : target.Fits arrived)
    (separated : target.die.Separated 1) (sound : target.Sound candidate)
    (le : arrived ≤ candidate.dma0TickFrom)
    (known : candidate.dma0TickFrom.toNat ∈ target.startTicks arrived) :
    (target.loop0 candidate).All
      (fun next => candidate.dma0TickFrom < next ∧
        next.toNat ∈ target.startTicks arrived)
      fun reservation => reservation.candidate = candidate ∧
        target.Secured arrived reservation := by
  have within := fits.within _ known
  have dma1 := target.channel.findPlace_offers
    (target.lat.dma1 + target.lat.anti)
    (candidate.dma0TickFrom + (target.lat.dma0 + target.lat.mem))
  have total := total_of fits within dma1
  unfold loop0
  dsimp only
  generalize target.channel.findPlace _ _ = place at dma1 total ⊢
  generalize place.tickFrom + target.lat.dma1 + target.lat.anti -
    candidate.dma0TickFrom = totalLat at total ⊢
  have vrfy := target.die.findPlace_offers totalLat candidate.dma0TickFrom
  split
  · next same =>
      refine ⟨rfl, sound, le, known, ?_, ⟨_, dma1.holds⟩, total⟩
      have holds := vrfy.holds
      rwa [vrfy.of_tick_le (same ▸ sound.die.start_le), same] at holds
  · next different =>
      refine ⟨?_, List.mem_cons_of_mem _
        (List.mem_append_right _ (mem_ticks vrfy.holds))⟩
      rcases vrfy.moved with stays | moved
      · -- both windows begin with one tick, so that they lie in one slot
        refine absurd ?_ different
        have long := total.le
        have some := fits.some
        have holds := vrfy.holds
        rw [stays] at holds
        refine (separated.holds_unique sound.die ?_ holds
          (total.total ▸ total.fits) (Nat.succ_pos _) (by omega)).symm
        unfold Latencies.sum at within
        rw [UInt64.toNat_add]
        omega
      · rw [moved.2]
        exact moved.1

theorem outer_all {tick : UInt64} {outcome : Round UInt64 Reservation}
    (fits : target.Fits arrived) (separated : target.die.Separated 1)
    (here : arrived ≤ tick ∧ tick.toNat ∈ target.startTicks arrived)
    (comes : Comes (target.outer · tick) outcome) :
    outcome.All
      (fun next => tick < next ∧
        arrived ≤ next ∧ next.toNat ∈ target.startTicks arrived)
      (target.Secured arrived) := by
  obtain ⟨fuel, taken⟩ := comes
  obtain ⟨candidate, reached, rfl⟩ := Option.map_eq_some_iff.mp taken
  obtain ⟨sound, le, known⟩ := inner_all here.2 ⟨fuel, reached⟩
  refine (loop0_all fits separated sound (UInt64.le_trans here.1 le)
    known).mono (fun next all => ?_) fun reservation all => all.2
  have less := UInt64.lt_of_le_of_lt le all.1
  exact ⟨less, UInt64.le_trans here.1 (UInt64.le_of_lt less), all.2⟩

theorem arrived_known (target : Target) (arrived : UInt64) :
    arrived ≤ arrived ∧ arrived.toNat ∈ target.startTicks arrived :=
  ⟨UInt64.le_refl _, List.mem_cons_self⟩

theorem terminates (fits : target.Fits arrived)
    (separated : target.die.Separated 1) : target.Terminates arrived where
  ends := by
    refine rounds_end (P := fun tick => arrived ≤ tick ∧
        tick.toNat ∈ target.startTicks arrived)
      target.outer_settled (fun tick => 2 ^ 64 - tick.toNat)
      (fun tick here => ?_) (target.arrived_known arrived)
    obtain ⟨candidate, fuel, reached⟩ := target.inner_ends tick
    have comes : Comes (target.outer · tick) (target.loop0 candidate) :=
      ⟨fuel, Option.map_eq_some_iff.mpr ⟨candidate, reached, rfl⟩⟩
    refine ⟨_, comes, ?_⟩
    exact (outer_all fits separated here comes).mono
      (fun next all => ⟨all.2, remaining_lt all.1⟩) fun _ _ => trivial
  inner := target.loop1_advances
  outer := by
    intro tick candidate visits reached
    have here := visits.all
      (fun tick outcome here comes =>
        (outer_all fits separated here comes).mono (fun _ all => all.2)
          fun _ => id)
      (target.arrived_known arrived)
    obtain ⟨sound, le, known⟩ := inner_all here.2 reached
    refine ⟨le, (loop0_all fits separated sound
      (UInt64.le_trans here.1 le) known).mono
      (fun next all => all.1) fun reservation all => ?_⟩
    exact UInt64.le_of_eq (congrArg Candidate.dma0TickFrom all.1.symm)

theorem search_secured {reservation : Reservation}
    (fits : target.Fits arrived) (separated : target.die.Separated 1)
    (reached : Comes (target.search · arrived) reservation) :
    target.Secured arrived reservation :=
  rounds_all
    (P := fun tick => arrived ≤ tick ∧
      tick.toNat ∈ target.startTicks arrived)
    (fun _ _ here comes =>
      (outer_all fits separated here comes).mono (fun _ all => all.2)
        fun _ => id)
    (target.arrived_known arrived) reached

/-- The steps of an assignment that meets no failed assertion; `first` and
`second` are the channel after the two transfers. -/
structure Assigned (target : Target) (reservation : Reservation)
    (scheduled : Scheduled) (first second : Resource) (place : Place) :
    Prop where
  dma0 : target.channel.insertFreeSlot target.lat.dma0
    reservation.candidate.dma0TickFrom reservation.candidate.tickDMA0 false =
      .ok first
  found : first.findPlace (target.lat.dma1 + target.lat.anti)
    reservation.dma1TickFrom = place
  dma1 : first.insertFreeSlot target.lat.dma1
    ((if place.tickFrom > place.tick then place.tickFrom else place.tick) +
      target.lat.anti) place.tick false = .ok second
  die : target.die.insertFreeSlot reservation.totalLat
    reservation.candidate.dma0TickFrom reservation.candidate.tickMEM false =
      .ok scheduled.die
  channel : second.anticipate target.lat.anti
    ((if reservation.candidate.dma0TickFrom > reservation.candidate.tickDMA0
      then reservation.candidate.dma0TickFrom
      else reservation.candidate.tickDMA0) + target.lat.dma0) =
      .ok scheduled.channel
  tsDMA0 : scheduled.tsDMA0 = .make
    (if reservation.candidate.dma0TickFrom < reservation.candidate.tickDMA0
      then reservation.candidate.tickDMA0
      else reservation.candidate.dma0TickFrom) target.lat.dma0
  tsMEM : scheduled.tsMEM = .make
    (if reservation.candidate.dma0TickFrom < reservation.candidate.tickMEM
      then reservation.candidate.tickMEM
      else reservation.candidate.dma0TickFrom) reservation.totalLat
  tsDMA1 : scheduled.tsDMA1 = .make
    ((if place.tickFrom < place.tick then place.tick else place.tickFrom) +
      target.lat.anti) target.lat.dma1

theorem assign_ok {reservation : Reservation} {scheduled : Scheduled}
    (reached : target.assign reservation = .ok scheduled) :
    ∃ first second place,
      target.Assigned reservation scheduled first second place := by
  simp only [assign, bind, Except.bind, pure, Except.pure] at reached
  split at reached
  · cases reached
  · next first dma0 =>
      split at reached
      · cases reached
      · next second dma1 =>
          split at reached
          · cases reached
          · next die reserved =>
              split at reached
              · cases reached
              · next channel anticipated =>
                  cases reached
                  exact ⟨first, second, _, dma0, rfl, dma1, reserved,
                    anticipated, rfl, rfl, rfl⟩

end Target

namespace PAL2

/-- The states after any calls of `submit` and `FlushFreeSlots`, where `Allowed`
speaks of the commands and the states that they find. -/
inductive Reaches (Allowed : PAL2 → Command → CPDPBP → Prop)
    (start : PAL2) : PAL2 → Prop
  | start : Reaches Allowed start start
  | submit {before after cmd addr} (earlier : Reaches Allowed start before)
      (allowed : Allowed before cmd addr)
      (comes : Comes (before.submit cmd addr) (.ok after)) :
      Reaches Allowed start after
  | flushFreeSlots {before} (earlier : Reaches Allowed start before)
      (currentTick : UInt64) :
      Reaches Allowed start (before.flushFreeSlots currentTick)

def Fits (pal : PAL2) (cmd : Command) (addr : CPDPBP) : Prop :=
  ∀ target, pal.target cmd addr = some target → target.Fits cmd.arrived

def Terminates (pal : PAL2) (cmd : Command) (addr : CPDPBP) : Prop :=
  ∀ target, pal.target cmd addr = some target → target.Terminates cmd.arrived

def Sound (pal : PAL2) : Prop := ∀ die ∈ pal.dies, die.Separated 1

theorem freshResource_held {keys : List UInt64} {key : UInt64}
    {slot : UInt64 × UInt64} :
    ¬ (freshResource keys).freeSlots.Held key slot := by
  have empty : ∀ {freeSlots : FreeSlots},
      (∀ e ∈ freeSlots.entries, e.2 = .empty) →
      ∀ e ∈ (keys.foldl (fun freeSlots key => freeSlots.insert key .empty)
        freeSlots).entries, e.2 = .empty := by
    induction keys with
    | nil => exact fun empty => empty
    | cons key keys induction =>
        intro freeSlots empty
        apply induction
        intro e member
        rcases mem_enter member with rfl | old
        · rfl
        · exact empty e old
  rintro ⟨slots, member, listed⟩
  have none := @empty .empty
    (fun e member => absurd member List.not_mem_nil) _ member
  dsimp only at none
  rw [none] at listed
  exact List.not_mem_nil listed

theorem freshResource_separated (keys : List UInt64) (gap : Nat) :
    (freshResource keys).Separated gap where
  nonempty := fun held => (freshResource_held held).elim
  below := fun held => (freshResource_held held).elim
  apart := fun held => (freshResource_held held).elim

theorem make_sound {param : Parameter} {lat : Latency}
    {dmaSpeed pageSize : UInt64} {pal : PAL2}
    (made : make param lat dmaSpeed pageSize = .ok pal) : pal.Sound := by
  unfold make at made
  dsimp only at made
  split at made
  · cases made
  · split at made
    · cases made
    · split at made
      · cases made
      · cases made
        intro die member
        rw [(List.mem_replicate.mp member).2]
        exact freshResource_separated _ 1

theorem target_die {pal : PAL2} {cmd : Command} {addr : CPDPBP}
    {target : Target} (found : pal.target cmd addr = some target) :
    target.die ∈ pal.dies := by
  unfold PAL2.target at found
  split at found
  · next channel die listed listed' =>
      cases found
      exact List.mem_of_getElem? listed'
  · cases found

theorem flushFreeSlots_sound {pal : PAL2} (sound : pal.Sound)
    (currentTick : UInt64) : (pal.flushFreeSlots currentTick).Sound := by
  intro die member
  obtain ⟨before, listed, rfl⟩ := List.mem_map.mp member
  exact (sound before listed).subset FreeSlots.held_flush

theorem submit_sound {pal after : PAL2} {cmd : Command} {addr : CPDPBP}
    (sound : pal.Sound) (fits : pal.Fits cmd addr)
    (comes : Comes (pal.submit cmd addr) (.ok after)) : after.Sound := by
  obtain ⟨fuel, reached⟩ := comes
  unfold PAL2.submit at reached
  split at reached
  · cases reached
  · next target found =>
      have separated := sound _ (target_die found)
      have fits := fits target found
      obtain ⟨result, reached, same⟩ := Option.map_eq_some_iff.mp reached
      obtain ⟨reservation, searched, rfl⟩ :=
        Option.map_eq_some_iff.mp reached
      have secured := Target.search_secured fits separated ⟨fuel, searched⟩
      cases assigned : target.assign reservation with
      | error fault => rw [assigned] at same; cases same
      | ok scheduled =>
          rw [assigned] at same
          cases same
          intro die member
          rcases List.mem_or_eq_of_mem_set member with old | rfl
          · exact sound die old
          · obtain ⟨first, second, place, assigned⟩ := Target.assign_ok assigned
            refine separated.insertFreeSlot secured.die secured.fits ?_ ?_
              assigned.die
            · exact Nat.le_trans fits.some secured.total.le
            · exact fun divided => absurd divided Bool.false_ne_true

theorem Reaches.sound {param : Parameter} {lat : Latency}
    {dmaSpeed pageSize : UInt64} {start pal : PAL2}
    (made : make param lat dmaSpeed pageSize = .ok start)
    (reaches : Reaches Fits start pal) : pal.Sound := by
  induction reaches with
  | start => exact make_sound made
  | submit _ allowed comes induction =>
      exact submit_sound induction allowed comes
  | flushFreeSlots _ currentTick induction =>
      exact flushFreeSlots_sound induction currentTick

/-- While the commands do not take the ticks past the last one, the search for
each of them terminates. -/
theorem timelineSearch_terminates {param : Parameter} {lat : Latency}
    {dmaSpeed pageSize : UInt64} {start pal : PAL2}
    (made : make param lat dmaSpeed pageSize = .ok start)
    (reaches : Reaches Fits start pal) {cmd : Command} {addr : CPDPBP}
    (fits : pal.Fits cmd addr) : pal.Terminates cmd addr :=
  fun target found => Target.terminates (fits target found)
    (reaches.sound made _ (target_die found))

/-! Runs that are followed step by step. -/

instance (target : Target) (arrived : UInt64) :
    Decidable (target.Fits arrived) :=
  decidable_of_iff
    (0 < target.lat.sum ∧ ∀ tick ∈ target.startTicks arrived,
      tick + target.lat.sum < 2 ^ 64)
    ⟨fun both => ⟨both.1, both.2⟩, fun fits => ⟨fits.some, fits.within⟩⟩

instance (pal : PAL2) (cmd : Command) (addr : CPDPBP) :
    Decidable (pal.Fits cmd addr) :=
  match found : pal.target cmd addr with
  | none => isTrue fun target same => by rw [found] at same; cases same
  | some target =>
      decidable_of_iff (target.Fits cmd.arrived) <| by
        unfold Fits
        rw [found]
        exact ⟨fun fits _ same => Option.some.inj same ▸ fits,
          fun fits => fits target rfl⟩

def run (allowed : PAL2 → Command → CPDPBP → Bool) (addr : CPDPBP)
    (fuel : Nat) : List Command → PAL2 → Option PAL2
  | [], pal => some pal
  | cmd :: rest, pal =>
      if allowed pal cmd addr then
        match pal.submit cmd addr fuel with
        | some (.ok after) => run allowed addr fuel rest after
        | _ => none
      else
        none

theorem run_reaches {allowed : PAL2 → Command → CPDPBP → Bool}
    {Allowed : PAL2 → Command → CPDPBP → Prop} {addr : CPDPBP} {fuel : Nat}
    {cmds : List Command} {start before pal : PAL2}
    (passes : ∀ pal cmd addr, allowed pal cmd addr = true →
      Allowed pal cmd addr)
    (earlier : Reaches Allowed start before)
    (reached : run allowed addr fuel cmds before = some pal) :
    Reaches Allowed start pal := by
  induction cmds generalizing before with
  | nil =>
      cases reached
      exact earlier
  | cons cmd rest induction =>
      unfold run at reached
      split at reached
      · next allowed =>
          split at reached
          · next after submitted =>
              exact induction
                (earlier.submit (passes _ _ _ allowed) ⟨fuel, submitted⟩)
                reached
          · cases reached
      · cases reached

def defaultLatency : Latency where
  nandType := .mlc
  timing := {
    lsb := ⟨40000000, 500000000⟩
    csb := ⟨0, 0⟩
    msb := ⟨65000000, 1300000000⟩
    dma0 := ⟨16689, 39079188, 11920⟩
    dma1 := ⟨39062500, 2384, 2384⟩
    erase := 3500000000 }

def singleDie : Parameter where
  channel := 1
  package := 1
  die := 1
  plane := 1
  block := 512
  page := 512
  pageSize := 16384
  superBlock := 512
  superPageSize := 16384
  pageInSuperPage := 1

def firstPage : CPDPBP := ⟨0, 0, 0, 0, 0, 0⟩

def fresh : PAL2 where
  param := singleDie
  lat := defaultLatency
  channels := [freshResource [12500, 25000, 187500, 23125000, 23137500]]
  dies := [freshResource
    [25012500, 300012500, 2000012500]]

theorem make_fresh :
    make singleDie defaultLatency 400 16384 = .ok fresh := by
  rfl

theorem timelineSearch_terminates_busy :
    ∃ pal target, Reaches Fits fresh pal ∧
      pal.target ⟨600000000, .read⟩ firstPage = some target ∧
      target.Terminates 600000000 := by
  have found : ((run (fun pal cmd addr => decide (pal.Fits cmd addr))
      firstPage 9 [⟨0, .write⟩, ⟨1000, .erase⟩] fresh).bind fun pal =>
        (pal.flushFreeSlots 500).target ⟨600000000, .read⟩ firstPage).any
      (fun target => decide (target.Fits 600000000)) = true := by
    decide +kernel
  obtain ⟨target, reached, fits⟩ := (Option.any_eq_true _ _).mp found
  obtain ⟨pal, ran, targeted⟩ := Option.bind_eq_some_iff.mp reached
  have reaches := run_reaches (fun _ _ _ => of_decide_eq_true) .start ran
  have reaches := reaches.flushFreeSlots 500
  refine ⟨_, target, reaches, targeted, ?_⟩
  refine timelineSearch_terminates make_fresh reaches ?_ target targeted
  intro other same
  rw [targeted] at same
  exact Option.some.inj same ▸ of_decide_eq_true fits

def lateCommands : List Command :=
  [⟨18446744072429551615, .read⟩, ⟨18446744072559551615, .write⟩,
    ⟨18446744072689551615, .write⟩]

def lastRead : Command := ⟨18446744072949551615, .read⟩

def Cycle (tick : UInt64) : Prop :=
  tick = 18446744072949551615 ∨ tick = 18446744072508647493 ∨
    tick = 18446744073637748137

theorem cycle_all {target : Target}
    (first : target.outer 9 18446744072949551615 =
      some (.again 18446744072508647493))
    (second : target.outer 9 18446744072508647493 =
      some (.again 18446744073637748137))
    (third : target.outer 9 18446744073637748137 =
      some (.again 18446744072508647493))
    (tick : UInt64) (outcome : Round UInt64 Reservation) (here : Cycle tick)
    (comes : Comes (target.outer · tick) outcome) :
    outcome.All Cycle fun _ => False := by
  have settled := target.outer_settled tick
  rcases here with rfl | rfl | rfl
  · rw [settled.unique comes ⟨9, first⟩]
    exact .inr (.inl rfl)
  · rw [settled.unique comes ⟨9, second⟩]
    exact .inr (.inr rfl)
  · rw [settled.unique comes ⟨9, third⟩]
    exact .inr (.inl rfl)

/-- A read for which the search goes to and fro between two ticks. -/
theorem timelineSearch_goes_on :
    ∃ pal target, make singleDie defaultLatency 400 16384 = .ok fresh ∧
      Reaches (fun _ _ _ => True) fresh pal ∧
      pal.target lastRead firstPage = some target ∧
      (∀ fuel, target.search fuel lastRead.arrived = none) ∧
      ¬ pal.Terminates lastRead firstPage := by
  have found : ((run (fun _ _ _ => true) firstPage 9 lateCommands fresh).bind
      fun pal => pal.target lastRead firstPage).any
      (fun target => decide
        (target.outer 9 18446744072949551615 =
            some (.again 18446744072508647493) ∧
          target.outer 9 18446744072508647493 =
            some (.again 18446744073637748137) ∧
          target.outer 9 18446744073637748137 =
            some (.again 18446744072508647493))) = true := by
    decide +kernel
  obtain ⟨target, reached, turns⟩ := (Option.any_eq_true _ _).mp found
  obtain ⟨first, second, third⟩ := of_decide_eq_true turns
  obtain ⟨pal, ran, targeted⟩ := Option.bind_eq_some_iff.mp reached
  have reaches := run_reaches (fun _ _ _ _ => trivial) .start ran
  have endless : ∀ fuel, target.search fuel lastRead.arrived = none :=
    rounds_eq_none (cycle_all first second third) (.inl rfl)
  refine ⟨pal, target, make_fresh, reaches, targeted, endless,
    fun terminates => ?_⟩
  obtain ⟨reservation, fuel, ended⟩ := (terminates target targeted).ends
  exact nomatch (endless fuel).symm.trans ended

end PAL2

end SimpleSSD.PAL
