import SimpleSSD.Data.Rounds
import SimpleSSD.PAL.Address
import SimpleSSD.PAL.FreeSlots
import SimpleSSD.PAL.Latency
import SimpleSSD.PAL.MergedTimeSlots

namespace SimpleSSD.PAL

open Data

structure Command where
  arrived : UInt64
  operation : Operation
  deriving DecidableEq, Repr

/-- The latencies of a command; `anti` is `latANTI`, the anticipated time
slot. -/
structure Latencies where
  dma0 : UInt64
  mem : UInt64
  dma1 : UInt64
  anti : UInt64
  deriving DecidableEq, Repr

def Latency.latencies (lat : Latency) (req : Command) (reqCPD : CPDPBP) :
    Latencies where
  dma0 := lat.getLatency reqCPD.page req.operation .dma0
  mem := lat.getLatency reqCPD.page req.operation .mem
  dma1 := lat.getLatency reqCPD.page req.operation .dma1
  anti := lat.getLatency reqCPD.page .read .dma0

structure Candidate where
  dma0TickFrom : UInt64
  tickDMA0 : UInt64
  tickMEM : UInt64
  deriving DecidableEq, Repr

structure Reservation where
  candidate : Candidate
  dma1TickFrom : UInt64
  totalLat : UInt64
  deriving DecidableEq, Repr

/-- The channel and the die that a command goes to, with its latencies. -/
structure Target where
  channel : Resource
  die : Resource
  lat : Latencies

namespace Target

def loop1 (target : Target) (dma0TickFrom : UInt64) :
    Round UInt64 Candidate :=
  -- "1a) LOOP1 - Find DMA0 available slot in ChTimeSlots"
  let dma0 := target.channel.findPlace target.lat.dma0 dma0TickFrom
  -- "2b) LOOP1 - Find MEM avaiable slot in DieTimeSlots"
  let mem := target.die.findPlace (target.lat.dma0 + target.lat.mem)
    dma0.tickFrom
  if mem.tick = dma0.tick then
    .leave ⟨dma0.tickFrom, dma0.tick, mem.tick⟩
  else
    let vrfy := target.channel.findPlace target.lat.dma0 mem.tickFrom
    if vrfy.tick = dma0.tick then
      .leave ⟨mem.tickFrom, dma0.tick, mem.tick⟩
    else
      .again mem.tickFrom

def loop0 (target : Target) (candidate : Candidate) :
    Round UInt64 Reservation :=
  -- "3) Find DMA1 available slot"
  let dma1 := target.channel.findPlace (target.lat.dma1 + target.lat.anti)
    (candidate.dma0TickFrom + (target.lat.dma0 + target.lat.mem))
  -- "4) Re-verify MEM slot"
  let totalLat := dma1.tickFrom + target.lat.dma1 + target.lat.anti -
    candidate.dma0TickFrom
  let vrfy := target.die.findPlace totalLat candidate.dma0TickFrom
  if vrfy.tick = candidate.tickMEM then
    .leave ⟨candidate, dma1.tickFrom, totalLat⟩
  else
    .again vrfy.tick

def inner (target : Target) (_ : Nat) (dma0TickFrom : UInt64) :
    Option (Round UInt64 Candidate) :=
  some (target.loop1 dma0TickFrom)

def outer (target : Target) (fuel : Nat) (dma0TickFrom : UInt64) :
    Option (Round UInt64 Reservation) :=
  (rounds target.inner fuel dma0TickFrom).map target.loop0

def search (target : Target) (fuel : Nat) (arrived : UInt64) :
    Option Reservation :=
  rounds target.outer fuel arrived

end Target

/-- The time slots of a command, and what is left of its channel and die. -/
structure Scheduled where
  channel : Resource
  die : Resource
  tsDMA0 : TimeSlot
  tsMEM : TimeSlot
  tsDMA1 : TimeSlot

/-- Behind the first transfer a slot for two more is set apart, as free time, if
there is one. -/
def Resource.anticipate (channel : Resource) (latANTI tmpTick : UInt64) :
    Except Fault Resource :=
  let dma0 := channel.findPlace (latANTI * 2) tmpTick
  if dma0.tickFrom = tmpTick then
    channel.insertFreeSlot (latANTI * 2) dma0.tickFrom dma0.tick true
  else
    .ok channel

namespace Target

def assign (target : Target) (reservation : Reservation) :
    Except Fault Scheduled := do
  let lat := target.lat
  let dma0TickFrom := reservation.candidate.dma0TickFrom
  let tickDMA0 := reservation.candidate.tickDMA0
  let tickMEM := reservation.candidate.tickMEM
  let totalLat := reservation.totalLat
  let channel ←
    target.channel.insertFreeSlot lat.dma0 dma0TickFrom tickDMA0 false
  let dma1 := channel.findPlace (lat.dma1 + lat.anti) reservation.dma1TickFrom
  let channel ←
    channel.insertFreeSlot lat.dma1
      ((if dma1.tickFrom > dma1.tick then dma1.tickFrom else dma1.tick) +
        lat.anti)
      dma1.tick false
  let die ← target.die.insertFreeSlot totalLat dma0TickFrom tickMEM false
  let channel ← channel.anticipate lat.anti
    ((if dma0TickFrom > tickDMA0 then dma0TickFrom else tickDMA0) + lat.dma0)
  return {
    channel
    die
    tsDMA0 := .make
      (if dma0TickFrom < tickDMA0 then tickDMA0 else dma0TickFrom) lat.dma0
    tsMEM := .make
      (if dma0TickFrom < tickMEM then tickMEM else dma0TickFrom) totalLat
    tsDMA1 := .make
      ((if dma1.tickFrom < dma1.tick then dma1.tick else dma1.tickFrom) +
        lat.anti)
      lat.dma1 }

/-- Searched and assigned, if the search takes fewer rounds than `fuel`. -/
def schedule (target : Target) (fuel : Nat) (arrived : UInt64) :
    Option (Except Fault Scheduled) :=
  (target.search fuel arrived).map target.assign

end Target

def cpdpbpToDieIdx (param : Parameter) (addr : CPDPBP) : UInt32 :=
  UInt32.ofNat addr.die + UInt32.ofNat addr.package * param.die +
    UInt32.ofNat addr.channel * param.die * param.package

structure PAL2 where
  param : Parameter
  lat : Latency
  channels : List Resource
  dies : List Resource

namespace PAL2

def channelKeys (spdiv pgdiv : UInt32) : List UInt32 :=
  [100000 / spdiv,
    100000 / spdiv + 100000 / spdiv,
    185000000 / (pgdiv * spdiv),
    185000000 / (pgdiv * spdiv) + 100000 / spdiv,
    1500000 / spdiv]

def dieKeys (spdiv : UInt32) (nandType : NANDType) : List UInt64 :=
  let bases : List UInt64 :=
    match nandType with
    | .slc => [25000000, 300000000, 2000000000]
    | .mlc => [40000000, 90000000, 500000000, 1300000000, 3500000000]
    | .tlc => [58000000, 78000000, 107000000, 558000000, 2201000000,
        5001000000, 2274000000]
  bases.map (· + (100000 / spdiv).toUInt64)

/-- `readUint` has no case for `NAND_FLASH_TYPE`: it answers 0, which is
`NAND_SLC`. -/
def flashType : NANDType := .slc

/-- A channel or a die without reserved time, with an empty map for each
key. -/
def freshResource (keys : List UInt64) : Resource where
  freeSlots := keys.foldl (fun freeSlots key => freeSlots.insert key .empty)
    .empty
  startPoint := 0

def make (param : Parameter) (lat : Latency) (dmaSpeed pageSize : UInt64) :
    Except Fault PAL2 :=
  if pageSize = 0 then
    .error .division
  else
    let spdiv := (dmaSpeed / 50).toUInt32
    let pgdiv := (16384 / pageSize).toUInt32
    if spdiv = 0 ∨ pgdiv = 0 then
      .error .divider
    else if pgdiv * spdiv = 0 then
      .error .division
    else
      .ok {
        param
        lat
        channels := List.replicate param.channel.toNat
          (freshResource ((channelKeys spdiv pgdiv).map (·.toUInt64)))
        dies := List.replicate
          (param.channel * param.package * param.die).toNat
          (freshResource (dieKeys spdiv flashType)) }

/-- What `TimelineScheduling` reads for a command. -/
def target (pal : PAL2) (req : Command) (reqCPD : CPDPBP) : Option Target :=
  match pal.channels[reqCPD.channel]?,
    pal.dies[(cpdpbpToDieIdx pal.param reqCPD).toNat]? with
  | some channel, some die => some ⟨channel, die, pal.lat.latencies req reqCPD⟩
  | _, _ => none

def update (pal : PAL2) (reqCPD : CPDPBP) (scheduled : Scheduled) : PAL2 :=
  { pal with
    channels := pal.channels.set reqCPD.channel scheduled.channel
    dies := pal.dies.set (cpdpbpToDieIdx pal.param reqCPD).toNat
      scheduled.die }

def submit (pal : PAL2) (cmd : Command) (addr : CPDPBP) (fuel : Nat) :
    Option (Except Fault PAL2) :=
  match pal.target cmd addr with
  | none => some (.error .address)
  | some target =>
      (target.schedule fuel cmd.arrived).map (·.map (pal.update addr))

def flushFreeSlots (pal : PAL2) (currentTick : UInt64) : PAL2 :=
  let flush (resource : Resource) : Resource :=
    { resource with
      freeSlots := resource.freeSlots.flushAFreeSlot currentTick }
  { pal with channels := pal.channels.map flush, dies := pal.dies.map flush }

end PAL2

end SimpleSSD.PAL
