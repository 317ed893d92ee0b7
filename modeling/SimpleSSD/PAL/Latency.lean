import SimpleSSD.PAL.OpBusyTime

namespace SimpleSSD.PAL

/-! The classes `LatencySLC`, `LatencyMLC` and `LatencyTLC`. -/

inductive NANDType where
  | slc
  | mlc
  | tlc
  deriving DecidableEq, Repr

structure PAGETiming where
  read : UInt64
  write : UInt64
  deriving DecidableEq, Repr

structure DMATiming where
  read : UInt64
  write : UInt64
  erase : UInt64
  deriving DecidableEq, Repr

structure NANDTiming where
  lsb : PAGETiming
  csb : PAGETiming
  msb : PAGETiming
  dma0 : DMATiming
  dma1 : DMATiming
  erase : UInt64
  deriving DecidableEq, Repr

inductive Busy where
  | dma0
  | mem
  | dma1
  deriving DecidableEq, Repr

structure Latency where
  nandType : NANDType
  timing : NANDTiming
  deriving DecidableEq, Repr

def PAGETiming.get (timing : PAGETiming) : Operation → UInt64
  | .read => timing.read
  | _ => timing.write

def DMATiming.get (timing : DMATiming) : Operation → UInt64
  | .read => timing.read
  | .write => timing.write
  | .erase => timing.erase

namespace Latency

/-- The codes of `PAGE_LSB`, `PAGE_CSB` and `PAGE_MSB` are 0, 1 and 2. -/
def getPageType (lat : Latency) (addrPage : Nat) : Nat :=
  match lat.nandType with
  | .slc => 0
  | .mlc => addrPage % 2
  | .tlc =>
      if addrPage ≤ 5 then
        0
      else if addrPage ≤ 7 then
        1
      else
        (addrPage - 8) / 2 % 3

/-- The timing of a page: of the two sorts that a multi-level cell has, the one
with code 1 is its most significant. -/
def pageTiming (lat : Latency) (addrPage : Nat) : PAGETiming :=
  match lat.nandType, lat.getPageType addrPage with
  | _, 0 => lat.timing.lsb
  | .tlc, 1 => lat.timing.csb
  | _, _ => lat.timing.msb

def getLatency (lat : Latency) (addrPage : Nat) (oper : Operation) :
    Busy → UInt64
  | .dma0 => lat.timing.dma0.get oper
  | .dma1 => lat.timing.dma1.get oper
  | .mem =>
      if oper = .erase then
        lat.timing.erase
      else
        (lat.pageTiming addrPage).get oper

end Latency

end SimpleSSD.PAL
