import SimpleSSD.PAL.Config

namespace SimpleSSD.PAL

structure CPDPBP where
  channel : Nat
  package : Nat
  die : Nat
  plane : Nat
  block : Nat
  page : Nat
  deriving DecidableEq, Repr

namespace CPDPBP

def get (addr : CPDPBP) : Index → Nat
  | .channel => addr.channel
  | .package => addr.package
  | .die => addr.die
  | .plane => addr.plane

def set (addr : CPDPBP) (index : Index) (value : Nat) : CPDPBP :=
  match index with
  | .channel => { addr with channel := value }
  | .package => { addr with package := value }
  | .die => { addr with die := value }
  | .plane => { addr with plane := value }

end CPDPBP

/-- `Bitset::test`: the last byte of the memory has unused bits, all clear. -/
def test (flag : List Bool) (idx : Nat) : Except Panic Bool :=
  if idx / 8 < (flag.length + 7) / 8 then
    pure (flag[idx]?.getD false)
  else
    throw .outOfFlag

structure Request where
  blockIndex : UInt32
  pageIndex : UInt32
  ioFlag : List Bool
  deriving DecidableEq, Repr

/-- The variables of the first loop of `convertCPDPBP`; `slots` are the
indices that `ptr` and `value` are for. -/
structure Decoding where
  addr : CPDPBP
  tmp : Nat
  slots : List Index

namespace Decoding

/-- A dimension of the super block is left to the loops, another one is taken
from the block index. -/
def take (conf : Config) (param : Parameter) (decoding : Decoding)
    (index : Index) : Decoding :=
  if conf.inSuperblock index then
    { decoding with slots := decoding.slots ++ [index] }
  else
    { decoding with
      addr := decoding.addr.set index
        (decoding.tmp % (param.size index).toNat)
      tmp := decoding.tmp / (param.size index).toNat }

/-- The `switch`: with multi-plane operation the plane stays 0. -/
def visit (conf : Config) (param : Parameter) (decoding : Decoding)
    (index : Index) : Decoding :=
  if index = .plane ∧ conf.useMultiPlaneOperation then
    decoding
  else
    decoding.take conf param index

/-- The members that are not assigned before they are read are 0. -/
def start (req : Request) : Decoding where
  addr := ⟨0, 0, 0, 0, 0, 0⟩
  tmp := req.blockIndex.toNat
  slots := []

end Decoding

structure Listing where
  tmp : Nat
  list : List CPDPBP

/-- The body of the innermost loop: `tmp` has 64 bits and `test` takes 32. -/
def Listing.unit (flag : List Bool) (listing : Listing) (addr : CPDPBP) :
    Except Panic Listing := do
  let set ← test flag (listing.tmp % 2 ^ 32)
  pure
    { tmp := (listing.tmp + 1) % 2 ^ 64
      list := if set then listing.list ++ [addr] else listing.list }

/-- The nested loops, one for each slot; the last slot has the outermost. -/
def loops (param : Parameter) (flag : List Bool) :
    List Index → CPDPBP → Listing → Except Panic Listing
  | [], addr, listing => listing.unit flag addr
  | slot :: slots, addr, listing =>
      (List.range (param.size slot).toNat).foldlM
        (fun listing value =>
          loops param flag slots (addr.set slot value) listing)
        listing

/-- The flag that `convertCPDPBP` works with. -/
def checkedFlag (randomTweak : Bool) (pageInSuperPage : Nat)
    (flag : List Bool) : Except Panic (List Bool) :=
  if flag.length ≠ pageInSuperPage then
    if randomTweak then
      throw .invalidFlag
    else
      pure (List.replicate pageInSuperPage true)
  else
    pure flag

def convertCPDPBP (conf : Config) (randomTweak : Bool) (req : Request) :
    Except Panic (List CPDPBP) := do
  let param := Parameter.make conf
  let flag ← checkedFlag randomTweak param.pageInSuperPage.toNat req.ioFlag
  let decoding := (indices conf.getPageAllocationConfig).foldl
    (Decoding.visit conf param) (.start req)
  let addr :=
    { decoding.addr with
      block := decoding.tmp
      page := req.pageIndex.toNat }
  let listing ← loops param flag decoding.slots.reverse addr ⟨0, []⟩
  if listing.tmp ≠ param.pageInSuperPage.toNat then
    throw .flagMismatch
  else
    pure listing.list

end SimpleSSD.PAL
