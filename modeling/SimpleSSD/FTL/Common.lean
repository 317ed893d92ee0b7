import SimpleSSD.FTL.Block
import SimpleSSD.Util.Bitset

namespace SimpleSSD.FTL.Common

open Data Util

/-- `Block` as it is stored. With one unit in a page its bits are two bitmaps
over the pages, with more there are two vectors of one bitmap per page. -/
structure Block where
  idx : Nat
  pageCount : UInt32
  ioUnitInPage : UInt32
  pNextWritePageIndex : Option (List Nat)
  pValidBits : Option Bitset
  pErasedBits : Option Bitset
  pLPNs : Option (List Nat)
  validBits : List Bitset
  erasedBits : List Bitset
  ppLPNs : Option (List (List Nat))
  lastAccessed : Nat
  eraseCount : Nat
  lastWritten : Nat
  maxErrorCount : Nat
  refreshedPageCount : Nat
  blockType : BlockPoolType

namespace Block

def deref (pointer : Option α) : Except Fault α :=
  match pointer with
  | some value => .ok value
  | none => .error .outOfBounds

def entry (array : List α) (position : Nat) : Except Fault α :=
  match array[position]? with
  | some value => .ok value
  | none => .error .outOfBounds

def store (array : List α) (position : Nat) (value : α) :
    Except Fault (List α) :=
  if position < array.length then
    .ok (array.set position value)
  else
    .error .outOfBounds

/-- `std::vector::at`. -/
def row (vector : List α) (position : Nat) : Except Fault α :=
  match vector[position]? with
  | some value => .ok value
  | none => .error .outOfRange

def erase (block : Block) : Except Fault Block := do
  let block ← if block.ioUnitInPage = 1 then do
      let valid ← deref block.pValidBits
      let erased ← (← deref block.pErasedBits).set
      pure { block with
        pValidBits := some valid.reset, pErasedBits := some erased }
    else do
      let erased ← block.erasedBits.mapM Bitset.set
      pure { block with
        validBits := block.validBits.map Bitset.reset, erasedBits := erased }
  let next ← deref block.pNextWritePageIndex
  return { block with
    pNextWritePageIndex := some (next.map fun _ => 0)
    eraseCount := block.eraseCount + 1 }

def allocate (idx : Nat) (count ioUnit : UInt32) (blockType : BlockPoolType) :
    Except Fault Block :=
  let block : Block :=
    { idx := idx
      pageCount := count
      ioUnitInPage := ioUnit
      pNextWritePageIndex := some (List.replicate ioUnit.toNat 0)
      pValidBits := none
      pErasedBits := none
      pLPNs := none
      validBits := []
      erasedBits := []
      ppLPNs := none
      lastAccessed := 0
      eraseCount := 0
      lastWritten := 0
      maxErrorCount := 0
      refreshedPageCount := 0
      blockType := blockType }
  if ioUnit = 1 then
    .ok { block with
      pValidBits := some (Bitset.make count)
      pErasedBits := some (Bitset.make count)
      pLPNs := some (List.replicate count.toNat 0) }
  else if 1 < ioUnit then
    .ok { block with
      validBits := List.replicate count.toNat (Bitset.make ioUnit)
      erasedBits := List.replicate count.toNat (Bitset.make ioUnit)
      ppLPNs := some
        (List.replicate count.toNat (List.replicate ioUnit.toNat 0)) }
  else
    .error (.panic "Invalid I/O unit in page")

def make (blockIdx : Nat) (count ioUnit : UInt32) (initPE : Nat)
    (blockType : BlockPoolType) : Except Fault Block := do
  let block ← allocate blockIdx count ioUnit blockType
  let block ← block.erase
  return { block with eraseCount := initPE }

def copy (old : Block) : Except Fault Block := do
  let block ← make old.idx old.pageCount old.ioUnitInPage 0 .cold
  let block ← if block.ioUnitInPage = 1 then do
      let valid ← deref old.pValidBits
      let erased ← deref old.pErasedBits
      let lpns ← deref old.pLPNs
      pure { block with
        pValidBits := some valid
        pErasedBits := some erased
        pLPNs := some (lpns.take block.pageCount.toNat) }
    else do
      let lpns ← deref old.ppLPNs
      pure { block with
        validBits := old.validBits
        erasedBits := old.erasedBits
        ppLPNs := some ((lpns.take block.pageCount.toNat).map
          (List.take block.ioUnitInPage.toNat)) }
  let next ← deref old.pNextWritePageIndex
  return { block with
    pNextWritePageIndex := some (next.take block.ioUnitInPage.toNat)
    eraseCount := old.eraseCount
    lastWritten := old.lastWritten
    maxErrorCount := old.maxErrorCount
    refreshedPageCount := old.refreshedPageCount
    blockType := old.blockType }

/-- The move constructor: the new block, and what is left of the old one. -/
def move (old : Block) : Block × Block :=
  ({ idx := old.idx
     pageCount := old.pageCount
     ioUnitInPage := old.ioUnitInPage
     pNextWritePageIndex := old.pNextWritePageIndex
     pValidBits := old.pValidBits
     pErasedBits := old.pErasedBits
     pLPNs := old.pLPNs
     validBits := old.validBits
     erasedBits := old.erasedBits
     ppLPNs := old.ppLPNs
     lastAccessed := old.lastAccessed
     eraseCount := old.eraseCount
     lastWritten := old.lastWritten
     maxErrorCount := old.maxErrorCount
     refreshedPageCount := old.refreshedPageCount
     blockType := old.blockType },
   { idx := 0
     pageCount := 0
     ioUnitInPage := 0
     pNextWritePageIndex := none
     pValidBits := none
     pErasedBits := none
     pLPNs := none
     validBits := []
     erasedBits := []
     ppLPNs := none
     lastAccessed := 0
     eraseCount := 0
     lastWritten := 0
     maxErrorCount := 0
     refreshedPageCount := 0
     blockType := .cold })

def getValidPageCount (block : Block) : Except Fault UInt32 :=
  if block.ioUnitInPage = 1 then do
    return (← deref block.pValidBits).count
  else
    return block.validBits.foldl
      (fun ret bits => if bits.any then ret + 1 else ret) 0

def getValidPageCountRaw (block : Block) : Except Fault UInt32 :=
  if block.ioUnitInPage = 1 then do
    return (← deref block.pValidBits).count
  else
    return block.validBits.foldl (fun ret bits => ret + bits.count) 0

/-- `operator|` hands out its by-value parameter, which lives on to the end of
the expression that the complement is taken in. -/
def dirtyBits (valid erased : Bitset) : Except Fault Bitset := do
  (← valid.or erased).complement

def getDirtyPageCount (block : Block) : Except Fault UInt32 :=
  if block.ioUnitInPage = 1 then do
    let valid ← deref block.pValidBits
    let erased ← deref block.pErasedBits
    return (← dirtyBits valid erased).count
  else
    (List.range block.pageCount.toNat).foldlM (fun ret page => do
      let valid ← row block.validBits page
      let erased ← row block.erasedBits page
      return if (← dirtyBits valid erased).any then ret + 1 else ret) 0

def getNextWritePageIndex (block : Block) : Except Fault Nat := do
  let next ← deref block.pNextWritePageIndex
  (List.range block.ioUnitInPage.toNat).foldlM (fun idx i => do
    let index ← entry next i
    return if idx < index then index else idx) 0

def getNextWritePageIndexAt (block : Block) (idx : Nat) : Except Fault Nat := do
  entry (← deref block.pNextWritePageIndex) idx

def testUnit (block : Block) (single : Option Bitset) (several : List Bitset)
    (pageIndex idx : Nat) : Except Fault Bool :=
  if block.ioUnitInPage = 1 ∧ idx = 0 then do
    (← deref single).test pageIndex
  else if idx < block.ioUnitInPage.toNat then do
    (← row several pageIndex).test idx
  else
    .error (.panic "I/O map size mismatch")

/-- The bit that `read` looks at. -/
def testValid (block : Block) : Nat → Nat → Except Fault Bool :=
  block.testUnit block.pValidBits block.validBits

/-- The bit that `write` looks at. -/
def testErased (block : Block) : Nat → Nat → Except Fault Bool :=
  block.testUnit block.pErasedBits block.erasedBits

def read (block : Block) (pageIndex idx tick : Nat) :
    Except Fault (Block × Bool) := do
  let read ← block.testValid pageIndex idx
  return (if read then { block with lastAccessed := tick } else block, read)

/-- The bits and the LPN of a unit that `write` programs. -/
def program (block : Block) (pageIndex lpn idx : Nat) : Except Fault Block :=
  if block.ioUnitInPage = 1 then do
    let erased ← (← deref block.pErasedBits).resetAt pageIndex
    let valid ← (← deref block.pValidBits).setAt pageIndex true
    let lpns ← store (← deref block.pLPNs) pageIndex lpn
    return { block with
      pErasedBits := some erased
      pValidBits := some valid
      pLPNs := some lpns }
  else do
    let erased ← (← row block.erasedBits pageIndex).resetAt idx
    let valid ← (← row block.validBits pageIndex).setAt idx true
    let rows ← deref block.ppLPNs
    let lpns ← store (← entry rows pageIndex) idx lpn
    return { block with
      erasedBits := block.erasedBits.set pageIndex erased
      validBits := block.validBits.set pageIndex valid
      ppLPNs := some (rows.set pageIndex lpns) }

def write (block : Block) (pageIndex lpn idx tick : Nat) :
    Except Fault Block := do
  let write ← block.testErased pageIndex idx
  if write then
    let next ← deref block.pNextWritePageIndex
    if pageIndex < (← entry next idx) then
      throw (.panic "Write to block should sequential")
    let block ← { block with lastAccessed := tick }.program pageIndex lpn idx
    return { block with
      pNextWritePageIndex := some (next.set idx (pageIndex + 1)) }
  else
    throw (.panic "Write to non erased page")

def invalidate (block : Block) (pageIndex idx : Nat) : Except Fault Block :=
  if block.ioUnitInPage = 1 then do
    let valid ← (← deref block.pValidBits).resetAt pageIndex
    return { block with pValidBits := some valid }
  else do
    let valid ← (← row block.validBits pageIndex).resetAt idx
    return { block with validBits := block.validBits.set pageIndex valid }

/-- The LPNs and the valid bits of a page, into the caller's bitmap. -/
def getPageInfo (block : Block) (pageIndex : Nat) (map : Bitset) :
    Except Fault (List Nat × Bitset × Bool) := do
  let (lpn, map) ←
    if block.ioUnitInPage = 1 ∧ map.dataSize = 1 then do
      let valid ← (← deref block.pValidBits).test pageIndex
      let map ← if valid then map.reset.set else pure map.reset
      let lpn ← entry (← deref block.pLPNs) pageIndex
      pure ([lpn], map)
    else if map.dataSize = block.ioUnitInPage then do
      let map ← row block.validBits pageIndex
      let lpns ← entry (← deref block.ppLPNs) pageIndex
      pure (lpns, map)
    else
      throw (.panic "I/O map size mismatch")
  return (lpn, map, map.any)

end Block

end SimpleSSD.FTL.Common
