import SimpleSSD.FTL.State

namespace SimpleSSD.FTL

/-! Allocation of blocks from the free lists, the active slots, and the return
of erased blocks. -/

variable (cfg : Config)

/-- The block that the search of a free list ends on: the first one of the
wanted residue, else the first one. -/
def searchFree (idx : Nat) (blocks : List Block) : Option Block :=
  (blocks.find? fun block => block.idx % cfg.pageCountToMaxPerf = idx).or
    blocks.head?

/-- Common part of `getFreeBlock`, `getHotFreeBlock` and `getColdFreeBlock`:
move a block from a free list into `blocks`. -/
def takeFreeBlock (pool : FreePool) (noneLeft inUse : Panic) (idx : Nat) :
    FTLM Nat := do
  if cfg.pageCountToMaxPerf ≤ idx then
    throw .indexOutOfRange
  let state ← get
  let list := state.free pool
  if list.count = 0 then
    throw noneLeft
  match searchFree cfg idx list.blocks with
  | none => throw .invalidIterator
  | some block =>
      if (state.blocks.lookup block.idx).isSome then
        throw inUse
      set ((state.setBlock block.idx block).setFree pool
        { blocks := list.blocks.eraseP (·.idx = block.idx)
          count := list.count - 1 })
      modify (·.note (.taken block.idx))
      return block.idx

def getFreeBlock (idx : Nat) : FTLM Nat := do
  let blockIndex ← takeFreeBlock cfg .plain .noFreeBlockLeft
    .corruptedFreeList idx
  updateBlock blockIndex fun block => { block with refreshedPageCount := 0 }
  return blockIndex

def getHotFreeBlock (idx : Nat) : FTLM Nat := do
  let blockIndex ← takeFreeBlock cfg .hot .noFreeBlockLeft
    .hotAlreadyInBlockList idx
  modify fun state =>
    { state with hotWindow := state.hotWindow ++ [blockIndex] }
  updateBlock blockIndex fun block => { block with blockType := .hot }
  return blockIndex

/-- The head of a full cool-down window becomes a cold block. -/
def demoteCoolFront : FTLM Unit := do
  let state ← get
  if cfg.nCooldownBlocks ≤ state.coolDownWindow.length then
    match state.coolDownWindow with
    | [] => throw .invalidIterator
    | front :: rest =>
        let block ← findBlock front .coolBlockLost
        set { state.setBlock front { block with blockType := .cold } with
          coolDownWindow := rest }

def getColdFreeBlock (idx : Nat) (queueInsert : Bool) : FTLM Nat := do
  let blockIndex ← takeFreeBlock cfg .cold .noFreeColdBlockLeft
    .coldAlreadyInBlockList idx
  if queueInsert then
    demoteCoolFront cfg
    modify fun state =>
      { state with coolDownWindow := state.coolDownWindow ++ [blockIndex] }
    updateBlock blockIndex fun block => { block with blockType := .cool }
  else
    updateBlock blockIndex fun block => { block with blockType := .cold }
  return blockIndex

def getBlockFor (pool : ActivePool) (idx : Nat) : FTLM Nat :=
  match pool with
  | .plain => getFreeBlock cfg idx
  | .hot => getHotFreeBlock cfg idx
  | .cool => getColdFreeBlock cfg idx true
  | .cold => getColdFreeBlock cfg idx false

def ActivePool.corrupted : ActivePool → Panic
  | .plain => .corruptedFreeBlock
  | .hot => .corruptedHotFreeBlock
  | .cool => .corruptedCoolFreeBlock
  | .cold => .corruptedColdFreeBlock

def ActiveSlots.advance (iomap : IOFlag) (slots : ActiveSlots) : ActiveSlots :=
  if !cfg.bRandomTweak || (slots.ioMap.inter iomap).any cfg.ioUnitInPage then
    { slots with
      index := if slots.index + 1 = cfg.pageCountToMaxPerf then 0
        else slots.index + 1
      ioMap := iomap }
  else
    { slots with ioMap := slots.ioMap.union iomap }

def advanceSlot (pool : ActivePool) (iomap : IOFlag) : FTLM Unit :=
  modify fun state =>
    state.setActive pool ((state.active pool).advance cfg iomap)

def slotAt (pool : ActivePool) : FTLM Nat := do
  let state ← get
  match (state.active pool).blocks[(state.active pool).index]? with
  | none => throw .outOfRange
  | some blockIndex => return blockIndex

def seatSlot (pool : ActivePool) (idx : Nat) : FTLM Unit := do
  let blockIndex ← getBlockFor cfg pool idx
  modify fun state => state.setActive pool
    { state.active pool with
      blocks := (state.active pool).blocks.set idx blockIndex }

def refillSlot (pool : ActivePool) : FTLM Unit := do
  let state ← get
  seatSlot cfg pool (state.active pool).index
  modify fun state => { state with bReclaimMore := true }

/-- Common body of the four `getLast…FreeBlock` functions. -/
def getLastBlock (pool : ActivePool) (iomap : IOFlag) : FTLM Nat := do
  advanceSlot cfg pool iomap
  let blockIndex ← slotAt pool
  let block ← findBlock blockIndex pool.corrupted
  if block.getNextWritePageIndex = cfg.pagesInBlock then
    refillSlot cfg pool
  slotAt pool

def getLastFreeBlock : IOFlag → FTLM Nat := getLastBlock cfg .plain

def getLastHotFreeBlock : IOFlag → FTLM Nat := getLastBlock cfg .hot

def getLastCoolFreeBlock : IOFlag → FTLM Nat := getLastBlock cfg .cool

def getLastColdFreeBlock : IOFlag → FTLM Nat := getLastBlock cfg .cold

/-- Where the reverse search of an erase stops: before the returned block, or at
the end of the list. -/
def freePosition (erasedCount : Nat) (blocks : List Block) : Option Nat :=
  ((blocks.reverse.takeWhile fun block =>
    erasedCount < block.eraseCount).getLast?).map (·.idx)

/-- `std::list::emplace` at a position. -/
def emplaceBefore (position : Option Nat) (block : Block)
    (blocks : List Block) : Except Panic (List Block) :=
  match position with
  | none => .ok (blocks ++ [block])
  | some anchor =>
      if blocks.any (·.idx = anchor) then
        .ok (blocks.takeWhile (·.idx ≠ anchor) ++
          block :: blocks.dropWhile (·.idx ≠ anchor))
      else
        .error .danglingPosition

def searchPosition (pool : FreePool) (erasedCount : Nat) :
    FTLM (Option Nat) := do
  let state ← get
  if (state.free pool).blocks.isEmpty then
    throw .emptyFreeList
  return freePosition erasedCount (state.free pool).blocks

/-- Move a block in use to its position in a free list; it stays in `blocks`
until the caller erases it there. -/
def emplaceFree (pool : FreePool) (position : Option Nat) (blockIndex : Nat) :
    FTLM Unit := do
  let block ← blockAt blockIndex
  let state ← get
  let list := state.free pool
  let blocks ← liftExcept (emplaceBefore position block list.blocks)
  set (state.setFree pool { blocks := blocks, count := list.count + 1 })

/-- `blocks.erase(block)`, with the history of retired blocks and lost slots. -/
def dropBlock (pools : List ActivePool) (retires : Bool) (blockIndex : Nat) :
    FTLM Unit :=
  modify fun state =>
    { state with
      blocks := state.blocks.erase blockIndex
      retired := if retires then blockIndex :: state.retired
        else state.retired
      slotsLost :=
        if pools.any fun pool => (state.active pool).blocks.contains blockIndex
        then blockIndex :: state.slotsLost
        else state.slotsLost }

def eraseInternal (blockIndex : Nat) : FTLM Unit := do
  let block ← findBlock blockIndex .noSuchBlock
  if block.getValidPageCount ≠ 0 then
    throw .validPagesInVictim
  updateBlock blockIndex Block.erase
  let erasedCount := block.erase.eraseCount
  if erasedCount < cfg.badBlockThreshold then
    let position ← searchPosition .plain erasedCount
    emplaceFree .plain position blockIndex
  dropBlock [.plain] (cfg.badBlockThreshold ≤ erasedCount) blockIndex

/-- The slot repair of `sepEraseInternal`: the first slot of the array that
names the block gets a new block. -/
def repairSlot (pool : ActivePool) (blockIndex : Nat) : FTLM Unit := do
  let state ← get
  if (state.active pool).blocks.contains blockIndex then
    let index := (state.active pool).blocks.idxOf blockIndex
    let replacement ← getColdFreeBlock cfg index true
    modify fun state =>
      { state.setActive pool
          { state.active pool with
            blocks := (state.active pool).blocks.set index replacement } with
        bReclaimMore := true }

def sepEraseInternal (blockIndex : Nat) : FTLM Unit := do
  let block ← blockAt blockIndex
  if block.getValidPageCount ≠ 0 then
    throw .validPagesInVictim
  updateBlock blockIndex Block.erase
  let erasedCount := block.erase.eraseCount
  if erasedCount < cfg.badBlockThreshold then
    match block.blockType with
    | .hot =>
        let position ← searchPosition .hot erasedCount
        emplaceFree .hot position blockIndex
    | .cool =>
        let position ← searchPosition .cold erasedCount
        repairSlot cfg .cool blockIndex
        emplaceFree .cold position blockIndex
    | .cold =>
        let position ← searchPosition .cold erasedCount
        repairSlot cfg .cold blockIndex
        emplaceFree .cold position blockIndex
  dropBlock [.hot, .cool, .cold] (cfg.badBlockThreshold ≤ erasedCount)
    blockIndex

end SimpleSSD.FTL
