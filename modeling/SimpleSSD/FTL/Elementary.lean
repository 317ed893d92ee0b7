import SimpleSSD.Data.Machine
import SimpleSSD.FTL.PageMapping
import Mathlib.Data.Set.Insert

namespace SimpleSSD.FTL

/-! The elementary steps into which every operation of the FTL decomposes.  A
step is the smallest change of the members that leaves the FTL explainable; what
has to be remembered between two steps is the phase. -/

/-- How far a block has come on its way from a free list into a slot. -/
inductive Stage where
  | taken
  /-- The cool-down window has room for it. -/
  | roomy
  /-- It has entered the window of a type. -/
  | queued (blockType : BlockPoolType)
  | ready
  deriving DecidableEq

structure Phase where
  /-- Logical units that name a physical page, `(lpn, idx)`. -/
  mapped : Set (Nat × Nat)
  /-- Logical units whose entry is about to be renewed or removed. -/
  pending : Set (Nat × Nat)
  /-- A block taken from a free list and not yet seated. -/
  fresh : Option (Nat × Stage)
  /-- The block that receives pages. -/
  target : Option Nat
  /-- Blocks that a collection has still to erase. -/
  victims : List Nat
  /-- The block that leaves `blocks` next. -/
  erasing : Option Nat
  /-- Whether a slot was taken from the block that leaves `blocks`. -/
  repaired : Bool
  /-- Victims whose pages have all been visited. -/
  clean : Set Nat
  /-- A layer taken off the schedule and its pages not yet visited. -/
  drain : Option (Nat × List Nat)

def Phase.rest (mapped : Set (Nat × Nat)) : Phase where
  mapped := mapped
  pending := ∅
  fresh := none
  target := none
  victims := []
  erasing := none
  repaired := false
  clean := ∅
  drain := none

/-- No block is on its way into or out of `blocks`, and none receives pages. -/
structure Phase.Settled (phase : Phase) : Prop where
  fresh : phase.fresh = none
  target : phase.target = none
  erasing : phase.erasing = none
  repaired : phase.repaired = false
  clean : phase.clean = ∅

theorem Phase.rest_settled (mapped : Set (Nat × Nat)) :
    (Phase.rest mapped).Settled :=
  ⟨rfl, rfl, rfl, rfl, rfl⟩

structure Allowance where
  /-- Selection and erasure of victims, and the refusal of a configured
  policy. -/
  policy : Prop
  /-- The tables of the refresh schedule are built. -/
  setup : Prop
  /-- Filling through `lastFreeBlock` although separation is on. -/
  plainFill : Prop
  /-- Filling of the hot pool. -/
  hotFill : Prop
  /-- Collection of blocks that the FTL did not choose itself. -/
  foreign : Prop
  /-- The schedule is worked off by a refresh event. -/
  refreshing : Prop
  /-- Erasure of victims without a selection. -/
  wiping : Prop := False

structure Quiet (cfg : Config) (state updated : State) : Prop where
  table_eq : updated.table = state.table
  blocks_eq : updated.blocks = state.blocks
  free_eq : updated.free = state.free
  hotWindow_eq : updated.hotWindow = state.hotWindow
  coolDownWindow_eq : updated.coolDownWindow = state.coolDownWindow
  refresh_eq : updated.refresh = state.refresh
  retired_eq : updated.retired = state.retired
  slotsLost_eq : updated.slotsLost = state.slotsLost
  programmed_eq : updated.programmed = state.programmed
  double_eq : updated.stat.doubleInsertionCount =
    state.stat.doubleInsertionCount
  calls_eq : updated.stat.refreshCallCount = state.stat.refreshCallCount
  slots_eq : ∀ pool, (updated.active pool).blocks = (state.active pool).blocks
  index_lt : ∀ pool, (state.active pool).index < cfg.pageCountToMaxPerf →
    (updated.active pool).index < cfg.pageCountToMaxPerf

def Region (cfg : Config) : BlockPoolType → Nat → Prop
  | .hot, blockIndex => blockIndex < cfg.hotBlocksLimit
  | .cool, blockIndex | .cold, blockIndex => cfg.hotBlocksLimit ≤ blockIndex

def ActivePool.Admits (cfg : Config) : ActivePool → Nat → Prop
  | .plain, _ => cfg.hotColdSeparation = false
  | .hot, blockIndex => cfg.hotColdSeparation = true ∧
      blockIndex < cfg.hotBlocksLimit
  | .cool, blockIndex | .cold, blockIndex => cfg.hotColdSeparation = true ∧
      cfg.hotBlocksLimit ≤ blockIndex

def gcPool (cfg : Config) : ActivePool :=
  if cfg.hotColdSeparation then .cool else .plain

/-- Blocks that can be collected without harm although no selection took them
out of the windows. -/
structure SafeVictims (cfg : Config) (state : State) (victims : List Nat) :
    Prop where
  nodup : victims.Nodup
  inUse : ∀ victim ∈ victims, state.InUse victim
  notHot : ∀ victim ∈ victims, victim ∉ state.hotWindow
  notCool : ∀ victim ∈ victims, victim ∉ state.coolDownWindow
  closed : ∀ victim ∈ victims, victim ∈ (state.active (gcPool cfg)).blocks →
    ∃ block, state.blocks.lookup victim = some block ∧ block.Full cfg

def FreePool.Takes (cfg : Config) (pool : FreePool)
    (blockType : BlockPoolType) : Prop :=
  if cfg.hotColdSeparation then
    pool = if blockType = .hot then .hot else .cold
  else pool = .plain

/-- History that `blocks.erase` leaves behind. -/
def lostSlots (cfg : Config) (state : State) (blockIndex : Nat) : List Nat :=
  if (activePools cfg).any fun pool =>
      (state.active pool).blocks.contains blockIndex then
    blockIndex :: state.slotsLost
  else state.slotsLost

variable (cfg : Config) (env : Environment) (allow : Allowance)

inductive Step : Phase × State → Phase × State → Prop
  | quiet (same : Quiet cfg state updated) :
      Step (phase, state) (phase, updated)
  -- Allocation
  | take (idle : phase.fresh = none) (pool : FreePool) (block : Block)
      (member : block ∈ (state.free pool).blocks)
      (absent : state.blocks.lookup block.idx = none)
      (counted : (state.free pool).count ≠ 0) :
      Step (phase, state)
        ({ phase with fresh := some (block.idx, .taken) },
          (state.setBlock block.idx block).setFree pool
            { blocks := (state.free pool).blocks.eraseP (·.idx = block.idx)
              count := (state.free pool).count - 1 })
  | touch (refreshedPageCount : Nat)
      (found : state.blocks.lookup blockIndex = some block) :
      Step (phase, state)
        (phase, state.setBlock blockIndex { block with
          refreshedPageCount := refreshedPageCount })
  | demote (fresh : phase.fresh = some (blockIndex, .taken))
      (window : state.coolDownWindow = front :: rest)
      (found : state.blocks.lookup front = some block) :
      Step (phase, state)
        ({ phase with fresh := some (blockIndex, .roomy) },
          { state.setBlock front { block with blockType := .cold } with
            coolDownWindow := rest })
  | spare (fresh : phase.fresh = some (blockIndex, .taken))
      (short : state.coolDownWindow.length < cfg.nCooldownBlocks) :
      Step (phase, state)
        ({ phase with fresh := some (blockIndex, .roomy) }, state)
  | pushHot (fresh : phase.fresh = some (blockIndex, .taken))
      (separated : cfg.hotColdSeparation = true)
      (region : blockIndex < cfg.hotBlocksLimit)
      (inUse : state.InUse blockIndex) :
      Step (phase, state)
        ({ phase with fresh := some (blockIndex, .queued .hot) },
          { state with hotWindow := state.hotWindow ++ [blockIndex] })
  | pushCool (fresh : phase.fresh = some (blockIndex, .roomy))
      (separated : cfg.hotColdSeparation = true)
      (region : cfg.hotBlocksLimit ≤ blockIndex)
      (inUse : state.InUse blockIndex) :
      Step (phase, state)
        ({ phase with fresh := some (blockIndex, .queued .cool) },
          { state with coolDownWindow := state.coolDownWindow ++ [blockIndex] })
  | tag (blockType : BlockPoolType)
      (fresh : phase.fresh = some (blockIndex, stage))
      (fits : stage = .queued blockType ∨
        (stage = .taken ∧ blockType = .cold))
      (region : Region cfg blockType blockIndex)
      (found : state.blocks.lookup blockIndex = some block) :
      Step (phase, state)
        ({ phase with fresh := some (blockIndex, .ready) },
          state.setBlock blockIndex { block with blockType := blockType })
  | accept (fresh : phase.fresh = some (blockIndex, .taken))
      (plain : cfg.hotColdSeparation = false) :
      Step (phase, state)
        ({ phase with fresh := some (blockIndex, .ready) }, state)
  | seat (pool : ActivePool) (index : Nat) (reclaimMore : Bool)
      (fresh : phase.fresh = some (blockIndex, .ready))
      (admits : pool.Admits cfg blockIndex) (inUse : state.InUse blockIndex) :
      Step (phase, state)
        ({ phase with fresh := none },
          { state.setActive pool { state.active pool with
              blocks := (state.active pool).blocks.set index blockIndex } with
            bReclaimMore := reclaimMore })
  | repair (pool : ActivePool) (index : Nat)
      (fresh : phase.fresh = some (blockIndex, .ready))
      (admits : pool.Admits cfg blockIndex) (inUse : state.InUse blockIndex)
      (erasing : phase.erasing = some victim)
      (named : victim ∈ (state.active pool).blocks) :
      Step (phase, state)
        ({ phase with fresh := none, repaired := true },
          { state.setActive pool { state.active pool with
              blocks := (state.active pool).blocks.set index blockIndex } with
            bReclaimMore := true })
  -- Programming
  | aim (pool : ActivePool)
      (member : blockIndex ∈ (state.active pool).blocks)
      (found : state.blocks.lookup blockIndex = some block)
      (room : cfg.pagesInBlock = 0 ∨ ∀ unit < cfg.ioUnitInPage,
        block.nextWritePage unit < cfg.pagesInBlock)
      (collecting : phase.victims ≠ [] → pool = gcPool cfg) :
      Step (phase, state) ({ phase with target := some blockIndex }, state)
  | settle : Step (phase, state) ({ phase with target := none }, state)
  | create (units : Set Nat) (absent : state.table.lookup lpn = none)
      (inside : ∀ idx ∈ units, idx < cfg.bitsetSize)
      (whole : cfg.bRandomTweak = false →
        ∀ idx < cfg.bitsetSize, idx ∈ units) :
      Step (phase, state)
        ({ phase with
          pending := phase.pending ∪ { unit | unit.1 = lpn ∧ unit.2 ∈ units } },
          state.setMapping lpn (emptyMapping cfg))
  | await (units : Set Nat) (found : state.table.lookup lpn = some mapping)
      (inside : ∀ idx ∈ units, idx < cfg.bitsetSize ∧
        ¬ IsLocation cfg (mapping idx)) :
      Step (phase, state)
        ({ phase with
          pending := phase.pending ∪ { unit | unit.1 = lpn ∧ unit.2 ∈ units } },
          state)
  | invalidate (mapped : state.table.lookup lpn = some mapping)
      (inside : idx < cfg.bitsetSize)
      (located : mapping idx = (blockIndex, pageIndex))
      (found : state.blocks.lookup blockIndex = some block)
      (valid : block.validBits pageIndex idx = true)
      (stores : block.lpns pageIndex idx = lpn) :
      Step (phase, state)
        ({ phase with pending := insert (lpn, idx) phase.pending },
          state.setBlock blockIndex { block with
            validBits := Block.setBit block.validBits pageIndex idx false })
  | program (aimed : phase.target = some blockIndex)
      (found : state.blocks.lookup blockIndex = some block)
      (inside : idx < cfg.bitsetSize) (waits : (lpn, idx) ∈ phase.pending)
      (mapped : state.table.lookup lpn = some mapping)
      (written : block.write (block.nextWritePage idx) lpn idx = .ok updated)
      (scheduled : state.refresh.setRefreshPeriod cfg env
        state.stat.refreshCallCount block.eraseCount blockIndex
        (block.nextWritePage idx % 64) = .ok refresh) :
      Step (phase, state)
        ({ phase with
          pending := phase.pending \ {(lpn, idx)}
          mapped := insert (lpn, idx) phase.mapped },
          { ((state.setBlock blockIndex updated).noteProgrammed
              ⟨blockIndex, block.eraseCount, block.nextWritePage idx,
                idx⟩).setMapping lpn (Function.update mapping idx
                  (blockIndex, block.nextWritePage idx)) with
            refresh := refresh })
  | programHot (allowed : allow.hotFill)
      (aimed : phase.target = some blockIndex)
      (found : state.blocks.lookup blockIndex = some block)
      (inside : idx < cfg.bitsetSize) (waits : (lpn, idx) ∈ phase.pending)
      (mapped : state.table.lookup lpn = some mapping)
      (written : block.write (block.nextWritePage idx) lpn idx =
        .ok updated) :
      Step (phase, state)
        ({ phase with
          pending := phase.pending \ {(lpn, idx)}
          mapped := insert (lpn, idx) phase.mapped },
          ((state.setBlock blockIndex updated).noteProgrammed
            ⟨blockIndex, block.eraseCount, block.nextWritePage idx,
              idx⟩).setMapping lpn (Function.update mapping idx
                (blockIndex, block.nextWritePage idx)))
  | unmap (waits : ∀ idx < cfg.bitsetSize, (lpn, idx) ∈ phase.pending) :
      Step (phase, state)
        ({ phase with
          pending := phase.pending \ { unit | unit.1 = lpn }
          mapped := phase.mapped \ { unit | unit.1 = lpn } },
          { state with table := state.table.erase lpn })
  -- Collection
  | select (allowed : allow.policy) (settled : phase.Settled)
      (idle : phase.victims = []) (victims window : List Nat)
      (nodup : victims.Nodup)
      (full : ∀ victim ∈ victims, ∃ block,
        state.blocks.lookup victim = some block ∧ block.Full cfg)
      (windowed : window = if cfg.hotColdSeparation then
          victims.foldl (fun window victim => window.erase victim)
            state.coolDownWindow
        else state.coolDownWindow)
      (cold : cfg.hotColdSeparation = true →
        ∀ victim ∈ victims, cfg.hotBlocksLimit ≤ victim) :
      Step (phase, state)
        ({ phase with victims := victims },
          { state with
            bReclaimMore := false
            selections := state.selections + 1
            coolDownWindow := window })
  | selectHot (allowed : allow.policy) (settled : phase.Settled)
      (idle : phase.victims = []) (amount : Nat) (separated : cfg.hotColdSeparation = true) :
      Step (phase, state)
        ({ phase with victims := state.hotWindow.take amount },
          { state with
            bReclaimMore := false
            hotWindow := state.hotWindow.drop amount })
  | collect (settled : phase.Settled) (idle : phase.victims = [])
      (victims : List Nat)
      (allowed : allow.foreign ∨ SafeVictims cfg state victims) :
      Step (phase, state) ({ phase with victims := victims }, state)
  | cleaned (victim : Nat)
      (nothing : ∀ pageIndex idx lpn,
        ¬ state.Stores victim pageIndex idx lpn) :
      Step (phase, state)
        ({ phase with clean := insert victim phase.clean }, state)
  | wipe (allowed : allow.policy ∨ allow.wiping) (idle : phase.erasing = none)
      (next : phase.victims = victim :: rest)
      (found : state.blocks.lookup victim = some block)
      (nothing : ∀ pageIndex idx, block.validBits pageIndex idx = false) :
      Step (phase, state)
        ({ phase with
          victims := rest, erasing := some victim, repaired := false },
          state.setBlock victim block.erase)
  | release (pool : FreePool) (erasing : phase.erasing = some victim)
      (found : state.blocks.lookup victim = some block) (empty : block.Empty)
      (takes : pool.Takes cfg block.blockType)
      (placed : blocks.Perm (block :: (state.free pool).blocks)) :
      Step (phase, state)
        ({ phase with erasing := none, repaired := false },
          { state.setFree pool
              { blocks := blocks, count := (state.free pool).count + 1 } with
            blocks := state.blocks.erase victim
            slotsLost := lostSlots cfg state victim })
  | retire (erasing : phase.erasing = some victim)
      (found : state.blocks.lookup victim = some block) (empty : block.Empty) :
      Step (phase, state)
        ({ phase with erasing := none, repaired := false },
          { state with
            blocks := state.blocks.erase victim
            retired := victim :: state.retired
            slotsLost := lostSlots cfg state victim })
  | finish (erased : phase.victims = []) :
      Step (phase, state) ({ phase with clean := ∅ }, state)
  -- Refresh
  | setup (allowed : allow.setup) :
      Step (phase, state)
        (phase, { state with
          refresh := state.refresh.setup cfg
          stat := { state.stat with refreshCallCount := 0 } })
  | swap (allowed : allow.refreshing) (queueNum : Nat) :
      Step (phase, state)
        (phase, { state with refresh := state.refresh.swap queueNum })
  | tick (allowed : allow.refreshing) :
      Step (phase, state)
        (phase, state.withStat fun stat => { stat with
          refreshCallCount := stat.refreshCallCount + 1 })
  | skipLayer (allowed : allow.refreshing)
      (front : state.refresh.checkedQueues queueNum = layerID :: rest)
      (elsewhere : queueNum ≠ state.refresh.layerQueueNum layerID) :
      Step (phase, state)
        (phase, { state with refresh := state.refresh.popFront queueNum
                  }.withStat fun stat => { stat with
          doubleInsertionCount := stat.doubleInsertionCount + 1 })
  | popLayer (allowed : allow.refreshing) (idle : phase.drain = none)
      (front : state.refresh.checkedQueues queueNum = layerID :: rest)
      (here : queueNum = state.refresh.layerQueueNum layerID)
      (flagged : state.refresh.insertedLayerCheck layerID = true) :
      Step (phase, state)
        ({ phase with drain := some (layerID, layerPages cfg (layerID % 64)) },
          { state with refresh :=
              (state.refresh.popFront queueNum).setLayerCheck layerID false })
  | visited (draining : phase.drain = some (layerID, page :: pages))
      (nothing : ∀ idx lpn, ¬ state.Stores (layerID / 64) page idx lpn) :
      Step (phase, state)
        ({ phase with drain := some (layerID, pages) }, state)
  | drained (draining : phase.drain = some (layerID, pages))
      (nothing : ∀ page ∈ pages, ∀ idx lpn,
        ¬ state.Stores (layerID / 64) page idx lpn) :
      Step (phase, state) ({ phase with drain := none }, state)

def refusals : List Panic :=
  [.invalidGCMode, .invalidEvictPolicy, .invalidColdEvictPolicy,
    .endlessSampling, .gcInInitialization, .gcInInitializationByCold,
    .gcInInitializationByHot, .coldGCInHotFilling, .hotGCInHotFilling,
    .coolOrColdBlock, .divisionByZero, .invalidIterator, .outOfRange]

inductive Cause (phase : Phase) (state : State) : Panic → Prop
  | corrupted (pool : ActivePool)
      (used : pool ∈ activePools cfg ∨ allow.plainFill)
      (slot : (state.active pool).blocks[(state.active pool).index]? =
        some blockIndex)
      (absent : state.blocks.lookup blockIndex = none) :
      Cause phase state pool.corrupted
  | noFreeBlock : Cause phase state .noFreeBlockLeft
  | noFreeColdBlock : Cause phase state .noFreeColdBlockLeft
  | emptyFreeList : Cause phase state .emptyFreeList
  | coolBlockLost (window : state.coolDownWindow = front :: rest)
      (absent : state.blocks.lookup front = none) :
      Cause phase state .coolBlockLost
  | noWindow (separated : cfg.hotColdSeparation = true)
      (none : cfg.nCooldownBlocks = 0) : Cause phase state .invalidIterator
  | noPages (none : cfg.pagesInBlock = 0) :
      Cause phase state .programOutOfRange
  | unscheduled (inside : blockIndex < cfg.totalPhysicalBlocks)
      (failed : state.refresh.setRefreshPeriod cfg env
        state.stat.refreshCallCount eraseCount blockIndex (page % 64) =
          .error raised) (below : page < cfg.pagesInBlock) :
      Cause phase state raised
  | unmapped (mapped : state.table.lookup lpn = some mapping)
      (inside : idx < cfg.bitsetSize)
      (nowhere : ¬ IsLocation cfg (mapping idx))
      (settled : (lpn, idx) ∉ phase.pending)
      (text : raised = .trimBlockNotInUse ∨ raised = .formatBlockNotInUse) :
      Cause phase state raised
  | victimMissing (member : victim ∈ phase.victims)
      (absent : state.blocks.lookup victim = none)
      (text : raised = .invalidBlock ∨ raised = .invalidBlockInGC ∨
        raised = .noSuchBlock ∨ raised = .invalidIterator) :
      Cause phase state raised
  | victimValid (member : victim ∈ phase.victims)
      (clean : victim ∈ phase.clean)
      (found : state.blocks.lookup victim = some block)
      (valid : block.getValidPageCount ≠ 0) :
      Cause phase state .validPagesInVictim
  | danglingPosition (repaired : phase.repaired = true) :
      Cause phase state .danglingPosition
  | corruptedLayerCheck (allowed : allow.policy)
      (front : state.refresh.checkedQueues queueNum = layerID :: rest)
      (here : queueNum = state.refresh.layerQueueNum layerID)
      (cleared : state.refresh.insertedLayerCheck layerID = false) :
      Cause phase state .corruptedLayerCheck
  | refused (allowed : allow.policy) (member : raised ∈ refusals) :
      Cause phase state raised

/-- The histories of two states agree, up to one last unit that was programmed
where the next one belongs. -/
structure SameHistory (state stopped : State) : Prop where
  slotsLost_eq : stopped.slotsLost = state.slotsLost
  requeued_eq : stopped.refresh.requeued = state.refresh.requeued
  unscheduled_eq : stopped.refresh.unscheduled = state.refresh.unscheduled
  programmed_eq : stopped.programmed = state.programmed ∨
    ∃ blockIndex block idx lpn version,
      state.blocks.lookup blockIndex = some block ∧ idx < cfg.bitsetSize ∧
      block.write (block.nextWritePage idx) lpn idx = .ok version ∧
      stopped.programmed = ⟨blockIndex, block.eraseCount,
        block.nextWritePage idx, idx⟩ :: state.programmed

variable {cfg} in
theorem SameHistory.refl (state : State) : SameHistory cfg state state :=
  ⟨rfl, rfl, rfl, .inl rfl⟩

end SimpleSSD.FTL
