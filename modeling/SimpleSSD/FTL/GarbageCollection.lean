import SimpleSSD.FTL.Victim

namespace SimpleSSD.FTL

/-! Relocation of valid pages: the copy loops of the two garbage collections and
of the refresh. -/

variable (cfg : Config) (env : Environment)

def noteRefreshed (refreshes : Bool) (source : Nat) : FTLM Unit := do
  if refreshes then
    updateBlock source fun block =>
      { block with refreshedPageCount := block.refreshedPageCount + 1 }
    modify (·.note (.refreshed source))

/-- Move one unit to the next page of `target` and schedule its new layer. -/
def copyUnit (missing : Panic) (refreshes : Bool)
    (source pageIndex target lpn idx : Nat) : FTLM Unit := do
  invalidateUnit source pageIndex idx
  noteRefreshed refreshes source
  let block ← blockAt target
  let newPageIdx := block.nextWritePage idx
  remapUnit lpn idx (target, newPageIdx) missing
  writeUnit target newPageIdx lpn idx
  setRefreshPeriod cfg env block.eraseCount target (newPageIdx % 64)

structure CopyPlan where
  /-- `getLast…FreeBlock` of the pool that receives the copies. -/
  destination : ActivePool
  /-- Panic on a missing mapping list. -/
  missing : Panic
  /-- Whether moved units are counted as refreshed. -/
  refreshes : Bool
  unitStat : Stat → Stat
  pageStat : Stat → Stat

def copiedUnits (block : Block) (pageIndex : Nat) : IOFlag :=
  if cfg.bRandomTweak then block.validBits pageIndex else IOFlag.all

def copyPage (plan : CopyPlan) (source pageIndex : Nat) : FTLM Unit := do
  let block ← blockAt source
  if IOFlag.any cfg.ioUnitInPage (block.validBits pageIndex) then
    let bit := copiedUnits cfg block pageIndex
    let target ← getLastBlock cfg plan.destination bit
    (List.range cfg.bitsetSize).forM fun idx => do
      if bit idx then
        copyUnit cfg env plan.missing plan.refreshes source pageIndex target
          (block.lpns pageIndex idx) idx
        count plan.unitStat
    count plan.pageStat

def copyVictims (plan : CopyPlan) (invalid : Panic) (victims : List Nat) :
    FTLM Unit :=
  victims.forM fun victim => do
    let _ ← findBlock victim invalid
    (List.range cfg.pagesInBlock).forM (copyPage cfg env plan victim)

def gcPlan (isRefresh : Bool) : CopyPlan where
  destination := .plain
  missing := .invalidMappingTableEntry
  refreshes := false
  unitStat := fun stat =>
    { stat with
      refreshGcPageCopies := if isRefresh then stat.refreshGcPageCopies + 1
        else stat.refreshGcPageCopies
      validPageCopies := stat.validPageCopies + 1 }
  pageStat := fun stat =>
    { stat with validSuperPageCopies := stat.validSuperPageCopies + 1 }

def doGarbageCollection (isRefresh : Bool) (victims : List Nat) :
    FTLM Unit := do
  copyVictims cfg env (gcPlan isRefresh) .invalidBlock victims
  victims.forM (eraseInternal cfg)

def sepGCPlan (isRefresh : Bool) (gcType : BlockPoolType) : CopyPlan where
  destination := .cool
  missing := .invalidMappingTableEntry
  refreshes := false
  unitStat := fun stat =>
    let stat := { stat with
      refreshGcPageCopies := if isRefresh then stat.refreshGcPageCopies + 1
        else stat.refreshGcPageCopies }
    if gcType = .hot then
      { stat with hotValidPageCopies := stat.hotValidPageCopies + 1 }
    else
      { stat with coldValidPageCopies := stat.coldValidPageCopies + 1 }
  pageStat := fun stat =>
    if gcType = .hot then
      { stat with hotValidSuperPageCopies := stat.hotValidSuperPageCopies + 1 }
    else
      { stat with
        coldValidSuperPageCopies := stat.coldValidSuperPageCopies + 1 }

def sepDoGarbageCollection (isRefresh : Bool) (gcType : BlockPoolType)
    (victims : List Nat) : FTLM Unit := do
  copyVictims cfg env (sepGCPlan isRefresh gcType) .invalidBlockInGC victims
  victims.forM (sepEraseInternal cfg)

def plainGC (isRefresh : Bool) : FTLM Unit := do
  let victims ← selectVictimBlock cfg env
  doGarbageCollection cfg env isRefresh victims
  count fun stat =>
    { stat with
      gcCount := stat.gcCount + 1
      reclaimedBlocks := stat.reclaimedBlocks + victims.length }

def coldGC (isRefresh : Bool) : FTLM Unit := do
  let victims ← selectColdVictimBlock cfg env
  sepDoGarbageCollection cfg env isRefresh .cold victims
  count fun stat =>
    { stat with
      coldGcCount := stat.coldGcCount + 1
      reclaimedColdBlocks := stat.reclaimedColdBlocks + victims.length }

def hotGC : FTLM Unit := do
  let victims ← selectHotVictimBlock cfg env
  sepDoGarbageCollection cfg env false .hot victims
  count fun stat =>
    { stat with
      hotGcCount := stat.hotGcCount + 1
      reclaimedHotBlocks := stat.reclaimedHotBlocks + victims.length }

def needsGC (pool : FreePool) : FTLM Bool := do
  let state ← get
  return env.belowGCThreshold pool (state.free pool).count

/-- The collections before and after the copy loop of `refreshPage`. -/
def refreshGC : FTLM Unit := do
  if cfg.hotColdSeparation then
    if ← needsGC env .cold then
      coldGC cfg env true
  else
    if ← needsGC env .plain then
      plainGC cfg env true

/-- Destination of a refreshed page, by the type its block had when the layer
was taken up. -/
def refreshDestination (blockType : BlockPoolType) : ActivePool :=
  if cfg.hotColdSeparation then
    if blockType = .cold then .cold else .cool
  else .plain

def refreshPlan (blockType : BlockPoolType) : CopyPlan where
  destination := refreshDestination cfg blockType
  missing := .invalidMappingInRefresh
  refreshes := true
  unitStat := fun stat =>
    { stat with refreshPageCopies := stat.refreshPageCopies + 1 }
  pageStat := fun stat =>
    { stat with refreshSuperPageCopies := stat.refreshSuperPageCopies + 1 }

def layerPages (layerIndex : Nat) : List Nat :=
  (List.range cfg.pagesInBlock).filter fun page => page % 64 = layerIndex

/-- Clear the bit of the layer at the head of the checked queue, or skip the
layer when its queue number names another queue.  The result tells whether the
layer has to be copied. -/
def popLayer (queueNum layerID : Nat) : FTLM Bool := do
  modify fun state =>
    { state with refresh := state.refresh.popFront queueNum }
  let state ← get
  if state.refresh.layerCount ≤ layerID then
    throw .outOfRange
  if queueNum ≠ state.refresh.layerQueueNum layerID then
    count fun stat =>
      { stat with doubleInsertionCount := stat.doubleInsertionCount + 1 }
    return false
  if state.refresh.insertedLayerCheck layerID then
    set { state with refresh := state.refresh.setLayerCheck layerID false }
    return true
  else
    throw .corruptedLayerCheck

/-- Copy the valid pages of a layer away, if its block is in use. -/
def copyLayer (layerID : Nat) : FTLM Unit := do
  let state ← get
  match state.blocks.lookup (layerID / 64) with
  | none => pure ()
  | some block =>
      (layerPages cfg (layerID % 64)).forM
        (copyPage cfg env (refreshPlan cfg block.blockType) (layerID / 64))

/-- The pop loop of `refreshPage`, bounded by `refreshMaxLayerNum`. -/
def refreshLayers (queueNum : Nat) : Nat → FTLM Unit
  | 0 => pure ()
  | remaining + 1 => do
      let state ← get
      match state.refresh.checkedQueues queueNum with
      | [] => pure ()
      | layerID :: _ =>
          if ← popLayer queueNum layerID then
            copyLayer cfg env layerID
          refreshLayers queueNum remaining

def refreshPage (queueNum : Nat) : FTLM Unit := do
  refreshGC cfg env
  refreshLayers cfg env queueNum cfg.refreshMaxLayerNum
  refreshGC cfg env

def refreshEvent : FTLM Unit := do
  let state ← get
  if state.refresh.queueCount = 0 then
    throw .divisionByZero
  let target := (state.stat.refreshCallCount + 1) % state.refresh.queueCount
  set { state with refresh := state.refresh.swap target }
  refreshPage cfg env target
  count fun stat =>
    { stat with refreshCallCount := stat.refreshCallCount + 1 }

end SimpleSSD.FTL
