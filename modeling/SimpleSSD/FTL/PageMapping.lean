import SimpleSSD.FTL.GarbageCollection

namespace SimpleSSD.FTL

/-! Host requests, construction and initialisation of the page-mapping FTL. -/

variable (cfg : Config) (env : Environment)

def IsLocation (location : Nat × Nat) : Prop :=
  location.1 < cfg.totalPhysicalBlocks ∧ location.2 < cfg.pagesInBlock

instance (location : Nat × Nat) : Decidable (IsLocation cfg location) :=
  inferInstanceAs (Decidable (_ ∧ _))

def emptyMapping : Mapping :=
  fun _ => (cfg.totalPhysicalBlocks, cfg.pagesInBlock)

def touches (flag : IOFlag) (idx : Nat) : Bool :=
  flag idx || !cfg.bRandomTweak

/-- Invalidate the old units of a rewritten logical page.  The result is the
block that the iterator `block` was left on. -/
def invalidateOld (mapping : Mapping) (flag : IOFlag) : FTLM (Option Nat) :=
  (List.range cfg.bitsetSize).foldlM
    (fun last idx => do
      if touches cfg flag idx then
        if IsLocation cfg (mapping idx) then
          invalidateUnit (mapping idx).1 (mapping idx).2 idx
          return some (mapping idx).1
      return last) none

/-- The first part of the three write functions: invalidate the old units of a
mapped page and return the pool type of the block left in the iterator, or
create an empty mapping, for which the type is `fresh`. -/
def openMapping (lpn : Nat) (flag : IOFlag) :
    FTLM (Option (Option Nat)) := do
  let state ← get
  match state.table.lookup lpn with
  | some mapping => some <$> invalidateOld cfg mapping flag
  | none =>
      set (state.setMapping lpn (emptyMapping cfg))
      return none

/-- Program one unit of a logical page at the next page of `target`. -/
def programUnit (schedule : Bool) (target lpn idx : Nat) : FTLM Unit := do
  let block ← blockAt target
  let pageIndex := block.nextWritePage idx
  writeUnit target pageIndex lpn idx
  remapUnit lpn idx (target, pageIndex) .invalidIterator
  if schedule then
    setRefreshPeriod cfg env block.eraseCount target (pageIndex % 64)

def programUnits (schedule : Bool) (target lpn : Nat) (flag : IOFlag) :
    FTLM Unit :=
  (List.range cfg.bitsetSize).forM fun idx => do
    if touches cfg flag idx then
      programUnit cfg env schedule target lpn idx

def writeInternal (lpn : Nat) (flag : IOFlag) (sendToPAL : Bool) :
    FTLM Unit := do
  let _ ← openMapping cfg lpn flag
  let target ← getLastFreeBlock cfg flag
  let _ ← findBlock target .noSuchBlock
  programUnits cfg env true target lpn flag
  if ← needsGC env .plain then
    if !sendToPAL then
      throw .gcInInitialization
    plainGC cfg env false

/-- `curBlockType` of a separated write; `fresh` is the type used for a page
that had no mapping list. -/
def poolTypeOf (fresh : BlockPoolType) :
    Option (Option Nat) → FTLM BlockPoolType
  | none => pure fresh
  | some none => throw .invalidIterator
  | some (some blockIndex) => do
      let block ← blockAt blockIndex
      return block.blockType

def sepWriteInternal (lpn : Nat) (flag : IOFlag) (sendToPAL : Bool) :
    FTLM Unit := do
  let last ← openMapping cfg lpn flag
  let curBlockType ← poolTypeOf .cold last
  let target ← if curBlockType = .cold then getLastCoolFreeBlock cfg flag
    else getLastHotFreeBlock cfg flag
  let _ ← findBlock target .noSuchBlock
  programUnits cfg env true target lpn flag
  if ← needsGC env .cold then
    if !sendToPAL then
      throw .gcInInitializationByCold
    coldGC cfg env false
  if ← needsGC env .hot then
    if !sendToPAL then
      throw .gcInInitializationByHot
    hotGC cfg env

/-- Filling of the hot pool.  Unlike its siblings it does not schedule the
layers that it programs. -/
def sepHotWriteInternal (lpn : Nat) (flag : IOFlag) : FTLM Unit := do
  let last ← openMapping cfg lpn flag
  let curBlockType ← poolTypeOf .hot last
  if curBlockType ≠ .hot then
    throw .coolOrColdBlock
  let target ← getLastHotFreeBlock cfg flag
  let _ ← findBlock target .noSuchBlock
  programUnits cfg env false target lpn flag
  if ← needsGC env .cold then
    throw .coldGCInHotFilling
  if ← needsGC env .hot then
    throw .hotGCInHotFilling

def write (lpn : Nat) (flag : IOFlag) : FTLM Unit := do
  if 0 < flag.count cfg.ioUnitInPage then
    if cfg.hotColdSeparation then
      sepWriteInternal cfg env lpn flag true
    else
      writeInternal cfg env lpn flag true

def readInternal (lpn : Nat) (flag : IOFlag) : FTLM Unit := do
  let state ← get
  match state.table.lookup lpn with
  | none => pure ()
  | some mapping =>
      (List.range cfg.bitsetSize).forM fun idx => do
        if touches cfg flag idx then
          if IsLocation cfg (mapping idx) then
            let _ ← findBlock (mapping idx).1 .readBlockNotInUse

def read (lpn : Nat) (flag : IOFlag) : FTLM Unit := do
  if 0 < flag.count cfg.ioUnitInPage then
    readInternal cfg lpn flag

def trimUnit (missing : Panic) (mapping : Mapping) (idx : Nat) :
    FTLM Unit := do
  let _ ← findBlock (mapping idx).1 missing
  invalidateUnit (mapping idx).1 (mapping idx).2 idx

def dropMapping (lpn : Nat) : FTLM Unit :=
  modify fun state => { state with table := state.table.erase lpn }

/-- Invalidate all units of a logical page and remove its mapping list. -/
def unmap (missing : Panic) (lpn : Nat) : FTLM Unit := do
  let state ← get
  match state.table.lookup lpn with
  | none => pure ()
  | some mapping =>
      (List.range cfg.bitsetSize).forM (trimUnit missing mapping)
      dropMapping lpn

def trim (lpn : Nat) : FTLM Unit := unmap cfg .trimBlockNotInUse lpn

/-- `range.slpn <= lpn && lpn < range.slpn + range.nlp` on `uint64_t`. -/
def inRange (slpn nlp lpn : Nat) : Bool :=
  slpn ≤ lpn && lpn < (slpn + nlp) % 2 ^ 64

/-- Blocks named by the entries of the formatted pages, sorted and without
repetition. -/
def formattedBlocks (state : State) (lpns : List Nat) : List Nat :=
  ((lpns.flatMap fun lpn =>
    match state.table.lookup lpn with
    | none => []
    | some mapping => (List.range cfg.bitsetSize).map fun idx =>
        (mapping idx).1).insertionSort (· ≤ ·)).dedup

def format (slpn nlp : Nat) : FTLM Unit := do
  let state ← get
  let lpns := state.table.keys.filter (inRange slpn nlp)
  lpns.forM (unmap cfg .formatBlockNotInUse)
  let victims := formattedBlocks cfg state lpns
  if cfg.hotColdSeparation then
    sepDoGarbageCollection cfg env false .cold victims
  else
    doGarbageCollection cfg env false victims

/-- Members right after the member initialisers and the filling of the free
lists in the constructor. -/
def blankState : State where
  table := ∅
  blocks := ∅
  free := fun pool =>
    if cfg.hotColdSeparation then
      match pool with
      | .plain => { blocks := [], count := cfg.totalPhysicalBlocks }
      | .hot =>
          { blocks := (List.range cfg.hotBlocksLimit).map fun idx =>
              Block.make idx cfg.pagesInBlock cfg.ioUnitInPage
                cfg.initEraseCount .hot
            count := cfg.hotBlocksLimit }
      | .cold =>
          { blocks := (List.range' cfg.hotBlocksLimit
              (cfg.totalPhysicalBlocks - cfg.hotBlocksLimit)).map fun idx =>
              Block.make idx cfg.pagesInBlock cfg.ioUnitInPage
                cfg.initEraseCount .cold
            count := cfg.totalPhysicalBlocks - cfg.hotBlocksLimit }
    else
      match pool with
      | .plain =>
          { blocks := (List.range cfg.totalPhysicalBlocks).map fun idx =>
              Block.make idx cfg.pagesInBlock cfg.ioUnitInPage
                cfg.initEraseCount .cold
            count := cfg.totalPhysicalBlocks }
      | _ => { blocks := [], count := 0 }
  active := fun _ =>
    { blocks := List.replicate cfg.pageCountToMaxPerf 0
      ioMap := fun _ => false
      index := 0 }
  bReclaimMore := false
  hotWindow := []
  coolDownWindow := []
  refresh := RefreshQueue.empty
  stat := {}
  selections := 0
  retired := []
  slotsLost := []
  programmed := []
  records := []

def activePools : List ActivePool :=
  if cfg.hotColdSeparation then [.hot, .cool, .cold] else [.plain]

def construct : FTLM Unit :=
  (List.range cfg.pageCountToMaxPerf).forM fun idx =>
    (activePools cfg).forM fun pool => seatSlot cfg pool idx

/-- One write of the filling and invalidating steps of `initialize`. -/
inductive FillWrite where
  | plain (lpn : Nat)
  | cool (lpn : Nat)
  | hot (lpn : Nat)
  deriving DecidableEq, Repr

def FillWrite.lpn : FillWrite → Nat
  | .plain lpn | .cool lpn | .hot lpn => lpn

/-- Step 1 of `initialize`. -/
def fillingWrites : List FillWrite :=
  match cfg.fillingMode with
  | .mode0 | .mode1 =>
      if cfg.hotColdSeparation then
        (List.range cfg.coldWarmup).map FillWrite.cool ++
          (List.range' cfg.coldWarmup
            (cfg.nPagesToWarmup - cfg.coldWarmup)).map FillWrite.hot
      else
        (List.range cfg.nPagesToWarmup).map FillWrite.plain
  | .mode2 => (List.range cfg.nPagesToWarmup).map fun draw =>
      .plain (env.randomLPN draw)

/-- Step 2 of `initialize`. -/
def invalidatingWrites : List FillWrite :=
  match cfg.fillingMode with
  | .mode0 => (List.range cfg.nPagesToInvalidate).map FillWrite.plain
  | .mode1 | .mode2 => (List.range cfg.nPagesToInvalidate).map fun draw =>
      .plain (env.randomLPN (cfg.nPagesToWarmup + draw))

def fill : FillWrite → FTLM Unit
  | .plain lpn => writeInternal cfg env lpn IOFlag.all false
  | .cool lpn => sepWriteInternal cfg env lpn IOFlag.all false
  | .hot lpn => sepHotWriteInternal cfg env lpn IOFlag.all

def setupRefresh : FTLM Unit :=
  modify fun state =>
    { state with
      refresh := state.refresh.setup cfg
      stat := { state.stat with refreshCallCount := 0 } }

def initializeFTL : FTLM Unit := do
  setupRefresh cfg
  (fillingWrites cfg env ++ invalidatingWrites cfg env).forM (fill cfg env)

/-- Operations on a constructed FTL.  `gc` is one call of a garbage collection
on an arbitrary list of victims. -/
inductive Op where
  | initializeFTL
  | read (lpn : Nat) (flag : IOFlag)
  | write (lpn : Nat) (flag : IOFlag)
  | trim (lpn : Nat)
  | gc (victims : List Nat)
  | refresh
  | format (slpn nlp : Nat)

def perform : Op → FTLM Unit
  | .initializeFTL => initializeFTL cfg env
  | .read lpn flag => read cfg lpn flag
  | .write lpn flag => write cfg env lpn flag
  | .trim lpn => trim cfg lpn
  | .gc victims =>
      if cfg.hotColdSeparation then
        sepDoGarbageCollection cfg env false .cold victims
      else
        doGarbageCollection cfg env false victims
  | .refresh => refreshEvent cfg env
  | .format slpn nlp => format cfg env slpn nlp

/-- The life of an FTL: the constructor and then a sequence of operations. -/
def life (ops : List Op) : FTLM Unit := do
  construct cfg
  ops.forM (perform cfg env)

def outcome (ops : List Op) : EStateM.Result Panic State Unit :=
  (life cfg env ops).run (blankState cfg)

end SimpleSSD.FTL
