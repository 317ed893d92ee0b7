import SimpleSSD.Data.Program
import SimpleSSD.FTL.Block
import SimpleSSD.FTL.RefreshQueue
import Mathlib.Data.List.AList
import Mathlib.Tactic.Simps.Basic

namespace SimpleSSD.FTL

/-- One entry of the mapping table: a physical location per I/O unit. -/
abbrev Mapping := Nat → Nat × Nat

/-- One `std::list<Block>` with its hand-kept counter. -/
structure FreeList where
  blocks : List Block
  count : Nat

structure ActiveSlots where
  blocks : List Nat
  ioMap : IOFlag
  index : Nat

structure Stat where
  gcCount : Nat := 0
  reclaimedBlocks : Nat := 0
  validSuperPageCopies : Nat := 0
  validPageCopies : Nat := 0
  refreshGcPageCopies : Nat := 0
  refreshSuperPageCopies : Nat := 0
  refreshPageCopies : Nat := 0
  refreshCallCount : Nat := 0
  doubleInsertionCount : Nat := 0
  hotGcCount : Nat := 0
  reclaimedHotBlocks : Nat := 0
  hotValidSuperPageCopies : Nat := 0
  hotValidPageCopies : Nat := 0
  coldGcCount : Nat := 0
  reclaimedColdBlocks : Nat := 0
  coldValidSuperPageCopies : Nat := 0
  coldValidPageCopies : Nat := 0

/-- One unit programmed by `Block::write`: the block with its erase count at that
time, and the unit. -/
structure Programmed where
  blockIndex : Nat
  eraseCount : Nat
  page : Nat
  idx : Nat
  deriving DecidableEq, Repr

/-- What happens to a block between two erases: it leaves its free list, and
`refreshPage` moves units out of it. -/
inductive Record where
  | taken (blockIndex : Nat)
  | refreshed (blockIndex : Nat)
  deriving DecidableEq, Repr

/-- The members of `PageMapping`.  `retired`, `slotsLost`, `programmed` and
`records` are history, kept for specifications only. -/
structure State where
  table : AList fun _ : Nat => Mapping
  blocks : AList fun _ : Nat => Block
  free : FreePool → FreeList
  active : ActivePool → ActiveSlots
  bReclaimMore : Bool
  hotWindow : List Nat
  coolDownWindow : List Nat
  refresh : RefreshQueue
  stat : Stat
  /-- Number of victim selections made so far. -/
  selections : Nat
  /-- Blocks dropped by an erase that reached the erase limit. -/
  retired : List Nat
  /-- Blocks erased while an active slot still named them. -/
  slotsLost : List Nat
  /-- Units programmed so far, the latest first. -/
  programmed : List Programmed
  /-- Records of all blocks, the latest first. -/
  records : List Record

abbrev FTLM := EStateM Panic State

namespace State

@[simps]
def setBlock (state : State) (blockIndex : Nat) (block : Block) : State :=
  { state with blocks := state.blocks.insert blockIndex block }

@[simps]
def setMapping (state : State) (lpn : Nat) (mapping : Mapping) : State :=
  { state with table := state.table.insert lpn mapping }

@[simps]
def setFree (state : State) (pool : FreePool) (list : FreeList) : State :=
  { state with free := Function.update state.free pool list }

@[simps]
def setActive (state : State) (pool : ActivePool) (slots : ActiveSlots) :
    State :=
  { state with active := Function.update state.active pool slots }

@[simps]
def noteProgrammed (state : State) (unit : Programmed) : State :=
  { state with programmed := unit :: state.programmed }

@[simps]
def note (state : State) (record : Record) : State :=
  { state with records := record :: state.records }

@[simps]
def withStat (state : State) (update : Stat → Stat) : State :=
  { state with stat := update state.stat }

/-- Unit `idx` of a page is valid and stores `lpn`. -/
def Stores (state : State) (blockIndex pageIndex idx lpn : Nat) : Prop :=
  ∃ block, state.blocks.lookup blockIndex = some block ∧
    block.validBits pageIndex idx = true ∧ block.lpns pageIndex idx = lpn

def InUse (state : State) (blockIndex : Nat) : Prop :=
  ∃ block, state.blocks.lookup blockIndex = some block

theorem not_inUse {state : State} {blockIndex : Nat} :
    ¬ state.InUse blockIndex ↔ state.blocks.lookup blockIndex = none := by
  unfold InUse
  cases state.blocks.lookup blockIndex <;> simp

theorem inUse_iff_mem_keys {state : State} {blockIndex : Nat} :
    state.InUse blockIndex ↔ blockIndex ∈ state.blocks.keys := by
  rw [← AList.mem_keys, ← AList.lookup_isSome, Option.isSome_iff_exists]
  rfl

theorem lookup_setBlock (state : State) (blockIndex : Nat) (block : Block)
    (other : Nat) :
    (state.setBlock blockIndex block).blocks.lookup other =
      if other = blockIndex then some block
      else state.blocks.lookup other := by
  split
  · next same =>
      subst same
      exact AList.lookup_insert _
  · next different => exact AList.lookup_insert_ne different

theorem lookup_setMapping (state : State) (lpn : Nat) (mapping : Mapping)
    (other : Nat) :
    (state.setMapping lpn mapping).table.lookup other =
      if other = lpn then some mapping else state.table.lookup other := by
  split
  · next same =>
      subst same
      exact AList.lookup_insert _
  · next different => exact AList.lookup_insert_ne different

theorem stores_congr {state updated : State}
    (same : updated.blocks = state.blocks) :
    updated.Stores = state.Stores := by
  unfold Stores
  rw [same]

theorem inUse_congr {state updated : State}
    (same : updated.blocks = state.blocks) :
    updated.InUse = state.InUse := by
  unfold InUse
  rw [same]

theorem stores_setBlock {state : State} {blockIndex : Nat} {block : Block}
    {other pageIndex idx lpn : Nat} :
    (state.setBlock blockIndex block).Stores other pageIndex idx lpn ↔
      if other = blockIndex then
        block.validBits pageIndex idx = true ∧ block.lpns pageIndex idx = lpn
      else state.Stores other pageIndex idx lpn := by
  unfold Stores
  rw [lookup_setBlock]
  split <;> simp

theorem stores_setBlock_same {state : State} {blockIndex : Nat}
    {block updated : Block}
    (found : state.blocks.lookup blockIndex = some block)
    (sameBits : updated.validBits = block.validBits)
    (sameLpns : updated.lpns = block.lpns) :
    (state.setBlock blockIndex updated).Stores = state.Stores := by
  funext other pageIndex idx lpn
  apply propext
  rw [stores_setBlock]
  split
  · next same =>
      subst same
      simp [Stores, found, sameBits, sameLpns]
  · exact Iff.rfl

/-- A block without valid units stores nothing, before and after it enters or
leaves `blocks`. -/
theorem stores_setBlock_empty {state : State} {blockIndex : Nat}
    {block : Block}
    (nothing : ∀ pageIndex idx lpn, ¬ state.Stores blockIndex pageIndex idx lpn)
    (empty : ∀ pageIndex idx, block.validBits pageIndex idx = false) :
    (state.setBlock blockIndex block).Stores = state.Stores := by
  funext other pageIndex idx lpn
  apply propext
  rw [stores_setBlock]
  split
  · next same =>
      subst same
      simp [empty, nothing]
  · exact Iff.rfl

theorem inUse_setBlock {state : State} {blockIndex other : Nat}
    {block : Block} :
    (state.setBlock blockIndex block).InUse other ↔
      other = blockIndex ∨ state.InUse other := by
  unfold InUse
  rw [lookup_setBlock]
  split
  · next same => simp [same]
  · next different => simp [different]

theorem inUse_setBlock_same {state : State} {blockIndex : Nat}
    {block : Block} (inUse : state.InUse blockIndex) :
    (state.setBlock blockIndex block).InUse = state.InUse := by
  funext other
  apply propext
  rw [inUse_setBlock]
  constructor
  · rintro (rfl | used)
    · exact inUse
    · exact used
  · exact .inr

theorem not_stores_of_not_inUse {state : State} {blockIndex : Nat}
    (absent : ¬ state.InUse blockIndex) (pageIndex idx lpn : Nat) :
    ¬ state.Stores blockIndex pageIndex idx lpn :=
  fun ⟨block, found, _⟩ => absent ⟨block, found⟩

theorem not_stores_of_empty {state : State} {blockIndex : Nat} {block : Block}
    (found : state.blocks.lookup blockIndex = some block)
    (empty : ∀ pageIndex idx, block.validBits pageIndex idx = false)
    (pageIndex idx lpn : Nat) :
    ¬ state.Stores blockIndex pageIndex idx lpn := by
  rintro ⟨other, found', valid, _⟩
  rw [found] at found'
  cases found'
  rw [empty] at valid
  cases valid

end State

section Removal

variable {state updated : State} {blockIndex : Nat}

theorem State.inUse_of_erase
    (erased : updated.blocks = state.blocks.erase blockIndex) (other : Nat) :
    updated.InUse other ↔ other ≠ blockIndex ∧ state.InUse other := by
  unfold State.InUse
  rw [erased]
  by_cases same : other = blockIndex
  · subst same
    simp [AList.lookup_erase]
  · simp [AList.lookup_erase_ne same, same]

theorem State.stores_of_erase
    (erased : updated.blocks = state.blocks.erase blockIndex)
    (nothing : ∀ pageIndex idx lpn,
      ¬ state.Stores blockIndex pageIndex idx lpn) :
    updated.Stores = state.Stores := by
  funext other pageIndex idx lpn
  apply propext
  by_cases same : other = blockIndex
  · subst same
    simp only [nothing, iff_false]
    rintro ⟨block, found, _⟩
    rw [erased, AList.lookup_erase] at found
    cases found
  · unfold State.Stores
    rw [erased, AList.lookup_erase_ne same]

end Removal

def liftExcept (result : Except Panic α) : FTLM α :=
  match result with
  | .ok value => pure value
  | .error panic => throw panic

/-- `blocks.find(blockIndex)->second`, or `missing` when there is no such
block. -/
def findBlock (blockIndex : Nat) (missing : Panic) : FTLM Block := do
  let state ← get
  match state.blocks.lookup blockIndex with
  | some block => pure block
  | none => throw missing

/-- Use of an iterator that must point to a block in use. -/
def blockAt (blockIndex : Nat) : FTLM Block :=
  findBlock blockIndex .invalidIterator

def updateBlock (blockIndex : Nat) (update : Block → Block) : FTLM Unit := do
  let block ← blockAt blockIndex
  modify (·.setBlock blockIndex (update block))

def invalidateUnit (blockIndex pageIndex idx : Nat) : FTLM Unit := do
  let block ← blockAt blockIndex
  let updated ← liftExcept (block.invalidate pageIndex idx)
  modify (·.setBlock blockIndex updated)

def writeUnit (blockIndex pageIndex lpn idx : Nat) : FTLM Unit := do
  let block ← blockAt blockIndex
  let updated ← liftExcept (block.write pageIndex lpn idx)
  modify fun state => (state.setBlock blockIndex updated).noteProgrammed
    ⟨blockIndex, block.eraseCount, pageIndex, idx⟩

/-- `mappingList->second.at(idx) = location`, with `missing` when there is no
mapping list. -/
def remapUnit (lpn idx : Nat) (location : Nat × Nat) (missing : Panic) :
    FTLM Unit := do
  let state ← get
  match state.table.lookup lpn with
  | some mapping =>
      set (state.setMapping lpn (Function.update mapping idx location))
  | none => throw missing

def count (update : Stat → Stat) : FTLM Unit :=
  modify (·.withStat update)

def setRefreshPeriod (cfg : Config) (env : Environment)
    (eraseCount blockNum layerNum : Nat) : FTLM Unit := do
  let state ← get
  let refresh ← liftExcept (state.refresh.setRefreshPeriod cfg env
    state.stat.refreshCallCount eraseCount blockNum layerNum)
  set { state with refresh := refresh }

/-! Runs of the accesses above. -/

section Runs

variable {state : State} {blockIndex pageIndex lpn idx : Nat} {missing : Panic}
  {block updated : Block}

theorem run_findBlock (found : state.blocks.lookup blockIndex = some block) :
    (findBlock blockIndex missing).run state = .ok block state := by
  simp only [findBlock, EStateM.run_bind, EStateM.run_get, found]
  rfl

theorem run_findBlock_none (absent : state.blocks.lookup blockIndex = none) :
    (findBlock blockIndex missing).run state = .error missing state := by
  simp only [findBlock, EStateM.run_bind, EStateM.run_get, absent]
  rfl

theorem run_blockAt (found : state.blocks.lookup blockIndex = some block) :
    (blockAt blockIndex).run state = .ok block state :=
  run_findBlock found

theorem run_updateBlock (found : state.blocks.lookup blockIndex = some block)
    (update : Block → Block) :
    (updateBlock blockIndex update).run state =
      .ok () (state.setBlock blockIndex (update block)) := by
  simp only [updateBlock, EStateM.run_bind, run_blockAt found]
  rfl

theorem run_invalidateUnit
    (found : state.blocks.lookup blockIndex = some block)
    (inside : pageIndex < block.pageCount) :
    (invalidateUnit blockIndex pageIndex idx).run state =
      .ok () (state.setBlock blockIndex { block with
        validBits := Block.setBit block.validBits pageIndex idx false }) := by
  simp only [invalidateUnit, EStateM.run_bind, run_blockAt found,
    Block.invalidate, if_neg (Nat.not_le.mpr inside), liftExcept]
  rfl

theorem run_writeUnit (found : state.blocks.lookup blockIndex = some block)
    (written : block.write pageIndex lpn idx = .ok updated) :
    (writeUnit blockIndex pageIndex lpn idx).run state =
      .ok () ((state.setBlock blockIndex updated).noteProgrammed
        ⟨blockIndex, block.eraseCount, pageIndex, idx⟩) := by
  simp only [writeUnit, EStateM.run_bind, run_blockAt found, written,
    liftExcept]
  rfl

theorem run_writeUnit_error {panic : Panic}
    (found : state.blocks.lookup blockIndex = some block)
    (failed : block.write pageIndex lpn idx = .error panic) :
    (writeUnit blockIndex pageIndex lpn idx).run state =
      .error panic state := by
  simp only [writeUnit, EStateM.run_bind, run_blockAt found, failed,
    liftExcept]
  rfl

theorem run_remapUnit {mapping : Mapping} {location : Nat × Nat}
    (found : state.table.lookup lpn = some mapping) :
    (remapUnit lpn idx location missing).run state = .ok ()
      (state.setMapping lpn (Function.update mapping idx location)) := by
  simp only [remapUnit, EStateM.run_bind, EStateM.run_get, found]
  rfl

theorem run_setRefreshPeriod {cfg : Config} {env : Environment}
    {eraseCount layerNum : Nat} {refresh : RefreshQueue}
    (scheduled : state.refresh.setRefreshPeriod cfg env
      state.stat.refreshCallCount eraseCount blockIndex layerNum =
        .ok refresh) :
    (setRefreshPeriod cfg env eraseCount blockIndex layerNum).run state =
      .ok () { state with refresh := refresh } := by
  simp only [setRefreshPeriod, EStateM.run_bind, EStateM.run_get, scheduled,
    liftExcept]
  rfl

theorem run_setRefreshPeriod_error {cfg : Config} {env : Environment}
    {eraseCount layerNum : Nat} {panic : Panic}
    (failed : state.refresh.setRefreshPeriod cfg env
      state.stat.refreshCallCount eraseCount blockIndex layerNum =
        .error panic) :
    (setRefreshPeriod cfg env eraseCount blockIndex layerNum).run state =
      .error panic state := by
  simp only [setRefreshPeriod, EStateM.run_bind, EStateM.run_get, failed,
    liftExcept]
  rfl

end Runs

end SimpleSSD.FTL
