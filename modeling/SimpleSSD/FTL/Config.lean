import Mathlib.Algebra.BigOperators.Group.List.Basic
import Mathlib.Algebra.Ring.Nat
import Mathlib.Data.List.Perm.Basic
import Mathlib.Data.Rat.Init

namespace SimpleSSD.FTL

/-! Geometry and configuration of the page-mapping FTL, and the parts of its
surroundings that the source computes in floating point or draws at random. -/

/-- Text of every `panic` the FTL can raise, and after them the ways in which
the source leaves defined behaviour. -/
inductive Panic where
  | indexOutOfRange
  | noFreeBlockLeft
  | noFreeColdBlockLeft
  | corruptedFreeList
  | hotAlreadyInBlockList
  | coldAlreadyInBlockList
  | corruptedFreeBlock
  | corruptedHotFreeBlock
  | corruptedCoolFreeBlock
  | corruptedColdFreeBlock
  | coolBlockLost
  | invalidBlock
  | invalidBlockInGC
  | invalidMappingTableEntry
  | invalidMappingInRefresh
  | corruptedLayerCheck
  | readBlockNotInUse
  | trimBlockNotInUse
  | formatBlockNotInUse
  | noSuchBlock
  | validPagesInVictim
  | gcInInitialization
  | gcInInitializationByCold
  | gcInInitializationByHot
  | coldGCInHotFilling
  | hotGCInHotFilling
  | coolOrColdBlock
  | invalidGCMode
  | invalidEvictPolicy
  | invalidColdEvictPolicy
  | ioMapSizeMismatch
  | writeNotSequential
  | writeToNonErasedPage
  /-- An end, uninitialised or erased iterator is used. -/
  | invalidIterator
  /-- A vector or bitmap is indexed past its end. -/
  | outOfRange
  /-- `Block::write` past the last page. -/
  | programOutOfRange
  | divisionByZero
  /-- The reverse search of an erase starts on an empty free list. -/
  | emptyFreeList
  /-- The insertion position of an erase was taken out of the list. -/
  | danglingPosition
  /-- Random victim sampling can never collect the requested number. -/
  | endlessSampling
  deriving DecidableEq, Repr

def Panic.message : Panic → String
  | .indexOutOfRange => "Index out of range"
  | .noFreeBlockLeft => "No free block left"
  | .noFreeColdBlockLeft => "No free cold block left"
  | .corruptedFreeList | .corruptedFreeBlock | .corruptedHotFreeBlock
  | .corruptedCoolFreeBlock | .corruptedColdFreeBlock => "Corrupted"
  | .hotAlreadyInBlockList => "Get hot free block - already in block list"
  | .coldAlreadyInBlockList => "Get cold free block - already in block list"
  | .coolBlockLost => "Corrupted. cool block lost"
  | .invalidBlock => "Invalid block"
  | .invalidBlockInGC => "Invalid block occured in GC"
  | .invalidMappingTableEntry => "Invalid mapping table entry"
  | .invalidMappingInRefresh =>
      "Invalid mapping table entry, refresh failed"
  | .corruptedLayerCheck =>
      "Corrupted layer check bitmap, refresh failed. Layer ID : %u"
  | .readBlockNotInUse | .trimBlockNotInUse | .formatBlockNotInUse =>
      "Block is not in use"
  | .noSuchBlock => "No such block"
  | .validPagesInVictim => "There are valid pages in victim block"
  | .gcInInitialization => "ftl: GC triggered while in initialization"
  | .gcInInitializationByCold =>
      "ftl: GC triggered while in initialization by cold"
  | .gcInInitializationByHot =>
      "ftl: GC triggered while in initialization by hot"
  | .coldGCInHotFilling => "ftl: Cold GC triggered while in hot block filling"
  | .hotGCInHotFilling => "ftl: Hot GC triggered while in hot block filling"
  | .coolOrColdBlock => "It cannot be cool or cold block"
  | .invalidGCMode => "Invalid GC mode"
  | .invalidEvictPolicy => "Invalid evict policy"
  | .invalidColdEvictPolicy => "Invalid cold victim evict policy"
  | .ioMapSizeMismatch => "I/O map size mismatch"
  | .writeNotSequential => "Write to block should sequential"
  | .writeToNonErasedPage => "Write to non erased page"
  | .invalidIterator | .outOfRange | .programOutOfRange | .divisionByZero
  | .emptyFreeList | .danglingPosition | .endlessSampling => ""

/-- `FTL::Parameter`; the two bounds are what `FTL::FTL` and the `Block`
constructor guarantee. -/
structure Parameter where
  totalPhysicalBlocks : Nat
  pagesInBlock : Nat
  ioUnitInPage : Nat
  pageCountToMaxPerf : Nat
  ioUnitInPage_pos : 0 < ioUnitInPage
  pageCountToMaxPerf_pos : 0 < pageCountToMaxPerf

inductive FreePool where
  | plain
  | hot
  | cold
  deriving DecidableEq, Repr

/-- The arrays of blocks being filled: `lastFreeBlock`, `lastHotFreeBlock`,
`lastCoolFreeBlock` and `lastColdFreeBlock`. -/
inductive ActivePool where
  | plain
  | hot
  | cool
  | cold
  deriving DecidableEq, Repr

inductive GCMode where
  | mode0
  | mode1
  | invalid
  deriving DecidableEq, Repr

inductive EvictPolicy where
  | greedy
  | costBenefit
  | random
  | dChoice
  | reco
  | invalid
  deriving DecidableEq, Repr

inductive FillingMode where
  | mode0
  | mode1
  | mode2
  deriving DecidableEq, Repr

structure Config extends Parameter where
  hotColdSeparation : Bool
  bRandomTweak : Bool
  initEraseCount : Nat
  /-- `nFreeBlocks * FTL_HOT_BLOCK_RATIO`, a ratio of the blocks. -/
  hotBlocksLimit : Nat
  hotBlocksLimit_le : hotBlocksLimit ≤ totalPhysicalBlocks
  nCooldownBlocks : Nat
  badBlockThreshold : Nat
  gcMode : GCMode
  reclaimBlock : Nat
  evictPolicy : EvictPolicy
  dChoiceParam : Nat
  refreshFilterNum : Nat
  refreshMode : Nat
  refreshMaxLayerNum : Nat
  refreshGroupingSize : Nat
  refreshMaxRBER : Rat
  fillingMode : FillingMode
  nPagesToWarmup : Nat
  nPagesToInvalidate : Nat
  /-- `nPagesToWarmup * coldRatio`. -/
  coldWarmup : Nat

def Config.bitsetSize (cfg : Config) : Nat :=
  if cfg.bRandomTweak then cfg.ioUnitInPage else 1

/-- What the FTL asks of floating-point arithmetic, of hash-table iteration and
of random sources.  The first argument of a drawn quantity numbers the draw. -/
structure Environment where
  /-- Result of the numbered call of `ErrorModeling::getRBER`. -/
  getRBER : Nat → (retentionTime eraseCount layer : Nat) → Rat
  /-- Whether the free-block ratio of a pool is below `gcThreshold`. -/
  belowGCThreshold : FreePool → (freeBlocks : Nat) → Bool
  /-- Number of blocks to reclaim in `GC_MODE_1`. -/
  reclaimTarget : FreePool → (freeBlocks : Nat) → Nat
  /-- Rank of a block under a floating-point weight. -/
  victimRank : Nat → (blockIndex : Nat) → Nat
  /-- Order in which `blocks` is iterated. -/
  iterate : Nat → List Nat → List Nat
  iterate_perm : ∀ draw keys, (iterate draw keys).Perm keys
  /-- Order in which random sampling meets the candidates. -/
  sample : Nat → List (Nat × Nat) → List (Nat × Nat)
  sample_perm : ∀ draw weights, (sample draw weights).Perm weights
  /-- Logical page drawn by the random steps of `initialize`. -/
  randomLPN : Nat → Nat

/-- A request's `ioFlag`: the bits below `ioUnitInPage` are meaningful. -/
abbrev IOFlag := Nat → Bool

namespace IOFlag

def any (size : Nat) (flag : IOFlag) : Bool :=
  (List.range size).any flag

def count (size : Nat) (flag : IOFlag) : Nat :=
  (List.range size).countP flag

def all : IOFlag := fun _ => true

def inter (left right : IOFlag) : IOFlag := fun unit => left unit && right unit

def union (left right : IOFlag) : IOFlag := fun unit => left unit || right unit

theorem any_eq_true {size : Nat} {flag : IOFlag} :
    flag.any size = true ↔ ∃ unit < size, flag unit = true := by
  simp [any]

theorem any_eq_false {size : Nat} {flag : IOFlag} :
    flag.any size = false ↔ ∀ unit < size, flag unit = false := by
  simp [any]

end IOFlag

end SimpleSSD.FTL
