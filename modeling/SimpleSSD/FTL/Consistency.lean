import SimpleSSD.FTL.Departure
import SimpleSSD.FTL.Lifetime
import Mathlib.Data.Set.Card

namespace SimpleSSD.FTL

open Machine

/-! What holds between operations of every life: each block is at one place, the
table and the valid units determine each other, and the FTL refines a set of
mapped logical units. -/

variable {cfg : Config} {env : Environment} {state : State}

def mappedUnits (cfg : Config) (state : State) : Set (Nat × Nat) :=
  { unit | unit.2 < cfg.bitsetSize ∧ ∃ mapping,
    state.table.lookup unit.1 = some mapping ∧
      IsLocation cfg (mapping unit.2) }

def Consistent (cfg : Config) (state : State) : Prop :=
  Pools cfg state ∧ Maps cfg (.rest (mappedUnits cfg state)) state

theorem Maps.mapped_eq {phase : Phase} (maps : Maps cfg phase state) :
    phase.mapped = mappedUnits cfg state := by
  ext ⟨lpn, idx⟩
  exact maps.mapped_iff lpn idx

theorem Maps.consistent {mapped : Set (Nat × Nat)}
    (maps : Maps cfg (.rest mapped) state) (pools : Pools cfg state) :
    Consistent cfg state := by
  have same : mapped = mappedUnits cfg state := maps.mapped_eq
  exact ⟨pools, same ▸ maps⟩

def raisable : List Panic :=
  [.corruptedFreeBlock, .corruptedHotFreeBlock, .corruptedCoolFreeBlock,
    .corruptedColdFreeBlock, .noFreeBlockLeft, .noFreeColdBlockLeft,
    .emptyFreeList, .coolBlockLost, .trimBlockNotInUse, .formatBlockNotInUse,
    .invalidBlock, .invalidBlockInGC, .noSuchBlock, .validPagesInVictim,
    .danglingPosition, .corruptedLayerCheck, .programOutOfRange] ++ refusals

theorem Cause.raisable {allow : Allowance} {phase : Phase} {raised : Panic}
    (cause : Cause cfg env allow phase state raised) :
    raised ∈ FTL.raisable := by
  cases cause with
  | corrupted pool => cases pool <;> decide
  | unscheduled inside failed =>
      rcases RefreshQueue.setRefreshPeriod_error failed with rfl | rfl <;>
        decide
  | unmapped mapped inside nowhere settled text =>
      rcases text with rfl | rfl <;> decide
  | victimMissing member absent text =>
      rcases text with rfl | rfl | rfl | rfl <;> decide
  | refused allowed member => exact List.mem_append_right _ member
  | _ => decide

theorem Cause.layerCheck {allow : Allowance} {phase : Phase} {raised : Panic}
    (cause : Cause cfg env allow phase state raised)
    (text : raised = .corruptedLayerCheck) :
    ∃ queueNum layerID rest,
      state.refresh.checkedQueues queueNum = layerID :: rest ∧
      state.refresh.insertedLayerCheck layerID = false := by
  cases cause with
  | corruptedLayerCheck allowed front here cleared =>
      exact ⟨_, _, _, front, cleared⟩
  | corrupted pool => cases pool <;> cases text
  | unscheduled inside failed =>
      rcases RefreshQueue.setRefreshPeriod_error failed with rfl | rfl <;>
        cases text
  | unmapped mapped inside nowhere settled other =>
      rcases other with rfl | rfl <;> cases text
  | victimMissing member absent other =>
      rcases other with rfl | rfl | rfl | rfl <;> cases text
  | refused allowed member =>
      subst text
      exact absurd member (by decide)
  | _ => cases text

/-- Between operations a table entry that names a page and a valid unit that
stores the logical page are the same thing, and the panics that report the
opposite cannot be raised. -/
theorem mapping_bijection (cfg : Config) (env : Environment)
    (ops : List Op) :
    match outcome cfg env ops with
    | .ok _ final =>
        (∀ lpn mapping idx, final.table.lookup lpn = some mapping →
          idx < cfg.bitsetSize → IsLocation cfg (mapping idx) →
            final.Stores (mapping idx).1 (mapping idx).2 idx lpn) ∧
        ∀ blockIndex pageIndex idx lpn,
          final.Stores blockIndex pageIndex idx lpn → ∃ mapping,
            final.table.lookup lpn = some mapping ∧
              mapping idx = (blockIndex, pageIndex)
    | .error raised _ =>
        raised ≠ .readBlockNotInUse ∧ raised ≠ .invalidMappingTableEntry ∧
          raised ≠ .invalidMappingInRefresh := by
  have meets := outcome_meets cfg env ops
  cases result : outcome cfg env ops with
  | ok value final =>
      obtain ⟨_, maps⟩ := meets.of_ok result
      refine ⟨?_, ?_⟩
      · intro lpn mapping idx found inside located
        exact maps.backed lpn mapping found idx inside located
          fun waits => waits.elim
      · intro blockIndex pageIndex idx lpn stores
        exact (maps.stored _ _ _ _ stores).2
  | error raised stopped =>
      obtain ⟨phase, state, cause⟩ := meets.of_error result
      have possible := cause.raisable
      refine ⟨?_, ?_, ?_⟩ <;> rintro rfl <;> revert possible <;> decide

/-- Every block is at exactly one place: in a free list, in `blocks` under its
own index, or retired.  The hand-kept counters agree with the lists, and the
pools stay on their sides of the limit. -/
theorem block_conservation (cfg : Config) (env : Environment)
    (ops : List Op) :
    match outcome cfg env ops with
    | .ok _ final =>
        (homes final).Perm (List.range cfg.totalPhysicalBlocks) ∧
        (∀ blockIndex block, final.blocks.lookup blockIndex = some block →
          block.idx = blockIndex) ∧
        (cfg.hotColdSeparation = false →
          (final.free .plain).count = (final.free .plain).blocks.length ∧
          (final.free .hot).blocks = [] ∧ (final.free .cold).blocks = []) ∧
        (cfg.hotColdSeparation = true →
          (final.free .plain).blocks = [] ∧
          (final.free .hot).count = (final.free .hot).blocks.length ∧
          (final.free .cold).count = (final.free .cold).blocks.length ∧
          (∀ block ∈ (final.free .hot).blocks,
            block.idx < cfg.hotBlocksLimit) ∧
          (∀ block ∈ (final.free .cold).blocks,
            cfg.hotBlocksLimit ≤ block.idx) ∧
          ∀ blockIndex block, final.blocks.lookup blockIndex = some block →
            if block.blockType = .hot then blockIndex < cfg.hotBlocksLimit
            else cfg.hotBlocksLimit ≤ blockIndex)
    | .error _ _ => True := by
  have meets := outcome_meets cfg env ops
  cases result : outcome cfg env ops with
  | error raised stopped => trivial
  | ok value final =>
      obtain ⟨pools, _⟩ := meets.of_ok result
      have unheld : ∀ pool, (∀ blockIndex, ¬ FreePool.Holds cfg pool blockIndex) →
          (final.free pool).blocks = [] := by
        intro pool never
        apply List.eq_nil_iff_forall_not_mem.mpr
        intro block member
        exact never _ (pools.housed pool block member)
      refine ⟨pools.homes_perm, pools.idx_eq, ?_, ?_⟩
      · intro plain
        refine ⟨pools.counted .plain (by simp [freePools, plain]),
          unheld .hot ?_, unheld .cold ?_⟩
        · simp [FreePool.Holds, plain]
        · simp [FreePool.Holds, plain]
      · intro separated
        refine ⟨unheld .plain (by simp [FreePool.Holds, separated]),
          pools.counted .hot (by simp [freePools, separated]),
          pools.counted .cold (by simp [freePools, separated]),
          fun block member => (pools.housed .hot block member).2,
          fun block member => (pools.housed .cold block member).2, ?_⟩
        intro blockIndex block found
        have region := pools.typed separated _ _ found
        cases kind : block.blockType <;> simpa [kind, Region] using region

/-! The number of valid units is the number of mapped units. -/

def validUnits (state : State) : Nat :=
  (state.blocks.entries.map fun entry => entry.2.getValidPageCountRaw).sum

def Block.validLocations (block : Block) : List (Nat × Nat) :=
  (List.range block.pageCount).flatMap fun page =>
    ((List.range block.ioUnitInPage).filter (block.validBits page)).map
      fun unit => (page, unit)

def validLocations (state : State) : List (Nat × Nat × Nat) :=
  state.blocks.entries.flatMap fun entry =>
    entry.2.validLocations.map fun location => (entry.1, location)

theorem Block.length_validLocations (block : Block) :
    block.validLocations.length = block.getValidPageCountRaw := by
  unfold Block.validLocations Block.getValidPageCountRaw
  simp only [List.length_flatMap, List.length_map, List.countP_eq_length_filter]

theorem length_validLocations (state : State) :
    (validLocations state).length = validUnits state := by
  unfold validLocations validUnits
  simp only [List.length_flatMap, List.length_map,
    Block.length_validLocations]

theorem Block.mem_validLocations {block : Block} {page unit : Nat} :
    (page, unit) ∈ block.validLocations ↔ page < block.pageCount ∧
      unit < block.ioUnitInPage ∧ block.validBits page unit = true := by
  simp only [Block.validLocations, List.mem_flatMap, List.mem_range,
    List.mem_map, List.mem_filter, Prod.mk.injEq]
  constructor
  · rintro ⟨_, pageInside, _, ⟨unitInside, valid⟩, rfl, rfl⟩
    exact ⟨pageInside, unitInside, valid⟩
  · rintro ⟨pageInside, unitInside, valid⟩
    exact ⟨page, pageInside, unit, ⟨unitInside, valid⟩, rfl, rfl⟩

theorem Block.nodup_validLocations (block : Block) :
    block.validLocations.Nodup := by
  unfold Block.validLocations
  refine List.nodup_flatMap.mpr ⟨?_, ?_⟩
  · intro page _
    refine (List.nodup_range.filter _).map ?_
    intro left right same
    cases same
    rfl
  · refine List.nodup_range.imp ?_
    intro left right different location inLeft inRight
    obtain ⟨_, _, rfl⟩ := List.mem_map.mp inLeft
    obtain ⟨_, _, same⟩ := List.mem_map.mp inRight
    cases same
    exact different rfl

theorem mem_validLocations (pools : Pools cfg state)
    {blockIndex page unit : Nat} :
    (blockIndex, page, unit) ∈ validLocations state ↔
      ∃ lpn, state.Stores blockIndex page unit lpn := by
  have entries : ∀ block : Block, ⟨blockIndex, block⟩ ∈ state.blocks.entries ↔
      state.blocks.lookup blockIndex = some block := fun block =>
    (List.mem_dlookup_iff state.blocks.nodupKeys).symm
  simp only [validLocations, List.mem_flatMap, List.mem_map, Prod.mk.injEq]
  constructor
  · rintro ⟨⟨_, block⟩, listed, location, member, rfl, rfl⟩
    exact ⟨_, block, (entries block).mp listed,
      (Block.mem_validLocations.mp member).2.2, rfl⟩
  · rintro ⟨lpn, block, found, valid, _⟩
    have wellFormed := pools.wellFormed _ _ found
    refine ⟨⟨blockIndex, block⟩, (entries block).mpr found, (page, unit),
      Block.mem_validLocations.mpr ⟨?_, ?_, valid⟩, rfl, rfl⟩
    · rw [wellFormed.pageCount_eq]
      exact Nat.lt_of_lt_of_le (wellFormed.valid_lt _ _ valid)
        (wellFormed.nextWritePage_le unit)
    · rw [wellFormed.ioUnitInPage_eq]
      exact Nat.lt_of_lt_of_le (wellFormed.valid_unit _ _ valid)
        (bitsetSize_le cfg)

theorem nodup_validLocations (state : State) :
    (validLocations state).Nodup := by
  unfold validLocations
  refine List.nodup_flatMap.mpr ⟨?_, ?_⟩
  · intro entry _
    refine entry.2.nodup_validLocations.map ?_
    intro left right same
    cases same
    rfl
  · have keys : state.blocks.entries.Pairwise fun left right =>
        left.1 ≠ right.1 := List.pairwise_map.mp state.blocks.keys_nodup
    refine keys.imp ?_
    intro left right different location inLeft inRight
    obtain ⟨_, _, rfl⟩ := List.mem_map.mp inLeft
    obtain ⟨_, _, same⟩ := List.mem_map.mp inRight
    exact different (Prod.mk.inj same).1.symm

def unitAt (state : State) (location : Nat × Nat × Nat) : Nat × Nat :=
  match state.blocks.lookup location.1 with
  | some block => (block.lpns location.2.1 location.2.2, location.2.2)
  | none => (0, 0)

theorem unitAt_eq {blockIndex page unit lpn : Nat}
    (stores : state.Stores blockIndex page unit lpn) :
    unitAt state (blockIndex, page, unit) = (lpn, unit) := by
  obtain ⟨block, found, _, rfl⟩ := stores
  simp [unitAt, found]

theorem validUnits_eq (consistent : Consistent cfg state) :
    validUnits state = (mappedUnits cfg state).ncard := by
  obtain ⟨pools, maps⟩ := consistent
  have image : Set.image (unitAt state)
      { location | location ∈ validLocations state } =
        mappedUnits cfg state := by
    ext ⟨lpn, idx⟩
    constructor
    · rintro ⟨⟨blockIndex, page, unit⟩, member, same⟩
      obtain ⟨stored, stores⟩ := (mem_validLocations pools).mp member
      rw [unitAt_eq stores] at same
      cases same
      obtain ⟨_, mapping, found, located⟩ := maps.stored _ _ _ _ stores
      obtain ⟨location, inside⟩ := pools.stores_inside stores
      exact ⟨inside, mapping, found, located ▸ location⟩
    · rintro ⟨inside, mapping, found, located⟩
      have stores := maps.backed lpn mapping found idx inside located
        fun waits => waits.elim
      exact ⟨_, (mem_validLocations pools).mpr ⟨lpn, stores⟩,
        unitAt_eq stores⟩
  have injective : Set.InjOn (unitAt state)
      { location | location ∈ validLocations state } := by
    rintro ⟨blockIndex, page, unit⟩ member ⟨other, page', unit'⟩ member' same
    obtain ⟨lpn, stores⟩ := (mem_validLocations pools).mp member
    obtain ⟨lpn', stores'⟩ := (mem_validLocations pools).mp member'
    rw [unitAt_eq stores, unitAt_eq stores'] at same
    cases same
    obtain ⟨_, mapping, found, located⟩ := maps.stored _ _ _ _ stores
    obtain ⟨_, mapping', found', located'⟩ := maps.stored _ _ _ _ stores'
    rw [found] at found'
    cases found'
    rw [located] at located'
    cases located'
    rfl
  calc validUnits state
      = (validLocations state).length := (length_validLocations state).symm
    _ = (validLocations state).toFinset.card :=
        (List.toFinset_card_of_nodup (nodup_validLocations state)).symm
    _ = { location | location ∈ validLocations state }.ncard := by
        rw [← Set.ncard_coe_finset, List.coe_toFinset]
    _ = (mappedUnits cfg state).ncard := by
        rw [← image, injective.ncard_image]

/-! A collection and a refresh are invisible in the set of mapped units. -/

/-- A program that returns to rest with the same units mapped. -/
theorem invisible_of_follows (env : Environment) {program : FTLM Unit}
    (post : State → Prop) (consistent : Consistent cfg state)
    (follows : (machine cfg env .all).Follows program
      (.rest (mappedUnits cfg state)) state fun _ last final =>
        last = .rest (mappedUnits cfg state) ∧ post final) :
    match program.run state with
    | .ok _ final => Consistent cfg final ∧
        mappedUnits cfg final = mappedUnits cfg state ∧
        validUnits final = validUnits state ∧ post final
    | .error _ _ => True := by
  have meets := follows.meets (machine_trivial cfg env .all) consistent trivial
  cases result : program.run state with
  | error raised stopped => trivial
  | ok value final =>
      obtain ⟨_, ⟨pools, maps⟩, _, rfl, holds⟩ := meets.of_ok result
      have after := maps.consistent pools
      have same : mappedUnits cfg final = mappedUnits cfg state :=
        maps.mapped_eq.symm
      refine ⟨after, same, ?_, holds⟩
      rw [validUnits_eq after, validUnits_eq consistent, same]

/-- The FTL refines a set of mapped logical units: writes insert the units they
touch, unless the request is empty, trims remove those of their page, and
nothing else changes the set.  Every collection call and every refresh, from
any consistent state, leaves the set and the number of valid units as they are.
The victims of a collection have left `blocks`; with separation on a victim may
have been taken up again, empty, by the slot repair of a later erase of the same
call. -/
theorem refines_mapped_units (cfg : Config) (env : Environment) :
    (∀ ops, match outcome cfg env ops with
      | .ok _ final => Consistent cfg final ∧
          mappedUnits cfg final = ops.foldl (Op.effect cfg env) ∅
      | .error _ _ => True) ∧
    (cfg.hotColdSeparation = false → ∀ state isRefresh victims,
      Consistent cfg state →
        match (doGarbageCollection cfg env isRefresh victims).run state with
        | .ok _ final => Consistent cfg final ∧
            mappedUnits cfg final = mappedUnits cfg state ∧
            validUnits final = validUnits state ∧
            ∀ victim ∈ victims, final.blocks.lookup victim = none
        | .error _ _ => True) ∧
    (cfg.hotColdSeparation = true → ∀ state isRefresh gcType victims,
      Consistent cfg state →
        match (sepDoGarbageCollection cfg env isRefresh gcType victims).run
          state with
        | .ok _ final => Consistent cfg final ∧
            mappedUnits cfg final = mappedUnits cfg state ∧
            validUnits final = validUnits state ∧
            VictimsDepart cfg env isRefresh gcType victims state final
        | .error _ _ => True) ∧
    ∀ state queueNum, Consistent cfg state →
      match (refreshPage cfg env queueNum).run state with
      | .ok _ final => Consistent cfg final ∧
          mappedUnits cfg final = mappedUnits cfg state ∧
          validUnits final = validUnits state
      | .error _ _ => True := by
  refine ⟨?_, ?_, ?_, ?_⟩
  · intro ops
    have meets := outcome_meets cfg env ops
    cases result : outcome cfg env ops with
    | error raised stopped => trivial
    | ok value final =>
        obtain ⟨pools, maps⟩ := meets.of_ok result
        exact ⟨maps.consistent pools, maps.mapped_eq.symm⟩
  · intro plain state isRefresh victims consistent
    apply invisible_of_follows env _ consistent
    refine Follows.before (.collect (Phase.rest_settled _) rfl victims
      (.inl trivial)) ?_
    refine Follows.mono (doGarbageCollection_follows isRefresh plain
      (.inl trivial)
      (Phase.settled_collecting _ victims) rfl) ?_
    rintro _ _ final _ _ ⟨rfl, vacant⟩
    refine ⟨rfl, ?_⟩
    intro victim member
    cases found : final.blocks.lookup victim with
    | none => rfl
    | some block =>
        have separated := (vacant victim member block found).1
        rw [plain] at separated
        cases separated
  · intro separated state isRefresh gcType victims consistent
    have invisible := invisible_of_follows env
      (fun final => ∀ victim ∈ victims, Vacant cfg final victim) consistent
      (Follows.before (.collect (Phase.rest_settled _) rfl victims
        (.inl trivial)) (sepDoGarbageCollection_follows isRefresh gcType
          separated (.inl trivial) (Phase.settled_collecting _ victims) rfl))
    cases result : (sepDoGarbageCollection cfg env isRefresh gcType
        victims).run state with
    | error raised stopped => trivial
    | ok value final =>
        rw [result] at invisible
        obtain ⟨after, mapped, valid, vacant⟩ := invisible
        refine ⟨after, mapped, valid, sepDoGarbageCollection_departs result ?_⟩
        exact fun victim member block found =>
          (vacant victim member block found).2
  · intro state queueNum consistent
    have invisible := invisible_of_follows env (fun _ => True) consistent
      ((refreshPage_follows queueNum trivial trivial).mono
        fun _ _ _ _ _ same => ⟨same, trivial⟩)
    cases result : (refreshPage cfg env queueNum).run state with
    | error raised stopped => trivial
    | ok value final =>
        rw [result] at invisible
        exact ⟨invisible.1, invisible.2.1, invisible.2.2.1⟩

/-! A small device for concrete runs; the parameters that a run does not change
have the values of the configuration files. -/

def sampleConfig : Config where
  totalPhysicalBlocks := 4
  pagesInBlock := 512
  ioUnitInPage := 1
  pageCountToMaxPerf := 1
  ioUnitInPage_pos := by decide
  pageCountToMaxPerf_pos := by decide
  hotColdSeparation := false
  bRandomTweak := false
  initEraseCount := 0
  hotBlocksLimit := 2
  hotBlocksLimit_le := by decide
  nCooldownBlocks := 64
  badBlockThreshold := 100000
  gcMode := .mode0
  reclaimBlock := 1
  evictPolicy := .greedy
  dChoiceParam := 3
  refreshFilterNum := 10
  refreshMode := 0
  refreshMaxLayerNum := 100000
  refreshGroupingSize := 3
  refreshMaxRBER := 1
  fillingMode := .mode0
  nPagesToWarmup := 0
  nPagesToInvalidate := 0
  coldWarmup := 0

def separatedConfig : Config :=
  { sampleConfig with
    totalPhysicalBlocks := 8
    hotBlocksLimit_le := by decide
    hotColdSeparation := true }

/-- No errors, enough free blocks, and `blocks` iterated in ascending order. -/
def sampleEnvironment : Environment where
  getRBER := fun _ _ _ _ => 0
  belowGCThreshold := fun _ _ => false
  reclaimTarget := fun _ _ => 0
  victimRank := fun _ _ => 0
  iterate := fun _ keys => keys.insertionSort (· ≤ ·)
  iterate_perm := fun _ _ => List.perm_insertionSort _ _
  sample := fun _ weights => weights
  sample_perm := fun _ _ => List.Perm.refl _
  randomLPN := fun _ => 0

def returns (result : EStateM.Result Panic State Unit)
    (test : State → Bool) : Bool :=
  match result with
  | .ok _ final => test final
  | .error _ _ => false

theorem returns_iff {result : EStateM.Result Panic State Unit}
    {test : State → Bool} :
    returns result test = true ↔
      ∃ final, result = .ok () final ∧ test final = true := by
  cases result with
  | ok value final => simp [returns]
  | error raised stopped => simp [returns]

def stops (result : EStateM.Result Panic State Unit) : Option Panic :=
  match result with
  | .ok _ _ => none
  | .error raised _ => some raised

def writePage (lpn : Nat) : Op := .write lpn IOFlag.all

def repairConfig : Config :=
  { sampleConfig with
    totalPhysicalBlocks := 14
    pagesInBlock := 1
    pageCountToMaxPerf := 2
    pageCountToMaxPerf_pos := by decide
    hotColdSeparation := true
    hotBlocksLimit := 6
    hotBlocksLimit_le := by decide
    refreshMode := 4 }

/-- `GCThreshold` 0.66: the free blocks against the blocks of the pool. -/
def repairEnvironment : Environment :=
  { sampleEnvironment with
    belowGCThreshold := fun pool freeBlocks =>
      match pool with
      | .plain => 100 * freeBlocks < 66 * 14
      | .hot => 100 * freeBlocks < 66 * 6
      | .cold => 100 * freeBlocks < 66 * 8 }

/-- The victims of the cold collection after some operations, and whether the
given block is in use after it. -/
def victimInUse (cfg : Config) (env : Environment) (ops : List Op)
    (blockIndex : Nat) : Option (List Nat × Bool) :=
  match outcome cfg env ops with
  | .error _ _ => none
  | .ok _ state =>
      match (selectColdVictimBlock cfg env).run state with
      | .error _ _ => none
      | .ok victims selected =>
          match (sepDoGarbageCollection cfg env true .cold victims).run
            selected with
          | .error _ _ => none
          | .ok _ final =>
              some (victims, (final.blocks.lookup blockIndex).isSome)

/-- The first collection of a refresh erases blocks 13 and 11 and puts block 13
back into use, and an empty write of an unmapped page maps nothing. -/
theorem victim_taken_up_again :
    victimInUse repairConfig repairEnvironment
        [.initializeFTL, writePage 0, writePage 1, writePage 2, writePage 0,
          .trim 1] 13 = some ([13, 11], true) ∧
      returns (outcome sampleConfig sampleEnvironment
        [.initializeFTL, .write 0 fun _ => false])
        (fun final => (final.table.lookup 0).isNone) = true := by
  decide +kernel

end SimpleSSD.FTL
