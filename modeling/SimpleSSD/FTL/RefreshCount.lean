import SimpleSSD.FTL.Consistency
import SimpleSSD.FTL.Custody

namespace SimpleSSD.FTL

open Program

/-! The refresh counter of a block against the units that `refreshPage` moved
out of it.  Only `getFreeBlock` resets the counter. -/

/-- Units that `refreshPage` moved out of a block since it last left a free
list. -/
def State.movedOut (state : State) (blockIndex : Nat) : Nat :=
  (state.records.takeWhile (· ≠ .taken blockIndex)).count
    (.refreshed blockIndex)

/-- Units that `refreshPage` had moved out of a block before that. -/
def State.carried (state : State) (blockIndex : Nat) : Nat :=
  (state.records.dropWhile (· ≠ .taken blockIndex)).count
    (.refreshed blockIndex)

def RefreshCountExact (state : State) : Prop :=
  ∀ blockIndex block, state.blocks.lookup blockIndex = some block →
    block.refreshedPageCount = state.movedOut blockIndex

/-- Separation is off, or no block was taken again after a refresh had moved
units out of it. -/
def NothingCarried (cfg : Config) (state : State) : Prop :=
  cfg.hotColdSeparation = false ∨
    ∀ blockIndex, state.InUse blockIndex → state.carried blockIndex = 0

/-- The counter of a block is what the separation makes of the records. -/
structure Counted (cfg : Config) (state : State) : Prop where
  unused : ∀ pool, pool ∉ freePools cfg → (state.free pool).blocks = []
  off : cfg.hotColdSeparation = false → RefreshCountExact state
  inUse : cfg.hotColdSeparation = true → ∀ blockIndex block,
    state.blocks.lookup blockIndex = some block →
      block.refreshedPageCount = state.records.count (.refreshed blockIndex)
  resting : cfg.hotColdSeparation = true → ∀ pool,
    ∀ block ∈ (state.free pool).blocks,
      block.refreshedPageCount = state.records.count (.refreshed block.idx)

section Counted

variable {cfg : Config} {state updated : State}

theorem movedOut_add_carried (state : State) (blockIndex : Nat) :
    state.movedOut blockIndex + state.carried blockIndex =
      state.records.count (.refreshed blockIndex) := by
  unfold State.movedOut State.carried
  rw [← List.count_append, List.takeWhile_append_dropWhile]

theorem movedOut_refreshed
    (noted : updated.records = .refreshed source :: state.records)
    (blockIndex : Nat) :
    updated.movedOut blockIndex =
      state.movedOut blockIndex + if blockIndex = source then 1 else 0 := by
  unfold State.movedOut
  rw [noted, List.takeWhile_cons_of_pos (by simp), List.count_cons]
  by_cases same : blockIndex = source
  · subst same
    simp
  · simp [same, Ne.symm same]

theorem movedOut_taken
    (noted : updated.records = .taken taken :: state.records)
    (blockIndex : Nat) :
    updated.movedOut blockIndex =
      if blockIndex = taken then 0 else state.movedOut blockIndex := by
  unfold State.movedOut
  rw [noted]
  split
  · next same =>
      subst same
      rw [List.takeWhile_cons_of_neg (by simp)]
      rfl
  · next different =>
      rw [List.takeWhile_cons_of_pos (by simpa using Ne.symm different)]
      simp

theorem movedOut_congr (records_eq : updated.records = state.records) :
    updated.movedOut = state.movedOut := by
  unfold State.movedOut
  rw [records_eq]

theorem Counted.of_versions (counted : Counted cfg state)
    (records_eq : updated.records = state.records)
    (free_eq : updated.free = state.free)
    (version : ∀ blockIndex later, updated.blocks.lookup blockIndex = some later →
      ∃ block, state.blocks.lookup blockIndex = some block ∧
        later.refreshedPageCount = block.refreshedPageCount) :
    Counted cfg updated where
  unused := by
    rw [free_eq]
    exact counted.unused
  off := by
    intro off blockIndex later lookup
    obtain ⟨block, found, same⟩ := version blockIndex later lookup
    rw [movedOut_congr records_eq, same]
    exact counted.off off blockIndex block found
  inUse := by
    intro on blockIndex later lookup
    obtain ⟨block, found, same⟩ := version blockIndex later lookup
    rw [records_eq, same]
    exact counted.inUse on blockIndex block found
  resting := by
    rw [free_eq, records_eq]
    exact counted.resting

theorem Counted.touch (counted : Counted cfg state) {blockIndex : Nat}
    {block version : Block}
    (found : state.blocks.lookup blockIndex = some block)
    (same : version.refreshedPageCount = block.refreshedPageCount) :
    Counted cfg (state.setBlock blockIndex version) := by
  refine counted.of_versions rfl rfl ?_
  intro other later lookup
  rw [State.lookup_setBlock] at lookup
  split at lookup
  · next here =>
      cases lookup
      exact ⟨block, here ▸ found, same⟩
  · exact ⟨later, lookup, rfl⟩

theorem Counted.drop (counted : Counted cfg state) (victim : Nat) :
    Counted cfg (state.drop victim) := by
  refine counted.of_versions rfl rfl ?_
  intro other later lookup
  by_cases same : other = victim
  · subst same
    rw [State.drop, AList.lookup_erase] at lookup
    cases lookup
  · rw [State.drop, AList.lookup_erase_ne same] at lookup
    exact ⟨later, lookup, rfl⟩

/-- One unit moves out of a block in use. -/
theorem Counted.refresh (housed : Housed state) (counted : Counted cfg state)
    {source : Nat} {block : Block}
    (found : state.blocks.lookup source = some block) :
    Counted cfg ((state.setBlock source { block with
      refreshedPageCount := block.refreshedPageCount + 1 }).note
        (.refreshed source)) where
  unused := counted.unused
  off := by
    intro off blockIndex later lookup
    change (state.setBlock source _).blocks.lookup blockIndex = _ at lookup
    rw [movedOut_refreshed rfl]
    rw [State.lookup_setBlock] at lookup
    change later.refreshedPageCount = state.movedOut blockIndex + _
    split at lookup
    · next same =>
        cases lookup
        rw [if_pos same, same, ← counted.off off source block found]
    · next different =>
        rw [if_neg different]
        exact counted.off off blockIndex later lookup
  inUse := by
    intro on blockIndex later lookup
    change (state.setBlock source _).blocks.lookup blockIndex = _ at lookup
    rw [State.lookup_setBlock] at lookup
    change later.refreshedPageCount = (Record.refreshed source ::
      state.records).count (.refreshed blockIndex)
    rw [List.count_cons]
    split at lookup
    · next same =>
        cases lookup
        subst same
        rw [← counted.inUse on blockIndex block found]
        simp
    · next different =>
        rw [counted.inUse on blockIndex later lookup]
        simp [Ne.symm different]
  resting := by
    intro on pool other member
    have different : other.idx ≠ source := by
      intro same
      have absent := housed.absent member
      rw [same, found] at absent
      cases absent
    change other.refreshedPageCount = (Record.refreshed source ::
      state.records).count (.refreshed other.idx)
    rw [List.count_cons, counted.resting on pool other member]
    simp [Ne.symm different]

theorem mem_freePools_of_mem (counted : Counted cfg state) {pool : FreePool}
    {block : Block} (member : block ∈ (state.free pool).blocks) :
    pool ∈ freePools cfg := by
  by_contra outside
  rw [counted.unused pool outside] at member
  cases member

theorem Counted.take (counted : Counted cfg state) {pool : FreePool}
    {block version : Block} (member : block ∈ (state.free pool).blocks)
    (same : version.refreshedPageCount =
      if pool = .plain then 0 else block.refreshedPageCount) :
    Counted cfg (state.take pool block version) where
  unused := by
    intro other outside
    have different : other ≠ pool :=
      fun equality => outside (equality ▸ mem_freePools_of_mem counted member)
    change (Function.update state.free pool _ other).blocks = []
    rw [Function.update_of_ne different]
    exact counted.unused other outside
  off := by
    intro off blockIndex later lookup
    have plain : pool = .plain := by
      have used := mem_freePools_of_mem counted member
      simpa [freePools, off] using used
    change (state.setBlock block.idx version).blocks.lookup blockIndex = _
      at lookup
    rw [movedOut_taken rfl]
    change later.refreshedPageCount = if blockIndex = block.idx then 0
      else state.movedOut blockIndex
    rw [State.lookup_setBlock] at lookup
    split at lookup
    · next here =>
        cases lookup
        rw [if_pos here, same, if_pos plain]
    · next different =>
        rw [if_neg different]
        exact counted.off off blockIndex later lookup
  inUse := by
    intro on blockIndex later lookup
    have separated : pool ≠ .plain := by
      have used := mem_freePools_of_mem counted member
      intro plain
      rw [plain] at used
      simp [freePools, on] at used
    change (state.setBlock block.idx version).blocks.lookup blockIndex = _
      at lookup
    change later.refreshedPageCount = (Record.taken block.idx ::
      state.records).count (.refreshed blockIndex)
    rw [List.count_cons_of_ne (by simp)]
    rw [State.lookup_setBlock] at lookup
    split at lookup
    · next here =>
        cases lookup
        rw [here, same, if_neg separated]
        exact counted.resting on pool block member
    · exact counted.inUse on blockIndex later lookup
  resting := by
    intro on other free listed
    change free ∈ (Function.update state.free pool _ other).blocks at listed
    change free.refreshedPageCount = (Record.taken block.idx ::
      state.records).count (.refreshed free.idx)
    rw [List.count_cons_of_ne (by simp)]
    refine counted.resting on other free ?_
    by_cases here : other = pool
    · subst here
      rw [Function.update_self] at listed
      exact List.eraseP_sublist.subset listed
    · rwa [Function.update_of_ne here] at listed

theorem Counted.give (counted : Counted cfg state) (housed : Housed state)
    {pool : FreePool} {victim : Nat} {block : Block} {placed : List Block}
    (used : pool ∈ freePools cfg)
    (found : state.blocks.lookup victim = some block)
    (perm : placed.Perm (block :: (state.free pool).blocks)) :
    Counted cfg (state.give pool placed victim) where
  unused := by
    intro other outside
    have different : other ≠ pool := fun equality => outside (equality ▸ used)
    change (Function.update state.free pool _ other).blocks = []
    rw [Function.update_of_ne different]
    exact counted.unused other outside
  off := (counted.drop victim).off
  inUse := (counted.drop victim).inUse
  resting := by
    intro on other free listed
    change free ∈ (Function.update state.free pool _ other).blocks at listed
    change free.refreshedPageCount = state.records.count (.refreshed free.idx)
    by_cases here : other = pool
    · subst here
      rw [Function.update_self] at listed
      rcases List.mem_cons.mp (perm.mem_iff.mp listed) with same | old
      · rw [same, housed.idx_eq victim block found]
        exact counted.inUse on victim block found
      · exact counted.resting on other free old
    · rw [Function.update_of_ne here] at listed
      exact counted.resting on other free listed

end Counted

theorem counted_custody (cfg : Config) : Custody cfg (Counted cfg) where
  agree := by
    intro state updated counted blocks_eq free_eq records_eq
    refine counted.of_versions records_eq free_eq ?_
    intro blockIndex later lookup
    exact ⟨later, blocks_eq ▸ lookup, rfl⟩
  touch := fun counted found same => counted.touch found same
  refresh := fun housed counted found => counted.refresh housed found
  take := fun _ counted member same => counted.take member same
  give := fun used _ _ housed counted _ found emplaced =>
    counted.give housed used found (emplaceBefore_perm emplaced)
  drop := fun counted victim => counted.drop victim

theorem counted_blank (cfg : Config) : Counted cfg (blankState cfg) where
  unused := by
    intro pool outside
    refine List.eq_nil_iff_forall_not_mem.mpr ?_
    intro block member
    obtain ⟨idx, _, _, holds, _⟩ := blankState_free cfg pool block member
    refine outside ?_
    unfold freePools
    cases pool with
    | plain => simp [show cfg.hotColdSeparation = false from holds]
    | hot => simp [holds.1]
    | cold => simp [holds.1]
  off := fun _ _ _ found => by cases found
  inUse := fun _ _ _ found => by cases found
  resting := by
    intro _ pool block member
    obtain ⟨_, _, rfl, _⟩ := blankState_free cfg pool block member
    rfl

theorem Counted.exact_iff {cfg : Config} {state : State}
    (counted : Counted cfg state) :
    RefreshCountExact state ↔ NothingCarried cfg state := by
  cases separated : cfg.hotColdSeparation with
  | false => exact ⟨fun _ => .inl separated, fun _ => counted.off separated⟩
  | true =>
      constructor
      · intro exact
        refine .inr ?_
        intro blockIndex inUse
        obtain ⟨block, found⟩ := inUse
        have total := counted.inUse separated blockIndex block found
        have split := movedOut_add_carried state blockIndex
        rw [exact blockIndex block found] at total
        omega
      · intro nothing blockIndex block found
        have total := counted.inUse separated blockIndex block found
        have split := movedOut_add_carried state blockIndex
        rcases nothing with off | none
        · rw [separated] at off
          cases off
        · rw [none blockIndex ⟨block, found⟩] at split
          omega

/-- Wherever a life ends, the refresh counters of the blocks in use are exact
just when no block was taken again after a refresh had moved units out of it. -/
theorem refresh_count (cfg : Config) (env : Environment) (ops : List Op) :
    Meets (life cfg env ops) (blankState cfg)
      (fun _ final => RefreshCountExact final ↔ NothingCarried cfg final)
      fun _ stopped => RefreshCountExact stopped ↔ NothingCarried cfg stopped := by
  have rests := (counted_custody cfg).life env (counted_blank cfg) ops
  exact rests.mono (fun _ _ rests => rests.2.exact_iff)
    fun _ _ rests => rests.2.exact_iff

/-- Blocks of four pages in two pools, of which the hot one has three blocks. -/
def agedConfig : Config :=
  { sampleConfig with
    totalPhysicalBlocks := 528
    pagesInBlock := 4
    ioUnitInPage_pos := Nat.one_pos
    pageCountToMaxPerf_pos := Nat.one_pos
    hotColdSeparation := true
    hotBlocksLimit := 3
    hotBlocksLimit_le := Nat.le_of_ble_eq_true rfl
    reclaimBlock := 0
    refreshFilterNum := 1 }

def agedEnvironment : Environment :=
  { sampleEnvironment with
    getRBER := fun _ _ _ _ => 2
    belowGCThreshold := fun pool free => pool = .hot && free < 2 }

def agedOps : List Op :=
  [.initializeFTL, writePage 0, writePage 0, .refresh] ++
    List.replicate 12 (writePage 0)

/-- A page is refreshed out of block 0, which is erased and taken again by the
twelve writes that follow. -/
theorem refresh_count_stale :
    ∃ final, outcome agedConfig agedEnvironment agedOps = .ok () final ∧
      ¬ RefreshCountExact final := by
  have evaluated : returns (outcome agedConfig agedEnvironment agedOps)
      (fun final => final.movedOut 0 = 0 ∧
        (final.blocks.lookup 0).map (·.refreshedPageCount) = some 1) =
        true := by
    decide +kernel
  obtain ⟨final, result, test⟩ := returns_iff.mp evaluated
  simp only [decide_eq_true_eq, Option.map_eq_some_iff] at test
  obtain ⟨moved, block, found, counter⟩ := test
  refine ⟨final, result, ?_⟩
  intro exact
  rw [exact 0 block found, moved] at counter
  cases counter

end SimpleSSD.FTL
