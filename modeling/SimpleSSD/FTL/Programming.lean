import SimpleSSD.FTL.Consistency

namespace SimpleSSD.FTL

open Machine

/-! The programming rule of the flash: between two erases the units of a block
are programmed in order, each of them once. -/

variable {cfg : Config} {env : Environment} {allow : Allowance}
  {state updated : State}

/-- Pages of a block that were programmed for a unit while the block had an erase
count, in the order of programming. -/
def programmedPages (history : List Programmed)
    (blockIndex eraseCount idx : Nat) : List Nat :=
  ((history.filter fun unit => unit.blockIndex = blockIndex ∧
    unit.eraseCount = eraseCount ∧ unit.idx = idx).map (·.page)).reverse

theorem programmedPages_cons (unit : Programmed) (history : List Programmed)
    (blockIndex eraseCount idx : Nat) :
    programmedPages (unit :: history) blockIndex eraseCount idx =
      programmedPages history blockIndex eraseCount idx ++
        if unit.blockIndex = blockIndex ∧ unit.eraseCount = eraseCount ∧
          unit.idx = idx then [unit.page] else [] := by
  unfold programmedPages
  rw [List.filter_cons]
  split
  · next here =>
      rw [if_pos (of_decide_eq_true here)]
      simp
  · next elsewhere =>
      rw [if_neg fun here => elsewhere (decide_eq_true here)]
      simp

/-- The history of a block since its last erase is what its write indices say. -/
def UpToDate (history : List Programmed) (blockIndex : Nat) (block : Block) :
    Prop :=
  (∀ idx, programmedPages history blockIndex block.eraseCount idx =
    List.range (block.nextWritePage idx)) ∧
  ∀ eraseCount, block.eraseCount < eraseCount → ∀ idx,
    programmedPages history blockIndex eraseCount idx = []

structure InOrder (cfg : Config) (history : List Programmed) : Prop where
  ordered : ∀ blockIndex eraseCount idx, ∃ count ≤ cfg.pagesInBlock,
    programmedPages history blockIndex eraseCount idx = List.range count
  inside : ∀ unit ∈ history, unit.idx < cfg.ioUnitInPage

structure Sequential (cfg : Config) (state : State) : Prop where
  inUse : ∀ blockIndex block, state.blocks.lookup blockIndex = some block →
    UpToDate state.programmed blockIndex block
  free : ∀ pool, ∀ block ∈ (state.free pool).blocks,
    UpToDate state.programmed block.idx block
  inOrder : InOrder cfg state.programmed

theorem UpToDate.congr {history : List Programmed} {blockIndex : Nat}
    {block version : Block} (upToDate : UpToDate history blockIndex block)
    (erases : version.eraseCount = block.eraseCount)
    (next : version.nextWritePage = block.nextWritePage) :
    UpToDate history blockIndex version := by
  unfold UpToDate
  rw [erases, next]
  exact upToDate

/-- An erase starts a new count that has no history yet. -/
theorem UpToDate.erase {history : List Programmed} {blockIndex : Nat}
    {block : Block} (upToDate : UpToDate history blockIndex block) :
    UpToDate history blockIndex block.erase := by
  refine ⟨?_, ?_⟩
  · intro idx
    exact upToDate.2 _ (Nat.lt_succ_self _) idx
  · intro eraseCount later idx
    exact upToDate.2 _ (Nat.lt_of_succ_lt later) idx

/-- Steps that program nothing: every block is a version of one that was there. -/
theorem Sequential.of_versions (sequential : Sequential cfg state)
    (programmed : updated.programmed = state.programmed)
    (inUse : ∀ blockIndex block,
      updated.blocks.lookup blockIndex = some block →
        UpToDate state.programmed blockIndex block)
    (free : ∀ pool, ∀ block ∈ (updated.free pool).blocks,
      UpToDate state.programmed block.idx block) :
    Sequential cfg updated where
  inUse := by
    rw [programmed]
    exact inUse
  free := by
    rw [programmed]
    exact free
  inOrder := by
    rw [programmed]
    exact sequential.inOrder

theorem Sequential.of_agree (sequential : Sequential cfg state)
    (programmed : updated.programmed = state.programmed)
    (blocks_eq : updated.blocks = state.blocks)
    (free_eq : updated.free = state.free) : Sequential cfg updated := by
  refine sequential.of_versions programmed ?_ ?_
  · rw [blocks_eq]
    exact sequential.inUse
  · rw [free_eq]
    exact sequential.free

theorem Sequential.setBlock (sequential : Sequential cfg state)
    {blockIndex : Nat} {version : Block}
    (upToDate : UpToDate state.programmed blockIndex version)
    (programmed : updated.programmed = state.programmed)
    (blocks_eq : updated.blocks = state.blocks.insert blockIndex version)
    (free : ∀ pool, ∀ block ∈ (updated.free pool).blocks,
      block ∈ (state.free pool).blocks) :
    Sequential cfg updated := by
  refine sequential.of_versions programmed ?_
    fun pool block member => sequential.free pool block (free pool block member)
  intro other block found
  rw [blocks_eq] at found
  by_cases same : other = blockIndex
  · subst same
    rw [AList.lookup_insert] at found
    cases found
    exact upToDate
  · rw [AList.lookup_insert_ne same] at found
    exact sequential.inUse other block found

theorem Sequential.program_inOrder (sequential : Sequential cfg state)
    (pools : Pools cfg state) {blockIndex idx lpn : Nat}
    {block version : Block} (unit : idx < cfg.bitsetSize)
    (found : state.blocks.lookup blockIndex = some block)
    (written : block.write (block.nextWritePage idx) lpn idx = .ok version) :
    InOrder cfg (⟨blockIndex, block.eraseCount, block.nextWritePage idx,
      idx⟩ :: state.programmed) where
  ordered := by
    obtain ⟨_, inside, _⟩ := Block.write_ok written
    rw [(pools.wellFormed _ _ found).pageCount_eq] at inside
    intro other eraseCount index
    rw [programmedPages_cons]
    dsimp only
    split
    · next here =>
        obtain ⟨rfl, rfl, rfl⟩ := here
        rw [(sequential.inUse _ _ found).1]
        exact ⟨block.nextWritePage idx + 1, inside, by simp [List.range_succ]⟩
    · rw [List.append_nil]
      exact sequential.inOrder.ordered other eraseCount index
  inside := by
    intro programmedUnit member
    rcases List.mem_cons.mp member with new | old
    · subst new
      exact Nat.lt_of_lt_of_le unit (bitsetSize_le cfg)
    · exact sequential.inOrder.inside programmedUnit old

theorem Sequential.program (sequential : Sequential cfg state)
    (pools : Pools cfg state) {blockIndex idx lpn : Nat}
    {block version : Block} (unit : idx < cfg.bitsetSize)
    (found : state.blocks.lookup blockIndex = some block)
    (written : block.write (block.nextWritePage idx) lpn idx = .ok version)
    (programmed : updated.programmed = ⟨blockIndex, block.eraseCount,
      block.nextWritePage idx, idx⟩ :: state.programmed)
    (blocks_eq : updated.blocks = state.blocks.insert blockIndex version)
    (free_eq : updated.free = state.free) : Sequential cfg updated := by
  have inOrder := sequential.program_inOrder pools unit found written
  obtain ⟨_, _, _, _, rfl⟩ := Block.write_ok written
  have current := sequential.inUse _ _ found
  have others : ∀ other, other ≠ blockIndex → ∀ block,
      UpToDate state.programmed other block →
        UpToDate updated.programmed other block := by
    intro other different block upToDate
    unfold UpToDate
    rw [programmed]
    simp only [programmedPages_cons, different.symm, false_and, if_false,
      List.append_nil]
    exact upToDate
  refine { inUse := ?_, free := ?_, inOrder := programmed ▸ inOrder }
  · intro other version lookup
    rw [blocks_eq] at lookup
    by_cases same : other = blockIndex
    · subst same
      rw [AList.lookup_insert] at lookup
      cases lookup
      refine ⟨?_, ?_⟩
      · intro index
        rw [programmed, programmedPages_cons]
        dsimp only
        rw [current.1 index]
        by_cases here : index = idx
        · subst here
          simp [List.range_succ]
        · have elsewhere : idx ≠ index := fun equal => here equal.symm
          simp [here, elsewhere]
      · intro eraseCount later index
        dsimp only at later
        have earlier : block.eraseCount ≠ eraseCount := Nat.ne_of_lt later
        rw [programmed, programmedPages_cons]
        simp [earlier, current.2 eraseCount later index]
    · rw [AList.lookup_insert_ne same] at lookup
      exact others other same version (sequential.inUse other version lookup)
  · intro pool free member
    rw [free_eq] at member
    refine others _ ?_ free (sequential.free pool free member)
    intro same
    have absent := pools.free_not_inUse member
    rw [same, found] at absent
    cases absent

theorem Sequential.inUse_erase (sequential : Sequential cfg state)
    {victim : Nat} (erased : updated.blocks = state.blocks.erase victim)
    (blockIndex : Nat) (block : Block)
    (found : updated.blocks.lookup blockIndex = some block) :
    UpToDate state.programmed blockIndex block := by
  rw [erased] at found
  by_cases same : blockIndex = victim
  · subst same
    rw [AList.lookup_erase] at found
    cases found
  · rw [AList.lookup_erase_ne same] at found
    exact sequential.inUse blockIndex block found

theorem Sequential.step {before after : Phase × State}
    (step : Step cfg env allow before after) (pools : Pools cfg before.2)
    (sequential : Sequential cfg before.2) : Sequential cfg after.2 := by
  cases step with
  | quiet same =>
      exact sequential.of_agree same.programmed_eq same.blocks_eq same.free_eq
  | @take phase state idle pool block member absent counted =>
      refine sequential.setBlock (sequential.free pool block member) rfl rfl ?_
      intro other free listed
      by_cases same : other = pool
      · subst same
        simp only [State.setFree_free, Function.update_self] at listed
        exact List.mem_of_mem_eraseP listed
      · simp only [State.setFree_free, Function.update_of_ne same] at listed
        exact listed
  | touch refreshedPageCount found =>
      refine sequential.setBlock ?_ rfl rfl fun _ _ member => member
      exact (sequential.inUse _ _ found).congr rfl rfl
  | demote fresh window found =>
      refine sequential.setBlock ?_ rfl rfl fun _ _ member => member
      exact (sequential.inUse _ _ found).congr rfl rfl
  | tag blockType fresh fits region found =>
      refine sequential.setBlock ?_ rfl rfl fun _ _ member => member
      exact (sequential.inUse _ _ found).congr rfl rfl
  | invalidate mapped inside located found valid stores =>
      refine sequential.setBlock ?_ rfl rfl fun _ _ member => member
      exact (sequential.inUse _ _ found).congr rfl rfl
  | program aimed found inside waits mapped written scheduled =>
      exact sequential.program pools inside found written rfl rfl rfl
  | programHot allowed aimed found inside waits mapped written =>
      exact sequential.program pools inside found written rfl rfl rfl
  | wipe allowed idle next found nothing =>
      refine sequential.setBlock ?_ rfl rfl fun _ _ member => member
      exact (sequential.inUse _ _ found).erase
  | release pool erasing found empty takes placed =>
      refine sequential.of_versions rfl (sequential.inUse_erase rfl) ?_
      intro other block member
      by_cases same : other = pool
      · subst same
        simp only [State.setFree_free, Function.update_self] at member
        rcases List.mem_cons.mp (placed.mem_iff.mp member) with new | old
        · subst new
          rw [pools.idx_eq _ _ found]
          exact sequential.inUse _ _ found
        · exact sequential.free other block old
      · simp only [State.setFree_free, Function.update_of_ne same] at member
        exact sequential.free other block member
  | retire erasing found empty =>
      exact sequential.of_versions rfl (sequential.inUse_erase rfl)
        sequential.free
  | _ => exact sequential.of_agree rfl rfl rfl

theorem Cause.programOutOfRange {phase : Phase} {raised : Panic}
    (cause : Cause cfg env allow phase state raised)
    (text : raised = .programOutOfRange) : cfg.pagesInBlock = 0 := by
  cases cause with
  | noPages none => exact none
  | corrupted pool => cases pool <;> cases text
  | unscheduled inside failed =>
      rcases RefreshQueue.setRefreshPeriod_error failed with rfl | rfl <;>
        cases text
  | unmapped mapped inside nowhere settled other =>
      rcases other with rfl | rfl <;> cases text
  | victimMissing member absent other =>
      rcases other with rfl | rfl | rfl | rfl <;> cases text
  | refused allowed member =>
      subst text
      exact absurd member (by decide)
  | _ => cases text

theorem sequential_invariant (cfg : Config) (env : Environment)
    (allow : Allowance) :
    (machine cfg env allow).Invariant fun config => Sequential cfg config.2 :=
  fun _ _ step sound sequential => sequential.step step sound.1

theorem blankState_sequential (cfg : Config) :
    Sequential cfg (blankState cfg) where
  inUse := fun _ _ found => by cases found
  free := by
    intro pool block member
    obtain ⟨idx, blockType, rfl, _⟩ := blankState_free cfg pool block member
    exact ⟨fun _ => rfl, fun _ _ _ => rfl⟩
  inOrder := ⟨fun _ _ _ => ⟨0, Nat.zero_le _, rfl⟩, fun _ member => by
    cases member⟩

/-- In every life, also in one that a panic ends, the pages programmed for a
unit of a block between two erases are `0, 1, 2, …`, and no write meets a
programmed unit or leaves the order. -/
theorem programming_rule (cfg : Config) (env : Environment) (ops : List Op) :
    match outcome cfg env ops with
    | .ok _ final => InOrder cfg final.programmed
    | .error raised stopped => InOrder cfg stopped.programmed ∧
        raised ≠ .writeToNonErasedPage ∧ raised ≠ .writeNotSequential ∧
        raised ≠ .ioMapSizeMismatch ∧
        (raised = .programOutOfRange → cfg.pagesInBlock = 0) := by
  have allowed : ∀ op ∈ ops, op.Allowed cfg env .all :=
    fun op _ => op.allowed_all
  have meets := life_meets trivial allowed
    (sequential_invariant cfg env .all) (blankState_sequential cfg)
  cases result : outcome cfg env ops with
  | ok value final =>
      obtain ⟨_, _, sequential⟩ := meets.of_ok result
      exact sequential.inOrder
  | error raised stopped =>
      obtain ⟨phase, state, pools, _, sequential, same, cause⟩ :=
        meets.of_error result
      have possible := cause.raisable
      refine ⟨?_, ?_, ?_, ?_, cause.programOutOfRange⟩
      · rcases same.programmed_eq with
          equal | ⟨_, _, _, _, _, found, unit, written, extended⟩
        · rw [equal]
          exact sequential.inOrder
        · rw [extended]
          exact sequential.program_inOrder pools unit found written
      all_goals
        intro same
        subst same
        revert possible
        decide

end SimpleSSD.FTL
