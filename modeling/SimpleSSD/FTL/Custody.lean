import SimpleSSD.FTL.Insertion
import SimpleSSD.FTL.Keeping

namespace SimpleSSD.FTL

open Program

/-! Facts about the blocks that do not depend on the active slots.  Beside
changes of the records and of blocks in use, a block leaves a free list for
`blocks`, returns from `blocks` to a free list, or is dropped for good. -/

/-- No block is at two places, and a block in use is stored under its index. -/
structure Housed (state : State) : Prop where
  idx_eq : ∀ blockIndex block, state.blocks.lookup blockIndex = some block →
    block.idx = blockIndex
  nodup : (freeIndices state).Nodup
  apart : ∀ blockIndex ∈ freeIndices state,
    state.blocks.lookup blockIndex = none

namespace State

def take (state : State) (pool : FreePool) (block version : Block) : State :=
  ((state.setBlock block.idx version).setFree pool
    { blocks := (state.free pool).blocks.eraseP (·.idx = block.idx)
      count := (state.free pool).count - 1 }).note (.taken block.idx)

/-- The block of `victim` moves to a free list, which becomes `placed`. -/
def give (state : State) (pool : FreePool) (placed : List Block)
    (victim : Nat) : State :=
  { state.setFree pool ⟨placed, (state.free pool).count + 1⟩ with
    blocks := state.blocks.erase victim }

def drop (state : State) (victim : Nat) : State :=
  { state with blocks := state.blocks.erase victim }

end State

theorem mem_freeIndices {state : State} {blockIndex : Nat} :
    blockIndex ∈ freeIndices state ↔
      ∃ pool, ∃ block ∈ (state.free pool).blocks, block.idx = blockIndex := by
  unfold freeIndices FreeList.indices
  simp only [List.mem_append, List.mem_map]
  constructor
  · rintro ((listed | listed) | listed)
    · exact ⟨.plain, listed⟩
    · exact ⟨.hot, listed⟩
    · exact ⟨.cold, listed⟩
  · rintro ⟨pool, listed⟩
    cases pool with
    | plain => exact .inl (.inl listed)
    | hot => exact .inl (.inr listed)
    | cold => exact .inr listed

theorem indices_sublist (state : State) (pool : FreePool) :
    (state.free pool).indices.Sublist (freeIndices state) := by
  unfold freeIndices
  cases pool with
  | plain =>
      exact (List.sublist_append_left _ _).trans (List.sublist_append_left _ _)
  | hot =>
      exact (List.sublist_append_right _ _).trans (List.sublist_append_left _ _)
  | cold => exact List.sublist_append_right _ _

section Housed

variable {state : State}

theorem Housed.indices_nodup (housed : Housed state) (pool : FreePool) :
    (state.free pool).indices.Nodup :=
  housed.nodup.sublist (indices_sublist state pool)

theorem Housed.absent (housed : Housed state) {pool : FreePool} {block : Block}
    (member : block ∈ (state.free pool).blocks) :
    state.blocks.lookup block.idx = none :=
  housed.apart _ (mem_freeIndices.mpr ⟨pool, block, member, rfl⟩)

theorem Housed.of_agree (housed : Housed state) {updated : State}
    (blocks_eq : updated.blocks = state.blocks)
    (free_eq : updated.free = state.free) : Housed updated := by
  have indices_eq : freeIndices updated = freeIndices state := by
    unfold freeIndices
    rw [free_eq]
  exact ⟨by rw [blocks_eq]; exact housed.idx_eq,
    by rw [indices_eq]; exact housed.nodup,
    by rw [indices_eq, blocks_eq]; exact housed.apart⟩

theorem Housed.touch (housed : Housed state) {blockIndex : Nat}
    {block version : Block}
    (found : state.blocks.lookup blockIndex = some block)
    (idx_eq : version.idx = block.idx) :
    Housed (state.setBlock blockIndex version) where
  idx_eq := by
    intro other current lookup
    rw [State.lookup_setBlock] at lookup
    split at lookup
    · next same =>
        cases lookup
        rw [same, idx_eq]
        exact housed.idx_eq blockIndex block found
    · exact housed.idx_eq other current lookup
  nodup := housed.nodup
  apart := by
    intro other listed
    have absent := housed.apart other listed
    rw [State.lookup_setBlock]
    split
    · next same =>
        rw [same, found] at absent
        cases absent
    · exact absent

theorem Housed.take (housed : Housed state) {pool : FreePool}
    {block version : Block} (member : block ∈ (state.free pool).blocks)
    (idx_eq : version.idx = block.idx) :
    Housed (state.take pool block version) := by
  have counts : ∀ blockIndex,
      (freeIndices (state.take pool block version)).count blockIndex +
          (if block.idx = blockIndex then 1 else 0) =
        (freeIndices state).count blockIndex := by
    intro blockIndex
    have moved := count_freeIndices_setFree (state.setBlock block.idx version)
      pool { blocks := (state.free pool).blocks.eraseP (·.idx = block.idx)
             count := (state.free pool).count - 1 } blockIndex
    have erased := count_indices_eraseP member ((state.free pool).count - 1)
      blockIndex
    have same : freeIndices (state.setBlock block.idx version) =
      freeIndices state := rfl
    have taken : freeIndices (state.take pool block version) =
      freeIndices ((state.setBlock block.idx version).setFree pool
        { blocks := (state.free pool).blocks.eraseP (·.idx = block.idx)
          count := (state.free pool).count - 1 }) := rfl
    rw [taken]
    rw [same] at moved
    simp only [State.setBlock_free] at moved
    omega
  have once := List.nodup_iff_count_le_one.mp housed.nodup
  refine ⟨?_, ?_, ?_⟩
  · intro other current lookup
    change (state.setBlock block.idx version).blocks.lookup other = _ at lookup
    rw [State.lookup_setBlock] at lookup
    split at lookup
    · next same =>
        cases lookup
        exact idx_eq.trans same.symm
    · exact housed.idx_eq other current lookup
  · refine List.nodup_iff_count_le_one.mpr ?_
    intro blockIndex
    exact (Nat.le_add_right _ _).trans
      ((counts blockIndex).trans_le (once blockIndex))
  · intro other listed
    have positive := List.count_pos_iff.mpr listed
    have bound := once other
    have step := counts other
    have different : other ≠ block.idx := by
      rintro rfl
      rw [if_pos rfl] at step
      omega
    change (state.setBlock block.idx version).blocks.lookup other = none
    rw [State.lookup_setBlock, if_neg different]
    refine housed.apart other (List.count_pos_iff.mp ?_)
    omega

theorem Housed.drop (housed : Housed state) (victim : Nat) :
    Housed (state.drop victim) where
  idx_eq := by
    intro other current lookup
    by_cases same : other = victim
    · subst same
      rw [State.drop, AList.lookup_erase] at lookup
      cases lookup
    · rw [State.drop, AList.lookup_erase_ne same] at lookup
      exact housed.idx_eq other current lookup
  nodup := housed.nodup
  apart := by
    intro other listed
    by_cases same : other = victim
    · subst same
      exact AList.lookup_erase _ _
    · exact (AList.lookup_erase_ne same).trans (housed.apart other listed)

theorem Housed.give (housed : Housed state) {pool : FreePool} {victim : Nat}
    {block : Block} {placed : List Block}
    (found : state.blocks.lookup victim = some block)
    (perm : placed.Perm (block :: (state.free pool).blocks)) :
    Housed (state.give pool placed victim) := by
  have here := housed.idx_eq victim block found
  have counts : ∀ blockIndex,
      (freeIndices (state.give pool placed victim)).count blockIndex =
        (freeIndices state).count blockIndex +
          (if victim = blockIndex then 1 else 0) := by
    intro blockIndex
    have moved := count_freeIndices_setFree state pool
      ⟨placed, (state.free pool).count + 1⟩ blockIndex
    have added : (FreeList.indices
        ⟨placed, (state.free pool).count + 1⟩).count blockIndex =
        (state.free pool).indices.count blockIndex +
          (if victim = blockIndex then 1 else 0) := by
      unfold FreeList.indices
      rw [(perm.map (·.idx)).count_eq, List.map_cons, List.count_cons, here]
      simp only [beq_iff_eq]
    have given : freeIndices (state.give pool placed victim) =
      freeIndices (state.setFree pool
        ⟨placed, (state.free pool).count + 1⟩) := rfl
    rw [given]
    omega
  have outside : (freeIndices state).count victim = 0 := by
    refine List.count_eq_zero.mpr ?_
    intro listed
    rw [housed.apart victim listed] at found
    cases found
  have once := List.nodup_iff_count_le_one.mp housed.nodup
  refine ⟨(housed.drop victim).idx_eq, ?_, ?_⟩
  · refine List.nodup_iff_count_le_one.mpr ?_
    intro blockIndex
    rw [counts]
    split
    · next same =>
        subst same
        omega
    · exact once blockIndex
  · intro other listed
    by_cases same : other = victim
    · subst same
      exact AList.lookup_erase _ _
    · refine (AList.lookup_erase_ne same).trans (housed.apart other ?_)
      have positive := List.count_pos_iff.mpr listed
      rw [counts, if_neg (Ne.symm same)] at positive
      exact List.count_pos_iff.mp positive

end Housed

/-- `fact` survives every change that matters to it.  A block that returns has
been searched a place in an earlier state of the list. -/
structure Custody (cfg : Config) (fact : State → Prop) : Prop where
  agree : ∀ {state updated}, fact state → updated.blocks = state.blocks →
    updated.free = state.free → updated.records = state.records → fact updated
  touch : ∀ {state blockIndex block version}, fact state →
    state.blocks.lookup blockIndex = some block →
    version.refreshedPageCount = block.refreshedPageCount →
    fact (state.setBlock blockIndex version)
  refresh : ∀ {state : State} {source block}, Housed state → fact state →
    state.blocks.lookup source = some block →
    fact ((state.setBlock source { block with
      refreshedPageCount := block.refreshedPageCount + 1 }).note
        (.refreshed source))
  take : ∀ {state : State} {pool block version}, Housed state → fact state →
    block ∈ (state.free pool).blocks →
    version.refreshedPageCount =
      (if pool = .plain then 0 else block.refreshedPageCount) →
    fact (state.take pool block version)
  give : ∀ {state earlier : State} {pool victim block placed},
    pool ∈ freePools cfg → Housed earlier → fact earlier → Housed state →
    fact state →
    (state.free pool).blocks.Sublist (earlier.free pool).blocks →
    state.blocks.lookup victim = some block →
    emplaceBefore (freePosition block.eraseCount (earlier.free pool).blocks)
      block (state.free pool).blocks = .ok placed →
    fact (state.give pool placed victim)
  drop : ∀ {state : State}, fact state → ∀ victim, fact (state.drop victim)

namespace Custody

variable {cfg : Config} {fact : State → Prop} {state : State}

def Rests (fact : State → Prop) (state : State) : Prop :=
  Housed state ∧ fact state

theorem restsAgree (custody : Custody cfg fact) (rests : Rests fact state)
    {updated : State} (blocks_eq : updated.blocks = state.blocks)
    (free_eq : updated.free = state.free)
    (records_eq : updated.records = state.records) : Rests fact updated :=
  ⟨rests.1.of_agree blocks_eq free_eq,
    custody.agree rests.2 blocks_eq free_eq records_eq⟩

theorem restsTouch (custody : Custody cfg fact) (rests : Rests fact state)
    {blockIndex : Nat} {block version : Block}
    (found : state.blocks.lookup blockIndex = some block)
    (idx_eq : version.idx = block.idx)
    (refreshed : version.refreshedPageCount = block.refreshedPageCount) :
    Rests fact (state.setBlock blockIndex version) :=
  ⟨rests.1.touch found idx_eq, custody.touch rests.2 found refreshed⟩

theorem takeFreeBlock_takes (pool : FreePool) (noneLeft inUse : Panic)
    (idx : Nat) :
    Meets (takeFreeBlock cfg pool noneLeft inUse idx) state
      (fun blockIndex final => ∃ block ∈ (state.free pool).blocks,
        block.idx = blockIndex ∧ final = state.take pool block block)
      fun _ stopped => stopped = state := by
  unfold takeFreeBlock
  split
  · exact rfl
  apply meets_bind.mpr
  apply meets_get.mpr
  dsimp only
  split
  · exact rfl
  split
  · exact rfl
  · next block search =>
      split
      · exact rfl
      · exact ⟨block, searchFree_mem search, rfl, rfl⟩

theorem restsDrop (custody : Custody cfg fact) (rests : Rests fact state)
    (victim : Nat) : Rests fact (state.drop victim) :=
  ⟨rests.1.drop victim, custody.drop rests.2 victim⟩

/-- A block that left its list with its old counter, and may be found. -/
theorem takeFreeBlock_rests (custody : Custody cfg fact) (rests : Rests fact state)
    {pool : FreePool} (separated : pool ≠ .plain) (noneLeft inUse : Panic)
    (idx : Nat) :
    Meets (takeFreeBlock cfg pool noneLeft inUse idx) state
      (fun blockIndex final => Rests fact final ∧ final.InUse blockIndex)
      fun _ stopped => Rests fact stopped := by
  refine (takeFreeBlock_takes pool noneLeft inUse idx).mono ?_ ?_
  · intro blockIndex final post
    obtain ⟨block, member, same, took⟩ := post
    subst same took
    refine ⟨⟨rests.1.take member rfl, ?_⟩, block, AList.lookup_insert _⟩
    exact custody.take rests.1 rests.2 member (by rw [if_neg separated])
  · intro _ stopped same
    rw [same]
    exact rests

theorem tag_rests (custody : Custody cfg fact) (rests : Rests fact state)
    {blockIndex : Nat} (inUse : state.InUse blockIndex)
    (blockType : BlockPoolType) :
    Meets (do
        updateBlock blockIndex fun block => { block with blockType := blockType }
        return blockIndex) state (fun _ final => Rests fact final)
      fun _ stopped => Rests fact stopped := by
  obtain ⟨block, found⟩ := inUse
  refine Meets.bindOk (run_updateBlock found _) ?_
  exact custody.restsTouch rests found rfl rfl

theorem demoteCoolFront_rests (custody : Custody cfg fact)
    (rests : Rests fact state) {blockIndex : Nat}
    (inUse : state.InUse blockIndex) :
    Meets (demoteCoolFront cfg) state
      (fun _ final => Rests fact final ∧ final.InUse blockIndex)
      fun _ stopped => Rests fact stopped := by
  unfold demoteCoolFront
  apply meets_bind.mpr
  apply meets_get.mpr
  split
  · split
    · exact rests
    · next front rest window =>
        cases found : state.blocks.lookup front with
        | none => exact Meets.bindError (run_findBlock_none found) rests
        | some block =>
            refine Meets.bindOk (run_findBlock found) ?_
            have demoted : Rests fact (state.setBlock front
                { block with blockType := .cold }) :=
              custody.restsTouch rests found rfl rfl
            exact ⟨custody.restsAgree demoted rfl rfl rfl,
              State.inUse_setBlock.mpr (.inr inUse)⟩
  · exact ⟨rests, inUse⟩

theorem getFreeBlock_rests (custody : Custody cfg fact) (rests : Rests fact state)
    (idx : Nat) :
    Meets (getFreeBlock cfg idx) state (fun _ final => Rests fact final)
      fun _ stopped => Rests fact stopped := by
  unfold getFreeBlock
  refine ((takeFreeBlock_takes .plain _ _ idx).mono (fun _ _ post => post)
    ?_).bind ?_
  · intro _ stopped same
    rw [same]
    exact rests
  intro blockIndex final post
  obtain ⟨block, member, same, took⟩ := post
  subst same took
  refine Meets.bindOk (run_updateBlock (AList.lookup_insert _) _) ?_
  -- the counter is reset in the copy that has just been stored
  have taken : Rests fact (state.take .plain block
      { block with refreshedPageCount := 0 }) :=
    ⟨rests.1.take member rfl, custody.take rests.1 rests.2 member rfl⟩
  refine custody.restsAgree taken ?_ rfl rfl
  exact AList.insert_insert ..

theorem getBlockFor_rests (custody : Custody cfg fact) (rests : Rests fact state)
    (pool : ActivePool) (idx : Nat) :
    Meets (getBlockFor cfg pool idx) state (fun _ final => Rests fact final)
      fun _ stopped => Rests fact stopped := by
  cases pool with
  | plain => exact custody.getFreeBlock_rests rests idx
  | hot =>
      refine (custody.takeFreeBlock_rests rests (by decide) _ _ _).bind ?_
      intro blockIndex taken post
      refine Meets.bindOk rfl ?_
      refine custody.tag_rests ?_ (by exact post.2) _
      exact custody.restsAgree post.1 rfl rfl rfl
  | cool =>
      refine (custody.takeFreeBlock_rests rests (by decide) _ _ _).bind ?_
      intro blockIndex taken post
      refine (custody.demoteCoolFront_rests post.1 post.2).bind ?_
      intro _ demoted post
      refine Meets.bindOk rfl ?_
      refine custody.tag_rests ?_ (by exact post.2) _
      exact custody.restsAgree post.1 rfl rfl rfl
  | cold =>
      refine (custody.takeFreeBlock_rests rests (by decide) _ _ _).bind ?_
      intro blockIndex taken post
      exact custody.tag_rests post.1 post.2 _

theorem seatSlot_rests (custody : Custody cfg fact) (pool : ActivePool)
    (idx : Nat) :
    Keeps (Rests fact) (Rests fact) (seatSlot cfg pool idx) := by
  intro state rests
  refine (custody.getBlockFor_rests rests pool idx).bind ?_
  intro blockIndex taken rests
  exact custody.restsAgree rests rfl rfl rfl

theorem noteRefreshed_rests (custody : Custody cfg fact) (source : Nat) :
    Keeps (Rests fact) (Rests fact) (noteRefreshed true source) := by
  intro state rests
  unfold noteRefreshed
  rw [if_pos rfl]
  cases found : state.blocks.lookup source with
  | none =>
      unfold updateBlock
      apply meets_bind.mpr
      exact Meets.bindError (run_findBlock_none found) rests
  | some block =>
      refine Meets.bindOk (run_updateBlock found _) ?_
      refine ⟨Housed.of_agree (rests.1.touch found ?_) rfl rfl,
        custody.refresh rests.1 rests.2 found⟩
      rfl

theorem return_rests (custody : Custody cfg fact) {earlier : State}
    (before : Rests fact earlier) (rests : Rests fact state)
    {pool : FreePool} {victim : Nat} {block : Block} {erasedCount : Nat}
    {pools : List ActivePool} {retires : Bool} (used : pool ∈ freePools cfg)
    (sublist : (state.free pool).blocks.Sublist (earlier.free pool).blocks)
    (found : state.blocks.lookup victim = some block)
    (count_eq : erasedCount = block.eraseCount) :
    Meets (do
        emplaceFree pool
          (freePosition erasedCount (earlier.free pool).blocks) victim
        dropBlock pools retires victim) state
      (fun _ final => Rests fact final) fun _ stopped => Rests fact stopped := by
  subst count_eq
  cases emplaced : emplaceBefore
      (freePosition block.eraseCount (earlier.free pool).blocks) block
      (state.free pool).blocks with
  | error raised => exact Meets.bindError (run_emplaceFree_error found emplaced) rests
  | ok placed =>
      refine Meets.bindOk (run_emplaceFree found emplaced) ?_
      have given : Rests fact (state.give pool placed victim) :=
        ⟨rests.1.give found (emplaceBefore_perm emplaced),
          custody.give used before.1 before.2 rests.1 rests.2 sublist found
            emplaced⟩
      exact custody.restsAgree given rfl rfl rfl

theorem searchPosition_rests (rests : Rests fact state) (pool : FreePool)
    (erasedCount : Nat) :
    Meets (searchPosition pool erasedCount) state
      (fun position final => final = state ∧
        position = freePosition erasedCount (state.free pool).blocks)
      fun _ stopped => Rests fact stopped := by
  unfold searchPosition
  apply meets_bind.mpr
  apply meets_get.mpr
  split
  · exact rests
  · exact ⟨rfl, rfl⟩

theorem eraseInternal_rests (custody : Custody cfg fact)
    (off : cfg.hotColdSeparation = false) (victim : Nat) :
    Keeps (Rests fact) (Rests fact) (eraseInternal cfg victim) := by
  intro state rests
  unfold eraseInternal
  cases found : state.blocks.lookup victim with
  | none => exact Meets.bindError (run_findBlock_none found) rests
  | some block =>
      refine Meets.bindOk (run_findBlock found) ?_
      split
      · exact rests
      refine Meets.bindOk (run_updateBlock found _) ?_
      have wiped : Rests fact (state.setBlock victim block.erase) :=
        custody.restsTouch rests found rfl rfl
      dsimp only
      split
      · refine (searchPosition_rests wiped .plain _).bind ?_
        intro position reached post
        obtain ⟨same, searched⟩ := post
        subst same searched
        exact custody.return_rests wiped wiped (by simp [freePools, off])
          (List.Sublist.refl _) (AList.lookup_insert _) rfl
      · exact custody.restsAgree (custody.restsDrop wiped victim) rfl rfl rfl

theorem repairSlot_rests (custody : Custody cfg fact) (pool : ActivePool)
    (victim : Nat) :
    Keeps (Rests fact) (Rests fact) (repairSlot cfg pool victim) := by
  intro state rests
  unfold repairSlot
  apply meets_bind.mpr
  apply meets_get.mpr
  split
  · refine (custody.getBlockFor_rests rests .cool _).bind ?_
    intro replacement taken rests
    exact custody.restsAgree rests rfl rfl rfl
  · exact rests

theorem sepEraseInternal_rests (custody : Custody cfg fact)
    (on : cfg.hotColdSeparation = true) (victim : Nat) :
    Keeps (Rests fact) (Rests fact) (sepEraseInternal cfg victim) := by
  intro state rests
  unfold sepEraseInternal
  cases found : state.blocks.lookup victim with
  | none => exact Meets.bindError (run_findBlock_none found) rests
  | some block =>
      refine Meets.bindOk (run_blockAt found) ?_
      dsimp only
      split
      · exact rests
      refine Meets.bindOk (run_updateBlock found _) ?_
      have wiped : Rests fact (state.setBlock victim block.erase) :=
        custody.restsTouch rests found rfl rfl
      have here : (state.setBlock victim block.erase).blocks.lookup victim =
          some block.erase := AList.lookup_insert _
      have repaired : ∀ pool : ActivePool, Meets (do
            let position ← searchPosition .cold block.erase.eraseCount
            repairSlot cfg pool victim
            emplaceFree .cold position victim
            dropBlock [.hot, .cool, .cold]
              (cfg.badBlockThreshold ≤ block.erase.eraseCount) victim)
          (state.setBlock victim block.erase) (fun _ final => Rests fact final)
          fun _ stopped => Rests fact stopped := by
        intro pool
        refine (searchPosition_rests wiped .cold _).bind ?_
        intro position reached post
        obtain ⟨same, searched⟩ := post
        subst same searched
        refine (((repairSlot_patches pool victim).and
          (custody.repairSlot_rests pool victim _ wiped)).mono
            (fun _ _ post => post) fun _ _ failed => failed.2).bind ?_
        intro _ patched post
        obtain ⟨later, lookup, retyped⟩ :=
          post.1.1.version victim block.erase here
        exact custody.return_rests wiped post.2 (by simp [freePools, on])
          (post.1.1.free .cold) lookup retyped.eraseCount_eq.symm
      split
      · cases kind : block.blockType with
        | hot =>
            refine (searchPosition_rests wiped .hot _).bind ?_
            intro position reached post
            obtain ⟨same, searched⟩ := post
            subst same searched
            exact custody.return_rests wiped wiped (by simp [freePools, on])
              (List.Sublist.refl _) here rfl
        | cool => exact repaired .cool
        | cold => exact repaired .cold
      · exact custody.restsAgree (custody.restsDrop wiped victim) rfl rfl rfl

theorem upkeep (custody : Custody cfg fact) :
    Upkeep cfg (Rests fact) (Rests fact) where
  fails := fun _ rests => rests
  agree := fun rests blocks_eq free_eq _ _ records_eq _ =>
    custody.restsAgree rests blocks_eq free_eq records_eq
  revise := fun rests found revised =>
    custody.restsTouch rests found revised.idx_eq revised.refreshedPageCount_eq
  write := by
    intro state blockIndex block version pageIndex lpn idx rests found written
    have same : version.idx = block.idx ∧
        version.refreshedPageCount = block.refreshedPageCount := by
      unfold Block.write at written
      split_ifs at written
      cases written
      exact ⟨rfl, rfl⟩
    exact custody.restsTouch rests found same.1 same.2
  refresh := custody.noteRefreshed_rests
  refill := by
    intro state pool old block rests _ _ _
    unfold refillSlot
    apply meets_bind.mpr
    apply meets_get.mpr
    refine (custody.seatSlot_rests pool _ _ rests).bind ?_
    intro _ reached rests
    exact custody.restsAgree rests rfl rfl rfl
  erase := custody.eraseInternal_rests
  sepErase := custody.sepEraseInternal_rests

theorem housed_blank (cfg : Config) : Housed (blankState cfg) where
  idx_eq := fun _ _ found => by cases found
  nodup := by
    have whole := blankState_homes cfg
    have sublist : (freeIndices (blankState cfg)).Sublist
        (homes (blankState cfg)) :=
      (List.sublist_append_right _ _).trans (List.sublist_append_left _ _)
    rw [whole] at sublist
    exact List.nodup_range.sublist sublist
  apart := fun _ _ => rfl

/-- A fact of the blank members that survives every change of the blocks holds
wherever a life ends. -/
theorem life (custody : Custody cfg fact) (env : Environment)
    (blank : fact (blankState cfg)) (ops : List Op) :
    Meets (life cfg env ops) (blankState cfg)
      (fun _ final => Rests fact final) fun _ stopped => Rests fact stopped := by
  refine (custody.upkeep).life ?_ ops
  have seats : Keeps (Rests fact) (Rests fact) (construct cfg) :=
    Keeps.forM fun idx => Keeps.forM fun pool => custody.seatSlot_rests pool idx
  exact seats _ ⟨housed_blank cfg, blank⟩

end Custody

end SimpleSSD.FTL
