import SimpleSSD.FTL.Elementary

namespace SimpleSSD.FTL

/-! Where the blocks are: every elementary step keeps each block at one place
and the places consistent with the separation of the pools. -/

def FreeList.indices (list : FreeList) : List Nat := list.blocks.map (·.idx)

def freeIndices (state : State) : List Nat :=
  (state.free .plain).indices ++ (state.free .hot).indices ++
    (state.free .cold).indices

def homes (state : State) : List Nat :=
  state.blocks.keys ++ freeIndices state ++ state.retired

def freePools (cfg : Config) : List FreePool :=
  if cfg.hotColdSeparation then [.hot, .cold] else [.plain]

def FreePool.Holds (cfg : Config) : FreePool → Nat → Prop
  | .plain, _ => cfg.hotColdSeparation = false
  | .hot, blockIndex => cfg.hotColdSeparation = true ∧
      blockIndex < cfg.hotBlocksLimit
  | .cold, blockIndex => cfg.hotColdSeparation = true ∧
      cfg.hotBlocksLimit ≤ blockIndex

structure Pools (cfg : Config) (state : State) : Prop where
  homes_perm : (homes state).Perm (List.range cfg.totalPhysicalBlocks)
  idx_eq : ∀ blockIndex block,
    state.blocks.lookup blockIndex = some block → block.idx = blockIndex
  wellFormed : ∀ blockIndex block,
    state.blocks.lookup blockIndex = some block → block.WellFormed cfg
  rested : ∀ pool, ∀ block ∈ (state.free pool).blocks,
    block.WellFormed cfg ∧ block.Empty
  housed : ∀ pool, ∀ block ∈ (state.free pool).blocks,
    pool.Holds cfg block.idx
  freeTyped : cfg.hotColdSeparation = true → ∀ pool,
    ∀ block ∈ (state.free pool).blocks, Region cfg block.blockType block.idx
  counted : ∀ pool ∈ freePools cfg,
    (state.free pool).count = (state.free pool).blocks.length
  typed : cfg.hotColdSeparation = true → ∀ blockIndex block,
    state.blocks.lookup blockIndex = some block →
      Region cfg block.blockType blockIndex
  hotRegion : ∀ blockIndex ∈ state.hotWindow,
    cfg.hotColdSeparation = true ∧ blockIndex < cfg.hotBlocksLimit
  coolRegion : ∀ blockIndex ∈ state.coolDownWindow,
    cfg.hotColdSeparation = true ∧ cfg.hotBlocksLimit ≤ blockIndex
  slots : ∀ pool, (state.active pool).blocks.length = cfg.pageCountToMaxPerf
  cursor : ∀ pool, (state.active pool).index < cfg.pageCountToMaxPerf

theorem FreePool.Takes.holds {cfg : Config} {pool : FreePool}
    {blockType : BlockPoolType} {blockIndex : Nat}
    (takes : pool.Takes cfg blockType)
    (region : cfg.hotColdSeparation = true →
      Region cfg blockType blockIndex) : pool.Holds cfg blockIndex := by
  unfold FreePool.Takes at takes
  split at takes
  · next separated =>
      have inside := region separated
      subst takes
      cases blockType <;> exact ⟨separated, inside⟩
  · next plain =>
      subst takes
      exact Bool.eq_false_iff.mpr plain

section Places

variable {state : State} {list : FreeList} {block : Block}

theorem count_freeIndices_setFree (state : State) (pool : FreePool)
    (list : FreeList) (blockIndex : Nat) :
    (freeIndices (state.setFree pool list)).count blockIndex +
        (state.free pool).indices.count blockIndex =
      (freeIndices state).count blockIndex +
        list.indices.count blockIndex := by
  unfold freeIndices
  simp only [List.count_append, State.setFree_free]
  cases pool <;> simp [Function.update] <;> omega

theorem count_indices_eraseP
    (member : block ∈ list.blocks) (count blockIndex : Nat) :
    (FreeList.indices
        { blocks := list.blocks.eraseP (·.idx = block.idx)
          count := count }).count blockIndex +
        (if block.idx = blockIndex then 1 else 0) =
      list.indices.count blockIndex := by
  obtain ⟨removed, before, rest, _, same, split, erased⟩ :=
    List.exists_of_eraseP (p := (·.idx = block.idx)) member (by simp)
  simp only [decide_eq_true_eq] at same
  unfold FreeList.indices
  rw [erased, split]
  simp only [List.map_append, List.map_cons, List.count_append,
    List.count_cons, same, beq_iff_eq]
  omega

theorem count_keys_erase {blockIndex : Nat}
    (member : blockIndex ∈ state.blocks.keys) (other : Nat) :
    (state.blocks.keys.erase blockIndex).count other +
        (if blockIndex = other then 1 else 0) =
      state.blocks.keys.count other := by
  rw [(List.perm_cons_erase member).count_eq other, List.count_cons]
  simp

end Places

theorem mem_of_mem_eraseAll {victims window : List Nat} {blockIndex : Nat}
    (member : blockIndex ∈ victims.foldl
      (fun window victim => window.erase victim) window) :
    blockIndex ∈ window := by
  induction victims generalizing window with
  | nil => exact member
  | cons victim rest induction =>
      exact List.mem_of_mem_erase (induction member)

section Steps

variable {cfg : Config} {state updated : State}

theorem Pools.inUse_lt (pools : Pools cfg state) {blockIndex : Nat}
    (inUse : state.InUse blockIndex) :
    blockIndex < cfg.totalPhysicalBlocks := by
  have member : blockIndex ∈ homes state := by
    unfold homes
    simp [State.inUse_iff_mem_keys.mp inUse]
  exact List.mem_range.mp (pools.homes_perm.mem_iff.mp member)

theorem Pools.free_not_inUse (pools : Pools cfg state) {pool : FreePool}
    {block : Block} (member : block ∈ (state.free pool).blocks) :
    state.blocks.lookup block.idx = none := by
  rw [← State.not_inUse, State.inUse_iff_mem_keys]
  intro used
  have nodup : (homes state).Nodup :=
    pools.homes_perm.nodup_iff.mpr List.nodup_range
  unfold homes at nodup
  have disjoint := (List.nodup_append.mp (List.nodup_append.mp nodup).1).2.2
  refine disjoint _ used _ ?_ rfl
  have listed : block.idx ∈ (state.free pool).indices :=
    List.mem_map_of_mem member
  unfold freeIndices
  cases pool <;> simp [listed]

theorem Pools.of_agree (pools : Pools cfg state)
    (blocks_eq : updated.blocks = state.blocks)
    (free_eq : updated.free = state.free)
    (retired_eq : updated.retired = state.retired)
    (hot : ∀ blockIndex ∈ updated.hotWindow, blockIndex ∈ state.hotWindow)
    (cool : ∀ blockIndex ∈ updated.coolDownWindow,
      blockIndex ∈ state.coolDownWindow)
    (slots : ∀ pool, (updated.active pool).blocks.length =
      (state.active pool).blocks.length)
    (cursor : ∀ pool, (state.active pool).index < cfg.pageCountToMaxPerf →
      (updated.active pool).index < cfg.pageCountToMaxPerf) :
    Pools cfg updated where
  homes_perm := by
    have same : homes updated = homes state := by
      unfold homes freeIndices
      rw [blocks_eq, free_eq, retired_eq]
    rw [same]
    exact pools.homes_perm
  idx_eq := by
    rw [blocks_eq]
    exact pools.idx_eq
  wellFormed := by
    rw [blocks_eq]
    exact pools.wellFormed
  rested := by
    rw [free_eq]
    exact pools.rested
  housed := by
    rw [free_eq]
    exact pools.housed
  freeTyped := by
    rw [free_eq]
    exact pools.freeTyped
  counted := by
    rw [free_eq]
    exact pools.counted
  typed := by
    rw [blocks_eq]
    exact pools.typed
  hotRegion := fun blockIndex member =>
    pools.hotRegion blockIndex (hot blockIndex member)
  coolRegion := fun blockIndex member =>
    pools.coolRegion blockIndex (cool blockIndex member)
  slots := fun pool => (slots pool).trans (pools.slots pool)
  cursor := fun pool => cursor pool (pools.cursor pool)

theorem Pools.setBlock (pools : Pools cfg state) {blockIndex : Nat}
    {block version : Block}
    (found : state.blocks.lookup blockIndex = some block)
    (sameIdx : version.idx = block.idx) (wellFormed : version.WellFormed cfg)
    (region : cfg.hotColdSeparation = true →
      Region cfg version.blockType blockIndex) :
    Pools cfg (state.setBlock blockIndex version) where
  homes_perm := by
    have member : blockIndex ∈ state.blocks.keys :=
      State.inUse_iff_mem_keys.mp ⟨block, found⟩
    have same : (homes (state.setBlock blockIndex version)).Perm
        (homes state) := by
      unfold homes
      simp only [State.setBlock_blocks, AList.keys_insert,
        State.setBlock_retired]
      exact ((List.perm_cons_erase member).symm.append_right _).append_right _
    exact same.trans pools.homes_perm
  idx_eq := by
    intro other current
    rw [State.lookup_setBlock]
    split
    · next same =>
        subst same
        rintro ⟨⟩
        rw [sameIdx]
        exact pools.idx_eq _ _ found
    · exact pools.idx_eq other current
  wellFormed := by
    intro other current
    rw [State.lookup_setBlock]
    split
    · rintro ⟨⟩
      exact wellFormed
    · exact pools.wellFormed other current
  rested := pools.rested
  housed := pools.housed
  freeTyped := pools.freeTyped
  counted := pools.counted
  typed := by
    intro separated other current
    rw [State.lookup_setBlock]
    split
    · next same =>
        subst same
        rintro ⟨⟩
        exact region separated
    · exact pools.typed separated other current
  hotRegion := pools.hotRegion
  coolRegion := pools.coolRegion
  slots := pools.slots
  cursor := pools.cursor

theorem Pools.seat (pools : Pools cfg state) (pool : ActivePool)
    (index blockIndex : Nat) (reclaimMore : Bool) :
    Pools cfg { state.setActive pool { state.active pool with
        blocks := (state.active pool).blocks.set index blockIndex } with
      bReclaimMore := reclaimMore } := by
  refine pools.of_agree rfl rfl rfl (fun _ member => member)
    (fun _ member => member) ?_ ?_
  · intro other
    simp only [State.setActive_active]
    by_cases same : other = pool
    · subst same
      simp
    · simp [Function.update_of_ne same]
  · intro other inside
    simp only [State.setActive_active]
    by_cases same : other = pool
    · subst same
      simpa using inside
    · simpa [Function.update_of_ne same] using inside

theorem Pools.take (pools : Pools cfg state) {pool : FreePool} {block : Block}
    (member : block ∈ (state.free pool).blocks) :
    Pools cfg ((state.setBlock block.idx block).setFree pool
      { blocks := (state.free pool).blocks.eraseP (·.idx = block.idx)
        count := (state.free pool).count - 1 }) where
  homes_perm := by
    apply List.Perm.trans _ pools.homes_perm
    apply List.perm_iff_count.mpr
    intro blockIndex
    have absent : block.idx ∉ state.blocks.keys := by
      rw [← State.inUse_iff_mem_keys, State.not_inUse]
      exact pools.free_not_inUse member
    have moved := count_freeIndices_setFree (state.setBlock block.idx block)
      pool { blocks := (state.free pool).blocks.eraseP (·.idx = block.idx)
             count := (state.free pool).count - 1 } blockIndex
    have removed := count_indices_eraseP member ((state.free pool).count - 1)
      blockIndex
    have others : freeIndices (state.setBlock block.idx block) =
        freeIndices state := rfl
    unfold homes
    simp only [List.count_append, State.setFree_blocks,
      State.setBlock_blocks, AList.keys_insert, List.count_cons,
      List.erase_of_not_mem absent, State.setFree_retired,
      State.setBlock_retired, beq_iff_eq]
    rw [others] at moved
    simp only [State.setBlock_free] at moved
    omega
  idx_eq := by
    intro other current
    rw [State.setFree_blocks, State.lookup_setBlock]
    split
    · next same =>
        subst same
        rintro ⟨⟩
        rfl
    · exact pools.idx_eq other current
  wellFormed := by
    intro other current
    rw [State.setFree_blocks, State.lookup_setBlock]
    split
    · rintro ⟨⟩
      exact (pools.rested pool _ member).1
    · exact pools.wellFormed other current
  rested := by
    intro other current listed
    rw [State.setFree_free] at listed
    by_cases same : other = pool
    · subst same
      rw [Function.update_self] at listed
      exact pools.rested other current (List.mem_of_mem_eraseP listed)
    · rw [Function.update_of_ne same] at listed
      exact pools.rested other current listed
  housed := by
    intro other current listed
    rw [State.setFree_free] at listed
    by_cases same : other = pool
    · subst same
      rw [Function.update_self] at listed
      exact pools.housed other current (List.mem_of_mem_eraseP listed)
    · rw [Function.update_of_ne same] at listed
      exact pools.housed other current listed
  freeTyped := by
    intro separated other current listed
    rw [State.setFree_free] at listed
    by_cases same : other = pool
    · subst same
      rw [Function.update_self] at listed
      exact pools.freeTyped separated other current
        (List.mem_of_mem_eraseP listed)
    · rw [Function.update_of_ne same] at listed
      exact pools.freeTyped separated other current listed
  counted := by
    intro other used
    have before := pools.counted other used
    rw [State.setFree_free]
    by_cases same : other = pool
    · subst same
      rw [Function.update_self]
      have shorter : ((state.free other).blocks.eraseP
          (·.idx = block.idx)).length = (state.free other).blocks.length - 1 :=
        List.length_eraseP_of_mem member (by simp)
      simp only [shorter, before]
    · rw [Function.update_of_ne same]
      exact before
  typed := by
    intro separated other current
    rw [State.setFree_blocks, State.lookup_setBlock]
    split
    · next same =>
        subst same
        rintro ⟨⟩
        exact pools.freeTyped separated pool _ member
    · exact pools.typed separated other current
  hotRegion := pools.hotRegion
  coolRegion := pools.coolRegion
  slots := pools.slots
  cursor := pools.cursor

/-- A block leaves `blocks`; it has gone to a free list or nowhere. -/
theorem Pools.drop (pools : Pools cfg state) {blockIndex : Nat}
    (member : blockIndex ∈ state.blocks.keys)
    (blocks_eq : updated.blocks = state.blocks.erase blockIndex)
    (moved : ∀ other, (freeIndices updated).count other +
        updated.retired.count other =
      (freeIndices state).count other + state.retired.count other +
        if blockIndex = other then 1 else 0)
    (free : ∀ pool, ∀ block ∈ (updated.free pool).blocks,
      block ∈ (state.free pool).blocks ∨
        (state.blocks.lookup blockIndex = some block ∧ block.Empty ∧
          pool.Takes cfg block.blockType))
    (counted : ∀ pool, (state.free pool).count =
        (state.free pool).blocks.length →
      (updated.free pool).count = (updated.free pool).blocks.length)
    (hot : updated.hotWindow = state.hotWindow)
    (cool : updated.coolDownWindow = state.coolDownWindow)
    (active : updated.active = state.active) : Pools cfg updated := by
  have kept : ∀ other block, updated.blocks.lookup other = some block →
      state.blocks.lookup other = some block := by
    intro other block found
    rw [blocks_eq] at found
    by_cases same : other = blockIndex
    · subst same
      rw [AList.lookup_erase] at found
      cases found
    · rwa [AList.lookup_erase_ne same] at found
  refine {
    homes_perm := ?_
    idx_eq := fun other block found => pools.idx_eq _ _ (kept _ _ found)
    wellFormed := fun other block found => pools.wellFormed _ _ (kept _ _ found)
    rested := ?_
    housed := ?_
    freeTyped := ?_
    counted := fun pool used => counted pool (pools.counted pool used)
    typed := fun separated other block found =>
      pools.typed separated _ _ (kept _ _ found)
    hotRegion := by
      rw [hot]
      exact pools.hotRegion
    coolRegion := by
      rw [cool]
      exact pools.coolRegion
    slots := by
      rw [active]
      exact pools.slots
    cursor := by
      rw [active]
      exact pools.cursor }
  · apply List.Perm.trans _ pools.homes_perm
    apply List.perm_iff_count.mpr
    intro other
    have removed := count_keys_erase member other
    have gained := moved other
    unfold homes
    simp only [List.count_append, blocks_eq, AList.keys_erase]
    omega
  · intro pool block listed
    rcases free pool block listed with old | ⟨found, empty, _⟩
    · exact pools.rested pool block old
    · exact ⟨pools.wellFormed _ _ found, empty⟩
  · intro pool block listed
    rcases free pool block listed with old | ⟨found, _, takes⟩
    · exact pools.housed pool block old
    · rw [pools.idx_eq _ _ found]
      exact takes.holds fun separated => pools.typed separated _ _ found
  · intro separated pool block listed
    rcases free pool block listed with old | ⟨found, _, _⟩
    · exact pools.freeTyped separated pool block old
    · rw [pools.idx_eq _ _ found]
      exact pools.typed separated _ _ found

theorem Pools.release (pools : Pools cfg state) {pool : FreePool}
    {victim : Nat} {block : Block} {blocks : List Block}
    (found : state.blocks.lookup victim = some block) (empty : block.Empty)
    (takes : pool.Takes cfg block.blockType)
    (placed : blocks.Perm (block :: (state.free pool).blocks)) :
    Pools cfg { state.setFree pool
        { blocks := blocks, count := (state.free pool).count + 1 } with
      blocks := state.blocks.erase victim
      slotsLost := lostSlots cfg state victim } := by
  apply pools.drop (State.inUse_iff_mem_keys.mp ⟨block, found⟩) rfl
  · intro other
    have moved := count_freeIndices_setFree state pool
      { blocks := blocks, count := (state.free pool).count + 1 } other
    have gained : (blocks.map (·.idx)).count other =
        ((state.free pool).blocks.map (·.idx)).count other +
          if victim = other then 1 else 0 := by
      rw [(placed.map _).count_eq, List.map_cons, List.count_cons,
        pools.idx_eq _ _ found]
      simp
    simp only [FreeList.indices] at moved
    change (freeIndices (state.setFree pool _)).count other +
      state.retired.count other = _
    omega
  · intro other current listed
    change current ∈ (Function.update state.free pool _ other).blocks at listed
    by_cases same : other = pool
    · subst same
      rw [Function.update_self] at listed
      rcases List.mem_cons.mp (placed.mem_iff.mp listed) with rfl | old
      · exact .inr ⟨found, empty, takes⟩
      · exact .inl old
    · rw [Function.update_of_ne same] at listed
      exact .inl listed
  · intro other counted
    change (Function.update state.free pool _ other).count =
      (Function.update state.free pool _ other).blocks.length
    by_cases same : other = pool
    · subst same
      rw [Function.update_self]
      simp [placed.length_eq, counted]
    · rw [Function.update_of_ne same]
      exact counted
  all_goals rfl

theorem Pools.retire (pools : Pools cfg state) {victim : Nat} {block : Block}
    (found : state.blocks.lookup victim = some block) :
    Pools cfg { state with
      blocks := state.blocks.erase victim
      retired := victim :: state.retired
      slotsLost := lostSlots cfg state victim } := by
  apply pools.drop (State.inUse_iff_mem_keys.mp ⟨block, found⟩) rfl
  · intro other
    change (freeIndices state).count other +
      (victim :: state.retired).count other = _
    rw [List.count_cons]
    simp only [beq_iff_eq]
    omega
  · exact fun pool current listed => .inl listed
  · exact fun pool counted => counted
  all_goals rfl

end Steps

theorem Pools.step {cfg : Config} {env : Environment} {allow : Allowance}
    {before after : Phase × State} (step : Step cfg env allow before after)
    (pools : Pools cfg before.2) : Pools cfg after.2 := by
  cases step with
  | quiet same =>
      exact pools.of_agree same.blocks_eq same.free_eq same.retired_eq
        (fun _ member => same.hotWindow_eq ▸ member)
        (fun _ member => same.coolDownWindow_eq ▸ member)
        (fun pool => congrArg List.length (same.slots_eq pool))
        same.index_lt
  | take idle pool block member absent counted => exact pools.take member
  | touch refreshedPageCount found =>
      have region := fun separated => pools.typed separated _ _ found
      exact pools.setBlock found rfl { pools.wellFormed _ _ found with } region
  | @demote blockIndex front rest block phase state fresh window found =>
      have region := (pools.coolRegion front (by simp [window])).2
      have kept : Pools cfg (state.setBlock front
          { block with blockType := .cold }) :=
        pools.setBlock found rfl { pools.wellFormed _ _ found with }
          fun _ => region
      refine kept.of_agree rfl rfl rfl (fun _ member => member) ?_
        (fun _ => rfl) fun _ inside => inside
      intro blockIndex member
      change blockIndex ∈ state.coolDownWindow
      rw [window]
      exact List.mem_cons_of_mem _ member
  | spare => exact pools
  | pushHot fresh separated region inUse =>
      refine { pools with hotRegion := ?_ }
      intro blockIndex member
      rcases List.mem_append.mp member with old | new
      · exact pools.hotRegion blockIndex old
      · rw [List.mem_singleton.mp new]
        exact ⟨separated, region⟩
  | pushCool fresh separated region inUse =>
      refine { pools with coolRegion := ?_ }
      intro blockIndex member
      rcases List.mem_append.mp member with old | new
      · exact pools.coolRegion blockIndex old
      · rw [List.mem_singleton.mp new]
        exact ⟨separated, region⟩
  | tag blockType fresh fits region found =>
      exact pools.setBlock found rfl { pools.wellFormed _ _ found with }
        fun _ => region
  | accept => exact pools
  | seat pool index reclaimMore fresh admits inUse => exact pools.seat _ _ _ _
  | repair pool index fresh admits inUse erasing named =>
      exact pools.seat _ _ _ _
  | aim => exact pools
  | settle => exact pools
  | create units absent inside whole => exact { pools with }
  | await => exact pools
  | invalidate mapped inside located found valid stores =>
      have region := fun separated => pools.typed separated _ _ found
      exact pools.setBlock found rfl
        ((pools.wellFormed _ _ found).clear _ _) region
  | program aimed found inside waits mapped written scheduled =>
      obtain ⟨_, _, _, _, version⟩ := Block.write_ok written
      have region := fun separated => pools.typed separated _ _ found
      have kept := pools.setBlock found (by rw [version])
        ((pools.wellFormed _ _ found).write inside written)
        (by rwa [version])
      exact { kept with }
  | programHot allowed aimed found inside waits mapped written =>
      obtain ⟨_, _, _, _, version⟩ := Block.write_ok written
      have region := fun separated => pools.typed separated _ _ found
      have kept := pools.setBlock found (by rw [version])
        ((pools.wellFormed _ _ found).write inside written)
        (by rwa [version])
      exact { kept with }
  | unmap waits => exact { pools with }
  | select allowed settled idle victims window nodup full windowed cold =>
      refine pools.of_agree rfl rfl rfl (fun _ member => member) ?_
        (fun _ => rfl) fun _ inside => inside
      intro blockIndex member
      subst windowed
      dsimp only at member
      split at member
      · exact mem_of_mem_eraseAll member
      · exact member
  | selectHot allowed settled idle amount separated =>
      exact pools.of_agree rfl rfl rfl
        (fun _ member => List.mem_of_mem_drop member)
        (fun _ member => member) (fun _ => rfl) fun _ inside => inside
  | collect => exact pools
  | cleaned => exact pools
  | wipe allowed idle next found nothing =>
      have region := fun separated => pools.typed separated _ _ found
      exact pools.setBlock found rfl (pools.wellFormed _ _ found).erase region
  | release pool erasing found empty takes placed =>
      exact pools.release found empty takes placed
  | retire erasing found empty => exact pools.retire found
  | finish => exact pools
  | setup => exact { pools with }
  | swap => exact { pools with }
  | tick => exact { pools with }
  | skipLayer => exact { pools with }
  | popLayer => exact { pools with }
  | visited => exact pools
  | drained => exact pools

end SimpleSSD.FTL
