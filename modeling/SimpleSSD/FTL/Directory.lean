import SimpleSSD.FTL.Pools

namespace SimpleSSD.FTL

/-! The mapping table against the valid units: outside the pending units, the
entries that name a physical page and the valid units determine each other. -/

structure Maps (cfg : Config) (phase : Phase) (state : State) : Prop where
  entry : ∀ lpn mapping, state.table.lookup lpn = some mapping →
    ∀ idx < cfg.bitsetSize,
      mapping idx = (cfg.totalPhysicalBlocks, cfg.pagesInBlock) ∨
        IsLocation cfg (mapping idx)
  backed : ∀ lpn mapping, state.table.lookup lpn = some mapping →
    ∀ idx < cfg.bitsetSize, IsLocation cfg (mapping idx) →
      (lpn, idx) ∉ phase.pending →
        state.Stores (mapping idx).1 (mapping idx).2 idx lpn
  stored : ∀ blockIndex pageIndex idx lpn,
    state.Stores blockIndex pageIndex idx lpn →
      (lpn, idx) ∉ phase.pending ∧ ∃ mapping,
        state.table.lookup lpn = some mapping ∧
          mapping idx = (blockIndex, pageIndex)
  waits : ∀ lpn idx, (lpn, idx) ∈ phase.pending →
    idx < cfg.bitsetSize ∧ ∃ mapping, state.table.lookup lpn = some mapping
  whole : cfg.bRandomTweak = false → ∀ lpn mapping,
    state.table.lookup lpn = some mapping → ∀ idx < cfg.bitsetSize,
      IsLocation cfg (mapping idx) ∨ (lpn, idx) ∈ phase.pending
  mapped_iff : ∀ lpn idx, (lpn, idx) ∈ phase.mapped ↔
    idx < cfg.bitsetSize ∧ ∃ mapping,
      state.table.lookup lpn = some mapping ∧ IsLocation cfg (mapping idx)

section Steps

variable {cfg : Config} {phase last : Phase} {state updated : State}

theorem emptyMapping_not_location (idx : Nat) :
    ¬ IsLocation cfg (emptyMapping cfg idx) :=
  fun located => Nat.lt_irrefl _ located.1

theorem Pools.stores_inside (pools : Pools cfg state)
    {blockIndex pageIndex idx lpn : Nat}
    (stores : state.Stores blockIndex pageIndex idx lpn) :
    IsLocation cfg (blockIndex, pageIndex) ∧ idx < cfg.bitsetSize := by
  obtain ⟨block, found, valid, _⟩ := stores
  have wellFormed := pools.wellFormed _ _ found
  have below := wellFormed.valid_lt _ _ valid
  have bound := wellFormed.nextWritePage_le idx
  exact ⟨⟨pools.inUse_lt ⟨block, found⟩, Nat.lt_of_lt_of_le below bound⟩,
    wellFormed.valid_unit _ _ valid⟩

theorem State.stores_clear {blockIndex pageIndex idx : Nat} {block : Block}
    (found : state.blocks.lookup blockIndex = some block)
    (other page unit lpn : Nat) :
    (state.setBlock blockIndex { block with
        validBits := Block.setBit block.validBits pageIndex idx false
        }).Stores other page unit lpn ↔
      ¬ (other = blockIndex ∧ page = pageIndex ∧ unit = idx) ∧
        state.Stores other page unit lpn := by
  rw [State.stores_setBlock]
  split
  · next same =>
      subst same
      simp only [Block.setBit_false_eq_true, State.Stores, found,
        Option.some.injEq, exists_eq_left', true_and, and_assoc]
  · next different => simp [different]

theorem State.stores_program {blockIndex idx lpn : Nat}
    {block version : Block} (pools : Pools cfg state)
    (found : state.blocks.lookup blockIndex = some block)
    (written : block.write (block.nextWritePage idx) lpn idx = .ok version)
    (other page unit stored : Nat) :
    (state.setBlock blockIndex version).Stores other page unit stored ↔
      (other = blockIndex ∧ page = block.nextWritePage idx ∧ unit = idx ∧
        stored = lpn) ∨ state.Stores other page unit stored := by
  obtain ⟨_, _, _, _, rfl⟩ := Block.write_ok written
  rw [State.stores_setBlock]
  split
  · next same =>
      subst same
      have erased : ∀ page unit, page = block.nextWritePage idx →
          unit = idx → block.validBits page unit = false := by
        rintro _ _ rfl rfl
        by_contra valid
        exact Nat.lt_irrefl _ ((pools.wellFormed _ _ found).valid_lt _ _
          (Bool.not_eq_false _ ▸ valid))
      simp only [Block.setBit_true_eq_true, State.Stores, found,
        Option.some.injEq, exists_eq_left', true_and]
      by_cases here : page = block.nextWritePage idx ∧ unit = idx
      · obtain ⟨rfl, rfl⟩ := here
        simp only [and_self, if_true, true_and,
          erased _ _ rfl rfl, Bool.false_eq_true, false_and, or_false]
        exact eq_comm
      · simp only [here, if_false, false_or]
        tauto
  · next different => simp [different]

theorem Maps.of_agree (maps : Maps cfg phase state)
    (table_eq : updated.table = state.table)
    (stores_eq : updated.Stores = state.Stores)
    (pending_eq : last.pending = phase.pending)
    (mapped_eq : last.mapped = phase.mapped) : Maps cfg last updated where
  entry := by
    rw [table_eq]
    exact maps.entry
  backed := by
    rw [table_eq, stores_eq, pending_eq]
    exact maps.backed
  stored := by
    rw [table_eq, stores_eq, pending_eq]
    exact maps.stored
  waits := by
    rw [table_eq, pending_eq]
    exact maps.waits
  whole := by
    rw [table_eq, pending_eq]
    exact maps.whole
  mapped_iff := by
    rw [table_eq, mapped_eq]
    exact maps.mapped_iff

theorem Maps.create (maps : Maps cfg phase state) {lpn : Nat}
    {units : Set Nat} (absent : state.table.lookup lpn = none)
    (inside : ∀ idx ∈ units, idx < cfg.bitsetSize)
    (whole : cfg.bRandomTweak = false →
      ∀ idx < cfg.bitsetSize, idx ∈ units) :
    Maps cfg
      { phase with
        pending := phase.pending ∪ { unit | unit.1 = lpn ∧ unit.2 ∈ units } }
      (state.setMapping lpn (emptyMapping cfg)) where
  entry := by
    intro other mapping found idx bound
    rw [State.lookup_setMapping] at found
    split at found
    · cases found
      exact .inl rfl
    · exact maps.entry other mapping found idx bound
  backed := by
    intro other mapping found idx bound located settled
    rw [State.lookup_setMapping] at found
    split at found
    · cases found
      exact absurd located (emptyMapping_not_location idx)
    · exact maps.backed other mapping found idx bound located
        fun waits => settled (.inl waits)
  stored := by
    intro blockIndex pageIndex idx other stores
    obtain ⟨settled, mapping, found, located⟩ := maps.stored _ _ _ _ stores
    have different : other ≠ lpn := by
      rintro rfl
      rw [absent] at found
      cases found
    refine ⟨?_, mapping, ?_, located⟩
    · rintro (waits | ⟨same, _⟩)
      · exact settled waits
      · exact different same
    · rw [State.lookup_setMapping, if_neg different]
      exact found
  waits := by
    rintro other idx (waits | ⟨rfl, member⟩)
    · obtain ⟨bound, mapping, found⟩ := maps.waits other idx waits
      refine ⟨bound, ?_⟩
      rw [State.lookup_setMapping]
      split
      · exact ⟨_, rfl⟩
      · exact ⟨mapping, found⟩
    · exact ⟨inside idx member, _, by
        rw [State.lookup_setMapping, if_pos rfl]⟩
  whole := by
    intro plain other mapping found idx bound
    rw [State.lookup_setMapping] at found
    split at found
    · next same => exact .inr (.inr ⟨same, whole plain idx bound⟩)
    · exact (maps.whole plain other mapping found idx bound).imp_right .inl
  mapped_iff := by
    intro other idx
    rw [maps.mapped_iff, State.lookup_setMapping]
    split
    · next same =>
        subst same
        simp [absent, emptyMapping_not_location]
    · exact Iff.rfl

theorem Maps.await (pools : Pools cfg state) (maps : Maps cfg phase state)
    {lpn : Nat} {units : Set Nat} {mapping : Mapping}
    (found : state.table.lookup lpn = some mapping)
    (inside : ∀ idx ∈ units, idx < cfg.bitsetSize ∧
      ¬ IsLocation cfg (mapping idx)) :
    Maps cfg
      { phase with
        pending := phase.pending ∪ { unit | unit.1 = lpn ∧ unit.2 ∈ units } }
      state where
  entry := maps.entry
  backed := fun other current lookup idx bound located settled =>
    maps.backed other current lookup idx bound located
      fun waits => settled (.inl waits)
  stored := by
    intro blockIndex pageIndex idx other stores
    obtain ⟨settled, current, lookup, located⟩ := maps.stored _ _ _ _ stores
    refine ⟨?_, current, lookup, located⟩
    rintro (waits | ⟨same, member⟩)
    · exact settled waits
    · have same : other = lpn := same
      subst same
      rw [found] at lookup
      cases lookup
      apply (inside idx member).2
      rw [located]
      exact (pools.stores_inside stores).1
  waits := by
    rintro other idx (waits | ⟨rfl, member⟩)
    · exact maps.waits other idx waits
    · exact ⟨(inside idx member).1, mapping, found⟩
  whole := fun plain other current lookup idx bound =>
    (maps.whole plain other current lookup idx bound).imp_right .inl
  mapped_iff := maps.mapped_iff

theorem Maps.invalidate (maps : Maps cfg phase state)
    {lpn idx blockIndex pageIndex : Nat} {mapping : Mapping} {block : Block}
    (mapped : state.table.lookup lpn = some mapping)
    (inside : idx < cfg.bitsetSize)
    (located : mapping idx = (blockIndex, pageIndex))
    (found : state.blocks.lookup blockIndex = some block)
    (valid : block.validBits pageIndex idx = true)
    (stores : block.lpns pageIndex idx = lpn) :
    Maps cfg { phase with pending := insert (lpn, idx) phase.pending }
      (state.setBlock blockIndex { block with
        validBits := Block.setBit block.validBits pageIndex idx false }) where
  entry := maps.entry
  backed := by
    intro other current lookup unit bound location settled
    rw [State.stores_clear found]
    have old := maps.backed other current lookup unit bound location
      fun waits => settled (.inr waits)
    refine ⟨?_, old⟩
    rintro ⟨sameBlock, samePage, rfl⟩
    obtain ⟨_, found', _, stored⟩ := old
    rw [sameBlock, found] at found'
    cases found'
    rw [samePage, stores] at stored
    subst stored
    exact settled (.inl rfl)
  stored := by
    intro other page unit stored storesAfter
    obtain ⟨elsewhere, before⟩ :=
      (State.stores_clear found other page unit stored).mp storesAfter
    obtain ⟨settled, current, lookup, location⟩ := maps.stored _ _ _ _ before
    refine ⟨?_, current, lookup, location⟩
    rintro (same | waits)
    · cases same
      rw [mapped] at lookup
      cases lookup
      rw [located] at location
      cases location
      exact elsewhere ⟨rfl, rfl, rfl⟩
    · exact settled waits
  waits := by
    rintro other unit (same | waits)
    · cases same
      exact ⟨inside, mapping, mapped⟩
    · exact maps.waits other unit waits
  whole := fun plain other current lookup unit bound =>
    (maps.whole plain other current lookup unit bound).imp_right .inr
  mapped_iff := maps.mapped_iff

theorem Maps.program (pools : Pools cfg state) (maps : Maps cfg phase state)
    {lpn idx blockIndex : Nat} {mapping : Mapping} {block version : Block}
    (found : state.blocks.lookup blockIndex = some block)
    (inside : idx < cfg.bitsetSize) (waits : (lpn, idx) ∈ phase.pending)
    (mapped : state.table.lookup lpn = some mapping)
    (written : block.write (block.nextWritePage idx) lpn idx = .ok version) :
    Maps cfg
      { phase with
        pending := phase.pending \ {(lpn, idx)}
        mapped := insert (lpn, idx) phase.mapped }
      ((state.setBlock blockIndex version).setMapping lpn
        (Function.update mapping idx
          (blockIndex, block.nextWritePage idx))) := by
  have location : IsLocation cfg (blockIndex, block.nextWritePage idx) := by
    obtain ⟨_, pageInside, _⟩ := Block.write_ok written
    rw [(pools.wellFormed _ _ found).pageCount_eq] at pageInside
    exact ⟨pools.inUse_lt ⟨block, found⟩, pageInside⟩
  have lookup : ∀ other,
      ((state.setBlock blockIndex version).setMapping lpn
        (Function.update mapping idx
          (blockIndex, block.nextWritePage idx))).table.lookup other =
      if other = lpn then some (Function.update mapping idx
        (blockIndex, block.nextWritePage idx))
      else state.table.lookup other :=
    fun other => State.lookup_setMapping _ _ _ other
  have stores := State.stores_program pools found written
  refine { entry := ?_, backed := ?_, stored := ?_, waits := ?_, whole := ?_,
           mapped_iff := ?_ }
  · intro other current listed unit bound
    rw [lookup] at listed
    split at listed
    · cases listed
      by_cases same : unit = idx
      · subst same
        simp [location]
      · simpa [Function.update_of_ne same] using
          maps.entry lpn mapping mapped unit bound
    · exact maps.entry other current listed unit bound
  · intro other current listed unit bound located settled
    rw [lookup] at listed
    change (state.setBlock blockIndex version).Stores _ _ unit other
    rw [stores]
    by_cases same : other = lpn ∧ unit = idx
    · obtain ⟨rfl, rfl⟩ := same
      rw [if_pos rfl] at listed
      cases listed
      simp
    · have unsettled : (other, unit) ∉ phase.pending := fun old =>
        settled ⟨old, by simpa using same⟩
      right
      split at listed
      · next sameLpn =>
          subst sameLpn
          cases listed
          have different : unit ≠ idx := fun sameUnit => same ⟨rfl, sameUnit⟩
          rw [Function.update_of_ne different] at located ⊢
          exact maps.backed other mapping mapped unit bound located unsettled
      · exact maps.backed other current listed unit bound located unsettled
  · intro other page unit stored storesAfter
    rcases (stores other page unit stored).mp storesAfter with
      ⟨rfl, rfl, rfl, rfl⟩ | old
    · refine ⟨fun pending => pending.2 rfl, Function.update mapping unit
        (other, block.nextWritePage unit), ?_, Function.update_self ..⟩
      rw [lookup, if_pos rfl]
    · obtain ⟨settled, current, listed, located⟩ := maps.stored _ _ _ _ old
      refine ⟨fun pending => settled pending.1, ?_⟩
      rw [lookup]
      split
      · next same =>
          subst same
          rw [mapped] at listed
          cases listed
          refine ⟨_, rfl, ?_⟩
          rw [Function.update_of_ne]
          · exact located
          · rintro rfl
            exact settled waits
      · exact ⟨current, listed, located⟩
  · rintro other unit ⟨old, _⟩
    obtain ⟨bound, current, listed⟩ := maps.waits other unit old
    refine ⟨bound, ?_⟩
    rw [lookup]
    split
    · exact ⟨_, rfl⟩
    · exact ⟨current, listed⟩
  · intro plain other current listed unit bound
    rw [lookup] at listed
    by_cases same : other = lpn ∧ unit = idx
    · obtain ⟨rfl, rfl⟩ := same
      rw [if_pos rfl] at listed
      cases listed
      simp [location]
    · have kept : (other, unit) ∈ phase.pending →
          (other, unit) ∈ phase.pending \ {(lpn, idx)} := fun old =>
        ⟨old, by simpa using same⟩
      split at listed
      · next sameLpn =>
          subst sameLpn
          cases listed
          have different : unit ≠ idx := fun sameUnit => same ⟨rfl, sameUnit⟩
          rw [Function.update_of_ne different]
          exact (maps.whole plain other mapping mapped unit bound).imp_right kept
      · exact (maps.whole plain other current listed unit bound).imp_right kept
  · intro other unit
    rw [lookup]
    by_cases same : other = lpn ∧ unit = idx
    · obtain ⟨rfl, rfl⟩ := same
      simp [location, inside]
    · have old : (other, unit) ∈ insert (lpn, idx) phase.mapped ↔
          (other, unit) ∈ phase.mapped := by
        rw [Set.mem_insert_iff, Prod.mk.injEq]
        simp [same]
      rw [old, maps.mapped_iff]
      split
      · next sameLpn =>
          subst sameLpn
          have different : unit ≠ idx := fun sameUnit => same ⟨rfl, sameUnit⟩
          simp [mapped, Function.update_of_ne different]
      · exact Iff.rfl

theorem Maps.unmap (maps : Maps cfg phase state) {lpn : Nat}
    (pools : Pools cfg state)
    (waits : ∀ idx < cfg.bitsetSize, (lpn, idx) ∈ phase.pending) :
    Maps cfg
      { phase with
        pending := phase.pending \ { unit | unit.1 = lpn }
        mapped := phase.mapped \ { unit | unit.1 = lpn } }
      { state with table := state.table.erase lpn } := by
  have lookup : ∀ other mapping,
      (state.table.erase lpn).lookup other = some mapping ↔
        other ≠ lpn ∧ state.table.lookup other = some mapping := by
    intro other mapping
    by_cases same : other = lpn
    · subst same
      simp [AList.lookup_erase]
    · simp [AList.lookup_erase_ne same, same]
  refine { entry := ?_, backed := ?_, stored := ?_, waits := ?_, whole := ?_,
           mapped_iff := ?_ }
  · intro other mapping listed
    exact maps.entry other mapping ((lookup _ _).mp listed).2
  · intro other mapping listed idx bound located settled
    obtain ⟨different, old⟩ := (lookup _ _).mp listed
    exact maps.backed other mapping old idx bound located
      fun pending => settled ⟨pending, different⟩
  · intro blockIndex pageIndex idx other stores
    obtain ⟨settled, mapping, old, located⟩ := maps.stored _ _ _ _ stores
    refine ⟨fun pending => settled pending.1, mapping, ?_, located⟩
    refine (lookup _ _).mpr ⟨?_, old⟩
    rintro rfl
    exact settled (waits idx (pools.stores_inside stores).2)
  · rintro other idx ⟨pending, different⟩
    obtain ⟨bound, mapping, old⟩ := maps.waits other idx pending
    exact ⟨bound, mapping, (lookup _ _).mpr ⟨different, old⟩⟩
  · intro plain other mapping listed idx bound
    obtain ⟨different, old⟩ := (lookup _ _).mp listed
    exact (maps.whole plain other mapping old idx bound).imp_right
      fun pending => ⟨pending, different⟩
  · intro other idx
    simp only [Set.mem_sdiff, maps.mapped_iff, Set.mem_ofPred_eq, lookup]
    constructor
    · rintro ⟨⟨bound, mapping, old, located⟩, different⟩
      exact ⟨bound, mapping, ⟨different, old⟩, located⟩
    · rintro ⟨bound, mapping, ⟨different, old⟩, located⟩
      exact ⟨⟨bound, mapping, old, located⟩, different⟩

end Steps

theorem Maps.step {cfg : Config} {env : Environment} {allow : Allowance}
    {before after : Phase × State} (step : Step cfg env allow before after)
    (pools : Pools cfg before.2) (maps : Maps cfg before.1 before.2) :
    Maps cfg after.1 after.2 := by
  cases step with
  | quiet same =>
      exact maps.of_agree same.table_eq (State.stores_congr same.blocks_eq)
        rfl rfl
  | take idle pool block member absent counted =>
      refine maps.of_agree rfl ?_ rfl rfl
      exact State.stores_setBlock_empty
        (State.not_stores_of_not_inUse (State.not_inUse.mpr absent))
        (pools.rested pool block member).2.valid_eq
  | touch refreshedPageCount found =>
      exact maps.of_agree rfl (State.stores_setBlock_same found rfl rfl) rfl rfl
  | demote fresh window found =>
      exact maps.of_agree rfl (State.stores_setBlock_same found rfl rfl) rfl rfl
  | spare => exact maps.of_agree rfl rfl rfl rfl
  | pushHot => exact maps.of_agree rfl rfl rfl rfl
  | pushCool => exact maps.of_agree rfl rfl rfl rfl
  | tag blockType fresh fits region found =>
      exact maps.of_agree rfl (State.stores_setBlock_same found rfl rfl) rfl rfl
  | accept => exact maps.of_agree rfl rfl rfl rfl
  | seat => exact maps.of_agree rfl rfl rfl rfl
  | repair => exact maps.of_agree rfl rfl rfl rfl
  | aim => exact maps.of_agree rfl rfl rfl rfl
  | settle => exact maps.of_agree rfl rfl rfl rfl
  | create units absent inside whole => exact maps.create absent inside whole
  | await units found inside => exact Maps.await pools maps found inside
  | invalidate mapped inside located found valid stores =>
      exact maps.invalidate mapped inside located found valid stores
  | program aimed found inside waits mapped written scheduled =>
      exact (Maps.program pools maps found inside waits mapped
        written).of_agree rfl rfl rfl rfl
  | programHot allowed aimed found inside waits mapped written =>
      exact (Maps.program pools maps found inside waits mapped
        written).of_agree rfl rfl rfl rfl
  | unmap waits => exact maps.unmap pools waits
  | select => exact maps.of_agree rfl rfl rfl rfl
  | selectHot => exact maps.of_agree rfl rfl rfl rfl
  | collect => exact maps.of_agree rfl rfl rfl rfl
  | cleaned => exact maps.of_agree rfl rfl rfl rfl
  | wipe allowed idle next found nothing =>
      refine maps.of_agree rfl ?_ rfl rfl
      exact State.stores_setBlock_empty
        (State.not_stores_of_empty found nothing) fun _ _ => rfl
  | release pool erasing found empty takes placed =>
      exact maps.of_agree rfl (State.stores_of_erase rfl
        (State.not_stores_of_empty found empty.valid_eq)) rfl rfl
  | retire erasing found empty =>
      exact maps.of_agree rfl (State.stores_of_erase rfl
        (State.not_stores_of_empty found empty.valid_eq)) rfl rfl
  | finish => exact maps.of_agree rfl rfl rfl rfl
  | setup => exact maps.of_agree rfl rfl rfl rfl
  | swap => exact maps.of_agree rfl rfl rfl rfl
  | tick => exact maps.of_agree rfl rfl rfl rfl
  | skipLayer => exact maps.of_agree rfl rfl rfl rfl
  | popLayer => exact maps.of_agree rfl rfl rfl rfl
  | visited => exact maps.of_agree rfl rfl rfl rfl
  | drained => exact maps.of_agree rfl rfl rfl rfl

/-- A step stores nothing new but the unit that it programs into the aimed
block; the layer of that unit is scheduled, unless the hot pool is filled. -/
theorem Step.stores {cfg : Config} {env : Environment} {allow : Allowance}
    {before after : Phase × State} (step : Step cfg env allow before after)
    (pools : Pools cfg before.2) {blockIndex pageIndex idx lpn : Nat}
    (stores : after.2.Stores blockIndex pageIndex idx lpn) :
    before.2.Stores blockIndex pageIndex idx lpn ∨
      (before.1.target = some blockIndex ∧ (allow.hotFill ∨ ∃ eraseCount,
        before.2.refresh.setRefreshPeriod cfg env
          before.2.stat.refreshCallCount eraseCount blockIndex
          (pageIndex % 64) = .ok after.2.refresh)) := by
  have old : ∀ {state updated : State}, updated.Stores = state.Stores →
      updated.Stores blockIndex pageIndex idx lpn →
      state.Stores blockIndex pageIndex idx lpn := by
    intro state updated same stored
    rwa [same] at stored
  cases step with
  | quiet same => exact .inl (old (State.stores_congr same.blocks_eq) stores)
  | take idle pool block member absent counted =>
      exact .inl (old (State.stores_setBlock_empty
        (State.not_stores_of_not_inUse (State.not_inUse.mpr absent))
        (pools.rested pool block member).2.valid_eq) stores)
  | touch refreshedPageCount found =>
      refine .inl (old ?_ stores)
      exact State.stores_setBlock_same found rfl rfl
  | demote fresh window found =>
      refine .inl (old ?_ stores)
      exact State.stores_setBlock_same found rfl rfl
  | tag blockType fresh fits region found =>
      refine .inl (old ?_ stores)
      exact State.stores_setBlock_same found rfl rfl
  | invalidate mapped inside located found valid stored =>
      exact .inl ((State.stores_clear found _ _ _ _).mp stores).2
  | program aimed found inside waits mapped written scheduled =>
      rcases (State.stores_program pools found written _ _ _ _).mp stores with
        ⟨rfl, rfl, rfl, rfl⟩ | kept
      · exact .inr ⟨aimed, .inr ⟨_, scheduled⟩⟩
      · exact .inl kept
  | programHot allowed aimed found inside waits mapped written =>
      rcases (State.stores_program pools found written _ _ _ _).mp stores with
        ⟨rfl, rfl, rfl, rfl⟩ | kept
      · exact .inr ⟨aimed, .inl allowed⟩
      · exact .inl kept
  | wipe allowed idle next found nothing =>
      exact .inl (old (State.stores_setBlock_empty
        (State.not_stores_of_empty found nothing) fun _ _ => rfl) stores)
  | release pool erasing found empty takes placed =>
      exact .inl (old (State.stores_of_erase rfl
        (State.not_stores_of_empty found empty.valid_eq)) stores)
  | retire erasing found empty =>
      exact .inl (old (State.stores_of_erase rfl
        (State.not_stores_of_empty found empty.valid_eq)) stores)
  | _ => exact .inl stores

end SimpleSSD.FTL
