import SimpleSSD.FTL.Directory

namespace SimpleSSD.FTL

open Machine

/-! The machine of elementary steps, and the allocation functions as runs of
it. -/

def machine (cfg : Config) (env : Environment) (allow : Allowance) :
    Machine Panic State Phase where
  step := Step cfg env allow
  fault := fun config raised stopped => SameHistory cfg config.2 stopped ∧
    Cause cfg env allow config.1 config.2 raised
  sound := fun config => Pools cfg config.2 ∧ Maps cfg config.1 config.2
  sound_step := fun step sound =>
    ⟨Pools.step step sound.1, Maps.step step sound.1 sound.2⟩

def Frame (state updated : State) : Prop :=
  ∀ blockIndex block, state.blocks.lookup blockIndex = some block →
    ∃ version, updated.blocks.lookup blockIndex = some version ∧
      version.validBits = block.validBits ∧ version.lpns = block.lpns ∧
      version.nextWritePage = block.nextWritePage

theorem Frame.refl (state : State) : Frame state state :=
  fun _ block found => ⟨block, found, rfl, rfl, rfl⟩

theorem Frame.trans {first second third : State}
    (left : Frame first second) (right : Frame second third) :
    Frame first third := by
  intro blockIndex block found
  obtain ⟨middle, found', valid, lpns, next⟩ := left blockIndex block found
  obtain ⟨version, found'', valid', lpns', next'⟩ :=
    right blockIndex middle found'
  exact ⟨version, found'', valid'.trans valid, lpns'.trans lpns,
    next'.trans next⟩

theorem Frame.of_blocks_eq {state updated : State}
    (same : updated.blocks = state.blocks) : Frame state updated := by
  intro blockIndex block found
  exact ⟨block, same ▸ found, rfl, rfl, rfl⟩

theorem Frame.version {state updated : State} {blockIndex : Nat}
    {block version : Block}
    (found : state.blocks.lookup blockIndex = some block)
    (replaced : updated.blocks = state.blocks.insert blockIndex version)
    (valid : version.validBits = block.validBits)
    (lpns : version.lpns = block.lpns)
    (next : version.nextWritePage = block.nextWritePage) :
    Frame state updated := by
  intro other current lookup
  rw [replaced]
  by_cases same : other = blockIndex
  · subst same
    rw [found] at lookup
    cases lookup
    exact ⟨version, AList.lookup_insert _, valid, lpns, next⟩
  · rw [AList.lookup_insert_ne same]
    exact ⟨current, lookup, rfl, rfl, rfl⟩

theorem Frame.insert {state updated : State} {blockIndex : Nat}
    {block : Block} (absent : state.blocks.lookup blockIndex = none)
    (inserted : updated.blocks = state.blocks.insert blockIndex block) :
    Frame state updated := by
  intro other current lookup
  have different : other ≠ blockIndex := by
    rintro rfl
    rw [absent] at lookup
    cases lookup
  refine ⟨current, ?_, rfl, rfl, rfl⟩
  rw [inserted, AList.lookup_insert_ne different]
  exact lookup

theorem Frame.inUse {state updated : State} (frame : Frame state updated)
    {blockIndex : Nat} (inUse : state.InUse blockIndex) :
    updated.InUse blockIndex := by
  obtain ⟨block, found⟩ := inUse
  obtain ⟨version, found', _⟩ := frame blockIndex block found
  exact ⟨version, found'⟩

/-- What allocation does not touch: the table, the schedule, the counters and the
history. -/
def State.books (state : State) :
    AList (fun _ : Nat => Mapping) × RefreshQueue × Stat × List Nat :=
  (state.table, state.refresh, state.stat, state.slotsLost)

section Allocation

variable {cfg : Config} {env : Environment} {allow : Allowance}
  {phase : Phase} {state : State}

/-- History is not explained by the machine. -/
theorem quiet_note (record : Record) :
    Quiet cfg state (state.note record) :=
  ⟨rfl, rfl, rfl, rfl, rfl, rfl, rfl, rfl, rfl, rfl, rfl, fun _ => rfl,
    fun _ inside => inside⟩

structure Allocated (cfg : Config) (before after : State) (blockIndex : Nat) :
    Prop where
  frame : Frame before after
  books : after.books = before.books
  active_eq : after.active = before.active
  others : ∀ other, other ≠ blockIndex →
    (after.InUse other ↔ before.InUse other)
  found : ∃ block, after.blocks.lookup blockIndex = some block ∧ block.Empty

theorem searchFree_mem {idx : Nat} {blocks : List Block} {block : Block}
    (found : searchFree cfg idx blocks = some block) : block ∈ blocks := by
  unfold searchFree at found
  rcases Option.or_eq_some_iff.mp found with first | ⟨_, first⟩
  · exact List.mem_of_find?_eq_some first
  · exact List.mem_of_head? first

theorem searchFree_none {idx : Nat} {blocks : List Block}
    (missing : searchFree cfg idx blocks = none) : blocks = [] := by
  unfold searchFree at missing
  exact List.head?_eq_none_iff.mp (Option.or_eq_none_iff.mp missing).2

theorem takeFreeBlock_follows (pool : FreePool) {noneLeft inUse : Panic}
    {idx : Nat} (settled : phase.fresh = none)
    (inside : idx < cfg.pageCountToMaxPerf)
    (used : pool ∈ freePools cfg ∨ allow.policy)
    (text : noneLeft = .noFreeBlockLeft ∨ noneLeft = .noFreeColdBlockLeft) :
    (machine cfg env allow).Follows
      (takeFreeBlock cfg pool noneLeft inUse idx) phase state
      fun blockIndex last final =>
        last = { phase with fresh := some (blockIndex, .taken) } ∧
        Allocated cfg state final blockIndex ∧
        pool.Holds cfg blockIndex := by
  apply Follows.ofSound
  rintro ⟨pools, _⟩
  unfold takeFreeBlock
  rw [if_neg (by omega)]
  apply Follows.getBind
  dsimp only
  split
  · apply Follows.throwBind
    refine ⟨SameHistory.refl state, ?_⟩
    rcases text with rfl | rfl
    · exact .noFreeBlock
    · exact .noFreeColdBlock
  next counted =>
  split
  · next missing =>
      apply Follows.throw
      refine ⟨SameHistory.refl state, ?_⟩
      rcases used with used | allowed
      · have counter := pools.counted pool used
        rw [searchFree_none missing] at counter
        exact absurd counter counted
      · exact .refused allowed (by decide)
  · next block search =>
      have member := searchFree_mem search
      have absent := pools.free_not_inUse member
      rw [if_neg (by simp [absent])]
      refine Follows.bindStep rfl (.take settled pool block member absent counted) ?_
      refine Follows.bindStep rfl (.quiet (quiet_note _)) ?_
      apply Follows.pure
      refine ⟨rfl, ⟨Frame.insert absent rfl, rfl, rfl, ?_,
        block, ?_, (pools.rested pool block member).2⟩,
        pools.housed pool block member⟩
      · intro other different
        exact State.inUse_setBlock.trans (or_iff_right different)
      · exact AList.lookup_insert _

theorem Allocated.retag {middle after : State} {blockIndex : Nat}
    {block : Block} (allocated : Allocated cfg state middle blockIndex)
    (found : middle.blocks.lookup blockIndex = some block)
    (blockType : BlockPoolType) (refreshedPageCount : Nat)
    (blocks_eq : after.blocks = middle.blocks.insert blockIndex { block with
      blockType := blockType, refreshedPageCount := refreshedPageCount })
    (active_eq : after.active = middle.active)
    (books : after.books = middle.books) :
    Allocated cfg state after blockIndex := by
  obtain ⟨block', found', empty⟩ := allocated.found
  rw [found] at found'
  cases found'
  refine ⟨allocated.frame.trans (Frame.version found blocks_eq rfl rfl rfl),
    books.trans allocated.books, active_eq.trans allocated.active_eq, ?_, { block with
      blockType := blockType, refreshedPageCount := refreshedPageCount }, ?_,
    { empty with }⟩
  · intro other different
    have same : after.InUse = (middle.setBlock blockIndex { block with
        blockType := blockType
        refreshedPageCount := refreshedPageCount }).InUse :=
      State.inUse_congr blocks_eq
    rw [same, State.inUse_setBlock_same ⟨block, found⟩]
    exact allocated.others other different
  · rw [blocks_eq]
    exact AList.lookup_insert _

theorem Allocated.push {middle after : State} {blockIndex : Nat}
    (allocated : Allocated cfg state middle blockIndex)
    (frame : Frame middle after) (active_eq : after.active = middle.active)
    (inUse_eq : after.InUse = middle.InUse) (books : after.books = middle.books) :
    Allocated cfg state after blockIndex := by
  obtain ⟨block, found, empty⟩ := allocated.found
  obtain ⟨version, found', valid, _, next⟩ := frame blockIndex block found
  refine ⟨allocated.frame.trans frame, books.trans allocated.books,
    active_eq.trans allocated.active_eq, ?_, version, found', ?_, ?_⟩
  · rw [inUse_eq]
    exact allocated.others
  · rw [next]
    exact empty.nextWritePage_eq
  · rw [valid]
    exact empty.valid_eq

theorem getFreeBlock_follows {idx : Nat} (settled : phase.fresh = none)
    (inside : idx < cfg.pageCountToMaxPerf)
    (used : cfg.hotColdSeparation = false ∨ allow.policy) :
    (machine cfg env allow).Follows (getFreeBlock cfg idx) phase state
      fun blockIndex last final =>
        last = { phase with fresh := some (blockIndex, .ready) } ∧
        Allocated cfg state final blockIndex ∧
        ActivePool.plain.Admits cfg blockIndex := by
  unfold getFreeBlock
  refine Follows.bind (takeFreeBlock_follows .plain settled inside ?_ (.inl rfl)) ?_
  · rcases used with plain | allowed
    · exact .inl (by simp [freePools, plain])
    · exact .inr allowed
  rintro blockIndex last final ⟨rfl, allocated, holds⟩
  obtain ⟨block, found, _⟩ := allocated.found
  have plain : cfg.hotColdSeparation = false := holds
  refine Follows.bindStep (run_updateBlock found _) (.touch 0 found) ?_
  refine Follows.before (.accept rfl plain) ?_
  exact Follows.pure ⟨rfl, allocated.retag found _ _ rfl rfl rfl, holds⟩

theorem getHotFreeBlock_follows {idx : Nat} (settled : phase.fresh = none)
    (inside : idx < cfg.pageCountToMaxPerf)
    (separated : cfg.hotColdSeparation = true) :
    (machine cfg env allow).Follows (getHotFreeBlock cfg idx) phase state
      fun blockIndex last final =>
        last = { phase with fresh := some (blockIndex, .ready) } ∧
        Allocated cfg state final blockIndex ∧
        ActivePool.hot.Admits cfg blockIndex := by
  unfold getHotFreeBlock
  refine Follows.bind (takeFreeBlock_follows .hot settled inside
    (.inl (by simp [freePools, separated])) (.inl rfl)) ?_
  rintro blockIndex last final ⟨rfl, allocated, _, region⟩
  obtain ⟨block, found, _⟩ := allocated.found
  refine Follows.bindStep rfl
    (.pushHot rfl separated region ⟨block, found⟩) ?_
  have pushed : Allocated cfg state { final with
      hotWindow := final.hotWindow ++ [blockIndex] } blockIndex :=
    allocated.push (Frame.of_blocks_eq rfl) rfl rfl rfl
  refine Follows.bindStep (run_updateBlock (by exact found) _)
    (.tag .hot rfl (.inl rfl) region found) ?_
  exact Follows.pure
    ⟨rfl, pushed.retag found _ _ rfl rfl rfl, separated, region⟩

theorem demoteCoolFront_follows {blockIndex : Nat}
    (separated : cfg.hotColdSeparation = true)
    (fresh : phase.fresh = some (blockIndex, .taken)) :
    (machine cfg env allow).Follows (demoteCoolFront cfg) phase state
      fun _ last final =>
        last = { phase with fresh := some (blockIndex, .roomy) } ∧
        Frame state final ∧
        final.active = state.active ∧ final.InUse = state.InUse ∧
        final.books = state.books := by
  unfold demoteCoolFront
  apply Follows.getBind
  split
  · next long =>
      split
      · next window =>
          apply Follows.throw
          rw [window] at long
          exact ⟨SameHistory.refl state,
            .noWindow separated (Nat.le_zero.mp long)⟩
      · next front rest window =>
          cases found : state.blocks.lookup front with
          | none =>
              exact Follows.bindError (run_findBlock_none found)
                ⟨SameHistory.refl state, .coolBlockLost window found⟩
          | some block =>
              refine Follows.bindOk (run_findBlock found) ?_
              exact Follows.endStep rfl (.demote fresh window found)
                ⟨rfl, Frame.version found rfl rfl rfl rfl, rfl,
                  State.inUse_setBlock_same ⟨block, found⟩, rfl⟩
  · next short =>
      refine Follows.before (.spare fresh (Nat.lt_of_not_le short)) ?_
      exact Follows.pure ⟨rfl, Frame.refl state, rfl, rfl, rfl⟩

theorem getColdFreeBlock_follows {idx : Nat} (queueInsert : Bool)
    (settled : phase.fresh = none) (inside : idx < cfg.pageCountToMaxPerf)
    (separated : cfg.hotColdSeparation = true) :
    (machine cfg env allow).Follows (getColdFreeBlock cfg idx queueInsert)
      phase state
      fun blockIndex last final =>
        last = { phase with fresh := some (blockIndex, .ready) } ∧
        Allocated cfg state final blockIndex ∧
        ActivePool.cold.Admits cfg blockIndex := by
  unfold getColdFreeBlock
  refine Follows.bind (takeFreeBlock_follows .cold settled inside
    (.inl (by simp [freePools, separated])) (.inr rfl)) ?_
  rintro blockIndex last final ⟨rfl, allocated, _, region⟩
  dsimp only
  split
  · next queue =>
      subst queue
      refine Follows.bind (demoteCoolFront_follows separated rfl) ?_
      rintro _ last demoted ⟨rfl, frame, active_eq, inUse_eq, books⟩
      have kept := allocated.push frame active_eq inUse_eq books
      obtain ⟨block, found, _⟩ := kept.found
      refine Follows.bindStep rfl
        (.pushCool rfl separated region ⟨block, found⟩) ?_
      have pushed : Allocated cfg state { demoted with
          coolDownWindow := demoted.coolDownWindow ++ [blockIndex] }
          blockIndex := kept.push (Frame.of_blocks_eq rfl) rfl rfl
            rfl
      refine Follows.bindStep (run_updateBlock (by exact found) _)
        (.tag .cool rfl (.inl rfl) region found) ?_
      exact Follows.pure
        ⟨rfl, pushed.retag found _ _ rfl rfl rfl, separated, region⟩
  · next queue =>
      simp only [Bool.not_eq_true] at queue
      subst queue
      obtain ⟨block, found, _⟩ := allocated.found
      refine Follows.bindStep (run_updateBlock found _)
        (.tag .cold rfl (.inr ⟨rfl, rfl⟩) region found) ?_
      exact Follows.pure
        ⟨rfl, allocated.retag found _ _ rfl rfl rfl, separated, region⟩

def Usable (cfg : Config) (allow : Allowance) (pool : ActivePool) : Prop :=
  pool ∈ activePools cfg ∨
    (pool = .plain ∧ allow.policy ∧ allow.plainFill)

theorem getBlockFor_follows (pool : ActivePool) {idx : Nat}
    (settled : phase.fresh = none) (inside : idx < cfg.pageCountToMaxPerf)
    (used : Usable cfg allow pool) :
    (machine cfg env allow).Follows (getBlockFor cfg pool idx) phase state
      fun blockIndex last final =>
        last = { phase with fresh := some (blockIndex, .ready) } ∧
        Allocated cfg state final blockIndex ∧
        pool.Admits cfg blockIndex := by
  have separated : pool ≠ .plain → cfg.hotColdSeparation = true := by
    intro different
    rcases used with member | ⟨rfl, _⟩
    · unfold activePools at member
      split at member
      · assumption
      · simp only [List.mem_singleton] at member
        exact absurd member different
    · exact absurd rfl different
  cases pool with
  | plain =>
      refine getFreeBlock_follows settled inside ?_
      rcases used with member | ⟨_, allowed, _⟩
      · left
        unfold activePools at member
        split at member
        · simp at member
        · simpa using ‹¬ cfg.hotColdSeparation = true›
      · exact .inr allowed
  | hot =>
      exact getHotFreeBlock_follows settled inside (separated (by simp))
  | cool =>
      exact getColdFreeBlock_follows true settled inside (separated (by simp))
  | cold =>
      exact getColdFreeBlock_follows false settled inside (separated (by simp))

structure Seated (cfg : Config) (before after : State) (pool : ActivePool)
    (idx : Nat) : Prop where
  frame : Frame before after
  books : after.books = before.books
  seated : ∃ blockIndex block,
    (∀ other, (after.active other).index = (before.active other).index ∧
      (after.active other).blocks = if other = pool then
          (before.active pool).blocks.set idx blockIndex
        else (before.active other).blocks) ∧
    pool.Admits cfg blockIndex ∧
    after.blocks.lookup blockIndex = some block ∧ block.Empty

theorem seatSlot_follows (pool : ActivePool) {idx : Nat}
    (settled : phase.fresh = none) (inside : idx < cfg.pageCountToMaxPerf) (used : Usable cfg allow pool) :
    (machine cfg env allow).Follows (seatSlot cfg pool idx) phase state
      fun _ last final => last = { phase with fresh := none } ∧
        Seated cfg state final pool idx := by
  unfold seatSlot
  refine Follows.bind (getBlockFor_follows pool settled inside used) ?_
  rintro blockIndex last final ⟨rfl, allocated, admits⟩
  obtain ⟨block, found, empty⟩ := allocated.found
  refine Follows.endStep rfl
    (.seat pool idx final.bReclaimMore rfl admits ⟨block, found⟩) ⟨rfl, ?_⟩
  refine ⟨allocated.frame.trans (Frame.of_blocks_eq rfl),
    allocated.books, blockIndex, block, ?_, admits,
    found, empty⟩
  intro other
  simp only [State.setActive_active, allocated.active_eq]
  by_cases same : other = pool
  · subst same
    simp
  · simp [same]

/-- A slot that names a block in use on its own side. -/
def Placed (cfg : Config) (state : State) (pool : ActivePool) (idx : Nat) :
    Prop :=
  ∃ blockIndex, (state.active pool).blocks[idx]? = some blockIndex ∧
    pool.Admits cfg blockIndex ∧ state.InUse blockIndex

theorem Seated.placed {after : State} {pool : ActivePool} {idx : Nat}
    (seated : Seated cfg state after pool idx)
    (inside : idx < (state.active pool).blocks.length) :
    Placed cfg after pool idx := by
  obtain ⟨blockIndex, block, slots, admits, found, _⟩ := seated.seated
  refine ⟨blockIndex, ?_, admits, block, found⟩
  rw [(slots pool).2, if_pos rfl, List.getElem?_set_self inside]

theorem Seated.keeps {after : State} {pool other : ActivePool}
    {idx index : Nat} (seated : Seated cfg state after pool idx)
    (placed : Placed cfg state other index) :
    Placed cfg after other index := by
  obtain ⟨named, slot, admits, inUse⟩ := placed
  obtain ⟨blockIndex, block, slots, admits', found, _⟩ := seated.seated
  by_cases same : other = pool ∧ index = idx
  · obtain ⟨rfl, rfl⟩ := same
    exact seated.placed (List.getElem?_eq_some_iff.mp slot).1
  · refine ⟨named, ?_, admits, seated.frame.inUse inUse⟩
    rw [(slots other).2, ← slot]
    split
    · next samePool =>
        subst samePool
        exact List.getElem?_set_ne fun sameIndex => same ⟨rfl, sameIndex.symm⟩
    · rfl

theorem refillSlot_follows (pool : ActivePool)
    (settled : phase.fresh = none) (used : Usable cfg allow pool) :
    (machine cfg env allow).Follows (refillSlot cfg pool) phase state
      fun _ last final => last = { phase with fresh := none } ∧
        Seated cfg state final pool (state.active pool).index := by
  apply Follows.ofSound
  rintro ⟨pools, _⟩
  unfold refillSlot
  apply Follows.getBind
  refine Follows.bind (seatSlot_follows pool settled
    (pools.cursor pool) used) ?_
  rintro _ last final ⟨rfl, seated⟩
  refine Follows.endStep rfl (.quiet ?_) ⟨rfl, ?_⟩
  · exact ⟨rfl, rfl, rfl, rfl, rfl, rfl, rfl, rfl, rfl, rfl, rfl, fun _ => rfl,
      fun _ bound => bound⟩
  · exact ⟨seated.frame.trans (Frame.of_blocks_eq rfl),
      seated.books, seated.seated⟩

theorem advanceSlot_follows (pool : ActivePool) (iomap : IOFlag) :
    (machine cfg env allow).Follows (advanceSlot cfg pool iomap) phase state
      fun _ last final => last = phase ∧ final.blocks = state.blocks := by
  refine Follows.endStep rfl (.quiet ?_) ⟨rfl, rfl⟩
  refine ⟨rfl, rfl, rfl, rfl, rfl, rfl, rfl, rfl, rfl, rfl, rfl, ?_, ?_⟩
  · intro other
    simp only [State.setActive_active]
    by_cases same : other = pool
    · subst same
      rw [Function.update_self]
      unfold ActiveSlots.advance
      split <;> rfl
    · rw [Function.update_of_ne same]
  · intro other bound
    simp only [State.setActive_active]
    by_cases same : other = pool
    · subst same
      rw [Function.update_self]
      unfold ActiveSlots.advance
      split
      · dsimp only
        split
        · exact cfg.pageCountToMaxPerf_pos
        · omega
      · exact bound
    · rwa [Function.update_of_ne same]

theorem Pools.slot (pools : Pools cfg state) (pool : ActivePool) :
    ∃ blockIndex, (state.active pool).blocks[(state.active pool).index]? =
      some blockIndex := by
  have bound := pools.cursor pool
  rw [← pools.slots pool] at bound
  exact ⟨_, List.getElem?_eq_getElem bound⟩

theorem run_slotAt {pool : ActivePool} {blockIndex : Nat}
    (slot : (state.active pool).blocks[(state.active pool).index]? =
      some blockIndex) :
    (slotAt pool).run state = .ok blockIndex state := by
  simp only [slotAt, EStateM.run_bind, EStateM.run_get, slot]
  rfl

def HasRoom (cfg : Config) (state : State) (blockIndex : Nat) : Prop :=
  ∃ block, state.blocks.lookup blockIndex = some block ∧
    (cfg.pagesInBlock = 0 ∨ ∀ unit < cfg.ioUnitInPage,
      block.nextWritePage unit < cfg.pagesInBlock)

theorem getLastBlock_follows (pool : ActivePool) (iomap : IOFlag)
    (used : Usable cfg allow pool) (settled : phase.fresh = none)
    (collecting : phase.victims ≠ [] → pool = gcPool cfg) :
    (machine cfg env allow).Follows (getLastBlock cfg pool iomap) phase state
      fun target last final => last = { phase with target := some target } ∧
        Frame state final ∧ HasRoom cfg final target := by
  unfold getLastBlock
  refine Follows.bind (advanceSlot_follows pool iomap) ?_
  rintro _ last advanced ⟨rfl, sameBlocks⟩
  have unmoved : Frame state advanced := Frame.of_blocks_eq sameBlocks
  apply Follows.ofSound
  rintro ⟨pools, _⟩
  obtain ⟨blockIndex, slot⟩ := pools.slot pool
  refine Follows.bindOk (run_slotAt slot) ?_
  cases found : advanced.blocks.lookup blockIndex with
  | none =>
      refine Follows.bindError (run_findBlock_none found)
        ⟨SameHistory.refl _, .corrupted pool ?_ slot found⟩
      exact used.imp_right fun ⟨_, _, allowed⟩ => allowed
  | some block =>
      refine Follows.bindOk (run_findBlock found) ?_
      dsimp only
      split
      · refine Follows.bind (refillSlot_follows pool settled used) ?_
        rintro _ _ refilled ⟨rfl, seated⟩
        obtain ⟨newest, fresh, slots, _, found', empty⟩ := seated.seated
        have slot' : (refilled.active pool).blocks[
            (refilled.active pool).index]? = some newest := by
          obtain ⟨index_eq, blocks_eq⟩ := slots pool
          have bound := pools.cursor pool
          rw [← pools.slots pool] at bound
          rw [index_eq, blocks_eq, if_pos rfl, List.getElem?_set_self bound]
        have room : cfg.pagesInBlock = 0 ∨ ∀ unit < cfg.ioUnitInPage,
            fresh.nextWritePage unit < cfg.pagesInBlock := by
          rcases Nat.eq_zero_or_pos cfg.pagesInBlock with zero | positive
          · exact .inl zero
          · right
            intro unit _
            rw [empty.nextWritePage_eq]
            exact positive
        have same : { last with fresh := none } = last := by
          rw [← settled]
        rw [same]
        refine Follows.before (.aim pool (List.mem_of_getElem? slot') found'
          room collecting) ?_
        intro _
        exact Tracks.ok (run_slotAt slot') Relation.ReflTransGen.refl
          ⟨rfl, unmoved.trans seated.frame, fresh, found', room⟩
      · next notFull =>
          have room : cfg.pagesInBlock = 0 ∨ ∀ unit < cfg.ioUnitInPage,
              block.nextWritePage unit < cfg.pagesInBlock :=
            .inr fun unit bound =>
              (pools.wellFormed _ _ found).nextWritePage_lt notFull bound
          refine Follows.before (.aim pool (List.mem_of_getElem? slot) found
            room collecting) ?_
          intro _
          exact Tracks.ok (run_slotAt slot) Relation.ReflTransGen.refl
            ⟨rfl, unmoved, block, found, room⟩

end Allocation

end SimpleSSD.FTL
