import SimpleSSD.FTL.Choice
import SimpleSSD.FTL.Custody
import SimpleSSD.FTL.Windows

namespace SimpleSSD.FTL

open Machine Program

/-! The filling of the pools by `initialize`.  With separation on, the writes
that do not go by the pools take the entries of `lastFreeBlock`, which the
constructor has not set: all of them name block 0. -/

/-- A write of `initialize` up to its active block. -/
def fillTarget (cfg : Config) : FillWrite → FTLM Nat
  | .plain lpn => do
      let _ ← openMapping cfg lpn IOFlag.all
      getLastFreeBlock cfg IOFlag.all
  | .cool lpn => do
      let last ← openMapping cfg lpn IOFlag.all
      let curBlockType ← poolTypeOf .cold last
      if curBlockType = .cold then getLastCoolFreeBlock cfg IOFlag.all
        else getLastHotFreeBlock cfg IOFlag.all
  | .hot lpn => do
      let last ← openMapping cfg lpn IOFlag.all
      let curBlockType ← poolTypeOf .hot last
      if curBlockType ≠ .hot then
        throw .coolOrColdBlock
      getLastHotFreeBlock cfg IOFlag.all

def fillRest (cfg : Config) (env : Environment) (target : Nat) :
    FillWrite → FTLM Unit
  | .plain lpn => do
      let _ ← findBlock target .noSuchBlock
      programUnits cfg env true target lpn IOFlag.all
      if ← needsGC env .plain then
        throw .gcInInitialization
  | .cool lpn => do
      let _ ← findBlock target .noSuchBlock
      programUnits cfg env true target lpn IOFlag.all
      if ← needsGC env .cold then
        throw .gcInInitializationByCold
      if ← needsGC env .hot then
        throw .gcInInitializationByHot
  | .hot lpn => do
      let _ ← findBlock target .noSuchBlock
      programUnits cfg env false target lpn IOFlag.all
      if ← needsGC env .cold then
        throw .coldGCInHotFilling
      if ← needsGC env .hot then
        throw .hotGCInHotFilling

/-- Whether a write that does not go by the pools calls `getFreeBlock`: the
active block is full. -/
def callsGetFreeBlock (cfg : Config) (lpn : Nat) : FTLM Bool := do
  let _ ← openMapping cfg lpn IOFlag.all
  advanceSlot cfg .plain IOFlag.all
  let blockIndex ← slotAt .plain
  let block ← findBlock blockIndex ActivePool.plain.corrupted
  return isFull cfg block

def initializeUpTo (cfg : Config) (env : Environment)
    (writes : List FillWrite) : FTLM Unit := do
  construct cfg
  setupRefresh cfg
  writes.forM (fill cfg env)

/-- A write goes to an active block of the pools, and takes no block from
`freeBlocks`. -/
structure KeepsToPools (cfg : Config) (state : State) (filling : FillWrite) :
    Prop where
  current : ∀ target opened,
    (fillTarget cfg filling).run state = .ok target opened →
      target ∈ (opened.active .hot).blocks ∨
        target ∈ (opened.active .cool).blocks
  untouched : ∀ lpn opened, filling = .plain lpn →
    (callsGetFreeBlock cfg lpn).run state ≠ .ok true opened

/-- The free lists and the windows are those of the blocks in use. -/
structure Established (cfg : Config) (state : State) : Prop where
  pools : Pools cfg state
  hot : state.hotWindow.Nodup ∧ ∀ blockIndex,
    blockIndex ∈ state.hotWindow ↔ ∃ block,
      state.blocks.lookup blockIndex = some block ∧ block.blockType = .hot
  cool : state.coolDownWindow.Nodup ∧ ∀ blockIndex,
    blockIndex ∈ state.coolDownWindow ↔ ∃ block,
      state.blocks.lookup blockIndex = some block ∧ block.blockType = .cool
  length_le : state.coolDownWindow.length ≤ cfg.nCooldownBlocks

/-- Every write that `initialize` makes keeps to the pools, and they are
established when it returns. -/
structure RespectsPools (cfg : Config) (env : Environment) : Prop where
  writes : ∀ before filling after,
    fills cfg env = before ++ filling :: after → ∀ reached,
      (initializeUpTo cfg env before).run (blankState cfg) = .ok () reached →
        KeepsToPools cfg reached filling
  ends : ∀ final, outcome cfg env [.initializeFTL] = .ok () final →
    Established cfg final

def RoomInFirst (cfg : Config) (state : State) : Prop :=
  ∃ block, state.blocks.lookup 0 = some block ∧
    block.getNextWritePageIndex < cfg.pagesInBlock

section Parts

variable {cfg : Config} {env : Environment}

theorem fill_eq (filling : FillWrite) :
    fill cfg env filling = (do
      let target ← fillTarget cfg filling
      fillRest cfg env target filling) := by
  cases filling with
  | plain lpn =>
      simp only [fill, fillTarget, fillRest, writeInternal, bind_assoc]
      rfl
  | cool lpn =>
      simp only [fill, fillTarget, fillRest, sepWriteInternal, bind_assoc]
      refine bind_congr fun last => bind_congr fun curBlockType => ?_
      split <;> rfl
  | hot lpn =>
      simp only [fill, fillTarget, fillRest, sepHotWriteInternal, bind_assoc]
      refine bind_congr fun last => bind_congr fun curBlockType => ?_
      split <;> rfl

end Parts

/-! Block 0 is an entry of `lastHotFreeBlock` until it is full. -/

structure Anchored (cfg : Config) (state : State) : Prop where
  plain : ∀ blockIndex ∈ (state.active .plain).blocks, blockIndex = 0
  unlisted : (state.free .plain).blocks = []
  first : ∃ block, state.blocks.lookup 0 = some block ∧
    (cfg.pagesInBlock ≤ block.getNextWritePageIndex ∨
      0 ∈ (state.active .hot).blocks)

section Anchor

variable {cfg : Config} {env : Environment} {state updated : State}

theorem Anchored.fill (anchored : Anchored cfg state) {target : Nat}
    {units : List Nat} (filling : Filling target units state updated) :
    Anchored cfg updated where
  plain := by
    rw [filling.slots_eq]
    exact anchored.plain
  unlisted := by
    rw [filling.free_eq]
    exact anchored.unlisted
  first := by
    obtain ⟨block, found, placed⟩ := anchored.first
    obtain ⟨later, found', grown⟩ := filling.version 0 block found
    have more := (grown.index units.length fun unit => by
      unfold programmedAt
      split
      · exact List.count_le_length
      · exact Nat.zero_le _).1
    refine ⟨later, found', ?_⟩
    rw [filling.slots_eq]
    exact placed.imp_left fun full => full.trans more

theorem Anchored.stay (anchored : Anchored cfg state)
    (steady : Steady state updated) : Anchored cfg updated :=
  anchored.fill (steady 0)

theorem Block.Retyped.index {block later : Block}
    (retyped : block.Retyped later) :
    later.getNextWritePageIndex = block.getNextWritePageIndex := by
  unfold Block.getNextWritePageIndex
  rw [retyped.ioUnitInPage_eq, retyped.nextWritePage_eq]

/-- A slot loses a block only when that is full. -/
theorem Anchored.refill (anchored : Anchored cfg state) {pool : ActivePool}
    {old : Nat} {block : Block}
    (slot : (state.active pool).blocks[(state.active pool).index]? = some old)
    (found : state.blocks.lookup old = some block) (full : block.Full cfg) :
    Meets (refillSlot cfg pool) state (fun _ final => Anchored cfg final)
      fun _ _ => True := by
  unfold refillSlot seatSlot
  apply meets_bind.mpr
  apply meets_get.mpr
  dsimp only
  rw [bind_assoc]
  refine ((getBlockFor_supplies pool _).mono (fun _ _ supplied => supplied)
    fun _ _ _ => trivial).bind ?_
  intro blockIndex taken supplied
  have pooled : pool ≠ .plain := by
    intro plain
    subst plain
    obtain ⟨source, member, _⟩ := supplied.taken
    rw [ActivePool.source, anchored.unlisted] at member
    cases member
  have listless : pool.source ≠ .plain := by
    cases pool with
    | plain => exact absurd rfl pooled
    | hot | cool | cold => decide
  have slots : ∀ other, other ≠ pool →
      ((taken.setActive pool { taken.active pool with
        blocks := (taken.active pool).blocks.set (state.active pool).index
          blockIndex }).active other).blocks = (state.active other).blocks := by
    intro other different
    rw [State.setActive_active, Function.update_of_ne different,
      supplied.active_eq]
  refine ⟨?_, ?_, ?_⟩
  · change ∀ blockIndex ∈ ((taken.setActive pool _).active .plain).blocks, _
    rw [slots .plain (Ne.symm pooled)]
    exact anchored.plain
  · change (taken.free .plain).blocks = []
    rw [supplied.free_eq .plain (Ne.symm listless)]
    exact anchored.unlisted
  · obtain ⟨first, lookup, placed⟩ := anchored.first
    obtain ⟨later, lookup', retyped⟩ := supplied.version 0 first lookup
    refine ⟨later, lookup', ?_⟩
    rw [retyped.index]
    by_cases zero : old = 0
    · subst zero
      rw [found] at lookup
      cases lookup
      exact .inl (Nat.le_of_eq (Eq.symm full))
    refine placed.imp_right fun member => ?_
    change 0 ∈ ((taken.setActive pool _).active .hot).blocks
    by_cases hot : pool = .hot
    · subst hot
      obtain ⟨position, named⟩ := List.mem_iff_getElem?.mp member
      have different : (state.active .hot).index ≠ position := by
        intro same
        rw [same, named] at slot
        cases slot
        exact zero rfl
      rw [State.setActive_active, Function.update_self, supplied.active_eq]
      refine List.mem_iff_getElem?.mpr ⟨position, ?_⟩
      rw [List.getElem?_set_ne different, named]
    · rw [slots .hot (Ne.symm hot)]
      exact member

theorem slotAt_meets (pool : ActivePool) :
    Meets (slotAt pool) state
      (fun blockIndex final => final = state ∧
        (state.active pool).blocks[(state.active pool).index]? =
          some blockIndex) fun _ _ => True := by
  unfold slotAt
  apply meets_bind.mpr
  apply meets_get.mpr
  split
  · trivial
  · next named => exact ⟨rfl, named⟩

theorem getLastBlock_anchored (pool : ActivePool) (iomap : IOFlag)
    (anchored : Anchored cfg state) :
    Meets (getLastBlock cfg pool iomap) state
      (fun target final => Anchored cfg final ∧
        target ∈ (final.active pool).blocks) fun _ _ => True := by
  have steady : Steady state (state.setActive pool
      ((state.active pool).advance cfg iomap)) := .of_advance iomap
  have advancing : (advanceSlot cfg pool iomap).run state = .ok ()
      (state.setActive pool ((state.active pool).advance cfg iomap)) := rfl
  generalize state.setActive pool ((state.active pool).advance cfg iomap) =
    advanced at steady advancing
  unfold getLastBlock
  refine Meets.bindOk advancing ?_
  have ready := anchored.stay steady
  refine (slotAt_meets pool).bind ?_
  intro old reached post
  obtain ⟨same, slot⟩ := post
  subst same
  have last : ∀ refilled, Anchored cfg refilled →
      Meets (slotAt pool) refilled
        (fun target final => Anchored cfg final ∧
          target ∈ (final.active pool).blocks) fun _ _ => True := by
    intro refilled anchored
    refine (slotAt_meets pool).mono ?_ fun _ _ failed => failed
    intro target final post
    obtain ⟨same, named⟩ := post
    subst same
    exact ⟨anchored, List.mem_of_getElem? named⟩
  cases found : reached.blocks.lookup old with
  | none => exact Meets.bindError (run_findBlock_none found) trivial
  | some block =>
      refine Meets.bindOk (run_findBlock found) ?_
      dsimp only
      split
      · next full =>
          exact (ready.refill slot found full).bind fun _ refilled anchored =>
            last refilled anchored
      · exact last reached ready

theorem fillRest_fills (target : Nat) (filling : FillWrite) :
    Fills target ((List.range cfg.bitsetSize).filter (touches cfg IOFlag.all))
      (fillRest cfg env target filling) state := by
  have stops : ∀ {pool raised} {next : Unit → FTLM Unit} (reached : State),
      raised.Unrelated → (∀ value later, Stays (next value) later) →
      Stays (do
        if ← needsGC env pool then
          throw raised
        next ()) reached := by
    intro pool raised next reached unrelated rest
    refine Stays.bind (Steady.refl reached) ?_
    intro needed later _
    cases needed with
    | true => exact Stays.throwBind unrelated
    | false => exact rest () later
  have ends : ∀ {pool raised} (reached : State), raised.Unrelated →
      Stays (do
        if ← needsGC env pool then
          throw raised) reached := by
    intro pool raised reached unrelated
    refine Stays.bind (Steady.refl reached) ?_
    intro needed later _
    cases needed with
    | true => exact Stays.throw unrelated
    | false => exact Stays.pure ()
  cases filling with
  | plain lpn =>
      refine (findBlock_stays target (by decide)).bindFills fun _ _ _ => ?_
      refine (programUnits_fills true lpn IOFlag.all).bindStays ?_
      exact fun _ programmed _ => ends programmed (by decide)
  | cool lpn =>
      refine (findBlock_stays target (by decide)).bindFills fun _ _ _ => ?_
      refine (programUnits_fills true lpn IOFlag.all).bindStays ?_
      exact fun _ programmed _ => stops programmed (by decide)
        fun _ later => ends later (by decide)
  | hot lpn =>
      refine (findBlock_stays target (by decide)).bindFills fun _ _ _ => ?_
      refine (programUnits_fills false lpn IOFlag.all).bindStays ?_
      exact fun _ programmed _ => stops programmed (by decide)
        fun _ later => ends later (by decide)

theorem fillTarget_meets (filling : FillWrite) (anchored : Anchored cfg state) :
    Meets (fillTarget cfg filling) state
      (fun target final => Anchored cfg final ∧
        ((∀ lpn, filling ≠ .plain lpn) →
          target ∈ (final.active .hot).blocks ∨
            target ∈ (final.active .cool).blocks)) fun _ _ => True := by
  have opens : ∀ lpn, Meets (openMapping cfg lpn IOFlag.all) state
      (fun _ final => Anchored cfg final) fun _ _ => True := fun lpn =>
    (openMapping_stays lpn IOFlag.all).mono
      (fun _ _ steady => anchored.stay steady) fun _ _ _ => trivial
  have types : ∀ fresh last reached, Anchored cfg reached →
      Meets (poolTypeOf fresh last) reached
        (fun _ final => Anchored cfg final) fun _ _ => True :=
    fun fresh last reached anchored => (poolTypeOf_stays fresh last).mono
      (fun _ _ steady => anchored.stay steady) fun _ _ _ => trivial
  cases filling with
  | plain lpn =>
      refine (opens lpn).bind fun _ opened anchored => ?_
      refine (getLastBlock_anchored .plain IOFlag.all anchored).mono ?_
        fun _ _ failed => failed
      exact fun _ _ post => ⟨post.1, fun pooled => absurd rfl (pooled lpn)⟩
  | cool lpn =>
      refine (opens lpn).bind fun last opened anchored => ?_
      refine (types .cold last opened anchored).bind ?_
      intro curBlockType typed anchored
      split
      · refine (getLastBlock_anchored .cool IOFlag.all anchored).mono ?_
          fun _ _ failed => failed
        exact fun _ _ post => ⟨post.1, fun _ => .inr post.2⟩
      · refine (getLastBlock_anchored .hot IOFlag.all anchored).mono ?_
          fun _ _ failed => failed
        exact fun _ _ post => ⟨post.1, fun _ => .inl post.2⟩
  | hot lpn =>
      refine (opens lpn).bind fun last opened anchored => ?_
      refine (types .hot last opened anchored).bind ?_
      intro curBlockType typed anchored
      split
      · exact trivial
      · refine (getLastBlock_anchored .hot IOFlag.all anchored).mono ?_
          fun _ _ failed => failed
        exact fun _ _ post => ⟨post.1, fun _ => .inl post.2⟩

theorem fill_anchored (filling : FillWrite) :
    Keeps (Anchored cfg) (fun _ => True) (fill cfg env filling) := by
  intro state anchored
  rw [fill_eq]
  refine (fillTarget_meets filling anchored).bind ?_
  intro target aimed post
  exact (fillRest_fills target filling).mono
    (fun _ _ filled => post.1.fill filled) fun _ _ _ => trivial

end Anchor

/-! A write that does not go by the pools. -/

section Plain

variable {cfg : Config} {env : Environment} {state updated : State}

theorem RoomInFirst.stay (room : RoomInFirst cfg state)
    (steady : Steady state updated) : RoomInFirst cfg updated := by
  obtain ⟨block, found, less⟩ := room
  obtain ⟨later, found', grown⟩ := (steady 0).version 0 block found
  have most := (grown.index 0 fun unit => by simp).2
  exact ⟨later, found', by omega⟩

/-- The slots of the other array all name block 0. -/
theorem Anchored.named (anchored : Anchored cfg state) {index blockIndex : Nat}
    (slot : (state.active .plain).blocks[index]? = some blockIndex) :
    blockIndex = 0 :=
  anchored.plain blockIndex (List.mem_of_getElem? slot)

theorem getLastFreeBlock_room (anchored : Anchored cfg state)
    (room : RoomInFirst cfg state) (iomap : IOFlag) :
    Meets (getLastFreeBlock cfg iomap) state
      (fun target final => target ∈ (final.active .hot).blocks)
      fun _ _ => True := by
  have steady : Steady state (state.setActive .plain
      ((state.active .plain).advance cfg iomap)) := .of_advance iomap
  have advancing : (advanceSlot cfg .plain iomap).run state = .ok ()
      (state.setActive .plain ((state.active .plain).advance cfg iomap)) := rfl
  generalize state.setActive .plain
    ((state.active .plain).advance cfg iomap) = advanced at steady advancing
  unfold getLastFreeBlock getLastBlock
  refine Meets.bindOk advancing ?_
  have ready := anchored.stay steady
  obtain ⟨block, found, less⟩ := room.stay steady
  refine (slotAt_meets .plain).bind ?_
  intro blockIndex reached post
  obtain ⟨same, slot⟩ := post
  subst same
  rw [ready.named slot]
  refine Meets.bindOk (run_findBlock found) ?_
  rw [if_neg (Nat.ne_of_lt less)]
  refine (slotAt_meets .plain).mono ?_ fun _ _ failed => failed
  intro target final post
  obtain ⟨same, slot⟩ := post
  subst same
  rw [ready.named slot]
  obtain ⟨first, lookup, placed⟩ := ready.first
  rw [found] at lookup
  cases lookup
  exact placed.resolve_left (by omega)

theorem callsGetFreeBlock_room (anchored : Anchored cfg state)
    (room : RoomInFirst cfg state) (lpn : Nat) :
    Meets (callsGetFreeBlock cfg lpn) state (fun called _ => called = false)
      fun _ _ => True := by
  unfold callsGetFreeBlock
  refine ((openMapping_stays lpn IOFlag.all).mono (fun _ _ steady => steady)
    fun _ _ _ => trivial).bind ?_
  intro _ opened steady
  replace steady : Steady state (opened.setActive .plain
      ((opened.active .plain).advance cfg IOFlag.all)) :=
    steady.trans (.of_advance IOFlag.all)
  have advancing : (advanceSlot cfg .plain IOFlag.all).run opened = .ok ()
      (opened.setActive .plain
        ((opened.active .plain).advance cfg IOFlag.all)) := rfl
  generalize opened.setActive .plain
    ((opened.active .plain).advance cfg IOFlag.all) = advanced
      at steady advancing
  refine Meets.bindOk advancing ?_
  obtain ⟨block, found, less⟩ := room.stay steady
  refine (slotAt_meets .plain).bind ?_
  intro blockIndex reached post
  obtain ⟨same, slot⟩ := post
  subst same
  rw [(anchored.stay steady).named slot]
  refine Meets.bindOk (run_findBlock found) ?_
  exact decide_eq_false (Nat.ne_of_lt less)

theorem KeepsToPools.of_room (anchored : Anchored cfg state)
    {filling : FillWrite}
    (room : ∀ lpn, filling = .plain lpn → RoomInFirst cfg state) :
    KeepsToPools cfg state filling where
  current := by
    intro target opened aims
    by_cases pooled : ∃ lpn, filling = .plain lpn
    · obtain ⟨lpn, same⟩ := pooled
      subst same
      have aimed : Meets (fillTarget cfg (.plain lpn)) state
          (fun target final => target ∈ (final.active .hot).blocks)
          fun _ _ => True := by
        refine ((openMapping_stays lpn IOFlag.all).mono
          (fun _ _ steady => steady) fun _ _ _ => trivial).bind ?_
        intro _ reached steady
        exact getLastFreeBlock_room (anchored.stay steady)
          ((room lpn rfl).stay steady) IOFlag.all
      exact .inl (aimed.of_ok aims)
    · exact ((fillTarget_meets filling anchored).of_ok aims).2
        fun lpn same => pooled ⟨lpn, same⟩
  untouched := by
    intro lpn opened same calls
    have kept := (callsGetFreeBlock_room anchored (room lpn same) lpn).of_ok
      calls
    cases kept

/-- At rest, an active block without room is replaced. -/
theorem callsGetFreeBlock_full (anchored : Anchored cfg state)
    {mapped : Set (Nat × Nat)}
    (sound : (machine cfg env .all).sound (.rest mapped, state))
    (full : ¬ RoomInFirst cfg state) (lpn : Nat) :
    Meets (callsGetFreeBlock cfg lpn) state (fun called _ => called = true)
      fun _ _ => False := by
  have kept : (machine cfg env .all).Invariant fun _ => True :=
    machine_trivial cfg env .all
  have safe : Meets (openMapping cfg lpn IOFlag.all) state (fun _ _ => True)
      fun _ _ => False := by
    unfold openMapping
    apply meets_bind.mpr
    apply meets_get.mpr
    split
    · next mapping found =>
        rw [map_eq_pure_bind]
        exact (invalidateOld_meets sound.1 sound.2 found).bind
          fun _ _ _ => trivial
    · exact trivial
  cases run : (openMapping cfg lpn IOFlag.all).run state with
  | error raised stopped => exact (safe.of_error run).elim
  | ok last opened =>
      have steady := (openMapping_stays lpn IOFlag.all).of_ok run
      obtain ⟨phase, sound, _⟩ := ((openMapping_follows lpn IOFlag.all).meets
        kept sound trivial).of_ok run
      have advancing : (advanceSlot cfg .plain IOFlag.all).run opened = .ok ()
          (opened.setActive .plain
            ((opened.active .plain).advance cfg IOFlag.all)) := rfl
      replace steady : Steady state (opened.setActive .plain
          ((opened.active .plain).advance cfg IOFlag.all)) :=
        steady.trans (.of_advance IOFlag.all)
      generalize opened.setActive .plain
        ((opened.active .plain).advance cfg IOFlag.all) = advanced
          at steady advancing
      obtain ⟨_, ⟨pools, _⟩, _⟩ := ((advanceSlot_follows .plain
        IOFlag.all).meets kept sound trivial).of_ok advancing
      obtain ⟨blockIndex, slot⟩ := pools.slot .plain
      have zero := (anchored.stay steady).named slot
      subst zero
      obtain ⟨first, lookup, _⟩ := anchored.first
      have most : cfg.pagesInBlock ≤ first.getNextWritePageIndex :=
        not_lt.mp fun less => full ⟨first, lookup, less⟩
      obtain ⟨later, found, grown⟩ := (steady 0).version 0 first lookup
      have more := (grown.index 0 fun unit => by simp).1
      have wellFormed := pools.wellFormed 0 later found
      have bound : later.getNextWritePageIndex ≤ cfg.pagesInBlock := by
        rcases later.getNextWritePageIndex_eq with none | ⟨unit, _, same⟩
        · omega
        · rw [same]
          exact wellFormed.nextWritePage_le unit
      have whole : isFull cfg later = true :=
        decide_eq_true (bound.antisymm (most.trans more))
      unfold callsGetFreeBlock
      refine Meets.bindOk run ?_
      refine Meets.bindOk advancing ?_
      refine Meets.bindOk (run_slotAt slot) ?_
      exact Meets.bindOk (run_findBlock found) whole

end Plain

/-! The constructor. -/

structure Heads (state : State) : Prop where
  plain : ∀ blockIndex ∈ (state.active .plain).blocks, blockIndex = 0
  unlisted : (state.free .plain).blocks = []
  first : (state.active .hot).blocks[0]? = some 0

section Construct

variable {cfg : Config} {env : Environment} {state : State}

theorem heads_blank (on : cfg.hotColdSeparation = true) :
    Heads (blankState cfg) where
  plain := fun _ => List.eq_of_mem_replicate
  unlisted := by simp [blankState, on]
  first := by
    simp [blankState, cfg.pageCountToMaxPerf_pos]

theorem searchFree_blank (on : cfg.hotColdSeparation = true) {block : Block}
    (search : searchFree cfg 0 ((blankState cfg).free .hot).blocks =
      some block) : block.idx = 0 := by
  unfold searchFree blankState at search
  simp only [on, if_true] at search
  cases limit : cfg.hotBlocksLimit with
  | zero =>
      rw [limit] at search
      cases search
  | succ fewer =>
      rw [limit, List.range_succ_eq_map, List.map_cons,
        List.find?_cons_of_pos (by simp [Block.make])] at search
      cases search
      rfl

theorem getHotFreeBlock_blank (on : cfg.hotColdSeparation = true) :
    Meets (getHotFreeBlock cfg 0) (blankState cfg)
      (fun blockIndex _ => blockIndex = 0) fun _ _ => True := by
  have takes : Meets (takeFreeBlock cfg .hot .noFreeBlockLeft
      .hotAlreadyInBlockList 0) (blankState cfg)
      (fun blockIndex _ => blockIndex = 0) fun _ _ => True := by
    unfold takeFreeBlock
    split
    · exact trivial
    apply meets_bind.mpr
    apply meets_get.mpr
    dsimp only
    split
    · exact trivial
    split
    · exact trivial
    · next block search =>
        split
        · exact trivial
        · exact searchFree_blank on search
  refine takes.bind fun blockIndex taken same => ?_
  refine Meets.bindOk rfl ?_
  have tags : ∀ reached, Meets (updateBlock blockIndex fun block =>
      { block with blockType := .hot }) reached (fun _ _ => True)
      fun _ _ => True := fun _ =>
    meets_of_cases (fun _ _ _ => trivial) fun _ _ _ => trivial
  exact (tags _).bind fun _ _ _ => same

theorem Heads.seat (heads : Heads state) {pool : ActivePool} {index : Nat}
    (pooled : pool ≠ .plain)
    (start : pool = .hot → index = 0 → state = blankState cfg)
    (on : cfg.hotColdSeparation = true) :
    Meets (seatSlot cfg pool index) state (fun _ final => Heads final)
      fun _ _ => True := by
  have allocates : Meets (getBlockFor cfg pool index) state
      (fun blockIndex final => Supplied pool.source state final blockIndex ∧
        (pool = .hot → index = 0 → blockIndex = 0)) fun _ _ => True := by
    have supplies : Meets (getBlockFor cfg pool index) state
        (fun blockIndex final => Supplied pool.source state final blockIndex)
        fun _ _ => True :=
      (getBlockFor_supplies pool index).mono (fun _ _ supplied => supplied)
        fun _ _ _ => trivial
    by_cases begins : pool = .hot ∧ index = 0
    · obtain ⟨hot, zero⟩ := begins
      subst hot zero
      have same := start rfl rfl
      subst same
      exact (supplies.and (getHotFreeBlock_blank on)).mono
        (fun _ _ post => ⟨post.1, fun _ _ => post.2⟩) fun _ _ _ => trivial
    · exact supplies.mono (fun _ _ supplied => ⟨supplied, fun hot zero =>
        absurd ⟨hot, zero⟩ begins⟩) fun _ _ _ => trivial
  refine allocates.bind ?_
  intro blockIndex taken post
  obtain ⟨supplied, first⟩ := post
  have listless : pool.source ≠ .plain := by
    cases pool with
    | plain => exact absurd rfl pooled
    | hot | cool | cold => decide
  refine ⟨?_, ?_, ?_⟩
  · change ∀ blockIndex ∈ ((taken.setActive pool _).active .plain).blocks, _
    rw [State.setActive_active, Function.update_of_ne (Ne.symm pooled),
      supplied.active_eq]
    exact heads.plain
  · change (taken.free .plain).blocks = []
    rw [supplied.free_eq .plain (Ne.symm listless)]
    exact heads.unlisted
  · change ((taken.setActive pool _).active .hot).blocks[0]? = some 0
    have head := heads.first
    rw [State.setActive_active, supplied.active_eq]
    by_cases hot : pool = .hot
    · subst hot
      rw [Function.update_self]
      dsimp only
      by_cases zero : index = 0
      · subst zero
        rw [first rfl rfl]
        exact List.getElem?_set_self (List.getElem?_eq_some_iff.mp head).1
      · rw [List.getElem?_set_ne zero, head]
    · rw [Function.update_of_ne (Ne.symm hot), head]

theorem construct_heads (on : cfg.hotColdSeparation = true) :
    Meets (construct cfg) (blankState cfg) (fun _ final => Heads final)
      fun _ _ => True := by
  have pools : activePools cfg = [.hot, .cool, .cold] := by
    simp [activePools, on]
  have once : 0 ∉ (List.range cfg.pageCountToMaxPerf).tail := by
    cases cfg.pageCountToMaxPerf with
    | zero => exact List.not_mem_nil
    | succ fewer => simp [List.range_succ_eq_map]
  unfold construct
  refine (Meets.forM (fun remaining reached => Heads reached ∧
      0 ∉ remaining.tail ∧ (0 ∈ remaining → reached = blankState cfg))
    ⟨heads_blank on, once, fun _ => rfl⟩ ?_).mono
      (fun _ _ post => post.1) fun _ _ failed => failed
  intro index rest reached kept
  obtain ⟨heads, past, blank⟩ := kept
  have later : ∀ {pool reached}, Heads reached → pool ≠ .plain →
      pool ≠ .hot → Meets (seatSlot cfg pool index) reached
        (fun _ final => Heads final) fun _ _ => True :=
    fun heads pooled other => heads.seat pooled (fun hot => absurd hot other) on
  rw [pools]
  refine (heads.seat (by decide) ?_ on).bind fun _ _ heads => ?_
  · exact fun _ zero => blank (zero ▸ .head _)
  refine (later heads (by decide) (by decide)).bind fun _ _ heads => ?_
  refine (later heads (by decide) (by decide)).bind fun _ final heads => ?_
  exact ⟨heads, fun member => past (List.mem_of_mem_tail member),
    fun member => absurd member past⟩

end Construct

/-! The writes of `initialize`. -/

section Reached

variable {cfg : Config} {env : Environment}

theorem initializeUpTo_meets (on : cfg.hotColdSeparation = true)
    {writes : List FillWrite} (listed : ∀ filling ∈ writes,
      filling ∈ fills cfg env) :
    Meets (initializeUpTo cfg env writes) (blankState cfg)
      (fun _ reached => Anchored cfg reached ∧ ∃ mapped,
        (machine cfg env .all).sound (.rest mapped, reached))
      fun _ _ => True := by
  unfold initializeUpTo
  refine (((construct_meets cfg env (machine_trivial cfg env .none)
    trivial).and (construct_heads on)).mono (fun _ _ post => post)
      fun _ _ _ => trivial).bind ?_
  intro _ built post
  obtain ⟨⟨constructed, _⟩, heads⟩ := post
  refine Meets.bindOk rfl ?_
  have sound : (machine cfg env .all).sound
      (.rest ∅, built.scheduling cfg) :=
    (machine cfg env .all).sound_step (.setup trivial)
      ⟨constructed.pools, constructed.maps⟩
  have anchored : Anchored cfg built := by
    refine ⟨heads.plain, heads.unlisted, ?_⟩
    obtain ⟨blockIndex, slot, _, block, found⟩ := constructed.placed 0
      cfg.pageCountToMaxPerf_pos .hot (by simp [activePools, on])
    rw [heads.first] at slot
    cases slot
    exact ⟨block, found, .inr (List.mem_of_getElem? heads.first)⟩
  have scheduled : Anchored cfg (built.scheduling cfg) :=
    anchored.stay (.of_blocks_eq rfl rfl fun _ => rfl)
  have allowed : ∀ filling ∈ writes, filling.Allowed cfg .all :=
    fun filling member => fills_allowed (fun _ _ => trivial)
      (fun _ => trivial) filling (listed filling member)
  have kept : Keeps (Anchored cfg) (fun _ => True)
      (writes.forM (fill cfg env)) := Keeps.forM fill_anchored
  refine ((kept _ scheduled).and ((fills_follow trivial allowed).meets
    (machine_trivial cfg env .all) sound trivial)).mono ?_
      fun _ _ _ => trivial
  intro _ reached post
  obtain ⟨anchored, last, sound, _, same⟩ := post
  subst same
  exact ⟨anchored, _, sound⟩

theorem established (on : cfg.hotColdSeparation = true) {final : State}
    (result : outcome cfg env [.initializeFTL] = .ok () final) :
    Established cfg final := by
  have windows := window_exactness cfg env [.initializeFTL] on (by simp [Op.Own])
  rw [result] at windows
  exact ⟨((outcome_meets cfg env _).of_ok result).1, windows.1, windows.2.1,
    windows.2.2⟩

end Reached

/-- With separation on, `initialize` respects the pools if and only if block 0
can take a page whenever it makes a write that does not go by the pools. -/
theorem warmup_respects_pools (cfg : Config) (env : Environment)
    (on : cfg.hotColdSeparation = true) :
    RespectsPools cfg env ↔ ∀ before lpn after reached,
      fills cfg env = before ++ .plain lpn :: after →
        (initializeUpTo cfg env before).run (blankState cfg) =
          .ok () reached → RoomInFirst cfg reached := by
  have prefixed : ∀ {before filling after}, fills cfg env =
      before ++ filling :: after → ∀ earlier ∈ before,
        earlier ∈ fills cfg env := by
    intro before filling after split earlier member
    rw [split]
    exact List.mem_append_left _ member
  constructor
  · intro respects before lpn after reached split run
    obtain ⟨anchored, mapped, sound⟩ :=
      (initializeUpTo_meets on (prefixed split)).of_ok run
    by_contra full
    have calls := callsGetFreeBlock_full anchored sound full lpn
    cases called : (callsGetFreeBlock cfg lpn).run reached with
    | error raised stopped => exact calls.of_error called
    | ok value opened =>
        have yes := calls.of_ok called
        subst yes
        exact (respects.writes before _ after split reached run).untouched lpn
          opened rfl called
  · intro room
    refine ⟨?_, fun final => established on⟩
    intro before filling after split reached run
    obtain ⟨anchored, _⟩ :=
      (initializeUpTo_meets on (prefixed split)).of_ok run
    refine .of_room anchored fun lpn same => ?_
    subst same
    exact room before lpn after reached split run

/-! Blocks of two pages; a cold and a hot page are filled first. -/

def rewritingConfig (pages : Nat) : Config :=
  { sampleConfig with
    totalPhysicalBlocks := 8
    pagesInBlock := 2
    ioUnitInPage_pos := Nat.one_pos
    pageCountToMaxPerf_pos := Nat.one_pos
    hotBlocksLimit_le := Nat.le_of_ble_eq_true rfl
    hotColdSeparation := true
    refreshMode := 4
    nPagesToWarmup := 2
    nPagesToInvalidate := pages
    coldWarmup := 1 }

theorem warmup_respects_pools_rewriting :
    RespectsPools (rewritingConfig 1) sampleEnvironment := by
  refine (warmup_respects_pools (rewritingConfig 1) sampleEnvironment rfl).mpr
    ?_
  intro before lpn after reached split run
  have listed : fills (rewritingConfig 1) sampleEnvironment =
      [.cool 0, .hot 1, .plain 0] := by decide
  have filled : before = [.cool 0, .hot 1] := by
    rw [listed] at split
    rcases before with _ | ⟨first, _ | ⟨second, _ | ⟨third, more⟩⟩⟩
    · cases split
    · cases split
    · cases split
      rfl
    · simp at split
  subst filled
  have evaluated : returns ((initializeUpTo (rewritingConfig 1)
      sampleEnvironment [.cool 0, .hot 1]).run (blankState (rewritingConfig 1)))
      (fun state => (state.blocks.lookup 0).any fun block =>
        block.getNextWritePageIndex < 2) = true := by
    decide +kernel
  obtain ⟨final, result, test⟩ := returns_iff.mp evaluated
  rw [run] at result
  cases result
  obtain ⟨block, found, less⟩ := (Option.any_eq_true _ _).mp test
  exact ⟨block, found, of_decide_eq_true less⟩

/-- The second rewrite takes a block from the empty `freeBlocks`. -/
theorem warmup_leaves_pools :
    stops (outcome (rewritingConfig 2) sampleEnvironment [.initializeFTL]) =
        some .invalidIterator ∧
      ¬ RespectsPools (rewritingConfig 2) sampleEnvironment := by
  refine ⟨by decide +kernel, fun respects => ?_⟩
  have evaluated : returns (EStateM.run (do
      initializeUpTo (rewritingConfig 2) sampleEnvironment
        [.cool 0, .hot 1, .plain 0]
      let called ← callsGetFreeBlock (rewritingConfig 2) 1
      if !called then
        throw .outOfRange) (blankState (rewritingConfig 2)))
      (fun _ => true) = true := by
    decide +kernel
  obtain ⟨final, result, _⟩ := returns_iff.mp evaluated
  obtain ⟨_, reached, run, result⟩ := run_bind_ok result
  obtain ⟨called, opened, calls, result⟩ := run_bind_ok result
  cases called with
  | false => cases result
  | true =>
      exact (respects.writes [.cool 0, .hot 1, .plain 0] (.plain 1) []
        (by decide) reached run).untouched 1 opened rfl calls

end SimpleSSD.FTL
