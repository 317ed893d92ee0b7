import SimpleSSD.FTL.Lifetime

namespace SimpleSSD.FTL

open Program

/-! Facts about the blocks, the free lists and the active slots that every
operation keeps, from what the few accesses that matter to them keep. -/

/-- A version of a block that has neither been written nor erased since. -/
structure Block.Revised (block version : Block) : Prop where
  idx_eq : version.idx = block.idx
  pageCount_eq : version.pageCount = block.pageCount
  ioUnitInPage_eq : version.ioUnitInPage = block.ioUnitInPage
  nextWritePage_eq : version.nextWritePage = block.nextWritePage
  eraseCount_eq : version.eraseCount = block.eraseCount
  refreshedPageCount_eq : version.refreshedPageCount = block.refreshedPageCount

structure Care (cfg : Config) (kept failed : State → Prop) : Prop where
  fails : ∀ state, kept state → failed state
  agree : ∀ {state updated}, kept state → updated.blocks = state.blocks →
    updated.free = state.free →
    (∀ pool, (updated.active pool).blocks = (state.active pool).blocks) →
    updated.retired = state.retired → updated.records = state.records →
    updated.slotsLost = state.slotsLost → kept updated
  revise : ∀ {state blockIndex block version}, kept state →
    state.blocks.lookup blockIndex = some block → block.Revised version →
    kept (state.setBlock blockIndex version)
  write : ∀ {state blockIndex block version pageIndex lpn idx}, kept state →
    state.blocks.lookup blockIndex = some block →
    block.write pageIndex lpn idx = .ok version →
    kept (state.setBlock blockIndex version)
  refresh : ∀ source, Keeps kept failed (noteRefreshed true source)
  refill : ∀ {state pool old block}, kept state →
    (state.active pool).blocks[(state.active pool).index]? = some old →
    state.blocks.lookup old = some block → block.Full cfg →
    Meets (refillSlot cfg pool) state (fun _ final => kept final)
      fun _ stopped => failed stopped

structure Upkeep (cfg : Config) (kept failed : State → Prop) : Prop
    extends Care cfg kept failed where
  erase : cfg.hotColdSeparation = false →
    ∀ victim, Keeps kept failed (eraseInternal cfg victim)
  sepErase : cfg.hotColdSeparation = true →
    ∀ victim, Keeps kept failed (sepEraseInternal cfg victim)

variable {cfg : Config} {env : Environment} {kept failed : State → Prop}

namespace Care

theorem findBlock (care : Care cfg kept failed) (blockIndex : Nat) (missing : Panic) :
    Keeps kept failed (findBlock blockIndex missing) := by
  refine Keeps.get.bind ?_
  intro state
  split
  · exact Keeps.pure _
  · exact Keeps.throw care.fails _

theorem invalidateUnit (care : Care cfg kept failed)
    (blockIndex pageIndex idx : Nat) :
    Keeps kept failed (invalidateUnit blockIndex pageIndex idx) := by
  intro state holds
  unfold FTL.invalidateUnit
  cases found : state.blocks.lookup blockIndex with
  | none =>
      exact Meets.bindError (run_findBlock_none found) (care.fails _ holds)
  | some block =>
      refine Meets.bindOk (run_blockAt found) ?_
      unfold Block.invalidate
      split
      · exact care.fails _ holds
      · exact care.revise holds found ⟨rfl, rfl, rfl, rfl, rfl, rfl⟩

theorem writeUnit (care : Care cfg kept failed)
    (blockIndex pageIndex lpn idx : Nat) :
    Keeps kept failed (writeUnit blockIndex pageIndex lpn idx) := by
  intro state holds
  unfold FTL.writeUnit
  cases found : state.blocks.lookup blockIndex with
  | none =>
      exact Meets.bindError (run_findBlock_none found) (care.fails _ holds)
  | some block =>
      refine Meets.bindOk (run_blockAt found) ?_
      cases written : block.write pageIndex lpn idx with
      | error raised => exact care.fails _ holds
      | ok version =>
          exact care.agree (care.write holds found written) rfl rfl
            (fun _ => rfl) rfl rfl rfl

theorem remapUnit (care : Care cfg kept failed) (lpn idx : Nat)
    (location : Nat × Nat) (missing : Panic) :
    Keeps kept failed (remapUnit lpn idx location missing) := by
  intro state holds
  apply meets_bind.mpr
  apply meets_get.mpr
  split
  · exact care.agree holds rfl rfl (fun _ => rfl) rfl rfl rfl
  · exact care.fails _ holds

theorem count (care : Care cfg kept failed) (update : Stat → Stat) :
    Keeps kept failed (count update) :=
  Keeps.modify fun _ holds =>
    care.agree holds rfl rfl (fun _ => rfl) rfl rfl rfl

theorem setRefreshPeriod (care : Care cfg kept failed)
    (eraseCount blockNum layerNum : Nat) :
    Keeps kept failed (setRefreshPeriod cfg env eraseCount blockNum layerNum) := by
  intro state holds
  apply meets_bind.mpr
  apply meets_get.mpr
  cases state.refresh.setRefreshPeriod cfg env state.stat.refreshCallCount
      eraseCount blockNum layerNum with
  | error raised => exact care.fails _ holds
  | ok refresh => exact care.agree holds rfl rfl (fun _ => rfl) rfl rfl rfl

theorem slotAt (care : Care cfg kept failed) (pool : ActivePool) : Keeps kept failed (slotAt pool) := by
  refine Keeps.get.bind ?_
  intro state
  split
  · exact Keeps.throw care.fails _
  · exact Keeps.pure _

theorem getLastBlock (care : Care cfg kept failed) (pool : ActivePool)
    (iomap : IOFlag) : Keeps kept failed (getLastBlock cfg pool iomap) := by
  intro state holds
  unfold FTL.getLastBlock
  have advanced : kept (state.setActive pool
      ((state.active pool).advance cfg iomap)) := by
    refine care.agree holds rfl rfl ?_ rfl rfl rfl
    intro other
    simp only [State.setActive_active]
    by_cases same : other = pool
    · subst same
      rw [Function.update_self]
      unfold ActiveSlots.advance
      split <;> rfl
    · rw [Function.update_of_ne same]
  refine Meets.bindOk rfl ?_
  dsimp only
  generalize state.setActive pool ((state.active pool).advance cfg iomap) =
    ready at advanced ⊢
  cases slot : (ready.active pool).blocks[(ready.active pool).index]? with
  | none =>
      have failed : (FTL.slotAt pool).run ready = .error .outOfRange ready := by
        unfold FTL.slotAt
        rw [EStateM.run_bind, EStateM.run_get]
        dsimp only
        rw [slot]
        rfl
      exact Meets.bindError failed (care.fails _ advanced)
  | some old =>
      refine Meets.bindOk (run_slotAt slot) ?_
      cases found : ready.blocks.lookup old with
      | none =>
          exact Meets.bindError (run_findBlock_none found)
            (care.fails _ advanced)
      | some block =>
          refine Meets.bindOk (run_findBlock found) ?_
          split
          · next full =>
              exact (care.refill advanced slot found full).bind
                fun _ reached kept => care.slotAt pool reached kept
          · exact care.slotAt pool ready advanced

theorem copyUnit (care : Care cfg kept failed) (missing : Panic)
    (refreshes : Bool) (source pageIndex target lpn idx : Nat) :
    Keeps kept failed (copyUnit cfg env missing refreshes source pageIndex target lpn
      idx) := by
  refine (care.invalidateUnit _ _ _).bind fun _ => Keeps.bind ?_ fun _ =>
    (care.findBlock _ _).bind fun block => (care.remapUnit _ _ _ _).bind fun _ =>
      (care.writeUnit _ _ _ _).bind fun _ => care.setRefreshPeriod _ _ _
  cases refreshes with
  | false => exact Keeps.pure _
  | true => exact care.refresh source

theorem copyPage (care : Care cfg kept failed) (plan : CopyPlan)
    (source pageIndex : Nat) :
    Keeps kept failed (copyPage cfg env plan source pageIndex) := by
  unfold FTL.copyPage
  refine (care.findBlock _ _).bind ?_
  intro block
  dsimp only
  split
  · refine (care.getLastBlock _ _).bind fun target => Keeps.bind ?_
      fun _ => care.count _
    refine Keeps.forM ?_
    intro idx
    split
    · exact (care.copyUnit _ _ _ _ _ _ _).bind fun _ => care.count _
    · exact Keeps.pure _
  · exact Keeps.pure _

theorem copyVictims (care : Care cfg kept failed) (plan : CopyPlan)
    (invalid : Panic) (victims : List Nat) :
    Keeps kept failed (copyVictims cfg env plan invalid victims) :=
  Keeps.forM fun victim => (care.findBlock _ _).bind fun _ =>
    Keeps.forM fun page => care.copyPage plan victim page

/-- The end of a selection changes flags, counters and windows. -/
theorem select (care : Care cfg kept failed)
    {choice : State → Except Panic α}
    {update : α → State → State}
    (same : ∀ chosen state, kept state → kept (update chosen state)) :
    Keeps kept failed (do
      let state ← get
      let chosen ← liftExcept (choice state)
      set (update chosen state)
      return chosen) := by
  intro state holds
  apply meets_bind.mpr
  apply meets_get.mpr
  cases choice state with
  | error raised => exact care.fails _ holds
  | ok chosen => exact same chosen state holds

theorem selectVictimBlock (care : Care cfg kept failed) :
    Keeps kept failed (selectVictimBlock cfg env) :=
  care.select fun _ _ holds =>
    care.agree holds rfl rfl (fun _ => rfl) rfl rfl rfl

theorem selectColdVictimBlock (care : Care cfg kept failed) :
    Keeps kept failed (selectColdVictimBlock cfg env) :=
  care.select fun _ _ holds =>
    care.agree holds rfl rfl (fun _ => rfl) rfl rfl rfl

theorem selectHotVictimBlock (care : Care cfg kept failed) :
    Keeps kept failed (selectHotVictimBlock cfg env) := by
  intro state holds
  apply meets_bind.mpr
  apply meets_get.mpr
  cases blocksToReclaim cfg env .hot state with
  | error raised => exact care.fails _ holds
  | ok reclaim => exact care.agree holds rfl rfl (fun _ => rfl) rfl rfl rfl

theorem needsGC (pool : FreePool) : Keeps kept failed (needsGC env pool) :=
  Keeps.get.bind fun _ => Keeps.pure _

theorem popLayer (care : Care cfg kept failed) (queueNum layerID : Nat) :
    Keeps kept failed (popLayer queueNum layerID) := by
  unfold FTL.popLayer
  refine Keeps.bind (Keeps.modify fun _ holds =>
    care.agree holds rfl rfl (fun _ => rfl) rfl rfl rfl) fun _ => ?_
  intro state holds
  apply meets_bind.mpr
  apply meets_get.mpr
  dsimp only
  split
  · exact care.fails _ holds
  · split
    · exact care.agree holds rfl rfl (fun _ => rfl) rfl rfl rfl
    · split
      · exact care.agree holds rfl rfl (fun _ => rfl) rfl rfl rfl
      · exact care.fails _ holds

theorem copyLayer (care : Care cfg kept failed) (layerID : Nat) :
    Keeps kept failed (copyLayer cfg env layerID) := by
  unfold FTL.copyLayer
  refine Keeps.get.bind ?_
  intro state
  split
  · exact Keeps.pure _
  · exact Keeps.forM fun page => care.copyPage _ _ page

theorem refreshLayers (care : Care cfg kept failed) (queueNum remaining : Nat) :
    Keeps kept failed (refreshLayers cfg env queueNum remaining) := by
  induction remaining with
  | zero => exact Keeps.pure _
  | succ remaining induction =>
      unfold FTL.refreshLayers
      refine Keeps.get.bind ?_
      intro state
      split
      · exact Keeps.pure _
      · refine (care.popLayer _ _).bind ?_
        intro popped
        split
        · exact (care.copyLayer _).bind fun _ => induction
        · exact induction

theorem openMapping (care : Care cfg kept failed) (lpn : Nat) (flag : IOFlag) :
    Keeps kept failed (openMapping cfg lpn flag) := by
  intro state holds
  apply meets_bind.mpr
  apply meets_get.mpr
  split
  · next mapping found =>
      rw [map_eq_pure_bind]
      refine Keeps.bind (Keeps.foldlM ?_) (fun _ => Keeps.pure _) state holds
      intro last idx
      dsimp only
      split
      · split
        · exact (care.invalidateUnit _ _ _).bind fun _ => Keeps.pure _
        · exact Keeps.pure _
      · exact Keeps.pure _
  · exact care.agree holds rfl rfl (fun _ => rfl) rfl rfl rfl

theorem programUnits (care : Care cfg kept failed) (schedule : Bool)
    (target lpn : Nat) (flag : IOFlag) :
    Keeps kept failed (programUnits cfg env schedule target lpn flag) := by
  refine Keeps.forM ?_
  intro idx
  split
  · unfold programUnit
    refine (care.findBlock _ _).bind fun block => (care.writeUnit _ _ _ _).bind
      fun _ => (care.remapUnit _ _ _ _).bind fun _ => ?_
    split
    · exact care.setRefreshPeriod _ _ _
    · exact Keeps.pure _
  · exact Keeps.pure _

theorem poolTypeOf (care : Care cfg kept failed) (fresh : BlockPoolType) (last : Option (Option Nat)) :
    Keeps kept failed (poolTypeOf fresh last) := by
  unfold FTL.poolTypeOf
  split
  · exact Keeps.pure _
  · exact Keeps.throw care.fails _
  · exact (care.findBlock _ _).bind fun _ => Keeps.pure _

theorem writeInternal (care : Care cfg kept failed) (lpn : Nat) (flag : IOFlag)
    (sendToPAL : Bool)
    (collects : sendToPAL = true →
      Keeps kept failed (plainGC cfg env false)) :
    Keeps kept failed (writeInternal cfg env lpn flag sendToPAL) := by
  refine (care.openMapping _ _).bind fun _ =>
    (care.getLastBlock _ _).bind fun _ => (care.findBlock _ _).bind fun _ =>
      (care.programUnits _ _ _ _).bind fun _ => (needsGC _).bind ?_
  intro below
  cases sendToPAL with
  | false =>
      split
      · exact Keeps.throwBind care.fails
      · exact Keeps.pure _
  | true =>
      split
      · exact collects rfl
      · exact Keeps.pure _

theorem sepCollect (care : Care cfg kept failed) (sendToPAL : Bool)
    (collects : sendToPAL = true → Keeps kept failed (coldGC cfg env false) ∧
      Keeps kept failed (hotGC cfg env)) :
    Keeps kept failed (do
      if ← FTL.needsGC env .cold then
        if !sendToPAL then
          throw .gcInInitializationByCold
        FTL.coldGC cfg env false
      if ← FTL.needsGC env .hot then
        if !sendToPAL then
          throw .gcInInitializationByHot
        FTL.hotGC cfg env) := by
  have hot : Keeps kept failed (do
      if ← FTL.needsGC env .hot then
        if !sendToPAL then
          throw .gcInInitializationByHot
        FTL.hotGC cfg env) := by
    refine (needsGC _).bind ?_
    intro below
    cases sendToPAL with
    | false =>
        split
        · exact Keeps.throwBind care.fails
        · exact Keeps.pure _
    | true =>
        split
        · exact (collects rfl).2
        · exact Keeps.pure _
  refine (needsGC _).bind ?_
  intro below
  cases below with
  | false => exact hot
  | true =>
      cases sendToPAL with
      | false => exact Keeps.throwBind care.fails
      | true => exact (collects rfl).1.bind fun _ => hot

theorem sepWriteInternal (care : Care cfg kept failed) (lpn : Nat)
    (flag : IOFlag) (sendToPAL : Bool)
    (collects : sendToPAL = true → Keeps kept failed (coldGC cfg env false) ∧
      Keeps kept failed (hotGC cfg env)) :
    Keeps kept failed (sepWriteInternal cfg env lpn flag sendToPAL) := by
  unfold FTL.sepWriteInternal
  refine (care.openMapping _ _).bind fun last =>
    (care.poolTypeOf _ _).bind fun curBlockType => ?_
  have finish : ∀ target, Keeps kept failed (do
      let _ ← FTL.findBlock target .noSuchBlock
      FTL.programUnits cfg env true target lpn flag
      if ← FTL.needsGC env .cold then
        if !sendToPAL then
          throw .gcInInitializationByCold
        FTL.coldGC cfg env false
      if ← FTL.needsGC env .hot then
        if !sendToPAL then
          throw .gcInInitializationByHot
        FTL.hotGC cfg env) := fun target =>
    (care.findBlock _ _).bind fun _ => (care.programUnits _ _ _ _).bind fun _ =>
      care.sepCollect sendToPAL collects
  dsimp only
  split
  · exact (care.getLastBlock _ _).bind finish
  · exact (care.getLastBlock _ _).bind finish

theorem sepHotWriteInternal (care : Care cfg kept failed) (lpn : Nat)
    (flag : IOFlag) : Keeps kept failed (sepHotWriteInternal cfg env lpn flag) := by
  unfold FTL.sepHotWriteInternal
  refine (care.openMapping _ _).bind fun last =>
    (care.poolTypeOf _ _).bind fun curBlockType => ?_
  dsimp only
  split
  · exact Keeps.throwBind care.fails
  refine (care.getLastBlock _ _).bind fun target =>
    (care.findBlock _ _).bind fun _ => (care.programUnits _ _ _ _).bind fun _ =>
      (needsGC _).bind fun cold => ?_
  split
  · exact Keeps.throwBind care.fails
  · refine (needsGC _).bind fun hot => ?_
    split
    · exact Keeps.throw care.fails _
    · exact Keeps.pure _

theorem unmap (care : Care cfg kept failed) (missing : Panic) (lpn : Nat) :
    Keeps kept failed (unmap cfg missing lpn) := by
  unfold FTL.unmap
  refine Keeps.get.bind ?_
  intro state
  split
  · exact Keeps.pure _
  · refine Keeps.bind (Keeps.forM fun idx => (care.findBlock _ _).bind fun _ =>
      care.invalidateUnit _ _ _) fun _ => Keeps.modify ?_
    exact fun _ holds => care.agree holds rfl rfl (fun _ => rfl) rfl rfl rfl

theorem fill (care : Care cfg kept failed) (filling : FillWrite) :
    Keeps kept failed (fill cfg env filling) := by
  cases filling with
  | plain lpn =>
      exact care.writeInternal lpn _ false fun impossible => by
        cases impossible
  | cool lpn =>
      exact care.sepWriteInternal lpn _ false fun impossible => by
        cases impossible
  | hot lpn => exact care.sepHotWriteInternal lpn _

theorem initializeFTL (care : Care cfg kept failed) :
    Keeps kept failed (initializeFTL cfg env) :=
  Keeps.bind (Keeps.modify fun _ holds =>
    care.agree holds rfl rfl (fun _ => rfl) rfl rfl rfl) fun _ =>
      Keeps.forM care.fill

theorem readInternal (care : Care cfg kept failed) (lpn : Nat) (flag : IOFlag) :
    Keeps kept failed (readInternal cfg lpn flag) := by
  unfold FTL.readInternal
  refine Keeps.get.bind ?_
  intro state
  split
  · exact Keeps.pure _
  · refine Keeps.forM ?_
    intro idx
    split
    · split
      · exact (care.findBlock _ _).bind fun _ => Keeps.pure _
      · exact Keeps.pure _
    · exact Keeps.pure _

end Care

namespace Upkeep

theorem doGarbageCollection (upkeep : Upkeep cfg kept failed)
    (off : cfg.hotColdSeparation = false) (isRefresh : Bool)
    (victims : List Nat) :
    Keeps kept failed (doGarbageCollection cfg env isRefresh victims) :=
  (upkeep.copyVictims _ _ _).bind fun _ => Keeps.forM (upkeep.erase off)

theorem sepDoGarbageCollection (upkeep : Upkeep cfg kept failed)
    (on : cfg.hotColdSeparation = true) (isRefresh : Bool)
    (gcType : BlockPoolType) (victims : List Nat) :
    Keeps kept failed (sepDoGarbageCollection cfg env isRefresh gcType victims) :=
  (upkeep.copyVictims _ _ _).bind fun _ => Keeps.forM (upkeep.sepErase on)

theorem plainGC (upkeep : Upkeep cfg kept failed)
    (off : cfg.hotColdSeparation = false) (isRefresh : Bool) :
    Keeps kept failed (plainGC cfg env isRefresh) :=
  upkeep.selectVictimBlock.bind fun _ =>
    (upkeep.doGarbageCollection off _ _).bind fun _ => upkeep.count _

theorem coldGC (upkeep : Upkeep cfg kept failed)
    (on : cfg.hotColdSeparation = true) (isRefresh : Bool) :
    Keeps kept failed (coldGC cfg env isRefresh) :=
  upkeep.selectColdVictimBlock.bind fun _ =>
    (upkeep.sepDoGarbageCollection on _ _ _).bind fun _ => upkeep.count _

theorem hotGC (upkeep : Upkeep cfg kept failed)
    (on : cfg.hotColdSeparation = true) : Keeps kept failed (hotGC cfg env) :=
  upkeep.selectHotVictimBlock.bind fun _ =>
    (upkeep.sepDoGarbageCollection on _ _ _).bind fun _ => upkeep.count _

theorem refreshGC (upkeep : Upkeep cfg kept failed) :
    Keeps kept failed (refreshGC cfg env) := by
  unfold FTL.refreshGC
  split
  · next on =>
      refine (Care.needsGC _).bind ?_
      intro below
      split
      · exact upkeep.coldGC on _
      · exact Keeps.pure _
  · next off =>
      refine (Care.needsGC _).bind ?_
      intro below
      split
      · exact upkeep.plainGC (by simpa using off) _
      · exact Keeps.pure _

theorem refreshEvent (upkeep : Upkeep cfg kept failed) :
    Keeps kept failed (refreshEvent cfg env) := by
  intro state holds
  unfold FTL.refreshEvent
  apply meets_bind.mpr
  apply meets_get.mpr
  dsimp only
  split
  · exact upkeep.fails _ holds
  refine Meets.bindOk rfl ?_
  have page : ∀ queueIndex,
      Keeps kept failed (refreshPage cfg env queueIndex) := fun _ =>
    upkeep.refreshGC.bind fun _ =>
      (upkeep.refreshLayers _ _).bind fun _ => upkeep.refreshGC
  exact (page _).bind (fun _ => upkeep.count _) _
    (upkeep.agree holds rfl rfl (fun _ => rfl) rfl rfl rfl)

theorem collectGiven (upkeep : Upkeep cfg kept failed) (victims : List Nat) :
    Keeps kept failed (if cfg.hotColdSeparation then
        FTL.sepDoGarbageCollection cfg env false .cold victims
      else
        FTL.doGarbageCollection cfg env false victims) := by
  split
  · next on => exact upkeep.sepDoGarbageCollection on _ _ _
  · next off => exact upkeep.doGarbageCollection (by simpa using off) _ _

theorem perform (upkeep : Upkeep cfg kept failed) (op : Op) :
    Keeps kept failed (perform cfg env op) := by
  unfold FTL.perform
  cases op with
  | initializeFTL => exact upkeep.initializeFTL
  | read lpn flag =>
      dsimp only
      unfold FTL.read
      split
      · exact upkeep.readInternal lpn flag
      · exact Keeps.pure _
  | write lpn flag =>
      dsimp only
      unfold FTL.write
      split
      · split
        · next on =>
            exact upkeep.sepWriteInternal lpn flag true fun _ =>
              ⟨upkeep.coldGC on false, upkeep.hotGC on⟩
        · next off =>
            exact upkeep.writeInternal lpn flag true fun _ =>
              upkeep.plainGC (by simpa using off) false
      · exact Keeps.pure _
  | trim lpn => exact upkeep.unmap _ lpn
  | gc victims => exact upkeep.collectGiven victims
  | refresh => exact upkeep.refreshEvent
  | format slpn nlp =>
      dsimp only
      unfold FTL.format
      refine Keeps.get.bind ?_
      intro state
      exact Keeps.bind (Keeps.forM fun lpn => upkeep.unmap _ lpn)
        fun _ => upkeep.collectGiven _

/-- What the constructor establishes is kept by a whole life. -/
theorem life (upkeep : Upkeep cfg kept failed)
    (start : Meets (construct cfg) (blankState cfg)
      (fun _ state => kept state) fun _ stopped => failed stopped)
    (ops : List Op) :
    Meets (life cfg env ops) (blankState cfg) (fun _ final => kept final)
      fun _ stopped => failed stopped :=
  start.bind fun _ => Keeps.forM upkeep.perform

end Upkeep

end SimpleSSD.FTL
