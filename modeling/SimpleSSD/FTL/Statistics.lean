import SimpleSSD.Data.Lockstep
import SimpleSSD.FTL.Layers
import Mathlib.Data.Nat.ModEq

namespace SimpleSSD.FTL

open Program

/-! The statistics against the rest of the FTL.  Of all counters only
`refreshCallCount` is read by the control flow, and only its remainder. -/

def State.resetStatValues (state : State) : State :=
  { state with stat := {} }

/-- Two states that differ in their statistics only.  Where pages are scheduled
the refresh clocks name the same queues; otherwise there is nothing queued. -/
structure Alike (cfg : Config) (first second : State) : Prop where
  same : second = { first with stat := second.stat }
  clock : cfg.refreshMode < 4 →
    Nat.ModEq cfg.refreshFilterNum first.stat.refreshCallCount
        second.stat.refreshCallCount ∧
      Nat.ModEq first.refresh.queueCount first.stat.refreshCallCount
        second.stat.refreshCallCount
  unqueued : 4 ≤ cfg.refreshMode → ∀ queueNum,
    first.refresh.refreshQueues queueNum = [] ∧
      first.refresh.checkedQueues queueNum = []

namespace RefreshQueue

variable {cfg : Config} {env : Environment} {queue : RefreshQueue}

theorem insertToQueue_mod {first second : Nat}
    (same : Nat.ModEq cfg.refreshFilterNum first second)
    (queueNum layerID : Nat) :
    insertToQueue cfg first queueNum layerID =
      insertToQueue cfg second queueNum layerID := by
  have remainder : first % cfg.refreshFilterNum =
      second % cfg.refreshFilterNum := same
  unfold insertToQueue
  dsimp only
  rw [remainder]

/-- Pages are scheduled by the remainder of the refresh clock. -/
theorem setRefreshPeriod_mod {first second : Nat}
    (same : Nat.ModEq cfg.refreshFilterNum first second)
    (eraseCount blockNum layerNum : Nat) :
    queue.setRefreshPeriod cfg env first eraseCount blockNum layerNum =
      queue.setRefreshPeriod cfg env second eraseCount blockNum layerNum := by
  have remainder : first % cfg.refreshFilterNum =
      second % cfg.refreshFilterNum := same
  unfold setRefreshPeriod
  simp only [remainder, insertToQueue_mod same]

theorem setRefreshPeriod_idle (mode : 4 ≤ cfg.refreshMode)
    (refreshCallCount eraseCount blockNum layerNum : Nat) :
    queue.setRefreshPeriod cfg env refreshCallCount eraseCount blockNum
      layerNum =
        if cfg.refreshFilterNum = 0 then .error .divisionByZero
        else .ok queue := by
  unfold setRefreshPeriod
  dsimp only
  split
  · rfl
  · split <;> first | rfl | omega

theorem swap_unqueued {target : Nat}
    (waiting : queue.refreshQueues target = [])
    (checked : queue.checkedQueues target = []) :
    queue.swap target = queue := by
  have kept : Function.update queue.checkedQueues target
      (queue.refreshQueues target) = queue.checkedQueues := by
    rw [waiting, ← checked, Function.update_eq_self]
  have kept' : Function.update queue.refreshQueues target
      (queue.checkedQueues target) = queue.refreshQueues := by
    rw [checked, ← waiting, Function.update_eq_self]
  unfold swap
  rw [kept, kept']

end RefreshQueue

namespace Alike

variable {cfg : Config} {state first second : State} {stat : Stat}

theorem exists_stat (alike : Alike cfg first second) :
    ∃ stat, second = { first with stat := stat } :=
  ⟨_, alike.same⟩

theorem update (alike : Alike cfg state { state with stat := stat })
    {updated : State} (sameStat : updated.stat = state.stat)
    (sameRefresh : updated.refresh = state.refresh) :
    Alike cfg updated { updated with stat := stat } where
  same := rfl
  clock := fun mode => by
    rw [sameStat, sameRefresh]
    exact alike.clock mode
  unqueued := fun mode => by
    rw [sameRefresh]
    exact alike.unqueued mode

theorem reschedule (alike : Alike cfg state { state with stat := stat })
    {refresh : RefreshQueue}
    (sameCount : refresh.queueCount = state.refresh.queueCount)
    (unqueued : 4 ≤ cfg.refreshMode → ∀ queueNum,
      refresh.refreshQueues queueNum = [] ∧
        refresh.checkedQueues queueNum = []) :
    Alike cfg { state with refresh := refresh }
      { state with refresh := refresh, stat := stat } where
  same := rfl
  clock := fun mode => by
    rw [sameCount]
    exact alike.clock mode
  unqueued := unqueued

end Alike

theorem uniform_get {cfg : Config} {next : State → FTLM α}
    (rest : ∀ state stat twin, twin = { state with stat := stat } →
      Alike cfg state twin →
        Lockstep (Alike cfg) (next state) (next { state with stat := stat })
          state twin) :
    Uniform (Alike cfg) (get >>= next) := by
  apply Uniform.getBind
  intro first second alike
  obtain ⟨stat, rfl⟩ := alike.exists_stat
  exact rest first stat _ rfl alike

theorem uniform_modify {cfg : Config} {update : State → State}
    (apart : ∀ state stat, update { state with stat := stat } =
      { update state with stat := stat })
    (sameStat : ∀ state, (update state).stat = state.stat)
    (sameRefresh : ∀ state, (update state).refresh = state.refresh) :
    Uniform (Alike cfg) (modify update : FTLM Unit) := by
  apply Uniform.modify
  intro first second alike
  obtain ⟨stat, rfl⟩ := alike.exists_stat
  rw [apart first stat]
  exact alike.update (sameStat first) (sameRefresh first)

theorem uniform_liftExcept {cfg : Config} (result : Except Panic α) :
    Uniform (Alike cfg) (liftExcept result) := by
  cases result with
  | error raised => exact Uniform.throw raised
  | ok value => exact Uniform.pure value

/-! The accesses. -/

section Accesses

variable {cfg : Config} {env : Environment}

theorem findBlock_uniform (blockIndex : Nat) (missing : Panic) :
    Uniform (Alike cfg) (findBlock blockIndex missing) := by
  refine uniform_get ?_
  intro state stat twin same alike
  dsimp only
  cases state.blocks.lookup blockIndex with
  | none => exact ⟨rfl, alike⟩
  | some block => exact ⟨rfl, alike⟩

theorem blockAt_uniform (blockIndex : Nat) :
    Uniform (Alike cfg) (blockAt blockIndex) :=
  findBlock_uniform blockIndex .invalidIterator

theorem setBlock_uniform (blockIndex : Nat) (block : Block) :
    Uniform (Alike cfg)
      (modify (·.setBlock blockIndex block) : FTLM Unit) :=
  uniform_modify (fun _ _ => rfl) (fun _ => rfl) (fun _ => rfl)

theorem updateBlock_uniform (blockIndex : Nat) (update : Block → Block) :
    Uniform (Alike cfg) (updateBlock blockIndex update) :=
  (blockAt_uniform blockIndex).bind fun _ => setBlock_uniform _ _

theorem invalidateUnit_uniform (blockIndex pageIndex idx : Nat) :
    Uniform (Alike cfg) (invalidateUnit blockIndex pageIndex idx) :=
  (blockAt_uniform blockIndex).bind fun _ =>
    (uniform_liftExcept _).bind fun _ => setBlock_uniform _ _

theorem writeUnit_uniform (blockIndex pageIndex lpn idx : Nat) :
    Uniform (Alike cfg) (writeUnit blockIndex pageIndex lpn idx) :=
  (blockAt_uniform blockIndex).bind fun _ =>
    (uniform_liftExcept _).bind fun _ =>
      uniform_modify (fun _ _ => rfl) (fun _ => rfl) (fun _ => rfl)

theorem remapUnit_uniform (lpn idx : Nat) (location : Nat × Nat)
    (missing : Panic) :
    Uniform (Alike cfg) (remapUnit lpn idx location missing) := by
  refine uniform_get ?_
  intro state stat twin same alike
  dsimp only
  cases state.table.lookup lpn with
  | none => exact ⟨rfl, alike⟩
  | some mapping =>
      subst same
      exact ⟨rfl, alike.update rfl rfl⟩

theorem count_uniform {update : Stat → Stat}
    (apart : ∀ stat, (update stat).refreshCallCount = stat.refreshCallCount) :
    Uniform (Alike cfg) (count update) := by
  apply Uniform.modify
  intro first second alike
  obtain ⟨stat, rfl⟩ := alike.exists_stat
  refine ⟨rfl, ?_, alike.unqueued⟩
  intro mode
  have clock := alike.clock mode
  dsimp only [State.withStat] at clock ⊢
  rw [apart, apart]
  exact clock

theorem setRefreshPeriod_uniform (eraseCount blockNum layerNum : Nat) :
    Uniform (Alike cfg)
      (setRefreshPeriod cfg env eraseCount blockNum layerNum) := by
  refine uniform_get ?_
  intro state stat twin same alike
  subst same
  dsimp only
  rcases Nat.lt_or_ge cfg.refreshMode 4 with mode | mode
  · rw [RefreshQueue.setRefreshPeriod_mod (alike.clock mode).1]
    dsimp only
    cases scheduled : state.refresh.setRefreshPeriod cfg env
        stat.refreshCallCount eraseCount blockNum layerNum with
    | error raised => exact ⟨rfl, alike⟩
    | ok refresh =>
        refine ⟨rfl, alike.reschedule ?_ ?_⟩
        · exact ((RefreshQueue.setRefreshPeriod_uses _ _ _ _).grows refresh
            scheduled).2.1
        · intro idle
          omega
  · rw [RefreshQueue.setRefreshPeriod_idle mode,
      RefreshQueue.setRefreshPeriod_idle mode]
    split
    · exact ⟨rfl, alike⟩
    · exact ⟨rfl, alike⟩

end Accesses

/-! Allocation. -/

section Allocation

variable {cfg : Config}

theorem takeFreeBlock_uniform (pool : FreePool) (noneLeft inUse : Panic)
    (idx : Nat) :
    Uniform (Alike cfg) (takeFreeBlock cfg pool noneLeft inUse idx) := by
  unfold takeFreeBlock
  dsimp only
  split
  · exact Uniform.throwBind
  refine uniform_get ?_
  intro state stat twin same alike
  dsimp only
  split
  · exact ⟨rfl, alike⟩
  cases searchFree cfg idx (state.free pool).blocks with
  | none => exact ⟨rfl, alike⟩
  | some block =>
      dsimp only
      split
      · exact ⟨rfl, alike⟩
      · subst same
        exact ⟨rfl, alike.update rfl rfl⟩

theorem getFreeBlock_uniform (idx : Nat) :
    Uniform (Alike cfg) (getFreeBlock cfg idx) :=
  (takeFreeBlock_uniform _ _ _ _).bind fun _ =>
    (updateBlock_uniform _ _).bind fun _ => Uniform.pure _

theorem getHotFreeBlock_uniform (idx : Nat) :
    Uniform (Alike cfg) (getHotFreeBlock cfg idx) := by
  refine (takeFreeBlock_uniform _ _ _ _).bind fun blockIndex => ?_
  refine Uniform.bind (uniform_modify ?_ ?_ ?_) fun _ => ?_
  · exact fun _ _ => rfl
  · exact fun _ => rfl
  · exact fun _ => rfl
  · exact (updateBlock_uniform _ _).bind fun _ => Uniform.pure _

theorem demoteCoolFront_uniform :
    Uniform (Alike cfg) (demoteCoolFront cfg) := by
  refine uniform_get ?_
  intro state stat twin same alike
  dsimp only
  split
  · cases state.coolDownWindow with
    | nil => exact ⟨rfl, alike⟩
    | cons front rest =>
        dsimp only
        subst same
        cases found : state.blocks.lookup front with
        | none =>
            exact Lockstep.bindError (run_findBlock_none found)
              (run_findBlock_none found) alike
        | some block =>
            exact Lockstep.bindOk (run_findBlock found) (run_findBlock found)
              ⟨rfl, alike.update rfl rfl⟩
  · exact ⟨rfl, alike⟩

theorem getColdFreeBlock_uniform (idx : Nat) (queueInsert : Bool) :
    Uniform (Alike cfg) (getColdFreeBlock cfg idx queueInsert) := by
  refine (takeFreeBlock_uniform _ _ _ _).bind fun blockIndex => ?_
  dsimp only
  split
  · refine demoteCoolFront_uniform.bind fun _ => ?_
    refine Uniform.bind (uniform_modify ?_ ?_ ?_) fun _ => ?_
    · exact fun _ _ => rfl
    · exact fun _ => rfl
    · exact fun _ => rfl
    · exact (updateBlock_uniform _ _).bind fun _ => Uniform.pure _
  · exact (updateBlock_uniform _ _).bind fun _ => Uniform.pure _

theorem getBlockFor_uniform (pool : ActivePool) (idx : Nat) :
    Uniform (Alike cfg) (getBlockFor cfg pool idx) := by
  cases pool with
  | plain => exact getFreeBlock_uniform idx
  | hot => exact getHotFreeBlock_uniform idx
  | cool => exact getColdFreeBlock_uniform idx true
  | cold => exact getColdFreeBlock_uniform idx false

theorem slotAt_uniform (pool : ActivePool) :
    Uniform (Alike cfg) (slotAt pool) := by
  refine uniform_get ?_
  intro state stat twin same alike
  dsimp only
  cases (state.active pool).blocks[(state.active pool).index]? with
  | none => exact ⟨rfl, alike⟩
  | some blockIndex => exact ⟨rfl, alike⟩

theorem seatSlot_uniform (pool : ActivePool) (idx : Nat) :
    Uniform (Alike cfg) (seatSlot cfg pool idx) := by
  refine (getBlockFor_uniform pool idx).bind fun blockIndex => ?_
  exact uniform_modify (fun _ _ => rfl) (fun _ => rfl) (fun _ => rfl)

theorem refillSlot_uniform (pool : ActivePool) :
    Uniform (Alike cfg) (refillSlot cfg pool) := by
  refine uniform_get ?_
  intro state stat twin same alike
  refine (seatSlot_uniform pool _ state twin alike).bind ?_
  intro _ reached reached' kept
  refine uniform_modify ?_ ?_ ?_ reached reached' kept
  · exact fun _ _ => rfl
  · exact fun _ => rfl
  · exact fun _ => rfl

theorem getLastBlock_uniform (pool : ActivePool) (iomap : IOFlag) :
    Uniform (Alike cfg) (getLastBlock cfg pool iomap) := by
  refine Uniform.bind (uniform_modify ?_ ?_ ?_) fun _ => ?_
  · exact fun _ _ => rfl
  · exact fun _ => rfl
  · exact fun _ => rfl
  refine (slotAt_uniform pool).bind fun blockIndex => ?_
  refine (findBlock_uniform _ _).bind fun block => ?_
  dsimp only
  split
  · exact (refillSlot_uniform pool).bind fun _ => slotAt_uniform pool
  · exact slotAt_uniform pool

theorem searchPosition_uniform (pool : FreePool) (erasedCount : Nat) :
    Uniform (Alike cfg) (searchPosition pool erasedCount) := by
  refine uniform_get ?_
  intro state stat twin same alike
  dsimp only
  split
  · exact ⟨rfl, alike⟩
  · exact ⟨rfl, alike⟩

theorem emplaceFree_uniform (pool : FreePool) (position : Option Nat)
    (blockIndex : Nat) :
    Uniform (Alike cfg) (emplaceFree pool position blockIndex) := by
  refine (blockAt_uniform blockIndex).bind fun block => ?_
  refine uniform_get ?_
  intro state stat twin same alike
  dsimp only
  cases emplaceBefore position block (state.free pool).blocks with
  | error raised => exact ⟨rfl, alike⟩
  | ok blocks =>
      subst same
      exact ⟨rfl, alike.update rfl rfl⟩

theorem dropBlock_uniform (pools : List ActivePool) (retires : Bool)
    (blockIndex : Nat) :
    Uniform (Alike cfg) (dropBlock pools retires blockIndex) :=
  uniform_modify (fun _ _ => rfl) (fun _ => rfl) (fun _ => rfl)

theorem eraseInternal_uniform (blockIndex : Nat) :
    Uniform (Alike cfg) (eraseInternal cfg blockIndex) := by
  refine (findBlock_uniform _ _).bind fun block => ?_
  dsimp only
  split
  · exact Uniform.throwBind
  refine (updateBlock_uniform _ _).bind fun _ => ?_
  split
  · refine (searchPosition_uniform _ _).bind fun position => ?_
    exact (emplaceFree_uniform _ _ _).bind fun _ => dropBlock_uniform _ _ _
  · exact dropBlock_uniform _ _ _

theorem repairSlot_uniform (pool : ActivePool) (blockIndex : Nat) :
    Uniform (Alike cfg) (repairSlot cfg pool blockIndex) := by
  refine uniform_get ?_
  intro state stat twin same alike
  dsimp only
  split
  · refine (getColdFreeBlock_uniform _ true state twin alike).bind ?_
    intro replacement reached reached' kept
    refine uniform_modify ?_ ?_ ?_ reached reached' kept
    · exact fun _ _ => rfl
    · exact fun _ => rfl
    · exact fun _ => rfl
  · exact ⟨rfl, alike⟩

theorem sepEraseInternal_uniform (blockIndex : Nat) :
    Uniform (Alike cfg) (sepEraseInternal cfg blockIndex) := by
  refine (blockAt_uniform _).bind fun block => ?_
  dsimp only
  split
  · exact Uniform.throwBind
  refine (updateBlock_uniform _ _).bind fun _ => ?_
  have drops : ∀ retires, Uniform (Alike cfg)
      (dropBlock [.hot, .cool, .cold] retires blockIndex) :=
    fun retires => dropBlock_uniform _ retires blockIndex
  split
  · split
    · refine (searchPosition_uniform _ _).bind fun position => ?_
      exact (emplaceFree_uniform _ _ _).bind fun _ => drops _
    · refine (searchPosition_uniform _ _).bind fun position => ?_
      refine (repairSlot_uniform _ _).bind fun _ => ?_
      exact (emplaceFree_uniform _ _ _).bind fun _ => drops _
    · refine (searchPosition_uniform _ _).bind fun position => ?_
      refine (repairSlot_uniform _ _).bind fun _ => ?_
      exact (emplaceFree_uniform _ _ _).bind fun _ => drops _
  · exact drops _

end Allocation

/-! Collections and the refresh. -/

section Collection

variable {cfg : Config} {env : Environment}

theorem selectVictimBlock_uniform :
    Uniform (Alike cfg) (selectVictimBlock cfg env) := by
  refine uniform_get ?_
  intro state stat twin same alike
  have apart : victimsOf cfg env { state with stat := stat } =
      victimsOf cfg env state := rfl
  rw [apart]
  cases victimsOf cfg env state with
  | error raised => exact ⟨rfl, alike⟩
  | ok victims =>
      subst same
      exact ⟨rfl, alike.update rfl rfl⟩

theorem selectHotVictimBlock_uniform :
    Uniform (Alike cfg) (selectHotVictimBlock cfg env) := by
  refine uniform_get ?_
  intro state stat twin same alike
  have apart : blocksToReclaim cfg env .hot { state with stat := stat } =
      blocksToReclaim cfg env .hot state := rfl
  rw [apart]
  cases blocksToReclaim cfg env .hot state with
  | error raised => exact ⟨rfl, alike⟩
  | ok reclaim =>
      subst same
      exact ⟨rfl, alike.update rfl rfl⟩

theorem selectColdVictimBlock_uniform :
    Uniform (Alike cfg) (selectColdVictimBlock cfg env) := by
  refine uniform_get ?_
  intro state stat twin same alike
  have apart : coldVictimsOf cfg env { state with stat := stat } =
      coldVictimsOf cfg env state := rfl
  rw [apart]
  cases coldVictimsOf cfg env state with
  | error raised => exact ⟨rfl, alike⟩
  | ok victims =>
      subst same
      exact ⟨rfl, alike.update rfl rfl⟩

theorem noteRefreshed_uniform (refreshes : Bool) (source : Nat) :
    Uniform (Alike cfg) (noteRefreshed refreshes source) := by
  unfold noteRefreshed
  split
  · refine (updateBlock_uniform _ _).bind fun _ => ?_
    exact uniform_modify (fun _ _ => rfl) (fun _ => rfl) (fun _ => rfl)
  · exact Uniform.pure _

theorem copyUnit_uniform (missing : Panic) (refreshes : Bool)
    (source pageIndex target lpn idx : Nat) :
    Uniform (Alike cfg)
      (copyUnit cfg env missing refreshes source pageIndex target lpn idx) := by
  refine (invalidateUnit_uniform _ _ _).bind fun _ => ?_
  refine (noteRefreshed_uniform _ _).bind fun _ => ?_
  refine (blockAt_uniform _).bind fun block => ?_
  refine (remapUnit_uniform _ _ _ _).bind fun _ => ?_
  refine (writeUnit_uniform _ _ _ _).bind fun _ => ?_
  exact setRefreshPeriod_uniform _ _ _

structure CopyPlan.Aside (plan : CopyPlan) : Prop where
  unit : ∀ stat, (plan.unitStat stat).refreshCallCount = stat.refreshCallCount
  page : ∀ stat, (plan.pageStat stat).refreshCallCount = stat.refreshCallCount

theorem gcPlan_aside (isRefresh : Bool) : (gcPlan isRefresh).Aside :=
  ⟨fun _ => rfl, fun _ => rfl⟩

theorem sepGCPlan_aside (isRefresh : Bool) (gcType : BlockPoolType) :
    (sepGCPlan isRefresh gcType).Aside := by
  refine ⟨?_, ?_⟩
  · intro stat
    dsimp only [sepGCPlan]
    split <;> rfl
  · intro stat
    dsimp only [sepGCPlan]
    split <;> rfl

theorem refreshPlan_aside (blockType : BlockPoolType) :
    (refreshPlan cfg blockType).Aside :=
  ⟨fun _ => rfl, fun _ => rfl⟩

theorem copyPage_uniform {plan : CopyPlan} (aside : plan.Aside)
    (source pageIndex : Nat) :
    Uniform (Alike cfg) (copyPage cfg env plan source pageIndex) := by
  refine (blockAt_uniform _).bind fun block => ?_
  dsimp only
  split
  · refine (getLastBlock_uniform _ _).bind fun target => ?_
    refine Uniform.bind (Uniform.forM fun idx => ?_) fun _ =>
      count_uniform aside.page
    split
    · exact (copyUnit_uniform _ _ _ _ _ _ _).bind fun _ =>
        count_uniform aside.unit
    · exact Uniform.pure _
  · exact Uniform.pure _

theorem copyVictims_uniform {plan : CopyPlan} (aside : plan.Aside)
    (invalid : Panic) (victims : List Nat) :
    Uniform (Alike cfg) (copyVictims cfg env plan invalid victims) :=
  Uniform.forM fun _ => (findBlock_uniform _ _).bind fun _ =>
    Uniform.forM fun _ => copyPage_uniform aside _ _

theorem doGarbageCollection_uniform (isRefresh : Bool) (victims : List Nat) :
    Uniform (Alike cfg) (doGarbageCollection cfg env isRefresh victims) :=
  (copyVictims_uniform (gcPlan_aside isRefresh) _ _).bind fun _ =>
    Uniform.forM eraseInternal_uniform

theorem sepDoGarbageCollection_uniform (isRefresh : Bool)
    (gcType : BlockPoolType) (victims : List Nat) :
    Uniform (Alike cfg)
      (sepDoGarbageCollection cfg env isRefresh gcType victims) :=
  (copyVictims_uniform (sepGCPlan_aside isRefresh gcType) _ _).bind fun _ =>
    Uniform.forM sepEraseInternal_uniform

theorem plainGC_uniform (isRefresh : Bool) :
    Uniform (Alike cfg) (plainGC cfg env isRefresh) :=
  selectVictimBlock_uniform.bind fun _ =>
    (doGarbageCollection_uniform _ _).bind fun _ =>
      count_uniform fun _ => rfl

theorem coldGC_uniform (isRefresh : Bool) :
    Uniform (Alike cfg) (coldGC cfg env isRefresh) :=
  selectColdVictimBlock_uniform.bind fun _ =>
    (sepDoGarbageCollection_uniform _ _ _).bind fun _ =>
      count_uniform fun _ => rfl

theorem hotGC_uniform : Uniform (Alike cfg) (hotGC cfg env) :=
  selectHotVictimBlock_uniform.bind fun _ =>
    (sepDoGarbageCollection_uniform _ _ _).bind fun _ =>
      count_uniform fun _ => rfl

theorem needsGC_uniform (pool : FreePool) :
    Uniform (Alike cfg) (needsGC env pool) :=
  uniform_get fun _ _ _ _ alike => ⟨rfl, alike⟩

theorem refreshGC_uniform : Uniform (Alike cfg) (refreshGC cfg env) := by
  unfold refreshGC
  split
  · refine (needsGC_uniform _).bind fun needed => ?_
    split
    · exact coldGC_uniform true
    · exact Uniform.pure _
  · refine (needsGC_uniform _).bind fun needed => ?_
    split
    · exact plainGC_uniform true
    · exact Uniform.pure _

theorem popFront_uniform (queueNum : Nat) :
    Uniform (Alike cfg) (modify fun state =>
      { state with refresh := state.refresh.popFront queueNum } :
        FTLM Unit) := by
  apply Uniform.modify
  intro first second alike
  obtain ⟨stat, rfl⟩ := alike.exists_stat
  refine alike.reschedule rfl ?_
  intro mode other
  obtain ⟨waiting, checked⟩ := alike.unqueued mode other
  refine ⟨waiting, ?_⟩
  dsimp only [RefreshQueue.popFront]
  by_cases same : other = queueNum
  · subst same
    rw [Function.update_self, checked]
    rfl
  · rw [Function.update_of_ne same]
    exact checked

theorem popLayer_uniform (queueNum layerID : Nat) :
    Uniform (Alike cfg) (popLayer queueNum layerID) := by
  refine (popFront_uniform queueNum).bind fun _ => ?_
  refine uniform_get ?_
  intro state stat twin same alike
  dsimp only
  split
  · exact ⟨rfl, alike⟩
  split
  · refine Lockstep.bind (count_uniform ?_ state twin alike) ?_
    · exact fun _ => rfl
    · intro _ reached reached' kept
      exact ⟨rfl, kept⟩
  split
  · subst same
    exact ⟨rfl, alike.reschedule rfl alike.unqueued⟩
  · exact ⟨rfl, alike⟩

theorem copyLayer_uniform (layerID : Nat) :
    Uniform (Alike cfg) (copyLayer cfg env layerID) := by
  refine uniform_get ?_
  intro state stat twin same alike
  dsimp only
  cases state.blocks.lookup (layerID / 64) with
  | none => exact ⟨rfl, alike⟩
  | some block =>
      exact Uniform.forM (fun _ => copyPage_uniform (refreshPlan_aside _) _ _)
        state twin alike

theorem refreshLayers_uniform (queueNum remaining : Nat) :
    Uniform (Alike cfg) (refreshLayers cfg env queueNum remaining) := by
  induction remaining with
  | zero => exact Uniform.pure _
  | succ remaining induction =>
      refine uniform_get ?_
      intro state stat twin same alike
      dsimp only
      cases state.refresh.checkedQueues queueNum with
      | nil => exact ⟨rfl, alike⟩
      | cons layerID rest =>
          refine (popLayer_uniform queueNum layerID state twin alike).bind ?_
          intro copies reached reached' kept
          split
          · exact (copyLayer_uniform layerID reached reached' kept).bind
              fun _ => induction
          · exact induction reached reached' kept

theorem refreshPage_uniform (queueNum : Nat) :
    Uniform (Alike cfg) (refreshPage cfg env queueNum) :=
  refreshGC_uniform.bind fun _ =>
    (refreshLayers_uniform _ _).bind fun _ => refreshGC_uniform

/-- Where nothing is queued all refreshes are the same. -/
theorem refreshPage_idle (mode : 4 ≤ cfg.refreshMode) {state twin : State}
    (alike : Alike cfg state twin) (queueNum queueNum' : Nat) :
    Lockstep (Alike cfg) (refreshPage cfg env queueNum)
      (refreshPage cfg env queueNum') state twin := by
  have idle : ∀ (reached : State) (queueNum remaining : Nat),
      reached.refresh.checkedQueues queueNum = [] →
        (refreshLayers cfg env queueNum remaining).run reached =
          .ok () reached := by
    intro reached queueNum remaining empty
    cases remaining with
    | zero => rfl
    | succ remaining =>
        unfold refreshLayers
        rw [EStateM.run_bind, EStateM.run_get]
        dsimp only
        rw [empty]
        rfl
  refine (refreshGC_uniform state twin alike).bind ?_
  intro _ reached reached' kept
  have empty := kept.unqueued mode
  refine Lockstep.bindOk (idle reached _ _ (empty queueNum).2)
    (idle reached' _ _ ?_) (refreshGC_uniform reached reached' kept)
  rw [kept.same]
  exact (empty queueNum').2

theorem Alike.swap {state : State} {stat : Stat}
    (alike : Alike cfg state { state with stat := stat }) (target : Nat) :
    Alike cfg { state with refresh := state.refresh.swap target }
      { state with refresh := state.refresh.swap target, stat := stat } := by
  refine alike.reschedule rfl ?_
  intro mode
  obtain ⟨waiting, checked⟩ := alike.unqueued mode target
  rw [RefreshQueue.swap_unqueued waiting checked]
  exact alike.unqueued mode

theorem refreshed_uniform :
    Uniform (Alike cfg) (count fun stat =>
      { stat with refreshCallCount := stat.refreshCallCount + 1 }) := by
  apply Uniform.modify
  intro first second alike
  refine ⟨?_, ?_, alike.unqueued⟩
  · rw [alike.same]
    rfl
  · intro mode
    obtain ⟨scheduled, refreshed⟩ := alike.clock mode
    exact ⟨scheduled.add_right 1, refreshed.add_right 1⟩

theorem refreshEvent_uniform : Uniform (Alike cfg) (refreshEvent cfg env) := by
  refine uniform_get ?_
  intro state stat twin same alike
  subst same
  dsimp only
  split
  · exact ⟨rfl, alike⟩
  rcases Nat.lt_or_ge cfg.refreshMode 4 with mode | mode
  · have target : (state.stat.refreshCallCount + 1) %
        state.refresh.queueCount =
          (stat.refreshCallCount + 1) % state.refresh.queueCount :=
      (alike.clock mode).2.add_right 1
    rw [target]
    refine Lockstep.bindOk rfl rfl ?_
    refine (refreshPage_uniform _ _ _ (alike.swap _)).bind ?_
    exact fun _ => refreshed_uniform
  · refine Lockstep.bindOk rfl rfl ?_
    have unqueued := alike.unqueued mode
    rw [RefreshQueue.swap_unqueued (unqueued _).1 (unqueued _).2,
      RefreshQueue.swap_unqueued (unqueued _).1 (unqueued _).2]
    refine (refreshPage_idle mode alike _ _).bind ?_
    exact fun _ => refreshed_uniform

end Collection

/-! Host requests and lives. -/

section Requests

variable {cfg : Config} {env : Environment}

theorem invalidateOld_uniform (mapping : Mapping) (flag : IOFlag) :
    Uniform (Alike cfg) (invalidateOld cfg mapping flag) := by
  refine Uniform.foldlM fun last idx => ?_
  dsimp only
  split
  · split
    · exact (invalidateUnit_uniform _ _ _).bind fun _ => Uniform.pure _
    · exact Uniform.pure _
  · exact Uniform.pure _

theorem openMapping_uniform (lpn : Nat) (flag : IOFlag) :
    Uniform (Alike cfg) (openMapping cfg lpn flag) := by
  refine uniform_get ?_
  intro state stat twin same alike
  dsimp only
  cases state.table.lookup lpn with
  | none =>
      subst same
      exact ⟨rfl, alike.update rfl rfl⟩
  | some mapping =>
      exact (invalidateOld_uniform mapping flag).map _ state twin alike

theorem programUnits_uniform (schedule : Bool) (target lpn : Nat)
    (flag : IOFlag) :
    Uniform (Alike cfg) (programUnits cfg env schedule target lpn flag) := by
  refine Uniform.forM fun idx => ?_
  split
  · refine (blockAt_uniform _).bind fun block => ?_
    refine (writeUnit_uniform _ _ _ _).bind fun _ => ?_
    refine (remapUnit_uniform _ _ _ _).bind fun _ => ?_
    split
    · exact setRefreshPeriod_uniform _ _ _
    · exact Uniform.pure _
  · exact Uniform.pure _

theorem writeInternal_uniform (lpn : Nat) (flag : IOFlag) (sendToPAL : Bool) :
    Uniform (Alike cfg) (writeInternal cfg env lpn flag sendToPAL) := by
  refine (openMapping_uniform _ _).bind fun _ => ?_
  refine (getLastBlock_uniform _ _).bind fun target => ?_
  refine (findBlock_uniform _ _).bind fun _ => ?_
  refine (programUnits_uniform _ _ _ _).bind fun _ => ?_
  refine (needsGC_uniform _).bind fun needed => ?_
  split
  · dsimp only
    split
    · exact Uniform.throwBind
    · exact plainGC_uniform _
  · exact Uniform.pure _

theorem poolTypeOf_uniform (fresh : BlockPoolType)
    (last : Option (Option Nat)) :
    Uniform (Alike cfg) (poolTypeOf fresh last) := by
  unfold poolTypeOf
  split
  · exact Uniform.pure _
  · exact Uniform.throw _
  · exact (blockAt_uniform _).bind fun _ => Uniform.pure _

theorem sepWriteInternal_uniform (lpn : Nat) (flag : IOFlag)
    (sendToPAL : Bool) :
    Uniform (Alike cfg) (sepWriteInternal cfg env lpn flag sendToPAL) := by
  have ends : Uniform (Alike cfg) (do
      if ← needsGC env .hot then
        if !sendToPAL then
          throw .gcInInitializationByHot
        hotGC cfg env) := by
    refine (needsGC_uniform _).bind fun needed => ?_
    split
    · dsimp only
      split
      · exact Uniform.throwBind
      · exact hotGC_uniform
    · exact Uniform.pure _
  refine (openMapping_uniform _ _).bind fun last => ?_
  refine (poolTypeOf_uniform _ _).bind fun curBlockType => ?_
  have rest : ∀ target, Uniform (Alike cfg) (do
      let _ ← findBlock target .noSuchBlock
      programUnits cfg env true target lpn flag
      if ← needsGC env .cold then
        if !sendToPAL then
          throw .gcInInitializationByCold
        coldGC cfg env false
      if ← needsGC env .hot then
        if !sendToPAL then
          throw .gcInInitializationByHot
        hotGC cfg env) := by
    intro target
    refine (findBlock_uniform _ _).bind fun _ => ?_
    refine (programUnits_uniform _ _ _ _).bind fun _ => ?_
    refine (needsGC_uniform _).bind fun needed => ?_
    dsimp only
    split
    · by_cases silent : (!sendToPAL) = true
      · rw [if_pos silent]
        exact Uniform.throwBind
      · rw [if_neg silent]
        exact (coldGC_uniform _).bind fun _ => ends
    · exact ends
  dsimp only
  split
  · exact (getLastBlock_uniform _ _).bind rest
  · exact (getLastBlock_uniform _ _).bind rest

theorem sepHotWriteInternal_uniform (lpn : Nat) (flag : IOFlag) :
    Uniform (Alike cfg) (sepHotWriteInternal cfg env lpn flag) := by
  refine (openMapping_uniform _ _).bind fun last => ?_
  refine (poolTypeOf_uniform _ _).bind fun curBlockType => ?_
  dsimp only
  split
  · exact Uniform.throwBind
  refine (getLastBlock_uniform _ _).bind fun target => ?_
  refine (findBlock_uniform _ _).bind fun _ => ?_
  refine (programUnits_uniform _ _ _ _).bind fun _ => ?_
  refine (needsGC_uniform _).bind fun needed => ?_
  split
  · exact Uniform.throwBind
  refine (needsGC_uniform _).bind fun needed => ?_
  split
  · exact Uniform.throw _
  · exact Uniform.pure _

theorem write_uniform (lpn : Nat) (flag : IOFlag) :
    Uniform (Alike cfg) (write cfg env lpn flag) := by
  unfold write
  split
  · split
    · exact sepWriteInternal_uniform _ _ _
    · exact writeInternal_uniform _ _ _
  · exact Uniform.pure _

theorem read_uniform (lpn : Nat) (flag : IOFlag) :
    Uniform (Alike cfg) (read cfg lpn flag) := by
  unfold read
  split
  · refine uniform_get ?_
    intro state stat twin same alike
    dsimp only
    cases state.table.lookup lpn with
    | none => exact ⟨rfl, alike⟩
    | some mapping =>
        refine Uniform.forM (fun idx => ?_) state twin alike
        split
        · split
          · exact (findBlock_uniform _ _).bind fun _ => Uniform.pure _
          · exact Uniform.pure _
        · exact Uniform.pure _
  · exact Uniform.pure _

theorem unmap_uniform (missing : Panic) (lpn : Nat) :
    Uniform (Alike cfg) (unmap cfg missing lpn) := by
  refine uniform_get ?_
  intro state stat twin same alike
  dsimp only
  cases state.table.lookup lpn with
  | none => exact ⟨rfl, alike⟩
  | some mapping =>
      refine Lockstep.bind (Uniform.forM (fun idx => ?_) state twin alike) ?_
      · exact (findBlock_uniform _ _).bind fun _ => invalidateUnit_uniform _ _ _
      · exact fun _ => uniform_modify (fun _ _ => rfl) (fun _ => rfl)
          fun _ => rfl

theorem format_uniform (slpn nlp : Nat) :
    Uniform (Alike cfg) (format cfg env slpn nlp) := by
  refine uniform_get ?_
  intro state stat twin same alike
  dsimp only
  refine Lockstep.bind
    (Uniform.forM (fun lpn => unmap_uniform _ lpn) state twin alike) ?_
  intro _ reached reached' kept
  have victims : formattedBlocks cfg { state with stat := stat } =
      formattedBlocks cfg state := rfl
  rw [victims]
  split
  · exact sepDoGarbageCollection_uniform _ _ _ reached reached' kept
  · exact doGarbageCollection_uniform _ _ reached reached' kept

theorem setupRefresh_uniform :
    Uniform (Alike cfg) (setupRefresh cfg) := by
  apply Uniform.modify
  intro first second alike
  obtain ⟨stat, rfl⟩ := alike.exists_stat
  exact ⟨rfl, fun _ => ⟨rfl, rfl⟩, alike.unqueued⟩

theorem fill_uniform (filling : FillWrite) :
    Uniform (Alike cfg) (fill cfg env filling) := by
  cases filling with
  | plain lpn => exact writeInternal_uniform lpn _ false
  | cool lpn => exact sepWriteInternal_uniform lpn _ false
  | hot lpn => exact sepHotWriteInternal_uniform lpn _

theorem perform_uniform (op : Op) :
    Uniform (Alike cfg) (perform cfg env op) := by
  cases op with
  | initializeFTL =>
      exact setupRefresh_uniform.bind fun _ => Uniform.forM fill_uniform
  | read lpn flag => exact read_uniform lpn flag
  | write lpn flag => exact write_uniform lpn flag
  | trim lpn => exact unmap_uniform .trimBlockNotInUse lpn
  | gc victims =>
      unfold perform
      dsimp only
      split
      · exact sepDoGarbageCollection_uniform _ _ _
      · exact doGarbageCollection_uniform _ _
  | refresh => exact refreshEvent_uniform
  | format slpn nlp => exact format_uniform slpn nlp

theorem life_uniform (ops : List Op) :
    Uniform (Alike cfg) (life cfg env ops) := by
  refine Uniform.bind (Uniform.forM fun idx => ?_) fun _ => ?_
  · exact Uniform.forM fun pool => seatSlot_uniform pool idx
  · exact Uniform.forM perform_uniform

theorem outcome_alike {ops : List Op} {state : State}
    (result : outcome cfg env ops = .ok () state) : Alike cfg state state := by
  have blank : Alike cfg (blankState cfg) (blankState cfg) :=
    ⟨rfl, fun _ => ⟨rfl, rfl⟩, fun _ _ => ⟨rfl, rfl⟩⟩
  have lockstep : Lockstep (Alike cfg) (life cfg env ops) (life cfg env ops)
      (blankState cfg) (blankState cfg) := life_uniform ops _ _ blank
  obtain ⟨reached, same, alike⟩ := lockstep.of_ok result
  unfold outcome at result
  rw [result] at same
  cases same
  exact alike

end Requests

def State.SameApartFromStat (first second : State) : Prop :=
  second = { first with stat := second.stat }

/-- Nothing is scheduled, or the refresh clock names the queues that it names
at its start. -/
def ClockAtStart (cfg : Config) (state : State) : Prop :=
  4 ≤ cfg.refreshMode ∨ (cfg.refreshFilterNum ∣ state.stat.refreshCallCount ∧
    state.refresh.queueCount ∣ state.stat.refreshCallCount)

theorem Alike.resetStatValues {cfg : Config} {state : State}
    (alike : Alike cfg state state) (start : ClockAtStart cfg state) :
    Alike cfg state state.resetStatValues := by
  refine ⟨rfl, ?_, alike.unqueued⟩
  intro mode
  rcases start with idle | ⟨scheduled, refreshed⟩
  · omega
  · exact ⟨Nat.modEq_zero_iff_dvd.mpr scheduled,
      Nat.modEq_zero_iff_dvd.mpr refreshed⟩

/-- Later operations return, fail and change the members in the same way with
and without a reset of the statistics. -/
theorem statistics_reset (cfg : Config) (env : Environment) (ops : List Op)
    (state : State) (result : outcome cfg env ops = .ok () state)
    (start : ClockAtStart cfg state) (later : List Op) :
    Lockstep State.SameApartFromStat (later.forM (perform cfg env))
      (later.forM (perform cfg env)) state state.resetStatValues := by
  have alike := (outcome_alike result).resetStatValues start
  have each : ∀ op, Uniform (Alike cfg) (perform cfg env op) := perform_uniform
  have lockstep : Lockstep (Alike cfg) (later.forM (perform cfg env))
      (later.forM (perform cfg env)) state state.resetStatValues :=
    Uniform.forM each _ _ alike
  exact lockstep.mono fun _ _ kept => kept.same

/-- Ten refreshes bring the clock back to its start. -/
theorem statistics_reset_full_turn :
    ∃ state, outcome sampleConfig sampleEnvironment (.initializeFTL ::
        .write 0 IOFlag.all :: List.replicate 10 .refresh) = .ok () state ∧
      Lockstep State.SameApartFromStat
        ([.write 1 IOFlag.all, .refresh].forM
          (perform sampleConfig sampleEnvironment))
        ([.write 1 IOFlag.all, .refresh].forM
          (perform sampleConfig sampleEnvironment))
        state state.resetStatValues := by
  have evaluated : returns (outcome sampleConfig sampleEnvironment
      (.initializeFTL :: .write 0 IOFlag.all :: List.replicate 10 .refresh))
      (fun state => decide (10 ∣ state.stat.refreshCallCount ∧
        state.refresh.queueCount ∣ state.stat.refreshCallCount)) = true := by
    decide +kernel
  obtain ⟨state, result, test⟩ := returns_iff.mp evaluated
  exact ⟨state, result, statistics_reset sampleConfig sampleEnvironment _ state
    result (.inr (of_decide_eq_true test)) _⟩

def laterWrite : FTLM Unit :=
  [Op.write 0 IOFlag.all].forM (perform sampleConfig sampleEnvironment)

/-- After one refresh the first layer is scheduled one queue too early. -/
theorem statistics_reset_moves_layer :
    ∃ state, outcome sampleConfig sampleEnvironment
        [.initializeFTL, .refresh] = .ok () state ∧
      ¬ Lockstep State.SameApartFromStat laterWrite laterWrite state
        state.resetStatValues := by
  have evaluated : returns (outcome sampleConfig sampleEnvironment
      [.initializeFTL, .refresh]) (fun state =>
        returns (laterWrite.run state)
            (fun final => final.refresh.layerQueueNum 0 == 1) &&
          returns (laterWrite.run state.resetStatValues)
            (fun final => final.refresh.layerQueueNum 0 == 0)) = true := by
    decide +kernel
  obtain ⟨state, result, tests⟩ := returns_iff.mp evaluated
  obtain ⟨kept, reset⟩ := (Bool.and_eq_true _ _).mp tests
  obtain ⟨final, ran, queue⟩ := returns_iff.mp kept
  obtain ⟨final', ran', queue'⟩ := returns_iff.mp reset
  refine ⟨state, result, ?_⟩
  intro lockstep
  obtain ⟨reached, same, apart⟩ := lockstep.of_ok ran
  rw [ran'] at same
  cases same
  unfold State.SameApartFromStat at apart
  rw [apart, beq_iff_eq] at queue'
  rw [beq_iff_eq] at queue
  dsimp only at queue'
  rw [queue] at queue'
  cases queue'

end SimpleSSD.FTL
