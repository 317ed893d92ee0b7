import SimpleSSD.FTL.Occasion
import Mathlib.Algebra.Order.BigOperators.Group.Finset

namespace SimpleSSD.FTL

open Program

/-! How many pages an array of active blocks can take before its free list runs
out.  Programming a page uses up one of them, and moving a block from the free
list into a slot none. -/

/-- Errors that have nothing to do with a shortage of free blocks. -/
def Panic.Unrelated (raised : Panic) : Prop :=
  raised ≠ .noFreeBlockLeft ∧ raised ≠ .noFreeColdBlockLeft ∧
    raised ≠ .emptyFreeList ∧ raised ≠ .danglingPosition

instance (raised : Panic) : Decidable raised.Unrelated :=
  inferInstanceAs (Decidable (_ ∧ _))

theorem Panic.Unrelated.of_refusal {raised : Panic}
    (member : raised ∈ refusals) : raised.Unrelated := by
  revert member
  cases raised <;> decide

theorem Panic.Unrelated.of_unschedulable {raised : Panic}
    (unschedulable : RefreshQueue.Unschedulable raised) :
    raised.Unrelated := by
  rcases unschedulable with same | same <;> subst same <;> decide

/-- A later version of a block: `written` counts the pages programmed at each
unit, and valid bits appear only with them. -/
structure Block.Grown (written : Nat → Nat) (block later : Block) : Prop where
  eraseCount_eq : later.eraseCount = block.eraseCount
  blockType_eq : later.blockType = block.blockType
  ioUnitInPage_eq : later.ioUnitInPage = block.ioUnitInPage
  next : ∀ unit,
    later.nextWritePage unit = block.nextWritePage unit + written unit
  inside : ∀ unit, written unit ≠ 0 → unit < block.ioUnitInPage
  valid : (∀ unit, written unit = 0) → ∀ page unit,
    later.validBits page unit = true → block.validBits page unit = true

theorem Block.Grown.refl (block : Block) : block.Grown (fun _ => 0) block :=
  ⟨rfl, rfl, rfl, fun _ => rfl, fun _ some => absurd rfl some,
    fun _ _ _ valid => valid⟩

theorem Block.Grown.trans {first second : Nat → Nat}
    {block middle later : Block} (grown : block.Grown first middle)
    (further : middle.Grown second later) :
    block.Grown (fun unit => first unit + second unit) later where
  eraseCount_eq := further.eraseCount_eq.trans grown.eraseCount_eq
  blockType_eq := further.blockType_eq.trans grown.blockType_eq
  ioUnitInPage_eq := further.ioUnitInPage_eq.trans grown.ioUnitInPage_eq
  next := by
    intro unit
    rw [further.next, grown.next]
    omega
  inside := by
    intro unit some
    by_cases first : first unit = 0
    · rw [← grown.ioUnitInPage_eq]
      apply further.inside unit
      omega
    · exact grown.inside unit first
  valid := by
    intro none page unit valid
    have unwritten : ∀ unit, first unit = 0 ∧ second unit = 0 := by
      intro unit
      have both := none unit
      omega
    exact grown.valid (fun unit => (unwritten unit).1) page unit
      (further.valid (fun unit => (unwritten unit).2) page unit valid)

/-- The largest write index grows by at most the pages programmed at a unit. -/
theorem Block.Grown.index {written : Nat → Nat} {block later : Block}
    (grown : block.Grown written later) (bound : Nat)
    (bounded : ∀ unit, written unit ≤ bound) :
    block.getNextWritePageIndex ≤ later.getNextWritePageIndex ∧
      later.getNextWritePageIndex ≤ block.getNextWritePageIndex + bound := by
  constructor
  · rcases block.getNextWritePageIndex_eq with zero | ⟨unit, inside, same⟩
    · omega
    · rw [same]
      have next := grown.next unit
      have below := later.nextWritePage_le_getNextWritePageIndex
        (grown.ioUnitInPage_eq ▸ inside)
      omega
  · rcases later.getNextWritePageIndex_eq with zero | ⟨unit, inside, same⟩
    · omega
    · rw [same, grown.next]
      have below := block.nextWritePage_le_getNextWritePageIndex
        (grown.ioUnitInPage_eq ▸ inside)
      have small := bounded unit
      omega

/-- Pages programmed at each unit of a block when `units` of `target` are. -/
def programmedAt (target : Nat) (units : List Nat) (blockIndex unit : Nat) :
    Nat :=
  if blockIndex = target then units.count unit else 0

@[simp] theorem programmedAt_nil (target blockIndex unit : Nat) :
    programmedAt target [] blockIndex unit = 0 := by
  simp [programmedAt]

theorem programmedAt_of_ne {target blockIndex : Nat}
    (different : blockIndex ≠ target) (units : List Nat) (unit : Nat) :
    programmedAt target units blockIndex unit = 0 :=
  if_neg different

theorem programmedAt_append (target : Nat) (first second : List Nat)
    (blockIndex unit : Nat) :
    programmedAt target (first ++ second) blockIndex unit =
      programmedAt target first blockIndex unit +
        programmedAt target second blockIndex unit := by
  unfold programmedAt
  split
  · exact List.count_append
  · rfl

/-- The free lists and the slots are as before, and so are the blocks in use up
to `units` programmed in `target`. -/
structure Filling (target : Nat) (units : List Nat) (before after : State) :
    Prop where
  free_eq : after.free = before.free
  slots_eq : ∀ pool,
    (after.active pool).blocks = (before.active pool).blocks
  absent : ∀ blockIndex, before.blocks.lookup blockIndex = none →
    after.blocks.lookup blockIndex = none
  version : ∀ blockIndex block,
    before.blocks.lookup blockIndex = some block →
      ∃ later, after.blocks.lookup blockIndex = some later ∧
        block.Grown (programmedAt target units blockIndex) later

def Steady (before after : State) : Prop :=
  ∀ target, Filling target [] before after

theorem Filling.trans {target : Nat} {first second : List Nat}
    {before middle after : State} (filling : Filling target first before middle)
    (further : Filling target second middle after) :
    Filling target (first ++ second) before after where
  free_eq := further.free_eq.trans filling.free_eq
  slots_eq := fun pool => (further.slots_eq pool).trans (filling.slots_eq pool)
  absent := fun blockIndex absent =>
    further.absent blockIndex (filling.absent blockIndex absent)
  version := by
    intro blockIndex block found
    obtain ⟨version, found', grown⟩ := filling.version blockIndex block found
    obtain ⟨later, found'', grown'⟩ :=
      further.version blockIndex version found'
    refine ⟨later, found'', ?_⟩
    have sum : programmedAt target (first ++ second) blockIndex = fun unit =>
        programmedAt target first blockIndex unit +
          programmedAt target second blockIndex unit :=
      funext fun unit => programmedAt_append target first second blockIndex unit
    rw [sum]
    exact grown.trans grown'

theorem Steady.of_blocks_eq {before after : State}
    (blocks_eq : after.blocks = before.blocks)
    (free_eq : after.free = before.free)
    (slots_eq : ∀ pool,
      (after.active pool).blocks = (before.active pool).blocks) :
    Steady before after := by
  intro target
  refine ⟨free_eq, slots_eq, by simp [blocks_eq], ?_⟩
  intro blockIndex block found
  refine ⟨block, blocks_eq ▸ found, ?_⟩
  have none : programmedAt target [] blockIndex = fun _ => 0 :=
    funext (programmedAt_nil target blockIndex)
  rw [none]
  exact .refl block

theorem Steady.refl (state : State) : Steady state state :=
  .of_blocks_eq rfl rfl fun _ => rfl

theorem Steady.trans {before middle after : State}
    (steady : Steady before middle) (further : Steady middle after) :
    Steady before after :=
  fun target => (steady target).trans (further target)

theorem Filling.insert {target blockIndex : Nat} {units : List Nat}
    {before after : State} {block version : Block}
    (found : before.blocks.lookup blockIndex = some block)
    (free_eq : after.free = before.free)
    (slots_eq : ∀ pool,
      (after.active pool).blocks = (before.active pool).blocks)
    (replaced : after.blocks = before.blocks.insert blockIndex version)
    (grown : block.Grown (programmedAt target units blockIndex) version)
    (elsewhere : units = [] ∨ blockIndex = target) :
    Filling target units before after := by
  refine ⟨free_eq, slots_eq, ?_, ?_⟩
  · intro other absent
    have different : other ≠ blockIndex := by
      intro same
      rw [same, found] at absent
      cases absent
    rw [replaced, AList.lookup_insert_ne different]
    exact absent
  · intro other current lookup
    by_cases same : other = blockIndex
    · subst same
      rw [found] at lookup
      cases lookup
      exact ⟨version, by rw [replaced, AList.lookup_insert], grown⟩
    · refine ⟨current, by rw [replaced, AList.lookup_insert_ne same]; exact lookup,
        ?_⟩
      have none : programmedAt target units other = fun _ => 0 := by
        funext unit
        rcases elsewhere with none | here
        · rw [none]
          exact programmedAt_nil target other unit
        · exact programmedAt_of_ne (here ▸ same) units unit
      rw [none]
      exact .refl current

theorem Steady.insert {blockIndex : Nat} {before after : State}
    {block version : Block}
    (found : before.blocks.lookup blockIndex = some block)
    (free_eq : after.free = before.free)
    (slots_eq : ∀ pool,
      (after.active pool).blocks = (before.active pool).blocks)
    (replaced : after.blocks = before.blocks.insert blockIndex version)
    (grown : block.Grown (fun _ => 0) version) : Steady before after := by
  intro target
  refine .insert found free_eq slots_eq replaced ?_ (.inl rfl)
  have none : programmedAt target [] blockIndex = fun _ => 0 :=
    funext (programmedAt_nil target blockIndex)
  rw [none]
  exact grown

/-! Programs that program nothing. -/

def Stays (program : FTLM α) (state : State) : Prop :=
  Meets program state (fun _ final => Steady state final)
    fun raised _ => raised.Unrelated

section Stays

variable {cfg : Config} {env : Environment} {state : State}

theorem Stays.pure (value : α) : Stays (pure value) state :=
  Steady.refl state

theorem Stays.throw {raised : Panic} (unrelated : raised.Unrelated) :
    Stays (α := α) (throw raised) state :=
  unrelated

theorem Stays.throwBind {raised : Panic} {next : α → FTLM β}
    (unrelated : raised.Unrelated) :
    Stays (MonadExcept.throw raised >>= next) state :=
  unrelated

theorem Stays.bind {program : FTLM α} {next : α → FTLM β}
    (first : Stays program state)
    (rest : ∀ value reached, Steady state reached →
      Stays (next value) reached) : Stays (program >>= next) state := by
  refine Meets.bind first ?_
  intro value reached steady
  exact (rest value reached steady).mono
    (fun _ _ further => steady.trans further) fun _ _ unrelated => unrelated

theorem Stays.forM {items : List α} {body : α → FTLM PUnit}
    (each : ∀ item ∈ items, ∀ reached, Stays (body item) reached) :
    Stays (items.forM body) state := by
  induction items generalizing state with
  | nil => exact Stays.pure _
  | cons item rest induction =>
      refine Stays.bind (each item (.head _) state) ?_
      intro _ reached _
      exact induction fun other member => each other (.tail _ member)

theorem Stays.foldlM {items : List α} {body : β → α → FTLM β}
    {accumulator : β}
    (each : ∀ accumulator item reached, Stays (body accumulator item) reached) :
    Stays (items.foldlM body accumulator) state := by
  induction items generalizing accumulator state with
  | nil => exact Stays.pure _
  | cons item rest induction =>
      exact (each accumulator item state).bind fun _ _ _ => induction

theorem findBlock_stays (blockIndex : Nat) {missing : Panic}
    (unrelated : missing.Unrelated) :
    Stays (findBlock blockIndex missing) state := by
  unfold Stays Meets
  cases found : state.blocks.lookup blockIndex with
  | none =>
      rw [run_findBlock_none found]
      exact unrelated
  | some block =>
      rw [run_findBlock found]
      exact Steady.refl state

theorem updateBlock_stays (blockIndex : Nat) {update : Block → Block}
    (grown : ∀ block : Block, block.Grown (fun _ => 0) (update block)) :
    Stays (updateBlock blockIndex update) state := by
  unfold updateBlock
  cases found : state.blocks.lookup blockIndex with
  | none =>
      exact Meets.bindError (run_findBlock_none found)
        (show Panic.Unrelated _ by decide)
  | some block =>
      exact Meets.bindOk (run_blockAt found)
        (Steady.insert found rfl (fun _ => rfl) rfl (grown block))

theorem invalidateUnit_stays (blockIndex pageIndex idx : Nat) :
    Stays (invalidateUnit blockIndex pageIndex idx) state := by
  unfold invalidateUnit
  cases found : state.blocks.lookup blockIndex with
  | none =>
      exact Meets.bindError (run_findBlock_none found)
        (show Panic.Unrelated _ by decide)
  | some block =>
      refine Meets.bindOk (run_blockAt found) ?_
      dsimp only [Block.invalidate]
      split
      · exact Stays.throwBind (by decide)
      · refine Steady.insert found rfl (fun _ => rfl) rfl
          ⟨rfl, rfl, rfl, fun _ => rfl, fun _ some => absurd rfl some, ?_⟩
        intro _ page unit valid
        exact (Block.setBit_false_eq_true.mp valid).2

theorem noteRefreshed_stays (refreshes : Bool) (source : Nat) :
    Stays (noteRefreshed refreshes source) state := by
  unfold noteRefreshed
  split
  · refine Stays.bind ?_ fun _ _ _ => Steady.of_blocks_eq rfl rfl fun _ => rfl
    exact updateBlock_stays source fun block =>
      ⟨rfl, rfl, rfl, fun _ => rfl, fun _ some => absurd rfl some,
        fun _ _ _ valid => valid⟩
  · exact Stays.pure _

theorem remapUnit_stays (lpn idx : Nat) (location : Nat × Nat)
    {missing : Panic} (unrelated : missing.Unrelated) :
    Stays (remapUnit lpn idx location missing) state := by
  unfold remapUnit
  apply meets_bind.mpr
  apply meets_get.mpr
  split
  · exact Steady.of_blocks_eq rfl rfl fun _ => rfl
  · exact unrelated

theorem setRefreshPeriod_stays (eraseCount blockNum layerNum : Nat) :
    Stays (setRefreshPeriod cfg env eraseCount blockNum layerNum) state := by
  unfold Stays Meets
  cases scheduled : state.refresh.setRefreshPeriod cfg env
      state.stat.refreshCallCount eraseCount blockNum layerNum with
  | error raised =>
      rw [run_setRefreshPeriod_error scheduled]
      exact .of_unschedulable (RefreshQueue.setRefreshPeriod_error scheduled)
  | ok refresh =>
      rw [run_setRefreshPeriod scheduled]
      exact Steady.of_blocks_eq rfl rfl fun _ => rfl

theorem count_stays (update : Stat → Stat) : Stays (count update) state :=
  Steady.of_blocks_eq rfl rfl fun _ => rfl

theorem openMapping_stays (lpn : Nat) (flag : IOFlag) :
    Stays (openMapping cfg lpn flag) state := by
  unfold openMapping
  apply meets_bind.mpr
  apply meets_get.mpr
  split
  · next mapping _ =>
      have invalidating : Stays (invalidateOld cfg mapping flag) state := by
        refine Stays.foldlM ?_
        intro last idx reached
        split
        · split
          · exact (invalidateUnit_stays _ _ _).bind fun _ _ _ => Stays.pure _
          · exact Stays.pure _
        · exact Stays.pure _
      rw [map_eq_pure_bind]
      exact invalidating.bind fun _ _ _ => Stays.pure _
  · exact Steady.of_blocks_eq rfl rfl fun _ => rfl

theorem poolTypeOf_stays (fresh : BlockPoolType)
    (last : Option (Option Nat)) : Stays (poolTypeOf fresh last) state := by
  unfold poolTypeOf
  split
  · exact Stays.pure _
  · exact Stays.throw (by decide)
  · exact (findBlock_stays _ (by decide)).bind fun _ _ _ => Stays.pure _

theorem read_stays (lpn : Nat) (flag : IOFlag) :
    Stays (read cfg lpn flag) state := by
  unfold read
  split
  · unfold readInternal
    apply meets_bind.mpr
    apply meets_get.mpr
    split
    · exact Stays.pure _
    · refine Stays.forM fun idx _ reached => ?_
      split
      · split
        · exact (findBlock_stays _ (by decide)).bind fun _ _ _ => Stays.pure _
        · exact Stays.pure _
      · exact Stays.pure _
  · exact Stays.pure _

theorem unmap_stays {missing : Panic} (unrelated : missing.Unrelated)
    (lpn : Nat) : Stays (unmap cfg missing lpn) state := by
  unfold unmap
  apply meets_bind.mpr
  apply meets_get.mpr
  split
  · exact Stays.pure _
  · refine Stays.bind (Stays.forM fun idx _ reached => ?_)
      fun _ _ _ => Steady.of_blocks_eq rfl rfl fun _ => rfl
    exact (findBlock_stays _ unrelated).bind
      fun _ _ _ => invalidateUnit_stays _ _ _

theorem selectVictimBlock_stays :
    Stays (selectVictimBlock cfg env) state := by
  have spec := victimsOf_spec cfg env state
  unfold selectVictimBlock
  apply meets_bind.mpr
  apply meets_get.mpr
  cases selected : victimsOf cfg env state with
  | error raised =>
      rw [selected] at spec
      exact Panic.Unrelated.of_refusal spec
  | ok victims => exact Steady.of_blocks_eq rfl rfl fun _ => rfl

theorem selectColdVictimBlock_stays :
    Stays (selectColdVictimBlock cfg env) state := by
  have spec := coldVictimsOf_spec cfg env state
  unfold selectColdVictimBlock
  apply meets_bind.mpr
  apply meets_get.mpr
  cases selected : coldVictimsOf cfg env state with
  | error raised =>
      rw [selected] at spec
      exact Panic.Unrelated.of_refusal spec
  | ok victims => exact Steady.of_blocks_eq rfl rfl fun _ => rfl

theorem selectHotVictimBlock_stays :
    Stays (selectHotVictimBlock cfg env) state := by
  unfold selectHotVictimBlock
  apply meets_bind.mpr
  apply meets_get.mpr
  cases reclaim : blocksToReclaim cfg env .hot state with
  | error raised =>
      exact Panic.Unrelated.of_refusal (blocksToReclaim_error reclaim)
  | ok amount => exact Steady.of_blocks_eq rfl rfl fun _ => rfl

theorem openQueue_stays : Stays openQueue state := by
  unfold openQueue
  apply meets_bind.mpr
  apply meets_get.mpr
  split
  · exact Stays.throwBind (by decide)
  · exact Steady.of_blocks_eq rfl rfl fun _ => rfl

theorem popLayer_stays (queueNum layerID : Nat) :
    Stays (popLayer queueNum layerID) state := by
  unfold popLayer
  apply meets_bind.mpr
  apply meets_modify.mpr
  apply meets_bind.mpr
  apply meets_get.mpr
  dsimp only
  split
  · exact show Panic.Unrelated _ by decide
  split
  · exact Steady.of_blocks_eq rfl rfl fun _ => rfl
  split
  · exact Steady.of_blocks_eq rfl rfl fun _ => rfl
  · exact show Panic.Unrelated _ by decide

end Stays

/-! Programs that program units of one block. -/

def Fills (target : Nat) (units : List Nat) (program : FTLM α)
    (state : State) : Prop :=
  Meets program state (fun _ final => Filling target units state final)
    fun raised _ => raised.Unrelated

section Fills

variable {cfg : Config} {env : Environment} {state : State} {target : Nat}

theorem Fills.bind {first second : List Nat} {program : FTLM α}
    {next : α → FTLM β} (begins : Fills target first program state)
    (rest : ∀ value reached, Filling target first state reached →
      Fills target second (next value) reached) :
    Fills target (first ++ second) (program >>= next) state := by
  refine Meets.bind begins ?_
  intro value reached filling
  exact (rest value reached filling).mono
    (fun _ _ further => filling.trans further) fun _ _ unrelated => unrelated

theorem Stays.fills {program : FTLM α} (stays : Stays program state) :
    Fills target [] program state :=
  stays.mono (fun _ _ steady => steady target) fun _ _ unrelated => unrelated

theorem Stays.bindFills {units : List Nat} {program : FTLM α}
    {next : α → FTLM β} (begins : Stays program state)
    (rest : ∀ value reached, Steady state reached →
      Fills target units (next value) reached) :
    Fills target units (program >>= next) state := by
  refine Meets.bind begins ?_
  intro value reached steady
  exact (rest value reached steady).mono
    (fun _ _ further => (steady target).trans further)
    fun _ _ unrelated => unrelated

theorem Fills.bindStays {units : List Nat} {program : FTLM α}
    {next : α → FTLM β} (begins : Fills target units program state)
    (rest : ∀ value reached, Filling target units state reached →
      Stays (next value) reached) :
    Fills target units (program >>= next) state := by
  have whole := begins.bind fun value reached filling =>
    (rest value reached filling).fills
  rwa [List.append_nil] at whole

theorem Fills.forM {items : List Nat} {chosen : Nat → Bool}
    {body : Nat → FTLM PUnit}
    (each : ∀ idx reached, Fills target (if chosen idx then [idx] else [])
      (body idx) reached) :
    Fills target (items.filter chosen) (items.forM body) state := by
  induction items generalizing state with
  | nil => exact (Stays.pure _).fills
  | cons idx rest induction =>
      have whole := (each idx state).bind fun _ _ _ => induction
      have listed : (idx :: rest).filter chosen =
          (if chosen idx then [idx] else []) ++ rest.filter chosen := by
        rw [List.filter_cons]
        split <;> rfl
      rw [listed]
      exact whole

theorem writeUnit_fills {page lpn idx : Nat}
    (next : ∀ block, state.blocks.lookup target = some block →
      page = block.nextWritePage idx) :
    Fills target [idx] (writeUnit target page lpn idx) state := by
  unfold Fills Meets
  cases found : state.blocks.lookup target with
  | none =>
      have failed : (writeUnit target page lpn idx).run state =
          .error .invalidIterator state := by
        simp only [writeUnit, blockAt, EStateM.run_bind,
          run_findBlock_none found]
      rw [failed]
      exact show Panic.Unrelated _ by decide
  | some block =>
      cases written : block.write page lpn idx with
      | error raised =>
          rw [run_writeUnit_error found written]
          unfold Block.write at written
          repeat' split at written
          all_goals cases written
          all_goals exact show Panic.Unrelated _ by decide
      | ok updated =>
          rw [run_writeUnit found written]
          obtain ⟨bound, _, _, _, same⟩ := Block.write_ok written
          subst same
          refine Filling.insert found rfl (fun _ => rfl) rfl ?_ (.inr rfl)
          refine ⟨rfl, rfl, rfl, ?_, ?_, ?_⟩
          · intro unit
            rw [next block found]
            by_cases same : unit = idx
            · subst same
              simp [programmedAt]
            · simp [programmedAt, same, Ne.symm same]
          · intro unit some
            have here : unit = idx := by
              by_contra different
              simp [programmedAt, Ne.symm different] at some
            exact here ▸ bound
          · intro none
            have one := none idx
            simp [programmedAt] at one

theorem copyUnit_fills {missing : Panic} (unrelated : missing.Unrelated)
    (refreshes : Bool) (source pageIndex lpn idx : Nat) :
    Fills target [idx] (copyUnit cfg env missing refreshes source pageIndex
      target lpn idx) state := by
  unfold copyUnit
  refine (invalidateUnit_stays source pageIndex idx).bindFills ?_
  intro _ invalidated _
  refine (noteRefreshed_stays refreshes source).bindFills ?_
  intro _ noted _
  cases found : noted.blocks.lookup target with
  | none =>
      exact Meets.bindError (run_findBlock_none found)
        (show Panic.Unrelated _ by decide)
  | some block =>
      refine Meets.bindOk (run_blockAt found) ?_
      refine (remapUnit_stays lpn idx _ unrelated).bindFills ?_
      intro _ remapped steady
      refine (writeUnit_fills ?_).bindStays
        fun _ _ _ => setRefreshPeriod_stays _ _ _
      intro current lookup
      obtain ⟨later, lookup', grown⟩ := (steady target).version target block found
      rw [lookup] at lookup'
      cases lookup'
      rw [grown.next]
      simp

theorem programUnit_fills (schedule : Bool) (lpn idx : Nat) :
    Fills target [idx] (programUnit cfg env schedule target lpn idx)
      state := by
  unfold programUnit
  cases found : state.blocks.lookup target with
  | none =>
      exact Meets.bindError (run_findBlock_none found)
        (show Panic.Unrelated _ by decide)
  | some block =>
      refine Meets.bindOk (run_blockAt found) ?_
      refine (writeUnit_fills ?_).bindStays ?_
      · intro current lookup
        rw [found] at lookup
        cases lookup
        rfl
      intro _ written _
      refine (remapUnit_stays lpn idx _ (by decide)).bind ?_
      intro _ remapped _
      split
      · exact setRefreshPeriod_stays _ _ _
      · exact Stays.pure _

theorem programUnits_fills (schedule : Bool) (lpn : Nat) (flag : IOFlag) :
    Fills target ((List.range cfg.bitsetSize).filter (touches cfg flag))
      (programUnits cfg env schedule target lpn flag) state := by
  refine Fills.forM ?_
  intro idx reached
  split
  · exact programUnit_fills schedule lpn idx
  · exact (Stays.pure _).fills

end Fills

/-! Allocation. -/

def ActivePool.source : ActivePool → FreePool
  | .plain => .plain
  | .hot => .hot
  | .cool | .cold => .cold

/-- A version of a block that differs in its type and its refresh counter: a
type other than COLD was there before. -/
structure Block.Retyped (block later : Block) : Prop where
  nextWritePage_eq : later.nextWritePage = block.nextWritePage
  validBits_eq : later.validBits = block.validBits
  ioUnitInPage_eq : later.ioUnitInPage = block.ioUnitInPage
  eraseCount_eq : later.eraseCount = block.eraseCount
  kept : later.blockType ≠ .cold → later.blockType = block.blockType

theorem Block.Retyped.refl (block : Block) : block.Retyped block :=
  ⟨rfl, rfl, rfl, rfl, fun _ => rfl⟩

theorem Block.Retyped.trans {block middle later : Block}
    (retyped : block.Retyped middle) (further : middle.Retyped later) :
    block.Retyped later where
  nextWritePage_eq := further.nextWritePage_eq.trans retyped.nextWritePage_eq
  validBits_eq := further.validBits_eq.trans retyped.validBits_eq
  ioUnitInPage_eq := further.ioUnitInPage_eq.trans retyped.ioUnitInPage_eq
  eraseCount_eq := further.eraseCount_eq.trans retyped.eraseCount_eq
  kept := by
    intro typed
    have same := further.kept typed
    rw [same] at typed ⊢
    exact retyped.kept typed

structure Supplied (pool : FreePool) (before after : State)
    (blockIndex : Nat) : Prop where
  active_eq : after.active = before.active
  free_eq : ∀ other, other ≠ pool → after.free other = before.free other
  taken : ∃ block ∈ (before.free pool).blocks,
    block.idx = blockIndex ∧
    (after.free pool).blocks =
      (before.free pool).blocks.eraseP (·.idx = blockIndex) ∧
    (after.free pool).count + 1 = (before.free pool).count ∧
    ∃ later, after.blocks.lookup blockIndex = some later ∧
      later.nextWritePage = block.nextWritePage
  absent : before.blocks.lookup blockIndex = none
  version : ∀ other block, before.blocks.lookup other = some block →
    ∃ later, after.blocks.lookup other = some later ∧ block.Retyped later

section Allocation

variable {cfg : Config} {env : Environment} {state : State}

theorem Supplied.sublist {pool : FreePool} {after : State} {blockIndex : Nat}
    (supplied : Supplied pool state after blockIndex) (other : FreePool) :
    (after.free other).blocks.Sublist (state.free other).blocks := by
  by_cases same : other = pool
  · subst same
    obtain ⟨_, _, _, erased, _⟩ := supplied.taken
    rw [erased]
    exact List.eraseP_sublist
  · rw [supplied.free_eq other same]

theorem Supplied.length {pool : FreePool} {after : State} {blockIndex : Nat}
    (supplied : Supplied pool state after blockIndex) :
    (after.free pool).blocks.length + 1 = (state.free pool).blocks.length := by
  obtain ⟨block, member, here, erased, _⟩ := supplied.taken
  have positive := List.length_pos_of_mem member
  rw [erased, List.length_eraseP_of_mem member (by simpa using here)]
  omega

theorem Supplied.retype {pool : FreePool} {middle after : State}
    {blockIndex other : Nat} {block version : Block}
    (supplied : Supplied pool state middle blockIndex)
    (found : middle.blocks.lookup other = some block)
    (active_eq : after.active = middle.active)
    (free_eq : after.free = middle.free)
    (replaced : after.blocks = middle.blocks.insert other version)
    (next : version.nextWritePage = block.nextWritePage)
    (retyped : other = blockIndex ∨ block.Retyped version) :
    Supplied pool state after blockIndex where
  active_eq := active_eq.trans supplied.active_eq
  free_eq := by
    rw [free_eq]
    exact supplied.free_eq
  taken := by
    obtain ⟨first, member, here, erased, counted, later, found', same⟩ :=
      supplied.taken
    refine ⟨first, member, here, by rw [free_eq]; exact erased,
      by rw [free_eq]; exact counted, ?_⟩
    rw [replaced]
    by_cases equality : blockIndex = other
    · subst equality
      rw [found] at found'
      cases found'
      exact ⟨version, AList.lookup_insert _, next.trans same⟩
    · exact ⟨later, by rw [AList.lookup_insert_ne equality]; exact found', same⟩
  absent := supplied.absent
  version := by
    intro key current lookup
    obtain ⟨later, found', kept⟩ := supplied.version key current lookup
    rw [replaced]
    by_cases equality : key = other
    · subst equality
      rw [found] at found'
      cases found'
      refine ⟨version, AList.lookup_insert _, ?_⟩
      rcases retyped with here | retyped
      · have absent := supplied.absent
        rw [← here, lookup] at absent
        cases absent
      · exact kept.trans retyped
    · exact ⟨later, by rw [AList.lookup_insert_ne equality]; exact found', kept⟩

theorem takeFreeBlock_supplies (pool : FreePool) {noneLeft inUse : Panic}
    (unrelated : inUse.Unrelated) (idx : Nat) :
    Meets (takeFreeBlock cfg pool noneLeft inUse idx) state
      (fun blockIndex final => Supplied pool state final blockIndex)
      fun raised _ => raised.Unrelated ∨
        (raised = noneLeft ∧ (state.free pool).count = 0) := by
  unfold takeFreeBlock
  split
  · exact .inl (by decide)
  apply meets_bind.mpr
  apply meets_get.mpr
  dsimp only
  split
  · next none => exact .inr ⟨rfl, none⟩
  next some =>
  split
  · exact .inl (by decide)
  · next block search =>
      split
      · exact .inl unrelated
      · next absent =>
          have missing : state.blocks.lookup block.idx = none := by
            simpa using absent
          refine ⟨rfl, ?_, ?_, missing, ?_⟩
          · intro other different
            simp [different]
          · refine ⟨block, searchFree_mem search, rfl, by simp, ?_, block, ?_,
              rfl⟩
            · simp only [State.note_free, State.setFree_free,
                Function.update_self]
              exact Nat.succ_pred_eq_of_ne_zero some
            · exact AList.lookup_insert _
          · intro other current lookup
            have different : other ≠ block.idx := by
              intro same
              rw [same, missing] at lookup
              cases lookup
            refine ⟨current, ?_, .refl current⟩
            exact (AList.lookup_insert_ne different).trans lookup

theorem Supplied.tag {pool : FreePool} {middle : State} {blockIndex : Nat}
    (supplied : Supplied pool state middle blockIndex)
    (update : Block → Block)
    (next : ∀ block : Block,
      (update block).nextWritePage = block.nextWritePage)
    {raised : Panic → State → Prop} :
    Meets (do updateBlock blockIndex update; return blockIndex) middle
      (fun blockIndex final => Supplied pool state final blockIndex)
      raised := by
  obtain ⟨_, _, _, _, _, later, found, _⟩ := supplied.taken
  refine Meets.bindOk (run_updateBlock found update) ?_
  exact supplied.retype found rfl rfl rfl (next later) (.inl rfl)

theorem Supplied.window {pool : FreePool} {middle after : State}
    {blockIndex : Nat} (supplied : Supplied pool state middle blockIndex)
    (active_eq : after.active = middle.active)
    (free_eq : after.free = middle.free)
    (blocks_eq : after.blocks = middle.blocks) :
    Supplied pool state after blockIndex := by
  obtain ⟨active, free, taken, absent, version⟩ := supplied
  exact ⟨active_eq.trans active, by rw [free_eq]; exact free,
    by rw [free_eq, blocks_eq]; exact taken, absent,
    by rw [blocks_eq]; exact version⟩

theorem demoteCoolFront_supplies {pool : FreePool} {middle : State}
    {blockIndex : Nat} (supplied : Supplied pool state middle blockIndex) :
    Meets (demoteCoolFront cfg) middle
      (fun _ final => Supplied pool state final blockIndex)
      fun raised _ => raised.Unrelated := by
  unfold demoteCoolFront
  apply meets_bind.mpr
  apply meets_get.mpr
  split
  · split
    · exact show Panic.Unrelated _ by decide
    · next front rest window =>
        cases found : middle.blocks.lookup front with
        | none =>
            exact Meets.bindError (run_findBlock_none found)
              (show Panic.Unrelated _ by decide)
        | some block =>
            refine Meets.bindOk (run_findBlock found) ?_
            refine Supplied.retype supplied found rfl rfl rfl rfl (.inr ?_)
            exact ⟨rfl, rfl, rfl, rfl, fun typed => absurd rfl typed⟩
  · exact supplied

theorem getBlockFor_supplies (pool : ActivePool) (idx : Nat) :
    Meets (getBlockFor cfg pool idx) state
      (fun blockIndex final => Supplied pool.source state final blockIndex)
      fun raised _ => raised.Unrelated ∨
        (state.free pool.source).count = 0 := by
  have taking : ∀ {list : FreePool} {noneLeft inUse : Panic}
      {next : Nat → FTLM Nat}, inUse.Unrelated →
      (∀ blockIndex taken, Supplied list state taken blockIndex →
        Meets (next blockIndex) taken
          (fun blockIndex final => Supplied list state final blockIndex)
          fun raised _ => raised.Unrelated) →
      Meets (takeFreeBlock cfg list noneLeft inUse idx >>= next) state
        (fun blockIndex final => Supplied list state final blockIndex)
        fun raised _ => raised.Unrelated ∨ (state.free list).count = 0 := by
    intro list noneLeft inUse next unrelated rest
    refine ((takeFreeBlock_supplies list unrelated idx).mono
      (fun _ _ supplied => supplied)
      fun _ _ failed => failed.imp_right And.right).bind ?_
    intro blockIndex taken supplied
    exact (rest blockIndex taken supplied).mono (fun _ _ supplied => supplied)
      fun _ _ unrelated => .inl unrelated
  cases pool with
  | plain =>
      refine taking (by decide) fun _ _ supplied => ?_
      apply supplied.tag
      exact fun _ => rfl
  | hot =>
      refine taking (by decide) fun _ _ supplied => ?_
      refine Meets.bindOk rfl ?_
      apply Supplied.tag
      · exact supplied.window rfl rfl rfl
      · exact fun _ => rfl
  | cool =>
      refine taking (by decide) fun _ _ supplied => ?_
      refine (demoteCoolFront_supplies supplied).bind ?_
      intro _ demoted supplied
      refine Meets.bindOk rfl ?_
      apply Supplied.tag
      · exact supplied.window rfl rfl rfl
      · exact fun _ => rfl
  | cold =>
      refine taking (by decide) fun _ _ supplied => ?_
      apply supplied.tag
      exact fun _ => rfl

end Allocation

/-! The reserve of an array. -/

def State.room (cfg : Config) (state : State) (blockIndex : Nat) : Nat :=
  match state.blocks.lookup blockIndex with
  | some block => cfg.pagesInBlock - block.getNextWritePageIndex
  | none => 0

/-- Pages that the blocks in the slots of an array can take.  A block that
several slots name counts once. -/
def State.slotRoom (cfg : Config) (state : State) (pool : ActivePool) : Nat :=
  ∑ blockIndex ∈ (state.active pool).blocks.toFinset,
    state.room cfg blockIndex

/-- Pages that can be programmed through an array until its free list is used
up. -/
def State.spare (cfg : Config) (state : State) (pool : ActivePool) : Nat :=
  cfg.pagesInBlock * (state.free pool.source).blocks.length +
    state.slotRoom cfg pool

section Reserve

variable {cfg : Config} {env : Environment} {state updated : State}
  {pool : ActivePool}

theorem State.room_of_lookup {blockIndex : Nat} {block : Block}
    (found : state.blocks.lookup blockIndex = some block) :
    state.room cfg blockIndex =
      cfg.pagesInBlock - block.getNextWritePageIndex := by
  simp only [State.room, found]

theorem State.room_of_absent {blockIndex : Nat}
    (absent : state.blocks.lookup blockIndex = none) :
    state.room cfg blockIndex = 0 := by
  simp only [State.room, absent]

theorem State.room_le (state : State) (blockIndex : Nat) :
    state.room cfg blockIndex ≤ cfg.pagesInBlock := by
  unfold State.room
  split <;> omega

/-- The other slots cannot take more than whole blocks. -/
theorem State.slotRoom_add_le {blockIndex : Nat}
    (listed : blockIndex ∈ (state.active pool).blocks) :
    state.slotRoom cfg pool + cfg.pagesInBlock ≤
      (state.active pool).blocks.length * cfg.pagesInBlock +
        state.room cfg blockIndex := by
  have member : blockIndex ∈ (state.active pool).blocks.toFinset :=
    List.mem_toFinset.mpr listed
  have others : ∑ other ∈ (state.active pool).blocks.toFinset.erase blockIndex,
      state.room cfg other ≤
        ((state.active pool).blocks.toFinset.erase blockIndex).card *
          cfg.pagesInBlock :=
    Finset.sum_le_card_nsmul _ _ _ fun other _ => state.room_le other
  have card : ((state.active pool).blocks.toFinset.erase blockIndex).card + 1 ≤
      (state.active pool).blocks.length := by
    rw [Finset.card_erase_add_one member]
    exact List.toFinset_card_le _
  have whole := Nat.mul_le_mul_right cfg.pagesInBlock card
  rw [Nat.add_mul, Nat.one_mul] at whole
  unfold State.slotRoom
  rw [← Finset.add_sum_erase _ _ member]
  omega

theorem State.slotRoom_le (state : State) (pool : ActivePool) :
    state.slotRoom cfg pool ≤
      (state.active pool).blocks.length * cfg.pagesInBlock := by
  have bound : state.slotRoom cfg pool ≤
      (state.active pool).blocks.toFinset.card * cfg.pagesInBlock :=
    Finset.sum_le_card_nsmul _ _ _ fun other _ => state.room_le other
  exact bound.trans (Nat.mul_le_mul_right _ (List.toFinset_card_le _))

theorem sum_add_le {before after : Finset Nat} {old new : Nat → Nat}
    {fresh : Nat} (member : fresh ∈ after)
    (kept : ∀ blockIndex ∈ before, old blockIndex ≠ 0 →
      blockIndex ∈ after ∧ blockIndex ≠ fresh ∧
        old blockIndex ≤ new blockIndex) :
    ∑ blockIndex ∈ before, old blockIndex + new fresh ≤
      ∑ blockIndex ∈ after, new blockIndex := by
  have counting : ∑ blockIndex ∈ before, old blockIndex ≤
      ∑ blockIndex ∈ after.erase fresh, new blockIndex := by
    calc ∑ blockIndex ∈ before, old blockIndex
        = ∑ blockIndex ∈ before with old blockIndex ≠ 0, old blockIndex :=
          (Finset.sum_filter_ne_zero before).symm
      _ ≤ ∑ blockIndex ∈ before with old blockIndex ≠ 0, new blockIndex := by
          apply Finset.sum_le_sum
          intro blockIndex listed
          obtain ⟨here, counts⟩ := Finset.mem_filter.mp listed
          exact (kept blockIndex here counts).2.2
      _ ≤ ∑ blockIndex ∈ after.erase fresh, new blockIndex := by
          apply Finset.sum_le_sum_of_subset
          intro blockIndex listed
          obtain ⟨here, counts⟩ := Finset.mem_filter.mp listed
          obtain ⟨there, different, _⟩ := kept blockIndex here counts
          exact Finset.mem_erase.mpr ⟨different, there⟩
  rw [← Finset.add_sum_erase _ _ member]
  omega

/-- Programming pages of one block uses up at most as many pages of the
reserve. -/
theorem Filling.spare_le {target : Nat} {units : List Nat}
    (filling : Filling target units state updated) (bound : Nat)
    (bounded : ∀ unit, units.count unit ≤ bound) :
    state.spare cfg pool ≤ updated.spare cfg pool + bound := by
  have rooms : ∀ blockIndex, blockIndex ≠ target →
      state.room cfg blockIndex ≤ updated.room cfg blockIndex := by
    intro blockIndex different
    cases found : state.blocks.lookup blockIndex with
    | none =>
        rw [State.room_of_absent found]
        exact Nat.zero_le _
    | some block =>
        obtain ⟨later, found', grown⟩ := filling.version blockIndex block found
        have index := (grown.index 0 fun unit =>
          (programmedAt_of_ne different units unit).le).2
        rw [State.room_of_lookup found, State.room_of_lookup found']
        omega
  have room : state.room cfg target ≤ updated.room cfg target + bound := by
    cases found : state.blocks.lookup target with
    | none =>
        rw [State.room_of_absent found]
        exact Nat.zero_le _
    | some block =>
        obtain ⟨later, found', grown⟩ := filling.version target block found
        have index := (grown.index bound fun unit => by
          simpa [programmedAt] using bounded unit).2
        rw [State.room_of_lookup found, State.room_of_lookup found']
        omega
  unfold State.spare State.slotRoom
  rw [filling.free_eq, filling.slots_eq]
  by_cases listed : target ∈ (state.active pool).blocks.toFinset
  · rw [← Finset.add_sum_erase _ _ listed, ← Finset.add_sum_erase _ _ listed]
    have others : ∑ other ∈ (state.active pool).blocks.toFinset.erase target,
        state.room cfg other ≤
          ∑ other ∈ (state.active pool).blocks.toFinset.erase target,
            updated.room cfg other :=
      Finset.sum_le_sum fun other member =>
        rooms other (Finset.ne_of_mem_erase member)
    omega
  · have all : ∑ other ∈ (state.active pool).blocks.toFinset,
        state.room cfg other ≤
          ∑ other ∈ (state.active pool).blocks.toFinset,
            updated.room cfg other := by
      apply Finset.sum_le_sum
      intro other member
      apply rooms
      intro same
      exact listed (same ▸ member)
    omega

end Reserve

/-! Stretches of a run that erase nothing. -/

/-- A later version of a block that was not erased in between.  A full block has
received nothing since. -/
structure Block.Aged (cfg : Config) (block later : Block) : Prop where
  eraseCount_eq : later.eraseCount = block.eraseCount
  cool : later.blockType = .cool → block.blockType = .cool
  full : block.Full cfg → later.Full cfg
  valid : block.Full cfg → ∀ page unit,
    later.validBits page unit = true → block.validBits page unit = true

/-- The free lists shrink, and only blocks that were free take seats. -/
structure Onward (cfg : Config) (before after : State) : Prop where
  free : ∀ pool,
    (after.free pool).blocks.Sublist (before.free pool).blocks
  length_eq : ∀ pool, (after.active pool).blocks.length =
    (before.active pool).blocks.length
  slots : ∀ pool, ∀ blockIndex ∈ (after.active pool).blocks,
    blockIndex ∈ (before.active pool).blocks ∨
      before.blocks.lookup blockIndex = none
  version : ∀ blockIndex block,
    before.blocks.lookup blockIndex = some block →
      ∃ later, after.blocks.lookup blockIndex = some later ∧
        block.Aged cfg later

section Onward

variable {cfg : Config} {env : Environment} {state updated : State}
  {pool : ActivePool}

theorem Block.Aged.refl (block : Block) : block.Aged cfg block :=
  ⟨rfl, id, id, fun _ _ _ valid => valid⟩

theorem Block.Aged.trans {block middle later : Block}
    (aged : block.Aged cfg middle) (further : middle.Aged cfg later) :
    block.Aged cfg later :=
  ⟨further.eraseCount_eq.trans aged.eraseCount_eq,
    fun cool => aged.cool (further.cool cool),
    fun full => further.full (aged.full full),
    fun full page unit valid => aged.valid full page unit
      (further.valid (aged.full full) page unit valid)⟩

theorem Onward.refl (state : State) : Onward cfg state state :=
  ⟨fun _ => List.Sublist.refl _, fun _ => rfl, fun _ _ member => .inl member,
    fun _ block found => ⟨block, found, .refl block⟩⟩

theorem Onward.trans {middle : State} (onward : Onward cfg state middle)
    (further : Onward cfg middle updated) : Onward cfg state updated where
  free := fun pool => (further.free pool).trans (onward.free pool)
  length_eq := fun pool => (further.length_eq pool).trans (onward.length_eq pool)
  slots := by
    intro pool blockIndex member
    rcases further.slots pool blockIndex member with listed | absent
    · exact onward.slots pool blockIndex listed
    · refine .inr ?_
      cases found : state.blocks.lookup blockIndex with
      | none => rfl
      | some block =>
          obtain ⟨later, found', _⟩ := onward.version blockIndex block found
          rw [found'] at absent
          cases absent
  version := by
    intro blockIndex block found
    obtain ⟨version, found', aged⟩ := onward.version blockIndex block found
    obtain ⟨later, found'', aged'⟩ := further.version blockIndex version found'
    exact ⟨later, found'', aged.trans aged'⟩

theorem Block.Grown.full_eq {written : Nat → Nat} {block later : Block}
    (grown : block.Grown written later) (none : ∀ unit, written unit = 0) :
    later.Full cfg ↔ block.Full cfg := by
  have index := grown.index 0 fun unit => (none unit).le
  have same : later.getNextWritePageIndex = block.getNextWritePageIndex := by
    omega
  unfold Block.Full
  rw [same]

theorem Filling.onward {target : Nat} {units : List Nat}
    (filling : Filling target units state updated)
    (vacant : units = [] ∨ ∀ block,
      state.blocks.lookup target = some block → ¬ block.Full cfg) :
    Onward cfg state updated where
  free := by
    intro pool
    rw [filling.free_eq]
  length_eq := by
    intro pool
    rw [filling.slots_eq]
  slots := by
    intro pool blockIndex member
    rw [filling.slots_eq] at member
    exact .inl member
  version := by
    intro blockIndex block found
    obtain ⟨later, found', grown⟩ := filling.version blockIndex block found
    have kept : block.Full cfg → later.Full cfg ∧ ∀ page unit,
        later.validBits page unit = true →
          block.validBits page unit = true := by
      intro full
      have none : ∀ unit, programmedAt target units blockIndex unit = 0 := by
        intro unit
        by_cases here : blockIndex = target
        · subst here
          rcases vacant with empty | room
          · rw [empty]
            exact programmedAt_nil blockIndex blockIndex unit
          · exact absurd full (room block found)
        · exact programmedAt_of_ne here units unit
      exact ⟨(grown.full_eq none).mpr full, grown.valid none⟩
    exact ⟨later, found', grown.eraseCount_eq,
      fun cool => grown.blockType_eq ▸ cool, fun full => (kept full).1,
      fun full => (kept full).2⟩

theorem Steady.onward (steady : Steady state updated) :
    Onward cfg state updated :=
  (steady 0).onward (.inl rfl)

theorem Steady.spare_le (steady : Steady state updated) :
    state.spare cfg pool ≤ updated.spare cfg pool :=
  (steady 0).spare_le 0 (by simp)

/-- The free list behind an array holds empty blocks and is counted. -/
structure Stocked (pool : ActivePool) (state : State) : Prop where
  rested : ∀ block ∈ (state.free pool.source).blocks, block.Empty
  counted : (state.free pool.source).count =
    (state.free pool.source).blocks.length

structure Drawn (cfg : Config) (pool : ActivePool) (before after : State)
    (target : Nat) : Prop where
  onward : Onward cfg before after
  stocked : Stocked pool after
  spare_le : before.spare cfg pool ≤ after.spare cfg pool
  free_eq : ∀ other, other ≠ pool.source →
    after.free other = before.free other
  listed : target ∈ (after.active pool).blocks
  roomy : cfg.pagesInBlock = 0 ∨ ∀ block,
    after.blocks.lookup target = some block → ¬ block.Full cfg

/-- A block from the free list takes the slot of a full one. -/
theorem Supplied.seat {middle after : State} {blockIndex index old : Nat}
    {block : Block}
    (supplied : Supplied pool.source state middle blockIndex)
    (stocked : Stocked pool state)
    (slot : (state.active pool).blocks[index]? = some old)
    (found : state.blocks.lookup old = some block) (full : block.Full cfg)
    (blocks_eq : after.blocks = middle.blocks)
    (free_eq : after.free = middle.free)
    (slots_eq : ∀ other, (after.active other).blocks = if other = pool then
      (middle.active pool).blocks.set index blockIndex
      else (middle.active other).blocks) :
    Drawn cfg pool state after blockIndex := by
  obtain ⟨fresh, member, _, _, fewer, later, found', next⟩ := supplied.taken
  have empty := stocked.rested fresh member
  have none : later.getNextWritePageIndex = 0 := by
    rcases later.getNextWritePageIndex_eq with zero | ⟨unit, _, same⟩
    · exact zero
    · rw [same, next, empty.nextWritePage_eq]
  have lookup : after.blocks.lookup blockIndex = some later := by
    rw [blocks_eq]
    exact found'
  have slots : (after.active pool).blocks =
      (state.active pool).blocks.set index blockIndex := by
    rw [slots_eq, if_pos rfl, supplied.active_eq]
  have inside := (List.getElem?_eq_some_iff.mp slot).1
  have listed : blockIndex ∈ (after.active pool).blocks := by
    rw [slots]
    exact List.mem_set inside blockIndex
  refine ⟨⟨?_, ?_, ?_, ?_⟩, ⟨?_, ?_⟩, ?_, ?_, listed, ?_⟩
  · intro other
    rw [free_eq]
    exact supplied.sublist other
  · intro other
    rw [slots_eq, supplied.active_eq]
    split
    · next same => rw [same, List.length_set]
    · rfl
  · intro other key seated
    rw [slots_eq, supplied.active_eq] at seated
    split at seated
    · next same =>
        rw [same]
        rcases List.mem_or_eq_of_mem_set seated with kept | new
        · exact .inl kept
        · exact .inr (new ▸ supplied.absent)
    · exact .inl seated
  · intro key current lookup
    obtain ⟨version, found', retyped⟩ := supplied.version key current lookup
    have full_iff : version.Full cfg ↔ current.Full cfg := by
      unfold Block.Full Block.getNextWritePageIndex
      rw [retyped.nextWritePage_eq, retyped.ioUnitInPage_eq]
    refine ⟨version, blocks_eq ▸ found', retyped.eraseCount_eq, ?_,
      full_iff.mpr, ?_⟩
    · intro cool
      rw [← retyped.kept (by rw [cool]; decide)]
      exact cool
    intro _ page unit valid
    rwa [retyped.validBits_eq] at valid
  · intro other member
    rw [free_eq] at member
    exact stocked.rested other ((supplied.sublist _).subset member)
  · have shorter := supplied.length
    have counted := stocked.counted
    rw [free_eq]
    omega
  · -- the free list has lost a block, and the slots have gained one
    have gained : state.slotRoom cfg pool + after.room cfg blockIndex ≤
        after.slotRoom cfg pool := by
      refine sum_add_le (List.mem_toFinset.mpr listed) ?_
      intro key here counts
      cases lookup : state.blocks.lookup key with
      | none => exact absurd (State.room_of_absent lookup) counts
      | some current =>
          have different : key ≠ old := by
            intro same
            rw [same, State.room_of_lookup found] at counts
            unfold Block.Full at full
            omega
          have fresh : key ≠ blockIndex := by
            intro same
            rw [same, supplied.absent] at lookup
            cases lookup
          obtain ⟨version, found', retyped⟩ :=
            supplied.version key current lookup
          refine ⟨?_, fresh, ?_⟩
          · rw [List.mem_toFinset, slots]
            obtain ⟨place, named⟩ :=
              List.mem_iff_getElem?.mp (List.mem_toFinset.mp here)
            have apart : index ≠ place := by
              intro same
              rw [← same, slot] at named
              exact different (Option.some.inj named).symm
            apply List.mem_iff_getElem?.mpr
            exact ⟨place, by rw [List.getElem?_set_ne apart]; exact named⟩
          · rw [State.room_of_lookup lookup,
              State.room_of_lookup (blocks_eq ▸ found')]
            unfold Block.getNextWritePageIndex
            rw [retyped.nextWritePage_eq, retyped.ioUnitInPage_eq]
    rw [State.room_of_lookup lookup, none, Nat.sub_zero] at gained
    have shorter := supplied.length
    unfold State.spare
    rw [free_eq, ← shorter, Nat.mul_add, Nat.mul_one]
    omega
  · intro other different
    rw [free_eq]
    exact supplied.free_eq other different
  · by_cases zero : cfg.pagesInBlock = 0
    · exact .inl zero
    · refine .inr ?_
      intro current found''
      rw [lookup] at found''
      cases found''
      unfold Block.Full
      omega

theorem Steady.of_advance (iomap : IOFlag) :
    Steady state (state.setActive pool
      ((state.active pool).advance cfg iomap)) := by
  refine Steady.of_blocks_eq rfl rfl ?_
  intro other
  simp only [State.setActive_active]
  by_cases same : other = pool
  · subst same
    rw [Function.update_self]
    unfold ActiveSlots.advance
    split <;> rfl
  · rw [Function.update_of_ne same]

/-- A full slot that cannot be refilled: the free list is empty, and the other
slots have no more than whole blocks left. -/
def Dry (cfg : Config) (pool : ActivePool) (state : State) : Prop :=
  state.spare cfg pool + cfg.pagesInBlock ≤
    (state.active pool).blocks.length * cfg.pagesInBlock

theorem refill_draws {old : Nat} {block : Block}
    (stocked : Stocked pool state)
    (slot : (state.active pool).blocks[(state.active pool).index]? = some old)
    (found : state.blocks.lookup old = some block) (full : block.Full cfg) :
    Meets (do refillSlot cfg pool; slotAt pool) state
      (fun target final => Drawn cfg pool state final target)
      fun raised _ => raised.Unrelated ∨ Dry cfg pool state := by
  unfold refillSlot seatSlot
  simp only [bind_assoc]
  apply meets_bind.mpr
  apply meets_get.mpr
  refine ((getBlockFor_supplies pool _).mono (fun _ _ supplied => supplied)
    ?_).bind ?_
  · intro raised _ failed
    refine failed.imp_right ?_
    intro none
    have others : state.slotRoom cfg pool + cfg.pagesInBlock ≤ _ :=
      State.slotRoom_add_le (List.mem_of_getElem? slot)
    rw [State.room_of_lookup found] at others
    unfold Block.Full at full
    unfold Dry State.spare
    rw [← stocked.counted, none, Nat.mul_zero]
    omega
  · intro blockIndex middle supplied
    refine Meets.bindOk rfl ?_
    refine Meets.bindOk rfl ?_
    dsimp only
    have inside := (List.getElem?_eq_some_iff.mp slot).1
    have seated : ((middle.active pool).blocks.set (state.active pool).index
        blockIndex)[(middle.active pool).index]? = some blockIndex := by
      rw [supplied.active_eq]
      exact List.getElem?_set_self inside
    unfold Meets
    rw [run_slotAt (by simpa using seated)]
    refine supplied.seat stocked slot found full rfl rfl ?_
    intro other
    by_cases same : other = pool
    · subst same
      simp
    · simp [same]

theorem Steady.drawn {middle : State} {target : Nat}
    (steady : Steady state middle)
    (drawn : Drawn cfg pool middle updated target) :
    Drawn cfg pool state updated target where
  onward := steady.onward.trans drawn.onward
  stocked := drawn.stocked
  spare_le := steady.spare_le.trans drawn.spare_le
  free_eq := by
    intro other different
    rw [drawn.free_eq other different, (steady 0).free_eq]
  listed := drawn.listed
  roomy := drawn.roomy

theorem Steady.stocked (steady : Steady state updated)
    (stocked : Stocked pool state) : Stocked pool updated := by
  have free_eq := (steady 0).free_eq
  exact ⟨by rw [free_eq]; exact stocked.rested,
    by rw [free_eq]; exact stocked.counted⟩

theorem Steady.dry (steady : Steady state updated)
    (dry : Dry cfg pool updated) : Dry cfg pool state := by
  have spare : state.spare cfg pool ≤ updated.spare cfg pool :=
    steady.spare_le
  unfold Dry at dry ⊢
  rw [(steady 0).slots_eq] at dry
  omega

theorem slot_draws
    (stocked : Stocked pool state) :
    Meets (do
        let blockIndex ← slotAt pool
        let block ← findBlock blockIndex pool.corrupted
        if block.getNextWritePageIndex = cfg.pagesInBlock then
          refillSlot cfg pool
        slotAt pool) state
      (fun target final => Drawn cfg pool state final target)
      fun raised _ => raised.Unrelated ∨ Dry cfg pool state := by
  cases slot : (state.active pool).blocks[(state.active pool).index]? with
  | none =>
      have failed : (slotAt pool).run state = .error .outOfRange state := by
        simp only [slotAt, EStateM.run_bind, EStateM.run_get, slot]
        rfl
      exact Meets.bindError failed (.inl (by decide))
  | some old =>
      refine Meets.bindOk (run_slotAt slot) ?_
      cases found : state.blocks.lookup old with
      | none =>
          refine Meets.bindError (run_findBlock_none found) (.inl ?_)
          cases pool <;> decide
      | some block =>
          refine Meets.bindOk (run_findBlock found) ?_
          dsimp only
          split
          · next full => exact refill_draws stocked slot found full
          · next room =>
              unfold Meets
              rw [run_slotAt slot]
              refine ⟨.refl _, stocked, le_rfl, fun _ _ => rfl,
                List.mem_of_getElem? slot, .inr ?_⟩
              intro current lookup
              rw [found] at lookup
              cases lookup
              exact room

theorem getLastBlock_draws (iomap : IOFlag)
    (stocked : Stocked pool state) :
    Meets (getLastBlock cfg pool iomap) state
      (fun target final => Drawn cfg pool state final target)
      fun raised _ => raised.Unrelated ∨ Dry cfg pool state := by
  have steady : Steady state (state.setActive pool
      ((state.active pool).advance cfg iomap)) := .of_advance iomap
  unfold getLastBlock
  refine Meets.bindOk rfl ?_
  refine (slot_draws (steady.stocked stocked)).mono (fun _ _ drawn => steady.drawn drawn) ?_
  intro _ _ failed
  exact failed.imp_right steady.dry

end Onward

/-! Copying of pages. -/

/-- At most `pages` pages were copied into the blocks of an array, none of them
or the last one just now. -/
structure Copying (cfg : Config) (pool : ActivePool) (pages : Nat)
    (before after : State) : Prop where
  onward : Onward cfg before after
  stocked : Stocked pool after
  spare_le : before.spare cfg pool ≤ after.spare cfg pool + pages
  free_eq : ∀ other, other ≠ pool.source →
    after.free other = before.free other
  used : after = before ∨ (0 < pages ∧ after.slotRoom cfg pool <
    (after.active pool).blocks.length * cfg.pagesInBlock)

def Short (cfg : Config) (pool : ActivePool) (pages : Nat) (state : State) :
    Prop :=
  state.spare cfg pool + cfg.pagesInBlock <
    (state.active pool).blocks.length * cfg.pagesInBlock + pages

def Copies (cfg : Config) (pool : ActivePool) (pages : Nat)
    (program : FTLM α) (state : State) : Prop :=
  Meets program state (fun _ final => Copying cfg pool pages state final)
    fun raised _ => raised.Unrelated ∨ Short cfg pool pages state

/-- A bound on the pages of a block that a copy loop takes up: the valid ones of
a full block, and all of a block that may still receive pages. -/
def State.copiesOf (cfg : Config) (state : State) (blockIndex : Nat)
    (pages : List Nat) : Nat :=
  match state.blocks.lookup blockIndex with
  | some block =>
      if block.Full cfg then
        pages.countP fun page =>
          IOFlag.any cfg.ioUnitInPage (block.validBits page)
      else pages.length
  | none => pages.length

section Copies

variable {cfg : Config} {env : Environment} {state updated : State}
  {pool : ActivePool}

theorem Copying.refl (stocked : Stocked pool state) :
    Copying cfg pool 0 state state :=
  ⟨.refl state, stocked, le_rfl, fun _ _ => rfl, .inl rfl⟩

theorem Copying.trans {first second : Nat} {middle : State}
    (copying : Copying cfg pool first state middle)
    (further : Copying cfg pool second middle updated) :
    Copying cfg pool (first + second) state updated where
  onward := copying.onward.trans further.onward
  stocked := further.stocked
  spare_le := by
    have early := copying.spare_le
    have late := further.spare_le
    omega
  free_eq := fun other different =>
    (further.free_eq other different).trans (copying.free_eq other different)
  used := by
    rcases further.used with same | ⟨some, used⟩
    · refine (same ▸ copying.used).imp_right ?_
      exact fun used => ⟨Nat.add_pos_left used.1 _, used.2⟩
    · exact .inr ⟨Nat.add_pos_right _ some, used⟩

theorem Copying.mono {fewer more : Nat} (le : fewer ≤ more)
    (copying : Copying cfg pool fewer state updated) :
    Copying cfg pool more state updated :=
  { copying with
    spare_le := copying.spare_le.trans (Nat.add_le_add_left le _)
    used := copying.used.imp_right
      fun used => ⟨Nat.lt_of_lt_of_le used.1 le, used.2⟩ }

theorem Copies.mono {fewer more : Nat} {program : FTLM α}
    (le : fewer ≤ more) (copies : Copies cfg pool fewer program state) :
    Copies cfg pool more program state := by
  refine Meets.mono copies (fun _ _ copying => copying.mono le) ?_
  intro _ _ failed
  refine failed.imp_right ?_
  intro short
  unfold Short at short ⊢
  omega

theorem Copies.pure (stocked : Stocked pool state) (value : α) :
    Copies cfg pool 0 (pure value) state :=
  .refl stocked

theorem Copies.bind {first second : Nat} {program : FTLM α}
    {next : α → FTLM β} (begins : Copies cfg pool first program state)
    (rest : ∀ value reached, Copying cfg pool first state reached →
      Copies cfg pool second (next value) reached) :
    Copies cfg pool (first + second) (program >>= next) state := by
  refine Meets.bind (Meets.mono begins (fun _ _ copying => copying) ?_) ?_
  · intro _ _ failed
    refine failed.imp_right ?_
    intro short
    unfold Short at short ⊢
    omega
  · intro value reached copying
    refine Meets.mono (rest value reached copying)
      (fun _ _ further => copying.trans further) ?_
    intro _ _ failed
    refine failed.imp_right ?_
    intro short
    have spare := copying.spare_le
    unfold Short at short ⊢
    rw [copying.onward.length_eq] at short
    omega

/-- A copy loop; the weights of the items are bounds in every state that it
reaches. -/
theorem Copies.forM {items : List α} {body : α → FTLM PUnit}
    {weight : α → Nat} (stocked : Stocked pool state)
    (each : ∀ item ∈ items, ∀ reached, Onward cfg state reached →
      Stocked pool reached → Copies cfg pool (weight item) (body item) reached) :
    Copies cfg pool (items.map weight).sum (items.forM body) state := by
  induction items generalizing state with
  | nil => exact Copies.pure stocked _
  | cons item rest induction =>
      rw [List.map_cons, List.sum_cons]
      refine (each item (.head _) state (.refl state) stocked).bind ?_
      intro _ reached copying
      refine induction copying.stocked ?_
      intro other member later onward
      exact each other (.tail _ member) later (copying.onward.trans onward)

theorem State.copiesOf_le (state : State) (blockIndex : Nat)
    (pages : List Nat) :
    state.copiesOf cfg blockIndex pages ≤ pages.length := by
  unfold State.copiesOf
  split
  · split
    · exact List.countP_le_length
    · exact le_rfl
  · exact le_rfl

theorem Onward.copiesOf_le (onward : Onward cfg state updated)
    (blockIndex : Nat) (pages : List Nat) :
    updated.copiesOf cfg blockIndex pages ≤
      state.copiesOf cfg blockIndex pages := by
  cases found : state.blocks.lookup blockIndex with
  | none =>
      have all : state.copiesOf cfg blockIndex pages = pages.length := by
        simp only [State.copiesOf, found]
      rw [all]
      exact updated.copiesOf_le blockIndex pages
  | some block =>
      obtain ⟨later, found', aged⟩ := onward.version blockIndex block found
      by_cases full : block.Full cfg
      · simp only [State.copiesOf, found, found', if_pos full,
          if_pos (aged.full full)]
        apply List.countP_mono_left
        intro page _ valid
        obtain ⟨unit, inside, bit⟩ := IOFlag.any_eq_true.mp valid
        exact IOFlag.any_eq_true.mpr
          ⟨unit, inside, aged.valid full page unit bit⟩
      · have all : state.copiesOf cfg blockIndex pages = pages.length := by
          simp only [State.copiesOf, found, if_neg full]
        rw [all]
        exact updated.copiesOf_le blockIndex pages

theorem State.copiesOf_sum (state : State) (blockIndex : Nat)
    (pages : List Nat) :
    (pages.map fun page => state.copiesOf cfg blockIndex [page]).sum =
      state.copiesOf cfg blockIndex pages := by
  induction pages with
  | nil =>
      unfold State.copiesOf
      split
      · split <;> rfl
      · rfl
  | cons page rest induction =>
      rw [List.map_cons, List.sum_cons, induction]
      unfold State.copiesOf
      split
      · split
        · rw [List.countP_cons, List.countP_cons, List.countP_nil]
          omega
        · simp only [List.length_cons, List.length_nil]
          omega
      · simp only [List.length_cons, List.length_nil]
        omega

theorem Drawn.fill {middle : State} {target : Nat} {units : List Nat}
    (drawn : Drawn cfg pool state middle target)
    (filling : Filling target units middle updated)
    (positive : 0 < cfg.pagesInBlock)
    (single : ∀ unit, units.count unit ≤ 1) (some : ∃ unit, unit ∈ units) :
    Copying cfg pool 1 state updated where
  onward := by
    refine drawn.onward.trans (filling.onward (.inr ?_))
    exact drawn.roomy.resolve_left (Nat.ne_of_gt positive)
  stocked := by
    refine ⟨?_, ?_⟩
    · rw [filling.free_eq]
      exact drawn.stocked.rested
    · rw [filling.free_eq]
      exact drawn.stocked.counted
  spare_le := drawn.spare_le.trans (filling.spare_le 1 single)
  free_eq := by
    intro other different
    rw [filling.free_eq]
    exact drawn.free_eq other different
  used := by
    have listed : target ∈ (updated.active pool).blocks := by
      rw [filling.slots_eq]
      exact drawn.listed
    have room : updated.room cfg target < cfg.pagesInBlock := by
      cases found : middle.blocks.lookup target with
      | none =>
          rw [State.room_of_absent (filling.absent target found)]
          exact positive
      | some block =>
          obtain ⟨unit, member⟩ := some
          obtain ⟨later, found', grown⟩ := filling.version target block found
          have counts : programmedAt target units target unit ≠ 0 := by
            have here : programmedAt target units target unit =
                units.count unit := if_pos rfl
            rw [here]
            exact Nat.ne_of_gt (List.count_pos_iff.mpr member)
          have next := grown.next unit
          have below := later.nextWritePage_le_getNextWritePageIndex
            (grown.ioUnitInPage_eq ▸ grown.inside unit counts)
          rw [State.room_of_lookup found']
          omega
    have others : updated.slotRoom cfg pool + cfg.pagesInBlock ≤ _ :=
      State.slotRoom_add_le listed
    exact .inr ⟨Nat.one_pos, by omega⟩

theorem copiedUnits_some {block : Block} {page : Nat}
    (valid : IOFlag.any cfg.ioUnitInPage (block.validBits page) = true) :
    ∃ unit, unit ∈ (List.range cfg.bitsetSize).filter
      (copiedUnits cfg block page) := by
  obtain ⟨unit, inside, bit⟩ := IOFlag.any_eq_true.mp valid
  by_cases tweak : cfg.bRandomTweak = true
  · refine ⟨unit, List.mem_filter.mpr ⟨?_, ?_⟩⟩
    · simpa [Config.bitsetSize, tweak] using inside
    · simpa [copiedUnits, tweak] using bit
  · refine ⟨0, List.mem_filter.mpr ⟨?_, ?_⟩⟩
    · simp [Config.bitsetSize, tweak]
    · simp [copiedUnits, tweak, IOFlag.all]

theorem copyPage_copies {plan : CopyPlan} (missing : plan.missing.Unrelated)
    {source page : Nat} (inside : page < cfg.pagesInBlock)
    (stocked : Stocked plan.destination state) :
    Copies cfg plan.destination (state.copiesOf cfg source [page])
      (copyPage cfg env plan source page) state := by
  unfold copyPage
  cases found : state.blocks.lookup source with
  | none =>
      exact Meets.bindError (run_findBlock_none found) (.inl (by decide))
  | some block =>
      refine Meets.bindOk (run_blockAt found) ?_
      dsimp only
      split
      · next valid =>
          have one : state.copiesOf cfg source [page] = 1 := by
            simp only [State.copiesOf, found, List.length_cons,
              List.length_nil, List.countP_cons, List.countP_nil, valid]
            split <;> rfl
          rw [one]
          refine ((getLastBlock_draws _ stocked).mono
            (fun _ _ drawn => drawn) ?_).bind ?_
          · intro _ _ failed
            refine failed.imp_right ?_
            intro dry
            unfold Dry at dry
            unfold Short
            omega
          intro target drawn' drawn
          have fills : Fills target ((List.range cfg.bitsetSize).filter
              (copiedUnits cfg block page))
              (do
                (List.range cfg.bitsetSize).forM fun idx => do
                  if copiedUnits cfg block page idx then
                    copyUnit cfg env plan.missing plan.refreshes source page
                      target (block.lpns page idx) idx
                    count plan.unitStat
                count plan.pageStat) drawn' := by
            refine Fills.bindStays (Fills.forM ?_) fun _ _ _ => count_stays _
            intro idx reached
            split
            · exact (copyUnit_fills missing _ _ _ _ _).bindStays
                fun _ _ _ => count_stays _
            · exact (Stays.pure _).fills
          refine Meets.mono fills ?_ fun _ _ unrelated => .inl unrelated
          intro _ copied filling
          refine drawn.fill filling (Nat.zero_lt_of_lt inside) ?_
            (copiedUnits_some valid)
          intro unit
          exact List.nodup_iff_count_le_one.mp
            (List.nodup_range.filter _) unit
      · exact (Copying.refl stocked).mono (Nat.zero_le _)

theorem copyPages_copies {plan : CopyPlan} (missing : plan.missing.Unrelated)
    {source : Nat} {pages : List Nat}
    (inside : ∀ page ∈ pages, page < cfg.pagesInBlock)
    (stocked : Stocked plan.destination state) :
    Copies cfg plan.destination (state.copiesOf cfg source pages)
      (pages.forM (copyPage cfg env plan source)) state := by
  rw [← state.copiesOf_sum source pages]
  refine Copies.forM stocked ?_
  intro page member reached onward stocked'
  exact (copyPage_copies missing (inside page member) stocked').mono
    (onward.copiesOf_le source [page])

def State.copiesOfVictims (cfg : Config) (state : State)
    (victims : List Nat) : Nat :=
  (victims.map fun victim =>
    state.copiesOf cfg victim (List.range cfg.pagesInBlock)).sum

theorem copyVictims_copies {plan : CopyPlan} {invalid : Panic}
    (missing : plan.missing.Unrelated) (unrelated : invalid.Unrelated)
    (victims : List Nat) (stocked : Stocked plan.destination state) :
    Copies cfg plan.destination (state.copiesOfVictims cfg victims)
      (copyVictims cfg env plan invalid victims) state := by
  refine Copies.forM stocked ?_
  intro victim _ reached onward stocked'
  cases found : reached.blocks.lookup victim with
  | none =>
      exact Meets.bindError (run_findBlock_none found) (.inl unrelated)
  | some block =>
      refine Meets.bindOk (run_findBlock found) ?_
      refine (copyPages_copies missing ?_ stocked').mono
        (onward.copiesOf_le victim _)
      intro page member
      exact List.mem_range.mp member

end Copies

end SimpleSSD.FTL
