import SimpleSSD.FTL.Occasion
import SimpleSSD.FTL.Custody

namespace SimpleSSD.FTL

open Program

/-! Random sampling of victims against the blocks that it can choose from.  With
separation off every block in use is full or named by an active slot. -/

structure Block.Sized (cfg : Config) (block : Block) : Prop where
  pageCount_eq : block.pageCount = cfg.pagesInBlock
  ioUnitInPage_eq : block.ioUnitInPage = cfg.ioUnitInPage
  nextWritePage_le : ∀ unit, block.nextWritePage unit ≤ cfg.pagesInBlock

structure Slotted (cfg : Config) (state : State) : Prop where
  unused : ∀ pool, pool ≠ .plain → (state.free pool).blocks = []
  sized : ∀ blockIndex block, state.blocks.lookup blockIndex = some block →
    block.Sized cfg
  rested : ∀ block ∈ (state.free .plain).blocks, block.Sized cfg
  listed : ∀ blockIndex block, state.blocks.lookup blockIndex = some block →
    block.Full cfg ∨ blockIndex ∈ (state.active .plain).blocks

section Slotted

variable {cfg : Config} {state updated : State} {blockIndex : Nat}
  {block version : Block}

theorem Block.Sized.full_iff (sized : block.Sized cfg) :
    block.Full cfg ↔ cfg.pagesInBlock = 0 ∨
      ∃ unit < cfg.ioUnitInPage, block.nextWritePage unit = cfg.pagesInBlock := by
  unfold Block.Full
  rw [← sized.ioUnitInPage_eq]
  constructor
  · intro full
    rcases block.getNextWritePageIndex_eq with zero | ⟨unit, inside, same⟩
    · exact .inl (full.symm.trans zero)
    · exact .inr ⟨unit, inside, same.symm.trans full⟩
  · intro reached
    have bounded : block.getNextWritePageIndex ≤ cfg.pagesInBlock := by
      rcases block.getNextWritePageIndex_eq with zero | ⟨unit, _, same⟩
      · rw [zero]
        exact Nat.zero_le _
      · rw [same]
        exact sized.nextWritePage_le unit
    rcases reached with zero | ⟨unit, inside, same⟩
    · rw [zero] at bounded ⊢
      exact Nat.le_zero.mp bounded
    · refine Nat.le_antisymm bounded ?_
      rw [← same]
      exact block.nextWritePage_le_getNextWritePageIndex inside

theorem Block.Sized.revised (sized : block.Sized cfg)
    (revised : block.Revised version) : version.Sized cfg where
  pageCount_eq := revised.pageCount_eq.trans sized.pageCount_eq
  ioUnitInPage_eq := revised.ioUnitInPage_eq.trans sized.ioUnitInPage_eq
  nextWritePage_le := by
    rw [revised.nextWritePage_eq]
    exact sized.nextWritePage_le

theorem Block.Sized.write (sized : block.Sized cfg) {pageIndex lpn idx : Nat}
    (written : block.write pageIndex lpn idx = .ok version) :
    version.Sized cfg ∧
      ∀ unit, block.nextWritePage unit ≤ version.nextWritePage unit := by
  unfold Block.write at written
  split_ifs at written with unitOut pageOut erased passed
  cases written
  have inside := Nat.not_le.mp pageOut
  rw [sized.pageCount_eq] at inside
  refine ⟨⟨sized.pageCount_eq, sized.ioUnitInPage_eq, ?_⟩, ?_⟩
  · intro unit
    dsimp only
    by_cases same : unit = idx
    · subst same
      rw [Function.update_self]
      exact inside
    · rw [Function.update_of_ne same]
      exact sized.nextWritePage_le unit
  · intro unit
    dsimp only
    by_cases same : unit = idx
    · subst same
      rw [Function.update_self]
      omega
    · rw [Function.update_of_ne same]

theorem Block.Sized.full_of_le (sized : block.Sized cfg)
    (later : version.Sized cfg)
    (ahead : ∀ unit, block.nextWritePage unit ≤ version.nextWritePage unit)
    (full : block.Full cfg) : version.Full cfg := by
  rcases sized.full_iff.mp full with zero | ⟨unit, inside, same⟩
  · exact later.full_iff.mpr (.inl zero)
  · refine later.full_iff.mpr (.inr ⟨unit, inside, ?_⟩)
    exact Nat.le_antisymm (later.nextWritePage_le unit) (same ▸ ahead unit)

theorem Slotted.agree (slotted : Slotted cfg state)
    (blocks_eq : updated.blocks = state.blocks)
    (free_eq : updated.free = state.free)
    (slots_eq : (updated.active .plain).blocks = (state.active .plain).blocks) :
    Slotted cfg updated where
  unused := free_eq ▸ slotted.unused
  sized := blocks_eq ▸ slotted.sized
  rested := free_eq ▸ slotted.rested
  listed := by
    rw [blocks_eq, slots_eq]
    exact slotted.listed

theorem Slotted.touch (slotted : Slotted cfg state)
    (found : state.blocks.lookup blockIndex = some block)
    (sized : version.Sized cfg)
    (ahead : ∀ unit, block.nextWritePage unit ≤ version.nextWritePage unit) :
    Slotted cfg (state.setBlock blockIndex version) where
  unused := slotted.unused
  sized := by
    intro other later lookup
    rw [State.lookup_setBlock] at lookup
    split at lookup
    · cases lookup
      exact sized
    · exact slotted.sized other later lookup
  rested := slotted.rested
  listed := by
    intro other later lookup
    rw [State.lookup_setBlock] at lookup
    split at lookup
    · next same =>
        cases lookup
        rcases slotted.listed blockIndex block found with full | slot
        · exact .inl ((slotted.sized blockIndex block found).full_of_le sized
            ahead full)
        · exact .inr (same ▸ slot)
    · exact slotted.listed other later lookup

/-- A free block has taken the place of an entry of `lastFreeBlock`. -/
structure Seats (index : Nat) (before after : State) : Prop where
  taken : ∃ block ∈ (before.free .plain).blocks,
    after.blocks = (before.setBlock block.idx
      { block with refreshedPageCount := 0 }).blocks ∧
    (after.active .plain).blocks =
      (before.active .plain).blocks.set index block.idx
  free : ∀ pool,
    (after.free pool).blocks.Sublist (before.free pool).blocks
  retired_eq : after.retired = before.retired

/-- The blocks with room that the entry named are named by other ones. -/
theorem Slotted.seat (slotted : Slotted cfg state) {index : Nat}
    (seats : Seats index state updated)
    (inside : index < (state.active .plain).blocks.length)
    (kept : ∀ other block, state.blocks.lookup other = some block →
      block.Full cfg ∨ ∃ position, position ≠ index ∧
        (state.active .plain).blocks[position]? = some other) :
    Slotted cfg updated := by
  obtain ⟨⟨block, member, blocks_eq, slots_eq⟩, free, _⟩ := seats
  refine ⟨?_, ?_, ?_, ?_⟩
  · intro pool separate
    exact List.sublist_nil.mp (slotted.unused pool separate ▸ free pool)
  · intro other later lookup
    rw [blocks_eq, State.lookup_setBlock] at lookup
    split at lookup
    · cases lookup
      have sized := slotted.rested block member
      exact ⟨sized.pageCount_eq, sized.ioUnitInPage_eq, sized.nextWritePage_le⟩
    · exact slotted.sized other later lookup
  · exact fun other rests => slotted.rested other ((free .plain).subset rests)
  · intro other later lookup
    rw [blocks_eq, State.lookup_setBlock] at lookup
    rw [slots_eq]
    split at lookup
    · next same =>
        rw [same]
        exact .inr (List.mem_set inside _)
    · rcases kept other later lookup with full | ⟨position, different, named⟩
      · exact .inl full
      · refine .inr (List.mem_iff_getElem?.mpr ⟨position, ?_⟩)
        rw [List.getElem?_set_ne (Ne.symm different), named]

theorem Slotted.drop (slotted : Slotted cfg state)
    (before : ∀ other later, updated.blocks.lookup other = some later →
      state.blocks.lookup other = some later)
    (unused : ∀ pool, pool ≠ .plain → (updated.free pool).blocks = [])
    (rested : ∀ block ∈ (updated.free .plain).blocks, block.Sized cfg)
    (slots_eq : (updated.active .plain).blocks =
      (state.active .plain).blocks) : Slotted cfg updated := by
  refine ⟨unused, ?_, rested, ?_⟩
  · exact fun other later lookup => slotted.sized other later
      (before other later lookup)
  · rw [slots_eq]
    exact fun other later lookup => slotted.listed other later
      (before other later lookup)

theorem seatSlot_seats (index : Nat) :
    Meets (seatSlot cfg .plain index) state
      (fun _ final => Seats index state final) fun _ _ => True := by
  unfold seatSlot getBlockFor getFreeBlock
  simp only [bind_assoc]
  refine ((Custody.takeFreeBlock_takes .plain _ _ index).mono
    (fun _ _ post => post) fun _ _ _ => trivial).bind ?_
  intro blockIndex final post
  obtain ⟨block, member, same, took⟩ := post
  subst same took
  refine Meets.bindOk (run_updateBlock (AList.lookup_insert _) _) ?_
  refine ⟨⟨block, member, AList.insert_insert .., rfl⟩, ?_, rfl⟩
  intro pool
  change (Function.update state.free .plain _ pool).blocks.Sublist _
  by_cases plain : pool = .plain
  · subst plain
    rw [Function.update_self]
    exact List.eraseP_sublist
  · rw [Function.update_of_ne plain]

theorem seatSlot_unused (slotted : Slotted cfg state) {pool : ActivePool}
    (separate : pool ≠ .plain) (index : Nat) :
    Meets (seatSlot cfg pool index) state (fun _ _ => False)
      fun _ _ => True := by
  have nothing : ∀ (free : FreePool), free ≠ .plain →
      ∀ noneLeft inUse, Meets (takeFreeBlock cfg free noneLeft inUse index) state
        (fun _ _ => False) fun _ _ => True := by
    intro free other noneLeft inUse
    refine (Custody.takeFreeBlock_takes free noneLeft inUse index).mono ?_
      fun _ _ _ => trivial
    intro _ _ post
    obtain ⟨block, member, _⟩ := post
    rw [slotted.unused free other] at member
    cases member
  have gets : Meets (getBlockFor cfg pool index) state (fun _ _ => False)
      fun _ _ => True := by
    cases pool with
    | plain => exact absurd rfl separate
    | hot =>
        refine (nothing .hot (by decide) _ _).bind ?_
        exact fun _ _ never => never.elim
    | cool =>
        refine (nothing .cold (by decide) _ _).bind ?_
        exact fun _ _ never => never.elim
    | cold =>
        refine (nothing .cold (by decide) _ _).bind ?_
        exact fun _ _ never => never.elim
  refine gets.bind ?_
  exact fun _ _ never => never.elim

theorem eraseInternal_slotted (victim : Nat) :
    Keeps (Slotted cfg) (fun _ => True) (eraseInternal cfg victim) := by
  intro state slotted
  unfold eraseInternal
  cases found : state.blocks.lookup victim with
  | none => exact Meets.bindError (run_findBlock_none found) trivial
  | some block =>
      refine Meets.bindOk (run_findBlock found) ?_
      split
      · exact trivial
      refine Meets.bindOk (run_updateBlock found _) ?_
      have sized := slotted.sized victim block found
      have wiped : block.erase.Sized cfg :=
        ⟨sized.pageCount_eq, sized.ioUnitInPage_eq, fun _ => Nat.zero_le _⟩
      have here : (state.setBlock victim block.erase).blocks.lookup victim =
          some block.erase := AList.lookup_insert _
      have gone : ∀ other later,
          ((state.setBlock victim block.erase).blocks.erase victim).lookup
            other = some later → state.blocks.lookup other = some later := by
        intro other later lookup
        by_cases same : other = victim
        · subst same
          rw [AList.lookup_erase] at lookup
          cases lookup
        · rwa [AList.lookup_erase_ne same, State.lookup_setBlock,
            if_neg same] at lookup
      dsimp only
      split
      · unfold searchPosition
        rw [bind_assoc]
        apply meets_bind.mpr
        apply meets_get.mpr
        split
        · exact trivial
        refine Meets.bindOk rfl ?_
        cases emplaced : emplaceBefore (freePosition block.erase.eraseCount
            ((state.setBlock victim block.erase).free .plain).blocks)
            block.erase
            ((state.setBlock victim block.erase).free .plain).blocks with
        | error raised =>
            exact Meets.bindError (run_emplaceFree_error here emplaced) trivial
        | ok placed =>
            refine Meets.bindOk (run_emplaceFree here emplaced) ?_
            refine slotted.drop gone ?_ ?_ rfl
            · intro pool separate
              change (Function.update state.free .plain _ pool).blocks = []
              rw [Function.update_of_ne separate]
              exact slotted.unused pool separate
            · intro other rests
              change other ∈ (Function.update state.free .plain _
                .plain).blocks at rests
              rw [Function.update_self] at rests
              rcases List.mem_cons.mp
                ((emplaceBefore_perm emplaced).mem_iff.mp rests) with
                same | old
              · exact same ▸ wiped
              · exact slotted.rested other old
      · exact slotted.drop gone slotted.unused slotted.rested rfl

theorem slotted_upkeep (off : cfg.hotColdSeparation = false) :
    Upkeep cfg (Slotted cfg) fun _ => True where
  fails := fun _ _ => trivial
  agree := fun slotted blocks_eq free_eq slots_eq _ _ _ =>
    slotted.agree blocks_eq free_eq (slots_eq .plain)
  revise := fun slotted found revised =>
    slotted.touch found ((slotted.sized _ _ found).revised revised)
      fun unit => (congrFun revised.nextWritePage_eq unit).ge
  write := by
    intro state blockIndex block version pageIndex lpn idx slotted found written
    obtain ⟨sized, ahead⟩ := (slotted.sized _ _ found).write written
    exact slotted.touch found sized ahead
  refresh := by
    intro source state slotted
    unfold noteRefreshed
    rw [if_pos rfl]
    cases found : state.blocks.lookup source with
    | none =>
        unfold updateBlock
        apply meets_bind.mpr
        exact Meets.bindError (run_findBlock_none found) trivial
    | some block =>
        refine Meets.bindOk (run_updateBlock found _) ?_
        have sized := slotted.sized source block found
        have touched : Slotted cfg (state.setBlock source { block with
            refreshedPageCount := block.refreshedPageCount + 1 }) :=
          slotted.touch found ⟨sized.pageCount_eq, sized.ioUnitInPage_eq,
            sized.nextWritePage_le⟩ fun _ => Nat.le_refl _
        exact touched.agree rfl rfl rfl
  refill := by
    intro state pool old block slotted slot found full
    unfold refillSlot
    apply meets_bind.mpr
    apply meets_get.mpr
    by_cases plain : pool = .plain
    · subst plain
      refine (seatSlot_seats _).bind ?_
      intro _ seated seats
      have inside := (List.getElem?_eq_some_iff.mp slot).1
      refine Slotted.agree (slotted.seat seats inside ?_) rfl rfl rfl
      intro other later lookup
      rcases slotted.listed other later lookup with full | listed
      · exact .inl full
      · obtain ⟨position, named⟩ := List.mem_iff_getElem?.mp listed
        by_cases here : position = (state.active .plain).index
        · rw [here, slot] at named
          cases named
          rw [found] at lookup
          cases lookup
          exact .inl full
        · exact .inr ⟨position, here, named⟩
    · refine (seatSlot_unused slotted plain _).bind ?_
      exact fun _ _ never => never.elim
  erase := fun _ => eraseInternal_slotted
  sepErase := fun on => by
    rw [off] at on
    cases on

/-- What the constructor leaves: empty blocks, of which those in use have a
slot. -/
structure Fresh (state : State) : Prop where
  rested : ∀ block ∈ (state.free .plain).blocks, block.Empty
  empty : ∀ blockIndex block, state.blocks.lookup blockIndex = some block →
    block.Empty ∧ blockIndex ∈ (state.active .plain).blocks
  retired_eq : state.retired = []

structure Seating (cfg : Config) (remaining : List Nat) (state : State) :
    Prop where
  slotted : Slotted cfg state
  length_eq : (state.active .plain).blocks.length = cfg.pageCountToMaxPerf
  nodup : remaining.Nodup
  inside : ∀ index ∈ remaining, index < cfg.pageCountToMaxPerf
  rested : ∀ block ∈ (state.free .plain).blocks, block.Empty
  placed : ∀ blockIndex block, state.blocks.lookup blockIndex = some block →
    block.Empty ∧ ∃ position, position ∉ remaining ∧
      (state.active .plain).blocks[position]? = some blockIndex
  retired_eq : state.retired = []

theorem seating_blank (off : cfg.hotColdSeparation = false) :
    Seating cfg (List.range cfg.pageCountToMaxPerf) (blankState cfg) where
  slotted := by
    have nothing : ∀ blockIndex,
        (blankState cfg).blocks.lookup blockIndex = none := fun _ => rfl
    refine ⟨?_, by simp [nothing], ?_, by simp [nothing]⟩
    · intro pool separate
      cases pool with
      | plain => exact absurd rfl separate
      | hot => simp [blankState, off]
      | cold => simp [blankState, off]
    · intro block member
      obtain ⟨idx, blockType, made, _⟩ := blankState_free cfg .plain block member
      subst made
      exact ⟨rfl, rfl, fun _ => Nat.zero_le _⟩
  length_eq := List.length_replicate
  nodup := List.nodup_range
  inside := fun _ => List.mem_range.mp
  rested := by
    intro block member
    obtain ⟨idx, blockType, made, _⟩ := blankState_free cfg .plain block member
    subst made
    exact ⟨fun _ => rfl, fun _ _ => rfl⟩
  placed := fun _ _ found => by cases found
  retired_eq := rfl

theorem Seating.seat {index : Nat} {rest : List Nat}
    (seating : Seating cfg (index :: rest) state)
    (seats : Seats index state updated) : Seating cfg rest updated := by
  obtain ⟨fresh, nodup⟩ := List.nodup_cons.mp seating.nodup
  have inside : index < (state.active .plain).blocks.length := by
    rw [seating.length_eq]
    exact seating.inside index (.head _)
  obtain ⟨block, member, blocks_eq, slots_eq⟩ := seats.taken
  refine ⟨seating.slotted.seat seats inside ?_, ?_, nodup,
    fun other later => seating.inside other (.tail _ later), ?_, ?_, ?_⟩
  · intro other block lookup
    obtain ⟨_, position, outside, named⟩ := seating.placed other block lookup
    exact .inr ⟨position, fun same => outside (same ▸ .head _), named⟩
  · rw [slots_eq, List.length_set, seating.length_eq]
  · exact fun other rests =>
      seating.rested other ((seats.free .plain).subset rests)
  · intro other later lookup
    rw [blocks_eq, State.lookup_setBlock] at lookup
    rw [slots_eq]
    split at lookup
    · next same =>
        cases lookup
        obtain ⟨next, valid⟩ := seating.rested block member
        rw [same]
        exact ⟨⟨next, valid⟩, index, fresh, List.getElem?_set_self inside⟩
    · obtain ⟨empty, position, outside, named⟩ :=
        seating.placed other later lookup
      have different : index ≠ position := by
        intro same
        exact outside (same ▸ .head _)
      refine ⟨empty, position, fun listed => outside (.tail _ listed), ?_⟩
      rw [List.getElem?_set_ne different, named]
  · rw [seats.retired_eq, seating.retired_eq]

theorem construct_fresh (off : cfg.hotColdSeparation = false) :
    Meets (construct cfg) (blankState cfg)
      (fun _ state => Slotted cfg state ∧ Fresh state) fun _ _ => True := by
  have single : activePools cfg = [.plain] := by simp [activePools, off]
  unfold construct
  refine (Meets.forM (Seating cfg) (seating_blank off) ?_).mono ?_
    fun _ _ failed => failed
  · intro index rest reached seating
    rw [single]
    exact (seatSlot_seats index).bind fun _ _ seats => seating.seat seats
  · intro _ state seating
    refine ⟨seating.slotted, seating.rested, ?_, seating.retired_eq⟩
    intro blockIndex block lookup
    obtain ⟨empty, position, _, named⟩ := seating.placed blockIndex block lookup
    exact ⟨empty, List.mem_iff_getElem?.mpr ⟨position, named⟩⟩

theorem construct_slotted (off : cfg.hotColdSeparation = false) :
    Meets (construct cfg) (blankState cfg) (fun _ state => Slotted cfg state)
      fun _ _ => True :=
  (construct_fresh off).mono (fun _ _ built => built.1) fun _ _ failed => failed

end Slotted

/-! The blocks to choose from. -/

def fullBlocks (cfg : Config) (state : State) : List Nat :=
  state.blocks.keys.filter fun blockIndex =>
    (state.blocks.lookup blockIndex).any fun block => isFull cfg block

def openBlocks (cfg : Config) (state : State) : List Nat :=
  (state.active .plain).blocks.dedup.filter fun blockIndex =>
    (state.blocks.lookup blockIndex).any fun block => !isFull cfg block

section Counting

variable {cfg : Config} {env : Environment} {state : State}

theorem candidates_length :
    (candidates env (isFull cfg) state).length =
      (fullBlocks cfg state).length := by
  unfold candidates fullBlocks
  rw [List.length_filterMap_eq_countP, ← List.countP_eq_length_filter,
    (env.iterate_perm _ _).countP_eq]
  refine List.countP_congr ?_
  intro blockIndex _
  cases state.blocks.lookup blockIndex with
  | none => rfl
  | some block =>
      dsimp only
      split <;> simp_all

/-- With separation off every block is full, open, free or retired. -/
theorem fullBlocks_add (off : cfg.hotColdSeparation = false)
    (pools : Pools cfg state) (slotted : Slotted cfg state) :
    (fullBlocks cfg state).length + (openBlocks cfg state).length +
      (state.free .plain).count + state.retired.length =
        cfg.totalPhysicalBlocks := by
  have total := pools.homes_perm.length_eq
  have free : (freeIndices state).length = (state.free .plain).count := by
    rw [pools.counted .plain (by simp [freePools, off])]
    unfold freeIndices FreeList.indices
    rw [slotted.unused .hot (by decide), slotted.unused .cold (by decide)]
    simp
  have opened : (state.blocks.keys.filter fun blockIndex =>
      !((state.blocks.lookup blockIndex).any fun block =>
        isFull cfg block)).Perm (openBlocks cfg state) := by
    refine (List.perm_ext_iff_of_nodup ((AList.keys_nodup _).filter _)
      ((List.nodup_dedup _).filter _)).mpr ?_
    intro blockIndex
    rw [List.mem_filter, List.mem_filter, List.mem_dedup, ← State.inUse_iff_mem_keys]
    unfold State.InUse
    cases found : state.blocks.lookup blockIndex with
    | none => simp
    | some block =>
        simp only [Option.any_some, Bool.not_eq_true', Option.some.injEq,
          exists_eq', true_and]
        constructor
        · intro room
          refine ⟨(slotted.listed blockIndex block found).resolve_left ?_, room⟩
          intro full
          exact of_decide_eq_false room full
        · exact fun listed => listed.2
  unfold homes at total
  rw [List.length_append, List.length_append, free, List.length_range,
    List.length_eq_length_filter_add fun blockIndex =>
      (state.blocks.lookup blockIndex).any fun block => isFull cfg block,
    opened.length_eq] at total
  exact total

theorem openBlocks_le (pools : Pools cfg state) :
    (openBlocks cfg state).length ≤ cfg.pageCountToMaxPerf :=
  calc (openBlocks cfg state).length
      ≤ (state.active .plain).blocks.dedup.length := List.length_filter_le _ _
    _ ≤ (state.active .plain).blocks.length :=
        (List.dedup_sublist _).length_le
    _ = cfg.pageCountToMaxPerf := pools.slots .plain

theorem weights_length {weights : List (Nat × Nat)}
    (weighed : calculateVictimWeight cfg env state = .ok weights) :
    weights.length = (fullBlocks cfg state).length := by
  rw [← @candidates_length cfg env state]
  unfold calculateVictimWeight at weighed
  dsimp only at weighed
  split at weighed <;> cases weighed <;> rw [List.length_map]

end Counting

/-! The sampling loop. -/

/-- `while (selected.size() < randomRange)`, on a sequence of drawn indices.  A
candidate that is drawn is marked, which `selected` stands for. -/
def sampleLoop (size randomRange : Nat) :
    (draws selected : List Nat) → Except Panic (List Nat)
  | [], selected =>
      if selected.length < randomRange then .error .endlessSampling
      else .ok selected
  | idx :: rest, selected =>
      if selected.length < randomRange then
        if size ≤ idx then .error .outOfRange
        else if idx ∈ selected then sampleLoop size randomRange rest selected
        else sampleLoop size randomRange rest (selected ++ [idx])
      else .ok selected

/-- What `dist(0, weight.size() - 1)` can draw. -/
def Drawable (size idx : Nat) : Prop :=
  if size = 0 then idx < 2 ^ 64 else idx < size

def randomRange (cfg : Config) (env : Environment) (state : State) :
    Except Panic Nat := do
  let reclaim ← blocksToReclaim cfg env .plain state
  let nBlocks := if state.bReclaimMore then reclaim + cfg.pageCountToMaxPerf
    else reclaim
  return if cfg.evictPolicy = .dChoice then cfg.dChoiceParam * nBlocks
    else nBlocks

/-- What the sampling asks for at most when `freeBlocks` are free: a slot has been
filled up since the last selection. -/
def mostSamples (cfg : Config) (env : Environment) (freeBlocks : Nat) : Nat :=
  let reclaim := match cfg.gcMode with
    | .mode1 => env.reclaimTarget .plain freeBlocks
    | .mode0 | .invalid => cfg.reclaimBlock
  let nBlocks := reclaim + cfg.pageCountToMaxPerf
  if cfg.evictPolicy = .dChoice then cfg.dChoiceParam * nBlocks else nBlocks

/-- At every number of free blocks that calls for a collection there are blocks to
sample, also with room in every slot and with `worn` blocks retired. -/
def SparesSamples (cfg : Config) (env : Environment) (worn : Nat) : Prop :=
  ∀ freeBlocks, env.belowGCThreshold .plain freeBlocks = true →
    max 1 (mostSamples cfg env freeBlocks) + cfg.pageCountToMaxPerf +
      freeBlocks + worn ≤ cfg.totalPhysicalBlocks

/-- There are full blocks, as many as the sampling asks for; the loop stays
inside of the weight vector, can end, and the selection returns. -/
structure Samplable (cfg : Config) (env : Environment) (state : State)
    (amount : Nat) : Prop where
  positive : 0 < (fullBlocks cfg state).length
  enough : amount ≤ (fullBlocks cfg state).length
  inside : ∀ weights, calculateVictimWeight cfg env state = .ok weights →
    ∀ draws, (∀ idx ∈ draws, Drawable weights.length idx) →
      sampleLoop weights.length amount draws [] ≠ .error .outOfRange
  finishes : ∀ weights, calculateVictimWeight cfg env state = .ok weights →
    ∃ draws selected, (∀ idx ∈ draws, Drawable weights.length idx) ∧
      sampleLoop weights.length amount draws [] = .ok selected ∧
      selected.length = amount
  selects : ∃ victims final,
    (selectVictimBlock cfg env).run state = .ok victims final

theorem randomRange_le {cfg : Config} {env : Environment} {state : State}
    {amount : Nat} (asked : randomRange cfg env state = .ok amount) :
    amount ≤ mostSamples cfg env (state.free .plain).count := by
  have reclaims : ∀ {reclaim}, blocksToReclaim cfg env .plain state =
      .ok reclaim → (if cfg.evictPolicy = .dChoice
        then cfg.dChoiceParam * (reclaim + cfg.pageCountToMaxPerf)
        else reclaim + cfg.pageCountToMaxPerf) =
          mostSamples cfg env (state.free .plain).count := by
    intro reclaim reclaims
    unfold blocksToReclaim at reclaims
    unfold mostSamples
    split at reclaims
    · next zero => cases reclaims; rw [zero]
    · next one => cases reclaims; rw [one]
    · cases reclaims
  unfold randomRange at asked
  cases found : blocksToReclaim cfg env .plain state with
  | error raised =>
      rw [found] at asked
      cases asked
  | ok reclaim =>
      rw [found] at asked
      cases asked
      rw [← reclaims found]
      have grown : (if state.bReclaimMore then reclaim + cfg.pageCountToMaxPerf
          else reclaim) ≤ reclaim + cfg.pageCountToMaxPerf := by
        split <;> omega
      split
      · exact Nat.mul_le_mul_left _ grown
      · exact grown

section Loop

variable {cfg : Config} {env : Environment} {state : State} {size amount : Nat}

theorem sampleLoop_inside {draws selected : List Nat}
    (below : ∀ idx ∈ draws, idx < size) :
    sampleLoop size amount draws selected ≠ .error .outOfRange := by
  induction draws generalizing selected with
  | nil =>
      unfold sampleLoop
      split <;> nofun
  | cons idx rest induction =>
      have later : ∀ other ∈ rest, other < size :=
        fun other member => below other (.tail _ member)
      unfold sampleLoop
      rw [if_neg (Nat.not_le.mpr (below idx (.head _)))]
      split
      · split
        · exact induction later
        · exact induction later
      · nofun

theorem sampleLoop_distinct {draws selected : List Nat}
    (below : ∀ idx ∈ draws, idx < size) (nodup : draws.Nodup)
    (fresh : ∀ idx ∈ draws, idx ∉ selected)
    (count : selected.length + draws.length = amount) :
    sampleLoop size amount draws selected = .ok (selected ++ draws) := by
  induction draws generalizing selected with
  | nil =>
      unfold sampleLoop
      rw [List.length_nil] at count
      rw [if_neg (by omega), List.append_nil]
  | cons idx rest induction =>
      obtain ⟨different, nodup'⟩ := List.nodup_cons.mp nodup
      rw [List.length_cons] at count
      unfold sampleLoop
      rw [if_pos (by omega), if_neg (Nat.not_le.mpr (below idx (.head _))),
        if_neg (fresh idx (.head _)), induction ?_ nodup' ?_ ?_,
        List.append_assoc]
      · rfl
      · exact fun other member => below other (.tail _ member)
      · intro other member listed
        rcases List.mem_append.mp listed with old | new
        · exact fresh other (.tail _ member) old
        · exact different (List.mem_singleton.mp new ▸ member)
      · rw [List.length_append, List.length_singleton]
        omega

theorem samplable_of_enough
    (policy : cfg.evictPolicy = .random ∨ cfg.evictPolicy = .dChoice)
    (asked : randomRange cfg env state = .ok amount)
    (positive : 0 < (fullBlocks cfg state).length)
    (enough : amount ≤ (fullBlocks cfg state).length) :
    Samplable cfg env state amount where
  positive := positive
  enough := enough
  inside := by
    intro weights weighed draws drawn
    have length_eq := weights_length weighed
    refine sampleLoop_inside fun idx member => ?_
    have here := drawn idx member
    unfold Drawable at here
    rwa [if_neg (by omega)] at here
  finishes := by
    intro weights weighed
    have length_eq := weights_length weighed
    have below : ∀ idx ∈ List.range amount, idx < weights.length := by
      intro idx member
      have := List.mem_range.mp member
      omega
    refine ⟨List.range amount, List.range amount, ?_, ?_, List.length_range⟩
    · intro idx member
      unfold Drawable
      rw [if_neg (by omega)]
      exact below idx member
    · exact sampleLoop_distinct below List.nodup_range (fun _ _ => nofun)
        (by rw [List.length_nil, List.length_range, Nat.zero_add])
  selects := by
    obtain ⟨reclaim, reclaims⟩ : ∃ reclaim,
        blocksToReclaim cfg env .plain state = .ok reclaim := by
      cases reclaims : blocksToReclaim cfg env .plain state with
      | error raised =>
          unfold randomRange at asked
          rw [reclaims] at asked
          cases asked
      | ok reclaim => exact ⟨reclaim, rfl⟩
    unfold randomRange at asked
    rw [reclaims] at asked
    have weighed : ∃ weights, calculateVictimWeight cfg env state =
        .ok weights := by
      unfold calculateVictimWeight
      rcases policy with random | choice
      · rw [random]
        exact ⟨_, rfl⟩
      · rw [choice]
        exact ⟨_, rfl⟩
    obtain ⟨weights, weighed⟩ := weighed
    have length_eq := weights_length weighed
    have sampled : ∃ sample, sampledWeights cfg env
        (if state.bReclaimMore then reclaim + cfg.pageCountToMaxPerf
          else reclaim) state weights = .ok sample := by
      cases asked
      unfold sampledWeights sampleWeights
      rcases policy with random | choice
      · rw [random] at enough ⊢
        dsimp only
        rw [if_neg (by simpa [length_eq] using enough)]
        exact ⟨_, rfl⟩
      · rw [choice] at enough ⊢
        dsimp only
        rw [if_neg (by simpa [length_eq] using enough)]
        exact ⟨_, rfl⟩
    obtain ⟨sample, sampled⟩ := sampled
    have victims : ∃ victims, victimsOf cfg env state = .ok victims := by
      unfold victimsOf
      rw [reclaims]
      dsimp only [bind, Except.bind]
      rw [weighed]
      dsimp only
      rw [sampled]
      exact ⟨_, rfl⟩
    obtain ⟨victims, chosen⟩ := victims
    refine ⟨victims, { state with
      bReclaimMore := false
      selections := state.selections + 1 }, ?_⟩
    unfold selectVictimBlock
    rw [EStateM.run_bind, EStateM.run_get]
    dsimp only
    rw [chosen]
    rfl

end Loop

inductive CallsSelection (cfg : Config) (env : Environment) (state : State) :
    Op → State → Prop
  | write (asked : 0 < flag.count cfg.ioUnitInPage)
      (places : (placePage cfg env lpn flag).run state = .ok () placed)
      (below : env.belowGCThreshold .plain (placed.free .plain).count = true) :
      CallsSelection cfg env state (.write lpn flag) placed
  | refresh (opens : openQueue.run state = .ok target opened)
      (below : env.belowGCThreshold .plain (opened.free .plain).count = true) :
      CallsSelection cfg env state .refresh opened
  | refreshed (pops : (popLayers cfg env cfg.refreshMaxLayerNum).run state =
        .ok target popped)
      (below : env.belowGCThreshold .plain (popped.free .plain).count = true) :
      CallsSelection cfg env state .refresh popped

section Calls

variable {cfg : Config} {env : Environment} {state called : State} {op : Op}

theorem CallsSelection.below (calls : CallsSelection cfg env state op called) :
    env.belowGCThreshold .plain (called.free .plain).count = true := by
  cases calls with
  | write asked places below => exact below
  | refresh opens below => exact below
  | refreshed pops below => exact below

theorem CallsSelection.holds (calls : CallsSelection cfg env state op called)
    (off : cfg.hotColdSeparation = false) {mapped : Set (Nat × Nat)}
    (sound : (machine cfg env .all).sound (.rest mapped, state))
    (slotted : Slotted cfg state) : Pools cfg called ∧ Slotted cfg called := by
  have upkeep := slotted_upkeep off
  cases calls with
  | write asked places below =>
      have placed := rest_sound (placePage_follows _ _ off) sound places
      have keeps : ∀ lpn flag, Keeps (Slotted cfg) (fun _ => True)
          (placePage cfg env lpn flag) := fun lpn flag =>
        (upkeep.openMapping lpn flag).bind fun _ =>
          (upkeep.getLastBlock .plain flag).bind fun _ =>
            (upkeep.findBlock _ _).bind fun _ => upkeep.programUnits _ _ _ _
      exact ⟨placed.1, (keeps _ _ state slotted).of_ok places⟩
  | refresh opens below =>
      have opened := rest_sound (openQueue_follows trivial trivial) sound opens
      obtain ⟨_, same⟩ := openQueue_returns opens
      subst same
      exact ⟨opened.1, slotted.agree rfl rfl rfl⟩
  | refreshed pops below =>
      have popped := rest_sound (popLayers_follows _ trivial trivial) sound pops
      refine ⟨popped.1, ?_⟩
      unfold popLayers at pops
      obtain ⟨_, opened, opens, pops⟩ := run_bind_ok pops
      obtain ⟨_, same⟩ := openQueue_returns opens
      have slotted' : Slotted cfg opened := by
        subst same
        exact slotted.agree rfl rfl rfl
      have keeps : ∀ target : Nat, Keeps (Slotted cfg) (fun _ => True) (do
          refreshGC cfg env
          refreshLayers cfg env target cfg.refreshMaxLayerNum
          return target) := fun target =>
        upkeep.refreshGC.bind fun _ => (upkeep.refreshLayers target _).bind
          fun _ => Keeps.pure target
      exact (keeps _ opened slotted').of_ok pops

/-- Wherever victims are sampled in a run that retires few blocks, the sampling
can end, if the configuration leaves blocks to sample at each number of free
blocks that calls for a collection. -/
theorem sampling_finishes (cfg : Config) (env : Environment)
    (off : cfg.hotColdSeparation = false)
    (policy : cfg.evictPolicy = .random ∨ cfg.evictPolicy = .dChoice)
    (worn : Nat) (spares : SparesSamples cfg env worn)
    (ops : List Op) (state : State)
    (result : outcome cfg env ops = .ok () state) (op : Op) (called : State)
    (calls : CallsSelection cfg env state op called)
    (few : called.retired.length ≤ worn) (amount : Nat)
    (asked : randomRange cfg env called = .ok amount) :
    Samplable cfg env called amount := by
  have sound : (machine cfg env .all).sound (.rest _, state) :=
    (outcome_meets cfg env ops).of_ok result
  have slotted : Slotted cfg state :=
    ((slotted_upkeep off).life (construct_slotted off) ops).of_ok result
  obtain ⟨pools, slotted⟩ := calls.holds off sound slotted
  -- every block is full, open, free or retired
  have total := fullBlocks_add off pools slotted
  have opened := openBlocks_le pools
  have most := randomRange_le asked
  have spare := spares _ calls.below
  exact samplable_of_enough policy asked (by omega) (by omega)

end Calls

/-! Four blocks of two pages, of which the fifth write takes the third one. -/

def randomConfig : Config :=
  { twoPageConfig with
    ioUnitInPage_pos := Nat.one_pos
    pageCountToMaxPerf_pos := Nat.one_pos
    hotBlocksLimit_le := Nat.le_of_ble_eq_true rfl
    evictPolicy := .random }

def choiceConfig : Config :=
  { twoPageConfig with
    ioUnitInPage_pos := Nat.one_pos
    pageCountToMaxPerf_pos := Nat.one_pos
    hotBlocksLimit_le := Nat.le_of_ble_eq_true rfl
    evictPolicy := .dChoice }

def fourWrites : List Op :=
  [.initializeFTL, writePage 0, writePage 1, writePage 2, writePage 3]

/-- Tests the samples that the selection of a fifth write asks for, and the
members that it is called with. -/
def fifthWrite (cfg : Config) (env : Environment)
    (test : Nat → State → Bool) : Bool :=
  match outcome cfg env fourWrites with
  | .error _ _ => false
  | .ok _ state =>
      match (placePage cfg env 0 IOFlag.all).run state with
      | .error _ _ => false
      | .ok _ placed =>
          env.belowGCThreshold .plain (placed.free .plain).count &&
            match randomRange cfg env placed with
            | .error _ => false
            | .ok amount => test amount placed

theorem fifthWrite_calls {cfg : Config} {env : Environment}
    {test : Nat → State → Bool} (asked : 0 < cfg.ioUnitInPage)
    (passed : fifthWrite cfg env test = true) :
    ∃ state called amount, outcome cfg env fourWrites = .ok () state ∧
      CallsSelection cfg env state (writePage 0) called ∧
      randomRange cfg env called = .ok amount ∧ test amount called = true := by
  unfold fifthWrite at passed
  split at passed
  · cases passed
  · next state result =>
      split at passed
      · cases passed
      · next called places =>
          obtain ⟨below, passed⟩ := (Bool.and_eq_true _ _).mp passed
          split at passed
          · cases passed
          · next amount samples =>
              refine ⟨state, called, amount, result, ?_, samples, passed⟩
              refine .write ?_ places below
              refine List.countP_pos_iff.mpr ⟨0, List.mem_range.mpr asked, rfl⟩

/-- Two samples of the two full blocks. -/
theorem sampling_finishes_random :
    ∃ state called, outcome randomConfig (halfEnvironment randomConfig)
        fourWrites = .ok () state ∧
      CallsSelection randomConfig (halfEnvironment randomConfig) state
        (writePage 0) called ∧
      Samplable randomConfig (halfEnvironment randomConfig) called 2 := by
  have evaluated : fifthWrite randomConfig (halfEnvironment randomConfig)
      (fun amount called => amount = 2 ∧ called.retired.length ≤ 0) = true := by
    decide +kernel
  obtain ⟨state, called, amount, result, calls, asked, test⟩ :=
    fifthWrite_calls Nat.one_pos evaluated
  obtain ⟨same, few⟩ := of_decide_eq_true test
  subst same
  refine ⟨state, called, result, calls, ?_⟩
  refine sampling_finishes randomConfig (halfEnvironment randomConfig) rfl
    (.inl rfl) 0 ?_ fourWrites state result _ called calls few 2 asked
  intro freeBlocks below
  have half : 2 * freeBlocks < 4 := of_decide_eq_true below
  show max 1 2 + 1 + freeBlocks + 0 ≤ 4
  omega

/-- Six samples of the two full blocks; the write never returns. -/
theorem sampling_endless :
    (∃ state called, outcome choiceConfig (halfEnvironment choiceConfig)
        fourWrites = .ok () state ∧
      CallsSelection choiceConfig (halfEnvironment choiceConfig) state
        (writePage 0) called ∧
      randomRange choiceConfig (halfEnvironment choiceConfig) called = .ok 6 ∧
      ¬ Samplable choiceConfig (halfEnvironment choiceConfig) called 6) ∧
      stops (outcome choiceConfig (halfEnvironment choiceConfig)
        (fourWrites ++ [writePage 0])) = some .endlessSampling := by
  refine ⟨?_, by decide +kernel⟩
  have evaluated : fifthWrite choiceConfig (halfEnvironment choiceConfig)
      (fun amount called => amount = 6 ∧
        (fullBlocks choiceConfig called).length = 2) = true := by
    decide +kernel
  obtain ⟨state, called, amount, result, calls, asked, test⟩ :=
    fifthWrite_calls Nat.one_pos evaluated
  obtain ⟨same, two⟩ := of_decide_eq_true test
  subst same
  refine ⟨state, called, result, calls, asked, ?_⟩
  intro samplable
  have enough := samplable.enough
  rw [two] at enough
  exact absurd enough (by decide)

end SimpleSSD.FTL
