import SimpleSSD.FTL.Insertion
import SimpleSSD.FTL.Windows

namespace SimpleSSD.FTL

open Machine Program

/-! Whether the free list runs out.  Between the operations a page can always be
programmed; the copies of a collection and of a refresh need more. -/

/-- A page can be programmed: a block is free, or the active blocks have more
room than the others of them could hold. -/
def Reserved (cfg : Config) (state : State) : Prop :=
  0 < (state.free .plain).count ∨
    cfg.pageCountToMaxPerf * cfg.pagesInBlock <
      state.spare cfg .plain + cfg.pagesInBlock

def Fits (cfg : Config) (state : State) (pages : Nat) : Prop :=
  pages = 0 ∨ cfg.pageCountToMaxPerf * cfg.pagesInBlock + pages ≤
    state.spare cfg .plain + cfg.pagesInBlock

/-- The valid pages of the victims can be copied, and a page can be programmed
when there are no victims. -/
structure Affords (cfg : Config) (state : State) (victims : List Nat) :
    Prop where
  copies : Fits cfg state (state.copiesOfVictims cfg victims)
  reserved : victims = [] → Reserved cfg state

def Young (cfg : Config) (state : State) (victims : List Nat) : Prop :=
  ∀ victim ∈ victims, ∀ block, state.blocks.lookup victim = some block →
    block.eraseCount + 1 < cfg.badBlockThreshold

/-- A refresh that starts in `state` takes up a layer, in the state `called`. -/
inductive TakesUp (cfg : Config) (env : Environment) (state : State) :
    Nat → State → Prop
  | layer (more : amount < cfg.refreshMaxLayerNum)
      (pops : (popLayers cfg env amount).run state = .ok target popped)
      (front : popped.refresh.checkedQueues target = layerID :: rest)
      (taken : (popLayer target layerID).run popped = .ok true called) :
      TakesUp cfg env state layerID called

/-- The pages of a layer, as far as they may have to be copied, can be copied. -/
def AffordsLayer (cfg : Config) (state : State) (layerID : Nat) : Prop :=
  state.InUse (layerID / 64) → Fits cfg state
    (state.copiesOf cfg (layerID / 64) (layerPages cfg (layerID % 64)))

/-- A program that does not ask for a free block when there is none. -/
def Sustained (program : FTLM α) (state : State) : Prop :=
  Meets program state (fun _ _ => True) fun raised _ =>
    raised ≠ .noFreeBlockLeft

section Sustained

variable {cfg : Config} {env : Environment} {state updated : State}

theorem Stays.sustained {program : FTLM α} (stays : Stays program state) :
    Sustained program state :=
  stays.mono (fun _ _ _ => trivial) fun _ _ unrelated => unrelated.1

theorem Fills.sustained {target : Nat} {units : List Nat} {program : FTLM α}
    (fills : Fills target units program state) : Sustained program state :=
  fills.mono (fun _ _ _ => trivial) fun _ _ unrelated => unrelated.1

theorem Sustained.bind {program : FTLM α} {next : α → FTLM β}
    {post : β → State → Prop} (first : Sustained program state)
    (rest : ∀ value reached, program.run state = .ok value reached →
      Meets (next value) reached post fun raised _ =>
        raised ≠ .noFreeBlockLeft) :
    Meets (program >>= next) state post fun raised _ =>
      raised ≠ .noFreeBlockLeft := by
  refine meets_bind.mpr (meets_of_cases ?_ ?_)
  · intro value reached returned
    exact rest value reached returned
  · intro raised stopped failed
    exact first.of_error failed

theorem Reserved.stay (reserved : Reserved cfg state)
    (steady : Steady state updated) : Reserved cfg updated := by
  have spare : state.spare cfg .plain ≤ updated.spare cfg .plain :=
    steady.spare_le
  unfold Reserved at reserved ⊢
  rw [(steady 0).free_eq]
  exact reserved.imp_right (Nat.lt_of_lt_of_le · (by omega))

/-- A slot can be refilled while the list behind it is not empty. -/
theorem getLastBlock_counted (pool : ActivePool) (iomap : IOFlag) :
    Meets (getLastBlock cfg pool iomap) state (fun _ _ => True)
      fun raised _ => raised.Unrelated ∨
        (state.free pool.source).count = 0 := by
  have steady : Steady state (state.setActive pool
      ((state.active pool).advance cfg iomap)) := .of_advance iomap
  have advancing : (advanceSlot cfg pool iomap).run state = .ok ()
      (state.setActive pool ((state.active pool).advance cfg iomap)) := rfl
  generalize state.setActive pool ((state.active pool).advance cfg iomap) =
    advanced at steady advancing
  have slot : ∀ reached, Meets (slotAt pool) reached (fun _ _ => True)
      fun raised _ => raised.Unrelated ∨
        (state.free pool.source).count = 0 := by
    intro reached
    unfold slotAt
    apply meets_bind.mpr
    apply meets_get.mpr
    split
    · exact .inl (by decide)
    · exact trivial
  unfold getLastBlock
  refine Meets.bindOk advancing ?_
  cases named : (advanced.active pool).blocks[
      (advanced.active pool).index]? with
  | none =>
      have failed : (slotAt pool).run advanced =
          .error .outOfRange advanced := by
        simp only [slotAt, EStateM.run_bind, EStateM.run_get, named]
        rfl
      exact Meets.bindError failed (.inl (by decide))
  | some blockIndex =>
      refine Meets.bindOk (run_slotAt named) ?_
      cases found : advanced.blocks.lookup blockIndex with
      | none =>
          refine Meets.bindError (run_findBlock_none found) (.inl ?_)
          cases pool <;> decide
      | some block =>
          refine Meets.bindOk (run_findBlock found) ?_
          split
          · unfold refillSlot seatSlot
            simp only [bind_assoc]
            apply meets_bind.mpr
            apply meets_get.mpr
            refine ((getBlockFor_supplies pool _).mono
              (fun _ _ supplied => supplied) ?_).bind ?_
            · intro _ _ failed
              rw [(steady 0).free_eq] at failed
              exact failed
            · exact fun _ _ _ => slot _
          · exact slot _

theorem getLastBlock_sustained (iomap : IOFlag)
    (stocked : Stocked .plain state)
    (slots : (state.active .plain).blocks.length = cfg.pageCountToMaxPerf)
    (reserved : Reserved cfg state) :
    Sustained (getLastBlock cfg .plain iomap) state := by
  refine ((getLastBlock_draws iomap stocked).and
    (getLastBlock_counted .plain iomap)).mono (fun _ _ _ => trivial) ?_
  intro raised _ failed
  obtain ⟨unrelated | dry, counted⟩ := failed
  · exact unrelated.1
  · refine (counted.resolve_right ?_).1
    intro empty
    unfold Dry at dry
    rw [slots] at dry
    have empty : (state.free .plain).count = 0 := empty
    unfold Reserved at reserved
    omega

theorem placePage_sustained (lpn : Nat) (flag : IOFlag)
    (pools : Pools cfg state) (off : cfg.hotColdSeparation = false)
    (reserved : Reserved cfg state) :
    Sustained (placePage cfg env lpn flag) state := by
  have stocked : Stocked .plain state :=
    pools.stocked (by simp [freePools, off, ActivePool.source])
  unfold placePage
  refine ((openMapping_stays lpn flag).mono (fun _ _ steady => steady)
    fun _ _ unrelated => unrelated.1).bind ?_
  intro _ opened steady
  have slots : (opened.active .plain).blocks.length =
      cfg.pageCountToMaxPerf := by
    rw [(steady 0).slots_eq]
    exact pools.slots .plain
  refine (getLastBlock_sustained flag (steady.stocked stocked) slots
    (reserved.stay steady)).bind fun target _ _ => ?_
  exact (findBlock_stays target (by decide)).sustained.bind
    fun _ _ _ => (programUnits_fills true lpn flag).sustained

/-! Copies that fit. -/

theorem Copies.sustained {pages : Nat} {program : FTLM α}
    (copies : Copies cfg .plain pages program state)
    (slots : (state.active .plain).blocks.length = cfg.pageCountToMaxPerf)
    (fits : cfg.pageCountToMaxPerf * cfg.pagesInBlock + pages ≤
      state.spare cfg .plain + cfg.pagesInBlock) :
    Sustained program state := by
  refine Meets.mono copies (fun _ _ _ => trivial) ?_
  intro raised _ failed
  refine (failed.resolve_right ?_).1
  intro short
  unfold Short at short
  rw [slots] at short
  omega

theorem copyPages_idle {plan : CopyPlan} {source : Nat} {block : Block}
    {pages : List Nat} (found : state.blocks.lookup source = some block)
    (none : state.copiesOf cfg source pages = 0) :
    (pages.forM (copyPage cfg env plan source)).run state = .ok () state := by
  have unset : ∀ page ∈ pages,
      IOFlag.any cfg.ioUnitInPage (block.validBits page) = false := by
    intro page member
    unfold State.copiesOf at none
    rw [found] at none
    dsimp only at none
    split at none
    · exact Bool.eq_false_iff.mpr (List.countP_eq_zero.mp none page member)
    · rw [List.eq_nil_of_length_eq_zero none] at member
      cases member
  clear none
  induction pages with
  | nil => rfl
  | cons page rest induction =>
      have idle : (copyPage cfg env plan source page).run state =
          .ok () state := by
        simp only [copyPage, EStateM.run_bind, run_blockAt found,
          unset page (.head _)]
        rfl
      rw [List.forM_eq_forM, List.forM_cons, EStateM.run_bind, idle]
      exact induction fun other later => unset other (.tail _ later)

def Serves (cfg : Config) (state : State) : Prop :=
  Stocked .plain state ∧
    (state.active .plain).blocks.length = cfg.pageCountToMaxPerf

theorem copyPages_serves {plan : CopyPlan}
    (missing : plan.missing.Unrelated)
    (destination : plan.destination = .plain) {source : Nat} {block : Block}
    {pages : List Nat} (inside : ∀ page ∈ pages, page < cfg.pagesInBlock)
    (found : state.blocks.lookup source = some block)
    (serves : Serves cfg state)
    (fits : Fits cfg state (state.copiesOf cfg source pages)) :
    Meets (pages.forM (copyPage cfg env plan source)) state
      (fun _ final => Serves cfg final)
      fun raised _ => raised ≠ .noFreeBlockLeft := by
  obtain ⟨stocked, slots⟩ := serves
  rcases fits with none | fits
  · unfold Meets
    rw [copyPages_idle found none]
    exact ⟨stocked, slots⟩
  · rw [← destination] at stocked
    have copies : Copies cfg plan.destination
        (state.copiesOf cfg source pages)
        (pages.forM (copyPage cfg env plan source)) state :=
      copyPages_copies missing inside stocked
    rw [destination] at copies
    refine (Meets.and copies (copies.sustained slots fits)).mono ?_
      fun _ _ failed => failed.2
    intro _ final post
    obtain ⟨copying, _⟩ := post
    exact ⟨copying.stocked, (copying.onward.length_eq .plain).trans slots⟩

theorem copyVictims_idle {plan : CopyPlan} {invalid : Panic}
    {victims : List Nat} (unrelated : invalid.Unrelated)
    (none : state.copiesOfVictims cfg victims = 0) :
    Meets (copyVictims cfg env plan invalid victims) state
      (fun _ final => final = state)
      fun raised _ => raised ≠ .noFreeBlockLeft := by
  have each : ∀ victim ∈ victims,
      state.copiesOf cfg victim (List.range cfg.pagesInBlock) = 0 := by
    intro victim member
    unfold State.copiesOfVictims at none
    exact List.sum_eq_zero_iff.mp none _ (List.mem_map_of_mem member)
  unfold copyVictims
  refine (Meets.forM (fun remaining reached => reached = state ∧
      ∀ victim ∈ remaining, victim ∈ victims) ⟨rfl, fun _ member => member⟩
    ?_).mono (fun _ _ post => post.1) fun _ _ failed => failed
  intro victim rest reached kept
  obtain ⟨same, listed⟩ := kept
  subst same
  have later : ∀ other ∈ rest, other ∈ victims :=
    fun other member => listed other (.tail _ member)
  cases found : reached.blocks.lookup victim with
  | none => exact Meets.bindError (run_findBlock_none found) unrelated.1
  | some block =>
      refine Meets.bindOk (run_findBlock found) ?_
      unfold Meets
      rw [copyPages_idle found (each victim (listed victim (.head _)))]
      exact ⟨rfl, later⟩

theorem copyVictims_sustained {plan : CopyPlan} {invalid : Panic}
    {victims : List Nat} (missing : plan.missing.Unrelated)
    (unrelated : invalid.Unrelated) (destination : plan.destination = .plain)
    (stocked : Stocked .plain state)
    (slots : (state.active .plain).blocks.length = cfg.pageCountToMaxPerf)
    (fits : Fits cfg state (state.copiesOfVictims cfg victims)) :
    Sustained (copyVictims cfg env plan invalid victims) state := by
  rcases fits with none | fits
  · exact (copyVictims_idle unrelated none).mono (fun _ _ _ => trivial)
      fun _ _ failed => failed
  · rw [← destination] at stocked
    have copies : Copies cfg plan.destination
        (state.copiesOfVictims cfg victims)
        (copyVictims cfg env plan invalid victims) state :=
      copyVictims_copies missing unrelated victims stocked
    rw [destination] at copies
    exact copies.sustained slots fits

/-! The erases give back. -/

theorem eraseInternal_frees (victim : Nat) :
    Meets (eraseInternal cfg victim) state
      (fun _ final => ((state.free .plain).blocks ≠ [] ∨
          Young cfg state [victim]) → (final.free .plain).blocks ≠ [])
      fun raised _ => raised ≠ .noFreeBlockLeft := by
  unfold eraseInternal
  cases found : state.blocks.lookup victim with
  | none => exact Meets.bindError (run_findBlock_none found) (by decide)
  | some block =>
      refine Meets.bindOk (run_findBlock found) ?_
      dsimp only
      split
      · exact show (Panic.validPagesInVictim : Panic) ≠ _ by decide
      refine Meets.bindOk (run_updateBlock found _) ?_
      split
      · by_cases stocked : (state.free .plain).blocks = []
        · have empty : (searchPosition .plain block.erase.eraseCount).run
              (state.setBlock victim block.erase) =
                .error .emptyFreeList (state.setBlock victim block.erase) := by
            simp only [searchPosition, EStateM.run_bind, EStateM.run_get,
              State.setBlock_free, stocked]
            rfl
          exact Meets.bindError empty (by decide)
        · have wiped : (state.setBlock victim block.erase).blocks.lookup
              victim = some block.erase := AList.lookup_insert _
          obtain ⟨placed, emplaced⟩ := emplaceBefore_freePosition
            block.erase.eraseCount block.erase
            ((state.setBlock victim block.erase).free .plain).blocks
          refine Meets.bindOk (run_searchPosition (by exact stocked) _) ?_
          refine Meets.bindOk (run_emplaceFree wiped emplaced) ?_
          intro _
          change (Function.update state.free .plain _ .plain).blocks ≠ []
          rw [Function.update_self]
          exact emplaceBefore_ne_nil emplaced
      · next worn =>
          rintro (stocked | young)
          · exact stocked
          · exact absurd (young victim (.head _) block found) worn

theorem eraseAll_frees {victims : List Nat} (young : Young cfg state victims) :
    Meets (victims.forM (eraseInternal cfg)) state
      (fun _ final => victims ≠ [] → (final.free .plain).blocks ≠ [])
      fun raised _ => raised ≠ .noFreeBlockLeft := by
  cases victims with
  | nil => exact fun some => absurd rfl some
  | cons victim rest =>
      refine (eraseInternal_frees victim).bind ?_
      intro _ erased frees
      have stocked : (erased.free .plain).blocks ≠ [] := by
        refine frees (.inr ?_)
        intro other member block found
        rw [List.mem_singleton.mp member] at found
        exact young victim (.head _) block found
      refine (Meets.forM (fun _ reached => (reached.free .plain).blocks ≠ [])
        stocked ?_).mono (fun _ _ kept _ => kept) fun _ _ failed => failed
      intro other _ reached kept
      exact (eraseInternal_frees other).mono
        (fun _ _ frees => frees (.inl kept)) fun _ _ failed => failed

end Sustained

/-! Collections that the FTL can afford. -/

section Collections

variable {cfg : Config} {env : Environment} {state : State}
  {mapped : Set (Nat × Nat)}

theorem selectVictimBlock_listed {called : State} {victims : List Nat}
    (selects : (selectVictimBlock cfg env).run state = .ok victims called) :
    ∀ victim ∈ victims, called.InUse victim := by
  have spec := victimsOf_spec cfg env state
  unfold selectVictimBlock at selects
  obtain ⟨_, _, read, selects⟩ := run_bind_ok selects
  cases read
  cases selected : victimsOf cfg env state with
  | error raised =>
      rw [selected] at selects
      cases selects
  | ok chosen =>
      rw [selected] at selects spec
      cases selects
      intro victim member
      obtain ⟨block, found, _⟩ := spec.2 victim member
      exact ⟨block, found⟩

theorem Young.onward {victims : List Nat} {copied : State}
    (young : Young cfg state victims) (onward : Onward cfg state copied)
    (inUse : ∀ victim ∈ victims, state.InUse victim) :
    Young cfg copied victims := by
  intro victim member later lookup
  obtain ⟨block, found⟩ := inUse victim member
  obtain ⟨current, lookup', aged⟩ := onward.version victim block found
  rw [lookup] at lookup'
  cases lookup'
  rw [aged.eraseCount_eq]
  exact young victim member block found

theorem doGarbageCollection_frees (isRefresh : Bool) {victims : List Nat}
    (off : cfg.hotColdSeparation = false) (pools : Pools cfg state)
    (inUse : ∀ victim ∈ victims, state.InUse victim)
    (young : Young cfg state victims)
    (fits : Fits cfg state (state.copiesOfVictims cfg victims)) :
    Meets (doGarbageCollection cfg env isRefresh victims) state
      (fun _ final => victims ≠ [] → (final.free .plain).blocks ≠ [])
      fun raised _ => raised ≠ .noFreeBlockLeft := by
  have missing : (gcPlan isRefresh).missing.Unrelated :=
    show Panic.Unrelated .invalidMappingTableEntry by decide
  have stocked : Stocked .plain state :=
    pools.stocked (by simp [freePools, off, ActivePool.source])
  unfold doGarbageCollection
  refine (copyVictims_sustained missing (by decide) rfl stocked
    (pools.slots .plain) fits).bind ?_
  intro _ copied returned
  have copying := (copyVictims_copies missing (by decide) victims
    stocked).of_ok returned
  exact eraseAll_frees (young.onward copying.onward inUse)

theorem Reserved.of_stocked (off : cfg.hotColdSeparation = false)
    (pools : Pools cfg state) (stocked : (state.free .plain).blocks ≠ []) :
    Reserved cfg state := by
  refine .inl ?_
  rw [pools.counted .plain (by simp [freePools, off])]
  exact List.length_pos_of_ne_nil stocked

/-- After a collection a page can be programmed. -/
theorem plainGC_reserves (isRefresh : Bool)
    (off : cfg.hotColdSeparation = false)
    (sound : (machine cfg env .all).sound (.rest mapped, state))
    (below : env.belowGCThreshold .plain (state.free .plain).count = true)
    (young : ∀ victims called, Selects cfg env state .plain victims called →
      Young cfg called victims)
    (affords : ∀ victims called, Selects cfg env state .plain victims called →
      Affords cfg called victims) :
    Meets (plainGC cfg env isRefresh) state
      (fun _ final => Reserved cfg final)
      fun raised _ => raised ≠ .noFreeBlockLeft := by
  have collects : Meets (plainGC cfg env isRefresh) state
      (fun _ final => Reserved cfg final ∨ (final.free .plain).blocks ≠ [])
      fun raised _ => raised ≠ .noFreeBlockLeft := by
    unfold plainGC
    refine selectVictimBlock_stays.sustained.bind ?_
    intro victims called returned
    have selects : Selects cfg env state .plain victims called :=
      .plain off below returned
    have afforded := affords victims called selects
    by_cases none : victims = []
    · subst none
      refine .inl ((afforded.reserved rfl).stay ?_)
      exact Steady.of_blocks_eq rfl rfl fun _ => rfl
    · refine (doGarbageCollection_frees isRefresh off (selects.sound sound).1
        (selectVictimBlock_listed returned) (young victims called selects)
        afforded.copies).bind ?_
      exact fun _ _ frees => .inr (frees none)
  have follows := (plainGC_follows isRefresh off trivial).meets
    (machine_trivial cfg env .all) sound trivial
  refine (collects.and follows).mono ?_ fun _ _ failed => failed.1
  intro _ final post
  obtain ⟨reserved, _, sound', _⟩ := post
  exact reserved.elim id (.of_stocked off sound'.1)

theorem refreshGC_reserves (off : cfg.hotColdSeparation = false)
    (threshold : env.belowGCThreshold .plain 0 = true)
    (sound : (machine cfg env .all).sound (.rest mapped, state))
    (young : ∀ victims called, Selects cfg env state .plain victims called →
      Young cfg called victims)
    (affords : ∀ victims called, Selects cfg env state .plain victims called →
      Affords cfg called victims) :
    Meets (refreshGC cfg env) state (fun _ final => Reserved cfg final)
      fun raised _ => raised ≠ .noFreeBlockLeft := by
  unfold refreshGC
  rw [if_neg (by simp [off])]
  refine Meets.bindOk rfl ?_
  split
  · next low => exact plainGC_reserves true off sound low young affords
  · next high =>
      refine .inl (Nat.pos_of_ne_zero ?_)
      intro empty
      rw [empty, threshold] at high
      exact high rfl

theorem write_reserves (lpn : Nat) (flag : IOFlag)
    (off : cfg.hotColdSeparation = false)
    (threshold : env.belowGCThreshold .plain 0 = true)
    (sound : (machine cfg env .all).sound (.rest mapped, state))
    (reserved : Reserved cfg state)
    (young : ∀ victims called,
      Enters cfg env state (.write lpn flag) victims called →
        Young cfg called victims)
    (affords : ∀ victims called,
      Enters cfg env state (.write lpn flag) victims called →
        Affords cfg called victims) :
    Meets (write cfg env lpn flag) state (fun _ final => Reserved cfg final)
      fun raised _ => raised ≠ .noFreeBlockLeft := by
  unfold write
  split
  · next asked =>
      rw [if_neg (by simp [off]), writeInternal_eq]
      refine (placePage_sustained lpn flag sound.1 off reserved).bind ?_
      intro _ placed places
      have sound' := rest_sound (placePage_follows lpn flag off) sound places
      refine Meets.bindOk rfl ?_
      split
      · next low =>
          exact plainGC_reserves false off sound' low
            (fun victims called selects => young victims called
              (.write asked off places selects))
            fun victims called selects => affords victims called
              (.write asked off places selects)
      · next high =>
          refine .inl (Nat.pos_of_ne_zero ?_)
          intro empty
          rw [empty, threshold] at high
          exact high rfl
  · exact reserved

/-- A write of `initialize` leaves a free block, or it stops. -/
theorem fill_reserves (filling : FillWrite)
    (plain : ∃ lpn, filling = .plain lpn)
    (off : cfg.hotColdSeparation = false)
    (threshold : env.belowGCThreshold .plain 0 = true)
    (pools : Pools cfg state) (reserved : Reserved cfg state) :
    Meets (fill cfg env filling) state (fun _ final => Reserved cfg final)
      fun raised _ => raised ≠ .noFreeBlockLeft := by
  obtain ⟨lpn, same⟩ := plain
  subst same
  unfold fill
  dsimp only
  rw [writeInternal_eq]
  refine (placePage_sustained lpn _ pools off reserved).bind ?_
  intro _ placed _
  refine Meets.bindOk rfl ?_
  split
  · exact show (Panic.gcInInitialization : Panic) ≠ _ by decide
  · next high =>
      refine .inl (Nat.pos_of_ne_zero ?_)
      intro empty
      rw [empty, threshold] at high
      exact high rfl

/-! The pop loop. -/

theorem popTurn_serves {target layerID : Nat}
    (off : cfg.hotColdSeparation = false) (serves : Serves cfg state)
    (affords : ∀ called, (popLayer target layerID).run state =
      .ok true called → AffordsLayer cfg called layerID) :
    Meets (popTurn cfg env target layerID) state
      (fun _ final => Serves cfg final)
      fun raised _ => raised ≠ .noFreeBlockLeft := by
  unfold popTurn
  refine (popLayer_stays target layerID).sustained.bind ?_
  intro taken called popped
  have steady := (popLayer_stays target layerID).of_ok popped
  have serves' : Serves cfg called := by
    refine ⟨steady.stocked serves.1, ?_⟩
    rw [(steady 0).slots_eq]
    exact serves.2
  cases taken with
  | false => exact serves'
  | true =>
      have afforded := affords called popped
      change Meets (copyLayer cfg env layerID) called _ _
      unfold copyLayer
      apply meets_bind.mpr
      apply meets_get.mpr
      cases found : called.blocks.lookup (layerID / 64) with
      | none => exact serves'
      | some block =>
          refine copyPages_serves (show Panic.Unrelated
            .invalidMappingInRefresh by decide) ?_ ?_ found serves'
            (afforded ⟨block, found⟩)
          · simp [refreshPlan, refreshDestination, off]
          · intro page member
            exact List.mem_range.mp (List.mem_of_mem_filter member)

theorem refreshLayers_sustained {target amount : Nat}
    (off : cfg.hotColdSeparation = false) (serves : Serves cfg state)
    (affords : ∀ fewer < amount, ∀ popped,
      (refreshLayers cfg env target fewer).run state = .ok () popped →
      ∀ layerID rest, popped.refresh.checkedQueues target = layerID :: rest →
      ∀ called, (popLayer target layerID).run popped = .ok true called →
        AffordsLayer cfg called layerID) :
    Sustained (refreshLayers cfg env target amount) state := by
  induction amount generalizing state with
  | zero => exact trivial
  | succ amount induction =>
      unfold Sustained Meets
      cases front : state.refresh.checkedQueues target with
      | nil =>
          rw [refreshLayers_nil front]
          trivial
      | cons layerID rest =>
          rw [run_refreshLayers_cons front]
          change Sustained _ state
          have turns := @popTurn_serves cfg env state target layerID off serves
            (affords 0 (Nat.succ_pos amount) state rfl layerID rest front)
          have sustained : Sustained (popTurn cfg env target layerID) state :=
            turns.mono (fun _ _ _ => trivial) fun _ _ failed => failed
          refine sustained.bind ?_
          intro _ middle turned
          refine induction (turns.of_ok turned) ?_
          intro fewer less popped pops
          refine affords (fewer + 1) (Nat.succ_lt_succ less) popped ?_
          rw [run_refreshLayers_cons front, EStateM.run_bind, turned]
          exact pops

theorem refreshEvent_reserves (off : cfg.hotColdSeparation = false)
    (threshold : env.belowGCThreshold .plain 0 = true)
    (sound : (machine cfg env .all).sound (.rest mapped, state))
    (young : ∀ victims called, Enters cfg env state .refresh victims called →
      Young cfg called victims)
    (affords : ∀ victims called, Enters cfg env state .refresh victims called →
      Affords cfg called victims)
    (layers : ∀ layerID called, TakesUp cfg env state layerID called →
      AffordsLayer cfg called layerID) :
    Meets (refreshEvent cfg env) state (fun _ final => Reserved cfg final)
      fun raised _ => raised ≠ .noFreeBlockLeft := by
  have single : refreshPool cfg = .plain := by
    unfold refreshPool
    rw [if_neg (by simp [off])]
  have popping : Sustained (popLayers cfg env cfg.refreshMaxLayerNum)
      state := by
    unfold popLayers
    refine openQueue_stays.sustained.bind ?_
    intro target opened opens
    have sound' := rest_sound (openQueue_follows trivial trivial) sound opens
    have collects := refreshGC_reserves off threshold sound'
      (fun victims called selects =>
        young victims called (.refresh opens (single ▸ selects)))
      fun victims called selects =>
        affords victims called (.refresh opens (single ▸ selects))
    have sustained : Sustained (refreshGC cfg env) opened :=
      collects.mono (fun _ _ _ => trivial) fun _ _ failed => failed
    refine sustained.bind ?_
    intro _ collected returned
    have sound'' := rest_sound (refreshGC_follows trivial) sound' returned
    have serves : Serves cfg collected :=
      ⟨sound''.1.stocked (by simp [freePools, off, ActivePool.source]),
        sound''.1.slots .plain⟩
    refine (refreshLayers_sustained off serves ?_).bind fun _ _ _ => trivial
    intro fewer less popped pops layerID rest front called taken
    refine layers layerID called (.layer less ?_ front taken)
    unfold popLayers
    simp only [EStateM.run_bind, opens, returned, pops]
    rfl
  rw [refreshEvent_eq]
  refine popping.bind ?_
  intro target popped pops
  have sound' := rest_sound (popLayers_follows _ trivial trivial) sound pops
  refine (refreshGC_reserves off threshold sound'
    (fun victims called selects =>
      young victims called (.refreshed pops (single ▸ selects)))
    fun victims called selects =>
      affords victims called (.refreshed pops (single ▸ selects))).bind ?_
  intro _ collected reserved
  exact reserved.stay (.of_blocks_eq rfl rfl fun _ => rfl)

/-! Whole runs. -/

theorem initializeFTL_reserves (off : cfg.hotColdSeparation = false)
    (threshold : env.belowGCThreshold .plain 0 = true)
    (sound : (machine cfg env .all).sound (.rest mapped, state))
    (reserved : Reserved cfg state) :
    Meets (initializeFTL cfg env) state (fun _ final => Reserved cfg final)
      fun raised _ => raised ≠ .noFreeBlockLeft := by
  have scheduling : (setupRefresh cfg).run state =
      .ok () (state.scheduling cfg) := rfl
  unfold initializeFTL
  refine Meets.bindOk scheduling ?_
  have sound' : (machine cfg env .all).sound
      (.rest mapped, state.scheduling cfg) :=
    (machine cfg env .all).sound_step (.setup trivial) sound
  have ready : Reserved cfg (state.scheduling cfg) :=
    reserved.stay (.of_blocks_eq rfl rfl fun _ => rfl)
  have plain : ∀ filling ∈ fills cfg env, ∃ lpn, filling = .plain lpn := by
    intro filling member
    by_contra pooled
    have on := fills_separated member fun lpn same => pooled ⟨lpn, same⟩
    rw [off] at on
    cases on
  refine (Meets.forM (fun remaining reached => Reserved cfg reached ∧
      (∃ mapped, (machine cfg env .all).sound (.rest mapped, reached)) ∧
      ∀ filling ∈ remaining, filling ∈ fills cfg env)
    ⟨ready, ⟨mapped, sound'⟩, fun _ member => member⟩ ?_).mono (fun _ _ post => post.1)
      fun _ _ failed => failed
  intro filling rest reached kept
  obtain ⟨reserved, ⟨mapped, sound⟩, listed⟩ := kept
  have member := listed filling (.head _)
  have allowed : filling.Allowed cfg .all :=
    fills_allowed (fun _ _ => trivial) (fun _ => trivial) filling member
  refine ((fill_reserves filling (plain filling member) off threshold sound.1
    reserved).and ((fill_follows filling trivial allowed).meets
      (machine_trivial cfg env .all) sound trivial)).mono ?_
      fun _ _ failed => failed.1
  intro _ filled post
  obtain ⟨reserved, last, sound, _, same⟩ := post
  subst same
  exact ⟨reserved, ⟨_, sound⟩, fun other later => listed other (.tail _ later)⟩

theorem perform_reserves (op : Op) (own : op.Own)
    (off : cfg.hotColdSeparation = false)
    (threshold : env.belowGCThreshold .plain 0 = true)
    (sound : (machine cfg env .all).sound (.rest mapped, state))
    (reserved : Reserved cfg state)
    (young : ∀ victims called, Enters cfg env state op victims called →
      Young cfg called victims)
    (affords : ∀ victims called, Enters cfg env state op victims called →
      Affords cfg called victims)
    (layers : op = .refresh → ∀ layerID called,
      TakesUp cfg env state layerID called → AffordsLayer cfg called layerID) :
    Meets (perform cfg env op) state (fun _ final => Reserved cfg final)
      fun raised _ => raised ≠ .noFreeBlockLeft := by
  cases op with
  | initializeFTL => exact initializeFTL_reserves off threshold sound reserved
  | read lpn flag =>
      exact (read_stays lpn flag).mono (fun _ _ steady => reserved.stay steady)
        fun _ _ unrelated => unrelated.1
  | write lpn flag =>
      exact write_reserves lpn flag off threshold sound reserved young affords
  | trim lpn =>
      exact (unmap_stays (by decide) lpn).mono
        (fun _ _ steady => reserved.stay steady)
        fun _ _ unrelated => unrelated.1
  | refresh =>
      exact refreshEvent_reserves off threshold sound young affords
        (layers rfl)
  | gc | format => exact own.elim

theorem construct_reserves (off : cfg.hotColdSeparation = false)
    (accepted : cfg.pageCountToMaxPerf < cfg.totalPhysicalBlocks) :
    Meets (construct cfg) (blankState cfg) (fun _ final => Reserved cfg final)
      fun raised _ => raised ≠ .noFreeBlockLeft := by
  have single : activePools cfg = [.plain] := by simp [activePools, off]
  have filled : ((blankState cfg).free .plain).count =
      cfg.totalPhysicalBlocks := by
    simp [blankState, off]
  unfold construct
  refine (Meets.forM (fun remaining reached =>
      remaining.length < (reached.free .plain).count) ?_ ?_).mono
    (fun _ _ left => .inl left) fun _ _ failed => failed
  · rw [List.length_range, filled]
    exact accepted
  · intro idx rest reached more
    rw [List.length_cons] at more
    have seats : Meets (seatSlot cfg .plain idx) reached
        (fun _ final => rest.length < (final.free .plain).count)
        fun raised _ => raised ≠ .noFreeBlockLeft := by
      unfold seatSlot
      refine ((getBlockFor_supplies .plain idx).mono
        (fun _ _ supplied => supplied) ?_).bind ?_
      · intro raised _ failed
        refine (failed.resolve_right ?_).1
        intro empty
        have empty : (reached.free .plain).count = 0 := empty
        omega
      · intro blockIndex taken supplied
        obtain ⟨_, _, _, _, fewer, _⟩ := supplied.taken
        have fewer : (taken.free .plain).count + 1 =
            (reached.free .plain).count := fewer
        change rest.length < (taken.free .plain).count
        omega
    rw [single]
    exact seats.bind fun _ _ left => left

theorem performs_reserve {ops earlier : List Op}
    (off : cfg.hotColdSeparation = false)
    (threshold : env.belowGCThreshold .plain 0 = true)
    (own : ∀ op ∈ ops, op.Own)
    (result : outcome cfg env earlier = .ok () state)
    (reserved : Reserved cfg state)
    (young : ∀ before op after, ops = before ++ op :: after →
      ∀ reached, outcome cfg env (earlier ++ before) = .ok () reached →
      ∀ victims called, Enters cfg env reached op victims called →
        Young cfg called victims)
    (affords : ∀ before op after, ops = before ++ op :: after →
      ∀ reached, outcome cfg env (earlier ++ before) = .ok () reached →
      ∀ victims called, Enters cfg env reached op victims called →
        Affords cfg called victims)
    (layers : ∀ before after, ops = before ++ .refresh :: after →
      ∀ reached, outcome cfg env (earlier ++ before) = .ok () reached →
      ∀ layerID called, TakesUp cfg env reached layerID called →
        AffordsLayer cfg called layerID) :
    Sustained (ops.forM (perform cfg env)) state := by
  induction ops generalizing earlier state with
  | nil => exact trivial
  | cons op rest induction =>
      obtain ⟨pools, maps⟩ := (outcome_meets cfg env earlier).of_ok result
      have here : outcome cfg env (earlier ++ []) = .ok () state := by
        rw [List.append_nil]
        exact result
      have performs := perform_reserves op (own op (.head _)) off threshold
        ⟨pools, maps⟩ reserved (young [] op rest rfl state here)
        (affords [] op rest rfl state here)
        fun same => layers [] rest (same ▸ rfl) state here
      have sustained : Sustained (perform cfg env op) state :=
        performs.mono (fun _ _ _ => trivial) fun _ _ failed => failed
      refine sustained.bind ?_
      intro _ next performed
      have further : ∀ {before reached},
          outcome cfg env ((earlier ++ [op]) ++ before) = .ok () reached →
          outcome cfg env (earlier ++ op :: before) = .ok () reached := by
        intro before reached later
        rw [← later, List.append_assoc]
        rfl
      refine induction (fun other later => own other (.tail _ later))
        (outcome_extend result performed) (performs.of_ok performed) ?_ ?_ ?_
      · intro before other after split reached later
        exact young (op :: before) other after (by simp [split]) reached
          (further later)
      · intro before other after split reached later
        exact affords (op :: before) other after (by simp [split]) reached
          (further later)
      · intro before after split reached later
        exact layers (op :: before) after (by simp [split]) reached
          (further later)

end Collections

/-- In every run whose collections and refreshes find enough pages for the
copies that they make, no allocation finds the free list empty. -/
theorem free_blocks_last (cfg : Config) (env : Environment)
    (off : cfg.hotColdSeparation = false)
    (accepted : cfg.pageCountToMaxPerf < cfg.totalPhysicalBlocks)
    (threshold : ∀ freeBlocks ≤ cfg.pageCountToMaxPerf,
      env.belowGCThreshold .plain freeBlocks = true)
    (ops : List Op) (own : ∀ op ∈ ops, op.Own)
    (young : ∀ earlier op later, ops = earlier ++ op :: later →
      ∀ state, outcome cfg env earlier = .ok () state →
      ∀ victims called, Enters cfg env state op victims called →
        Young cfg called victims)
    (affords : ∀ earlier op later, ops = earlier ++ op :: later →
      ∀ state, outcome cfg env earlier = .ok () state →
      ∀ victims called, Enters cfg env state op victims called →
        Affords cfg called victims)
    (layers : ∀ earlier later, ops = earlier ++ .refresh :: later →
      ∀ state, outcome cfg env earlier = .ok () state →
      ∀ layerID called, TakesUp cfg env state layerID called →
        AffordsLayer cfg called layerID) (stopped : State) :
    outcome cfg env ops ≠ .error .noFreeBlockLeft stopped := by
  have empty := threshold 0 (Nat.zero_le _)
  have constructs := construct_reserves off accepted
  have begins : Sustained (construct cfg) (blankState cfg) :=
    constructs.mono (fun _ _ _ => trivial) fun _ _ failed => failed
  have lives : Sustained (life cfg env ops) (blankState cfg) := by
    refine begins.bind ?_
    intro _ built builds
    have start : outcome cfg env [] = .ok () built := by
      unfold outcome life
      rw [EStateM.run_bind, builds]
      rfl
    exact performs_reserve off empty own start (constructs.of_ok builds) young
      affords layers
  intro failed
  exact lives.of_error failed rfl

def fewEnvironment (blocks : Nat) : Environment :=
  { sampleEnvironment with
    belowGCThreshold := fun _ freeBlocks => freeBlocks < blocks }

/-- The first write collects the block it has filled, and one page is copied. -/
theorem free_blocks_last_first_write :
    returns (outcome onePageConfig (fewEnvironment 4)
        [.initializeFTL, writePage 0])
        (fun final => final.stat.reclaimedBlocks = 1) = true ∧
      ∀ stopped, outcome onePageConfig (fewEnvironment 4)
        [.initializeFTL, writePage 0] ≠ .error .noFreeBlockLeft stopped := by
  have evaluated : firstCollection onePageConfig (fewEnvironment 4)
      (fun victims called => decide
        (3 + called.copiesOfVictims onePageConfig victims ≤
            called.spare onePageConfig .plain + 1 ∧
          0 < (called.free .plain).count) &&
        victims.all fun victim => (called.blocks.lookup victim).all fun block =>
          block.eraseCount + 1 < 100000) = true := by
    decide +kernel
  -- the only collection of the run
  have collects : ∀ earlier op later,
      [.initializeFTL, writePage 0] = earlier ++ op :: later →
      ∀ state, outcome onePageConfig (fewEnvironment 4) earlier =
        .ok () state →
      ∀ victims called, Enters onePageConfig (fewEnvironment 4) state op
        victims called →
        Young onePageConfig called victims ∧
          Affords onePageConfig called victims := by
    intro earlier op later split state result victims called enters
    have cases : (earlier = [] ∧ op = .initializeFTL) ∨
        (earlier = [.initializeFTL] ∧ op = writePage 0) := by
      cases earlier with
      | nil =>
          simp only [List.nil_append, List.cons.injEq] at split
          exact .inl ⟨rfl, split.1.symm⟩
      | cons first rest =>
          cases rest with
          | nil =>
              simp only [List.cons_append, List.nil_append,
                List.cons.injEq] at split
              exact .inr ⟨by rw [split.1], split.2.1.symm⟩
          | cons second rest => simp at split
    rcases cases with ⟨_, same⟩ | ⟨before, same⟩
    · subst same
      cases enters
    · subst before same
      cases enters with
      | write asked _ places selects =>
          cases selects with
          | plain _ below selects =>
              unfold firstCollection at evaluated
              rw [result] at evaluated
              dsimp only at evaluated
              rw [places] at evaluated
              dsimp only at evaluated
              rw [selects] at evaluated
              obtain ⟨enough, worn⟩ := (Bool.and_eq_true _ _).mp evaluated
              obtain ⟨fits, free⟩ := of_decide_eq_true enough
              refine ⟨?_, .inr fits, fun _ => .inl free⟩
              intro victim member block found
              have young := List.all_eq_true.mp worn victim member
              rw [found] at young
              exact of_decide_eq_true young
      | sepWrite asked on => cases on
      | sepWriteHot asked on => cases on
  refine ⟨by decide +kernel, free_blocks_last onePageConfig (fewEnvironment 4)
    rfl (by decide) ?_ [.initializeFTL, writePage 0] (by simp [writePage, Op.Own])
    ?_ ?_ ?_⟩
  · intro freeBlocks few
    exact decide_eq_true (Nat.lt_succ_of_le few)
  · exact fun earlier op later split state result victims called enters =>
      (collects earlier op later split state result victims called enters).1
  · exact fun earlier op later split state result victims called enters =>
      (collects earlier op later split state result victims called enters).2
  · intro earlier later split
    have member : Op.refresh ∈ [.initializeFTL, writePage 0] := by
      rw [split]
      simp
    simp [writePage] at member

def reclaimingConfig : Config :=
  { sampleConfig with
    totalPhysicalBlocks := 5
    pagesInBlock := 2
    ioUnitInPage_pos := Nat.one_pos
    pageCountToMaxPerf_pos := Nat.one_pos
    hotBlocksLimit := 1
    hotBlocksLimit_le := Nat.le_of_ble_eq_true rfl
    reclaimBlock := 2
    refreshMode := 4 }

/-- The two victims have more valid pages than the last free block. -/
theorem free_blocks_run_out :
    (∀ freeBlocks ≤ reclaimingConfig.pageCountToMaxPerf,
        (fewEnvironment 2).belowGCThreshold .plain freeBlocks = true) ∧
      stops (outcome reclaimingConfig (fewEnvironment 2)
        [.initializeFTL, writePage 2, writePage 5, writePage 1, writePage 1,
          writePage 5, writePage 3, writePage 4]) =
        some .noFreeBlockLeft := by
  refine ⟨?_, by decide +kernel⟩
  intro freeBlocks few
  exact decide_eq_true (Nat.lt_succ_of_le few)

end SimpleSSD.FTL
