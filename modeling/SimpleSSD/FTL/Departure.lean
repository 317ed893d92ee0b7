import Mathlib.Data.List.Induction
import SimpleSSD.FTL.Collection

namespace SimpleSSD.FTL

open Program

/-! What becomes of the victims of a separated collection.  An erase takes its
block out of `blocks`; the slot repair of a later erase may put it back. -/

/-- The erase of `other` takes up a block again: the block is not in use, and
takes a slot that named `other`. -/
structure TakesUpAgain (cfg : Config) (other blockIndex : Nat)
    (before after : State) : Prop where
  erases : (sepEraseInternal cfg other).run before = .ok () after
  absent : ¬ before.InUse blockIndex
  slot : ∃ pool, ∃ index : Nat,
    (before.active pool).blocks[index]? = some other ∧
      (after.active pool).blocks[index]? = some blockIndex

/-- Among the erases of `victims`, one that comes after the erase of a block has
taken it up again. -/
def TakenUpAgain (cfg : Config) (victims : List Nat) (copied final : State)
    (blockIndex : Nat) : Prop :=
  ∃ earlier other later before after, victims = earlier ++ other :: later ∧
    blockIndex ∈ earlier ∧
    (earlier.forM (sepEraseInternal cfg)).run copied = .ok () before ∧
    TakesUpAgain cfg other blockIndex before after ∧
    (later.forM (sepEraseInternal cfg)).run after = .ok () final

/-- A victim after the erases: it has left `blocks`, or was taken up again and is
empty. -/
def Departed (cfg : Config) (victims : List Nat) (copied final : State)
    (victim : Nat) : Prop :=
  final.blocks.lookup victim = none ∨
    (∃ block, final.blocks.lookup victim = some block ∧ block.Empty) ∧
      TakenUpAgain cfg victims copied final victim

/-- What becomes of the victims of a separated collection after its copies. -/
def VictimsDepart (cfg : Config) (env : Environment) (isRefresh : Bool)
    (gcType : BlockPoolType) (victims : List Nat) (state final : State) : Prop :=
  ∃ copied, (copyVictims cfg env (sepGCPlan isRefresh gcType)
      .invalidBlockInGC victims).run state = .ok () copied ∧
    ∀ victim ∈ victims, Departed cfg victims copied final victim

section Erases

variable {cfg : Config} {env : Environment} {state : State}

theorem searchPosition_unmoved (pool : FreePool) (erasedCount : Nat) :
    Meets (searchPosition pool erasedCount) state
      (fun _ final => final = state) fun _ stopped => stopped = state := by
  unfold searchPosition
  apply meets_bind.mpr
  apply meets_get.mpr
  dsimp only
  split
  · exact rfl
  · exact rfl

theorem emplaceFree_places (pool : FreePool) (position : Option Nat)
    (blockIndex : Nat) :
    Meets (emplaceFree pool position blockIndex) state
      (fun _ final => ∃ list, final = state.setFree pool list)
      fun _ stopped => stopped = state := by
  unfold Meets
  cases found : state.blocks.lookup blockIndex with
  | none =>
      have failed : (emplaceFree pool position blockIndex).run state =
          .error .invalidIterator state := by
        simp only [emplaceFree, blockAt, EStateM.run_bind,
          run_findBlock_none found]
      rw [failed]
  | some block =>
      cases emplaced : emplaceBefore position block (state.free pool).blocks with
      | error raised => rw [run_emplaceFree_error found emplaced]
      | ok placed =>
          rw [run_emplaceFree found emplaced]
          exact ⟨_, rfl⟩

structure Admitted (before after : State) (blockIndex : Nat) : Prop where
  active_eq : after.active = before.active
  inUse : ∀ other, after.InUse other →
    other = blockIndex ∨ before.InUse other

theorem Admitted.version {middle after : State} {blockIndex other : Nat}
    {block version : Block} (admitted : Admitted state middle blockIndex)
    (found : middle.blocks.lookup other = some block)
    (active_eq : after.active = middle.active)
    (replaced : after.blocks = middle.blocks.insert other version) :
    Admitted state after blockIndex where
  active_eq := active_eq.trans admitted.active_eq
  inUse := by
    intro key used
    have same : after.InUse = (middle.setBlock other version).InUse :=
      State.inUse_congr replaced
    rw [same] at used
    rcases State.inUse_setBlock.mp used with here | kept
    · exact admitted.inUse key (here ▸ ⟨block, found⟩)
    · exact admitted.inUse key kept

theorem takeFreeBlock_admits (pool : FreePool) (noneLeft inUse : Panic)
    (idx : Nat) :
    Meets (takeFreeBlock cfg pool noneLeft inUse idx) state
      (fun blockIndex final => final.InUse blockIndex ∧
        Admitted state final blockIndex) fun _ _ => True := by
  unfold takeFreeBlock
  split
  · exact trivial
  apply meets_bind.mpr
  apply meets_get.mpr
  dsimp only
  split
  · exact trivial
  split
  · exact trivial
  · next block search =>
      split
      · exact trivial
      · refine ⟨⟨block, AList.lookup_insert _⟩, rfl, ?_⟩
        exact fun other used => State.inUse_setBlock.mp used

theorem demoteCoolFront_admits {middle : State} {blockIndex : Nat}
    (inUse : middle.InUse blockIndex)
    (admitted : Admitted state middle blockIndex) :
    Meets (demoteCoolFront cfg) middle
      (fun _ final => final.InUse blockIndex ∧
        Admitted state final blockIndex) fun _ _ => True := by
  unfold demoteCoolFront
  apply meets_bind.mpr
  apply meets_get.mpr
  split
  · split
    · exact trivial
    · next front rest window =>
        cases found : middle.blocks.lookup front with
        | none => exact Meets.bindError (run_findBlock_none found) trivial
        | some block =>
            refine Meets.bindOk (run_findBlock found) ?_
            exact ⟨State.inUse_setBlock.mpr (.inr inUse),
              admitted.version found rfl rfl⟩
  · exact ⟨inUse, admitted⟩

theorem getColdFreeBlock_admits (idx : Nat) :
    Meets (getColdFreeBlock cfg idx true) state
      (fun blockIndex final => Admitted state final blockIndex)
      fun _ _ => True := by
  unfold getColdFreeBlock
  refine (takeFreeBlock_admits .cold _ _ idx).bind ?_
  intro blockIndex taken post
  refine (demoteCoolFront_admits post.1 post.2).bind ?_
  intro _ demoted post
  obtain ⟨⟨block, found⟩, admitted⟩ := post
  refine Meets.bindOk rfl ?_
  refine Meets.bindOk (run_updateBlock (by exact found) _) ?_
  exact admitted.version found rfl rfl

/-- Every block in use was so before, or has taken a slot of `victim`. -/
def Filled (victim : Nat) (before after : State) : Prop :=
  ∀ other, after.InUse other → before.InUse other ∨
    ∃ pool, ∃ index : Nat,
      (before.active pool).blocks[index]? = some victim ∧
        (after.active pool).blocks[index]? = some other

/-- `victim` is out of use, and no block but one that has taken its slot came
into use. -/
structure Leaves (victim : Nat) (before after : State) : Prop where
  absent : ¬ after.InUse victim
  filled : Filled victim before after

theorem repairSlot_fills (pool : ActivePool) (victim : Nat) :
    Meets (repairSlot cfg pool victim) state
      (fun _ final => Filled victim state final) fun _ _ => True := by
  unfold repairSlot
  apply meets_bind.mpr
  apply meets_get.mpr
  split
  · next contained =>
      have listed : victim ∈ (state.active pool).blocks := by
        simpa using contained
      have inside := List.idxOf_lt_length_iff.mpr listed
      refine (getColdFreeBlock_admits _).bind ?_
      intro replacement taken admitted other used
      rcases admitted.inUse other used with here | before
      · subst here
        refine .inr ⟨pool, (state.active pool).blocks.idxOf victim, ?_, ?_⟩
        · rw [List.getElem?_eq_getElem inside, List.getElem_idxOf]
        · simp [admitted.active_eq, List.getElem?_set_self inside]
      · exact .inl before
  · exact fun _ used => .inl used

theorem dropBlock_leaves {reached : State} {victim : Nat} (retires : Bool)
    (filled : Filled victim state reached) :
    Meets (dropBlock [.hot, .cool, .cold] retires victim) reached
      (fun _ final => Leaves victim state final) fun _ _ => True where
  absent := by
    intro used
    exact ((State.inUse_of_erase rfl victim).mp used).1 rfl
  filled := by
    intro other used
    exact filled other ((State.inUse_of_erase rfl other).mp used).2

theorem sepEraseInternal_leaves (victim : Nat) :
    Meets (sepEraseInternal cfg victim) state
      (fun _ final => Leaves victim state final) fun _ _ => True := by
  unfold sepEraseInternal
  cases found : state.blocks.lookup victim with
  | none => exact Meets.bindError (run_findBlock_none found) trivial
  | some block =>
      refine Meets.bindOk (run_blockAt found) ?_
      dsimp only
      split
      · exact trivial
      refine Meets.bindOk (run_updateBlock found _) ?_
      have wiped : (state.setBlock victim block.erase).InUse = state.InUse :=
        State.inUse_setBlock_same ⟨block, found⟩
      have returned : ∀ pool : ActivePool, Meets (do
            let position ← searchPosition .cold block.erase.eraseCount
            repairSlot cfg pool victim
            emplaceFree .cold position victim
            dropBlock [.hot, .cool, .cold]
              (cfg.badBlockThreshold ≤ block.erase.eraseCount) victim)
          (state.setBlock victim block.erase)
          (fun _ final => Leaves victim state final) fun _ _ => True := by
        intro pool
        refine ((searchPosition_unmoved .cold _).mono (fun _ _ same => same)
          fun _ _ _ => trivial).bind ?_
        intro position searched same
        subst same
        refine (repairSlot_fills pool victim).bind ?_
        intro _ repaired filled
        refine ((emplaceFree_places .cold position victim).mono
          (fun _ _ placed => placed) fun _ _ _ => trivial).bind ?_
        intro _ placed post
        obtain ⟨list, same⟩ := post
        subst same
        refine dropBlock_leaves _ ?_
        intro other used
        rw [← wiped]
        exact filled other used
      split
      · cases kind : block.blockType with
        | hot =>
            refine ((searchPosition_unmoved .hot _).mono (fun _ _ same => same)
              fun _ _ _ => trivial).bind ?_
            intro position searched same
            subst same
            refine ((emplaceFree_places .hot position victim).mono
              (fun _ _ placed => placed) fun _ _ _ => trivial).bind ?_
            intro _ placed post
            obtain ⟨list, same⟩ := post
            subst same
            refine dropBlock_leaves _ ?_
            intro other used
            rw [← wiped]
            exact .inl used
        | cool => exact returned .cool
        | cold => exact returned .cold
      · refine dropBlock_leaves _ ?_
        intro other used
        rw [← wiped]
        exact .inl used

theorem run_forM_concat {body : Nat → FTLM Unit} {items : List Nat}
    {last : Nat} {final : State}
    (returned : ((items ++ [last]).forM body).run state = .ok () final) :
    ∃ middle, (items.forM body).run state = .ok () middle ∧
      (body last).run middle = .ok () final := by
  rw [List.forM_eq_forM, List.forM_append] at returned
  obtain ⟨_, middle, early, late⟩ := run_bind_ok returned
  refine ⟨middle, early, ?_⟩
  rw [List.forM_cons] at late
  obtain ⟨_, reached, erases, rest⟩ := run_bind_ok late
  cases rest
  exact erases

theorem takenUpAgain_of_inUse {victims : List Nat} {final : State}
    (returned : (victims.forM (sepEraseInternal cfg)).run state = .ok () final)
    {victim : Nat} (member : victim ∈ victims) (used : final.InUse victim) :
    TakenUpAgain cfg victims state final victim := by
  induction victims using List.reverseRecOn generalizing final with
  | nil => cases member
  | append_singleton earlier other induction =>
      obtain ⟨middle, early, erases⟩ := run_forM_concat returned
      obtain ⟨gone, filled⟩ :=
        (sepEraseInternal_leaves other).of_ok erases
      have different : victim ≠ other := by
        intro same
        exact gone (same ▸ used)
      have before : victim ∈ earlier := by simpa [different] using member
      by_cases stays : middle.InUse victim
      · obtain ⟨first, eraser, later, start, stop, split, listed, runs, takes,
          rest⟩ := induction early before stays
        refine ⟨first, eraser, later ++ [other], start, stop, by simp [split],
          listed, runs, takes, ?_⟩
        rw [List.forM_eq_forM, List.forM_append, EStateM.run_bind,
          ← List.forM_eq_forM, rest]
        change (sepEraseInternal cfg other >>= fun _ => pure ()).run middle = _
        rw [EStateM.run_bind, erases]
        rfl
      · refine ⟨earlier, other, [], middle, final, rfl, before, early,
          ⟨erases, stays, ?_⟩, rfl⟩
        exact (filled victim used).resolve_left stays

/-- The victims that a separated collection leaves empty have departed. -/
theorem sepDoGarbageCollection_departs {isRefresh : Bool} {gcType : BlockPoolType}
    {victims : List Nat} {final : State}
    (returned : (sepDoGarbageCollection cfg env isRefresh gcType victims).run
      state = .ok () final)
    (empty : ∀ victim ∈ victims, ∀ block,
      final.blocks.lookup victim = some block → block.Empty) :
    VictimsDepart cfg env isRefresh gcType victims state final := by
  unfold sepDoGarbageCollection at returned
  obtain ⟨_, copied, copies, erases⟩ := run_bind_ok returned
  refine ⟨copied, copies, ?_⟩
  intro victim member
  cases found : final.blocks.lookup victim with
  | none => exact .inl found
  | some block =>
      exact .inr ⟨⟨block, found, empty victim member block found⟩,
        takenUpAgain_of_inUse erases member ⟨block, found⟩⟩

end Erases

end SimpleSSD.FTL
