import SimpleSSD.FTL.Emptying
import SimpleSSD.FTL.Reserve

namespace SimpleSSD.FTL

open Machine Program

/-! The return of erased blocks to their free lists: the reverse search needs a
list that is not empty, and the position it finds must outlive the slot
repair. -/

def Panic.Benign (raised : Panic) : Prop :=
  raised ≠ .emptyFreeList ∧ raised ≠ .danglingPosition

instance (raised : Panic) : Decidable raised.Benign :=
  inferInstanceAs (Decidable (_ ∧ _))

theorem Panic.Unrelated.benign {raised : Panic} (unrelated : raised.Unrelated) :
    raised.Benign :=
  ⟨unrelated.2.2.1, unrelated.2.2.2⟩

theorem Panic.Benign.of_allocation {raised : Panic}
    (member : raised ∈ allocationPanics) : raised.Benign := by
  revert member
  cases raised <;> decide

def Safe (program : FTLM α) (state : State) : Prop :=
  Meets program state (fun _ _ => True) fun raised _ => raised.Benign

section Safe

variable {cfg : Config} {env : Environment} {state : State}

theorem Stays.safe {program : FTLM α} (stays : Stays program state) :
    Safe program state :=
  stays.mono (fun _ _ _ => trivial) fun _ _ unrelated => unrelated.benign

theorem Fills.safe {target : Nat} {units : List Nat} {program : FTLM α}
    (fills : Fills target units program state) : Safe program state :=
  fills.mono (fun _ _ _ => trivial) fun _ _ unrelated => unrelated.benign

theorem Safe.bind {program : FTLM α} {next : α → FTLM β}
    (first : Safe program state)
    (rest : ∀ value reached, program.run state = .ok value reached →
      Safe (next value) reached) : Safe (program >>= next) state := by
  refine meets_bind.mpr (meets_of_cases ?_ ?_)
  · intro value reached returned
    exact rest value reached returned
  · intro raised stopped failed
    exact first.of_error failed

theorem Safe.forM {items : List α} {body : α → FTLM PUnit}
    (each : ∀ item ∈ items, ∀ reached, Safe (body item) reached) :
    Safe (items.forM body) state := by
  induction items generalizing state with
  | nil => exact trivial
  | cons item rest induction =>
      exact (each item (.head _) state).bind fun _ _ _ =>
        induction fun other member => each other (.tail _ member)

theorem getLastBlock_safe (pool : ActivePool) (iomap : IOFlag) :
    Safe (getLastBlock cfg pool iomap) state := by
  have slot : ∀ reached, Safe (slotAt pool) reached := by
    intro reached
    unfold slotAt
    apply meets_bind.mpr
    apply meets_get.mpr
    split
    · exact show Panic.Benign _ by decide
    · exact trivial
  have refilled : ∀ reached, Safe (refillSlot cfg pool) reached := by
    intro reached
    unfold refillSlot seatSlot
    refine Safe.bind trivial fun before _ _ => ?_
    refine Safe.bind (Safe.bind ?_ fun _ _ _ => trivial) fun _ _ _ => trivial
    exact (getBlockFor_raises cfg pool _ _).mono (fun _ _ _ => trivial)
      fun _ _ member => .of_allocation member
  unfold getLastBlock
  refine Safe.bind trivial fun _ advanced _ => ?_
  refine (slot advanced).bind fun blockIndex _ _ => ?_
  refine Safe.bind (findBlock_stays _ (by cases pool <;> decide)).safe
    fun block _ _ => ?_
  dsimp only
  split
  · exact (refilled _).bind fun _ _ _ => slot _
  · exact slot _

theorem copyPage_safe {plan : CopyPlan} (missing : plan.missing.Unrelated)
    (source page : Nat) : Safe (copyPage cfg env plan source page) state := by
  unfold copyPage
  refine Safe.bind (findBlock_stays source (by decide)).safe fun block _ _ => ?_
  dsimp only
  split
  · refine (getLastBlock_safe _ _).bind fun target _ _ => ?_
    refine Safe.bind (Safe.forM fun idx _ reached => ?_) fun _ _ _ => trivial
    split
    · exact (copyUnit_fills missing _ _ _ _ _).safe.bind fun _ _ _ => trivial
    · exact trivial
  · exact trivial

theorem copyVictims_safe {plan : CopyPlan} {invalid : Panic}
    (missing : plan.missing.Unrelated) (unrelated : invalid.Unrelated)
    (victims : List Nat) :
    Safe (copyVictims cfg env plan invalid victims) state :=
  Safe.forM fun victim _ _ =>
    Safe.bind (findBlock_stays victim unrelated).safe fun _ _ _ =>
      Safe.forM fun page _ _ => copyPage_safe missing victim page

theorem refreshLayers_safe (queueNum amount : Nat) :
    Safe (refreshLayers cfg env queueNum amount) state := by
  induction amount generalizing state with
  | zero => exact trivial
  | succ amount induction =>
      unfold refreshLayers
      refine Safe.bind trivial fun before _ _ => ?_
      split
      · exact trivial
      · next layerID _ _ =>
          refine Safe.bind (popLayer_stays queueNum layerID).safe
            fun taken _ _ => ?_
          dsimp only
          split
          · refine Safe.bind ?_ fun _ _ _ => induction
            unfold copyLayer
            refine Safe.bind trivial fun popped _ _ => ?_
            split
            · exact trivial
            · exact Safe.forM fun page _ _ =>
                copyPage_safe (show Panic.Unrelated .invalidMappingInRefresh by decide)
                  (layerID / 64) page
          · exact induction

theorem placePage_safe (lpn : Nat) (flag : IOFlag) :
    Safe (placePage cfg env lpn flag) state := by
  unfold placePage
  refine Safe.bind (openMapping_stays lpn flag).safe fun _ _ _ => ?_
  refine (getLastBlock_safe _ _).bind fun target _ _ => ?_
  exact Safe.bind (findBlock_stays target (by decide)).safe
    fun _ _ _ => (programUnits_fills true lpn flag).safe

theorem sepPlacePage_safe (lpn : Nat) (flag : IOFlag) :
    Safe (sepPlacePage cfg env lpn flag) state := by
  unfold sepPlacePage
  refine Safe.bind (openMapping_stays lpn flag).safe fun last _ _ => ?_
  refine Safe.bind (poolTypeOf_stays .cold last).safe fun curBlockType _ _ => ?_
  have placed : ∀ pool reached, Safe (do
      let target ← getLastBlock cfg pool flag
      let _ ← findBlock target .noSuchBlock
      programUnits cfg env true target lpn flag) reached := by
    intro pool reached
    refine (getLastBlock_safe _ _).bind fun target _ _ => ?_
    exact Safe.bind (findBlock_stays target (by decide)).safe
      fun _ _ _ => (programUnits_fills true lpn flag).safe
  dsimp only
  split
  · exact placed .cool _
  · exact placed .hot _

/-- A filling write never comes to collect. -/
theorem fill_safe (filling : FillWrite) : Safe (fill cfg env filling) state := by
  cases filling with
  | plain lpn =>
      change Safe (writeInternal cfg env lpn _ false) state
      rw [writeInternal_eq]
      refine (placePage_safe lpn _).bind fun _ _ _ => ?_
      refine Safe.bind trivial fun below _ _ => ?_
      dsimp only
      split
      · exact show Panic.Benign _ by decide
      · exact trivial
  | cool lpn =>
      change Safe (sepWriteInternal cfg env lpn _ false) state
      rw [sepWriteInternal_eq]
      refine (sepPlacePage_safe lpn _).bind fun _ _ _ => ?_
      refine Safe.bind trivial fun below _ _ => ?_
      dsimp only
      split
      · exact show Panic.Benign _ by decide
      refine Safe.bind trivial fun below _ _ => ?_
      split
      · exact show Panic.Benign _ by decide
      · exact trivial
  | hot lpn =>
      unfold fill sepHotWriteInternal
      refine Safe.bind (openMapping_stays lpn _).safe fun last _ _ => ?_
      refine Safe.bind (poolTypeOf_stays .hot last).safe
        fun curBlockType _ _ => ?_
      dsimp only
      split
      · exact show Panic.Benign _ by decide
      refine (getLastBlock_safe _ _).bind fun target _ _ => ?_
      refine Safe.bind (findBlock_stays target (by decide)).safe
        fun _ _ _ => ?_
      refine (programUnits_fills false lpn _).safe.bind fun _ _ _ => ?_
      refine Safe.bind trivial fun below _ _ => ?_
      split
      · exact show Panic.Benign _ by decide
      refine Safe.bind trivial fun below _ _ => ?_
      split
      · exact show Panic.Benign _ by decide
      · exact trivial

end Safe

/-! Single erases. -/

section Erases

variable {cfg : Config} {env : Environment} {state : State}

theorem run_searchPosition {pool : FreePool}
    (stocked : (state.free pool).blocks ≠ []) (erasedCount : Nat) :
    (searchPosition pool erasedCount).run state =
      .ok (freePosition erasedCount (state.free pool).blocks) state := by
  have filled : (state.free pool).blocks.isEmpty = false := by
    simpa using stocked
  simp only [searchPosition, EStateM.run_bind, EStateM.run_get, filled]
  rfl

theorem emplaceBefore_ne_nil {position : Option Nat} {block : Block}
    {blocks placed : List Block}
    (emplaced : emplaceBefore position block blocks = .ok placed) :
    placed ≠ [] := by
  intro empty
  have perm := emplaceBefore_perm emplaced
  rw [empty] at perm
  exact List.cons_ne_nil _ _ perm.nil_eq.symm

theorem eraseInternal_inserts (victim : Nat)
    (stocked : (state.free .plain).blocks ≠ []) :
    Meets (eraseInternal cfg victim) state
      (fun _ final => (final.free .plain).blocks ≠ [])
      fun raised _ => raised.Benign := by
  unfold eraseInternal
  cases found : state.blocks.lookup victim with
  | none =>
      exact Meets.bindError (run_findBlock_none found)
        (show Panic.Benign _ by decide)
  | some block =>
      refine Meets.bindOk (run_findBlock found) ?_
      dsimp only
      split
      · exact show Panic.Benign _ by decide
      refine Meets.bindOk (run_updateBlock found _) ?_
      split
      · have wiped : (state.setBlock victim block.erase).blocks.lookup victim =
            some block.erase := AList.lookup_insert _
        obtain ⟨placed, emplaced⟩ := emplaceBefore_freePosition
          block.erase.eraseCount block.erase
          ((state.setBlock victim block.erase).free .plain).blocks
        refine Meets.bindOk (run_searchPosition (by exact stocked) _) ?_
        refine Meets.bindOk (run_emplaceFree wiped emplaced) ?_
        change (Function.update state.free .plain _ .plain).blocks ≠ []
        rw [Function.update_self]
        exact emplaceBefore_ne_nil emplaced
      · exact stocked

theorem eraseAll_inserts {victims : List Nat}
    (stocked : victims ≠ [] → (state.free .plain).blocks ≠ []) :
    Safe (victims.forM (eraseInternal cfg)) state := by
  induction victims generalizing state with
  | nil => exact trivial
  | cons victim rest induction =>
      refine (eraseInternal_inserts victim
        (stocked (List.cons_ne_nil _ _))).bind ?_
      intro _ erased kept
      exact induction fun _ => kept

/-- The repair of a slot touches a block only if a slot of the array for its
type names it. -/
def Named (state : State) (victim : Nat) (block : Block) : Prop :=
  (block.blockType = .cool ∧ victim ∈ (state.active .cool).blocks) ∨
    victim ∈ (state.active .cold).blocks

/-- A victim that a slot names is worn at least as much as the free blocks and
the other victims, so that it is inserted at the end of the list. -/
def Worn (state : State) (victims : List Nat) : Prop :=
  ∀ victim ∈ victims, ∀ block, state.blocks.lookup victim = some block →
    Named state victim block →
    (∀ free ∈ (state.free .cold).blocks,
      free.eraseCount ≤ block.eraseCount + 1) ∧
    ∀ other ∈ victims, ∀ version, state.blocks.lookup other = some version →
      version.eraseCount ≤ block.eraseCount

structure Erasable (state : State) (victims : List Nat) : Prop where
  nodup : victims.Nodup
  inUse : ∀ victim ∈ victims, state.InUse victim
  hot : ∀ victim ∈ victims, ∀ block,
    state.blocks.lookup victim = some block → block.blockType = .hot →
      (state.free .hot).blocks ≠ []
  cold : ∀ victim ∈ victims, ∀ block,
    state.blocks.lookup victim = some block → block.blockType ≠ .hot →
      (state.free .cold).blocks ≠ []
  worn : Worn state victims

theorem freePosition_end {erasedCount : Nat} {blocks : List Block}
    (worn : ∀ free ∈ blocks, free.eraseCount ≤ erasedCount) :
    freePosition erasedCount blocks = none := by
  unfold freePosition
  have none : blocks.reverse.takeWhile
      (fun block => erasedCount < block.eraseCount) = [] := by
    cases reversed : blocks.reverse with
    | nil => rfl
    | cons last rest =>
        have member : last ∈ blocks :=
          List.mem_reverse.mp (reversed ▸ .head _)
        have low := worn last member
        rw [List.takeWhile_cons_of_neg (by simpa using low)]
  rw [none]
  rfl

structure Patched (before after : State) : Prop where
  version : ∀ other block, before.blocks.lookup other = some block →
    ∃ later, after.blocks.lookup other = some later ∧ block.Retyped later
  free : ∀ pool,
    (after.free pool).blocks.Sublist (before.free pool).blocks
  hot_eq : after.free .hot = before.free .hot
  slots : ∀ pool, ∀ blockIndex ∈ (after.active pool).blocks,
    blockIndex ∈ (before.active pool).blocks ∨
      before.blocks.lookup blockIndex = none

theorem Patched.refl (state : State) : Patched state state :=
  ⟨fun _ block found => ⟨block, found, .refl block⟩,
    fun _ => List.Sublist.refl _, rfl, fun _ _ member => .inl member⟩

theorem repairSlot_patches (pool : ActivePool) (victim : Nat) :
    Meets (repairSlot cfg pool victim) state
      (fun _ final => Patched state final ∧
        (victim ∉ (state.active pool).blocks → final = state))
      fun raised _ => raised.Benign := by
  unfold repairSlot
  apply meets_bind.mpr
  apply meets_get.mpr
  split
  · next named =>
      have listed : victim ∈ (state.active pool).blocks := by simpa using named
      refine (((getBlockFor_supplies .cool _).and
        (getBlockFor_raises cfg .cool _ state)).mono
          (fun _ _ post => post.1) ?_).bind ?_
      · intro _ _ failed
        exact .of_allocation failed.2
      intro replacement taken supplied
      refine ⟨⟨supplied.version, supplied.sublist, ?_, ?_⟩,
        fun absent => absurd listed absent⟩
      · exact supplied.free_eq .hot (by decide)
      · intro other blockIndex member
        dsimp only at member
        rw [State.setActive_active, supplied.active_eq] at member
        by_cases same : other = pool
        · subst same
          rw [Function.update_self] at member
          rcases List.mem_or_eq_of_mem_set member with kept | new
          · exact .inl kept
          · exact .inr (new ▸ supplied.absent)
        · rw [Function.update_of_ne same] at member
          exact .inl member
  · exact ⟨.refl state, fun _ => rfl⟩

/-- What the erase of a block with an erase count does to everything else. -/
structure Released (before after : State) (victim erasedCount : Nat) :
    Prop where
  version : ∀ other, other ≠ victim → ∀ block,
    before.blocks.lookup other = some block →
    ∃ later, after.blocks.lookup other = some later ∧ block.Retyped later
  free : ∀ pool, ∀ block ∈ (after.free pool).blocks,
    block ∈ (before.free pool).blocks ∨ block.eraseCount = erasedCount
  hot : (before.free .hot).blocks ≠ [] → (after.free .hot).blocks ≠ []
  -- a demotion comes with a block that is inserted
  cold : (after.free .cold).blocks ≠ [] ∨
    (before.free .cold).blocks = [] ∧ ∀ other block later,
      before.blocks.lookup other = some block →
      after.blocks.lookup other = some later →
        later.blockType = block.blockType
  slots : ∀ pool, ∀ blockIndex ∈ (after.active pool).blocks,
    blockIndex ∈ (before.active pool).blocks ∨
      before.blocks.lookup blockIndex = none

theorem Erasable.released {final : State} {victim : Nat} {rest : List Nat}
    {block : Block} (erasable : Erasable state (victim :: rest))
    (found : state.blocks.lookup victim = some block)
    (released : Released state final victim (block.eraseCount + 1)) :
    Erasable final rest := by
  obtain ⟨fresh, nodup⟩ := List.nodup_cons.mp erasable.nodup
  have apart : ∀ other ∈ rest, other ≠ victim := by
    intro other member same
    exact fresh (same ▸ member)
  -- the version of a victim before, from the one after
  have earlier : ∀ other ∈ rest, ∀ later,
      final.blocks.lookup other = some later → ∃ version,
        state.blocks.lookup other = some version ∧ version.Retyped later := by
    intro other member later lookup
    obtain ⟨version, found'⟩ := erasable.inUse other (.tail _ member)
    obtain ⟨current, lookup', retyped⟩ :=
      released.version other (apart other member) version found'
    rw [lookup] at lookup'
    cases lookup'
    exact ⟨version, found', retyped⟩
  refine ⟨nodup, ?_, ?_, ?_, ?_⟩
  · intro other member
    obtain ⟨version, found'⟩ := erasable.inUse other (.tail _ member)
    obtain ⟨later, lookup, _⟩ :=
      released.version other (apart other member) version found'
    exact ⟨later, lookup⟩
  · intro other member later lookup hot
    obtain ⟨version, found', retyped⟩ := earlier other member later lookup
    apply released.hot
    apply erasable.hot other (.tail _ member) version found'
    rw [← retyped.kept (by rw [hot]; decide)]
    exact hot
  · intro other member later lookup notHot
    obtain ⟨version, found', _⟩ := earlier other member later lookup
    rcases released.cold with stocked | ⟨empty, same⟩
    · exact stocked
    · rw [same other version later found' lookup] at notHot
      exact absurd empty
        (erasable.cold other (.tail _ member) version found' notHot)
  · intro other member later lookup named
    obtain ⟨version, found', retyped⟩ := earlier other member later lookup
    have named' : Named state other version := by
      have seated : ∀ pool, other ∈ (final.active pool).blocks →
          other ∈ (state.active pool).blocks := by
        intro pool listed
        refine (released.slots pool other listed).resolve_right ?_
        rw [found']
        simp
      rcases named with ⟨cool, listed⟩ | listed
      · refine .inl ⟨?_, seated .cool listed⟩
        rw [← retyped.kept (by rw [cool]; decide)]
        exact cool
      · exact .inr (seated .cold listed)
    obtain ⟨free, others⟩ :=
      erasable.worn other (.tail _ member) version found' named'
    rw [retyped.eraseCount_eq]
    refine ⟨?_, ?_⟩
    · intro candidate listed
      rcases released.free .cold candidate listed with old | new
      · exact free candidate old
      · have less := others victim (.head _) block found
        omega
    · intro another member' current lookup'
      obtain ⟨version', found'', retyped'⟩ :=
        earlier another member' current lookup'
      rw [retyped'.eraseCount_eq]
      exact others another (.tail _ member') version' found''

theorem Released.of_lookup {final : State} {victim erasedCount : Nat}
    (gone : final.blocks.lookup victim = none)
    (lookups : ∀ other, other ≠ victim →
      final.blocks.lookup other = state.blocks.lookup other)
    (free : ∀ pool, ∀ block ∈ (final.free pool).blocks,
      block ∈ (state.free pool).blocks ∨ block.eraseCount = erasedCount)
    (hot : (state.free .hot).blocks ≠ [] → (final.free .hot).blocks ≠ [])
    (cold_eq : final.free .cold = state.free .cold)
    (active_eq : final.active = state.active) :
    Released state final victim erasedCount := by
  refine ⟨?_, free, hot, ?_, ?_⟩
  · intro other different block found
    exact ⟨block, (lookups other different).trans found, .refl block⟩
  · by_cases empty : (state.free .cold).blocks = []
    · refine .inr ⟨empty, ?_⟩
      intro other block later found lookup
      have different : other ≠ victim := by
        intro same
        rw [same, gone] at lookup
        cases lookup
      rw [lookups other different, found] at lookup
      cases lookup
      rfl
    · exact .inl (by rw [cold_eq]; exact empty)
  · intro pool blockIndex member
    rw [active_eq] at member
    exact .inl member

theorem return_inserts (pool : ActivePool) {victim : Nat} {block : Block}
    {pools : List ActivePool} {retires : Bool}
    (stocked : (state.free .cold).blocks ≠ [])
    (worn : victim ∈ (state.active pool).blocks →
      ∀ free ∈ (state.free .cold).blocks,
        free.eraseCount ≤ block.eraseCount + 1) :
    Meets (do
        let position ← searchPosition .cold block.erase.eraseCount
        repairSlot cfg pool victim
        emplaceFree .cold position victim
        dropBlock pools retires victim) (state.setBlock victim block.erase)
      (fun _ final => Released state final victim (block.eraseCount + 1))
      fun raised _ => raised.Benign := by
  have wiped : (state.setBlock victim block.erase).blocks.lookup victim =
      some block.erase := AList.lookup_insert _
  refine Meets.bindOk (run_searchPosition (by exact stocked) _) ?_
  refine (repairSlot_patches pool victim).bind ?_
  intro _ repaired post
  obtain ⟨patched, unnamed⟩ := post
  obtain ⟨later, lookup, retyped⟩ := patched.version victim block.erase wiped
  -- the position is where it was, or at the end
  have placeable : ∃ placed, emplaceBefore (freePosition block.erase.eraseCount
      ((state.setBlock victim block.erase).free .cold).blocks) later
      (repaired.free .cold).blocks = .ok placed := by
    by_cases named : victim ∈ (state.active pool).blocks
    · have atEnd : freePosition block.erase.eraseCount
          ((state.setBlock victim block.erase).free .cold).blocks = none :=
        freePosition_end (worn named)
      rw [atEnd]
      exact ⟨_, rfl⟩
    · rw [unnamed named]
      exact emplaceBefore_freePosition _ _ _
  obtain ⟨placed, emplaced⟩ := placeable
  refine Meets.bindOk (run_emplaceFree lookup emplaced) ?_
  have perm := emplaceBefore_perm emplaced
  refine ⟨?_, ?_, ?_, ?_, ?_⟩
  · intro other different version found'
    obtain ⟨current, lookup', retyped'⟩ := patched.version other version
      ((AList.lookup_insert_ne different).trans found')
    refine ⟨current, ?_, retyped'⟩
    exact (AList.lookup_erase_ne different).trans lookup'
  · intro other candidate member
    by_cases same : other = .cold
    · subst same
      have listed : candidate ∈ placed := by simpa using member
      rcases List.mem_cons.mp (perm.mem_iff.mp listed) with here | old
      · refine .inr ?_
        rw [here, retyped.eraseCount_eq]
        rfl
      · exact .inl ((patched.free .cold).subset old)
    · have listed : candidate ∈ (repaired.free other).blocks := by
        simpa [same] using member
      exact .inl ((patched.free other).subset listed)
  · intro hot
    have same : Function.update repaired.free .cold
        ⟨placed, (repaired.free .cold).count + 1⟩ .hot = state.free .hot := by
      rw [Function.update_of_ne (by decide)]
      exact patched.hot_eq
    rw [← same] at hot
    exact hot
  · refine .inl ?_
    change (Function.update repaired.free .cold _ .cold).blocks ≠ []
    rw [Function.update_self]
    exact emplaceBefore_ne_nil emplaced
  · intro other blockIndex member
    rcases patched.slots other blockIndex member with old | absent
    · exact .inl old
    · refine .inr ?_
      by_cases same : blockIndex = victim
      · rw [same, wiped] at absent
        cases absent
      · exact (AList.lookup_insert_ne same).symm.trans absent

theorem sepEraseInternal_releases {victim : Nat} {block : Block}
    (found : state.blocks.lookup victim = some block)
    (hot : block.blockType = .hot → (state.free .hot).blocks ≠ [])
    (cold : block.blockType ≠ .hot → (state.free .cold).blocks ≠ [])
    (worn : block.blockType ≠ .hot → Named state victim block →
      ∀ free ∈ (state.free .cold).blocks,
        free.eraseCount ≤ block.eraseCount + 1) :
    Meets (sepEraseInternal cfg victim) state
      (fun _ final => Released state final victim (block.eraseCount + 1))
      fun raised _ => raised.Benign := by
  have wiped : (state.setBlock victim block.erase).blocks.lookup victim =
      some block.erase := AList.lookup_insert _
  have gone : ((state.setBlock victim block.erase).blocks.erase victim).lookup
      victim = none := AList.lookup_erase _ _
  have lookups : ∀ other, other ≠ victim →
      ((state.setBlock victim block.erase).blocks.erase victim).lookup other =
        state.blocks.lookup other := by
    intro other different
    rw [AList.lookup_erase_ne different]
    exact AList.lookup_insert_ne different
  unfold sepEraseInternal
  refine Meets.bindOk (run_blockAt found) ?_
  dsimp only
  split
  · exact show Panic.Benign _ by decide
  refine Meets.bindOk (run_updateBlock found _) ?_
  split
  · cases kind : block.blockType with
    | hot =>
        have stocked := hot kind
        obtain ⟨placed, emplaced⟩ := emplaceBefore_freePosition
          block.erase.eraseCount block.erase
          ((state.setBlock victim block.erase).free .hot).blocks
        refine Meets.bindOk (run_searchPosition (by exact stocked) _) ?_
        refine Meets.bindOk (run_emplaceFree wiped emplaced) ?_
        refine Released.of_lookup gone lookups ?_ ?_ ?_ rfl
        · intro other candidate member
          by_cases same : other = .hot
          · subst same
            have listed : candidate ∈ placed := by simpa using member
            have perm := emplaceBefore_perm emplaced
            rcases List.mem_cons.mp (perm.mem_iff.mp listed) with here | old
            · exact .inr (here ▸ rfl)
            · exact .inl old
          · exact .inl (by simpa [same] using member)
        · intro _
          change (Function.update state.free .hot _ .hot).blocks ≠ []
          rw [Function.update_self]
          exact emplaceBefore_ne_nil emplaced
        · rfl
    | cool =>
        refine return_inserts .cool ?_ ?_
        · exact cold (by simp [kind])
        · exact fun named => worn (by simp [kind]) (.inl ⟨kind, named⟩)
    | cold =>
        refine return_inserts .cold ?_ ?_
        · exact cold (by simp [kind])
        · exact fun named => worn (by simp [kind]) (.inr named)
  · exact Released.of_lookup gone lookups (fun _ _ member => .inl member) id
      rfl rfl

theorem sepEraseAll_inserts {victims : List Nat}
    (erasable : Erasable state victims) :
    Safe (victims.forM (sepEraseInternal cfg)) state := by
  induction victims generalizing state with
  | nil => exact trivial
  | cons victim rest induction =>
      obtain ⟨block, found⟩ := erasable.inUse victim (.head _)
      refine (sepEraseInternal_releases found
        (erasable.hot victim (.head _) block found)
        (erasable.cold victim (.head _) block found)
        fun _ named =>
          (erasable.worn victim (.head _) block found named).1).bind ?_
      intro _ erased released
      exact induction (erasable.released found released)

/-- HOT blocks only: no slot is repaired. -/
theorem hotEraseAll_inserts {victims : List Nat}
    (hot : ∀ victim ∈ victims, ∀ block,
      state.blocks.lookup victim = some block → block.blockType = .hot)
    (stocked : victims ≠ [] → (state.free .hot).blocks ≠ []) :
    Safe (victims.forM (sepEraseInternal cfg)) state := by
  induction victims generalizing state with
  | nil => exact trivial
  | cons victim rest induction =>
      cases found : state.blocks.lookup victim with
      | none =>
          refine meets_bind.mpr (Meets.bindError (run_findBlock_none found) ?_)
          exact show Panic.Benign _ by decide
      | some block =>
          have kind := hot victim (.head _) block found
          have listed := stocked (List.cons_ne_nil _ _)
          refine (((sepEraseInternal_hot found kind).and
            (sepEraseInternal_releases found (fun _ => listed)
              (fun notHot => absurd kind notHot)
              fun notHot => absurd kind notHot)).mono
            (fun _ _ post => post) fun _ _ failed => failed.2).bind ?_
          intro _ erased post
          obtain ⟨lookups, released⟩ := post
          refine induction ?_ fun _ => released.hot listed
          intro other member version lookup
          rw [lookups] at lookup
          split at lookup
          · cases lookup
          · exact hot other (.tail _ member) version lookup

end Erases

/-! Collections. -/

/-- The free list behind an array outlives the copy phase of a collection. -/
def Lasts (cfg : Config) (pool : ActivePool) (state : State)
    (victims : List Nat) : Prop :=
  (state.free pool.source).blocks ≠ [] ∧
    (state.copiesOfVictims cfg victims = 0 ∨
      cfg.pageCountToMaxPerf * cfg.pagesInBlock +
        state.copiesOfVictims cfg victims ≤ state.spare cfg pool)

structure Ample (cfg : Config) (state : State) (victims : List Nat) :
    Prop where
  plain : cfg.hotColdSeparation = false → victims ≠ [] →
    Lasts cfg .plain state victims
  cold : cfg.hotColdSeparation = true →
    (∃ victim ∈ victims, cfg.hotBlocksLimit ≤ victim) →
      Lasts cfg .cool state victims
  hot : cfg.hotColdSeparation = true →
    (∃ victim ∈ victims, victim < cfg.hotBlocksLimit) →
      (state.free .hot).blocks ≠ []
  worn : cfg.hotColdSeparation = true → Worn state victims

section Collections

variable {cfg : Config} {env : Environment} {state : State}
  {mapped : Set (Nat × Nat)}

theorem Lasts.kept {pool : ActivePool} {victims : List Nat} {copied : State}
    (lasts : Lasts cfg pool state victims)
    (slots : (state.active pool).blocks.length = cfg.pageCountToMaxPerf)
    (copying : Copying cfg pool (state.copiesOfVictims cfg victims) state
      copied) : (copied.free pool.source).blocks ≠ [] := by
  obtain ⟨stocked, enough⟩ := lasts
  rcases copying.used with same | ⟨some, used⟩
  · rw [same]
    exact stocked
  · have spare := copying.spare_le
    have reserve := enough.resolve_left (Nat.ne_of_gt some)
    rw [copying.onward.length_eq, slots] at used
    intro empty
    unfold State.spare at spare reserve
    rw [empty, List.length_nil, Nat.mul_zero] at spare
    omega

theorem Pools.stocked (pools : Pools cfg state) {pool : ActivePool}
    (used : pool.source ∈ freePools cfg) : Stocked pool state :=
  ⟨fun block member => (pools.rested pool.source block member).2,
    pools.counted pool.source used⟩

theorem doGarbageCollection_safe (isRefresh : Bool) {victims : List Nat}
    (plain : cfg.hotColdSeparation = false) (pools : Pools cfg state)
    (ample : Ample cfg state victims) :
    Safe (doGarbageCollection cfg env isRefresh victims) state := by
  have missing : (gcPlan isRefresh).missing.Unrelated :=
    show Panic.Unrelated .invalidMappingTableEntry by decide
  unfold doGarbageCollection
  refine (copyVictims_safe missing (by decide) victims).bind ?_
  intro _ copied returned
  have stocked : Stocked .plain state :=
    pools.stocked (by simp [freePools, plain, ActivePool.source])
  have copying := (copyVictims_copies missing (by decide) victims
    stocked).of_ok returned
  refine eraseAll_inserts ?_
  intro some
  exact (ample.plain plain some).kept (pools.slots .plain) copying

theorem Worn.onward {victims : List Nat} {copied : State}
    (worn : Worn state victims) (onward : Onward cfg state copied)
    (inUse : ∀ victim ∈ victims, state.InUse victim) :
    Worn copied victims := by
  -- the version of a victim before the copy phase
  have earlier : ∀ victim ∈ victims, ∀ later,
      copied.blocks.lookup victim = some later → ∃ block,
        state.blocks.lookup victim = some block ∧ block.Aged cfg later := by
    intro victim member later lookup
    obtain ⟨block, found⟩ := inUse victim member
    obtain ⟨current, lookup', aged⟩ := onward.version victim block found
    rw [lookup] at lookup'
    cases lookup'
    exact ⟨block, found, aged⟩
  intro victim member later lookup named
  obtain ⟨block, found, aged⟩ := earlier victim member later lookup
  have seated : ∀ pool, victim ∈ (copied.active pool).blocks →
      victim ∈ (state.active pool).blocks := by
    intro pool listed
    refine (onward.slots pool victim listed).resolve_right ?_
    rw [found]
    simp
  have named' : Named state victim block := by
    rcases named with ⟨cool, listed⟩ | listed
    · exact .inl ⟨aged.cool cool, seated .cool listed⟩
    · exact .inr (seated .cold listed)
  obtain ⟨free, others⟩ := worn victim member block found named'
  rw [aged.eraseCount_eq]
  refine ⟨fun candidate listed =>
    free candidate ((onward.free .cold).subset listed), ?_⟩
  intro other member' current lookup'
  obtain ⟨version, found', aged'⟩ := earlier other member' current lookup'
  rw [aged'.eraseCount_eq]
  exact others other member' version found'

theorem copied_pools {plan : CopyPlan} {invalid : Panic}
    {victims : List Nat} {copied : State} (counts : plan.Counts)
    (destination : plan.destination = gcPool cfg)
    (text : invalid = .invalidBlock ∨ invalid = .invalidBlockInGC)
    (sound : (machine cfg env .all).sound (.rest mapped, state))
    (returned : (copyVictims cfg env plan invalid victims).run state =
      .ok () copied) : Pools cfg copied := by
  have sound' : (machine cfg env .all).sound
      ({ Phase.rest mapped with victims := victims }, state) :=
    ⟨sound.1, sound.2.of_agree rfl rfl rfl rfl⟩
  obtain ⟨_, ⟨pools, _⟩, _⟩ := ((copyVictims_follows counts destination text
    rfl rfl rfl).meets (machine_trivial cfg env .all) sound' trivial).of_ok
      returned
  exact pools

theorem sepDoGarbageCollection_safe (isRefresh : Bool)
    (gcType : BlockPoolType) {victims : List Nat}
    (separated : cfg.hotColdSeparation = true)
    (sound : (machine cfg env .all).sound (.rest mapped, state))
    (listed : (∀ victim ∈ victims, victim < cfg.hotBlocksLimit) ∨
      (victims.Nodup ∧ ∀ victim ∈ victims, state.InUse victim))
    (ample : Ample cfg state victims) :
    Safe (sepDoGarbageCollection cfg env isRefresh gcType victims) state := by
  have missing : (sepGCPlan isRefresh gcType).missing.Unrelated :=
    show Panic.Unrelated .invalidMappingTableEntry by decide
  unfold sepDoGarbageCollection
  refine (copyVictims_safe missing (by decide) victims).bind ?_
  intro _ copied returned
  have stocked : Stocked .cool state :=
    sound.1.stocked (by simp [freePools, separated, ActivePool.source])
  have copying := (copyVictims_copies missing (by decide) victims
    stocked).of_ok returned
  have pools := copied_pools (sepGCPlan_counts isRefresh gcType)
    (by simp [gcPool, separated, sepGCPlan]) (.inr rfl) sound returned
  have hot_eq : copied.free .hot = state.free .hot :=
    copying.free_eq .hot (show FreePool.hot ≠ .cold by decide)
  have region : ∀ victim block, copied.blocks.lookup victim = some block →
      (block.blockType = .hot ↔ victim < cfg.hotBlocksLimit) := by
    intro victim block found
    have typed := pools.typed separated victim block found
    cases kind : block.blockType with
    | hot =>
        rw [kind] at typed
        exact iff_of_true rfl typed
    | cool =>
        rw [kind] at typed
        exact iff_of_false (by decide) (Nat.not_lt.mpr typed)
    | cold =>
        rw [kind] at typed
        exact iff_of_false (by decide) (Nat.not_lt.mpr typed)
  rcases listed with hot | ⟨nodup, inUse⟩
  · refine hotEraseAll_inserts ?_ ?_
    · intro victim member block found
      exact (region victim block found).mpr (hot victim member)
    · intro some
      obtain ⟨victim, member⟩ := List.exists_mem_of_ne_nil victims some
      rw [hot_eq]
      exact ample.hot separated ⟨victim, member, hot victim member⟩
  · refine sepEraseAll_inserts ⟨nodup, ?_, ?_, ?_,
      (ample.worn separated).onward copying.onward inUse⟩
    · intro victim member
      obtain ⟨block, found⟩ := inUse victim member
      obtain ⟨later, found', _⟩ := copying.onward.version victim block found
      exact ⟨later, found'⟩
    · intro victim member block found hot
      rw [hot_eq]
      exact ample.hot separated
        ⟨victim, member, (region victim block found).mp hot⟩
    · intro victim member block found notHot
      refine (ample.cold separated ⟨victim, member, ?_⟩).kept
        (sound.1.slots .cool) copying
      exact Nat.not_lt.mp fun below =>
        notHot ((region victim block found).mpr below)

end Collections

/-! Where the operations of a run enter a collection. -/

section Entries

variable (cfg : Config) (env : Environment)

/-- The blocks of a free list are below the threshold, and victims are
selected. -/
inductive Selects (state : State) : FreePool → List Nat → State → Prop
  | plain (off : cfg.hotColdSeparation = false)
      (below : env.belowGCThreshold .plain (state.free .plain).count = true)
      (selects : (selectVictimBlock cfg env).run state = .ok victims called) :
      Selects state .plain victims called
  | cold (on : cfg.hotColdSeparation = true)
      (below : env.belowGCThreshold .cold (state.free .cold).count = true)
      (selects : (selectColdVictimBlock cfg env).run state =
        .ok victims called) : Selects state .cold victims called
  | hot (on : cfg.hotColdSeparation = true)
      (below : env.belowGCThreshold .hot (state.free .hot).count = true)
      (selects : (selectHotVictimBlock cfg env).run state =
        .ok victims called) : Selects state .hot victims called

def collectCold : FTLM Unit := do
  if ← needsGC env .cold then
    coldGC cfg env false

def refreshPool : FreePool :=
  if cfg.hotColdSeparation then .cold else .plain

/-- An operation that starts in `state` collects `victims`, in the state
`called`. -/
inductive Enters (state : State) : Op → List Nat → State → Prop
  | write (asked : 0 < flag.count cfg.ioUnitInPage)
      (off : cfg.hotColdSeparation = false)
      (places : (placePage cfg env lpn flag).run state = .ok () placed)
      (selects : Selects cfg env placed .plain victims called) :
      Enters state (.write lpn flag) victims called
  | sepWrite (asked : 0 < flag.count cfg.ioUnitInPage)
      (on : cfg.hotColdSeparation = true)
      (places : (sepPlacePage cfg env lpn flag).run state = .ok () placed)
      (selects : Selects cfg env placed .cold victims called) :
      Enters state (.write lpn flag) victims called
  | sepWriteHot (asked : 0 < flag.count cfg.ioUnitInPage)
      (on : cfg.hotColdSeparation = true)
      (places : (sepPlacePage cfg env lpn flag).run state = .ok () placed)
      (collects : (collectCold cfg env).run placed = .ok () collected)
      (selects : Selects cfg env collected .hot victims called) :
      Enters state (.write lpn flag) victims called
  | refresh (opens : openQueue.run state = .ok target opened)
      (selects : Selects cfg env opened (refreshPool cfg) victims called) :
      Enters state .refresh victims called
  | refreshed (pops : (popLayers cfg env cfg.refreshMaxLayerNum).run state =
        .ok target popped)
      (selects : Selects cfg env popped (refreshPool cfg) victims called) :
      Enters state .refresh victims called
  | format (unmaps : ((state.table.keys.filter (inRange slpn nlp)).forM
        (unmap cfg .formatBlockNotInUse)).run state = .ok () called) :
      Enters state (.format slpn nlp) (formattedBlocks cfg state
        (state.table.keys.filter (inRange slpn nlp))) called

end Entries

section Operations

variable {cfg : Config} {env : Environment} {state called : State}
  {mapped : Set (Nat × Nat)} {victims : List Nat}

theorem Selects.sound {pool : FreePool}
    (selects : Selects cfg env state pool victims called)
    (sound : (machine cfg env .all).sound (.rest mapped, state)) :
    (machine cfg env .all).sound (.rest mapped, called) := by
  have ended : ∀ {program : FTLM (List Nat)},
      (machine cfg env .all).Follows program (.rest mapped) state
        (fun victims last _ =>
          last = { Phase.rest mapped with victims := victims }) →
      program.run state = .ok victims called →
        (machine cfg env .all).sound (.rest mapped, called) := by
    intro program follows returned
    obtain ⟨last, ⟨pools, maps⟩, _, same⟩ := (follows.meets
      (machine_trivial cfg env .all) sound trivial).of_ok returned
    subst same
    exact ⟨pools, maps.of_agree rfl rfl rfl rfl⟩
  cases selects with
  | plain off below selects =>
      exact ended (selectVictimBlock_follows off trivial
        (Phase.rest_settled mapped) rfl) selects
  | cold on below selects =>
      exact ended (selectColdVictimBlock_follows on trivial
        (Phase.rest_settled mapped) rfl) selects
  | hot on below selects =>
      exact ended (selectHotVictimBlock_follows on trivial
        (Phase.rest_settled mapped) rfl) selects

theorem selectColdVictimBlock_listed
    (selects : (selectColdVictimBlock cfg env).run state =
      .ok victims called) :
    victims.Nodup ∧ ∀ victim ∈ victims, called.InUse victim := by
  have spec := coldVictimsOf_spec cfg env state
  unfold selectColdVictimBlock at selects
  obtain ⟨_, _, read, selects⟩ := run_bind_ok selects
  cases read
  cases selected : coldVictimsOf cfg env state with
  | error raised =>
      rw [selected] at selects
      cases selects
  | ok chosen =>
      rw [selected] at selects spec
      cases selects
      refine ⟨spec.1, ?_⟩
      intro victim member
      obtain ⟨block, found, _⟩ := spec.2 victim member
      exact ⟨block, found⟩

theorem plainGC_safe (isRefresh : Bool) (off : cfg.hotColdSeparation = false)
    (sound : (machine cfg env .all).sound (.rest mapped, state))
    (below : env.belowGCThreshold .plain (state.free .plain).count = true)
    (ample : ∀ victims called, Selects cfg env state .plain victims called →
      Ample cfg called victims) : Safe (plainGC cfg env isRefresh) state := by
  unfold plainGC
  refine selectVictimBlock_stays.safe.bind ?_
  intro victims called returned
  have selects : Selects cfg env state .plain victims called :=
    .plain off below returned
  refine Safe.bind (doGarbageCollection_safe isRefresh off
    (selects.sound sound).1 (ample victims called selects)) ?_
  exact fun _ _ _ => trivial

theorem coldGC_safe (isRefresh : Bool) (on : cfg.hotColdSeparation = true)
    (sound : (machine cfg env .all).sound (.rest mapped, state))
    (below : env.belowGCThreshold .cold (state.free .cold).count = true)
    (ample : ∀ victims called, Selects cfg env state .cold victims called →
      Ample cfg called victims) : Safe (coldGC cfg env isRefresh) state := by
  unfold coldGC
  refine selectColdVictimBlock_stays.safe.bind ?_
  intro victims called returned
  have selects : Selects cfg env state .cold victims called :=
    .cold on below returned
  refine Safe.bind (sepDoGarbageCollection_safe isRefresh .cold on
    (selects.sound sound) (.inr (selectColdVictimBlock_listed returned))
      (ample victims called selects)) ?_
  exact fun _ _ _ => trivial

theorem hotGC_safe (on : cfg.hotColdSeparation = true)
    (sound : (machine cfg env .all).sound (.rest mapped, state))
    (below : env.belowGCThreshold .hot (state.free .hot).count = true)
    (ample : ∀ victims called, Selects cfg env state .hot victims called →
      Ample cfg called victims) : Safe (hotGC cfg env) state := by
  unfold hotGC
  refine selectHotVictimBlock_stays.safe.bind ?_
  intro victims called returned
  have selects : Selects cfg env state .hot victims called :=
    .hot on below returned
  have listed := selectHotVictimBlock_window.of_ok returned
  refine Safe.bind (sepDoGarbageCollection_safe false .hot on
    (selects.sound sound) (.inl fun victim member =>
      (sound.1.hotRegion victim (listed victim member)).2)
      (ample victims called selects)) ?_
  exact fun _ _ _ => trivial

theorem refreshGC_safe
    (sound : (machine cfg env .all).sound (.rest mapped, state))
    (ample : ∀ victims called,
      Selects cfg env state (refreshPool cfg) victims called →
        Ample cfg called victims) : Safe (refreshGC cfg env) state := by
  unfold refreshGC
  unfold refreshPool at ample
  split
  · next on =>
      rw [if_pos on] at ample
      refine Safe.bind trivial ?_
      intro below reached read
      cases read
      split
      · next low => exact coldGC_safe true on sound low ample
      · exact trivial
  · next off =>
      rw [if_neg off] at ample
      refine Safe.bind trivial ?_
      intro below reached read
      cases read
      split
      · next low =>
          exact plainGC_safe true (by simpa using off) sound low ample
      · exact trivial

theorem collectCold_safe (on : cfg.hotColdSeparation = true)
    (sound : (machine cfg env .all).sound (.rest mapped, state))
    (ample : ∀ victims called, Selects cfg env state .cold victims called →
      Ample cfg called victims) : Safe (collectCold cfg env) state := by
  unfold collectCold
  refine Safe.bind trivial ?_
  intro below reached read
  cases read
  split
  · next low => exact coldGC_safe false on sound low ample
  · exact trivial

theorem rest_sound {program : FTLM α} {value : α} {mapped' : Set (Nat × Nat)}
    (follows : (machine cfg env .all).Follows program (.rest mapped) state
      fun _ last _ => last = .rest mapped')
    (sound : (machine cfg env .all).sound (.rest mapped, state))
    (returned : program.run state = .ok value called) :
    (machine cfg env .all).sound (.rest mapped', called) := by
  obtain ⟨last, sound', _, same⟩ := (follows.meets
    (machine_trivial cfg env .all) sound trivial).of_ok returned
  subst same
  exact sound'

theorem collectCold_follows {allow : Allowance}
    (on : cfg.hotColdSeparation = true) (allowed : allow.policy) :
    (machine cfg env allow).Follows (collectCold cfg env) (.rest mapped) state
      fun _ last _ => last = .rest mapped := by
  unfold collectCold needsGC
  refine Follows.bindOk rfl ?_
  split
  · exact coldGC_follows false on allowed
  · exact Follows.pure rfl

theorem sepWriteInternal_collects (lpn : Nat) (flag : IOFlag) :
    sepWriteInternal cfg env lpn flag true = (do
      sepPlacePage cfg env lpn flag
      collectCold cfg env
      if ← needsGC env .hot then
        hotGC cfg env) := by
  rw [sepWriteInternal_eq]
  unfold collectCold
  simp only [bind_assoc]
  refine bind_congr fun _ => bind_congr fun below => ?_
  cases below <;> rfl

theorem write_safe (lpn : Nat) (flag : IOFlag)
    (sound : (machine cfg env .all).sound (.rest mapped, state))
    (ample : ∀ victims called,
      Enters cfg env state (.write lpn flag) victims called →
        Ample cfg called victims) : Safe (write cfg env lpn flag) state := by
  unfold write
  split
  · next asked =>
      split
      · next on =>
          rw [sepWriteInternal_collects]
          refine (sepPlacePage_safe lpn flag).bind ?_
          intro _ placed places
          have sound' := rest_sound (sepPlacePage_follows lpn flag on trivial)
            sound places
          refine (collectCold_safe on sound' fun victims called selects =>
            ample victims called (.sepWrite asked on places selects)).bind ?_
          intro _ collected collects
          have sound'' := rest_sound (collectCold_follows on trivial) sound' collects
          refine Safe.bind trivial ?_
          intro below reached read
          cases read
          split
          · next low =>
              exact hotGC_safe on sound'' low fun victims called selects =>
                ample victims called
                  (.sepWriteHot asked on places collects selects)
          · exact trivial
      · next off =>
          have plain : cfg.hotColdSeparation = false := by simpa using off
          rw [writeInternal_eq]
          refine (placePage_safe lpn flag).bind ?_
          intro _ placed places
          have sound' := rest_sound (placePage_follows lpn flag plain) sound
            places
          refine Safe.bind trivial ?_
          intro below reached read
          cases read
          split
          · next low =>
              exact plainGC_safe false plain sound' low
                fun victims called selects => ample victims called
                  (.write asked plain places selects)
          · exact trivial
  · exact trivial

theorem refreshEvent_safe
    (sound : (machine cfg env .all).sound (.rest mapped, state))
    (ample : ∀ victims called, Enters cfg env state .refresh victims called →
      Ample cfg called victims) : Safe (refreshEvent cfg env) state := by
  rw [refreshEvent_eq]
  refine Safe.bind ?_ ?_
  · unfold popLayers
    refine openQueue_stays.safe.bind ?_
    intro target opened opens
    have sound' := rest_sound (openQueue_follows trivial trivial) sound opens
    refine (refreshGC_safe sound' fun victims called selects =>
      ample victims called (.refresh opens selects)).bind ?_
    intro _ collected _
    exact (refreshLayers_safe target _).bind fun _ _ _ => trivial
  · intro target popped pops
    have sound' := rest_sound (popLayers_follows _ trivial trivial) sound pops
    refine (refreshGC_safe sound' fun victims called selects =>
      ample victims called (.refreshed pops selects)).bind ?_
    exact fun _ _ _ => trivial

/-! A format collects blocks in use. -/

/-- Unmapping a page: the blocks that its entry names are in use. -/
theorem unmap_named {missing : Panic} (unrelated : missing.Unrelated)
    (lpn : Nat) :
    Meets (unmap cfg missing lpn) state
      (fun _ final => Steady state final ∧
        (∀ other, other ≠ lpn →
          final.table.lookup other = state.table.lookup other) ∧
        ∀ mapping, state.table.lookup lpn = some mapping →
          ∀ idx < cfg.bitsetSize, state.InUse (mapping idx).1)
      fun raised _ => raised.Unrelated := by
  unfold unmap
  apply meets_bind.mpr
  apply meets_get.mpr
  split
  · next absent =>
      refine ⟨.refl state, fun _ _ => rfl, ?_⟩
      intro mapping found
      rw [absent] at found
      cases found
  · next mapping found =>
      refine (Meets.forM (fun remaining reached => Steady state reached ∧
        reached.table = state.table ∧ ∀ idx < cfg.bitsetSize,
          idx ∈ remaining ∨ state.InUse (mapping idx).1)
        ⟨.refl state, rfl, fun idx inside => .inl (List.mem_range.mpr inside)⟩
        ?_).bind ?_
      · intro idx rest reached kept
        obtain ⟨steady, table_eq, named⟩ := kept
        cases lookup : reached.blocks.lookup (mapping idx).1 with
        | none =>
            exact Meets.bindError (run_findBlock_none lookup) unrelated
        | some block =>
            refine Meets.bindOk (run_findBlock lookup) ?_
            have used : state.InUse (mapping idx).1 := by
              cases before : state.blocks.lookup (mapping idx).1 with
              | none =>
                  rw [(steady 0).absent _ before] at lookup
                  cases lookup
              | some version => exact ⟨version, before⟩
            have table_kept : Meets (invalidateUnit (mapping idx).1
                (mapping idx).2 idx) reached (fun _ final =>
                  final.table = reached.table) fun _ _ => True := by
              unfold invalidateUnit
              refine Meets.bindOk (run_blockAt lookup) ?_
              cases cleared : block.invalidate (mapping idx).2 idx with
              | error raised => exact trivial
              | ok version => exact rfl
            refine ((invalidateUnit_stays _ _ _).and table_kept).mono ?_
              fun _ _ failed => failed.1
            intro _ final post
            refine ⟨steady.trans post.1, post.2.trans table_eq, ?_⟩
            intro other inside
            rcases named other inside with member | used'
            · rcases List.mem_cons.mp member with here | later
              · exact .inr (here ▸ used)
              · exact .inl later
            · exact .inr used'
      · intro _ trimmed kept
        obtain ⟨steady, table_eq, named⟩ := kept
        refine ⟨steady.trans (.of_blocks_eq rfl rfl fun _ => rfl), ?_, ?_⟩
        · intro other different
          change (trimmed.table.erase lpn).lookup other = _
          rw [AList.lookup_erase_ne different, table_eq]
        · intro mapping' found' idx inside
          rw [found] at found'
          cases found'
          exact (named idx inside).resolve_left List.not_mem_nil

theorem Steady.inUse {after : State} (steady : Steady state after)
    {blockIndex : Nat} (used : state.InUse blockIndex) :
    after.InUse blockIndex := by
  obtain ⟨block, found⟩ := used
  obtain ⟨later, found', _⟩ := (steady 0).version blockIndex block found
  exact ⟨later, found'⟩

theorem unmaps_named {lpns : List Nat} (nodup : lpns.Nodup) :
    Meets (lpns.forM (unmap cfg .formatBlockNotInUse)) state
      (fun _ final => ∀ lpn ∈ lpns, ∀ mapping,
        state.table.lookup lpn = some mapping →
          ∀ idx < cfg.bitsetSize, final.InUse (mapping idx).1)
      fun raised _ => raised.Unrelated := by
  refine ((Meets.forM (fun remaining reached => remaining.Nodup ∧
      (∀ lpn ∈ remaining, lpn ∈ lpns ∧
        reached.table.lookup lpn = state.table.lookup lpn) ∧
      ∀ lpn ∈ lpns, lpn ∈ remaining ∨ ∀ mapping,
        state.table.lookup lpn = some mapping →
          ∀ idx < cfg.bitsetSize, reached.InUse (mapping idx).1)
    ⟨nodup, fun _ member => ⟨member, rfl⟩, fun _ member => .inl member⟩
    ?_).mono ?_ fun _ _ unrelated => unrelated)
  · intro lpn rest reached kept
    obtain ⟨nodup, unchanged, named⟩ := kept
    obtain ⟨fresh, nodup'⟩ := List.nodup_cons.mp nodup
    refine (unmap_named (by decide) lpn).mono ?_ fun _ _ unrelated => unrelated
    intro _ final post
    obtain ⟨steady, table_eq, used⟩ := post
    refine ⟨nodup', ?_, ?_⟩
    · intro other member
      obtain ⟨listed, same⟩ := unchanged other (.tail _ member)
      refine ⟨listed, ?_⟩
      rw [table_eq other fun same => fresh (same ▸ member)]
      exact same
    · intro other member
      rcases named other member with listed | used'
      · rcases List.mem_cons.mp listed with here | later
        · subst here
          refine .inr ?_
          intro mapping found idx inside
          rw [← (unchanged other (.head _)).2] at found
          exact steady.inUse (used mapping found idx inside)
        · exact .inl later
      · refine .inr ?_
        intro mapping found idx inside
        exact steady.inUse (used' mapping found idx inside)
  · intro _ final kept lpn member
    exact (kept.2.2 lpn member).resolve_left List.not_mem_nil

theorem formattedBlocks_named {lpns : List Nat} {victim : Nat}
    (member : victim ∈ formattedBlocks cfg state lpns) :
    ∃ lpn ∈ lpns, ∃ mapping, state.table.lookup lpn = some mapping ∧
      ∃ idx < cfg.bitsetSize, (mapping idx).1 = victim := by
  unfold formattedBlocks at member
  rw [List.mem_dedup, List.mem_insertionSort, List.mem_flatMap] at member
  obtain ⟨lpn, listed, named⟩ := member
  cases found : state.table.lookup lpn with
  | none =>
      rw [found] at named
      cases named
  | some mapping =>
      rw [found] at named
      obtain ⟨idx, inside, same⟩ := List.mem_map.mp named
      exact ⟨lpn, listed, mapping, found, idx, List.mem_range.mp inside, same⟩

theorem unmaps_follow (lpns : List Nat) :
    (machine cfg env .all).Follows
      (lpns.forM (unmap cfg .formatBlockNotInUse)) (.rest mapped) state
      fun _ last _ => ∃ mapped', last = .rest mapped' := by
  refine Follows.forM (fun _ last _ => ∃ mapped', last = Phase.rest mapped')
    ⟨mapped, rfl⟩ ?_
  intro lpn rest last current kept
  obtain ⟨mapped', rfl⟩ := kept
  exact (unmap_follows lpn (.inr rfl)).mono
    fun _ _ _ _ _ post => ⟨_, post.1⟩

theorem format_safe (slpn nlp : Nat)
    (sound : (machine cfg env .all).sound (.rest mapped, state))
    (ample : ∀ victims called,
      Enters cfg env state (.format slpn nlp) victims called →
        Ample cfg called victims) : Safe (format cfg env slpn nlp) state := by
  unfold format
  refine Safe.bind trivial ?_
  intro before reached read
  cases read
  dsimp only
  have nodup : (state.table.keys.filter (inRange slpn nlp)).Nodup :=
    state.table.keys_nodup.filter _
  have named : Meets ((state.table.keys.filter (inRange slpn nlp)).forM
      (unmap cfg .formatBlockNotInUse)) state _ _ := unmaps_named nodup
  refine Safe.bind (Safe.forM fun lpn _ _ =>
    (unmap_stays (by decide) lpn).safe) ?_
  intro _ called unmaps
  obtain ⟨_, sound', _, mapped', rfl⟩ := ((unmaps_follow _).meets
    (machine_trivial cfg env .all) sound trivial).of_ok unmaps
  have enough := ample _ called (.format unmaps)
  split
  · next on =>
      refine sepDoGarbageCollection_safe false .cold on sound'
        (.inr ⟨List.nodup_dedup _, ?_⟩) enough
      intro victim member
      obtain ⟨lpn, listed, mapping, found, idx, inside, same⟩ :=
        formattedBlocks_named member
      rw [← same]
      exact named.of_ok unmaps lpn listed mapping found idx inside
  · next off =>
      exact doGarbageCollection_safe false (by simpa using off) sound'.1 enough

theorem perform_safe (op : Op) (given : ∀ victims, op ≠ .gc victims)
    (sound : (machine cfg env .all).sound (.rest mapped, state))
    (ample : ∀ victims called, Enters cfg env state op victims called →
      Ample cfg called victims) : Safe (perform cfg env op) state := by
  cases op with
  | initializeFTL =>
      exact Safe.bind trivial fun _ _ _ =>
        Safe.forM fun filling _ _ => fill_safe filling
  | read lpn flag => exact (read_stays lpn flag).safe
  | write lpn flag => exact write_safe lpn flag sound ample
  | trim lpn => exact (unmap_stays (by decide) lpn).safe
  | gc victims => exact absurd rfl (given victims)
  | refresh => exact refreshEvent_safe sound ample
  | format slpn nlp => exact format_safe slpn nlp sound ample

/-! Whole runs. -/

theorem outcome_extend {ops : List Op} {op : Op} {next : State}
    (result : outcome cfg env ops = .ok () state)
    (performed : (perform cfg env op).run state = .ok () next) :
    outcome cfg env (ops ++ [op]) = .ok () next := by
  unfold outcome life at result ⊢
  obtain ⟨_, built, builds, performs⟩ := run_bind_ok result
  rw [EStateM.run_bind, builds, List.forM_eq_forM, List.forM_append]
  simp only [EStateM.run_bind, ← List.forM_eq_forM, performs]
  simp only [List.forM_eq_forM, List.forM_cons, List.forM_nil,
    EStateM.run_bind, performed]
  rfl

theorem performs_safe {ops earlier : List Op}
    (given : ∀ victims, .gc victims ∉ ops)
    (result : outcome cfg env earlier = .ok () state)
    (ample : ∀ before op after, ops = before ++ op :: after →
      ∀ reached, outcome cfg env (earlier ++ before) = .ok () reached →
      ∀ victims called, Enters cfg env reached op victims called →
        Ample cfg called victims) :
    Safe (ops.forM (perform cfg env)) state := by
  induction ops generalizing earlier state with
  | nil => exact trivial
  | cons op rest induction =>
      obtain ⟨pools, maps⟩ := (outcome_meets cfg env earlier).of_ok result
      refine (perform_safe op ?_ ⟨pools, maps⟩ ?_).bind ?_
      · intro victims same
        exact given victims (same ▸ .head _)
      · refine ample [] op rest rfl state ?_
        rw [List.append_nil]
        exact result
      · intro _ next performed
        refine induction (fun victims member =>
          given victims (.tail _ member)) (outcome_extend result performed) ?_
        intro before other after split reached later
        refine ample (op :: before) other after (by simp [split]) reached ?_
        rw [← later, List.append_assoc]
        rfl

end Operations

/-- In every run whose collections all start with enough free pages and with no
victim in a slot that is worn less than the free blocks, every reverse search
finds a block, and every position it finds is still there at the insertion. -/
theorem insertion_defined (cfg : Config) (env : Environment) (ops : List Op)
    (given : ∀ victims, .gc victims ∉ ops)
    (ample : ∀ earlier op later, ops = earlier ++ op :: later →
      ∀ state, outcome cfg env earlier = .ok () state →
      ∀ victims called, Enters cfg env state op victims called →
        Ample cfg called victims) (stopped : State) :
    outcome cfg env ops ≠ .error .emptyFreeList stopped ∧
      outcome cfg env ops ≠ .error .danglingPosition stopped := by
  have constructs : Safe (construct cfg) (blankState cfg) :=
    (construct_raises cfg _).mono (fun _ _ _ => trivial)
      fun _ _ member => .of_allocation member
  have lives : Safe (life cfg env ops) (blankState cfg) := by
    refine constructs.bind ?_
    intro _ built builds
    have start : outcome cfg env [] = .ok () built := by
      unfold outcome life
      rw [EStateM.run_bind, builds]
      rfl
    exact performs_safe given start ample
  constructor
  · intro failed
    exact (lives.of_error failed).1 rfl
  · intro failed
    exact (lives.of_error failed).2 rfl

def halfEnvironment (cfg : Config) : Environment :=
  { sampleEnvironment with
    belowGCThreshold := fun pool freeBlocks => 2 * freeBlocks < match pool with
      | .plain => cfg.totalPhysicalBlocks
      | .hot => cfg.hotBlocksLimit
      | .cold => cfg.totalPhysicalBlocks - cfg.hotBlocksLimit }

def onePageConfig : Config :=
  { sampleConfig with
    totalPhysicalBlocks := 5
    pagesInBlock := 1
    pageCountToMaxPerf := 3
    ioUnitInPage_pos := Nat.one_pos
    pageCountToMaxPerf_pos := Nat.succ_pos 2
    hotBlocksLimit_le := Nat.le_of_ble_eq_true rfl
    refreshMode := 4 }

/-- Tests the victims and the state of the collection after a first write. -/
def firstCollection (cfg : Config) (env : Environment)
    (test : List Nat → State → Bool) : Bool :=
  match outcome cfg env [.initializeFTL] with
  | .error _ _ => false
  | .ok _ state =>
      match (placePage cfg env 0 IOFlag.all).run state with
      | .error _ _ => false
      | .ok _ placed =>
          match (selectVictimBlock cfg env).run placed with
          | .error _ _ => false
          | .ok victims called => test victims called

/-- The collection of the first write has enough free pages. -/
theorem insertion_defined_first_write :
    returns (outcome onePageConfig (halfEnvironment onePageConfig)
        [.initializeFTL, writePage 0])
        (fun final => final.stat.reclaimedBlocks = 1) = true ∧
      ∀ stopped,
        outcome onePageConfig (halfEnvironment onePageConfig)
            [.initializeFTL, writePage 0] ≠ .error .emptyFreeList stopped ∧
          outcome onePageConfig (halfEnvironment onePageConfig)
            [.initializeFTL, writePage 0] ≠
              .error .danglingPosition stopped := by
  have evaluated : firstCollection onePageConfig
      (halfEnvironment onePageConfig) (fun victims called =>
        decide ((called.free .plain).blocks.length = 2 ∧
          3 + called.copiesOfVictims onePageConfig victims ≤
            called.spare onePageConfig .plain)) = true := by
    decide +kernel
  refine ⟨by decide +kernel, insertion_defined onePageConfig
    (halfEnvironment onePageConfig) [.initializeFTL, writePage 0]
    (by simp [writePage]) ?_⟩
  intro earlier op later split state result victims called enters
  have cases : (earlier = [] ∧ op = .initializeFTL) ∨
      (earlier = [.initializeFTL] ∧ op = writePage 0) := by
    cases earlier with
    | nil =>
        simp only [List.nil_append, List.cons.injEq] at split
        exact .inl ⟨rfl, split.1.symm⟩
    | cons first rest =>
        cases rest with
        | nil =>
            simp only [List.cons_append, List.nil_append,
              List.cons.injEq] at split
            exact .inr ⟨by rw [split.1], split.2.1.symm⟩
        | cons second rest => simp at split
  rcases cases with ⟨_, same⟩ | ⟨before, same⟩
  · subst same
    cases enters
  · subst before same
    have off : onePageConfig.hotColdSeparation = false := rfl
    cases enters with
    | write asked _ places selects =>
        cases selects with
        | plain _ below selects =>
            unfold firstCollection at evaluated
            rw [result] at evaluated
            dsimp only at evaluated
            rw [places] at evaluated
            dsimp only at evaluated
            rw [selects] at evaluated
            obtain ⟨length, enough⟩ := of_decide_eq_true evaluated
            refine ⟨fun _ _ => ⟨?_, .inr enough⟩, ?_, ?_, ?_⟩
            · apply List.ne_nil_of_length_pos
              show 0 < (called.free .plain).blocks.length
              omega
            · simp [off]
            · simp [off]
            · simp [off]
    | sepWrite asked on => cases on
    | sepWriteHot asked on => cases on

def twoPageConfig : Config :=
  { sampleConfig with
    pagesInBlock := 2
    ioUnitInPage_pos := Nat.one_pos
    pageCountToMaxPerf_pos := Nat.one_pos
    refreshMode := 4 }

def threeSlotConfig : Config :=
  { sampleConfig with
    totalPhysicalBlocks := 21
    pagesInBlock := 1
    pageCountToMaxPerf := 3
    ioUnitInPage_pos := Nat.one_pos
    pageCountToMaxPerf_pos := Nat.succ_pos 2
    hotColdSeparation := true
    hotBlocksLimit := 12
    hotBlocksLimit_le := Nat.le_of_ble_eq_true rfl
    refreshMode := 4 }

/-- The copies of the first collection take the last free block; and a victim in
a slot is replaced by the block before which it was to be inserted. -/
theorem insertion_undefined :
    stops (outcome twoPageConfig (halfEnvironment twoPageConfig)
        [.initializeFTL, writePage 0, writePage 1, writePage 2, writePage 3,
          writePage 0]) = some .emptyFreeList ∧
      stops (outcome threeSlotConfig (halfEnvironment threeSlotConfig)
        [.initializeFTL, writePage 3, writePage 0, writePage 1, writePage 0,
          writePage 2, writePage 2]) = some .danglingPosition := by
  decide +kernel

end SimpleSSD.FTL
