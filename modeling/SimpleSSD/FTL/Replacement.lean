import SimpleSSD.FTL.Insertion
import SimpleSSD.FTL.Keeping

namespace SimpleSSD.FTL

open Program

/-! Slots that name victims.  A slot does not lose its block if the cursor comes
to it while pages are copied, or if the erase of the victim repairs it. -/

section Conditions

variable (cfg : Config)

/-- Slots that the cursor comes to while pages are copied, one request for each
page. -/
def cursorVisits (slots : ActiveSlots) : List IOFlag → List Nat
  | [] => []
  | flag :: rest =>
      (slots.advance cfg flag).index :: cursorVisits (slots.advance cfg flag) rest

def pageRequests (block : Block) (pages : List Nat) : List IOFlag :=
  (pages.filter fun page =>
    IOFlag.any cfg.ioUnitInPage (block.validBits page)).map
      (copiedUnits cfg block)

def copyRequests (state : State) (victims : List Nat) : List IOFlag :=
  victims.flatMap fun victim =>
    match state.blocks.lookup victim with
    | some block => pageRequests cfg block (List.range cfg.pagesInBlock)
    | none => []

/-- The array that the erase of a block of a type looks through. -/
def BlockPoolType.repairs : BlockPoolType → ActivePool → Prop
  | .hot, _ => False
  | .cool, pool => pool = .cool
  | .cold, pool => pool = .cold

instance (blockType : BlockPoolType) (pool : ActivePool) :
    Decidable (blockType.repairs pool) :=
  match blockType with
  | .hot => inferInstanceAs (Decidable False)
  | .cool => inferInstanceAs (Decidable (pool = .cool))
  | .cold => inferInstanceAs (Decidable (pool = .cold))

/-- The erase of a victim gives a slot another block: the victim is not retired,
and the slot is the first that names it in the array of its type. -/
structure Repairs (state : State) (pool : ActivePool) (index victim : Nat) :
    Prop where
  returned : ∃ block ∈ state.blocks.lookup victim,
    block.eraseCount + 1 < cfg.badBlockThreshold ∧ block.blockType.repairs pool
  first : ∀ earlier < index, (state.active pool).blocks[earlier]? ≠ some victim

instance (state : State) (pool : ActivePool) (index victim : Nat) :
    Decidable (Repairs cfg state pool index victim) :=
  decidable_of_iff ((∃ block ∈ state.blocks.lookup victim,
      block.eraseCount + 1 < cfg.badBlockThreshold ∧
        block.blockType.repairs pool) ∧
    ∀ earlier < index, (state.active pool).blocks[earlier]? ≠ some victim)
    ⟨fun both => ⟨both.1, both.2⟩, fun repairs => ⟨repairs.1, repairs.2⟩⟩

/-- Every slot that names a victim gets another block before the victim is
erased. -/
def Vacates (state : State) (victims : List Nat) : Prop :=
  ∀ pool ∈ activePools cfg, ∀ index < (state.active pool).blocks.length,
    ∀ victim ∈ victims, (state.active pool).blocks[index]? = some victim →
      (pool = gcPool cfg ∧ index ∈ cursorVisits cfg (state.active pool)
        (copyRequests cfg state victims)) ∨
      (cfg.hotColdSeparation = true ∧ Repairs cfg state pool index victim)

instance (state : State) (victims : List Nat) :
    Decidable (Vacates cfg state victims) :=
  inferInstanceAs (Decidable (∀ _ ∈ _, _))

end Conditions

/-! The cursor. -/

section Cursor

variable {cfg : Config} {slots other : ActiveSlots}

def ActiveSlots.advanceAll (cfg : Config) (slots : ActiveSlots)
    (flags : List IOFlag) : ActiveSlots :=
  flags.foldl (fun slots flag => slots.advance cfg flag) slots

@[simp] theorem ActiveSlots.advance_blocks (flag : IOFlag) :
    (slots.advance cfg flag).blocks = slots.blocks := by
  unfold ActiveSlots.advance
  split <;> rfl

structure ActiveSlots.Aligned (slots other : ActiveSlots) : Prop where
  index_eq : other.index = slots.index
  ioMap_eq : other.ioMap = slots.ioMap

theorem ActiveSlots.Aligned.advance (aligned : slots.Aligned other)
    (flag : IOFlag) :
    (slots.advance cfg flag).Aligned (other.advance cfg flag) := by
  obtain ⟨index_eq, ioMap_eq⟩ := aligned
  unfold ActiveSlots.advance
  rw [index_eq, ioMap_eq]
  split <;> exact ⟨rfl, rfl⟩

theorem ActiveSlots.Aligned.advanceAll (aligned : slots.Aligned other)
    (flags : List IOFlag) :
    (slots.advanceAll cfg flags).Aligned (other.advanceAll cfg flags) := by
  induction flags generalizing slots other with
  | nil => exact aligned
  | cons flag rest induction => exact induction (aligned.advance flag)

theorem ActiveSlots.Aligned.visits_eq (aligned : slots.Aligned other)
    (flags : List IOFlag) :
    cursorVisits cfg other flags = cursorVisits cfg slots flags := by
  induction flags generalizing slots other with
  | nil => rfl
  | cons flag rest induction =>
      have next : (slots.advance cfg flag).Aligned (other.advance cfg flag) :=
        aligned.advance flag
      simp only [cursorVisits, next.index_eq, induction next]

theorem cursorVisits_append (first second : List IOFlag) :
    cursorVisits cfg slots (first ++ second) = cursorVisits cfg slots first ++
      cursorVisits cfg (slots.advanceAll cfg first) second := by
  induction first generalizing slots with
  | nil => rfl
  | cons flag rest induction =>
      exact congrArg ((slots.advance cfg flag).index :: ·) induction

/-- An array after some requests: a slot that names a victim named it before, and
the cursor has not come to it. -/
structure Passed (cfg : Config) (victims : List Nat) (flags : List IOFlag)
    (before after : ActiveSlots) : Prop where
  aligned : (before.advanceAll cfg flags).Aligned after
  named : ∀ index, ∀ victim ∈ victims, after.blocks[index]? = some victim →
    before.blocks[index]? = some victim ∧
      index ∉ cursorVisits cfg before flags

theorem Passed.refl (victims : List Nat) (slots : ActiveSlots) :
    Passed cfg victims [] slots slots :=
  ⟨⟨rfl, rfl⟩, fun _ _ _ named => ⟨named, List.not_mem_nil⟩⟩

theorem Passed.trans {victims : List Nat} {first second : List IOFlag}
    {before middle after : ActiveSlots}
    (passed : Passed cfg victims first before middle)
    (further : Passed cfg victims second middle after) :
    Passed cfg victims (first ++ second) before after where
  aligned := by
    have moved := @ActiveSlots.Aligned.advanceAll cfg _ _ passed.aligned second
    unfold ActiveSlots.advanceAll at moved ⊢
    rw [List.foldl_append]
    exact ⟨further.aligned.index_eq.trans moved.index_eq,
      further.aligned.ioMap_eq.trans moved.ioMap_eq⟩
  named := by
    intro index victim member later
    obtain ⟨between, unvisited⟩ := further.named index victim member later
    obtain ⟨earlier, unvisited'⟩ := passed.named index victim member between
    refine ⟨earlier, ?_⟩
    rw [cursorVisits_append, ← passed.aligned.visits_eq]
    exact fun visited => (List.mem_append.mp visited).elim unvisited' unvisited

end Cursor

/-! Allocation passes by the victims. -/

structure Bypasses (victims : List Nat) (before after : State) : Prop where
  active_eq : after.active = before.active
  lookup_eq : ∀ victim ∈ victims,
    after.blocks.lookup victim = before.blocks.lookup victim
  window : ∀ victim ∈ victims, victim ∉ before.coolDownWindow →
    victim ∉ after.coolDownWindow

section Bypasses

variable {cfg : Config} {victims : List Nat} {state updated : State}

theorem Bypasses.refl (victims : List Nat) (state : State) :
    Bypasses victims state state :=
  ⟨rfl, fun _ _ => rfl, fun _ _ outside => outside⟩

theorem Bypasses.trans {middle : State}
    (bypasses : Bypasses victims state middle)
    (further : Bypasses victims middle updated) :
    Bypasses victims state updated where
  active_eq := further.active_eq.trans bypasses.active_eq
  lookup_eq := fun victim member => (further.lookup_eq victim member).trans
    (bypasses.lookup_eq victim member)
  window := fun victim member outside =>
    further.window victim member (bypasses.window victim member outside)

theorem Bypasses.insert {blockIndex : Nat} {version : Block}
    (outside : blockIndex ∉ victims)
    (active_eq : updated.active = state.active)
    (replaced : updated.blocks = state.blocks.insert blockIndex version)
    (window : ∀ victim ∈ victims, victim ∉ state.coolDownWindow →
      victim ∉ updated.coolDownWindow) : Bypasses victims state updated where
  active_eq := active_eq
  lookup_eq := by
    intro victim member
    rw [replaced]
    exact AList.lookup_insert_ne fun same => outside (same ▸ member)
  window := window

theorem takeFreeBlock_bypasses (pool : FreePool) (noneLeft inUse : Panic)
    (idx : Nat) (used : ∀ victim ∈ victims, state.InUse victim) :
    Meets (takeFreeBlock cfg pool noneLeft inUse idx) state
      (fun blockIndex final => blockIndex ∉ victims ∧
        final.InUse blockIndex ∧ Bypasses victims state final)
      fun _ _ => True := by
  unfold takeFreeBlock
  split
  · exact trivial
  apply meets_bind.mpr
  apply meets_get.mpr
  dsimp only
  split
  · exact trivial
  split
  · exact trivial
  · next block search =>
      split
      · exact trivial
      · next absent =>
          have missing : state.blocks.lookup block.idx = none := by
            simpa using absent
          have outside : block.idx ∉ victims := by
            intro member
            obtain ⟨version, found⟩ := used block.idx member
            rw [missing] at found
            cases found
          exact ⟨outside, ⟨block, AList.lookup_insert _⟩,
            Bypasses.insert outside rfl rfl fun _ _ outside => outside⟩

theorem updateBlock_bypasses {blockIndex : Nat} (update : Block → Block)
    (outside : blockIndex ∉ victims) (inUse : state.InUse blockIndex) :
    Meets (updateBlock blockIndex update) state
      (fun _ final => Bypasses victims state final) fun _ _ => True := by
  obtain ⟨block, found⟩ := inUse
  unfold Meets
  rw [run_updateBlock found]
  exact Bypasses.insert outside rfl rfl fun _ _ outside => outside

/-- The block that leaves the cool-down window is no victim. -/
theorem demoteCoolFront_bypasses {blockIndex : Nat}
    (windowed : ∀ victim ∈ victims, victim ∉ state.coolDownWindow)
    (inUse : state.InUse blockIndex) :
    Meets (demoteCoolFront cfg) state
      (fun _ final => final.InUse blockIndex ∧ Bypasses victims state final)
      fun _ _ => True := by
  unfold demoteCoolFront
  apply meets_bind.mpr
  apply meets_get.mpr
  split
  · split
    · exact trivial
    · next front rest window =>
        have outside : front ∉ victims := by
          intro member
          refine windowed front member ?_
          rw [window]
          exact .head _
        cases found : state.blocks.lookup front with
        | none => exact Meets.bindError (run_findBlock_none found) trivial
        | some block =>
            refine Meets.bindOk (run_findBlock found) ?_
            refine ⟨State.inUse_setBlock.mpr (.inr inUse),
              Bypasses.insert outside rfl rfl ?_⟩
            intro victim member listed later
            refine listed ?_
            rw [window]
            exact .tail _ later
  · exact ⟨inUse, .refl victims state⟩

theorem Bypasses.push {blockIndex : Nat} (outside : blockIndex ∉ victims) :
    Bypasses victims state { state with
      coolDownWindow := state.coolDownWindow ++ [blockIndex] } where
  active_eq := rfl
  lookup_eq := fun _ _ => rfl
  window := by
    intro victim member absent listed
    rcases List.mem_append.mp listed with earlier | last
    · exact absent earlier
    · exact outside (List.mem_singleton.mp last ▸ member)

theorem getBlockFor_bypasses (pool : ActivePool) (idx : Nat)
    (used : ∀ victim ∈ victims, state.InUse victim)
    (windowed : pool = .cool →
      ∀ victim ∈ victims, victim ∉ state.coolDownWindow) :
    Meets (getBlockFor cfg pool idx) state
      (fun blockIndex final => blockIndex ∉ victims ∧
        Bypasses victims state final) fun _ _ => True := by
  -- the block gets its type at the end
  have tag : ∀ {blockIndex : Nat} {middle : State} (update : Block → Block),
      blockIndex ∉ victims → middle.InUse blockIndex →
      Bypasses victims state middle →
      Meets (do updateBlock blockIndex update; return blockIndex) middle
        (fun blockIndex final => blockIndex ∉ victims ∧
          Bypasses victims state final) fun _ _ => True := by
    intro blockIndex middle update outside inUse bypasses
    refine (updateBlock_bypasses update outside inUse).bind ?_
    exact fun _ _ further => ⟨outside, bypasses.trans further⟩
  cases pool with
  | plain =>
      refine (takeFreeBlock_bypasses .plain _ _ idx used).bind ?_
      intro blockIndex taken post
      exact tag _ post.1 post.2.1 post.2.2
  | hot =>
      refine (takeFreeBlock_bypasses .hot _ _ idx used).bind ?_
      intro blockIndex taken post
      refine Meets.bindOk rfl ?_
      exact tag _ post.1 post.2.1 (post.2.2.trans
        ⟨rfl, fun _ _ => rfl, fun _ _ outside => outside⟩)
  | cool =>
      refine (takeFreeBlock_bypasses .cold _ _ idx used).bind ?_
      intro blockIndex taken post
      obtain ⟨outside, inUse, bypasses⟩ := post
      have windowed' : ∀ victim ∈ victims,
          victim ∉ taken.coolDownWindow := fun victim member =>
        bypasses.window victim member (windowed rfl victim member)
      refine (demoteCoolFront_bypasses windowed' inUse).bind ?_
      intro _ demoted post
      refine Meets.bindOk rfl ?_
      exact tag _ outside post.1
        ((bypasses.trans post.2).trans (Bypasses.push outside))
  | cold =>
      refine (takeFreeBlock_bypasses .cold _ _ idx used).bind ?_
      intro blockIndex taken post
      exact tag _ post.1 post.2.1 post.2.2

end Bypasses

/-! The copy phase. -/

/-- A later version of a block of which some pages were copied away. -/
structure Block.Cleared (pages : Set Nat) (block later : Block) : Prop where
  same : later = { block with validBits := later.validBits }
  kept : ∀ page ∉ pages, later.validBits page = block.validBits page

theorem Block.Cleared.trans {first second : Set Nat} {block middle later : Block}
    (cleared : block.Cleared first middle)
    (further : middle.Cleared second later) :
    block.Cleared (first ∪ second) later where
  same := by
    rw [further.same, cleared.same]
  kept := by
    intro page untouched
    rw [Set.mem_union, not_or] at untouched
    rw [further.kept page untouched.2, cleared.kept page untouched.1]

theorem Block.Cleared.full {pages : Set Nat} {cfg : Config}
    {block later : Block} (cleared : block.Cleared pages later)
    (full : block.Full cfg) : later.Full cfg := by
  rw [cleared.same]
  exact full

/-- What the copy loops rest on: a victim in a slot of the array they ask is
full. -/
structure Held (cfg : Config) (pool : ActivePool) (victims : List Nat)
    (state : State) : Prop where
  inUse : ∀ victim ∈ victims, state.InUse victim
  full : ∀ victim ∈ victims, victim ∈ (state.active pool).blocks →
    ∀ block, state.blocks.lookup victim = some block → block.Full cfg
  windowed : pool = .cool →
    ∀ victim ∈ victims, victim ∉ state.coolDownWindow

structure Relayed (cfg : Config) (pool : ActivePool) (victims : List Nat)
    (flags : List IOFlag) (pages : Nat → Set Nat) (before after : State) :
    Prop where
  passed : Passed cfg victims flags (before.active pool) (after.active pool)
  others : ∀ other, other ≠ pool → after.active other = before.active other
  version : ∀ victim ∈ victims, ∀ block,
    before.blocks.lookup victim = some block → ∃ later,
      after.blocks.lookup victim = some later ∧
        block.Cleared (pages victim) later
  window : ∀ victim ∈ victims, victim ∉ before.coolDownWindow →
    victim ∉ after.coolDownWindow

def Relays (cfg : Config) (pool : ActivePool) (victims : List Nat)
    (flags : List IOFlag) (pages : Nat → Set Nat) (program : FTLM α)
    (state : State) : Prop :=
  Meets program state
    (fun _ final => Relayed cfg pool victims flags pages state final)
    fun _ _ => True

section Relays

variable {cfg : Config} {env : Environment} {pool : ActivePool}
  {victims : List Nat} {state updated : State} {flags : List IOFlag}
  {pages : Nat → Set Nat}

theorem Bypasses.relayed (bypasses : Bypasses victims state updated) :
    Relayed cfg pool victims [] (fun _ => ∅) state updated where
  passed := by
    rw [bypasses.active_eq]
    exact .refl victims _
  others := fun other _ => congrFun bypasses.active_eq other
  version := by
    intro victim member block found
    exact ⟨block, (bypasses.lookup_eq victim member).trans found, rfl,
      fun _ _ => rfl⟩
  window := bypasses.window

theorem Relayed.trans {first second : List IOFlag} {middle : State}
    {further : Nat → Set Nat}
    (relayed : Relayed cfg pool victims first pages state middle)
    (later : Relayed cfg pool victims second further middle updated) :
    Relayed cfg pool victims (first ++ second)
      (fun victim => pages victim ∪ further victim) state updated where
  passed := relayed.passed.trans later.passed
  others := fun other different =>
    (later.others other different).trans (relayed.others other different)
  version := by
    intro victim member block found
    obtain ⟨between, found', cleared⟩ :=
      relayed.version victim member block found
    obtain ⟨last, found'', cleared'⟩ :=
      later.version victim member between found'
    exact ⟨last, found'', cleared.trans cleared'⟩
  window := fun victim member outside =>
    later.window victim member (relayed.window victim member outside)

theorem Relayed.mono {more : Nat → Set Nat}
    (relayed : Relayed cfg pool victims flags pages state updated)
    (le : ∀ victim, pages victim ⊆ more victim) :
    Relayed cfg pool victims flags more state updated :=
  { relayed with
    version := by
      intro victim member block found
      obtain ⟨later, found', same, kept⟩ :=
        relayed.version victim member block found
      exact ⟨later, found', same,
        fun page untouched => kept page fun inside => untouched (le victim inside)⟩ }

theorem Relayed.held (relayed : Relayed cfg pool victims flags pages state updated)
    (held : Held cfg pool victims state) : Held cfg pool victims updated where
  inUse := by
    intro victim member
    obtain ⟨block, found⟩ := held.inUse victim member
    obtain ⟨later, found', _⟩ := relayed.version victim member block found
    exact ⟨later, found'⟩
  full := by
    intro victim member listed later lookup
    obtain ⟨block, found⟩ := held.inUse victim member
    obtain ⟨current, found', cleared⟩ :=
      relayed.version victim member block found
    rw [lookup] at found'
    cases found'
    obtain ⟨index, named⟩ := List.mem_iff_getElem?.mp listed
    have earlier := (relayed.passed.named index victim member named).1
    exact cleared.full
      (held.full victim member (List.mem_of_getElem? earlier) block found)
  windowed := fun cool victim member =>
    relayed.window victim member (held.windowed cool victim member)

theorem Relays.bind {first second : List IOFlag} {program : FTLM α}
    {next : α → FTLM β} (begins : Relays cfg pool victims first pages program state)
    (rest : ∀ value reached, program.run state = .ok value reached →
      Relayed cfg pool victims first pages state reached →
      Relays cfg pool victims second pages (next value) reached) :
    Relays cfg pool victims (first ++ second) pages (program >>= next) state := by
  refine meets_bind.mpr (meets_of_cases ?_ fun _ _ _ => trivial)
  intro value reached returned
  have relayed := begins.of_ok returned
  refine (rest value reached returned relayed).mono ?_ fun _ _ _ => trivial
  intro _ final later
  exact (relayed.trans later).mono fun victim => (Set.union_self _).subset

theorem Relays.pure (value : α) :
    Relays cfg pool victims [] pages (pure value) state :=
  (Bypasses.refl victims state).relayed.mono fun _ => Set.empty_subset _

theorem Relays.step {program : FTLM α} {next : α → FTLM β}
    (begins : Relays cfg pool victims [] pages program state)
    (rest : ∀ value reached, program.run state = .ok value reached →
      Relayed cfg pool victims [] pages state reached →
      Relays cfg pool victims flags pages (next value) reached) :
    Relays cfg pool victims flags pages (program >>= next) state :=
  begins.bind rest

theorem Relays.of_bypasses {program : FTLM α}
    (meets : Meets program state (fun _ final => Bypasses victims state final)
      fun _ _ => True) : Relays cfg pool victims [] pages program state :=
  Meets.mono meets
    (fun _ _ bypasses => bypasses.relayed.mono fun _ => Set.empty_subset _)
    fun _ _ _ => trivial

theorem Relays.forM {items : List α} {body : α → FTLM PUnit}
    (held : Held cfg pool victims state)
    (each : ∀ item ∈ items, ∀ reached, Held cfg pool victims reached →
      Relays cfg pool victims [] pages (body item) reached) :
    Relays cfg pool victims [] pages (items.forM body) state := by
  induction items generalizing state with
  | nil => exact Relays.pure _
  | cons item rest induction =>
      refine (each item (.head _) state held).step ?_
      intro _ reached _ relayed
      exact induction (relayed.held held)
        fun other member => each other (.tail _ member)

theorem findBlock_relays (blockIndex : Nat) (missing : Panic) :
    Relays cfg pool victims [] pages (findBlock blockIndex missing) state := by
  refine Relays.of_bypasses ?_
  unfold Meets
  cases found : state.blocks.lookup blockIndex with
  | none =>
      rw [run_findBlock_none found]
      trivial
  | some block =>
      rw [run_findBlock found]
      exact .refl victims state

theorem count_relays (update : Stat → Stat) :
    Relays cfg pool victims [] pages (count update) state :=
  Relays.of_bypasses
    (show Bypasses victims state _ from
      ⟨rfl, fun _ _ => rfl, fun _ _ outside => outside⟩)

theorem remapUnit_relays (lpn idx : Nat) (location : Nat × Nat)
    (missing : Panic) :
    Relays cfg pool victims [] pages (remapUnit lpn idx location missing)
      state := by
  refine Relays.of_bypasses ?_
  unfold remapUnit
  apply meets_bind.mpr
  apply meets_get.mpr
  split
  · exact ⟨rfl, fun _ _ => rfl, fun _ _ outside => outside⟩
  · exact trivial

theorem setRefreshPeriod_relays (eraseCount blockNum layerNum : Nat) :
    Relays cfg pool victims [] pages
      (setRefreshPeriod cfg env eraseCount blockNum layerNum) state := by
  refine Relays.of_bypasses ?_
  unfold setRefreshPeriod
  apply meets_bind.mpr
  apply meets_get.mpr
  cases state.refresh.setRefreshPeriod cfg env state.stat.refreshCallCount
      eraseCount blockNum layerNum with
  | error raised => exact trivial
  | ok refresh => exact ⟨rfl, fun _ _ => rfl, fun _ _ outside => outside⟩

theorem writeUnit_relays {target : Nat} (outside : target ∉ victims)
    (pageIndex lpn idx : Nat) :
    Relays cfg pool victims [] pages (writeUnit target pageIndex lpn idx)
      state := by
  refine Relays.of_bypasses ?_
  unfold writeUnit
  cases found : state.blocks.lookup target with
  | none => exact Meets.bindError (run_findBlock_none found) trivial
  | some block =>
      refine Meets.bindOk (run_blockAt found) ?_
      cases written : block.write pageIndex lpn idx with
      | error raised => exact trivial
      | ok version =>
          exact Bypasses.insert outside rfl rfl fun _ _ outside => outside

theorem invalidateUnit_relays {source page : Nat} (idx : Nat)
    (inside : page ∈ pages source) :
    Relays cfg pool victims [] pages (invalidateUnit source page idx)
      state := by
  unfold invalidateUnit
  cases found : state.blocks.lookup source with
  | none => exact Meets.bindError (run_findBlock_none found) trivial
  | some block =>
      refine Meets.bindOk (run_blockAt found) ?_
      dsimp only [Block.invalidate]
      split
      · exact trivial
      refine ⟨.refl victims _, fun _ _ => rfl, ?_, fun _ _ outside => outside⟩
      intro victim member current lookup
      change ∃ later, (state.setBlock source _).blocks.lookup victim =
        some later ∧ _
      rw [State.lookup_setBlock]
      split
      · next same =>
          rw [same, found] at lookup
          cases lookup
          refine ⟨_, rfl, rfl, ?_⟩
          intro other untouched
          funext unit
          refine if_neg ?_
          rintro ⟨here, _⟩
          exact untouched (same ▸ here ▸ inside)
      · exact ⟨current, lookup, rfl, fun _ _ => rfl⟩

theorem copyUnit_relays {source page target : Nat} (missing : Panic)
    (inside : page ∈ pages source) (outside : target ∉ victims)
    (lpn idx : Nat) :
    Relays cfg pool victims [] pages
      (copyUnit cfg env missing false source page target lpn idx) state := by
  unfold copyUnit
  refine (invalidateUnit_relays idx inside).step fun _ _ _ _ => ?_
  refine Relays.step (Relays.pure _) fun _ _ _ _ => ?_
  refine (findBlock_relays target _).step fun block _ _ _ => ?_
  refine (remapUnit_relays _ _ _ _).step fun _ _ _ _ => ?_
  exact (writeUnit_relays outside _ _ _).step fun _ _ _ _ =>
    setRefreshPeriod_relays _ _ _

theorem Relays.mono {more : Nat → Set Nat} {program : FTLM α}
    (relays : Relays cfg pool victims flags pages program state)
    (le : ∀ victim, pages victim ⊆ more victim) :
    Relays cfg pool victims flags more program state :=
  Meets.mono relays (fun _ _ relayed => relayed.mono le) fun _ _ _ => trivial

structure Replaced (pool : ActivePool) (victims : List Nat)
    (before after : State) : Prop where
  aligned : (before.active pool).Aligned (after.active pool)
  named : ∀ index, ∀ victim ∈ victims,
    (after.active pool).blocks[index]? = some victim →
      (before.active pool).blocks[index]? = some victim ∧
        index ≠ (before.active pool).index
  others : ∀ other, other ≠ pool → after.active other = before.active other
  lookup_eq : ∀ victim ∈ victims,
    after.blocks.lookup victim = before.blocks.lookup victim
  window : ∀ victim ∈ victims, victim ∉ before.coolDownWindow →
    victim ∉ after.coolDownWindow

theorem refill_replaces {old : Nat}
    (used : ∀ victim ∈ victims, state.InUse victim)
    (windowed : pool = .cool →
      ∀ victim ∈ victims, victim ∉ state.coolDownWindow)
    (slot : (state.active pool).blocks[(state.active pool).index]? =
      some old) :
    Meets (do refillSlot cfg pool; slotAt pool) state
      (fun target final => target ∉ victims ∧
        Replaced pool victims state final) fun _ _ => True := by
  unfold refillSlot seatSlot
  simp only [bind_assoc]
  apply meets_bind.mpr
  apply meets_get.mpr
  refine (getBlockFor_bypasses pool _ used windowed).bind ?_
  intro fresh taken post
  obtain ⟨outside, bypasses⟩ := post
  refine Meets.bindOk rfl ?_
  refine Meets.bindOk rfl ?_
  have inside := (List.getElem?_eq_some_iff.mp slot).1
  have seated : ((taken.active pool).blocks.set (state.active pool).index
      fresh)[(taken.active pool).index]? = some fresh := by
    rw [bypasses.active_eq]
    exact List.getElem?_set_self inside
  unfold Meets
  rw [run_slotAt (by simpa using seated)]
  refine ⟨outside, ⟨?_, ?_⟩, ?_, ?_, bypasses.lookup_eq, bypasses.window⟩
  · simp [bypasses.active_eq]
  · simp [bypasses.active_eq]
  · intro index victim member named
    simp only [State.setActive_active, Function.update_self,
      bypasses.active_eq] at named
    by_cases here : (state.active pool).index = index
    · rw [← here, List.getElem?_set_self inside] at named
      cases named
      exact absurd member outside
    · rw [List.getElem?_set_ne here] at named
      exact ⟨named, fun same => here same.symm⟩
  · intro other different
    simp only [State.setActive_active, Function.update_of_ne different,
      bypasses.active_eq]

theorem slot_replaces (held : Held cfg pool victims state) :
    Meets (do
        let blockIndex ← slotAt pool
        let block ← findBlock blockIndex pool.corrupted
        if block.getNextWritePageIndex = cfg.pagesInBlock then
          refillSlot cfg pool
        slotAt pool) state
      (fun target final => target ∉ victims ∧
        Replaced pool victims state final) fun _ _ => True := by
  cases slot : (state.active pool).blocks[(state.active pool).index]? with
  | none =>
      have failed : (slotAt pool).run state = .error .outOfRange state := by
        simp only [slotAt, EStateM.run_bind, EStateM.run_get, slot]
        rfl
      exact Meets.bindError failed trivial
  | some old =>
      refine Meets.bindOk (run_slotAt slot) ?_
      cases found : state.blocks.lookup old with
      | none => exact Meets.bindError (run_findBlock_none found) trivial
      | some block =>
          refine Meets.bindOk (run_findBlock found) ?_
          dsimp only
          split
          · exact refill_replaces held.inUse held.windowed slot
          · next room =>
              -- a victim in this slot would be full
              have outside : old ∉ victims := fun member => room
                (held.full old member (List.mem_of_getElem? slot) block found)
              unfold Meets
              rw [run_slotAt slot]
              refine ⟨outside, ⟨rfl, rfl⟩, ?_, fun _ _ => rfl,
                fun _ _ => rfl, fun _ _ absent => absent⟩
              intro index victim member named
              refine ⟨named, ?_⟩
              intro here
              rw [← here, named] at slot
              cases slot
              exact outside member

theorem getLastBlock_relays (flag : IOFlag)
    (held : Held cfg pool victims state) :
    Meets (getLastBlock cfg pool flag) state
      (fun target final => target ∉ victims ∧
        Relayed cfg pool victims [flag] (fun _ => ∅) state final)
      fun _ _ => True := by
  have moved : (state.setActive pool ((state.active pool).advance cfg
      flag)).active pool = (state.active pool).advance cfg flag := by simp
  have ready : Held cfg pool victims (state.setActive pool
      ((state.active pool).advance cfg flag)) := by
    refine ⟨held.inUse, ?_, held.windowed⟩
    intro victim member listed
    rw [moved, ActiveSlots.advance_blocks] at listed
    exact held.full victim member listed
  unfold getLastBlock
  refine Meets.bindOk rfl ?_
  refine (slot_replaces ready).mono ?_ fun _ _ _ => trivial
  intro target final post
  obtain ⟨outside, replaced⟩ := post
  have aligned := replaced.aligned
  have named := replaced.named
  rw [moved] at aligned named
  refine ⟨outside, ⟨aligned, ?_⟩, ?_, ?_, replaced.window⟩
  · intro index victim member later
    obtain ⟨earlier, unvisited⟩ := named index victim member later
    rw [ActiveSlots.advance_blocks] at earlier
    exact ⟨earlier, fun visited => unvisited (List.mem_singleton.mp visited)⟩
  · intro other different
    rw [replaced.others other different]
    simp [different]
  · intro victim member block found
    exact ⟨block, (replaced.lookup_eq victim member).trans found, rfl,
      fun _ _ => rfl⟩

def pagesOf (source : Nat) (pages : List Nat) (victim : Nat) : Set Nat :=
  { page | victim = source ∧ page ∈ pages }

theorem copyPage_relays {plan : CopyPlan} (idle : plan.refreshes = false)
    {source page : Nat} {block : Block}
    (held : Held cfg plan.destination victims state)
    (found : state.blocks.lookup source = some block) :
    Relays cfg plan.destination victims (pageRequests cfg block [page])
      (pagesOf source [page]) (copyPage cfg env plan source page) state := by
  unfold copyPage
  refine Meets.bindOk (run_blockAt found) ?_
  dsimp only
  split
  · next valid =>
      have one : pageRequests cfg block [page] =
          [copiedUnits cfg block page] := by
        simp [pageRequests, valid]
      rw [one]
      have asks := getLastBlock_relays (copiedUnits cfg block page) held
      refine meets_bind.mpr (asks.mono ?_ fun _ _ _ => trivial)
      intro target reached post
      obtain ⟨outside, relayed⟩ := post
      have held' := relayed.held held
      have touched : page ∈ pagesOf source [page] source := ⟨rfl, .head _⟩
      have copies : Relays cfg plan.destination victims []
          (pagesOf source [page]) (do
            (List.range cfg.bitsetSize).forM fun idx => do
              if copiedUnits cfg block page idx then
                copyUnit cfg env plan.missing plan.refreshes source page target
                  (block.lpns page idx) idx
                count plan.unitStat
            count plan.pageStat) reached := by
        rw [idle]
        refine (Relays.forM held' ?_).step fun _ _ _ _ => count_relays _
        intro idx _ current _
        split
        · exact (copyUnit_relays _ touched outside _ _).step
            fun _ _ _ _ => count_relays _
        · exact Relays.pure _
      refine Meets.mono copies ?_ fun _ _ _ => trivial
      intro _ final later
      exact (relayed.trans later).mono fun victim => (Set.empty_union _).subset
  · next invalid =>
      have none : pageRequests cfg block [page] = [] := by
        simp [pageRequests, invalid]
      rw [none]
      exact Relays.pure _

theorem pageRequests_congr {block later : Block} {listed : List Nat}
    (same : ∀ page ∈ listed, later.validBits page = block.validBits page) :
    pageRequests cfg later listed = pageRequests cfg block listed := by
  unfold pageRequests
  have filtered : listed.filter (fun page =>
      IOFlag.any cfg.ioUnitInPage (later.validBits page)) = listed.filter
        fun page => IOFlag.any cfg.ioUnitInPage (block.validBits page) :=
    List.filter_congr fun page member => by rw [same page member]
  rw [filtered]
  refine List.map_congr_left ?_
  intro page member
  unfold copiedUnits
  rw [same page (List.mem_filter.mp member).1]

theorem copyPages_relays {plan : CopyPlan} (idle : plan.refreshes = false)
    {source : Nat} {block : Block} {listed : List Nat}
    (nodup : listed.Nodup) (member : source ∈ victims)
    (held : Held cfg plan.destination victims state)
    (found : state.blocks.lookup source = some block) :
    Relays cfg plan.destination victims (pageRequests cfg block listed)
      (pagesOf source listed) (listed.forM (copyPage cfg env plan source))
      state := by
  induction listed generalizing state block with
  | nil => exact Relays.pure _
  | cons page rest induction =>
      obtain ⟨fresh, nodup'⟩ := List.nodup_cons.mp nodup
      have split : pageRequests cfg block (page :: rest) =
          pageRequests cfg block [page] ++ pageRequests cfg block rest := by
        unfold pageRequests
        rw [← List.map_append, ← List.filter_append]
        rfl
      rw [split]
      have first : Relays cfg plan.destination victims
          (pageRequests cfg block [page]) (pagesOf source [page])
          (copyPage cfg env plan source page) state :=
        copyPage_relays idle held found
      refine Relays.bind (first.mono ?_) ?_
      · rintro victim other ⟨same, here⟩
        exact ⟨same, List.mem_singleton.mp here ▸ .head _⟩
      · intro _ reached returned _
        have relayed := first.of_ok returned
        obtain ⟨later, found', cleared⟩ :=
          relayed.version source member block found
        have same : pageRequests cfg later rest =
            pageRequests cfg block rest := by
          refine pageRequests_congr ?_
          intro other listed
          refine cleared.kept other ?_
          rintro ⟨_, here⟩
          exact fresh (List.mem_singleton.mp here ▸ listed)
        rw [← same]
        refine (induction nodup' (relayed.held held) found').mono ?_
        exact fun victim other touched => ⟨touched.1, .tail _ touched.2⟩

theorem copyVictims_relays {plan : CopyPlan} {invalid : Panic}
    {listed : List Nat} (idle : plan.refreshes = false)
    (nodup : listed.Nodup) (subset : ∀ victim ∈ listed, victim ∈ victims)
    (held : Held cfg plan.destination victims state) :
    Relays cfg plan.destination victims (copyRequests cfg state listed)
      (fun _ => Set.univ) (copyVictims cfg env plan invalid listed) state := by
  unfold copyVictims
  induction listed generalizing state with
  | nil => exact Relays.pure _
  | cons victim rest induction =>
      obtain ⟨fresh, nodup'⟩ := List.nodup_cons.mp nodup
      obtain ⟨block, found⟩ := held.inUse victim (subset victim (.head _))
      have split : copyRequests cfg state (victim :: rest) =
          pageRequests cfg block (List.range cfg.pagesInBlock) ++
            copyRequests cfg state rest := by
        unfold copyRequests
        rw [List.flatMap_cons, found]
      have first : Relays cfg plan.destination victims
          (pageRequests cfg block (List.range cfg.pagesInBlock))
          (pagesOf victim (List.range cfg.pagesInBlock))
          (do
            let _ ← findBlock victim invalid
            (List.range cfg.pagesInBlock).forM (copyPage cfg env plan victim))
          state := by
        refine Meets.bindOk (run_findBlock found) ?_
        exact copyPages_relays idle List.nodup_range
          (subset victim (.head _)) held found
      rw [split]
      refine Relays.bind (first.mono fun _ => Set.subset_univ _) ?_
      intro _ reached returned _
      have relayed := first.of_ok returned
      have same : copyRequests cfg reached rest =
          copyRequests cfg state rest := by
        unfold copyRequests
        refine List.flatMap_congr ?_
        intro other listed
        obtain ⟨current, lookup⟩ := held.inUse other
          (subset other (.tail _ listed))
        obtain ⟨later, lookup', cleared⟩ := relayed.version other
          (subset other (.tail _ listed)) current lookup
        rw [lookup, lookup']
        refine pageRequests_congr ?_
        intro page _
        refine cleared.kept page ?_
        rintro ⟨here, _⟩
        exact fresh (here ▸ listed)
      rw [← same]
      exact induction nodup' (fun other listed => subset other (.tail _ listed))
        (relayed.held held)

end Relays

/-! The erases. -/

def Intact (lost : List Nat) (state : State) : Prop :=
  state.slotsLost = lost

section Erases

variable {cfg : Config} {lost : List Nat} {state : State}

theorem takeFreeBlock_intact (pool : FreePool) (noneLeft inUse : Panic)
    (idx : Nat) : Keeps (Intact lost) (Intact lost)
      (takeFreeBlock cfg pool noneLeft inUse idx) := by
  intro state intact
  unfold takeFreeBlock
  split
  · exact intact
  apply meets_bind.mpr
  apply meets_get.mpr
  dsimp only
  split
  · exact intact
  split
  · exact intact
  · split
    · exact intact
    · exact intact

theorem updateBlock_intact (blockIndex : Nat) (update : Block → Block) :
    Keeps (Intact lost) (Intact lost) (updateBlock blockIndex update) := by
  intro state intact
  unfold Meets
  cases found : state.blocks.lookup blockIndex with
  | none =>
      have failed : (updateBlock blockIndex update).run state =
          .error .invalidIterator state := by
        simp only [updateBlock, blockAt, EStateM.run_bind,
          run_findBlock_none found]
      rw [failed]
      exact intact
  | some block =>
      rw [run_updateBlock found]
      exact intact

theorem demoteCoolFront_intact :
    Keeps (Intact lost) (Intact lost) (demoteCoolFront cfg) := by
  intro state intact
  unfold demoteCoolFront
  apply meets_bind.mpr
  apply meets_get.mpr
  split
  · split
    · exact intact
    · next front rest window =>
        cases found : state.blocks.lookup front with
        | none => exact Meets.bindError (run_findBlock_none found) intact
        | some block => exact Meets.bindOk (run_findBlock found) intact
  · exact intact

theorem getBlockFor_intact (pool : ActivePool) (idx : Nat) :
    Keeps (Intact lost) (Intact lost) (getBlockFor cfg pool idx) := by
  have tag : ∀ (blockIndex : Nat) (update : Block → Block),
      Keeps (Intact lost) (Intact lost)
        (do updateBlock blockIndex update; return blockIndex) :=
    fun blockIndex update =>
      (updateBlock_intact blockIndex update).bind fun _ => Keeps.pure _
  cases pool with
  | plain =>
      exact (takeFreeBlock_intact .plain _ _ idx).bind fun _ => tag _ _
  | hot =>
      refine (takeFreeBlock_intact .hot _ _ idx).bind fun _ => ?_
      exact Keeps.bind (Keeps.modify fun _ intact => intact) fun _ => tag _ _
  | cool =>
      refine (takeFreeBlock_intact .cold _ _ idx).bind fun _ => ?_
      refine demoteCoolFront_intact.bind fun _ => ?_
      exact Keeps.bind (Keeps.modify fun _ intact => intact) fun _ => tag _ _
  | cold =>
      exact (takeFreeBlock_intact .cold _ _ idx).bind fun _ => tag _ _

/-- Only an erase takes a block away from under a slot. -/
theorem intact_care (cfg : Config) (lost : List Nat) :
    Care cfg (Intact lost) (Intact lost) where
  fails := fun _ intact => intact
  agree := fun intact _ _ _ _ _ same => same.trans intact
  revise := fun intact _ _ => intact
  write := fun intact _ _ => intact
  refresh := fun source =>
    (updateBlock_intact source _).bind fun _ =>
      Keeps.modify fun _ intact => intact
  refill := by
    intro state pool old block intact _ _ _
    unfold refillSlot seatSlot
    simp only [bind_assoc]
    apply meets_bind.mpr
    apply meets_get.mpr
    exact (getBlockFor_intact pool _ state intact).bind
      fun _ _ intact => intact

theorem dropBlock_intact {pools : List ActivePool} {victim : Nat}
    (retires : Bool)
    (unnamed : ∀ pool ∈ pools, victim ∉ (state.active pool).blocks)
    (intact : Intact lost state) :
    Meets (dropBlock pools retires victim) state
      (fun _ final => final.active = state.active ∧
        final.coolDownWindow = state.coolDownWindow ∧
        final.blocks = state.blocks.erase victim ∧ Intact lost final)
      fun _ _ => False := by
  refine ⟨rfl, rfl, rfl, ?_⟩
  have none : (pools.any fun pool =>
      (state.active pool).blocks.contains victim) = false := by
    refine List.any_eq_false.mpr ?_
    intro pool used
    simpa using unnamed pool used
  unfold Intact
  simp only [none]
  exact intact

/-- An erase does not move a slot when separation is off. -/
theorem eraseInternal_intact {victim : Nat}
    (unnamed : victim ∉ (state.active .plain).blocks)
    (intact : Intact lost state) :
    Meets (eraseInternal cfg victim) state
      (fun _ final => final.active = state.active ∧ Intact lost final)
      fun _ stopped => Intact lost stopped := by
  have dropped : ∀ (reached : State) (retires : Bool),
      reached.active = state.active → Intact lost reached →
      Meets (dropBlock [.plain] retires victim) reached
        (fun _ final => final.active = state.active ∧ Intact lost final)
        fun _ stopped => Intact lost stopped := by
    intro reached retires active_eq intact
    refine (dropBlock_intact retires ?_ intact).mono ?_
      fun _ _ impossible => impossible.elim
    · intro pool used
      rw [List.mem_singleton.mp used, active_eq]
      exact unnamed
    · exact fun _ final post => ⟨post.1.trans active_eq, post.2.2.2⟩
  unfold eraseInternal
  cases found : state.blocks.lookup victim with
  | none => exact Meets.bindError (run_findBlock_none found) intact
  | some block =>
      refine Meets.bindOk (run_findBlock found) ?_
      dsimp only
      split
      · exact intact
      refine Meets.bindOk (run_updateBlock found _) ?_
      split
      · refine ((searchPosition_unmoved .plain _).mono
          (fun _ _ same => same) ?_).bind ?_
        · intro _ stopped same
          rw [same]
          exact intact
        intro position searched same
        subst same
        refine ((emplaceFree_places .plain position victim).mono
          (fun _ _ placed => placed) ?_).bind ?_
        · intro _ stopped same
          rw [same]
          exact intact
        intro _ placed post
        obtain ⟨list, same⟩ := post
        subst same
        exact dropped _ _ rfl intact
      · exact dropped _ _ rfl intact

theorem eraseAll_intact {victims : List Nat}
    (unnamed : ∀ victim ∈ victims, victim ∉ (state.active .plain).blocks)
    (intact : Intact lost state) :
    Meets (victims.forM (eraseInternal cfg)) state
      (fun _ final => Intact lost final)
      fun _ stopped => Intact lost stopped := by
  refine (Meets.forM (fun remaining reached =>
      reached.active = state.active ∧ Intact lost reached ∧
        ∀ victim ∈ remaining, victim ∈ victims)
    ⟨rfl, intact, fun _ member => member⟩ ?_).mono
      (fun _ _ kept => kept.2.1) fun _ _ failed => failed
  intro victim rest reached kept
  obtain ⟨active_eq, intact', listed⟩ := kept
  have unnamed' : victim ∉ (reached.active .plain).blocks := by
    rw [active_eq]
    exact unnamed victim (listed victim (.head _))
  refine (eraseInternal_intact unnamed' intact').mono ?_
    fun _ _ failed => failed
  intro _ final post
  exact ⟨post.1.trans active_eq, post.2,
    fun other member => listed other (.tail _ member)⟩

structure Awaits (cfg : Config) (victims : List Nat) (state : State) :
    Prop where
  nodup : victims.Nodup
  inUse : ∀ victim ∈ victims, state.InUse victim
  windowed : ∀ victim ∈ victims, victim ∉ state.coolDownWindow
  repairs : ∀ pool ∈ [ActivePool.hot, .cool, .cold], ∀ index,
    ∀ victim ∈ victims, (state.active pool).blocks[index]? = some victim →
      Repairs cfg state pool index victim

theorem Repairs.of_version {updated : State} {pool : ActivePool}
    {index victim : Nat} (repairs : Repairs cfg state pool index victim)
    (version : ∀ block, state.blocks.lookup victim = some block → ∃ later,
      updated.blocks.lookup victim = some later ∧
        later.eraseCount = block.eraseCount ∧
        later.blockType = block.blockType)
    (slots : ∀ earlier : Nat,
      (updated.active pool).blocks[earlier]? = some victim →
        (state.active pool).blocks[earlier]? = some victim) :
    Repairs cfg updated pool index victim where
  returned := by
    obtain ⟨block, found, young, typed⟩ := repairs.returned
    obtain ⟨later, found', count_eq, type_eq⟩ := version block found
    exact ⟨later, found', by rw [count_eq]; exact young,
      by rw [type_eq]; exact typed⟩
  first := fun earlier below named =>
    repairs.first earlier below (slots earlier named)

theorem Repairs.index_eq {pool : ActivePool} {index victim : Nat}
    (repairs : Repairs cfg state pool index victim)
    (named : (state.active pool).blocks[index]? = some victim) :
    (state.active pool).blocks.idxOf victim = index := by
  obtain ⟨inside, here⟩ := List.getElem?_eq_some_iff.mp named
  have le : (state.active pool).blocks.idxOf victim ≤ index := by
    by_contra above
    have apart := List.not_of_lt_findIdx (Nat.lt_of_not_le above)
    simp [here] at apart
  refine Nat.le_antisymm le (Nat.le_of_not_lt fun below => ?_)
  refine repairs.first _ below ?_
  have listed := List.mem_of_getElem? named
  rw [List.getElem?_eq_getElem (List.idxOf_lt_length_iff.mpr listed),
    List.getElem_idxOf]

structure Repaired (pool : ActivePool) (victims : List Nat) (index : Nat)
    (before after : State) : Prop where
  named : ∀ other slot, ∀ victim ∈ victims,
    (after.active other).blocks[slot]? = some victim →
      (before.active other).blocks[slot]? = some victim ∧
        (other = pool → slot ≠ index)
  lookup_eq : ∀ victim ∈ victims,
    after.blocks.lookup victim = before.blocks.lookup victim
  window : ∀ victim ∈ victims, victim ∉ before.coolDownWindow →
    victim ∉ after.coolDownWindow

theorem repairSlot_repairs (pool : ActivePool) {victims : List Nat}
    (victim : Nat) (used : ∀ other ∈ victims, state.InUse other)
    (windowed : ∀ other ∈ victims, other ∉ state.coolDownWindow) :
    Meets (repairSlot cfg pool victim) state
      (fun _ final => Repaired pool victims
        ((state.active pool).blocks.idxOf victim) state final)
      fun _ _ => True := by
  unfold repairSlot
  apply meets_bind.mpr
  apply meets_get.mpr
  split
  · next contained =>
      have listed : victim ∈ (state.active pool).blocks := by
        simpa using contained
      have inside := List.idxOf_lt_length_iff.mpr listed
      refine (getBlockFor_bypasses .cool _ used fun _ => windowed).bind ?_
      intro replacement taken post
      obtain ⟨outside, bypasses⟩ := post
      refine ⟨?_, bypasses.lookup_eq, bypasses.window⟩
      intro other slot current member named
      simp only [State.setActive_active, bypasses.active_eq] at named
      by_cases same : other = pool
      · subst same
        rw [Function.update_self] at named
        by_cases here : (state.active other).blocks.idxOf victim = slot
        · rw [← here, List.getElem?_set_self inside] at named
          cases named
          exact absurd member outside
        · rw [List.getElem?_set_ne here] at named
          exact ⟨named, fun _ same => here same.symm⟩
      · rw [Function.update_of_ne same] at named
        exact ⟨named, fun equal => absurd equal same⟩
  · next absent =>
      refine ⟨?_, fun _ _ => rfl, fun _ _ outside => outside⟩
      intro other slot current member named
      refine ⟨named, ?_⟩
      intro same here
      subst same
      have inside := (List.getElem?_eq_some_iff.mp named).1
      have unlisted : victim ∉ (state.active other).blocks := by
        simpa using absent
      rw [here, List.idxOf_eq_length unlisted] at inside
      exact absurd inside (Nat.lt_irrefl _)

theorem repairSlot_intact (pool : ActivePool) (victim : Nat) :
    Keeps (Intact lost) (Intact lost) (repairSlot cfg pool victim) := by
  intro state intact
  unfold repairSlot
  apply meets_bind.mpr
  apply meets_get.mpr
  split
  · exact (getBlockFor_intact .cool _ state intact).bind
      fun _ _ intact => intact
  · exact intact

/-- The end of an erase that leaves no slot without a block. -/
theorem drop_awaits {before : State} {victim : Nat} {rest : List Nat}
    (retires : Bool) (awaits : Awaits cfg (victim :: rest) before)
    (lookup_eq : ∀ other ∈ rest,
      state.blocks.lookup other = before.blocks.lookup other)
    (window : ∀ other ∈ rest, other ∉ before.coolDownWindow →
      other ∉ state.coolDownWindow)
    (slots : ∀ pool, ∀ index : Nat, ∀ other ∈ victim :: rest,
      (state.active pool).blocks[index]? = some other →
        (before.active pool).blocks[index]? = some other)
    (unnamed : ∀ pool ∈ [ActivePool.hot, .cool, .cold],
      victim ∉ (state.active pool).blocks)
    (intact : Intact lost state) :
    Meets (dropBlock [.hot, .cool, .cold] retires victim) state
      (fun _ final => Awaits cfg rest final ∧ Intact lost final)
      fun _ stopped => Intact lost stopped := by
  obtain ⟨fresh, nodup⟩ := List.nodup_cons.mp awaits.nodup
  refine (dropBlock_intact retires unnamed intact).mono ?_
    fun _ _ impossible => impossible.elim
  intro _ final post
  obtain ⟨active_eq, window_eq, erased, intact'⟩ := post
  have lookups : ∀ other ∈ rest,
      final.blocks.lookup other = before.blocks.lookup other := by
    intro other member
    have apart : other ≠ victim := fun same => fresh (same ▸ member)
    rw [erased, AList.lookup_erase_ne apart]
    exact lookup_eq other member
  refine ⟨⟨nodup, ?_, ?_, ?_⟩, intact'⟩
  · intro other member
    unfold State.InUse
    rw [lookups other member]
    exact awaits.inUse other (.tail _ member)
  · intro other member
    rw [window_eq]
    exact window other member (awaits.windowed other (.tail _ member))
  · intro pool used index other member named
    rw [active_eq] at named
    have earlier := slots pool index other (.tail _ member) named
    refine (awaits.repairs pool used index other (.tail _ member)
      earlier).of_version ?_ ?_
    · intro block found
      exact ⟨block, (lookups other member).trans found, rfl, rfl⟩
    · intro first listed
      rw [active_eq] at listed
      exact slots pool first other (.tail _ member) listed

theorem return_awaits {pool : ActivePool} {victim count : Nat}
    {rest : List Nat} {block : Block} (retires : Bool)
    (awaits : Awaits cfg (victim :: rest) state)
    (found : state.blocks.lookup victim = some block)
    (typed : ∀ other, block.blockType.repairs other → other = pool)
    (intact : Intact lost state) :
    Meets (do
        let position ← searchPosition .cold count
        repairSlot cfg pool victim
        emplaceFree .cold position victim
        dropBlock [.hot, .cool, .cold] retires victim)
      (state.setBlock victim block.erase)
      (fun _ final => Awaits cfg rest final ∧ Intact lost final)
      fun _ stopped => Intact lost stopped := by
  obtain ⟨fresh, _⟩ := List.nodup_cons.mp awaits.nodup
  have used : ∀ other ∈ victim :: rest,
      (state.setBlock victim block.erase).InUse other := fun other member =>
    State.inUse_setBlock.mpr (.inr (awaits.inUse other member))
  refine ((searchPosition_unmoved .cold count).mono (fun _ _ same => same)
    ?_).bind ?_
  · intro _ stopped same
    rw [same]
    exact intact
  intro position searched same
  subst same
  refine (((repairSlot_repairs pool victim used awaits.windowed).and
    (repairSlot_intact pool victim _ intact)).mono (fun _ _ post => post)
      fun _ _ failed => failed.2).bind ?_
  intro _ patched post
  obtain ⟨repaired, intact'⟩ := post
  refine ((emplaceFree_places .cold position victim).mono
    (fun _ _ placed => placed) ?_).bind ?_
  · intro _ stopped same
    rw [same]
    exact intact'
  intro _ placed post
  obtain ⟨list, same⟩ := post
  subst same
  refine drop_awaits retires awaits ?_ ?_ ?_ ?_ intact'
  · intro other member
    refine (repaired.lookup_eq other (.tail _ member)).trans ?_
    exact AList.lookup_insert_ne fun same => fresh (same ▸ member)
  · exact fun other member =>
      repaired.window other (.tail _ member)
  · exact fun pool index other member named =>
      (repaired.named pool index other member named).1
  · intro other listed member
    obtain ⟨index, named⟩ := List.mem_iff_getElem?.mp member
    obtain ⟨earlier, elsewhere⟩ :=
      repaired.named other index victim (.head _) named
    have repairs := awaits.repairs other listed index victim (.head _) earlier
    obtain ⟨version, lookup, _, repairs'⟩ := repairs.returned
    rw [found] at lookup
    cases lookup
    have same := typed other repairs'
    subst same
    exact elsewhere rfl (repairs.index_eq earlier).symm

/-- Without a repair no slot may name the victim. -/
theorem drop_unrepaired {victim : Nat} {rest : List Nat} {block : Block}
    {reached : State} (retires : Bool)
    (awaits : Awaits cfg (victim :: rest) state)
    (found : state.blocks.lookup victim = some block)
    (active_eq : reached.active = state.active)
    (window_eq : reached.coolDownWindow = state.coolDownWindow)
    (blocks_eq : reached.blocks = (state.setBlock victim block.erase).blocks)
    (intact : Intact lost reached)
    (none : ∀ other, block.eraseCount + 1 < cfg.badBlockThreshold →
      ¬ block.blockType.repairs other) :
    Meets (dropBlock [.hot, .cool, .cold] retires victim) reached
      (fun _ final => Awaits cfg rest final ∧ Intact lost final)
      fun _ stopped => Intact lost stopped := by
  obtain ⟨fresh, _⟩ := List.nodup_cons.mp awaits.nodup
  refine drop_awaits retires awaits ?_ ?_ ?_ ?_ intact
  · intro other member
    rw [blocks_eq]
    exact AList.lookup_insert_ne fun same => fresh (same ▸ member)
  · intro other member outside
    rw [window_eq]
    exact outside
  · intro pool index other member named
    rw [active_eq] at named
    exact named
  · intro other listed member
    rw [active_eq] at member
    obtain ⟨index, named⟩ := List.mem_iff_getElem?.mp member
    obtain ⟨version, lookup, young, repairs⟩ :=
      (awaits.repairs other listed index victim (.head _) named).returned
    rw [found] at lookup
    cases lookup
    exact none other young repairs

theorem sepEraseInternal_awaits {victim : Nat} {rest : List Nat}
    (awaits : Awaits cfg (victim :: rest) state) (intact : Intact lost state) :
    Meets (sepEraseInternal cfg victim) state
      (fun _ final => Awaits cfg rest final ∧ Intact lost final)
      fun _ stopped => Intact lost stopped := by
  obtain ⟨block, found⟩ := awaits.inUse victim (.head _)
  unfold sepEraseInternal
  refine Meets.bindOk (run_blockAt found) ?_
  dsimp only
  split
  · exact intact
  refine Meets.bindOk (run_updateBlock found _) ?_
  split
  · cases kind : block.blockType with
    | hot =>
        refine ((searchPosition_unmoved .hot _).mono (fun _ _ same => same)
          ?_).bind ?_
        · intro _ stopped same
          rw [same]
          exact intact
        intro position searched same
        subst same
        refine ((emplaceFree_places .hot position victim).mono
          (fun _ _ placed => placed) ?_).bind ?_
        · intro _ stopped same
          rw [same]
          exact intact
        intro _ placed post
        obtain ⟨list, same⟩ := post
        subst same
        refine drop_unrepaired _ awaits found rfl rfl rfl intact ?_
        intro other _ repairs
        rw [kind] at repairs
        exact repairs
    | cool =>
        refine return_awaits _ awaits found ?_ intact
        intro other repairs
        rw [kind] at repairs
        exact repairs
    | cold =>
        refine return_awaits _ awaits found ?_ intact
        intro other repairs
        rw [kind] at repairs
        exact repairs
  · next worn =>
      exact drop_unrepaired _ awaits found rfl rfl rfl intact
        fun _ young => absurd young worn

theorem sepEraseAll_intact {victims : List Nat}
    (awaits : Awaits cfg victims state) (intact : Intact lost state) :
    Meets (victims.forM (sepEraseInternal cfg)) state
      (fun _ final => Intact lost final)
      fun _ stopped => Intact lost stopped := by
  refine (Meets.forM (fun remaining reached =>
      Awaits cfg remaining reached ∧ Intact lost reached) ⟨awaits, intact⟩
    ?_).mono (fun _ _ kept => kept.2) fun _ _ failed => failed
  intro victim rest reached kept
  exact sepEraseInternal_awaits kept.1 kept.2

end Erases

end SimpleSSD.FTL
