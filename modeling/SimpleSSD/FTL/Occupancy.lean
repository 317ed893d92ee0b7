import SimpleSSD.FTL.Replacement

namespace SimpleSSD.FTL

open Machine Program

/-! Active slots over whole runs whose collections leave no slot without a
block. -/

def KeepsSlots (lost : List Nat) (program : FTLM α) (state : State) : Prop :=
  Meets program state (fun _ final => Intact lost final)
    fun _ stopped => Intact lost stopped

section Collections

variable {cfg : Config} {env : Environment} {phase : Phase}
  {state called : State} {victims lost : List Nat}
  {mapped : Set (Nat × Nat)}

theorem KeepsSlots.bind {program : FTLM α} {next : α → FTLM β}
    (first : KeepsSlots lost program state)
    (rest : ∀ value reached, program.run state = .ok value reached →
      Intact lost reached → KeepsSlots lost (next value) reached) :
    KeepsSlots lost (program >>= next) state :=
  meets_bind.mpr (meets_of_cases
    (fun value reached returned =>
      rest value reached returned (first.of_ok returned))
    fun _ _ failed => first.of_error failed)

theorem Collectable.held (held : Collectable cfg phase state)
    (settled : phase.Settled) :
    Held cfg (gcPool cfg) phase.victims state where
  inUse := held.windows.victims_inUse
  full := by
    intro victim member listed block found
    have used : gcPool cfg ∈ activePools cfg := by
      unfold gcPool activePools
      split <;> simp
    rcases held.chosen.shielded victim member with
      ⟨version, lookup, full⟩ | ⟨separated, hot⟩ | unseated
    · rw [found] at lookup
      cases lookup
      exact full
    · have admits := held.slots.admits _ used _ listed
      unfold gcPool at admits
      rw [if_pos separated] at admits
      exact absurd hot (Nat.not_lt.mpr admits.2)
    · exact absurd listed unseated
  windowed := by
    intro cool victim member listed
    have separated : cfg.hotColdSeparation = true := by
      unfold gcPool at cool
      split at cool
      · assumption
      · cases cool
    rcases ((held.windows.cool separated).mem_iff victim).mp listed with
      ⟨_, staying, _⟩ | queued
    · exact staying (.inl member)
    · rw [settled.fresh] at queued
      cases queued

theorem doGarbageCollection_intact (isRefresh : Bool)
    (off : cfg.hotColdSeparation = false)
    (held : Held cfg (gcPool cfg) victims state) (nodup : victims.Nodup)
    (vacates : Vacates cfg state victims) (intact : Intact lost state) :
    KeepsSlots lost (doGarbageCollection cfg env isRefresh victims) state := by
  have here : gcPool cfg = .plain := by simp [gcPool, off]
  rw [here] at held
  have copies : Relays cfg .plain victims (copyRequests cfg state victims)
      (fun _ => Set.univ)
      (copyVictims cfg env (gcPlan isRefresh) .invalidBlock victims) state :=
    copyVictims_relays rfl nodup (fun _ member => member) held
  unfold doGarbageCollection
  refine ((Meets.and copies
    ((intact_care cfg lost).copyVictims _ _ _ state intact)).mono
      (fun _ _ post => post) fun _ _ failed => failed.2).bind ?_
  intro _ copied post
  obtain ⟨relayed, intact'⟩ := post
  refine eraseAll_intact ?_ intact'
  intro victim member listed
  obtain ⟨index, named⟩ := List.mem_iff_getElem?.mp listed
  obtain ⟨earlier, unvisited⟩ :=
    relayed.passed.named index victim member named
  have used : .plain ∈ activePools cfg := by simp [activePools, off]
  rcases vacates .plain used index (List.getElem?_eq_some_iff.mp earlier).1
    victim member earlier with ⟨_, visited⟩ | ⟨separated, _⟩
  · exact unvisited visited
  · rw [off] at separated
    cases separated

theorem sepDoGarbageCollection_intact (isRefresh : Bool)
    (gcType : BlockPoolType) (on : cfg.hotColdSeparation = true)
    (held : Held cfg (gcPool cfg) victims state) (nodup : victims.Nodup)
    (vacates : Vacates cfg state victims) (intact : Intact lost state) :
    KeepsSlots lost (sepDoGarbageCollection cfg env isRefresh gcType victims)
      state := by
  have here : gcPool cfg = .cool := by simp [gcPool, on]
  have arrays : activePools cfg = [.hot, .cool, .cold] := by
    simp [activePools, on]
  rw [here] at held
  have copies : Relays cfg .cool victims (copyRequests cfg state victims)
      (fun _ => Set.univ) (copyVictims cfg env (sepGCPlan isRefresh gcType)
        .invalidBlockInGC victims) state :=
    copyVictims_relays rfl nodup (fun _ member => member) held
  unfold sepDoGarbageCollection
  refine ((Meets.and copies
    ((intact_care cfg lost).copyVictims _ _ _ state intact)).mono
      (fun _ _ post => post) fun _ _ failed => failed.2).bind ?_
  intro _ copied post
  obtain ⟨relayed, intact'⟩ := post
  -- a slot that names a victim now named it before the copies
  have earlier : ∀ pool, ∀ index : Nat, ∀ victim ∈ victims,
      (copied.active pool).blocks[index]? = some victim →
        (state.active pool).blocks[index]? = some victim := by
    intro pool index victim member named
    by_cases same : pool = .cool
    · subst same
      exact (relayed.passed.named index victim member named).1
    · rwa [relayed.others pool same] at named
  have later := relayed.held held
  refine sepEraseAll_intact ⟨nodup, later.inUse, later.windowed rfl, ?_⟩
    intact'
  intro pool used index victim member named
  have before := earlier pool index victim member named
  have repairs : Repairs cfg state pool index victim := by
    rcases vacates pool (arrays ▸ used) index
      (List.getElem?_eq_some_iff.mp before).1 victim member before with
      ⟨same, visited⟩ | ⟨_, repairs⟩
    · rw [here] at same
      subst same
      exact absurd visited (relayed.passed.named index victim member named).2
    · exact repairs
  refine repairs.of_version ?_ ?_
  · intro block found
    obtain ⟨version, found', cleared⟩ :=
      relayed.version victim member block found
    refine ⟨version, found', ?_, ?_⟩
    · rw [cleared.same]
    · rw [cleared.same]
  · exact fun index named => earlier pool index victim member named

end Collections

/-! The collections that an operation calls. -/

section Operations

variable {cfg : Config} {env : Environment} {state called : State}
  {lost : List Nat} {mapped : Set (Nat × Nat)}

/-- A state at rest in which the invariants of the machine hold. -/
def Resting (cfg : Config) (env : Environment) (state : State) : Prop :=
  ∃ mapped, (machine cfg env .own).sound (.rest mapped, state) ∧
    Collectable cfg (.rest mapped) state

theorem Resting.of_follows {program : FTLM α} {value : α}
    (resting : Resting cfg env state)
    (follows : ∀ mapped, (machine cfg env .own).Follows program
      (.rest mapped) state fun _ last _ => ∃ mapped', last = .rest mapped')
    (returned : program.run state = .ok value called) :
    Resting cfg env called := by
  obtain ⟨mapped, sound, held⟩ := resting
  obtain ⟨last, sound', held', mapped', same⟩ := ((follows mapped).meets
    (collectable_invariant cfg env .own id) sound held).of_ok returned
  subst same
  exact ⟨mapped', sound', held'⟩

theorem Resting.selected {select : FTLM (List Nat)} {victims : List Nat}
    (resting : Resting cfg env state)
    (follows : ∀ mapped, (machine cfg env .own).Follows select
      (.rest mapped) state fun victims last _ =>
        last = { Phase.rest mapped with victims := victims })
    (selects : select.run state = .ok victims called) :
    victims.Nodup ∧ Held cfg (gcPool cfg) victims called := by
  obtain ⟨mapped, sound, held⟩ := resting
  obtain ⟨last, _, held', same⟩ := ((follows mapped).meets
    (collectable_invariant cfg env .own id) sound held).of_ok selects
  subst same
  exact ⟨held'.windows.victims_nodup,
    held'.held (Phase.settled_collecting mapped victims)⟩

theorem collection_intact {select : FTLM (List Nat)}
    {collect : List Nat → FTLM Unit} {update : List Nat → Stat → Stat}
    (selecting : KeepsSlots lost select state)
    (collecting : ∀ victims called, select.run state = .ok victims called →
      Intact lost called → KeepsSlots lost (collect victims) called) :
    KeepsSlots lost (do
      let victims ← select
      collect victims
      count (update victims)) state := by
  refine selecting.bind fun victims called selects intact => ?_
  exact (collecting victims called selects intact).bind
    fun _ _ _ intact => intact

theorem plainGC_intact (isRefresh : Bool) (off : cfg.hotColdSeparation = false)
    (resting : Resting cfg env state)
    (below : env.belowGCThreshold .plain (state.free .plain).count = true)
    (vacates : ∀ victims called, Selects cfg env state .plain victims called →
      Vacates cfg called victims) (intact : Intact lost state) :
    KeepsSlots lost (plainGC cfg env isRefresh) state := by
  refine collection_intact
    ((intact_care cfg lost).selectVictimBlock state intact) ?_
  intro victims called selects intact'
  obtain ⟨nodup, held⟩ := resting.selected (fun mapped =>
    selectVictimBlock_follows off trivial (Phase.rest_settled mapped) rfl)
    selects
  exact doGarbageCollection_intact isRefresh off held nodup
    (vacates victims called (.plain off below selects)) intact'

theorem coldGC_intact (isRefresh : Bool) (on : cfg.hotColdSeparation = true)
    (resting : Resting cfg env state)
    (below : env.belowGCThreshold .cold (state.free .cold).count = true)
    (vacates : ∀ victims called, Selects cfg env state .cold victims called →
      Vacates cfg called victims) (intact : Intact lost state) :
    KeepsSlots lost (coldGC cfg env isRefresh) state := by
  refine collection_intact
    ((intact_care cfg lost).selectColdVictimBlock state intact) ?_
  intro victims called selects intact'
  obtain ⟨nodup, held⟩ := resting.selected (fun mapped =>
    selectColdVictimBlock_follows on trivial (Phase.rest_settled mapped) rfl)
    selects
  exact sepDoGarbageCollection_intact isRefresh .cold on held nodup
    (vacates victims called (.cold on below selects)) intact'

theorem hotGC_intact (on : cfg.hotColdSeparation = true)
    (resting : Resting cfg env state)
    (below : env.belowGCThreshold .hot (state.free .hot).count = true)
    (vacates : ∀ victims called, Selects cfg env state .hot victims called →
      Vacates cfg called victims) (intact : Intact lost state) :
    KeepsSlots lost (hotGC cfg env) state := by
  refine collection_intact
    ((intact_care cfg lost).selectHotVictimBlock state intact) ?_
  intro victims called selects intact'
  obtain ⟨nodup, held⟩ := resting.selected (fun mapped =>
    selectHotVictimBlock_follows on trivial (Phase.rest_settled mapped) rfl)
    selects
  exact sepDoGarbageCollection_intact false .hot on held nodup
    (vacates victims called (.hot on below selects)) intact'

theorem refreshGC_intact (resting : Resting cfg env state)
    (vacates : ∀ victims called,
      Selects cfg env state (refreshPool cfg) victims called →
        Vacates cfg called victims) (intact : Intact lost state) :
    KeepsSlots lost (refreshGC cfg env) state := by
  unfold refreshGC
  unfold refreshPool at vacates
  split
  · next on =>
      rw [if_pos on] at vacates
      refine Meets.bindOk rfl ?_
      split
      · next low => exact coldGC_intact true on resting low vacates intact
      · exact intact
  · next off =>
      rw [if_neg off] at vacates
      refine Meets.bindOk rfl ?_
      split
      · next low =>
          exact plainGC_intact true (by simpa using off) resting low vacates
            intact
      · exact intact

theorem collectCold_intact (on : cfg.hotColdSeparation = true)
    (resting : Resting cfg env state)
    (vacates : ∀ victims called, Selects cfg env state .cold victims called →
      Vacates cfg called victims) (intact : Intact lost state) :
    KeepsSlots lost (collectCold cfg env) state := by
  unfold collectCold
  refine Meets.bindOk rfl ?_
  split
  · next low => exact coldGC_intact false on resting low vacates intact
  · exact intact

theorem plainWrite_intact (lpn : Nat) {flag : IOFlag}
    (asked : 0 < flag.count cfg.ioUnitInPage)
    (off : cfg.hotColdSeparation = false) (resting : Resting cfg env state)
    (vacates : ∀ victims called,
      Enters cfg env state (.write lpn flag) victims called →
        Vacates cfg called victims) (intact : Intact lost state) :
    KeepsSlots lost (writeInternal cfg env lpn flag true) state := by
  have care := intact_care cfg lost
  have places : Keeps (Intact lost) (Intact lost)
      (placePage cfg env lpn flag) :=
    (care.openMapping _ _).bind fun _ => (care.getLastBlock _ _).bind fun _ =>
      (care.findBlock _ _).bind fun _ => care.programUnits _ _ _ _
  rw [writeInternal_eq]
  refine KeepsSlots.bind (places state intact) ?_
  intro _ placed placing intact'
  have resting' := resting.of_follows (fun mapped =>
    (placePage_follows lpn flag off).mono fun _ _ _ _ _ same => ⟨_, same⟩)
    placing
  refine Meets.bindOk rfl ?_
  split
  · next low =>
      refine plainGC_intact false off resting' low ?_ intact'
      exact fun victims called selects =>
        vacates victims called (.write asked off placing selects)
  · exact intact'

theorem sepWrite_intact (lpn : Nat) {flag : IOFlag}
    (asked : 0 < flag.count cfg.ioUnitInPage)
    (on : cfg.hotColdSeparation = true) (resting : Resting cfg env state)
    (vacates : ∀ victims called,
      Enters cfg env state (.write lpn flag) victims called →
        Vacates cfg called victims) (intact : Intact lost state) :
    KeepsSlots lost (sepWriteInternal cfg env lpn flag true) state := by
  have care := intact_care cfg lost
  have places : Keeps (Intact lost) (Intact lost)
      (sepPlacePage cfg env lpn flag) := by
    unfold sepPlacePage
    refine (care.openMapping _ _).bind fun _ =>
      (care.poolTypeOf _ _).bind fun _ => ?_
    have program : ∀ target, Keeps (Intact lost) (Intact lost) (do
        let _ ← findBlock target .noSuchBlock
        programUnits cfg env true target lpn flag) := fun _ =>
      (care.findBlock _ _).bind fun _ => care.programUnits _ _ _ _
    dsimp only
    split
    · exact (care.getLastBlock _ _).bind program
    · exact (care.getLastBlock _ _).bind program
  rw [sepWriteInternal_collects]
  refine KeepsSlots.bind (places state intact) ?_
  intro _ placed placing intact'
  have resting' := resting.of_follows (fun mapped =>
    (sepPlacePage_follows lpn flag on trivial).mono
      fun _ _ _ _ _ same => ⟨_, same⟩) placing
  refine KeepsSlots.bind (collectCold_intact on resting' (fun victims called
    selects => vacates victims called (.sepWrite asked on placing selects))
      intact') ?_
  intro _ collected collects intact''
  have resting'' := resting'.of_follows (fun mapped =>
    (collectCold_follows on trivial).mono fun _ _ _ _ _ same => ⟨_, same⟩)
    collects
  refine Meets.bindOk rfl ?_
  split
  · next low =>
      refine hotGC_intact on resting'' low ?_ intact''
      exact fun victims called selects => vacates victims called
        (.sepWriteHot asked on placing collects selects)
  · exact intact''

theorem refreshEvent_intact (resting : Resting cfg env state)
    (vacates : ∀ victims called, Enters cfg env state .refresh victims called →
      Vacates cfg called victims) (intact : Intact lost state) :
    KeepsSlots lost (refreshEvent cfg env) state := by
  have care := intact_care cfg lost
  rw [refreshEvent_eq]
  have pops : KeepsSlots lost (popLayers cfg env cfg.refreshMaxLayerNum)
      state := by
    unfold popLayers
    have opens : KeepsSlots lost openQueue state := by
      unfold openQueue
      apply meets_bind.mpr
      apply meets_get.mpr
      split
      · exact intact
      · exact intact
    refine opens.bind fun target opened opening intact' => ?_
    have resting' := resting.of_follows (fun mapped =>
      (openQueue_follows trivial trivial).mono
        fun _ _ _ _ _ same => ⟨_, same⟩) opening
    refine KeepsSlots.bind (refreshGC_intact resting' (fun victims called
      selects => vacates victims called (.refresh opening selects))
        intact') ?_
    intro _ collected _ intact''
    exact ((care.refreshLayers _ _).bind fun _ => Keeps.pure _) collected
      intact''
  refine pops.bind fun target popped popping intact' => ?_
  have resting' := resting.of_follows (fun mapped =>
    (popLayers_follows _ trivial trivial).mono
      fun _ _ _ _ _ same => ⟨_, same⟩) popping
  refine KeepsSlots.bind (refreshGC_intact resting' (fun victims called
    selects => vacates victims called (.refreshed popping selects))
      intact') ?_
  exact fun _ collected _ intact'' => care.count _ collected intact''

theorem perform_intact (op : Op) (own : op.Own) (resting : Resting cfg env state)
    (vacates : ∀ victims called, Enters cfg env state op victims called →
      Vacates cfg called victims) (intact : Intact lost state) :
    KeepsSlots lost (perform cfg env op) state := by
  have care := intact_care cfg lost
  unfold perform
  cases op with
  | initializeFTL => exact care.initializeFTL state intact
  | read lpn flag =>
      dsimp only
      unfold read
      split
      · exact care.readInternal lpn flag state intact
      · exact intact
  | write lpn flag =>
      dsimp only
      unfold write
      split
      · next asked =>
          split
          · next on => exact sepWrite_intact lpn asked on resting vacates intact
          · next off =>
              exact plainWrite_intact lpn asked (by simpa using off) resting
                vacates intact
      · exact intact
  | trim lpn => exact care.unmap _ lpn state intact
  | gc victims => exact own.elim
  | refresh => exact refreshEvent_intact resting vacates intact
  | format slpn nlp => exact own.elim

theorem performs_intact {ops earlier : List Op}
    (own : ∀ op ∈ earlier ++ ops, op.Own)
    (result : outcome cfg env earlier = .ok () state)
    (vacates : ∀ before op after, ops = before ++ op :: after →
      ∀ reached, outcome cfg env (earlier ++ before) = .ok () reached →
      ∀ victims called, Enters cfg env reached op victims called →
        Vacates cfg called victims) (intact : Intact lost state) :
    KeepsSlots lost (ops.forM (perform cfg env)) state := by
  induction ops generalizing earlier state with
  | nil => exact intact
  | cons op rest induction =>
      have resting : Resting cfg env state := collectable_meets
        (fun op member => own op (List.mem_append_left _ member)) result
      refine KeepsSlots.bind (perform_intact op (own op (by simp)) resting ?_
        intact) ?_
      · refine vacates [] op rest rfl state ?_
        rw [List.append_nil]
        exact result
      · intro _ next performed intact'
        refine induction (by simpa using own)
          (outcome_extend result performed) ?_ intact'
        intro before other after split reached later
        refine vacates (op :: before) other after (by simp [split]) reached ?_
        rw [← later, List.append_assoc]
        rfl

end Operations

section Runs

variable {cfg : Config} {env : Environment} {ops : List Op}

/-- In a run whose collections vacate all slots no slot loses its block. -/
theorem outcome_intact (own : ∀ op ∈ ops, op.Own)
    (vacates : ∀ earlier op later, ops = earlier ++ op :: later →
      ∀ state, outcome cfg env earlier = .ok () state →
      ∀ victims called, Enters cfg env state op victims called →
        Vacates cfg called victims) :
    KeepsSlots [] (life cfg env ops) (blankState cfg) := by
  have constructs : Keeps (Intact []) (Intact []) (construct cfg) :=
    Keeps.forM fun idx => Keeps.forM fun pool =>
      (getBlockFor_intact pool idx).bind fun _ =>
        Keeps.modify fun _ intact => intact
  refine KeepsSlots.bind (constructs _ rfl) ?_
  intro _ built builds intact
  have start : outcome cfg env [] = .ok () built := by
    unfold outcome life
    rw [EStateM.run_bind, builds]
    rfl
  exact performs_intact own start vacates intact

/-- In such a run every slot names a block in use, and no slot stops it. -/
theorem slots_in_use (own : ∀ op ∈ ops, op.Own)
    (vacates : ∀ earlier op later, ops = earlier ++ op :: later →
      ∀ state, outcome cfg env earlier = .ok () state →
      ∀ victims called, Enters cfg env state op victims called →
        Vacates cfg called victims) :
    Meets (life cfg env ops) (blankState cfg)
      (fun _ final => ∀ pool ∈ activePools cfg,
        ∀ blockIndex ∈ (final.active pool).blocks, final.InUse blockIndex)
      fun raised _ => ∀ pool ∈ activePools cfg, raised ≠ pool.corrupted :=
  (Meets.and (slots_meet cfg env ops) (outcome_intact own vacates)).mono
    (fun _ _ ⟨kept, intact⟩ => kept.inUse intact)
    fun _ _ ⟨spared, intact⟩ => spared intact

end Runs

/-- Without separation, in every run whose collections are chosen so that the
cursor comes to each slot that names a victim, every entry of `lastFreeBlock` is
a block in use. -/
theorem plain_slots_in_use (cfg : Config) (env : Environment)
    (ops : List Op) (plain : cfg.hotColdSeparation = false)
    (own : ∀ op ∈ ops, op.Own)
    (vacates : ∀ earlier op later, ops = earlier ++ op :: later →
      ∀ state, outcome cfg env earlier = .ok () state →
      ∀ victims called, Enters cfg env state op victims called →
        Vacates cfg called victims) :
    (∀ final, outcome cfg env ops = .ok () final →
      ∀ blockIndex ∈ (final.active .plain).blocks, final.InUse blockIndex) ∧
    ∀ stopped, outcome cfg env ops ≠ .error .corruptedFreeBlock stopped := by
  have used : .plain ∈ activePools cfg := by simp [activePools, plain]
  have meets := slots_in_use own vacates
  refine ⟨?_, ?_⟩
  · intro final result
    exact meets.of_ok result .plain used
  · intro stopped failed
    exact meets.of_error failed .plain used rfl

theorem split_first_write {earlier later : List Op} {op : Op}
    (split : [.initializeFTL, writePage 0] = earlier ++ op :: later) :
    earlier = [] ∧ op = .initializeFTL ∨
      earlier = [.initializeFTL] ∧ op = writePage 0 := by
  cases earlier with
  | nil =>
      simp only [List.nil_append, List.cons.injEq] at split
      exact .inl ⟨rfl, split.1.symm⟩
  | cons first rest =>
      cases rest with
      | nil =>
          simp only [List.cons_append, List.nil_append, List.cons.injEq] at split
          exact .inr ⟨by rw [split.1], split.2.1.symm⟩
      | cons second rest => simp at split

def eagerEnvironment : Environment :=
  { sampleEnvironment with belowGCThreshold := fun _ _ => true }

def oneSlotConfig : Config :=
  { onePageConfig with
    pageCountToMaxPerf := 1
    ioUnitInPage_pos := Nat.one_pos
    pageCountToMaxPerf_pos := Nat.one_pos
    hotBlocksLimit_le := Nat.le_of_ble_eq_true rfl }

/-- The first write fills the active block 0, and the copy of its page gives the
slot another block. -/
theorem plain_slots_in_use_first_write :
    ∃ final, outcome oneSlotConfig eagerEnvironment
        [.initializeFTL, writePage 0] = .ok () final ∧
      (final.active .plain).blocks = [1] ∧ final.InUse 1 := by
  have evaluated : firstCollection oneSlotConfig eagerEnvironment
      (fun victims called => decide (victims = [0] ∧
        (called.active .plain).blocks = [0] ∧
        Vacates oneSlotConfig called victims)) = true := by
    decide +kernel
  have vacates : ∀ earlier op later,
      [.initializeFTL, writePage 0] = earlier ++ op :: later →
      ∀ state, outcome oneSlotConfig eagerEnvironment earlier = .ok () state →
      ∀ victims called, Enters oneSlotConfig eagerEnvironment state op victims
        called → Vacates oneSlotConfig called victims := by
    intro earlier op later split state result victims called enters
    rcases split_first_write split with ⟨_, same⟩ | ⟨before, same⟩
    · subst same
      cases enters
    · subst before same
      cases enters with
      | write asked _ places selects =>
          cases selects with
          | plain _ below selects =>
              unfold firstCollection at evaluated
              rw [result] at evaluated
              dsimp only at evaluated
              rw [places] at evaluated
              dsimp only at evaluated
              rw [selects] at evaluated
              exact (of_decide_eq_true evaluated).2.2
      | sepWrite asked on => cases on
      | sepWriteHot asked on => cases on
  obtain ⟨slots, _⟩ := plain_slots_in_use oneSlotConfig eagerEnvironment
    [.initializeFTL, writePage 0] rfl (by simp [writePage, Op.Own]) vacates
  have returned : returns (outcome oneSlotConfig eagerEnvironment
      [.initializeFTL, writePage 0])
      (fun final => (final.active .plain).blocks = [1]) = true := by
    decide +kernel
  obtain ⟨final, result, test⟩ := returns_iff.mp returned
  have named := of_decide_eq_true test
  exact ⟨final, result, named,
    slots final result 1 (by rw [named]; exact .head _)⟩

def shortConfig : Config :=
  { sampleConfig with
    totalPhysicalBlocks := 128
    ioUnitInPage_pos := Nat.one_pos
    pageCountToMaxPerf_pos := Nat.one_pos
    hotBlocksLimit_le := Nat.le_of_ble_eq_true rfl
    pagesInBlock := 8 }

def drainedOps : List Op :=
  .initializeFTL :: (List.range 8).map writePage ++
    (List.range 8).map Op.trim ++ [.refresh]

/-- The full active block 1 holds no valid page, so its collection copies
nothing and does not move the cursor: the slot keeps naming the erased block. -/
theorem plain_slot_lost :
    returns (outcome shortConfig eagerEnvironment drainedOps)
        (fun final => (final.active .plain).blocks = [1] ∧
          final.blocks.lookup 1 = none) = true ∧
      (match outcome shortConfig eagerEnvironment
          (drainedOps ++ [writePage 0]) with
        | .ok _ _ => false
        | .error raised _ => raised = .corruptedFreeBlock) = true := by
  decide +kernel

/-- With separation, in every run whose collections are chosen so that the
cursor comes to each slot that names a victim or the erase of the victim repairs
it, every entry of the three arrays is a block in use. -/
theorem separated_slots_in_use (cfg : Config) (env : Environment)
    (ops : List Op) (separated : cfg.hotColdSeparation = true)
    (own : ∀ op ∈ ops, op.Own)
    (vacates : ∀ earlier op later, ops = earlier ++ op :: later →
      ∀ state, outcome cfg env earlier = .ok () state →
      ∀ victims called, Enters cfg env state op victims called →
        Vacates cfg called victims) :
    (∀ final, outcome cfg env ops = .ok () final →
      ∀ pool ∈ [ActivePool.hot, .cool, .cold],
        ∀ blockIndex ∈ (final.active pool).blocks, final.InUse blockIndex) ∧
    ∀ raised stopped, outcome cfg env ops = .error raised stopped →
      raised ≠ .corruptedHotFreeBlock ∧ raised ≠ .corruptedCoolFreeBlock ∧
        raised ≠ .corruptedColdFreeBlock := by
  have arrays : activePools cfg = [.hot, .cool, .cold] := by
    simp [activePools, separated]
  have meets := slots_in_use own vacates
  rw [arrays] at meets
  refine ⟨?_, ?_⟩
  · intro final result
    exact meets.of_ok result
  · intro raised stopped failed
    have intact := meets.of_error failed
    exact ⟨intact .hot (by simp), intact .cool (by simp),
      intact .cold (by simp)⟩

/-- Tests the victims and the state of the cold collection after a first
write, which no hot collection follows. -/
def firstColdCollection (cfg : Config) (env : Environment)
    (test : List Nat → State → Bool) : Bool :=
  match outcome cfg env [.initializeFTL] with
  | .error _ _ => false
  | .ok _ state =>
      match (sepPlacePage cfg env 0 IOFlag.all).run state with
      | .error _ _ => false
      | .ok _ placed =>
          (match (selectColdVictimBlock cfg env).run placed with
            | .error _ _ => false
            | .ok victims called => test victims called) &&
          match (collectCold cfg env).run placed with
          | .error _ _ => false
          | .ok _ collected =>
              !env.belowGCThreshold .hot (collected.free .hot).count

/-- The first write fills the cool block 7, the cursor does not come back to its
slot, and its erase gives the slot another block. -/
theorem separated_slots_in_use_first_write :
    ∃ final, outcome repairConfig repairEnvironment
        [.initializeFTL, writePage 0] = .ok () final ∧
      (final.active .cool).blocks = [6, 11] ∧ final.InUse 11 := by
  have evaluated : firstColdCollection repairConfig repairEnvironment
      (fun victims called => decide (victims = [7] ∧
        (called.active .cool).blocks = [6, 7] ∧
        Vacates repairConfig called victims)) = true := by
    decide +kernel
  have vacates : ∀ earlier op later,
      [.initializeFTL, writePage 0] = earlier ++ op :: later →
      ∀ state, outcome repairConfig repairEnvironment earlier =
        .ok () state →
      ∀ victims called, Enters repairConfig repairEnvironment state op victims
        called → Vacates repairConfig called victims := by
    intro earlier op later split state result victims called enters
    rcases split_first_write split with ⟨_, same⟩ | ⟨before, same⟩
    · subst same
      cases enters
    · subst before same
      unfold firstColdCollection at evaluated
      rw [result] at evaluated
      cases enters with
      | write asked off => cases off
      | sepWrite asked _ places selects =>
          cases selects with
          | cold _ below selects =>
              dsimp only at evaluated
              rw [places] at evaluated
              dsimp only at evaluated
              rw [selects] at evaluated
              obtain ⟨chosen, _⟩ := (Bool.and_eq_true _ _).mp evaluated
              exact (of_decide_eq_true chosen).2.2
      | sepWriteHot asked _ places collects selects =>
          cases selects with
          | hot _ below =>
              dsimp only at evaluated
              rw [places] at evaluated
              dsimp only at evaluated
              rw [collects] at evaluated
              obtain ⟨_, above⟩ := (Bool.and_eq_true _ _).mp evaluated
              dsimp only at above
              rw [below] at above
              cases above
  obtain ⟨slots, _⟩ := separated_slots_in_use repairConfig repairEnvironment
    [.initializeFTL, writePage 0] rfl (by simp [writePage, Op.Own]) vacates
  have returned : returns (outcome repairConfig repairEnvironment
      [.initializeFTL, writePage 0])
      (fun final => (final.active .cool).blocks = [6, 11]) = true := by
    decide +kernel
  obtain ⟨final, result, test⟩ := returns_iff.mp returned
  have named := of_decide_eq_true test
  exact ⟨final, result, named,
    slots final result .cool (by simp) 11 (by rw [named]; simp)⟩

def hotEnvironment : Environment :=
  { sampleEnvironment with
    belowGCThreshold := fun pool free => pool = .hot && free < 2 }

/-- The only hot block, empty and active, is the oldest of its window: it is
collected, and the slot keeps naming it. -/
theorem hot_slot_lost :
    returns (outcome separatedConfig hotEnvironment
        [.initializeFTL, writePage 0])
        (fun final => (final.active .hot).blocks = [0] ∧
          final.blocks.lookup 0 = none) = true ∧
      (match outcome separatedConfig hotEnvironment
          [.initializeFTL, writePage 0, writePage 0] with
        | .ok _ _ => false
        | .error raised _ => raised = .corruptedHotFreeBlock) = true := by
  decide +kernel

end SimpleSSD.FTL
