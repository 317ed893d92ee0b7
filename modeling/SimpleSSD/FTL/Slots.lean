import SimpleSSD.FTL.Windows

namespace SimpleSSD.FTL

open Machine

/-! The active slots over whole runs: as long as no erase takes a block away from
under a slot, every slot names a block in use. -/

variable {cfg : Config} {env : Environment} {allow : Allowance}
  {phase : Phase} {state updated : State}

structure SlotsKept (cfg : Config) (state : State) : Prop where
  admits : ∀ pool ∈ activePools cfg, ∀ blockIndex ∈ (state.active pool).blocks,
    pool.Admits cfg blockIndex
  inUse : state.slotsLost = [] → ∀ pool ∈ activePools cfg,
    ∀ blockIndex ∈ (state.active pool).blocks, state.InUse blockIndex

theorem SlotsKept.of_agree (kept : SlotsKept cfg state)
    (slots : ∀ pool, (updated.active pool).blocks =
      (state.active pool).blocks)
    (lost : updated.slotsLost = state.slotsLost)
    (inUse : ∀ blockIndex, state.InUse blockIndex →
      updated.InUse blockIndex) : SlotsKept cfg updated where
  admits := by
    intro pool used blockIndex member
    rw [slots] at member
    exact kept.admits pool used blockIndex member
  inUse := by
    intro settled pool used blockIndex member
    rw [slots] at member
    rw [lost] at settled
    exact inUse _ (kept.inUse settled pool used blockIndex member)

theorem SlotsKept.seat (kept : SlotsKept cfg state) (pool : ActivePool)
    (index : Nat) {blockIndex : Nat} (admits : pool.Admits cfg blockIndex)
    (inUse : state.InUse blockIndex)
    (slots : updated.active = Function.update state.active pool
      { state.active pool with
        blocks := (state.active pool).blocks.set index blockIndex })
    (blocks_eq : updated.blocks = state.blocks)
    (lost : updated.slotsLost = state.slotsLost) :
    SlotsKept cfg updated := by
  have used : updated.InUse = state.InUse := State.inUse_congr blocks_eq
  have members : ∀ other named, named ∈ (updated.active other).blocks →
      (other = pool ∧ named = blockIndex) ∨
        named ∈ (state.active other).blocks := by
    intro other named member
    rw [slots] at member
    by_cases same : other = pool
    · subst same
      rw [Function.update_self] at member
      rcases List.mem_or_eq_of_mem_set member with old | new
      · exact .inr old
      · exact .inl ⟨rfl, new⟩
    · rw [Function.update_of_ne same] at member
      exact .inr member
  refine ⟨?_, ?_⟩
  · intro other listed named member
    rcases members other named member with ⟨rfl, rfl⟩ | old
    · exact admits
    · exact kept.admits other listed named old
  · intro settled other listed named member
    rw [lost] at settled
    rw [used]
    rcases members other named member with ⟨rfl, rfl⟩ | old
    · exact inUse
    · exact kept.inUse settled other listed named old

/-- An erase that leaves no trace in the history has hit no slot. -/
theorem SlotsKept.drop (kept : SlotsKept cfg state) {victim : Nat}
    (active_eq : updated.active = state.active)
    (erased : updated.blocks = state.blocks.erase victim)
    (lost : updated.slotsLost = lostSlots cfg state victim) :
    SlotsKept cfg updated where
  admits := by
    rw [active_eq]
    exact kept.admits
  inUse := by
    intro settled pool used blockIndex member
    rw [lost] at settled
    unfold lostSlots at settled
    rw [active_eq] at member
    split at settled
    · cases settled
    · next spared =>
        refine (State.inUse_of_erase erased blockIndex).mpr ⟨?_,
          kept.inUse settled pool used blockIndex member⟩
        intro same
        subst same
        exact spared (List.any_eq_true.mpr ⟨pool, used, by simpa using member⟩)

theorem SlotsKept.step {before after : Phase × State}
    (step : Step cfg env allow before after)
    (kept : SlotsKept cfg before.2) : SlotsKept cfg after.2 := by
  have set : ∀ {state : State} {blockIndex other : Nat} {block : Block},
      state.InUse other → (state.setBlock blockIndex block).InUse other :=
    fun used => State.inUse_setBlock.mpr (.inr used)
  cases step with
  | quiet same =>
      refine kept.of_agree same.slots_eq same.slotsLost_eq ?_
      intro blockIndex used
      rw [State.inUse_congr same.blocks_eq]
      exact used
  | take idle pool block member absent counted =>
      exact kept.of_agree (fun _ => rfl) rfl fun _ used => set used
  | touch refreshedPageCount found =>
      exact kept.of_agree (fun _ => rfl) rfl fun _ used => set used
  | demote fresh window found =>
      exact kept.of_agree (fun _ => rfl) rfl fun _ used => set used
  | tag blockType fresh fits region found =>
      exact kept.of_agree (fun _ => rfl) rfl fun _ used => set used
  | seat pool index reclaimMore fresh admits inUse =>
      exact kept.seat pool index admits inUse rfl rfl rfl
  | repair pool index fresh admits inUse erasing named =>
      exact kept.seat pool index admits inUse rfl rfl rfl
  | invalidate mapped inside located found valid stores =>
      exact kept.of_agree (fun _ => rfl) rfl fun _ used => set used
  | program aimed found inside waits mapped written scheduled =>
      exact kept.of_agree (fun _ => rfl) rfl fun _ used => set used
  | programHot allowed aimed found inside waits mapped written =>
      exact kept.of_agree (fun _ => rfl) rfl fun _ used => set used
  | wipe allowed idle next found nothing =>
      exact kept.of_agree (fun _ => rfl) rfl fun _ used => set used
  | release pool erasing found empty takes placed => exact kept.drop rfl rfl rfl
  | retire erasing found empty => exact kept.drop rfl rfl rfl
  | _ => exact kept.of_agree (fun _ => rfl) rfl fun _ used => used

theorem slots_invariant (cfg : Config) (env : Environment)
    (allow : Allowance) :
    (machine cfg env allow).Invariant fun config => SlotsKept cfg config.2 :=
  fun _ _ step _ kept => kept.step step

theorem Constructed.slots (constructed : Constructed cfg state) :
    SlotsKept cfg state := by
  have placed : ∀ pool ∈ activePools cfg,
      ∀ blockIndex ∈ (state.active pool).blocks,
        pool.Admits cfg blockIndex ∧ state.InUse blockIndex := by
    intro pool used blockIndex member
    obtain ⟨index, inside, rfl⟩ := List.mem_iff_getElem.mp member
    have bound := inside
    rw [constructed.pools.slots] at bound
    obtain ⟨named, slot, admits, inUse⟩ :=
      constructed.placed index bound pool used
    rw [List.getElem?_eq_getElem inside] at slot
    cases slot
    exact ⟨admits, inUse⟩
  exact ⟨fun pool used blockIndex member => (placed pool used _ member).1,
    fun _ pool used blockIndex member => (placed pool used _ member).2⟩

/-- A slot that names a missing block is the only cause of this panic. -/
theorem SlotsKept.uncorrupted (kept : SlotsKept cfg state)
    (settled : state.slotsLost = []) {pool : ActivePool}
    (used : pool ∈ activePools cfg) {raised : Panic}
    (cause : Cause cfg env allow phase state raised) :
    raised ≠ pool.corrupted := by
  cases cause with
  | corrupted other listed slot absent =>
      intro same
      have equal : other = pool := by
        cases other <;> cases pool <;> first | rfl | cases same
      subst equal
      exact State.not_inUse.mpr absent
        (kept.inUse settled other used _ (List.mem_of_getElem? slot))
  | unscheduled inside failed =>
      rcases RefreshQueue.setRefreshPeriod_error failed with rfl | rfl <;>
        cases pool <;> decide
  | unmapped mapped inside nowhere pending text =>
      rcases text with rfl | rfl <;> cases pool <;> decide
  | victimMissing member absent text =>
      rcases text with rfl | rfl | rfl | rfl <;> cases pool <;> decide
  | refused allowed member =>
      intro same
      subst same
      revert member
      cases pool <;> decide
  | _ => cases pool <;> decide

theorem slots_meet (cfg : Config) (env : Environment) (ops : List Op) :
    Program.Meets (life cfg env ops) (blankState cfg)
      (fun _ final => SlotsKept cfg final)
      (fun raised stopped => stopped.slotsLost = [] →
        ∀ pool ∈ activePools cfg, raised ≠ pool.corrupted) := by
  have meets := constructed_meets .all ops trivial
    (fun op _ => op.allowed_all) (machine_trivial cfg env .none) trivial
    (slots_invariant cfg env .all) fun _ constructed _ => constructed.slots
  refine meets.mono ?_ ?_
  · intro _ final ⟨_, _, _, kept⟩
    exact kept
  · intro raised stopped failed settled pool used
    rcases failed with ⟨early, _⟩ | ⟨phase, state, _, _, kept, history, cause⟩
    · intro same
      subst same
      revert early
      cases pool <;> decide
    · rw [history.slotsLost_eq] at settled
      exact kept.uncorrupted settled used cause

end SimpleSSD.FTL
