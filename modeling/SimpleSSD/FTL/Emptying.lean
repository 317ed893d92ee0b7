import SimpleSSD.FTL.Occasion
import SimpleSSD.FTL.Slots

namespace SimpleSSD.FTL

open Machine Program

/-! Victims over whole runs: no page is copied into a block that a collection is
about to erase. -/

variable {cfg : Config} {env : Environment} {allow : Allowance}
  {phase : Phase} {state updated : State}

/-- A block that receives no page while the blocks of a collection do. -/
def Shielded (cfg : Config) (state : State) (blockIndex : Nat) : Prop :=
  (∃ block, state.blocks.lookup blockIndex = some block ∧ block.Full cfg) ∨
    (cfg.hotColdSeparation = true ∧ blockIndex < cfg.hotBlocksLimit) ∨
    blockIndex ∉ (state.active (gcPool cfg)).blocks

structure Chosen (cfg : Config) (phase : Phase) (state : State) : Prop where
  shielded : ∀ victim ∈ phase.victims, Shielded cfg state victim
  aside : ∀ target, phase.target = some target →
    cfg.pagesInBlock = 0 ∨ target ∉ phase.victims
  emptied : ∀ victim ∈ phase.victims, victim ∈ phase.clean →
    ∀ page idx lpn, ¬ state.Stores victim page idx lpn

structure Collectable (cfg : Config) (phase : Phase) (state : State) :
    Prop where
  windows : Windows cfg phase state
  slots : SlotsKept cfg state
  chosen : Chosen cfg phase state

theorem Shielded.of_versions {blockIndex : Nat}
    (shielded : Shielded cfg state blockIndex)
    (version : ∀ block, state.blocks.lookup blockIndex = some block →
      ∃ later, updated.blocks.lookup blockIndex = some later ∧
        (block.Full cfg → later.Full cfg))
    (slots : ∀ pool, blockIndex ∈ (updated.active pool).blocks →
      blockIndex ∈ (state.active pool).blocks) :
    Shielded cfg updated blockIndex := by
  rcases shielded with ⟨block, found, full⟩ | hot | unseated
  · obtain ⟨later, found', kept⟩ := version block found
    exact .inl ⟨later, found', kept full⟩
  · exact .inr (.inl hot)
  · exact .inr (.inr fun member => unseated (slots _ member))

theorem Shielded.not_aimed {blockIndex : Nat} {block : Block}
    (shielded : Shielded cfg state blockIndex) (pools : Pools cfg state)
    (slots : SlotsKept cfg state)
    (member : blockIndex ∈ (state.active (gcPool cfg)).blocks)
    (found : state.blocks.lookup blockIndex = some block)
    (room : ∀ unit < cfg.ioUnitInPage,
      block.nextWritePage unit < cfg.pagesInBlock) : False := by
  have used : gcPool cfg ∈ activePools cfg := by
    unfold gcPool activePools
    split <;> simp
  rcases shielded with ⟨other, lookup, full⟩ | ⟨separated, hot⟩ | unseated
  · rw [found] at lookup
    cases lookup
    have first := room 0 cfg.ioUnitInPage_pos
    rcases block.getNextWritePageIndex_eq with zero | ⟨unit, bound, page⟩
    · unfold Block.Full at full
      omega
    · have below := room unit
        ((pools.wellFormed _ _ found).ioUnitInPage_eq ▸ bound)
      unfold Block.Full at full
      omega
  · have admits := slots.admits _ used _ member
    unfold gcPool at admits
    rw [if_pos separated] at admits
    exact absurd hot (Nat.not_lt.mpr admits.2)
  · exact unseated member

/-- Write pages of a block in use, as far as a selection looks at them. -/
def KeepsFull (cfg : Config) (before after : State) (blockIndex : Nat) :
    Prop :=
  ∀ block, before.blocks.lookup blockIndex = some block →
    ∃ later, after.blocks.lookup blockIndex = some later ∧
      (block.Full cfg → later.Full cfg)

theorem KeepsFull.of_blocks_eq (same : updated.blocks = state.blocks)
    (blockIndex : Nat) : KeepsFull cfg state updated blockIndex := by
  intro block found
  exact ⟨block, by rw [same]; exact found, id⟩

theorem KeepsFull.insert {other blockIndex : Nat} {version : Block}
    (replaced : updated.blocks = state.blocks.insert other version)
    (kept : blockIndex = other → ∀ block,
      state.blocks.lookup blockIndex = some block → block.Full cfg →
        version.Full cfg) : KeepsFull cfg state updated blockIndex := by
  intro block found
  rw [replaced]
  by_cases same : blockIndex = other
  · subst same
    exact ⟨version, AList.lookup_insert _, kept rfl block found⟩
  · exact ⟨block, (AList.lookup_insert_ne same).trans found, id⟩

theorem KeepsFull.version {other blockIndex : Nat} {block version : Block}
    (found : state.blocks.lookup other = some block)
    (replaced : updated.blocks = state.blocks.insert other version)
    (kept : block.Full cfg → version.Full cfg) :
    KeepsFull cfg state updated blockIndex := by
  refine .insert replaced ?_
  intro same current lookup
  rw [same, found] at lookup
  cases lookup
  exact kept

theorem KeepsFull.erase {other blockIndex : Nat}
    (removed : updated.blocks = state.blocks.erase other)
    (different : blockIndex ≠ other) :
    KeepsFull cfg state updated blockIndex := by
  intro block found
  exact ⟨block, by rw [removed, AList.lookup_erase_ne different]; exact found,
    id⟩

theorem Chosen.keeps {phase' : Phase} (chosen : Chosen cfg phase state)
    (victims : ∀ victim ∈ phase'.victims, victim ∈ phase.victims)
    (target : phase'.target = phase.target ∨ phase'.target = none)
    (clean : phase'.clean = phase.clean ∨ phase'.clean = ∅)
    (kept : ∀ victim ∈ phase'.victims, KeepsFull cfg state updated victim)
    (slots : ∀ victim ∈ phase'.victims, ∀ pool,
      victim ∈ (updated.active pool).blocks →
        victim ∈ (state.active pool).blocks)
    (stores : ∀ victim ∈ phase'.victims, ∀ page idx lpn,
      updated.Stores victim page idx lpn →
        state.Stores victim page idx lpn) : Chosen cfg phase' updated where
  shielded := fun victim member =>
    (chosen.shielded victim (victims victim member)).of_versions
      (kept victim member) (slots victim member)
  aside := by
    intro aimed equality
    rcases target with same | none
    · refine (chosen.aside aimed (same ▸ equality)).imp_right ?_
      exact fun apart member => apart (victims aimed member)
    · rw [none] at equality
      cases equality
  emptied := by
    intro victim member visited page idx lpn stored
    rcases clean with same | empty
    · exact chosen.emptied victim (victims victim member) (same ▸ visited)
        page idx lpn (stores victim member page idx lpn stored)
    · rw [empty] at visited
      exact visited.elim

theorem Chosen.start {phase' : Phase} (settled : phase.Settled)
    (target : phase'.target = phase.target)
    (clean : phase'.clean = phase.clean)
    (shielded : ∀ victim ∈ phase'.victims, Shielded cfg updated victim) :
    Chosen cfg phase' updated where
  shielded := shielded
  aside := by
    intro aimed equality
    rw [target, settled.target] at equality
    cases equality
  emptied := by
    intro victim _ visited
    rw [clean, settled.clean] at visited
    exact visited.elim

theorem Chosen.step {before after : Phase × State}
    (step : Step cfg env allow before after) (pools : Pools cfg before.2)
    (own : ¬ allow.foreign) (held : Collectable cfg before.1 before.2) :
    Chosen cfg after.1 after.2 := by
  obtain ⟨windows, seats, chosen⟩ := held
  have pools' : Pools cfg after.2 := pools.step step
  have stores : ∀ victim ∈ before.1.victims, ∀ page idx lpn,
      after.2.Stores victim page idx lpn →
        before.2.Stores victim page idx lpn := by
    intro victim member page idx lpn stored
    rcases step.stores pools stored with old | ⟨aimed, _⟩
    · exact old
    · have inside := (pools'.stores_inside stored).1.2
      rcases chosen.aside victim aimed with zero | apart
      · omega
      · exact absurd member apart
  have same : ∀ {victims : List Nat} {state : State}, ∀ victim ∈ victims,
      ∀ pool, victim ∈ (state.active pool).blocks →
        victim ∈ (state.active pool).blocks := fun _ _ _ member => member
  -- the block that takes a seat was free a moment ago
  have unseated : ∀ {pool : ActivePool} {index blockIndex : Nat}
      {stage : Stage} {slots : ActivePool → ActiveSlots},
      before.1.fresh = some (blockIndex, stage) →
      ∀ victim ∈ before.1.victims, ∀ other,
        victim ∈ (Function.update slots pool { slots pool with
          blocks := (slots pool).blocks.set index blockIndex } other).blocks →
        victim ∈ (slots other).blocks := by
    intro pool index blockIndex stage slots fresh victim member other seated
    have apart := (windows.fresh_inUse _ _ fresh).2
    by_cases equality : other = pool
    · subst equality
      rw [Function.update_self] at seated
      rcases List.mem_or_eq_of_mem_set seated with old | new
      · exact old
      · exact absurd (.inl (new ▸ member)) apart
    · rwa [Function.update_of_ne equality] at seated
  have programmed : ∀ {state : State} {target page lpn idx victim : Nat}
      {block version : Block}, before.1.target = some target →
      before.2.blocks.lookup target = some block →
      block.write page lpn idx = .ok version →
      state.blocks = before.2.blocks.insert target version →
      victim ∈ before.1.victims → KeepsFull cfg before.2 state victim := by
    intro state target page lpn idx victim block version aimed found written
      replaced member
    refine .insert replaced ?_
    intro equality
    rcases chosen.aside target aimed with zero | apart
    · have inside := (Block.write_ok written).2.1
      rw [(pools.wellFormed _ _ found).pageCount_eq] at inside
      omega
    · exact absurd (equality ▸ member) apart
  cases step with
  | quiet quiet =>
      refine chosen.keeps (fun _ member => member) (.inl rfl) (.inl rfl)
        (fun victim _ => .of_blocks_eq quiet.blocks_eq victim) ?_ stores
      intro victim _ pool member
      rwa [quiet.slots_eq] at member
  | @take phase state idle pool block listed absent counted =>
      refine chosen.keeps (fun _ member => member) (.inl rfl) (.inl rfl) ?_
        same stores
      intro victim member
      refine .insert rfl ?_
      intro equality found
      rw [equality, absent]
      intro impossible
      cases impossible
  | touch refreshedPageCount found =>
      exact chosen.keeps (fun _ member => member) (.inl rfl) (.inl rfl)
        (fun _ _ => .version found rfl id) same stores
  | demote fresh window found =>
      exact chosen.keeps (fun _ member => member) (.inl rfl) (.inl rfl)
        (fun _ _ => .version found rfl id) same stores
  | tag blockType fresh fits region found =>
      exact chosen.keeps (fun _ member => member) (.inl rfl) (.inl rfl)
        (fun _ _ => .version found rfl id) same stores
  | invalidate mapped inside located found valid stored =>
      exact chosen.keeps (fun _ member => member) (.inl rfl) (.inl rfl)
        (fun _ _ => .version found rfl id) same stores
  | seat pool index reclaimMore fresh admits inUse =>
      refine chosen.keeps (fun _ member => member) (.inl rfl) (.inl rfl)
        (fun victim _ => .of_blocks_eq rfl victim) ?_ stores
      exact unseated fresh
  | repair pool index fresh admits inUse erasing named =>
      refine chosen.keeps (fun _ member => member) (.inl rfl) (.inl rfl)
        (fun victim _ => .of_blocks_eq rfl victim) ?_ stores
      exact unseated fresh
  | aim pool listed found room collecting =>
      refine ⟨chosen.shielded, ?_, chosen.emptied⟩
      intro target equality
      cases equality
      refine room.imp_right ?_
      intro free member
      have pool_eq := collecting (List.ne_nil_of_mem member)
      exact (chosen.shielded _ member).not_aimed pools seats
        (pool_eq ▸ listed) found free
  | settle =>
      exact chosen.keeps (fun _ member => member) (.inr rfl) (.inl rfl)
        (fun victim _ => .of_blocks_eq rfl victim) same stores
  | program aimed found inside waits mapped written scheduled =>
      exact chosen.keeps (fun _ member => member) (.inl rfl) (.inl rfl)
        (fun victim member => programmed aimed found written rfl member) same
        stores
  | programHot allowed aimed found inside waits mapped written =>
      exact chosen.keeps (fun _ member => member) (.inl rfl) (.inl rfl)
        (fun victim member => programmed aimed found written rfl member) same
        stores
  | select allowed settled idle victims window nodup full windowed cold =>
      exact Chosen.start settled rfl rfl
        fun victim member => .inl (full victim member)
  | selectHot allowed settled idle amount separated =>
      exact Chosen.start settled rfl rfl fun victim member =>
        .inr (.inl (pools.hotRegion victim (List.mem_of_mem_take member)))
  | @collect state _ settled idle victims allowed =>
      refine Chosen.start settled rfl rfl ?_
      intro victim member
      by_cases named : victim ∈ (state.active (gcPool cfg)).blocks
      · exact .inl ((allowed.resolve_left own).closed victim member named)
      · exact .inr (.inr named)
  | cleaned victim nothing =>
      refine ⟨chosen.shielded, chosen.aside, ?_⟩
      intro other member visited
      rcases visited with here | earlier
      · rw [here]
        exact nothing
      · exact chosen.emptied other member earlier
  | @wipe _ rest block phase _ allowed idle next found nothing =>
      have nodup := windows.victims_nodup
      dsimp only at nodup
      rw [next] at nodup
      have listed : ∀ other ∈ rest, other ∈ phase.victims := by
        intro other member
        rw [next]
        exact .tail _ member
      refine chosen.keeps listed (.inl rfl) (.inl rfl) ?_ same
        fun other member => stores other (listed other member)
      intro other member
      refine .insert rfl ?_
      intro equality
      exact absurd (equality ▸ member) (List.nodup_cons.mp nodup).1
  | release pool erasing found empty takes placed =>
      refine chosen.keeps (fun _ member => member) (.inl rfl) (.inl rfl) ?_
        same stores
      intro other member
      refine .erase rfl ?_
      intro equality
      exact (windows.erasing_inUse _ erasing).2 (equality ▸ member)
  | retire erasing found empty =>
      refine chosen.keeps (fun _ member => member) (.inl rfl) (.inl rfl) ?_
        same stores
      intro other member
      refine .erase rfl ?_
      intro equality
      exact (windows.erasing_inUse _ erasing).2 (equality ▸ member)
  | finish erased =>
      exact chosen.keeps (fun _ member => member) (.inl rfl) (.inr rfl)
        (fun victim _ => .of_blocks_eq rfl victim) same stores
  | _ =>
      exact chosen.keeps (fun _ member => member) (.inl rfl) (.inl rfl)
        (fun victim _ => .of_blocks_eq rfl victim) same stores

theorem collectable_invariant (cfg : Config) (env : Environment)
    (allow : Allowance) (own : ¬ allow.foreign) :
    (machine cfg env allow).Invariant fun config =>
      Collectable cfg config.1 config.2 :=
  fun _ _ step sound held =>
    ⟨held.windows.step step sound.1 own, held.slots.step step,
      Chosen.step step sound.1 own held⟩

theorem Constructed.collectable (constructed : Constructed cfg state)
    (windows : Windows cfg (.rest ∅) state) :
    Collectable cfg (.rest ∅) state :=
  ⟨windows, constructed.slots, Chosen.start (Phase.rest_settled ∅) rfl rfl
    fun _ member => by cases member⟩

theorem collectable_meets {ops : List Op} (own : ∀ op ∈ ops, op.Own)
    (result : outcome cfg env ops = .ok () state) :
    ∃ mapped, (machine cfg env .own).sound (.rest mapped, state) ∧
      Collectable cfg (.rest mapped) state := by
  have meets := constructed_meets .own ops trivial
    (fun op member => (own op member).allowed)
    (windows_invariant cfg env .none id) (blankState_windows cfg)
    (collectable_invariant cfg env .own id)
    fun _ constructed windows => constructed.collectable windows
  obtain ⟨pools, mapped, maps, held⟩ := meets.of_ok result
  exact ⟨mapped, ⟨pools, maps⟩, held⟩

/-- No victim that is about to be erased holds a valid page. -/
theorem Collectable.unraised (held : Collectable cfg phase state)
    {raised : Panic}
    (cause : Cause cfg env allow phase state raised) :
    raised ≠ .validPagesInVictim := by
  cases cause with
  | victimValid member clean found valid =>
      refine absurd ?_ valid
      apply Block.getValidPageCount_of_unset
      intro page unit
      by_contra bit
      exact held.chosen.emptied _ member clean page unit _
        ⟨_, found, by simpa using bit, rfl⟩
  | corrupted pool => cases pool <;> decide
  | unscheduled inside failed =>
      rcases RefreshQueue.setRefreshPeriod_error failed with rfl | rfl <;>
        decide
  | unmapped mapped inside nowhere settled text =>
      rcases text with rfl | rfl <;> decide
  | victimMissing member absent text =>
      rcases text with rfl | rfl | rfl | rfl <;> decide
  | refused allowed member =>
      intro same
      subst same
      revert member
      decide
  | _ => decide

/-- Since a copy phase has begun, its victims wait and nothing was written into
them. -/
structure Spared (victims : List Nat) (history : List Programmed)
    (phase : Phase) (state : State) : Prop where
  waiting : victims ≠ [] → phase.victims = victims
  elsewhere : ∃ written, state.programmed = written ++ history ∧
    ∀ unit ∈ written, unit.blockIndex ∉ victims

theorem Spared.of_agree {phase' : Phase} {victims : List Nat}
    {history : List Programmed} (spared : Spared victims history phase state)
    (victims_eq : phase'.victims = phase.victims)
    (programmed_eq : updated.programmed = state.programmed) :
    Spared victims history phase' updated := by
  obtain ⟨waiting, elsewhere⟩ := spared
  rw [← victims_eq] at waiting
  rw [← programmed_eq] at elsewhere
  exact ⟨waiting, elsewhere⟩

theorem Spared.step {victims : List Nat} {history : List Programmed}
    {before after : Phase × State} (step : Step cfg env .none before after)
    (pools : Pools cfg before.2) (chosen : Chosen cfg before.1 before.2)
    (spared : Spared victims history before.1 before.2) :
    Spared victims history after.1 after.2 := by
  cases step with
  | quiet same => exact spared.of_agree rfl same.programmed_eq
  | program aimed found inside waits mapped written scheduled =>
      obtain ⟨waiting, earlier, programmed, elsewhere⟩ := spared
      refine ⟨waiting, _ :: earlier, congrArg (_ :: ·) programmed, ?_⟩
      intro unit member
      rcases List.mem_cons.mp member with here | before
      · subst here
        intro listed
        have same := waiting (List.ne_nil_of_mem listed)
        have below := (Block.write_ok written).2.1
        rw [(pools.wellFormed _ _ found).pageCount_eq] at below
        rcases chosen.aside _ aimed with zero | apart
        · omega
        · exact apart (same ▸ listed)
      · exact elsewhere unit before
  | programHot allowed => exact allowed.elim
  | select allowed => exact allowed.elim
  | selectHot allowed => exact allowed.elim
  | collect settled idle chosen allowed =>
      refine ⟨?_, spared.elsewhere⟩
      intro some
      have waiting := spared.waiting some
      dsimp only at waiting
      rw [idle] at waiting
      exact absurd waiting.symm some
  | wipe allowed => exact (allowed.elim id id).elim
  | setup allowed => exact allowed.elim
  | _ => exact spared.of_agree rfl rfl

theorem spared_invariant (cfg : Config) (env : Environment)
    (victims : List Nat) (history : List Programmed) :
    (machine cfg env .none).Invariant fun config =>
      Collectable cfg config.1 config.2 ∧
        Spared victims history config.1 config.2 :=
  (collectable_invariant cfg env .none id).and
    fun _ _ step sound held spared => spared.step step sound.1 held.chosen

/-- From a state that calls a collection: the copy phase writes into no victim
and leaves none of them a valid unit, no victim with a valid page is erased, and
what becomes of the victims. -/
structure Empties (select : FTLM (List Nat)) (copy collect : List Nat → FTLM Unit)
    (erased : List Nat → State → State → Prop) (state : State) : Prop where
  copied : ∀ victims selected copied,
    select.run state = .ok victims selected →
    (copy victims).run selected = .ok () copied →
      (∃ written, copied.programmed = written ++ selected.programmed ∧
        ∀ unit ∈ written, unit.blockIndex ∉ victims) ∧
      ∀ victim ∈ victims, copied.InUse victim ∧
        ∀ page idx lpn, ¬ copied.Stores victim page idx lpn
  unraised : ∀ victims selected raised stopped,
    select.run state = .ok victims selected →
    (collect victims).run selected = .error raised stopped →
      raised ≠ .validPagesInVictim
  erased : ∀ victims selected final,
    select.run state = .ok victims selected →
    (collect victims).run selected = .ok () final →
      erased victims selected final

theorem Empties.of_follows {mapped : Set (Nat × Nat)} {plan : CopyPlan}
    {invalid : Panic} {select : FTLM (List Nat)}
    {collect : List Nat → FTLM Unit} (counts : plan.Counts)
    (destination : plan.destination = gcPool cfg)
    (text : invalid = .invalidBlock ∨ invalid = .invalidBlockInGC)
    (sound : (machine cfg env .own).sound (.rest mapped, state))
    (held : Collectable cfg (.rest mapped) state)
    (selects : (machine cfg env .own).Follows select (.rest mapped) state
      fun victims last _ => last = { Phase.rest mapped with victims := victims })
    (collects : ∀ victims selected, (machine cfg env .own).Follows
      (collect victims) { Phase.rest mapped with victims := victims } selected
      fun _ last final => last = { Phase.rest mapped with victims := [] } ∧
        ∀ victim ∈ victims, Vacant cfg final victim) :
    Empties select (copyVictims cfg env plan invalid) collect
      (fun victims _ final => ∀ victim ∈ victims, Vacant cfg final victim)
      state := by
  have kept := collectable_invariant cfg env .own id
  have selecting := selects.meets kept sound held
  refine ⟨?_, ?_, ?_⟩
  · intro victims selected copied chose returned
    obtain ⟨last, sound', held', same⟩ := selecting.of_ok chose
    subst same
    have copying := (copyVictims_follows counts destination text rfl rfl
      rfl).meets (spared_invariant cfg env victims selected.programmed) sound'
      ⟨held', fun _ => rfl, [], rfl, by simp⟩
    obtain ⟨last, _, ⟨held'', spared⟩, clean, same, visited⟩ :=
      copying.of_ok returned
    subst same
    refine ⟨spared.elsewhere, ?_⟩
    intro victim member
    exact ⟨held''.windows.victims_inUse victim member,
      held''.chosen.emptied victim member (visited victim member)⟩
  · intro victims selected raised stopped chose failed
    obtain ⟨last, sound', held', same⟩ := selecting.of_ok chose
    subst same
    obtain ⟨reached, _, held'', _, cause⟩ :=
      ((collects victims selected).meets kept sound' held').of_error failed
    exact held''.unraised cause
  · intro victims selected final chose returned
    obtain ⟨last, sound', held', same⟩ := selecting.of_ok chose
    subst same
    obtain ⟨_, _, _, _, vacant⟩ :=
      ((collects victims selected).meets kept sound' held').of_ok returned
    exact vacant

/-! A HOT block is erased without a repair, so that nothing is put back into
use. -/

theorem sepEraseInternal_hot {victim : Nat} {block : Block}
    (found : state.blocks.lookup victim = some block)
    (hot : block.blockType = .hot) :
    Meets (sepEraseInternal cfg victim) state
      (fun _ final => ∀ other, final.blocks.lookup other =
        if other = victim then none else state.blocks.lookup other)
      fun _ _ => True := by
  have dropped : ∀ {pools : List ActivePool} {retires : Bool}
      {middle : State},
      middle.blocks = (state.setBlock victim block.erase).blocks →
      Meets (dropBlock pools retires victim) middle
        (fun _ final => ∀ other, final.blocks.lookup other =
          if other = victim then none else state.blocks.lookup other)
        fun _ _ => True := by
    intro pools retires middle same other
    dsimp only
    rw [same]
    split
    · next here =>
        rw [here]
        exact AList.lookup_erase _ _
    · next elsewhere =>
        rw [AList.lookup_erase_ne elsewhere]
        exact AList.lookup_insert_ne elsewhere
  unfold sepEraseInternal
  refine Meets.bindOk (run_blockAt found) ?_
  dsimp only
  split
  · exact trivial
  refine Meets.bindOk (run_updateBlock found _) ?_
  rw [hot]
  split
  · dsimp only
    refine ((searchPosition_unmoved .hot _).mono (fun _ _ same => same)
      fun _ _ _ => trivial).bind ?_
    intro position searched same
    subst same
    refine ((emplaceFree_places .hot position victim).mono
      (fun _ _ placed => placed) fun _ _ _ => trivial).bind ?_
    intro _ emplaced post
    obtain ⟨list, same⟩ := post
    subst same
    exact dropped rfl
  · exact dropped rfl

theorem sepErase_hot_gone {victims : List Nat}
    (hot : ∀ victim ∈ victims, ∀ block,
      state.blocks.lookup victim = some block → block.blockType = .hot) :
    Meets (victims.forM (sepEraseInternal cfg)) state
      (fun _ final => ∀ other, final.InUse other →
        state.InUse other ∧ other ∉ victims)
      fun _ _ => True := by
  induction victims generalizing state with
  | nil => exact fun other used => ⟨used, List.not_mem_nil⟩
  | cons victim rest induction =>
      rw [List.forM_eq_forM, List.forM_cons]
      cases found : state.blocks.lookup victim with
      | none =>
          apply meets_bind.mpr
          unfold sepEraseInternal
          apply meets_bind.mpr
          unfold Meets blockAt
          rw [run_findBlock_none found]
          trivial
      | some block =>
          refine (sepEraseInternal_hot found (hot victim (.head _) block
            found)).bind ?_
          intro _ erased lookups
          refine (induction ?_).mono ?_ fun _ _ _ => trivial
          · intro other member version lookup
            rw [lookups] at lookup
            split at lookup
            · cases lookup
            · exact hot other (.tail _ member) version lookup
          · intro _ final kept other used
            obtain ⟨⟨version, lookup⟩, apart⟩ := kept other used
            rw [lookups] at lookup
            split at lookup
            · cases lookup
            · next different =>
                refine ⟨⟨version, lookup⟩, ?_⟩
                simp [different, apart]

theorem selectHotVictimBlock_window :
    Meets (selectHotVictimBlock cfg env) state
      (fun victims _ => ∀ victim ∈ victims, victim ∈ state.hotWindow)
      fun _ _ => True := by
  unfold selectHotVictimBlock
  apply meets_bind.mpr
  apply meets_get.mpr
  cases reclaim : blocksToReclaim cfg env .hot state with
  | error raised => exact trivial
  | ok amount => exact fun victim member => List.mem_of_mem_take member

/-- The victims of a hot collection leave `blocks` for good. -/
theorem hot_victims_gone {mapped : Set (Nat × Nat)} {victims : List Nat}
    {selected final : State} (separated : cfg.hotColdSeparation = true)
    (sound : (machine cfg env .own).sound (.rest mapped, state))
    (selects : (selectHotVictimBlock cfg env).run state = .ok victims selected)
    (collects : (sepDoGarbageCollection cfg env false .hot victims).run
      selected = .ok () final) :
    ∀ victim ∈ victims, ¬ final.InUse victim := by
  have listed := selectHotVictimBlock_window.of_ok selects
  obtain ⟨_, sound', _, same⟩ := ((selectHotVictimBlock_follows separated
    trivial (Phase.rest_settled mapped) rfl).meets
      (machine_trivial cfg env .own) sound trivial).of_ok selects
  subst same
  have copying := (copyVictims_follows (sepGCPlan_counts false .hot)
    (by simp [gcPool, separated, sepGCPlan]) (.inr rfl) rfl rfl rfl).meets
      (machine_trivial cfg env .own) sound' trivial
  have collecting : Meets (sepDoGarbageCollection cfg env false .hot victims)
      selected (fun _ final => ∀ victim ∈ victims, ¬ final.InUse victim)
      fun _ _ => True := by
    unfold sepDoGarbageCollection
    refine (copying.mono (fun _ _ post => post) fun _ _ _ => trivial).bind ?_
    intro _ copied post
    obtain ⟨_, ⟨pools, _⟩, _⟩ := post
    refine (sepErase_hot_gone ?_).mono ?_ fun _ _ _ => trivial
    · intro victim member block found
      have typed := pools.typed separated _ _ found
      have below := (sound.1.hotRegion victim (listed victim member)).2
      cases kind : block.blockType with
      | hot => rfl
      | cool =>
          rw [kind] at typed
          exact absurd below (Nat.not_lt.mpr typed)
      | cold =>
          rw [kind] at typed
          exact absurd below (Nat.not_lt.mpr typed)
    · intro _ final gone victim member used
      exact (gone victim used).2 member
  exact collecting.of_ok collects

/-- In every reachable state, between operations and where an operation calls a
collection, the blocks that a selection takes are emptied by the collection that
follows: nothing is copied into them, no page is left behind, and they leave
`blocks`.  A cold victim may have been taken up again, empty, by the slot repair
of a later erase of the same collection. -/
theorem victims_emptied (cfg : Config) (env : Environment) (ops : List Op)
    (own : ∀ op ∈ ops, op.Own) {state called : State}
    (result : outcome cfg env ops = .ok () state)
    (calls : Collecting cfg env state called) (isRefresh : Bool) :
    (cfg.hotColdSeparation = false →
      Empties (selectVictimBlock cfg env)
        (copyVictims cfg env (gcPlan isRefresh) .invalidBlock)
        (doGarbageCollection cfg env isRefresh)
        (fun victims _ final => ∀ victim ∈ victims, ¬ final.InUse victim)
        called) ∧
    (cfg.hotColdSeparation = true →
      Empties (selectColdVictimBlock cfg env)
        (copyVictims cfg env (sepGCPlan isRefresh .cold) .invalidBlockInGC)
        (sepDoGarbageCollection cfg env isRefresh .cold)
        (VictimsDepart cfg env isRefresh .cold) called ∧
      Empties (selectHotVictimBlock cfg env)
        (copyVictims cfg env (sepGCPlan false .hot) .invalidBlockInGC)
        (sepDoGarbageCollection cfg env false .hot)
        (fun victims _ final => ∀ victim ∈ victims, ¬ final.InUse victim)
        called) := by
  obtain ⟨_, sound, held⟩ := collectable_meets own result
  obtain ⟨mapped, sound, held⟩ := calls.meets trivial trivial
    (collectable_invariant cfg env .own id) sound held
  refine ⟨?_, ?_⟩
  · intro plain
    have empties := Empties.of_follows (gcPlan_counts isRefresh)
      (by simp [gcPool, plain, gcPlan]) (.inl rfl) sound held
      (selectVictimBlock_follows plain trivial (Phase.rest_settled mapped) rfl)
      fun victims _ => doGarbageCollection_follows isRefresh plain
        (.inl trivial) (Phase.settled_collecting mapped victims) rfl
    refine { empties with erased := ?_ }
    intro victims selected final selects collects victim member used
    obtain ⟨block, found⟩ := used
    have separated :=
      (empties.erased victims selected final selects collects victim member
        block found).1
    rw [plain] at separated
    cases separated
  · intro separated
    have destination : gcPool cfg = .cool := by simp [gcPool, separated]
    refine ⟨?_, ?_⟩
    · have empties := Empties.of_follows (sepGCPlan_counts isRefresh .cold)
        destination.symm (.inr rfl) sound held
        (selectColdVictimBlock_follows separated trivial
          (Phase.rest_settled mapped) rfl)
        fun victims _ => sepDoGarbageCollection_follows isRefresh .cold
          separated (.inl trivial) (Phase.settled_collecting mapped victims) rfl
      refine { empties with erased := ?_ }
      intro victims selected final selects collects
      refine sepDoGarbageCollection_departs collects ?_
      exact fun victim member block found =>
        (empties.erased victims selected final selects collects victim member
          block found).2
    · have empties := Empties.of_follows (sepGCPlan_counts false .hot)
        destination.symm (.inr rfl) sound held
        (selectHotVictimBlock_follows separated trivial
          (Phase.rest_settled mapped) rfl)
        fun victims _ => sepDoGarbageCollection_follows false .hot separated
          (.inl trivial) (Phase.settled_collecting mapped victims) rfl
      refine { empties with erased := ?_ }
      intro victims selected final selects collects
      exact hot_victims_gone separated sound selects collects

/-- The state of the first collection of a refresh after some operations, and
what its cold collection does to a block. -/
def refreshVictims (cfg : Config) (env : Environment) (ops : List Op) :
    Option (State × List Nat × State) :=
  match outcome cfg env ops with
  | .error _ _ => none
  | .ok _ state =>
      match openQueue.run state with
      | .error _ _ => none
      | .ok _ called =>
          match (selectColdVictimBlock cfg env).run called with
          | .error _ _ => none
          | .ok victims selected =>
              match (sepDoGarbageCollection cfg env true .cold victims).run
                selected with
              | .error _ _ => none
              | .ok _ final => some (called, victims, final)

theorem refreshVictims_eq {cfg : Config} {env : Environment} {ops : List Op}
    {called final : State} {victims : List Nat}
    (evaluated : refreshVictims cfg env ops = some (called, victims, final)) :
    ∃ state target selected, outcome cfg env ops = .ok () state ∧
      openQueue.run state = .ok target called ∧
      (selectColdVictimBlock cfg env).run called = .ok victims selected ∧
      (sepDoGarbageCollection cfg env true .cold victims).run selected =
        .ok () final := by
  unfold refreshVictims at evaluated
  split at evaluated
  · cases evaluated
  next state result =>
  split at evaluated
  · cases evaluated
  next target opened ends =>
  split at evaluated
  · cases evaluated
  next chosen selected selects =>
  split at evaluated
  · cases evaluated
  next last collects =>
  cases evaluated
  exact ⟨state, target, selected, result, ends, selects, collects⟩

/-- Two cold victims, of which the repair for the second takes up the first. -/
def repairOps : List Op :=
  [.initializeFTL, writePage 0, writePage 1, writePage 2, writePage 0, .trim 1]

theorem refreshVictims_repair :
    ∃ called final,
      refreshVictims repairConfig repairEnvironment repairOps =
        some (called, [13, 11], final) ∧ final.InUse 13 := by
  have evaluated : (refreshVictims repairConfig repairEnvironment
      repairOps).any (fun found => found.2.1 = [13, 11] ∧
        (found.2.2.blocks.lookup 13).isSome) = true := by
    decide +kernel
  cases found : refreshVictims repairConfig repairEnvironment repairOps with
  | none =>
      rw [found] at evaluated
      cases evaluated
  | some result =>
      obtain ⟨called, victims, final⟩ := result
      rw [found] at evaluated
      obtain ⟨same, used⟩ := of_decide_eq_true evaluated
      dsimp only at same used
      subst same
      exact ⟨called, final, rfl, Option.isSome_iff_exists.mp used⟩

theorem victims_emptied_repair :
    ∃ state called, outcome repairConfig repairEnvironment repairOps =
        .ok () state ∧
      Collecting repairConfig repairEnvironment state called ∧
      Empties (selectColdVictimBlock repairConfig repairEnvironment)
        (copyVictims repairConfig repairEnvironment (sepGCPlan true .cold)
          .invalidBlockInGC)
        (sepDoGarbageCollection repairConfig repairEnvironment true .cold)
        (VictimsDepart repairConfig repairEnvironment true .cold) called := by
  obtain ⟨called, final, evaluated, _⟩ := refreshVictims_repair
  obtain ⟨state, target, _, result, ends, _⟩ := refreshVictims_eq evaluated
  have calls : Collecting repairConfig repairEnvironment state called :=
    .refresh ends
  exact ⟨state, called, result, calls,
    ((victims_emptied repairConfig repairEnvironment repairOps
      (by simp [repairOps, writePage, Op.Own]) result calls true).2 rfl).1⟩

/-- The first collection of a refresh erases blocks 13 and 11, and block 13 is in
use again when it returns. -/
theorem cold_victim_stays :
    ∃ state called, outcome repairConfig repairEnvironment repairOps =
        .ok () state ∧
      Collecting repairConfig repairEnvironment state called ∧
      ¬ Empties (selectColdVictimBlock repairConfig repairEnvironment)
        (copyVictims repairConfig repairEnvironment (sepGCPlan true .cold)
          .invalidBlockInGC)
        (sepDoGarbageCollection repairConfig repairEnvironment true .cold)
        (fun victims _ final => ∀ victim ∈ victims, ¬ final.InUse victim)
        called := by
  obtain ⟨called, final, evaluated, used⟩ := refreshVictims_repair
  obtain ⟨state, target, selected, result, ends, selects, collects⟩ :=
    refreshVictims_eq evaluated
  refine ⟨state, called, result, .refresh ends, ?_⟩
  intro empties
  exact empties.erased _ selected final selects collects 13 (.head _) used

end SimpleSSD.FTL
