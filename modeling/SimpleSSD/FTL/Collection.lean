import SimpleSSD.FTL.Relocation

namespace SimpleSSD.FTL

open Machine

/-! Erases and the two garbage collections as runs of the machine. -/

variable {cfg : Config} {env : Environment} {allow : Allowance}
  {phase : Phase} {state : State}

/-- A block that was erased: it has left `blocks`, unless a slot repair has
taken it up again. -/
def Vacant (cfg : Config) (state : State) (blockIndex : Nat) : Prop :=
  ∀ block, state.blocks.lookup blockIndex = some block →
    cfg.hotColdSeparation = true ∧ block.Empty

theorem emplaceBefore_perm {position : Option Nat} {block : Block}
    {blocks placed : List Block}
    (emplaced : emplaceBefore position block blocks = .ok placed) :
    placed.Perm (block :: blocks) := by
  unfold emplaceBefore at emplaced
  split at emplaced
  · cases emplaced
    exact List.perm_append_singleton block blocks
  · next anchor =>
      split at emplaced
      · cases emplaced
        refine List.perm_middle.trans ?_
        rw [List.takeWhile_append_dropWhile]
      · cases emplaced

theorem emplaceBefore_freePosition (erasedCount : Nat) (block : Block)
    (blocks : List Block) : ∃ placed, emplaceBefore
      (freePosition erasedCount blocks) block blocks = .ok placed := by
  unfold emplaceBefore freePosition
  cases last : (blocks.reverse.takeWhile fun block =>
      erasedCount < block.eraseCount).getLast? with
  | none => exact ⟨_, rfl⟩
  | some anchor =>
      have member : anchor ∈ blocks := by
        have taken := List.mem_of_getLast? last
        exact List.mem_reverse.mp ((List.takeWhile_sublist _).mem taken)
      have present : blocks.any (·.idx = anchor.idx) = true :=
        List.any_eq_true.mpr ⟨anchor, member, by simp⟩
      simp [present]

theorem run_emplaceFree {pool : FreePool} {position : Option Nat}
    {blockIndex : Nat} {block : Block} {placed : List Block}
    (found : state.blocks.lookup blockIndex = some block)
    (emplaced : emplaceBefore position block (state.free pool).blocks =
      .ok placed) :
    (emplaceFree pool position blockIndex).run state = .ok ()
      (state.setFree pool
        { blocks := placed, count := (state.free pool).count + 1 }) := by
  simp only [emplaceFree, EStateM.run_bind, run_blockAt found,
    EStateM.run_get, emplaced, liftExcept]
  rfl

theorem run_emplaceFree_error {pool : FreePool} {position : Option Nat}
    {blockIndex : Nat} {block : Block} {raised : Panic}
    (found : state.blocks.lookup blockIndex = some block)
    (failed : emplaceBefore position block (state.free pool).blocks =
      .error raised) :
    (emplaceFree pool position blockIndex).run state =
      .error raised state := by
  simp only [emplaceFree, EStateM.run_bind, run_blockAt found,
    EStateM.run_get, failed, liftExcept]
  rfl

structure Erased (cfg : Config) (before after : State) (victim : Nat) :
    Prop where
  victim : Vacant cfg after victim
  others : ∀ other, Vacant cfg before other → Vacant cfg after other

theorem Erased.of_erase {after : State} {victim : Nat}
    (erased : after.blocks = state.blocks.erase victim) :
    Erased cfg state after victim where
  victim := by
    intro block found
    rw [erased, AList.lookup_erase] at found
    cases found
  others := by
    intro other vacant block found
    rw [erased] at found
    by_cases same : other = victim
    · subst same
      rw [AList.lookup_erase] at found
      cases found
    · rw [AList.lookup_erase_ne same] at found
      exact vacant block found

/-- The end of an erase that returns the block to a free list. -/
theorem release_follows (pool : FreePool) {position : Option Nat}
    {victim : Nat} {block : Block}
    (erasing : phase.erasing = some victim)
    (found : state.blocks.lookup victim = some block) (empty : block.Empty)
    (takes : pool.Takes cfg block.blockType)
    (placeable : (∃ placed, emplaceBefore position block
      (state.free pool).blocks = .ok placed) ∨ phase.repaired = true) :
    (machine cfg env allow).Follows
      (do
        emplaceFree pool position victim
        dropBlock (activePools cfg) false victim) phase state
      fun _ last final =>
        last = { phase with erasing := none, repaired := false } ∧
        Erased cfg state final victim := by
  intro sound
  cases emplaced : emplaceBefore position block (state.free pool).blocks with
  | error raised =>
      have dangling : raised = .danglingPosition := by
        unfold emplaceBefore at emplaced
        split at emplaced
        · cases emplaced
        · split at emplaced <;> cases emplaced
          rfl
      refine Tracks.bindError (run_emplaceFree_error found emplaced)
        ⟨SameHistory.refl _, ?_⟩
      rcases placeable with ⟨placed, ok⟩ | repaired
      · rw [emplaced] at ok
        cases ok
      · rw [dangling]
        exact .danglingPosition repaired
  | ok placed =>
      refine Tracks.bindOk (run_emplaceFree found emplaced) ?_
      refine Tracks.ok rfl (Relation.ReflTransGen.single
        (.release pool erasing found empty takes
          (emplaceBefore_perm emplaced))) ⟨rfl, Erased.of_erase rfl⟩

theorem retire_follows {victim : Nat} {block : Block}
    (erasing : phase.erasing = some victim)
    (found : state.blocks.lookup victim = some block) (empty : block.Empty) :
    (machine cfg env allow).Follows
      (dropBlock (activePools cfg) true victim) phase state
      fun _ last final =>
        last = { phase with erasing := none, repaired := false } ∧
        Erased cfg state final victim :=
  Follows.endStep rfl (.retire erasing found empty)
    ⟨rfl, Erased.of_erase rfl⟩

theorem searchPosition_follows (pool : FreePool) (erasedCount : Nat) :
    (machine cfg env allow).Follows (searchPosition pool erasedCount) phase
      state fun position last final => last = phase ∧ final = state ∧
        position = freePosition erasedCount (state.free pool).blocks := by
  unfold searchPosition
  apply Follows.getBind
  split
  · exact Follows.throwBind ⟨SameHistory.refl _, .emptyFreeList⟩
  · exact Follows.pure ⟨rfl, rfl, rfl⟩

/-- The first half of both erases: the victim is wiped. -/
theorem vacant_wipe {victim : Nat} {block : Block} (other : Nat)
    (vacant : Vacant cfg state other)
    (found : state.blocks.lookup victim = some block) :
    Vacant cfg (state.setBlock victim block.erase) other := by
  intro current lookup
  rw [State.lookup_setBlock] at lookup
  split at lookup
  · next same =>
      subst same
      cases lookup
      exact ⟨(vacant block found).1, block.erase_empty⟩
  · exact vacant current lookup

theorem eraseInternal_follows {victim : Nat} {rest : List Nat}
    (plain : cfg.hotColdSeparation = false)
    (allowed : allow.policy ∨ allow.wiping)
    (next : phase.victims = victim :: rest) (clean : victim ∈ phase.clean)
    (idle : phase.erasing = none) (whole : phase.repaired = false) :
    (machine cfg env allow).Follows (eraseInternal cfg victim) phase state
      fun _ last final => last = { phase with victims := rest } ∧
        Erased cfg state final victim := by
  apply Follows.ofSound
  rintro ⟨pools, _⟩
  have member : victim ∈ phase.victims := by simp [next]
  have arrays : activePools cfg = [.plain] := by simp [activePools, plain]
  have back : { phase with victims := rest } = { phase with
      victims := rest, erasing := none, repaired := false } := by
    rw [← idle, ← whole]
  unfold eraseInternal
  cases found : state.blocks.lookup victim with
  | none =>
      exact Follows.bindError (run_findBlock_none found)
        ⟨SameHistory.refl _, .victimMissing member found (by simp)⟩
  | some block =>
      refine Follows.bindOk (run_findBlock found) ?_
      dsimp only
      split
      · next valid =>
          exact Follows.throwBind
            ⟨SameHistory.refl _, .victimValid member clean found valid⟩
      next invalid =>
      have nothing := Block.getValidPageCount_eq_zero
        (pools.wellFormed _ _ found) (not_not.mp invalid)
      refine Follows.bindStep (run_updateBlock found _)
        (.wipe allowed idle next found nothing) ?_
      have wiped : (state.setBlock victim block.erase).blocks.lookup victim =
          some block.erase := AList.lookup_insert _
      have erased : ∀ final, Erased cfg (state.setBlock victim block.erase)
          final victim → Erased cfg state final victim := fun final after =>
        ⟨after.victim, fun other vacant =>
          after.others other (vacant_wipe other vacant found)⟩
      rw [← arrays, back]
      split
      · next below =>
          rw [decide_eq_false (by omega)]
          refine Follows.bind (searchPosition_follows .plain _) ?_
          rintro position _ _ ⟨rfl, rfl, rfl⟩
          refine Follows.mono (release_follows .plain rfl wiped
            block.erase_empty ?_ (.inl (emplaceBefore_freePosition _ _ _))) ?_
          · simp [FreePool.Takes, plain]
          · rintro _ _ final _ _ ⟨rfl, after⟩
            exact ⟨rfl, erased final after⟩
      · next reached =>
          rw [decide_eq_true (by omega)]
          refine Follows.mono (retire_follows rfl wiped block.erase_empty) ?_
          rintro _ _ final _ _ ⟨rfl, after⟩
          exact ⟨rfl, erased final after⟩

theorem Allocated.vacant {after : State} {blockIndex : Nat}
    (allocated : Allocated cfg state after blockIndex)
    (separated : cfg.hotColdSeparation = true) (other : Nat)
    (vacant : Vacant cfg state other) : Vacant cfg after other := by
  intro current lookup
  refine ⟨separated, ?_⟩
  by_cases same : other = blockIndex
  · subst same
    obtain ⟨block, found, empty⟩ := allocated.found
    rw [found] at lookup
    cases lookup
    exact empty
  · obtain ⟨block, found⟩ := (allocated.others other same).mp ⟨current, lookup⟩
    obtain ⟨version, found', valid, _, next⟩ := allocated.frame other block found
    rw [found'] at lookup
    cases lookup
    have empty := (vacant block found).2
    refine ⟨?_, ?_⟩
    · rw [next]
      exact empty.nextWritePage_eq
    · rw [valid]
      exact empty.valid_eq

theorem repairSlot_follows (pool : ActivePool) {victim : Nat}
    (separated : cfg.hotColdSeparation = true)
    (cool : pool = .cool ∨ pool = .cold) (settled : phase.fresh = none)
    (whole : phase.repaired = false) (erasing : phase.erasing = some victim)
    (inUse : state.InUse victim) :
    (machine cfg env allow).Follows (repairSlot cfg pool victim) phase state
      fun _ last final => final.InUse victim ∧
        (∀ other, Vacant cfg state other → Vacant cfg final other) ∧
        ∃ repaired, last = { phase with repaired := repaired } ∧
          (repaired = false → final = state) := by
  apply Follows.ofSound
  rintro ⟨pools, _⟩
  unfold repairSlot
  apply Follows.getBind
  split
  · next named =>
      have listed : victim ∈ (state.active pool).blocks := by simpa using named
      have inside : (state.active pool).blocks.idxOf victim <
          cfg.pageCountToMaxPerf := by
        rw [← pools.slots pool]
        exact List.idxOf_lt_length_iff.mpr listed
      refine Follows.bind (getColdFreeBlock_follows true settled inside
        separated) ?_
      rintro replacement _ final ⟨rfl, allocated, admits⟩
      obtain ⟨block, found, _⟩ := allocated.found
      refine Follows.endStep rfl (.repair pool _ rfl ?_ ⟨block, found⟩ erasing
        ?_) ⟨allocated.frame.inUse inUse, allocated.vacant separated, true,
          ?_, by simp⟩
      · rcases cool with rfl | rfl <;> exact admits
      · rw [allocated.active_eq]
        exact listed
      · simp only [settled]
  · refine Follows.pure ⟨inUse, fun _ vacant => vacant, false, ?_,
      fun _ => rfl⟩
    rw [← whole]

theorem releaseCold_follows (pool : ActivePool) {victim : Nat} {block : Block}
    {count : Nat} (separated : cfg.hotColdSeparation = true)
    (cool : pool = .cool ∨ pool = .cold) (settled : phase.fresh = none)
    (erasing : phase.erasing = some victim) (whole : phase.repaired = false)
    (wiped : state.blocks.lookup victim = some block) (empty : block.Empty)
    (region : cfg.hotBlocksLimit ≤ victim) :
    (machine cfg env allow).Follows
      (do
        let position ← searchPosition .cold count
        repairSlot cfg pool victim
        emplaceFree .cold position victim
        dropBlock (activePools cfg) false victim) phase state
      fun _ last final =>
        last = { phase with erasing := none, repaired := false } ∧
          Erased cfg state final victim := by
  refine Follows.bind (searchPosition_follows .cold _) ?_
  rintro position _ _ ⟨rfl, rfl, rfl⟩
  refine Follows.bind (repairSlot_follows pool separated cool settled whole
    erasing ⟨_, wiped⟩) ?_
  rintro _ _ repaired ⟨⟨current, lookup⟩, vacant, flag, rfl, unchanged⟩
  apply Follows.ofSound
  rintro ⟨pools, _⟩
  have still : current.Empty := by
    refine (vacant victim ?_ current lookup).2
    intro current lookup
    rw [wiped] at lookup
    cases lookup
    exact ⟨separated, empty⟩
  have takes : FreePool.cold.Takes cfg current.blockType := by
    have typed := pools.typed separated _ _ lookup
    unfold FreePool.Takes
    rw [if_pos separated]
    cases kind : current.blockType with
    | hot =>
        rw [kind] at typed
        exact absurd typed (Nat.not_lt.mpr region)
    | cool => rfl
    | cold => rfl
  refine Follows.mono (release_follows .cold erasing lookup still takes ?_) ?_
  · cases flag with
    | true => exact .inr rfl
    | false =>
        rw [unchanged rfl]
        exact .inl (emplaceBefore_freePosition _ _ _)
  · rintro _ _ final _ _ ⟨rfl, after⟩
    refine ⟨rfl, after.victim, ?_⟩
    exact fun other empty => after.others other (vacant other empty)

theorem sepEraseInternal_follows {victim : Nat} {rest : List Nat}
    (separated : cfg.hotColdSeparation = true)
    (allowed : allow.policy ∨ allow.wiping)
    (next : phase.victims = victim :: rest) (clean : victim ∈ phase.clean)
    (settled : phase.fresh = none) (idle : phase.erasing = none)
    (whole : phase.repaired = false) :
    (machine cfg env allow).Follows (sepEraseInternal cfg victim) phase state
      fun _ last final => last = { phase with victims := rest } ∧
        Erased cfg state final victim := by
  apply Follows.ofSound
  rintro ⟨pools, _⟩
  have member : victim ∈ phase.victims := by simp [next]
  have arrays : activePools cfg = [.hot, .cool, .cold] := by
    simp [activePools, separated]
  have back : { phase with victims := rest } = { phase with
      victims := rest, erasing := none, repaired := false } := by
    rw [← idle, ← whole]
  unfold sepEraseInternal
  cases found : state.blocks.lookup victim with
  | none =>
      exact Follows.bindError (run_findBlock_none found)
        ⟨SameHistory.refl _, .victimMissing member found (by simp)⟩
  | some block =>
      refine Follows.bindOk (run_findBlock found) ?_
      dsimp only
      split
      · next valid =>
          exact Follows.throwBind
            ⟨SameHistory.refl _, .victimValid member clean found valid⟩
      next invalid =>
      have nothing := Block.getValidPageCount_eq_zero
        (pools.wellFormed _ _ found) (not_not.mp invalid)
      refine Follows.bindStep (run_updateBlock found _)
        (.wipe allowed idle next found nothing) ?_
      have wiped : (state.setBlock victim block.erase).blocks.lookup victim =
          some block.erase := AList.lookup_insert _
      have erased : ∀ final, Erased cfg (state.setBlock victim block.erase)
          final victim → Erased cfg state final victim := fun final after =>
        ⟨after.victim, fun other vacant =>
          after.others other (vacant_wipe other vacant found)⟩
      have typed := pools.typed separated _ _ found
      have returned : ∀ pool : ActivePool, pool = .cool ∨ pool = .cold →
          cfg.hotBlocksLimit ≤ victim →
          (machine cfg env allow).Follows
            (do
              let position ← searchPosition .cold block.erase.eraseCount
              repairSlot cfg pool victim
              emplaceFree .cold position victim
              dropBlock (activePools cfg) false victim)
            { phase with
              victims := rest, erasing := some victim, repaired := false }
            (state.setBlock victim block.erase)
            fun _ last final => last = { phase with victims := rest } ∧
              Erased cfg state final victim := by
        intro pool cool region
        refine Follows.mono (releaseCold_follows pool separated cool settled rfl
          rfl wiped block.erase_empty region) ?_
        rintro _ _ final _ _ ⟨rfl, after⟩
        exact ⟨by rw [back], erased final after⟩
      rw [← arrays]
      split
      · next below =>
          rw [decide_eq_false (by omega)]
          cases kind : block.blockType with
          | hot =>
              dsimp only
              refine Follows.bind (searchPosition_follows .hot _) ?_
              rintro position _ _ ⟨rfl, rfl, rfl⟩
              refine Follows.mono (release_follows .hot rfl wiped
                block.erase_empty ?_
                (.inl (emplaceBefore_freePosition _ _ _))) ?_
              · simp [FreePool.Takes, separated, Block.erase, kind]
              · rintro _ _ final _ _ ⟨rfl, after⟩
                exact ⟨by rw [back], erased final after⟩
          | cool =>
              rw [kind] at typed
              exact returned .cool (.inl rfl) typed
          | cold =>
              rw [kind] at typed
              exact returned .cold (.inr rfl) typed
      · next reached =>
          rw [decide_eq_true (by omega)]
          refine Follows.mono (retire_follows rfl wiped block.erase_empty) ?_
          rintro _ _ final _ _ ⟨rfl, after⟩
          exact ⟨by rw [back], erased final after⟩

theorem gcPool_usable (cfg : Config) (allow : Allowance) :
    Usable cfg allow (gcPool cfg) := by
  left
  unfold gcPool activePools
  split <;> simp

theorem copyVictim_follows {plan : CopyPlan} {victim : Nat}
    (counts : plan.Counts) (destination : plan.destination = gcPool cfg)
    (settled : phase.fresh = none) (idle : phase.target = none)
    (inUse : state.InUse victim) :
    (machine cfg env allow).Follows
      ((List.range cfg.pagesInBlock).forM (copyPage cfg env plan victim)) phase
      state fun _ last _ =>
        last = { phase with clean := insert victim phase.clean } := by
  refine Follows.after (Follows.forM (fun remaining last final =>
      last = phase ∧ final.InUse victim ∧ ∃ visited,
        visited + remaining.length = cfg.pagesInBlock ∧
        remaining = List.range' visited remaining.length ∧
        ∀ page < visited, final.Bare victim page)
    ⟨rfl, inUse, 0, by simp, by simp [List.range_eq_range'], by simp⟩ ?_) ?_
  · rintro page rest _ current ⟨rfl, used, visited, total, ordered, bare⟩
    rw [List.length_cons, List.range'_succ, List.cons.injEq] at ordered
    obtain ⟨rfl, ordered⟩ := ordered
    refine (copyPage_follows counts (destination ▸ gcPool_usable cfg allow)
      settled idle (fun _ => destination) used).mono ?_
    rintro _ _ final _ _ ⟨rfl, swept⟩
    refine ⟨rfl, swept.inUse victim used, page + 1, ?_, ordered, ?_⟩
    · rw [List.length_cons] at total
      omega
    · intro other below
      apply swept.bare other (by omega)
      rcases Nat.lt_or_eq_of_le (Nat.le_of_lt_succ below) with earlier | same
      · exact .inr (bare other earlier)
      · exact .inl same
  · rintro _ _ final ⟨pools, _⟩ ⟨rfl, _, visited, total, _, bare⟩
    refine ⟨_, Relation.ReflTransGen.single (.cleaned victim ?_), rfl⟩
    intro page idx lpn stores
    have below := (pools.stores_inside stores).1.2
    exact bare page (by simpa [← total] using below) idx lpn stores

theorem copyVictims_follows {plan : CopyPlan} {invalid : Panic}
    {victims : List Nat} (counts : plan.Counts)
    (destination : plan.destination = gcPool cfg)
    (text : invalid = .invalidBlock ∨ invalid = .invalidBlockInGC)
    (settled : phase.fresh = none) (idle : phase.target = none)
    (chosen : phase.victims = victims) :
    (machine cfg env allow).Follows
      (copyVictims cfg env plan invalid victims) phase state
      fun _ last _ => ∃ clean, last = { phase with clean := clean } ∧
        ∀ victim ∈ victims, victim ∈ clean := by
  unfold copyVictims
  refine Follows.mono (Follows.forM (fun remaining last _ =>
      ∃ clean done, last = { phase with clean := clean } ∧
        victims = done ++ remaining ∧ ∀ victim ∈ done, victim ∈ clean)
    ⟨phase.clean, [], rfl, rfl, by simp⟩ ?_) ?_
  · rintro victim rest _ current ⟨clean, done, rfl, split, visited⟩
    have member : victim ∈ phase.victims := by
      rw [chosen, split]
      simp
    cases found : current.blocks.lookup victim with
    | none =>
        refine Follows.bindError (run_findBlock_none found)
          ⟨SameHistory.refl _, .victimMissing member found ?_⟩
        rcases text with rfl | rfl <;> simp
    | some block =>
        refine Follows.bindOk (run_findBlock found) ?_
        refine Follows.mono (copyVictim_follows counts destination
          (by exact settled) (by exact idle) ⟨block, found⟩) ?_
        rintro _ _ final _ _ rfl
        refine ⟨insert victim clean, done ++ [victim], rfl, by simp [split], ?_⟩
        intro other listed
        rcases List.mem_append.mp listed with earlier | last
        · exact .inr (visited other earlier)
        · exact .inl (List.mem_singleton.mp last)
  · rintro _ _ final _ _ ⟨clean, done, rfl, split, visited⟩
    rw [List.append_nil] at split
    exact ⟨clean, rfl, split ▸ visited⟩

/-- Both collections: copy all victims, then erase them one by one. -/
theorem collect_follows {plan : CopyPlan} {invalid : Panic}
    {erase : Nat → FTLM Unit} {victims : List Nat} (counts : plan.Counts)
    (destination : plan.destination = gcPool cfg)
    (text : invalid = .invalidBlock ∨ invalid = .invalidBlockInGC)
    (settled : phase.Settled) (chosen : phase.victims = victims)
    (erase_follows : ∀ victim rest phase state, phase.fresh = none →
      phase.erasing = none → phase.repaired = false →
      phase.victims = victim :: rest → victim ∈ phase.clean →
      (machine cfg env allow).Follows (erase victim) phase state
        fun _ last final => last = { phase with victims := rest } ∧
          Erased cfg state final victim) :
    (machine cfg env allow).Follows
      (do
        copyVictims cfg env plan invalid victims
        victims.forM erase) phase state
      fun _ last final => last = { phase with victims := [] } ∧
        ∀ victim ∈ victims, Vacant cfg final victim := by
  refine Follows.bind (copyVictims_follows counts destination text
    settled.fresh settled.target chosen) ?_
  rintro _ _ copied ⟨clean, rfl, visited⟩
  refine Follows.after (Follows.forM (fun remaining last final =>
      last = { phase with victims := remaining, clean := clean } ∧
        ∃ done, victims = done ++ remaining ∧
          ∀ victim ∈ done, Vacant cfg final victim)
    ⟨by rw [← chosen], [], rfl, by simp⟩ ?_) ?_
  · rintro victim rest _ current ⟨rfl, done, split, vacant⟩
    refine Follows.mono (erase_follows victim rest _ current
      (by exact settled.fresh) (by exact settled.erasing)
      (by exact settled.repaired) rfl (visited victim (by simp [split]))) ?_
    rintro _ _ final _ _ ⟨rfl, erased⟩
    refine ⟨rfl, done ++ [victim], by simp [split], ?_⟩
    intro other listed
    rcases List.mem_append.mp listed with earlier | last
    · exact erased.others other (vacant other earlier)
    · rw [List.mem_singleton.mp last]
      exact erased.victim
  · rintro _ _ final _ ⟨rfl, done, split, vacant⟩
    rw [List.append_nil] at split
    refine ⟨_, Relation.ReflTransGen.single (.finish rfl), ?_, split ▸ vacant⟩
    rw [← settled.clean]

theorem gcPlan_counts (isRefresh : Bool) : (gcPlan isRefresh).Counts :=
  ⟨fun _ => ⟨rfl, rfl⟩, fun _ => ⟨rfl, rfl⟩⟩

theorem sepGCPlan_counts (isRefresh : Bool) (gcType : BlockPoolType) :
    (sepGCPlan isRefresh gcType).Counts := by
  unfold sepGCPlan
  constructor <;> intro stat <;> dsimp only <;> split <;> exact ⟨rfl, rfl⟩

theorem doGarbageCollection_follows (isRefresh : Bool) {victims : List Nat}
    (plain : cfg.hotColdSeparation = false)
    (allowed : allow.policy ∨ allow.wiping)
    (settled : phase.Settled) (chosen : phase.victims = victims) :
    (machine cfg env allow).Follows
      (doGarbageCollection cfg env isRefresh victims) phase state
      fun _ last final => last = { phase with victims := [] } ∧
        ∀ victim ∈ victims, Vacant cfg final victim :=
  collect_follows (gcPlan_counts isRefresh) (by simp [gcPool, plain, gcPlan])
    (.inl rfl) settled chosen
    fun _ _ _ _ _ idle whole next clean =>
      eraseInternal_follows plain allowed next clean idle whole

theorem sepDoGarbageCollection_follows (isRefresh : Bool)
    (gcType : BlockPoolType) {victims : List Nat}
    (separated : cfg.hotColdSeparation = true)
    (allowed : allow.policy ∨ allow.wiping)
    (settled : phase.Settled) (chosen : phase.victims = victims) :
    (machine cfg env allow).Follows
      (sepDoGarbageCollection cfg env isRefresh gcType victims) phase state
      fun _ last final => last = { phase with victims := [] } ∧
        ∀ victim ∈ victims, Vacant cfg final victim :=
  collect_follows (sepGCPlan_counts isRefresh gcType)
    (by simp [gcPool, separated, sepGCPlan]) (.inr rfl) settled chosen
    fun _ _ _ _ fresh idle whole next clean =>
      sepEraseInternal_follows separated allowed next clean fresh idle
        whole

end SimpleSSD.FTL
