import SimpleSSD.FTL.Allocation

namespace SimpleSSD.FTL

open Machine

/-! The copy loops as runs of the machine: a page that has been visited holds no
valid unit, and everything else is mapped as before. -/

variable {cfg : Config} {env : Environment} {allow : Allowance}
  {phase : Phase} {state : State}

/-- Every block in use is kept, except for its units at `idx`. -/
def KeepsOff (idx : Nat) (before after : State) : Prop :=
  ∀ blockIndex block, before.blocks.lookup blockIndex = some block →
    ∃ version, after.blocks.lookup blockIndex = some version ∧
      (∀ page unit, unit ≠ idx →
        version.validBits page unit = block.validBits page unit ∧
        version.lpns page unit = block.lpns page unit) ∧
      ∀ unit, unit ≠ idx →
        version.nextWritePage unit = block.nextWritePage unit

theorem KeepsOff.trans {idx : Nat} {first second third : State}
    (left : KeepsOff idx first second) (right : KeepsOff idx second third) :
    KeepsOff idx first third := by
  intro blockIndex block found
  obtain ⟨middle, found', units, next⟩ := left blockIndex block found
  obtain ⟨version, found'', units', next'⟩ := right blockIndex middle found'
  refine ⟨version, found'', ?_, ?_⟩
  · intro page unit different
    exact ⟨(units' page unit different).1.trans (units page unit different).1,
      (units' page unit different).2.trans (units page unit different).2⟩
  · intro unit different
    exact (next' unit different).trans (next unit different)

theorem Frame.keepsOff {before after : State} (frame : Frame before after)
    (idx : Nat) : KeepsOff idx before after := by
  intro blockIndex block found
  obtain ⟨version, found', valid, lpns, next⟩ := frame blockIndex block found
  refine ⟨version, found', fun page unit _ => ?_, fun unit _ => ?_⟩
  · rw [valid, lpns]
    exact ⟨rfl, rfl⟩
  · rw [next]

theorem KeepsOff.insert {idx blockIndex : Nat} {before after : State}
    {block version : Block}
    (found : before.blocks.lookup blockIndex = some block)
    (replaced : after.blocks = before.blocks.insert blockIndex version)
    (units : ∀ page unit, unit ≠ idx →
      version.validBits page unit = block.validBits page unit ∧
      version.lpns page unit = block.lpns page unit)
    (next : ∀ unit, unit ≠ idx →
      version.nextWritePage unit = block.nextWritePage unit) :
    KeepsOff idx before after := by
  intro other current lookup
  rw [replaced]
  by_cases same : other = blockIndex
  · subst same
    rw [found] at lookup
    cases lookup
    exact ⟨version, AList.lookup_insert _, units, next⟩
  · rw [AList.lookup_insert_ne same]
    exact ⟨current, lookup, fun _ _ _ => ⟨rfl, rfl⟩, fun _ _ => rfl⟩

theorem KeepsOff.clear {source page idx : Nat} {block : Block}
    (found : state.blocks.lookup source = some block) :
    KeepsOff idx state (state.setBlock source { block with
      validBits := Block.setBit block.validBits page idx false }) := by
  refine KeepsOff.insert found rfl ?_ fun _ _ => rfl
  intro other unit different
  exact ⟨Block.setBit_of_ne fun same => different same.2, rfl⟩

theorem KeepsOff.written {target page lpn idx : Nat} {after : State}
    {block version : Block}
    (found : state.blocks.lookup target = some block)
    (written : block.write page lpn idx = .ok version)
    (replaced : after.blocks = state.blocks.insert target version) :
    KeepsOff idx state after := by
  obtain ⟨_, _, _, _, rfl⟩ := Block.write_ok written
  refine KeepsOff.insert found replaced ?_ ?_
  · intro other unit different
    exact ⟨Block.setBit_of_ne fun same => different same.2,
      if_neg fun same => different same.2⟩
  · intro unit different
    exact Function.update_of_ne different _ _

structure Copied (before after : State) (source page idx : Nat) : Prop where
  kept : KeepsOff idx before after
  cleared : ∀ other ≤ page, ∀ lpn, after.Stores source other idx lpn →
    other ≠ page ∧ before.Stores source other idx lpn

theorem bitsetSize_le (cfg : Config) : cfg.bitsetSize ≤ cfg.ioUnitInPage := by
  have positive := cfg.ioUnitInPage_pos
  unfold Config.bitsetSize
  split <;> omega

theorem noteRefreshed_follows (refreshes : Bool) {source : Nat}
    (inUse : state.InUse source) :
    (machine cfg env allow).Follows (noteRefreshed refreshes source) phase
      state fun _ last final => last = phase ∧ Frame state final ∧
        final.Stores = state.Stores := by
  unfold noteRefreshed
  split
  · obtain ⟨block, found⟩ := inUse
    refine Follows.bindStep (run_updateBlock found _)
      (.touch (block.refreshedPageCount + 1) found) ?_
    exact Follows.endStep rfl (.quiet (quiet_note _))
      ⟨rfl, Frame.version found rfl rfl rfl rfl,
        State.stores_setBlock_same found rfl rfl⟩
  · exact Follows.pure ⟨rfl, Frame.refl state, rfl⟩

/-- The second half of a copy: the entry is renewed and the unit programmed. -/
theorem renew_follows {target lpn idx : Nat} {missing : Panic}
    {block : Block} (aimed : phase.target = some target)
    (found : state.blocks.lookup target = some block)
    (room : block.nextWritePage idx < cfg.pagesInBlock)
    (inside : idx < cfg.bitsetSize) (waits : (lpn, idx) ∈ phase.pending) :
    (machine cfg env allow).Follows
      (do
        remapUnit lpn idx (target, block.nextWritePage idx) missing
        writeUnit target (block.nextWritePage idx) lpn idx
        setRefreshPeriod cfg env block.eraseCount target
          (block.nextWritePage idx % 64)) phase state
      fun _ last final =>
        last = { phase with
          pending := phase.pending \ {(lpn, idx)}
          mapped := insert (lpn, idx) phase.mapped } ∧
        ∃ version, block.write (block.nextWritePage idx) lpn idx =
            .ok version ∧
          final.blocks = state.blocks.insert target version := by
  intro sound
  obtain ⟨pools, maps⟩ := sound
  obtain ⟨mapping, mapped⟩ := (maps.waits lpn idx waits).2
  have unitInside := Nat.lt_of_lt_of_le inside (bitsetSize_le cfg)
  obtain ⟨version, written⟩ :=
    (pools.wellFormed _ _ found).write_next unitInside room lpn
  refine Tracks.bindOk (run_remapUnit mapped) ?_
  refine Tracks.bindOk (run_writeUnit (by exact found) written) ?_
  cases scheduled : state.refresh.setRefreshPeriod cfg env
      state.stat.refreshCallCount block.eraseCount target
      (block.nextWritePage idx % 64) with
  | error raised =>
      refine Tracks.error (run_setRefreshPeriod_error (by exact scheduled)) ?_
      exact ⟨⟨rfl, rfl, rfl, .inr ⟨target, block, idx, lpn, version, found,
          inside, written, rfl⟩⟩,
        .unscheduled (pools.inUse_lt ⟨block, found⟩) scheduled room⟩
  | ok refresh =>
      refine Tracks.ok (run_setRefreshPeriod (by exact scheduled))
        (Relation.ReflTransGen.single
          (.program aimed found inside waits mapped written scheduled)) ?_
      exact ⟨rfl, version, written, rfl⟩

theorem copyUnit_follows (missing : Panic) (refreshes : Bool)
    {source page target lpn idx : Nat} {receiver : Block}
    (aimed : phase.target = some target)
    (stores : state.Stores source page idx lpn)
    (found : state.blocks.lookup target = some receiver)
    (room : receiver.nextWritePage idx < cfg.pagesInBlock) :
    (machine cfg env allow).Follows
      (copyUnit cfg env missing refreshes source page target lpn idx) phase
      state fun _ last final => last = phase ∧
        Copied state final source page idx := by
  apply Follows.ofSound
  rintro ⟨pools, maps⟩
  obtain ⟨block, holder, valid, holds⟩ := stores
  have wellFormed := pools.wellFormed _ _ holder
  have below := wellFormed.valid_lt _ _ valid
  have inside := wellFormed.valid_unit _ _ valid
  obtain ⟨settled, mapping, mapped, located⟩ :=
    maps.stored _ _ _ _ ⟨block, holder, valid, holds⟩
  unfold copyUnit
  refine Follows.bindStep (run_invalidateUnit holder ?_)
    (.invalidate mapped inside located holder valid holds) ?_
  · rw [wellFormed.pageCount_eq]
    exact Nat.lt_of_lt_of_le below (wellFormed.nextWritePage_le idx)
  refine Follows.bind (noteRefreshed_follows refreshes
    (State.inUse_setBlock.mpr (.inl rfl))) ?_
  rintro _ _ noted ⟨rfl, frame, sameStores⟩
  -- the receiver may be the source itself
  obtain ⟨current, found', next_eq⟩ : ∃ current,
      noted.blocks.lookup target = some current ∧
        current.nextWritePage = receiver.nextWritePage := by
    by_cases same : target = source
    · subst same
      rw [holder] at found
      cases found
      obtain ⟨current, found', _, _, next⟩ := frame target _
        (AList.lookup_insert _)
      exact ⟨current, found', next⟩
    · obtain ⟨current, found', _, _, next⟩ := frame target receiver
        ((AList.lookup_insert_ne same).trans found)
      exact ⟨current, found', next⟩
  apply Follows.ofSound
  rintro ⟨pools', _⟩
  refine Follows.bindOk (run_blockAt found') ?_
  refine Follows.mono (renew_follows (by exact aimed) found'
    (by rwa [next_eq]) inside (Set.mem_insert _ _)) ?_
  rintro _ last final _ _ ⟨rfl, version, written, replaced⟩
  have mappedBefore : (lpn, idx) ∈ phase.mapped :=
    (maps.mapped_iff lpn idx).mpr ⟨inside, mapping, mapped, by
      rw [located]
      exact (pools.stores_inside ⟨block, holder, valid, holds⟩).1⟩
  refine ⟨?_, ((KeepsOff.clear holder).trans (frame.keepsOff idx)).trans
    (KeepsOff.written found' written replaced), ?_⟩
  · simp only [Set.insert_sdiff_self_of_notMem settled,
      Set.insert_eq_of_mem mappedBefore]
  · intro other bound stored storesAfter
    have sameFinal : final.Stores = (noted.setBlock target version).Stores :=
      State.stores_congr replaced
    rw [sameFinal, State.stores_program pools' found' written, sameStores,
      State.stores_clear holder] at storesAfter
    rcases storesAfter with ⟨same, page_eq, _, _⟩ | ⟨different, before⟩
    · -- a page of the source that was just programmed lies behind `page`
      subst same
      rw [holder] at found
      cases found
      rw [next_eq] at page_eq
      omega
    · exact ⟨fun same => different ⟨rfl, same, rfl⟩, before⟩

def State.Bare (state : State) (blockIndex page : Nat) : Prop :=
  ∀ idx lpn, ¬ state.Stores blockIndex page idx lpn

structure Swept (before after : State) (source page : Nat) : Prop where
  inUse : ∀ blockIndex, before.InUse blockIndex → after.InUse blockIndex
  bare : ∀ other ≤ page, (other = page ∨ before.Bare source other) →
    after.Bare source other

theorem Frame.stores {before after : State} (frame : Frame before after)
    {blockIndex : Nat} (inUse : before.InUse blockIndex)
    (page idx lpn : Nat) : after.Stores blockIndex page idx lpn ↔
      before.Stores blockIndex page idx lpn := by
  obtain ⟨block, found⟩ := inUse
  obtain ⟨version, found', valid, lpns, _⟩ := frame blockIndex block found
  unfold State.Stores
  simp [found, found', valid, lpns]

theorem KeepsOff.inUse {idx : Nat} {before after : State}
    (kept : KeepsOff idx before after) {blockIndex : Nat}
    (inUse : before.InUse blockIndex) : after.InUse blockIndex := by
  obtain ⟨block, found⟩ := inUse
  obtain ⟨version, found', _⟩ := kept blockIndex block found
  exact ⟨version, found'⟩

theorem KeepsOff.stores {idx : Nat} {before after : State}
    (kept : KeepsOff idx before after) {blockIndex : Nat}
    (inUse : before.InUse blockIndex) {unit : Nat} (different : unit ≠ idx)
    (page lpn : Nat) : after.Stores blockIndex page unit lpn ↔
      before.Stores blockIndex page unit lpn := by
  obtain ⟨block, found⟩ := inUse
  obtain ⟨version, found', units, _⟩ := kept blockIndex block found
  unfold State.Stores
  simp [found, found', units page unit different]

/-- With the tweak off a valid page holds its only unit. -/
theorem copiedUnits_eq (pools : Pools cfg state) {source page : Nat}
    {block : Block} (found : state.blocks.lookup source = some block)
    (valid : IOFlag.any cfg.ioUnitInPage (block.validBits page) = true)
    {idx : Nat} (inside : idx < cfg.bitsetSize) :
    copiedUnits cfg block page idx = block.validBits page idx := by
  unfold copiedUnits
  split
  · rfl
  · next plain =>
      obtain ⟨unit, _, bit⟩ := IOFlag.any_eq_true.mp valid
      have bound := (pools.wellFormed _ _ found).valid_unit _ _ bit
      simp only [Config.bitsetSize, if_neg plain] at bound inside
      obtain rfl : unit = idx := by omega
      exact bit.symm

def Counts (update : Stat → Stat) : Prop :=
  ∀ stat, (update stat).doubleInsertionCount = stat.doubleInsertionCount ∧
    (update stat).refreshCallCount = stat.refreshCallCount

def CopyPlan.Counts (plan : CopyPlan) : Prop :=
  FTL.Counts plan.unitStat ∧ FTL.Counts plan.pageStat

theorem count_follows {update : Stat → Stat} (counts : Counts update) :
    (machine cfg env allow).Follows (count update) phase state
      fun _ last final => last = phase ∧ final.blocks = state.blocks := by
  refine Follows.endStep rfl (.quiet ?_) ⟨rfl, rfl⟩
  exact ⟨rfl, rfl, rfl, rfl, rfl, rfl, rfl, rfl, rfl, (counts _).1,
    (counts _).2, fun _ => rfl, fun _ bound => bound⟩

structure CopyingUnits (cfg : Config) (start state : State) (block : Block)
    (source page target : Nat) (remaining : List Nat) : Prop where
  nodup : remaining.Nodup
  inside : ∀ idx ∈ remaining, idx < cfg.bitsetSize
  inUse : ∀ blockIndex, start.InUse blockIndex → state.InUse blockIndex
  holds : ∀ idx ∈ remaining, block.validBits page idx = true →
    state.Stores source page idx (block.lpns page idx)
  unset : ∀ idx, (idx ∈ remaining → block.validBits page idx = false) →
    ∀ lpn, ¬ state.Stores source page idx lpn
  room : ∃ receiver, state.blocks.lookup target = some receiver ∧
    ∀ idx ∈ remaining, receiver.nextWritePage idx < cfg.pagesInBlock
  bare : ∀ other < page, start.Bare source other → state.Bare source other

theorem CopyingUnits.skip {start : State} {block : Block}
    {source page target idx : Nat} {rest : List Nat}
    (during : CopyingUnits cfg start state block source page target
      (idx :: rest)) (invalid : block.validBits page idx = false) :
    CopyingUnits cfg start state block source page target rest where
  nodup := (List.nodup_cons.mp during.nodup).2
  inside := fun other member => during.inside other (.tail _ member)
  inUse := during.inUse
  holds := fun other member => during.holds other (.tail _ member)
  unset := by
    intro other past
    apply during.unset
    intro member
    rcases List.mem_cons.mp member with rfl | member
    · exact invalid
    · exact past member
  room := by
    obtain ⟨receiver, found, room⟩ := during.room
    exact ⟨receiver, found, fun other member => room other (.tail _ member)⟩
  bare := during.bare

theorem CopyingUnits.copied {start after : State} {block : Block}
    {source page target idx : Nat} {rest : List Nat}
    (during : CopyingUnits cfg start state block source page target
      (idx :: rest)) (inUse : state.InUse source)
    (copied : Copied state after source page idx) :
    CopyingUnits cfg start after block source page target rest where
  nodup := (List.nodup_cons.mp during.nodup).2
  inside := fun other member => during.inside other (.tail _ member)
  inUse := fun blockIndex used =>
    copied.kept.inUse (during.inUse blockIndex used)
  holds := by
    intro other member valid
    have different : other ≠ idx := by
      rintro rfl
      exact (List.nodup_cons.mp during.nodup).1 member
    exact (copied.kept.stores inUse different page _).mpr
      (during.holds other (.tail _ member) valid)
  unset := by
    intro other past lpn stores
    by_cases same : other = idx
    · subst same
      exact (copied.cleared page (Nat.le_refl _) lpn stores).1 rfl
    · refine during.unset other ?_ lpn
        ((copied.kept.stores inUse same page lpn).mp stores)
      intro member
      rcases List.mem_cons.mp member with rfl | member
      · exact absurd rfl same
      · exact past member
  room := by
    obtain ⟨receiver, found, room⟩ := during.room
    obtain ⟨version, found', _, next⟩ := copied.kept target receiver found
    refine ⟨version, found', ?_⟩
    intro other member
    have different : other ≠ idx := by
      rintro rfl
      exact (List.nodup_cons.mp during.nodup).1 member
    rw [next other different]
    exact room other (.tail _ member)
  bare := by
    intro other below bare unit lpn stores
    by_cases same : unit = idx
    · subst same
      exact during.bare other below bare unit lpn
        (copied.cleared other (Nat.le_of_lt below) lpn stores).2
    · exact during.bare other below bare unit lpn
        ((copied.kept.stores inUse same other lpn).mp stores)

theorem copyPage_follows {plan : CopyPlan} {source page : Nat}
    (counts : plan.Counts) (used : Usable cfg allow plan.destination)
    (settled : phase.fresh = none) (idle : phase.target = none)
    (collecting : phase.victims ≠ [] → plan.destination = gcPool cfg)
    (inUse : state.InUse source) :
    (machine cfg env allow).Follows (copyPage cfg env plan source page) phase
      state fun _ last final => last = phase ∧
        Swept state final source page := by
  apply Follows.ofSound
  rintro ⟨pools, _⟩
  obtain ⟨block, found⟩ := inUse
  unfold copyPage
  refine Follows.bindOk (run_blockAt found) ?_
  split
  · next valid =>
      dsimp only
      refine Follows.bind (getLastBlock_follows plan.destination _ used settled
        collecting) ?_
      rintro target last aimed ⟨rfl, frame, receiver, found', room⟩
      have positive : cfg.pagesInBlock ≠ 0 := by
        obtain ⟨unit, _, bit⟩ := IOFlag.any_eq_true.mp valid
        have below := (pools.wellFormed _ _ found).valid_lt _ _ bit
        have bound := (pools.wellFormed _ _ found).nextWritePage_le unit
        omega
      have start : CopyingUnits cfg state aimed block source page target
          (List.range cfg.bitsetSize) := by
        refine ⟨List.nodup_range, fun _ => List.mem_range.mp,
          fun _ => frame.inUse, ?_, ?_, ⟨receiver, found', ?_⟩, ?_⟩
        · intro idx _ bit
          exact (frame.stores ⟨block, found⟩ _ _ _).mpr ⟨block, found, bit, rfl⟩
        · intro idx past lpn stores
          obtain ⟨other, lookup, bit, _⟩ :=
            (frame.stores ⟨block, found⟩ _ _ _).mp stores
          rw [found] at lookup
          cases lookup
          have inside := (pools.wellFormed _ _ found).valid_unit _ _ bit
          rw [past (List.mem_range.mpr inside)] at bit
          cases bit
        · intro idx member
          exact room.resolve_left positive idx (Nat.lt_of_lt_of_le
            (List.mem_range.mp member) (bitsetSize_le cfg))
        · intro other _ bare idx lpn stores
          exact bare idx lpn ((frame.stores ⟨block, found⟩ _ _ _).mp stores)
      refine Follows.bind (Follows.forM (fun remaining last final =>
        last = { phase with target := some target } ∧
          CopyingUnits cfg state final block source page target remaining)
        ⟨rfl, start⟩ ?_) ?_
      · rintro idx rest last current ⟨rfl, during⟩
        have inside := during.inside idx (.head _)
        have sourceInUse := during.inUse source ⟨block, found⟩
        rw [copiedUnits_eq pools found valid inside]
        split
        · next bit =>
            obtain ⟨receiver, found', room⟩ := during.room
            refine Follows.bind (copyUnit_follows plan.missing plan.refreshes
              rfl (during.holds idx (.head _) bit) found'
              (room idx (.head _))) ?_
            rintro _ last moved ⟨rfl, copied⟩
            refine (count_follows counts.1).mono ?_
            rintro _ _ final _ _ ⟨rfl, same⟩
            refine ⟨rfl, during.copied sourceInUse ?_⟩
            refine ⟨copied.kept.trans
              ((Frame.of_blocks_eq same).keepsOff idx), ?_⟩
            rw [State.stores_congr same]
            exact copied.cleared
        · next bit =>
            simp only [Bool.not_eq_true] at bit
            exact Follows.pure ⟨rfl, during.skip bit⟩
      · rintro _ last looped ⟨rfl, during⟩
        refine (count_follows counts.2).after ?_
        rintro _ _ final _ ⟨rfl, same⟩
        refine ⟨phase, Relation.ReflTransGen.single ?_, rfl, ?_, ?_⟩
        · have back : { phase with target := none } = phase := by
            rw [← idle]
          have settle : (machine cfg env allow).step
              ({ phase with target := some target }, final)
              ({ phase with target := none }, final) := .settle
          rwa [back] at settle
        · rw [State.inUse_congr same]
          exact during.inUse
        · intro other bound past idx lpn
          rw [State.stores_congr same]
          rcases Nat.lt_or_eq_of_le bound with below | rfl
          · exact during.bare other below
              (past.resolve_left (Nat.ne_of_lt below)) idx lpn
          · exact during.unset idx (fun member => absurd member (by simp)) lpn
  · next invalid =>
      simp only [Bool.not_eq_true] at invalid
      refine Follows.pure ⟨rfl, fun _ used => used, ?_⟩
      intro other bound past
      rcases past with rfl | bare
      · rintro idx lpn ⟨other, lookup, bit, _⟩
        rw [found] at lookup
        cases lookup
        have inside := (pools.wellFormed _ _ found).valid_unit _ _ bit
        have unset := IOFlag.any_eq_false.mp invalid idx
          (Nat.lt_of_lt_of_le inside (bitsetSize_le cfg))
        rw [bit] at unset
        cases unset
      · exact bare

end SimpleSSD.FTL
