import SimpleSSD.FTL.Consistency

namespace SimpleSSD.FTL

open Machine

/-! The hot and the cool-down window over whole runs: each lists exactly the
blocks in use of its type. -/

variable {cfg : Config} {env : Environment} {allow : Allowance}
  {phase : Phase} {state updated : State}

def State.typeOf (state : State) (blockIndex : Nat) : Option BlockPoolType :=
  (state.blocks.lookup blockIndex).map (·.blockType)

theorem State.inUse_iff_typeOf {blockIndex : Nat} :
    state.InUse blockIndex ↔ ∃ blockType,
      state.typeOf blockIndex = some blockType := by
  simp [State.InUse, State.typeOf]

theorem State.typeOf_setBlock (state : State) (blockIndex : Nat)
    (block : Block) (other : Nat) :
    (state.setBlock blockIndex block).typeOf other =
      if other = blockIndex then some block.blockType
      else state.typeOf other := by
  unfold State.typeOf
  rw [State.lookup_setBlock]
  split <;> rfl

theorem State.typeOf_setBlock_same {blockIndex : Nat} {block version : Block}
    (found : state.blocks.lookup blockIndex = some block)
    (same : version.blockType = block.blockType) :
    (state.setBlock blockIndex version).typeOf = state.typeOf := by
  funext other
  rw [State.typeOf_setBlock]
  split
  · next here =>
      subst here
      simp [State.typeOf, found, same]
  · rfl

theorem State.typeOf_erase {blockIndex : Nat}
    (erased : updated.blocks = state.blocks.erase blockIndex) (other : Nat) :
    updated.typeOf other =
      if other = blockIndex then none else state.typeOf other := by
  unfold State.typeOf
  rw [erased]
  split
  · next here =>
      subst here
      simp
  · next elsewhere => rw [AList.lookup_erase_ne elsewhere]

def Phase.Departing (phase : Phase) (blockIndex : Nat) : Prop :=
  blockIndex ∈ phase.victims ∨ phase.erasing = some blockIndex

def Phase.Arriving (phase : Phase) (blockIndex : Nat) : Prop :=
  ∃ stage, phase.fresh = some (blockIndex, stage) ∧ stage ≠ .ready

def Listed (blockType : BlockPoolType) (phase : Phase) (state : State)
    (blockIndex : Nat) : Prop :=
  (state.typeOf blockIndex = some blockType ∧
    ¬ phase.Departing blockIndex ∧ ¬ phase.Arriving blockIndex) ∨
  phase.fresh = some (blockIndex, .queued blockType)

/-- A list without repetitions of the blocks that a type calls for. -/
structure Lists (blockType : BlockPoolType) (phase : Phase) (state : State)
    (window : List Nat) : Prop where
  nodup : window.Nodup
  mem_iff : ∀ blockIndex, blockIndex ∈ window ↔
    Listed blockType phase state blockIndex

structure Windows (cfg : Config) (phase : Phase) (state : State) : Prop where
  victims_nodup : phase.victims.Nodup
  victims_inUse : ∀ victim ∈ phase.victims, state.InUse victim
  erasing_inUse : ∀ victim, phase.erasing = some victim →
    state.InUse victim ∧ victim ∉ phase.victims
  fresh_inUse : ∀ blockIndex stage, phase.fresh = some (blockIndex, stage) →
    state.InUse blockIndex ∧ ¬ phase.Departing blockIndex
  hot : cfg.hotColdSeparation = true →
    Lists .hot phase state state.hotWindow
  cool : cfg.hotColdSeparation = true →
    Lists .cool phase state state.coolDownWindow
  length_le : state.coolDownWindow.length ≤ cfg.nCooldownBlocks
  roomy : ∀ blockIndex, phase.fresh = some (blockIndex, .roomy) →
    state.coolDownWindow.length < cfg.nCooldownBlocks

/-! What a window lists depends on the types and on the blocks under way. -/

theorem Lists.of_iff {blockType : BlockPoolType} {phase' : Phase}
    {window : List Nat} (lists : Lists blockType phase state window)
    (same : ∀ blockIndex, Listed blockType phase' updated blockIndex ↔
      Listed blockType phase state blockIndex) :
    Lists blockType phase' updated window :=
  ⟨lists.nodup, fun blockIndex => (lists.mem_iff blockIndex).trans
    (same blockIndex).symm⟩

theorem listed_congr {blockType : BlockPoolType} {phase' : Phase}
    (types : updated.typeOf = state.typeOf)
    (victims : phase'.victims = phase.victims)
    (erasing : phase'.erasing = phase.erasing)
    (fresh : phase'.fresh = phase.fresh) (blockIndex : Nat) :
    Listed blockType phase' updated blockIndex ↔
      Listed blockType phase state blockIndex := by
  unfold Listed Phase.Departing Phase.Arriving
  rw [types, victims, erasing, fresh]

theorem Windows.of_agree {phase' : Phase}
    (windows : Windows cfg phase state)
    (types : updated.typeOf = state.typeOf)
    (hot : updated.hotWindow = state.hotWindow)
    (cool : updated.coolDownWindow = state.coolDownWindow)
    (victims : phase'.victims = phase.victims)
    (erasing : phase'.erasing = phase.erasing)
    (fresh : phase'.fresh = phase.fresh) : Windows cfg phase' updated := by
  have inUse : ∀ blockIndex, state.InUse blockIndex →
      updated.InUse blockIndex := by
    intro blockIndex used
    rw [State.inUse_iff_typeOf, types]
    exact State.inUse_iff_typeOf.mp used
  refine { victims_nodup := ?_, victims_inUse := ?_, erasing_inUse := ?_,
           fresh_inUse := ?_, hot := ?_, cool := ?_, length_le := ?_,
           roomy := ?_ }
  · rw [victims]
    exact windows.victims_nodup
  · rw [victims]
    exact fun victim member => inUse _ (windows.victims_inUse victim member)
  · rw [victims, erasing]
    intro victim leaving
    obtain ⟨used, apart⟩ := windows.erasing_inUse victim leaving
    exact ⟨inUse _ used, apart⟩
  · unfold Phase.Departing
    rw [victims, erasing, fresh]
    intro blockIndex stage entering
    obtain ⟨used, apart⟩ := windows.fresh_inUse blockIndex stage entering
    exact ⟨inUse _ used, apart⟩
  · rw [hot]
    exact fun separated => (windows.hot separated).of_iff
      (listed_congr types victims erasing fresh)
  · rw [cool]
    exact fun separated => (windows.cool separated).of_iff
      (listed_congr types victims erasing fresh)
  · rw [cool]
    exact windows.length_le
  · rw [cool, fresh]
    exact windows.roomy

theorem listed_settled {blockType : BlockPoolType} {blockIndex : Nat}
    (settled : phase.fresh = none) :
    Listed blockType phase state blockIndex ↔
      state.typeOf blockIndex = some blockType ∧
        ¬ phase.Departing blockIndex := by
  simp [Listed, Phase.Arriving, settled]

theorem listed_fresh {blockType : BlockPoolType} {entering : Nat}
    {stage : Stage} (fresh : phase.fresh = some (entering, stage))
    (blockIndex : Nat) :
    Listed blockType phase state blockIndex ↔
      if blockIndex = entering ∧ stage ≠ .ready then
        stage = .queued blockType
      else state.typeOf blockIndex = some blockType ∧
        ¬ phase.Departing blockIndex := by
  unfold Listed Phase.Arriving
  rw [fresh]
  by_cases same : blockIndex = entering
  · subst same
    by_cases done : stage = .ready
    · subst done
      simp
    · simp [done]
  · have other : entering ≠ blockIndex := fun equal => same equal.symm
    simp [same, other]

theorem Windows.take (windows : Windows cfg phase state)
    (idle : phase.fresh = none) {blockIndex : Nat} {block : Block}
    (absent : state.blocks.lookup blockIndex = none)
    (blocks_eq : updated.blocks = state.blocks.insert blockIndex block)
    (hot : updated.hotWindow = state.hotWindow)
    (cool : updated.coolDownWindow = state.coolDownWindow) :
    Windows cfg { phase with fresh := some (blockIndex, .taken) } updated := by
  have types : updated.typeOf = (state.setBlock blockIndex block).typeOf := by
    unfold State.typeOf
    rw [blocks_eq]
    rfl
  have unused : ¬ state.InUse blockIndex := State.not_inUse.mpr absent
  have used_iff : updated.InUse = (state.setBlock blockIndex block).InUse :=
    State.inUse_congr blocks_eq
  have inUse : ∀ other, state.InUse other → updated.InUse other := by
    intro other used
    rw [used_iff]
    exact State.inUse_setBlock.mpr (.inr used)
  have listed : ∀ blockType other,
      Listed blockType { phase with fresh := some (blockIndex, .taken) }
        updated other ↔ Listed blockType phase state other := by
    intro blockType other
    rw [listed_fresh rfl, listed_settled idle, types, State.typeOf_setBlock]
    by_cases same : other = blockIndex
    · subst same
      simp [State.typeOf, absent]
    · simp [same, Phase.Departing]
  refine { victims_nodup := windows.victims_nodup,
           victims_inUse := fun victim member =>
             inUse _ (windows.victims_inUse victim member),
           erasing_inUse := fun victim leaving =>
             (windows.erasing_inUse victim leaving).imp_left (inUse _),
           fresh_inUse := ?_, hot := ?_, cool := ?_, length_le := ?_,
           roomy := ?_ }
  · intro other stage entering
    cases entering
    refine ⟨?_, ?_⟩
    · rw [used_iff]
      exact State.inUse_setBlock.mpr (.inl rfl)
    · intro departing
      rcases departing with victim | leaving
      · exact unused (windows.victims_inUse _ victim)
      · exact unused (windows.erasing_inUse _ leaving).1
  · intro separated
    rw [hot]
    exact (windows.hot separated).of_iff (listed .hot)
  · intro separated
    rw [cool]
    exact (windows.cool separated).of_iff (listed .cool)
  · rw [cool]
    exact windows.length_le
  · intro other entering
    cases entering

/-- A block under way changes its stage; the windows and types follow. -/
theorem Windows.advance (windows : Windows cfg phase state)
    {blockIndex : Nat} {stage stage' : Stage}
    (fresh : phase.fresh = some (blockIndex, stage))
    (inUse : ∀ other, state.InUse other → updated.InUse other)
    (hot : cfg.hotColdSeparation = true →
      Lists .hot { phase with fresh := some (blockIndex, stage') } updated
        updated.hotWindow)
    (cool : cfg.hotColdSeparation = true →
      Lists .cool { phase with fresh := some (blockIndex, stage') } updated
        updated.coolDownWindow)
    (length_le : updated.coolDownWindow.length ≤ cfg.nCooldownBlocks)
    (roomy : stage' = .roomy →
      updated.coolDownWindow.length < cfg.nCooldownBlocks) :
    Windows cfg { phase with fresh := some (blockIndex, stage') }
      updated where
  victims_nodup := windows.victims_nodup
  victims_inUse := fun victim member =>
    inUse _ (windows.victims_inUse victim member)
  erasing_inUse := fun victim leaving =>
    (windows.erasing_inUse victim leaving).imp_left (inUse _)
  fresh_inUse := by
    intro other last entering
    cases entering
    exact (windows.fresh_inUse _ _ fresh).imp_left (inUse _)
  hot := hot
  cool := cool
  length_le := length_le
  roomy := by
    intro other entering
    cases entering
    exact roomy rfl

theorem Windows.demote (windows : Windows cfg phase state)
    {blockIndex front : Nat} {rest : List Nat} {block : Block}
    (separated : cfg.hotColdSeparation = true)
    (fresh : phase.fresh = some (blockIndex, .taken))
    (window : state.coolDownWindow = front :: rest)
    (found : state.blocks.lookup front = some block) :
    Windows cfg { phase with fresh := some (blockIndex, .roomy) }
      { state.setBlock front { block with blockType := .cold } with
        coolDownWindow := rest } := by
  have cool := windows.cool separated
  have length := windows.length_le
  rw [window] at cool length
  have nodup := List.nodup_cons.mp cool.nodup
  -- the front is a cool block, and it is not the one under way
  have front_ne : front ≠ blockIndex := by
    intro same
    have listed := (cool.mem_iff front).mp (.head _)
    rw [listed_fresh fresh, if_pos ⟨same, by simp⟩] at listed
    cases listed
  have front_cool : state.typeOf front = some .cool := by
    have listed := (cool.mem_iff front).mp (.head _)
    rw [listed_fresh fresh, if_neg fun both => front_ne both.1] at listed
    exact listed.1
  have types : ∀ other, State.typeOf
      { state.setBlock front { block with blockType := .cold } with
        coolDownWindow := rest } other =
      if other = front then some .cold else state.typeOf other :=
    State.typeOf_setBlock state front _
  refine windows.advance fresh
    (fun other used => State.inUse_setBlock.mpr (.inr used)) ?_ ?_ ?_ ?_
  · intro _
    refine (windows.hot separated).of_iff ?_
    intro other
    rw [listed_fresh rfl, listed_fresh fresh, types]
    by_cases same : other = front
    · subst same
      simp [front_ne, front_cool]
    · simp [same, Phase.Departing]
  · intro _
    refine ⟨nodup.2, ?_⟩
    intro other
    rw [listed_fresh rfl, types]
    by_cases same : other = front
    · subst same
      simp [front_ne, nodup.1]
    · have before := cool.mem_iff other
      rw [listed_fresh fresh] at before
      simpa [same, Phase.Departing] using before
  · simp only [List.length_cons] at length
    dsimp only
    omega
  · intro _
    simp only [List.length_cons] at length
    dsimp only
    omega

theorem Windows.spare (windows : Windows cfg phase state) {blockIndex : Nat}
    (fresh : phase.fresh = some (blockIndex, .taken))
    (short : state.coolDownWindow.length < cfg.nCooldownBlocks) :
    Windows cfg { phase with fresh := some (blockIndex, .roomy) } state := by
  have listed : ∀ blockType other,
      Listed blockType { phase with fresh := some (blockIndex, .roomy) } state
        other ↔ Listed blockType phase state other := by
    intro blockType other
    rw [listed_fresh rfl, listed_fresh fresh]
    simp [Phase.Departing]
  exact windows.advance fresh (fun _ used => used)
    (fun separated => (windows.hot separated).of_iff (listed .hot))
    (fun separated => (windows.cool separated).of_iff (listed .cool))
    windows.length_le fun _ => short

theorem Lists.push {blockType : BlockPoolType} {window : List Nat}
    {blockIndex : Nat} {stage : Stage}
    (lists : Lists blockType phase state window)
    (fresh : phase.fresh = some (blockIndex, stage))
    (early : stage = .taken ∨ stage = .roomy)
    (types : updated.typeOf = state.typeOf) :
    Lists blockType
      { phase with fresh := some (blockIndex, .queued blockType) } updated
      (window ++ [blockIndex]) := by
  have absent : blockIndex ∉ window := by
    intro member
    have listed := (lists.mem_iff blockIndex).mp member
    rw [listed_fresh fresh] at listed
    rcases early with rfl | rfl <;> simp at listed
  refine ⟨?_, ?_⟩
  · rw [List.nodup_append]
    refine ⟨lists.nodup, List.nodup_singleton _, ?_⟩
    intro other member last listed
    rw [List.mem_singleton.mp listed]
    intro same
    exact absent (same ▸ member)
  · intro other
    have before := lists.mem_iff other
    rw [listed_fresh fresh] at before
    rw [List.mem_append, before, listed_fresh rfl, types]
    by_cases same : other = blockIndex
    · simp [same]
    · simp [same, Phase.Departing]

theorem Lists.pass {blockType other : BlockPoolType} {window : List Nat}
    {blockIndex : Nat} {stage : Stage}
    (lists : Lists blockType phase state window)
    (fresh : phase.fresh = some (blockIndex, stage))
    (early : stage = .taken ∨ stage = .roomy) (different : other ≠ blockType)
    (types : updated.typeOf = state.typeOf) :
    Lists blockType { phase with fresh := some (blockIndex, .queued other) }
      updated window := by
  refine lists.of_iff ?_
  intro index
  rw [listed_fresh rfl, listed_fresh fresh, types]
  rcases early with rfl | rfl <;> simp [different, Phase.Departing]

theorem Windows.pushHot (windows : Windows cfg phase state)
    {blockIndex : Nat} (fresh : phase.fresh = some (blockIndex, .taken)) :
    Windows cfg { phase with fresh := some (blockIndex, .queued .hot) }
      { state with hotWindow := state.hotWindow ++ [blockIndex] } :=
  windows.advance fresh (fun _ used => used)
    (fun separated => (windows.hot separated).push fresh (.inl rfl) rfl)
    (fun separated => (windows.cool separated).pass fresh (.inl rfl)
      (by simp) rfl) windows.length_le (by simp)

theorem Windows.pushCool (windows : Windows cfg phase state)
    {blockIndex : Nat} (fresh : phase.fresh = some (blockIndex, .roomy)) :
    Windows cfg { phase with fresh := some (blockIndex, .queued .cool) }
      { state with
        coolDownWindow := state.coolDownWindow ++ [blockIndex] } := by
  have room := windows.roomy blockIndex fresh
  refine windows.advance fresh (fun _ used => used)
    (fun separated => (windows.hot separated).pass fresh (.inr rfl)
      (by simp) rfl)
    (fun separated => (windows.cool separated).push fresh (.inr rfl) rfl)
    ?_ (by simp)
  simp only [List.length_append, List.length_singleton]
  omega

theorem Windows.tag (windows : Windows cfg phase state) {blockIndex : Nat}
    {stage : Stage} {block : Block} (blockType : BlockPoolType)
    (fresh : phase.fresh = some (blockIndex, stage))
    (fits : stage = .queued blockType ∨
      (stage = .taken ∧ blockType = .cold)) :
    Windows cfg { phase with fresh := some (blockIndex, .ready) }
      (state.setBlock blockIndex { block with blockType := blockType }) := by
  have apart := (windows.fresh_inUse _ _ fresh).2
  have listed : ∀ other, other ≠ .cold → ∀ index,
      Listed other { phase with fresh := some (blockIndex, .ready) }
        (state.setBlock blockIndex { block with blockType := blockType })
        index ↔ Listed other phase state index := by
    intro other windowed index
    rw [listed_fresh rfl, listed_fresh fresh, State.typeOf_setBlock]
    unfold Phase.Departing at apart ⊢
    by_cases same : index = blockIndex
    · subst same
      rcases fits with rfl | ⟨rfl, rfl⟩
      · simp [apart]
      · simp [windowed.symm]
    · simp [same]
  exact windows.advance fresh
    (fun other used => State.inUse_setBlock.mpr (.inr used))
    (fun separated => (windows.hot separated).of_iff (listed .hot (by simp)))
    (fun separated => (windows.cool separated).of_iff
      (listed .cool (by simp)))
    windows.length_le (by simp)

theorem Windows.seat {phase' : Phase} (windows : Windows cfg phase state)
    {blockIndex : Nat}
    (fresh : phase.fresh = some (blockIndex, .ready))
    (seated : phase'.fresh = none)
    (victims : phase'.victims = phase.victims)
    (erasing : phase'.erasing = phase.erasing)
    (blocks_eq : updated.blocks = state.blocks)
    (hot : updated.hotWindow = state.hotWindow)
    (cool : updated.coolDownWindow = state.coolDownWindow) :
    Windows cfg phase' updated := by
  have inUse : updated.InUse = state.InUse := State.inUse_congr blocks_eq
  have types : updated.typeOf = state.typeOf := by
    unfold State.typeOf
    rw [blocks_eq]
  have listed : ∀ blockType other,
      Listed blockType phase' updated other ↔
        Listed blockType phase state other := by
    intro blockType other
    rw [listed_settled seated, listed_fresh fresh, types]
    simp [Phase.Departing, victims, erasing]
  refine { victims_nodup := by rw [victims]; exact windows.victims_nodup,
           victims_inUse := by rw [victims, inUse]; exact windows.victims_inUse,
           erasing_inUse := ?_, fresh_inUse := ?_, hot := ?_, cool := ?_,
           length_le := by rw [cool]; exact windows.length_le, roomy := ?_ }
  · rw [victims, erasing, inUse]
    exact windows.erasing_inUse
  · intro other stage entering
    rw [seated] at entering
    cases entering
  · intro separated
    rw [hot]
    exact (windows.hot separated).of_iff (listed .hot)
  · intro separated
    rw [cool]
    exact (windows.cool separated).of_iff (listed .cool)
  · intro other entering
    rw [seated] at entering
    cases entering

/-- Victims are chosen while nothing else is under way. -/
theorem Windows.choose (windows : Windows cfg phase state)
    (settled : phase.Settled) (idle : phase.victims = [])
    {victims : List Nat} (nodup : victims.Nodup)
    (inUse : ∀ victim ∈ victims, state.InUse victim)
    (blocks_eq : updated.blocks = state.blocks)
    (hot : cfg.hotColdSeparation = true → updated.hotWindow.Nodup ∧
      ∀ blockIndex, blockIndex ∈ updated.hotWindow ↔
        blockIndex ∈ state.hotWindow ∧
          ¬ (blockIndex ∈ victims ∧ state.typeOf blockIndex = some .hot))
    (cool : cfg.hotColdSeparation = true → updated.coolDownWindow.Nodup ∧
      ∀ blockIndex, blockIndex ∈ updated.coolDownWindow ↔
        blockIndex ∈ state.coolDownWindow ∧
          ¬ (blockIndex ∈ victims ∧ state.typeOf blockIndex = some .cool))
    (length : updated.coolDownWindow.length ≤ state.coolDownWindow.length) :
    Windows cfg { phase with victims := victims } updated := by
  have same : updated.InUse = state.InUse := State.inUse_congr blocks_eq
  have types : updated.typeOf = state.typeOf := by
    unfold State.typeOf
    rw [blocks_eq]
  have chosen : { phase with victims := victims : Phase }.fresh = none :=
    settled.fresh
  have before : ∀ blockType other, Listed blockType phase state other ↔
      state.typeOf other = some blockType := by
    intro blockType other
    rw [listed_settled settled.fresh]
    simp [Phase.Departing, idle, settled.erasing]
  have listed : ∀ blockType other,
      Listed blockType { phase with victims := victims } updated other ↔
        state.typeOf other = some blockType ∧ other ∉ victims := by
    intro blockType other
    rw [listed_settled chosen, types]
    simp [Phase.Departing, settled.erasing]
  have lists : ∀ {blockType : BlockPoolType} {window window' : List Nat},
      Lists blockType phase state window → window'.Nodup →
      (∀ other, other ∈ window' ↔ other ∈ window ∧
        ¬ (other ∈ victims ∧ state.typeOf other = some blockType)) →
      Lists blockType { phase with victims := victims } updated window' := by
    intro blockType window window' old nodup' members
    refine ⟨nodup', ?_⟩
    intro other
    rw [members, old.mem_iff, before, listed]
    tauto
  refine { victims_nodup := nodup, victims_inUse := ?_, erasing_inUse := ?_,
           fresh_inUse := ?_, hot := ?_, cool := ?_,
           length_le := length.trans windows.length_le, roomy := ?_ }
  · rw [same]
    exact inUse
  · intro victim leaving
    dsimp only at leaving
    rw [settled.erasing] at leaving
    cases leaving
  · intro other stage entering
    dsimp only at entering
    rw [settled.fresh] at entering
    cases entering
  · intro separated
    obtain ⟨nodup', members⟩ := hot separated
    exact lists (windows.hot separated) nodup' members
  · intro separated
    obtain ⟨nodup', members⟩ := cool separated
    exact lists (windows.cool separated) nodup' members
  · intro other entering
    dsimp only at entering
    rw [settled.fresh] at entering
    cases entering

theorem eraseAll_nodup {window : List Nat} (nodup : window.Nodup)
    (victims : List Nat) :
    (victims.foldl (fun window victim => window.erase victim)
        window).Nodup ∧
      ∀ other, other ∈ victims.foldl
          (fun window victim => window.erase victim) window ↔
        other ∈ window ∧ other ∉ victims := by
  induction victims generalizing window with
  | nil => simp [nodup]
  | cons victim rest induction =>
      obtain ⟨kept, members⟩ := induction (nodup.erase victim)
      refine ⟨kept, ?_⟩
      intro other
      rw [List.foldl_cons, members, nodup.mem_erase_iff, List.mem_cons]
      tauto

theorem eraseAll_length (victims : List Nat) (window : List Nat) :
    (victims.foldl (fun window victim => window.erase victim)
      window).length ≤ window.length := by
  induction victims generalizing window with
  | nil => exact Nat.le_refl _
  | cons victim rest induction =>
      exact (induction _).trans (List.length_erase_le)

theorem Windows.type_of_listed {blockType : BlockPoolType}
    {window : List Nat} (lists : Lists blockType phase state window)
    (settled : phase.fresh = none) {blockIndex : Nat}
    (member : blockIndex ∈ window) :
    state.typeOf blockIndex = some blockType :=
  ((listed_settled settled).mp ((lists.mem_iff blockIndex).mp member)).1

theorem Windows.select (windows : Windows cfg phase state)
    (settled : phase.Settled) (idle : phase.victims = [])
    {victims window : List Nat} (nodup : victims.Nodup)
    (full : ∀ victim ∈ victims, ∃ block,
      state.blocks.lookup victim = some block ∧ block.Full cfg)
    (windowed : window = if cfg.hotColdSeparation then
        victims.foldl (fun window victim => window.erase victim)
          state.coolDownWindow
      else state.coolDownWindow)
    (cold : cfg.hotColdSeparation = true →
      ∀ victim ∈ victims, state.typeOf victim ≠ some .hot) :
    Windows cfg { phase with victims := victims }
      { state with
        bReclaimMore := false
        selections := state.selections + 1
        coolDownWindow := window } := by
  refine windows.choose settled idle nodup ?_ rfl ?_ ?_ ?_
  · intro victim member
    obtain ⟨block, found, _⟩ := full victim member
    exact ⟨block, found⟩
  · intro separated
    refine ⟨(windows.hot separated).nodup, ?_⟩
    intro other
    refine (and_iff_left_of_imp ?_).symm
    intro _ ⟨member, hot⟩
    exact cold separated other member hot
  · intro separated
    subst windowed
    rw [if_pos separated]
    have lists := windows.cool separated
    obtain ⟨kept, members⟩ := eraseAll_nodup lists.nodup victims
    refine ⟨kept, ?_⟩
    intro other
    rw [members]
    refine and_congr_right fun member => not_congr ?_
    exact (and_iff_left
      (Windows.type_of_listed lists settled.fresh member)).symm
  · subst windowed
    dsimp only
    split
    · exact eraseAll_length victims _
    · exact Nat.le_refl _

theorem Windows.selectHot (windows : Windows cfg phase state)
    (settled : phase.Settled) (idle : phase.victims = []) (amount : Nat)
    (separated : cfg.hotColdSeparation = true) :
    Windows cfg { phase with victims := state.hotWindow.take amount }
      { state with
        bReclaimMore := false
        hotWindow := state.hotWindow.drop amount } := by
  have lists := windows.hot separated
  have typed : ∀ victim ∈ state.hotWindow.take amount,
      state.typeOf victim = some .hot := fun victim member =>
    Windows.type_of_listed lists settled.fresh (List.mem_of_mem_take member)
  have parted : (state.hotWindow.take amount ++
      state.hotWindow.drop amount).Nodup := by
    rw [List.take_append_drop]
    exact lists.nodup
  obtain ⟨taken, dropped, apart⟩ := List.nodup_append.mp parted
  refine windows.choose settled idle taken ?_ rfl ?_ ?_ (Nat.le_refl _)
  · intro victim member
    exact State.inUse_iff_typeOf.mpr ⟨_, typed victim member⟩
  · intro _
    refine ⟨dropped, ?_⟩
    intro other
    have split : other ∈ state.hotWindow ↔
        other ∈ state.hotWindow.take amount ∨
          other ∈ state.hotWindow.drop amount := by
      rw [← List.mem_append, List.take_append_drop]
    rw [split]
    constructor
    · intro member
      exact ⟨.inr member, fun ⟨early, _⟩ => apart other early other member rfl⟩
    · intro ⟨member, rest⟩
      rcases member with early | late
      · exact absurd ⟨early, typed other early⟩ rest
      · exact late
  · intro _
    refine ⟨(windows.cool separated).nodup, ?_⟩
    intro other
    refine (and_iff_left_of_imp ?_).symm
    intro _ ⟨member, cool⟩
    rw [typed other member] at cool
    cases cool

theorem Windows.collect (windows : Windows cfg phase state)
    (settled : phase.Settled) (idle : phase.victims = [])
    {victims : List Nat} (safe : SafeVictims cfg state victims) :
    Windows cfg { phase with victims := victims } state := by
  refine windows.choose settled idle safe.nodup safe.inUse rfl ?_ ?_
    (Nat.le_refl _)
  · intro separated
    refine ⟨(windows.hot separated).nodup, ?_⟩
    intro other
    refine (and_iff_left_of_imp ?_).symm
    intro member ⟨victim, _⟩
    exact safe.notHot other victim member
  · intro separated
    refine ⟨(windows.cool separated).nodup, ?_⟩
    intro other
    refine (and_iff_left_of_imp ?_).symm
    intro member ⟨victim, _⟩
    exact safe.notCool other victim member

theorem Windows.wipe (windows : Windows cfg phase state)
    {victim : Nat} {rest : List Nat} {block : Block}
    (idle : phase.erasing = none) (next : phase.victims = victim :: rest)
    (found : state.blocks.lookup victim = some block) :
    Windows cfg
      { phase with
        victims := rest, erasing := some victim, repaired := false }
      (state.setBlock victim block.erase) := by
  have inUse : (state.setBlock victim block.erase).InUse = state.InUse :=
    State.inUse_setBlock_same ⟨block, found⟩
  have types : (state.setBlock victim block.erase).typeOf = state.typeOf :=
    State.typeOf_setBlock_same found rfl
  have nodup := windows.victims_nodup
  rw [next] at nodup
  obtain ⟨apart, nodup⟩ := List.nodup_cons.mp nodup
  have departing : ∀ other, Phase.Departing { phase with
      victims := rest, erasing := some victim, repaired := false } other ↔
        phase.Departing other := by
    intro other
    unfold Phase.Departing
    rw [next, idle]
    simp only [List.mem_cons, Option.some.injEq, reduceCtorEq, or_false,
      @eq_comm _ victim other]
    exact or_comm
  have listed : ∀ blockType other, Listed blockType { phase with
      victims := rest, erasing := some victim, repaired := false }
      (state.setBlock victim block.erase) other ↔
        Listed blockType phase state other := by
    intro blockType other
    unfold Listed
    rw [types, departing]
    rfl
  refine { victims_nodup := nodup, victims_inUse := ?_, erasing_inUse := ?_,
           fresh_inUse := ?_,
           hot := fun separated => (windows.hot separated).of_iff (listed .hot),
           cool := fun separated =>
             (windows.cool separated).of_iff (listed .cool),
           length_le := windows.length_le, roomy := windows.roomy }
  · rw [inUse]
    exact fun other member => windows.victims_inUse other
      (by rw [next]; exact .tail _ member)
  · intro other leaving
    cases leaving
    rw [inUse]
    exact ⟨⟨block, found⟩, apart⟩
  · intro other stage entering
    rw [departing, inUse]
    exact windows.fresh_inUse other stage entering

theorem Windows.drop (windows : Windows cfg phase state) {victim : Nat}
    (erasing : phase.erasing = some victim)
    (blocks_eq : updated.blocks = state.blocks.erase victim)
    (hot : updated.hotWindow = state.hotWindow)
    (cool : updated.coolDownWindow = state.coolDownWindow) :
    Windows cfg { phase with erasing := none, repaired := false } updated := by
  have inUse : ∀ other, other ≠ victim → state.InUse other →
      updated.InUse other := fun other different used =>
    (State.inUse_of_erase blocks_eq other).mpr ⟨different, used⟩
  have leaving : phase.Departing victim := .inr erasing
  have listed : ∀ blockType other, Listed blockType
      { phase with erasing := none, repaired := false } updated other ↔
        Listed blockType phase state other := by
    intro blockType other
    unfold Listed
    rw [State.typeOf_erase blocks_eq]
    by_cases same : other = victim
    · subst same
      simp [leaving]
    · have different : victim ≠ other := fun equal => same equal.symm
      simp [same, Phase.Departing, Phase.Arriving, erasing, different]
  refine { victims_nodup := windows.victims_nodup, victims_inUse := ?_,
           erasing_inUse := fun other gone => (by cases gone),
           fresh_inUse := ?_, hot := ?_, cool := ?_,
           length_le := by rw [cool]; exact windows.length_le,
           roomy := by rw [cool]; exact windows.roomy }
  · intro other member
    refine inUse other ?_ (windows.victims_inUse other member)
    intro same
    exact (windows.erasing_inUse victim erasing).2 (same ▸ member)
  · intro other stage entering
    obtain ⟨used, apart⟩ := windows.fresh_inUse other stage entering
    refine ⟨inUse other ?_ used, ?_⟩
    · intro same
      exact apart (same ▸ leaving)
    · intro departing
      rcases departing with member | gone
      · exact apart (.inl member)
      · cases gone
  · rw [hot]
    exact fun separated => (windows.hot separated).of_iff (listed .hot)
  · rw [cool]
    exact fun separated => (windows.cool separated).of_iff (listed .cool)

theorem Windows.step {before after : Phase × State}
    (step : Step cfg env allow before after) (pools : Pools cfg before.2)
    (own : ¬ allow.foreign) (windows : Windows cfg before.1 before.2) :
    Windows cfg after.1 after.2 := by
  have retyped : ∀ {state : State} {blockIndex : Nat} {block version : Block},
      state.blocks.lookup blockIndex = some block →
      version.blockType = block.blockType →
      (state.setBlock blockIndex version).typeOf = state.typeOf :=
    State.typeOf_setBlock_same
  cases step with
  | quiet same =>
      refine windows.of_agree ?_ same.hotWindow_eq same.coolDownWindow_eq rfl
        rfl rfl
      unfold State.typeOf
      dsimp only
      rw [same.blocks_eq]
  | take idle pool block member absent counted =>
      exact windows.take idle absent rfl rfl rfl
  | touch refreshedPageCount found =>
      refine windows.of_agree ?_ rfl rfl rfl rfl rfl
      exact retyped found rfl
  | demote fresh window found =>
      have separated := (pools.coolRegion _ (by rw [window]; exact .head _)).1
      exact windows.demote separated fresh window found
  | spare fresh short => exact windows.spare fresh short
  | pushHot fresh separated region inUse => exact windows.pushHot fresh
  | pushCool fresh separated region inUse => exact windows.pushCool fresh
  | tag blockType fresh fits region found =>
      exact windows.tag blockType fresh fits
  | accept fresh plain =>
      refine windows.advance fresh (fun _ used => used) ?_ ?_
        windows.length_le (by simp)
      · intro separated
        rw [plain] at separated
        cases separated
      · intro separated
        rw [plain] at separated
        cases separated
  | seat pool index reclaimMore fresh admits inUse =>
      exact windows.seat fresh rfl rfl rfl rfl rfl rfl
  | repair pool index fresh admits inUse erasing named =>
      exact windows.seat fresh rfl rfl rfl rfl rfl rfl
  | invalidate mapped inside located found valid stores =>
      refine windows.of_agree ?_ rfl rfl rfl rfl rfl
      exact retyped found rfl
  | program aimed found inside waits mapped written scheduled =>
      obtain ⟨_, _, _, _, version⟩ := Block.write_ok written
      refine windows.of_agree ?_ rfl rfl rfl rfl rfl
      exact retyped found (by rw [version])
  | programHot allowed aimed found inside waits mapped written =>
      obtain ⟨_, _, _, _, version⟩ := Block.write_ok written
      refine windows.of_agree ?_ rfl rfl rfl rfl rfl
      exact retyped found (by rw [version])
  | select allowed settled idle victims window nodup full windowed cold =>
      refine windows.select settled idle nodup full windowed ?_
      intro separated victim member hot
      obtain ⟨block, found, _⟩ := full victim member
      have typed := pools.typed separated _ _ found
      have kind : block.blockType = .hot := by
        simpa [State.typeOf, found] using hot
      rw [kind] at typed
      exact absurd typed (Nat.not_lt.mpr (cold separated victim member))
  | selectHot allowed settled idle amount separated =>
      exact windows.selectHot settled idle amount separated
  | collect settled idle victims allowed =>
      exact windows.collect settled idle (allowed.resolve_left own)
  | wipe allowed idle next found nothing => exact windows.wipe idle next found
  | release pool erasing found empty takes placed =>
      exact windows.drop erasing rfl rfl rfl
  | retire erasing found empty => exact windows.drop erasing rfl rfl rfl
  | _ => exact windows.of_agree rfl rfl rfl rfl rfl rfl

theorem windows_invariant (cfg : Config) (env : Environment)
    (allow : Allowance) (own : ¬ allow.foreign) :
    (machine cfg env allow).Invariant fun config =>
      Windows cfg config.1 config.2 :=
  fun _ _ step sound windows => windows.step step sound.1 own

theorem blankState_windows (cfg : Config) :
    Windows cfg (.rest ∅) (blankState cfg) where
  victims_nodup := List.nodup_nil
  victims_inUse := fun _ member => by cases member
  erasing_inUse := fun _ leaving => by cases leaving
  fresh_inUse := fun _ _ entering => by cases entering
  hot := fun _ => ⟨List.nodup_nil, fun blockIndex => by
    rw [listed_settled rfl]
    simp [blankState, State.typeOf]⟩
  cool := fun _ => ⟨List.nodup_nil, fun blockIndex => by
    rw [listed_settled rfl]
    simp [blankState, State.typeOf]⟩
  length_le := Nat.zero_le _
  roomy := fun _ entering => by cases entering

theorem Windows.cool_inUse (windows : Windows cfg phase state)
    (pools : Pools cfg state) {blockIndex : Nat}
    (member : blockIndex ∈ state.coolDownWindow) :
    state.InUse blockIndex := by
  have separated := (pools.coolRegion blockIndex member).1
  rcases ((windows.cool separated).mem_iff blockIndex).mp member with
    ⟨typed, _⟩ | queued
  · exact State.inUse_iff_typeOf.mpr ⟨_, typed⟩
  · exact (windows.fresh_inUse _ _ queued).1

def lostBlocks : List Panic :=
  [.coolBlockLost, .invalidBlock, .invalidBlockInGC]

theorem Windows.nothing_lost (windows : Windows cfg phase state)
    (pools : Pools cfg state) {raised : Panic}
    (cause : Cause cfg env allow phase state raised) :
    raised ∉ lostBlocks := by
  cases cause with
  | coolBlockLost window absent =>
      have used := windows.cool_inUse pools (by rw [window]; exact .head _)
      exact absurd absent (fun missing => State.not_inUse.mpr missing used)
  | victimMissing member absent text =>
      exact absurd (windows.victims_inUse _ member) (State.not_inUse.mpr absent)
  | corrupted pool => cases pool <;> decide
  | unscheduled inside failed =>
      rcases RefreshQueue.setRefreshPeriod_error failed with rfl | rfl <;>
        decide
  | unmapped mapped inside nowhere settled text =>
      rcases text with rfl | rfl <;> decide
  | refused allowed member =>
      intro lost
      revert member
      unfold lostBlocks at lost
      simp only [List.mem_cons, List.not_mem_nil, or_false] at lost
      rcases lost with rfl | rfl | rfl <;> decide
  | _ => decide

def Op.Own : Op → Prop
  | .gc _ | .format _ _ => False
  | .initializeFTL | .read _ _ | .write _ _ | .trim _ | .refresh => True

def Allowance.own : Allowance where
  policy := True
  setup := True
  plainFill := True
  hotFill := True
  foreign := False
  refreshing := True

theorem Op.Own.allowed {op : Op} (own : op.Own) :
    op.Allowed cfg env .own := by
  cases op with
  | initializeFTL =>
      exact ⟨trivial, fills_allowed (fun _ _ => trivial) fun _ => trivial⟩
  | gc | format => exact own.elim
  | read | write | trim | refresh => trivial

/-- With separation, between the operations of every life the windows list
exactly the HOT and the COOL blocks in use, and no block that is looked up there
is missing. -/
theorem window_exactness (cfg : Config) (env : Environment) (ops : List Op)
    (separated : cfg.hotColdSeparation = true)
    (own : ∀ op ∈ ops, op.Own) :
    match outcome cfg env ops with
    | .ok _ final =>
        (final.hotWindow.Nodup ∧ ∀ blockIndex,
          blockIndex ∈ final.hotWindow ↔ ∃ block,
            final.blocks.lookup blockIndex = some block ∧
              block.blockType = .hot) ∧
        (final.coolDownWindow.Nodup ∧ ∀ blockIndex,
          blockIndex ∈ final.coolDownWindow ↔ ∃ block,
            final.blocks.lookup blockIndex = some block ∧
              block.blockType = .cool) ∧
        final.coolDownWindow.length ≤ cfg.nCooldownBlocks
    | .error raised _ =>
        raised ≠ .coolBlockLost ∧ raised ≠ .invalidBlockInGC := by
  have meets := life_meets trivial (fun op member => (own op member).allowed)
    (windows_invariant cfg env .own id)
    (blankState_windows cfg)
  cases result : outcome cfg env ops with
  | ok value final =>
      obtain ⟨_, _, windows⟩ := meets.of_ok result
      have exactly : ∀ {blockType : BlockPoolType} {window : List Nat},
          Lists blockType (.rest (ops.foldl (Op.effect cfg env) ∅)) final
            window →
          ∀ blockIndex, blockIndex ∈ window ↔ ∃ block,
            final.blocks.lookup blockIndex = some block ∧
              block.blockType = blockType := by
        intro blockType window lists blockIndex
        rw [lists.mem_iff, listed_settled rfl]
        simp [State.typeOf, Phase.Departing, Phase.rest]
      have hot := windows.hot separated
      have cool := windows.cool separated
      exact ⟨⟨hot.nodup, exactly hot⟩, ⟨cool.nodup, exactly cool⟩,
        windows.length_le⟩
  | error raised stopped =>
      obtain ⟨phase, state, pools, _, windows, _, cause⟩ :=
        meets.of_error result
      have present := windows.nothing_lost pools cause
      constructor
      · intro same
        exact present (same ▸ by decide)
      · intro same
        exact present (same ▸ by decide)

theorem window_exactness_sample :
    ∃ final, outcome separatedConfig sampleEnvironment
        [.initializeFTL, writePage 0] = .ok () final ∧
      (∃ block, final.blocks.lookup 2 = some block ∧
        block.blockType = .cool) ∧ 2 ∈ final.coolDownWindow := by
  have windows := window_exactness separatedConfig sampleEnvironment
    [.initializeFTL, writePage 0] rfl (by simp [writePage, Op.Own])
  have evaluated : returns (outcome separatedConfig sampleEnvironment
      [.initializeFTL, writePage 0])
      (fun final => final.coolDownWindow = [2]) = true := by
    decide +kernel
  obtain ⟨final, result, test⟩ := returns_iff.mp evaluated
  rw [result] at windows
  have member : 2 ∈ final.coolDownWindow := by
    rw [of_decide_eq_true test]
    exact .head _
  exact ⟨final, result, (windows.2.1.2 2).mp member, member⟩

end SimpleSSD.FTL
