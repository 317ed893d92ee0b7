import SimpleSSD.FTL.Operation

namespace SimpleSSD.FTL

open Machine Program

/-! Whole lives of the FTL as runs of the machine. -/

variable {cfg : Config} {env : Environment} {allow : Allowance}
  {state : State} {mapped : Set (Nat × Nat)}

/-! What the operations do to the set of mapped logical units, and the runs that
they need permission for. -/

def Op.effect (cfg : Config) (env : Environment) (mapped : Set (Nat × Nat)) :
    Op → Set (Nat × Nat)
  | .initializeFTL => mapped ∪ filledUnits cfg (fills cfg env)
  | .read _ _ => mapped
  | .write lpn flag =>
      if 0 < flag.count cfg.ioUnitInPage then
        mapped ∪ touchedUnits cfg lpn flag
      else mapped
  | .trim lpn => mapped \ { unit | unit.1 = lpn }
  | .gc _ => mapped
  | .refresh => mapped
  | .format slpn nlp => mapped \ { unit | inRange slpn nlp unit.1 = true }

def Op.Allowed (cfg : Config) (env : Environment) (allow : Allowance) :
    Op → Prop
  | .initializeFTL => allow.setup ∧
      ∀ filling ∈ fills cfg env, filling.Allowed cfg allow
  | .gc _ => allow.foreign
  | .format _ _ => allow.foreign
  | .refresh => allow.refreshing
  | .read _ _ | .write _ _ | .trim _ => True

theorem perform_follows (op : Op) (policy : allow.policy)
    (allowed : op.Allowed cfg env allow) :
    (machine cfg env allow).Follows (perform cfg env op) (.rest mapped) state
      fun _ last _ => last = .rest (op.effect cfg env mapped) := by
  cases op with
  | initializeFTL => exact initializeFTL_follows policy allowed.1 allowed.2
  | read lpn flag => exact read_follows lpn flag
  | write lpn flag => exact write_follows lpn flag policy
  | trim lpn => exact trim_follows lpn
  | gc victims =>
      exact (collectGiven_follows (.inl policy) (.inl allowed)).mono
        fun _ _ _ _ _ post => post.1
  | refresh => exact refreshEvent_follows policy allowed
  | format slpn nlp =>
      exact format_follows slpn nlp (.inl policy) (.inl allowed)

theorem performs_follow {ops : List Op} (policy : allow.policy)
    (allowed : ∀ op ∈ ops, op.Allowed cfg env allow) :
    (machine cfg env allow).Follows (ops.forM (perform cfg env))
      (.rest mapped) state
      fun _ last _ => last = .rest (ops.foldl (Op.effect cfg env) mapped) := by
  induction ops generalizing mapped state with
  | nil => exact Follows.pure rfl
  | cons op rest induction =>
      refine Follows.bind (perform_follows op policy (allowed op (.head _))) ?_
      rintro _ _ final rfl
      exact induction fun other member => allowed other (.tail _ member)

theorem life_follows {ops : List Op} (policy : allow.policy)
    (allowed : ∀ op ∈ ops, op.Allowed cfg env allow) :
    (machine cfg env allow).Follows (life cfg env ops) (.rest mapped) state
      fun _ last _ => last = .rest (ops.foldl (Op.effect cfg env) mapped) := by
  unfold life
  refine Follows.bind construct_follows ?_
  intro _ _ final ⟨same, _⟩
  subst same
  exact performs_follow policy allowed

/-! The blank members are a sound start. -/

private theorem map_make_idx (indices : List Nat) (pages units erases : Nat)
    (blockType : BlockPoolType) :
    (indices.map fun idx =>
      Block.make idx pages units erases blockType).map (·.idx) = indices := by
  rw [List.map_map]
  exact List.map_id _

theorem blankState_homes (cfg : Config) :
    homes (blankState cfg) = List.range cfg.totalPhysicalBlocks := by
  have bound := cfg.hotBlocksLimit_le
  have whole : List.range cfg.hotBlocksLimit ++ List.range' cfg.hotBlocksLimit
      (cfg.totalPhysicalBlocks - cfg.hotBlocksLimit) =
        List.range cfg.totalPhysicalBlocks := by
    have joined := @List.range'_append_1 0 cfg.hotBlocksLimit
      (cfg.totalPhysicalBlocks - cfg.hotBlocksLimit)
    rw [Nat.zero_add, Nat.add_sub_cancel' bound] at joined
    rw [List.range_eq_range', List.range_eq_range', joined]
  unfold homes freeIndices FreeList.indices blankState
  cases separated : cfg.hotColdSeparation with
  | false =>
      simp only [Bool.false_eq_true, if_false, map_make_idx]
      simp
  | true =>
      simp only [if_true, map_make_idx]
      simpa using whole

/-- Every block of a blank free list is new and on its side of the limit. -/
theorem blankState_free (cfg : Config) (pool : FreePool) :
    ∀ block ∈ ((blankState cfg).free pool).blocks, ∃ idx blockType,
      block = Block.make idx cfg.pagesInBlock cfg.ioUnitInPage
        cfg.initEraseCount blockType ∧ pool.Holds cfg idx ∧
      (cfg.hotColdSeparation = true → Region cfg blockType idx) := by
  intro block member
  unfold blankState at member
  dsimp only at member
  split at member
  · next separated =>
      cases pool with
      | plain => cases member
      | hot =>
          obtain ⟨idx, listed, rfl⟩ := List.mem_map.mp member
          have below := List.mem_range.mp listed
          exact ⟨idx, .hot, rfl, ⟨separated, below⟩, fun _ => below⟩
      | cold =>
          obtain ⟨idx, listed, rfl⟩ := List.mem_map.mp member
          have above := (List.mem_range'_1.mp listed).1
          exact ⟨idx, .cold, rfl, ⟨separated, above⟩, fun _ => above⟩
  · next plain =>
      cases pool with
      | plain =>
          obtain ⟨idx, _, rfl⟩ := List.mem_map.mp member
          exact ⟨idx, .cold, rfl, Bool.eq_false_iff.mpr plain,
            fun separated => absurd separated plain⟩
      | hot => cases member
      | cold => cases member

theorem blankState_pools (cfg : Config) : Pools cfg (blankState cfg) where
  homes_perm := by rw [blankState_homes]
  idx_eq := fun _ _ found => by cases found
  wellFormed := fun _ _ found => by cases found
  rested := by
    intro pool block member
    obtain ⟨idx, blockType, rfl, _⟩ := blankState_free cfg pool block member
    exact ⟨Block.make_wellFormed cfg idx _ blockType, Block.make_empty ..⟩
  housed := by
    intro pool block member
    obtain ⟨idx, blockType, rfl, holds, _⟩ :=
      blankState_free cfg pool block member
    exact holds
  freeTyped := by
    intro separated pool block member
    obtain ⟨idx, blockType, rfl, _, region⟩ :=
      blankState_free cfg pool block member
    exact region separated
  counted := by
    intro pool used
    unfold freePools at used
    unfold blankState
    dsimp only
    split
    · next separated =>
        rw [if_pos separated] at used
        cases pool with
        | plain => simp at used
        | hot => simp
        | cold => simp
    · next plain =>
        rw [if_neg plain] at used
        cases pool with
        | plain => simp
        | hot => simp
        | cold => simp
  typed := fun _ _ _ found => by cases found
  hotRegion := fun _ member => by cases member
  coolRegion := fun _ member => by cases member
  slots := fun _ => List.length_replicate
  cursor := fun _ => cfg.pageCountToMaxPerf_pos

theorem blankState_maps (cfg : Config) :
    Maps cfg (.rest ∅) (blankState cfg) where
  entry := fun _ _ found => by cases found
  backed := fun _ _ found => by cases found
  stored := fun _ _ _ _ ⟨_, found, _⟩ => by cases found
  waits := fun _ _ waits => waits.elim
  whole := fun _ _ _ found => by cases found
  mapped_iff := fun _ _ =>
    ⟨fun member => member.elim, fun ⟨_, _, found, _⟩ => by cases found⟩

theorem machine_trivial (cfg : Config) (env : Environment)
    (allow : Allowance) : (machine cfg env allow).Invariant fun _ => True :=
  fun _ _ _ _ _ => trivial

def Allowance.all : Allowance where
  policy := True
  setup := True
  plainFill := True
  hotFill := True
  foreign := True
  refreshing := True

/-- Only the separated filling uses the cool and the hot pool. -/
theorem fills_separated {filling : FillWrite}
    (member : filling ∈ fills cfg env)
    (pooled : ∀ lpn, filling ≠ .plain lpn) :
    cfg.hotColdSeparation = true := by
  by_contra plain
  unfold fills fillingWrites invalidatingWrites at member
  rw [if_neg plain] at member
  cases mode : cfg.fillingMode <;> rw [mode] at member <;>
    rcases List.mem_append.mp member with listed | listed <;>
    obtain ⟨draw, _, rfl⟩ := List.mem_map.mp listed <;>
    exact pooled _ rfl

theorem fills_allowed
    (plainFill : cfg.hotColdSeparation = true →
      (∃ lpn, .plain lpn ∈ fills cfg env) → allow.plainFill)
    (hotFill : (∃ lpn, .hot lpn ∈ fills cfg env) → allow.hotFill) :
    ∀ filling ∈ fills cfg env, filling.Allowed cfg allow := by
  intro filling member
  cases filling with
  | plain lpn =>
      cases separated : cfg.hotColdSeparation with
      | false => exact .inl separated
      | true => exact .inr (plainFill separated ⟨lpn, member⟩)
  | cool lpn => exact fills_separated member (by simp)
  | hot lpn =>
      exact ⟨fills_separated member (by simp), hotFill ⟨lpn, member⟩⟩

theorem Op.allowed_all (op : Op) : op.Allowed cfg env .all := by
  cases op with
  | initializeFTL =>
      exact ⟨trivial, fills_allowed (fun _ _ => trivial) fun _ => trivial⟩
  | read | write | trim | gc | refresh | format => trivial

theorem life_meets {invariant : Phase × State → Prop} {ops : List Op}
    (policy : allow.policy)
    (allowed : ∀ op ∈ ops, op.Allowed cfg env allow)
    (kept : (machine cfg env allow).Invariant invariant)
    (start : invariant (.rest ∅, blankState cfg)) :
    Program.Meets (life cfg env ops) (blankState cfg)
      (fun _ final =>
        Pools cfg final ∧
        Maps cfg (.rest (ops.foldl (Op.effect cfg env) ∅)) final ∧
        invariant (.rest (ops.foldl (Op.effect cfg env) ∅), final))
      (fun raised stopped => ∃ phase state, Pools cfg state ∧
        Maps cfg phase state ∧ invariant (phase, state) ∧
        SameHistory cfg state stopped ∧
        Cause cfg env allow phase state raised) := by
  have follows : (machine cfg env allow).Follows (life cfg env ops) (.rest ∅)
      (blankState cfg) _ := life_follows policy allowed
  refine (follows.meets kept ⟨blankState_pools cfg, blankState_maps cfg⟩
    start).mono ?_ ?_
  · intro _ final ⟨last, sound, holds, same⟩
    subst same
    exact ⟨sound.1, sound.2, holds⟩
  · intro raised stopped ⟨reached, sound, holds, history, cause⟩
    exact ⟨reached.1, reached.2, sound.1, sound.2, holds, history, cause⟩

/-- Every life is a run of the machine in which every step is allowed. -/
theorem outcome_meets (cfg : Config) (env : Environment) (ops : List Op) :
    Program.Meets (life cfg env ops) (blankState cfg)
      (fun _ final => Pools cfg final ∧
        Maps cfg (.rest (ops.foldl (Op.effect cfg env) ∅)) final)
      (fun raised _ => ∃ phase state,
        Cause cfg env .all phase state raised) := by
  have kept : (machine cfg env .all).Invariant fun _ => True :=
    machine_trivial cfg env .all
  refine (life_meets trivial (fun op _ => op.allowed_all) kept trivial).mono
    ?_ ?_
  · intro _ final ⟨pools, maps, _⟩
    exact ⟨pools, maps⟩
  · intro raised stopped ⟨phase, state, _, _, _, _, cause⟩
    exact ⟨phase, state, cause⟩

/-! The constructor, apart from the life that follows it. -/

def allocationPanics : List Panic :=
  [.indexOutOfRange, .noFreeBlockLeft, .noFreeColdBlockLeft,
    .corruptedFreeList, .hotAlreadyInBlockList, .coldAlreadyInBlockList,
    .coolBlockLost, .invalidIterator]

theorem findBlock_raises (blockIndex : Nat) {missing : Panic}
    (member : missing ∈ allocationPanics) :
    Raises (findBlock blockIndex missing) allocationPanics := by
  refine Raises.get.bind fun state => ?_
  split
  · exact Raises.pure _
  · exact Raises.throw member

theorem updateBlock_raises (blockIndex : Nat) (update : Block → Block) :
    Raises (updateBlock blockIndex update) allocationPanics :=
  (findBlock_raises blockIndex (by decide)).bind fun _ => Raises.modify _

theorem takeFreeBlock_raises (cfg : Config) (pool : FreePool)
    {noneLeft inUse : Panic} (idx : Nat)
    (noneLeft_mem : noneLeft ∈ allocationPanics)
    (inUse_mem : inUse ∈ allocationPanics) :
    Raises (takeFreeBlock cfg pool noneLeft inUse idx) allocationPanics := by
  unfold takeFreeBlock
  dsimp only
  split
  · exact Raises.throwBind (by decide)
  refine Raises.get.bind fun state => ?_
  split
  · exact Raises.throwBind noneLeft_mem
  split
  · exact Raises.throw (by decide)
  · split
    · exact Raises.throwBind inUse_mem
    · exact (Raises.set _).bind fun _ => (Raises.modify _).bind fun _ =>
        Raises.pure _

theorem demoteCoolFront_raises (cfg : Config) :
    Raises (demoteCoolFront cfg) allocationPanics := by
  refine Raises.get.bind fun state => ?_
  split
  · split
    · exact Raises.throw (by decide)
    · exact (findBlock_raises _ (by decide)).bind fun _ => Raises.set _
  · exact Raises.pure _

theorem getBlockFor_raises (cfg : Config) (pool : ActivePool) (idx : Nat) :
    Raises (getBlockFor cfg pool idx) allocationPanics := by
  have tagged : ∀ blockIndex update, Raises (do
      updateBlock blockIndex update
      return blockIndex) allocationPanics := fun blockIndex update =>
    (updateBlock_raises blockIndex update).bind fun _ => Raises.pure _
  cases pool with
  | plain =>
      exact (takeFreeBlock_raises cfg .plain idx (by decide)
        (by decide)).bind fun _ => tagged _ _
  | hot =>
      exact (takeFreeBlock_raises cfg .hot idx (by decide)
        (by decide)).bind fun _ => (Raises.modify _).bind fun _ => tagged _ _
  | cool =>
      exact (takeFreeBlock_raises cfg .cold idx (by decide)
        (by decide)).bind fun _ => (demoteCoolFront_raises cfg).bind fun _ =>
          (Raises.modify _).bind fun _ => tagged _ _
  | cold =>
      exact (takeFreeBlock_raises cfg .cold idx (by decide)
        (by decide)).bind fun _ => tagged _ _

theorem construct_raises (cfg : Config) :
    Raises (construct cfg) allocationPanics :=
  Raises.forM fun idx _ => Raises.forM fun pool _ =>
    (getBlockFor_raises cfg pool idx).bind fun _ => Raises.modify _

structure Constructed (cfg : Config) (state : State) : Prop where
  pools : Pools cfg state
  maps : Maps cfg (.rest ∅) state
  books : state.books = (blankState cfg).books
  placed : AllPlaced cfg state

def Allowance.none : Allowance where
  policy := False
  setup := False
  plainFill := False
  hotFill := False
  foreign := False
  refreshing := False

theorem construct_meets (cfg : Config) (env : Environment)
    {invariant : Phase × State → Prop}
    (kept : (machine cfg env .none).Invariant invariant)
    (start : invariant (.rest ∅, blankState cfg)) :
    Program.Meets (construct cfg) (blankState cfg)
      (fun _ state => Constructed cfg state ∧ invariant (.rest ∅, state))
      fun raised _ => raised ∈ allocationPanics ∧ ∃ phase state,
        invariant (phase, state) ∧
        Cause cfg env .none phase state raised := by
  have follows : (machine cfg env .none).Follows (construct cfg) (.rest ∅)
      (blankState cfg) _ := construct_follows
  have meets := follows.meets kept ⟨blankState_pools cfg, blankState_maps cfg⟩
    start
  refine (meets.and (construct_raises cfg (blankState cfg))).mono ?_ ?_
  · intro _ state ⟨⟨last, sound, holds, same, books, placed⟩, _⟩
    subst same
    exact ⟨⟨sound.1, sound.2, books, placed⟩, holds⟩
  · intro raised stopped ⟨⟨reached, _, holds, _, cause⟩, listed⟩
    exact ⟨listed, reached.1, reached.2, holds, cause⟩

theorem performs_meet {invariant : Phase × State → Prop} {ops : List Op}
    (policy : allow.policy)
    (allowed : ∀ op ∈ ops, op.Allowed cfg env allow)
    (kept : (machine cfg env allow).Invariant invariant)
    (pools : Pools cfg state) (maps : Maps cfg (.rest mapped) state)
    (start : invariant (.rest mapped, state)) :
    Meets (ops.forM (perform cfg env)) state
      (fun _ final => Pools cfg final ∧
        Maps cfg (.rest (ops.foldl (Op.effect cfg env) mapped)) final ∧
        invariant (.rest (ops.foldl (Op.effect cfg env) mapped), final))
      (fun raised stopped => ∃ phase state, Pools cfg state ∧
        Maps cfg phase state ∧ invariant (phase, state) ∧
        SameHistory cfg state stopped ∧
        Cause cfg env allow phase state raised) := by
  refine ((performs_follow policy allowed).meets kept ⟨pools, maps⟩
    start).mono ?_ ?_
  · intro _ final ⟨last, sound, holds, same⟩
    subst same
    exact ⟨sound.1, sound.2, holds⟩
  · intro raised stopped ⟨reached, sound, holds, history, cause⟩
    exact ⟨reached.1, reached.2, sound.1, sound.2, holds, history, cause⟩

/-- A life whose constructor is told apart: an invariant of the machine holds
from the constructed state on. -/
theorem constructed_meets (allow : Allowance) (ops : List Op)
    {built invariant : Phase × State → Prop} (policy : allow.policy)
    (allowed : ∀ op ∈ ops, op.Allowed cfg env allow)
    (building : (machine cfg env .none).Invariant built)
    (blank : built (.rest ∅, blankState cfg))
    (kept : (machine cfg env allow).Invariant invariant)
    (start : ∀ state, Constructed cfg state → built (.rest ∅, state) →
      invariant (.rest ∅, state)) :
    Meets (life cfg env ops) (blankState cfg)
      (fun _ final => Pools cfg final ∧ (∃ mapped,
        Maps cfg (.rest mapped) final ∧ invariant (.rest mapped, final)))
      (fun raised stopped =>
        (raised ∈ allocationPanics ∧ ∃ phase state,
          built (phase, state) ∧ Cause cfg env .none phase state raised) ∨
        ∃ phase state, Pools cfg state ∧ Maps cfg phase state ∧
          invariant (phase, state) ∧ SameHistory cfg state stopped ∧
          Cause cfg env allow phase state raised) := by
  unfold life
  apply meets_bind.mpr
  refine (construct_meets cfg env building blank).mono ?_
    fun _ _ raised => .inl raised
  intro _ state ⟨constructed, holds⟩
  refine (performs_meet policy allowed kept constructed.pools constructed.maps
    (start state constructed holds)).mono ?_ fun _ _ raised => .inr raised
  intro _ final ⟨pools, maps, holds⟩
  exact ⟨pools, _, maps, holds⟩

/-- The members after `initialize` has built the refresh tables. -/
def State.scheduling (cfg : Config) (state : State) : State :=
  { state with
    refresh := state.refresh.setup cfg
    stat := { state.stat with refreshCallCount := 0 } }

/-- The life of an FTL that is initialised once, right after its construction:
an invariant of the machine without set-up steps holds from there on. -/
theorem initialized_meets (allow : Allowance) (ops : List Op)
    {built invariant : Phase × State → Prop} (policy : allow.policy)
    (filling : ∀ filling ∈ fills cfg env, filling.Allowed cfg allow)
    (allowed : ∀ op ∈ ops, op.Allowed cfg env allow)
    (building : (machine cfg env .none).Invariant built)
    (blank : built (.rest ∅, blankState cfg))
    (kept : (machine cfg env allow).Invariant invariant)
    (start : ∀ state, Constructed cfg state → built (.rest ∅, state) →
      invariant (.rest ∅, state.scheduling cfg)) :
    Meets (life cfg env (.initializeFTL :: ops)) (blankState cfg)
      (fun _ final => Pools cfg final ∧ (∃ mapped,
        Maps cfg (.rest mapped) final ∧ invariant (.rest mapped, final)))
      (fun raised stopped =>
        (raised ∈ allocationPanics ∧ ∃ phase state,
          built (phase, state) ∧ Cause cfg env .none phase state raised) ∨
        ∃ phase state, Pools cfg state ∧ Maps cfg phase state ∧
          invariant (phase, state) ∧ SameHistory cfg state stopped ∧
          Cause cfg env allow phase state raised) := by
  unfold life
  apply meets_bind.mpr
  refine (construct_meets cfg env building blank).mono ?_
    fun _ _ raised => .inl raised
  intro _ state ⟨constructed, holds⟩
  apply meets_bind.mpr
  apply meets_bind.mpr
  have sound : (machine cfg env allow).sound
      (.rest ∅, state.scheduling cfg) :=
    (machine cfg env .all).sound_step (.setup trivial)
      ⟨constructed.pools, constructed.maps⟩
  refine ((fills_follow policy filling).meets kept sound
    (start state constructed holds)).mono ?_ ?_
  · intro _ filled ⟨last, sound, holds, same⟩
    subst same
    refine (performs_meet policy allowed kept sound.1 sound.2 holds).mono ?_
      fun _ _ raised => .inr raised
    intro _ final ⟨pools, maps, holds⟩
    exact ⟨pools, _, maps, holds⟩
  · intro raised stopped ⟨reached, sound, holds, history, cause⟩
    exact .inr ⟨reached.1, reached.2, sound.1, sound.2, holds, history, cause⟩

end SimpleSSD.FTL
