import SimpleSSD.FTL.Collection

namespace SimpleSSD.FTL

open Machine

/-! Victim selection, the collections it starts, and the refresh, as runs of the
machine. -/

variable {cfg : Config} {env : Environment} {allow : Allowance}
  {phase : Phase} {state : State}

structure Weighed (keep : Block → Bool) (state : State)
    (weights : List (Nat × Nat)) : Prop where
  nodup : (weights.map Prod.fst).Nodup
  kept : ∀ weight ∈ weights, ∃ block,
    state.blocks.lookup weight.1 = some block ∧ keep block = true

theorem Weighed.perm {keep : Block → Bool} {weights others : List (Nat × Nat)}
    (weighed : Weighed keep state weights) (perm : others.Perm weights) :
    Weighed keep state others where
  nodup := (perm.map _).nodup_iff.mpr weighed.nodup
  kept := fun weight member => weighed.kept weight (perm.mem_iff.mp member)

theorem Weighed.take {keep : Block → Bool} {weights : List (Nat × Nat)}
    (weighed : Weighed keep state weights) (amount : Nat) :
    Weighed keep state (weights.take amount) where
  nodup := ((List.take_sublist amount weights).map _).nodup weighed.nodup
  kept := fun weight member =>
    weighed.kept weight (List.mem_of_mem_take member)

theorem candidates_weighed (keep : Block → Bool)
    (rank : Nat × Block → Nat) :
    Weighed keep state ((candidates env keep state).map
      fun entry => (entry.1, rank entry)) := by
  have sublist : ∀ (choose : Nat → Option (Nat × Block)) (keys : List Nat),
      (∀ key entry, choose key = some entry → entry.1 = key) →
        ((keys.filterMap choose).map Prod.fst).Sublist keys := by
    intro choose keys same
    induction keys with
    | nil => simp
    | cons key rest induction =>
        rw [List.filterMap_cons]
        split
        · exact induction.cons _
        · next entry chosen =>
            rw [List.map_cons, same key entry chosen]
            exact induction.cons_cons _
  refine ⟨?_, ?_⟩
  · rw [List.map_map]
    have keys : (env.iterate state.selections state.blocks.keys).Nodup :=
      (env.iterate_perm _ _).nodup_iff.mpr state.blocks.keys_nodup
    refine (sublist _ _ ?_).nodup keys
    intro key entry chosen
    split at chosen
    · split at chosen <;> cases chosen
      rfl
    · cases chosen
  · intro weight member
    obtain ⟨entry, listed, rfl⟩ := List.mem_map.mp member
    unfold candidates at listed
    obtain ⟨key, _, chosen⟩ := List.mem_filterMap.mp listed
    split at chosen
    · next block found =>
        split at chosen
        · next passes =>
            cases chosen
            exact ⟨block, found, passes⟩
        · cases chosen
    · cases chosen

theorem sortWeights_perm (weights : List (Nat × Nat)) :
    (sortWeights weights).Perm weights :=
  List.perm_insertionSort _ _

theorem calculateVictimWeight_ok {weights : List (Nat × Nat)}
    (calculated : calculateVictimWeight cfg env state = .ok weights) :
    Weighed (isFull cfg) state weights := by
  unfold calculateVictimWeight at calculated
  dsimp only at calculated
  split at calculated <;> cases calculated <;>
    exact candidates_weighed _ _

theorem sampledWeights_ok {nBlocks : Nat} {weights others : List (Nat × Nat)}
    (weighed : Weighed (isFull cfg) state weights)
    (sampled : sampledWeights cfg env nBlocks state weights = .ok others) :
    Weighed (isFull cfg) state others := by
  have sampling : ∀ amount,
      sampleWeights env state.selections amount weights = .ok others →
        Weighed (isFull cfg) state others := by
    intro amount drawn
    unfold sampleWeights at drawn
    split at drawn
    · cases drawn
    · cases drawn
      exact (weighed.perm (env.sample_perm _ _)).take amount
  unfold sampledWeights at sampled
  split at sampled
  · exact sampling _ sampled
  · exact sampling _ sampled
  · cases sampled
    exact weighed

theorem blocksToReclaim_error {pool : FreePool} {raised : Panic}
    (failed : blocksToReclaim cfg env pool state = .error raised) :
    raised ∈ refusals := by
  unfold blocksToReclaim at failed
  split at failed <;> cases failed
  decide

theorem calculateVictimWeight_error {raised : Panic}
    (failed : calculateVictimWeight cfg env state = .error raised) :
    raised ∈ refusals := by
  unfold calculateVictimWeight at failed
  dsimp only at failed
  split at failed <;> cases failed
  decide

theorem sampleWeights_error {draw amount : Nat} {weights : List (Nat × Nat)}
    {raised : Panic}
    (failed : sampleWeights env draw amount weights = .error raised) :
    raised ∈ refusals := by
  unfold sampleWeights at failed
  split at failed <;> cases failed
  decide

theorem sampledWeights_error {nBlocks : Nat} {weights : List (Nat × Nat)}
    {raised : Panic}
    (failed : sampledWeights cfg env nBlocks state weights = .error raised) :
    raised ∈ refusals := by
  unfold sampledWeights at failed
  split at failed
  · exact sampleWeights_error failed
  · exact sampleWeights_error failed
  · cases failed

/-- Full blocks are chosen, each at most once, or the policy refuses. -/
theorem victimsOf_spec (cfg : Config) (env : Environment) (state : State) :
    match victimsOf cfg env state with
    | .ok victims => victims.Nodup ∧ ∀ victim ∈ victims, ∃ block,
        state.blocks.lookup victim = some block ∧ block.Full cfg
    | .error raised => raised ∈ refusals := by
  unfold victimsOf
  cases reclaim : blocksToReclaim cfg env .plain state with
  | error raised => exact blocksToReclaim_error reclaim
  | ok amount =>
      simp only [bind, Except.bind]
      cases calculated : calculateVictimWeight cfg env state with
      | error raised => exact calculateVictimWeight_error calculated
      | ok weights =>
          dsimp only
          cases sampled : sampledWeights cfg env
              (if state.bReclaimMore then amount + cfg.pageCountToMaxPerf
                else amount) state weights with
          | error raised => exact sampledWeights_error sampled
          | ok others =>
              have weighed := ((sampledWeights_ok
                (calculateVictimWeight_ok calculated) sampled).perm
                (sortWeights_perm others)).take
                  (if state.bReclaimMore then amount + cfg.pageCountToMaxPerf
                    else amount)
              refine ⟨weighed.nodup, ?_⟩
              intro victim member
              obtain ⟨weight, listed, rfl⟩ := List.mem_map.mp member
              obtain ⟨block, found, full⟩ := weighed.kept weight listed
              exact ⟨block, found, by simpa [isFull, Block.Full] using full⟩

theorem calculateColdVictimWeight_ok {weights : List (Nat × Nat)}
    (calculated : calculateColdVictimWeight cfg env state = .ok weights) :
    Weighed (fun block => block.blockType ≠ .hot && isFull cfg block) state
      weights := by
  unfold calculateColdVictimWeight at calculated
  dsimp only at calculated
  split at calculated <;> cases calculated <;>
    exact candidates_weighed _ _

theorem calculateColdVictimWeight_error {raised : Panic}
    (failed : calculateColdVictimWeight cfg env state = .error raised) :
    raised ∈ refusals := by
  unfold calculateColdVictimWeight at failed
  dsimp only at failed
  split at failed <;> cases failed
  decide

theorem coldVictimsOf_spec (cfg : Config) (env : Environment)
    (state : State) :
    match coldVictimsOf cfg env state with
    | .ok victims => victims.Nodup ∧ ∀ victim ∈ victims, ∃ block,
        state.blocks.lookup victim = some block ∧ block.blockType ≠ .hot ∧
          block.Full cfg
    | .error raised => raised ∈ refusals := by
  unfold coldVictimsOf
  cases reclaim : blocksToReclaim cfg env .cold state with
  | error raised => exact blocksToReclaim_error reclaim
  | ok amount =>
      simp only [bind, Except.bind]
      cases calculated : calculateColdVictimWeight cfg env state with
      | error raised => exact calculateColdVictimWeight_error calculated
      | ok weights =>
          have weighed := ((calculateColdVictimWeight_ok calculated).perm
            (sortWeights_perm weights)).take
              (if state.bReclaimMore then amount + 1 else amount)
          refine ⟨weighed.nodup, ?_⟩
          intro victim member
          obtain ⟨weight, listed, rfl⟩ := List.mem_map.mp member
          obtain ⟨block, found, passes⟩ := weighed.kept weight listed
          simp only [Bool.and_eq_true, decide_eq_true_eq] at passes
          exact ⟨block, found, passes.1, by simpa [isFull, Block.Full] using passes.2⟩

theorem selectVictimBlock_follows (plain : cfg.hotColdSeparation = false)
    (allowed : allow.policy) (settled : phase.Settled)
    (idle : phase.victims = []) :
    (machine cfg env allow).Follows (selectVictimBlock cfg env) phase state
      fun victims last _ =>
        last = { phase with victims := victims } := by
  have spec := victimsOf_spec cfg env state
  unfold selectVictimBlock
  apply Follows.getBind
  cases selected : victimsOf cfg env state with
  | error raised =>
      rw [selected] at spec
      exact Follows.throwBind ⟨SameHistory.refl _, .refused allowed spec⟩
  | ok victims =>
      rw [selected] at spec
      refine Follows.bindOk rfl ?_
      refine Follows.bindStep rfl (.select allowed settled idle victims state.coolDownWindow
        spec.1 spec.2 (by simp [plain]) (by simp [plain])) ?_
      exact Follows.pure rfl

theorem selectColdVictimBlock_follows
    (separated : cfg.hotColdSeparation = true) (allowed : allow.policy)
    (settled : phase.Settled)
    (idle : phase.victims = []) :
    (machine cfg env allow).Follows (selectColdVictimBlock cfg env) phase
      state fun victims last _ =>
        last = { phase with victims := victims } := by
  apply Follows.ofSound
  rintro ⟨pools, _⟩
  have spec := coldVictimsOf_spec cfg env state
  unfold selectColdVictimBlock
  apply Follows.getBind
  cases selected : coldVictimsOf cfg env state with
  | error raised =>
      rw [selected] at spec
      exact Follows.throwBind ⟨SameHistory.refl _, .refused allowed spec⟩
  | ok victims =>
      rw [selected] at spec
      obtain ⟨nodup, full⟩ := spec
      refine Follows.bindOk rfl ?_
      refine Follows.bindStep rfl (.select allowed settled idle victims _ nodup ?_
        (by simp [separated]) ?_) ?_
      · intro victim member
        obtain ⟨block, found, _, blockFull⟩ := full victim member
        exact ⟨block, found, blockFull⟩
      · intro _ victim member
        obtain ⟨block, found, notHot, _⟩ := full victim member
        have region := pools.typed separated _ _ found
        cases kind : block.blockType with
        | hot => exact absurd kind notHot
        | cool => rwa [kind] at region
        | cold => rwa [kind] at region
      · exact Follows.pure rfl

theorem selectHotVictimBlock_follows
    (separated : cfg.hotColdSeparation = true) (allowed : allow.policy)
    (settled : phase.Settled)
    (idle : phase.victims = []) :
    (machine cfg env allow).Follows (selectHotVictimBlock cfg env) phase
      state fun victims last _ =>
        last = { phase with victims := victims } := by
  unfold selectHotVictimBlock
  apply Follows.getBind
  cases reclaim : blocksToReclaim cfg env .hot state with
  | error raised =>
      exact Follows.throwBind ⟨SameHistory.refl _,
        .refused allowed (blocksToReclaim_error reclaim)⟩
  | ok amount =>
      refine Follows.bindOk rfl ?_
      refine Follows.bindStep rfl (.selectHot allowed settled idle _ separated) ?_
      exact Follows.pure rfl

/-! Collections start and end at rest. -/

variable {mapped : Set (Nat × Nat)}

theorem Phase.settled_collecting (mapped : Set (Nat × Nat))
    (victims : List Nat) :
    { Phase.rest mapped with victims := victims : Phase }.Settled :=
  ⟨rfl, rfl, rfl, rfl, rfl⟩

theorem plainGC_follows (isRefresh : Bool)
    (plain : cfg.hotColdSeparation = false) (allowed : allow.policy) :
    (machine cfg env allow).Follows (plainGC cfg env isRefresh)
      (.rest mapped) state fun _ last _ => last = .rest mapped := by
  unfold plainGC
  refine Follows.bind (selectVictimBlock_follows plain allowed
    (Phase.rest_settled mapped) rfl) ?_
  rintro victims _ selected rfl
  refine Follows.bind (doGarbageCollection_follows isRefresh plain
    (.inl allowed) (Phase.settled_collecting mapped victims) rfl) ?_
  rintro _ _ collected ⟨rfl, _⟩
  exact Follows.mono (count_follows fun _ => ⟨rfl, rfl⟩)
    fun _ _ _ _ _ post => post.1

theorem coldGC_follows (isRefresh : Bool)
    (separated : cfg.hotColdSeparation = true) (allowed : allow.policy) :
    (machine cfg env allow).Follows (coldGC cfg env isRefresh)
      (.rest mapped) state fun _ last _ => last = .rest mapped := by
  unfold coldGC
  refine Follows.bind (selectColdVictimBlock_follows separated allowed
    (Phase.rest_settled mapped) rfl) ?_
  rintro victims _ selected rfl
  refine Follows.bind (sepDoGarbageCollection_follows isRefresh .cold separated
    (.inl allowed) (Phase.settled_collecting mapped victims) rfl) ?_
  rintro _ _ collected ⟨rfl, _⟩
  exact Follows.mono (count_follows fun _ => ⟨rfl, rfl⟩)
    fun _ _ _ _ _ post => post.1

theorem hotGC_follows (separated : cfg.hotColdSeparation = true)
    (allowed : allow.policy) :
    (machine cfg env allow).Follows (hotGC cfg env) (.rest mapped) state
      fun _ last _ => last = .rest mapped := by
  unfold hotGC
  refine Follows.bind (selectHotVictimBlock_follows separated allowed
    (Phase.rest_settled mapped) rfl) ?_
  rintro victims _ selected rfl
  refine Follows.bind (sepDoGarbageCollection_follows false .hot separated
    (.inl allowed) (Phase.settled_collecting mapped victims) rfl) ?_
  rintro _ _ collected ⟨rfl, _⟩
  exact Follows.mono (count_follows fun _ => ⟨rfl, rfl⟩)
    fun _ _ _ _ _ post => post.1

theorem refreshGC_follows (allowed : allow.policy) :
    (machine cfg env allow).Follows (refreshGC cfg env) (.rest mapped) state
      fun _ last _ => last = .rest mapped := by
  unfold refreshGC
  split
  · next separated =>
      refine Follows.bindOk rfl ?_
      split
      · exact coldGC_follows true separated allowed
      · exact Follows.pure rfl
  · next plain =>
      refine Follows.bindOk rfl ?_
      split
      · exact plainGC_follows true (by simpa using plain) allowed
      · exact Follows.pure rfl

theorem refreshPlan_counts (cfg : Config) (blockType : BlockPoolType) :
    (refreshPlan cfg blockType).Counts :=
  ⟨fun _ => ⟨rfl, rfl⟩, fun _ => ⟨rfl, rfl⟩⟩

theorem refreshDestination_usable (cfg : Config) (allow : Allowance)
    (blockType : BlockPoolType) :
    Usable cfg allow (refreshDestination cfg blockType) := by
  left
  unfold refreshDestination activePools
  split
  · split <;> simp
  · simp

theorem popLayer_follows {queueNum layerID : Nat} {rest : List Nat}
    (allowed : allow.policy) (refreshes : allow.refreshing)
    (front : state.refresh.checkedQueues queueNum = layerID :: rest) :
    (machine cfg env allow).Follows (popLayer queueNum layerID)
      (.rest mapped) state fun taken last _ =>
        last = if taken = true then { Phase.rest mapped with
            drain := some (layerID, layerPages cfg (layerID % 64)) }
          else .rest mapped := by
  intro sound
  unfold popLayer
  refine Tracks.bindOk rfl (Tracks.bindOk rfl ?_)
  dsimp only
  split
  · exact Tracks.bindError rfl ⟨⟨rfl, rfl, rfl, .inl rfl⟩,
      .refused allowed (by decide)⟩
  split
  · next elsewhere =>
      refine Tracks.bindOk rfl ?_
      exact Tracks.ok rfl (Relation.ReflTransGen.single
        (.skipLayer refreshes front elsewhere)) rfl
  · next here =>
      split
      · next flagged =>
          refine Tracks.bindOk rfl ?_
          exact Tracks.ok rfl (Relation.ReflTransGen.single
            (.popLayer refreshes rfl front (not_not.mp here) flagged)) rfl
      · next cleared =>
          exact Tracks.error rfl ⟨⟨rfl, rfl, rfl, .inl rfl⟩, .corruptedLayerCheck
            allowed front (not_not.mp here) (Bool.not_eq_true _ ▸ cleared)⟩

theorem layerPages_sorted (cfg : Config) (layerIndex : Nat) :
    (layerPages cfg layerIndex).Pairwise (· < ·) :=
  List.pairwise_lt_range.filter _

theorem mem_layerPages {page layerIndex : Nat} :
    page ∈ layerPages cfg layerIndex ↔
      page < cfg.pagesInBlock ∧ page % 64 = layerIndex := by
  simp [layerPages]

/-- The pages of a layer are visited one by one, so that in the end none of the
units that were in them is left behind. -/
theorem copyLayer_follows (layerID : Nat) :
    (machine cfg env allow).Follows (copyLayer cfg env layerID)
      { Phase.rest mapped with
        drain := some (layerID, layerPages cfg (layerID % 64)) } state
      fun _ last final => last = .rest mapped ∧
        ∀ page ∈ layerPages cfg (layerID % 64),
          final.Bare (layerID / 64) page := by
  unfold copyLayer
  apply Follows.getBind
  split
  · next absent =>
      have bare : ∀ page idx lpn, ¬ state.Stores (layerID / 64) page idx lpn :=
        State.not_stores_of_not_inUse (State.not_inUse.mpr absent)
      refine Follows.before (.drained rfl fun page _ => bare page) ?_
      exact Follows.pure ⟨rfl, fun page _ => bare page⟩
  · next block found =>
      refine Follows.after (Follows.forM (fun remaining last final =>
          last = { Phase.rest mapped with
            drain := some (layerID, remaining) } ∧
          final.InUse (layerID / 64) ∧ ∃ visited,
            layerPages cfg (layerID % 64) = visited ++ remaining ∧
            ∀ page ∈ visited, final.Bare (layerID / 64) page)
        ⟨rfl, ⟨block, found⟩, [], rfl, by simp⟩ ?_) ?_
      · rintro page rest _ current ⟨rfl, used, visited, split, bare⟩
        refine Follows.after (copyPage_follows
          (refreshPlan_counts cfg block.blockType)
          (refreshDestination_usable cfg allow block.blockType) rfl rfl
          (fun collecting => absurd rfl collecting) used) ?_
        rintro _ _ final _ ⟨rfl, swept⟩
        have visit := swept.bare page (Nat.le_refl _) (.inl rfl)
        refine ⟨_, Relation.ReflTransGen.single (.visited rfl visit), rfl,
          swept.inUse _ used, visited ++ [page], by simp [split], ?_⟩
        -- pages in front of the visited one stay bare
        have sorted := layerPages_sorted cfg (layerID % 64)
        rw [split, List.pairwise_append] at sorted
        intro other member
        rcases List.mem_append.mp member with earlier | here
        · have below := sorted.2.2 other earlier page (.head _)
          exact swept.bare other (Nat.le_of_lt below) (.inr (bare other earlier))
        · rw [List.mem_singleton.mp here]
          exact visit
      · rintro _ _ final _ ⟨rfl, _, visited, split, bare⟩
        rw [List.append_nil] at split
        exact ⟨_, Relation.ReflTransGen.single (.drained rfl (by simp)), rfl,
          split ▸ bare⟩

theorem refreshLayers_follows (queueNum remaining : Nat)
    (allowed : allow.policy) (refreshes : allow.refreshing) :
    (machine cfg env allow).Follows (refreshLayers cfg env queueNum remaining)
      (.rest mapped) state fun _ last _ => last = .rest mapped := by
  induction remaining generalizing state with
  | zero => exact Follows.pure rfl
  | succ remaining induction =>
      unfold refreshLayers
      apply Follows.getBind
      split
      · exact Follows.pure rfl
      · next layerID rest front =>
          refine Follows.bind (popLayer_follows allowed refreshes front) ?_
          rintro taken _ popped rfl
          dsimp only
          cases taken with
          | true =>
              refine Follows.bind (copyLayer_follows layerID) ?_
              rintro _ _ copied ⟨rfl, _⟩
              exact induction
          | false => exact induction

theorem refreshPage_follows (queueNum : Nat) (allowed : allow.policy)
    (refreshes : allow.refreshing) :
    (machine cfg env allow).Follows (refreshPage cfg env queueNum)
      (.rest mapped) state fun _ last _ => last = .rest mapped := by
  unfold refreshPage
  refine Follows.bind (refreshGC_follows allowed) ?_
  rintro _ _ collected rfl
  refine Follows.bind (refreshLayers_follows queueNum _ allowed refreshes) ?_
  rintro _ _ refreshed rfl
  exact refreshGC_follows allowed

theorem refreshEvent_follows (allowed : allow.policy)
    (refreshes : allow.refreshing) :
    (machine cfg env allow).Follows (refreshEvent cfg env) (.rest mapped)
      state fun _ last _ => last = .rest mapped := by
  unfold refreshEvent
  apply Follows.getBind
  split
  · exact Follows.throwBind ⟨SameHistory.refl _, .refused allowed (by decide)⟩
  · refine Follows.bindStep rfl (.swap refreshes _) ?_
    refine Follows.bind (refreshPage_follows _ allowed refreshes) ?_
    rintro _ _ refreshed rfl
    exact Follows.endStep rfl (.tick refreshes) rfl

end SimpleSSD.FTL
