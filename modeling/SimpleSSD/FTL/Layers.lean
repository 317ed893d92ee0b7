import SimpleSSD.FTL.Consistency
import SimpleSSD.FTL.Schedule

namespace SimpleSSD.FTL

open Machine

/-! The layer identifiers of the refresh schedule against the sizes of the tables
that they index.  Identifiers give 64 layers to a block, the sizes give a layer
to eight pages. -/

/-- `blockNum * 64 + layerNum`, on `uint32_t`. -/
def layerIndex (blockNum layerNum : Nat) : Nat :=
  (blockNum * 64 + layerNum) % 2 ^ 32

/-- Size of `layerQueueNum`. -/
def queueNumSize (cfg : Config) : Nat :=
  RefreshQueue.divCeil (cfg.totalPhysicalBlocks * cfg.pagesInBlock) 8

/-- Size of `insertedLayerCheck`: the constructor of `Bitset` takes a
`uint32_t`. -/
def layerCheckSize (cfg : Config) : Nat := queueNumSize cfg % 2 ^ 32

/-- Layers of a block that `setRefreshPeriod` looks up when a page of layer
`layerNum` has been programmed. -/
def layersOf (cfg : Config) (layerNum : Nat) : List Nat :=
  match cfg.refreshMode with
  | 0 => [layerNum]
  | 1 =>
      let groupingSize := cfg.refreshGroupingSize
      let groupFirst := layerNum / groupingSize * groupingSize
      if layerNum = groupFirst then
        (List.range (min groupingSize (64 - groupFirst))).map (groupFirst + ·)
      else []
  | 2 =>
      let groupFirst := if layerNum = 63 then 63 else layerNum % 21
      layerNum :: ((List.range 3).filter fun segment =>
        groupFirst + segment * 21 < 64).map (groupFirst + · * 21)
  | 3 =>
      let groupFirst := if layerNum = 63 then 63 else layerNum % 21 / 3 * 3
      layerNum :: ((List.range 3).flatMap fun segment =>
        (List.range 3).map fun neighbour =>
          groupFirst + segment * 21 + neighbour).filter (· < 64)
  | _ => []

/-- Layer of the last page of a block, or the last layer there is. -/
def lastLayer (cfg : Config) : Nat := min (cfg.pagesInBlock - 1) 63

def topLayer (cfg : Config) : Nat :=
  let last := lastLayer cfg
  match cfg.refreshMode with
  | 0 => last
  | 1 =>
      min (last / cfg.refreshGroupingSize * cfg.refreshGroupingSize +
        cfg.refreshGroupingSize - 1) 63
  | 2 => if last = 63 then 63 else min last 20 + 42
  | _ => if last = 63 then 63 else min last 20 / 3 * 3 + 44

section Layers

variable {cfg : Config}

theorem topLayer_single (mode : cfg.refreshMode = 0) :
    topLayer cfg = lastLayer cfg := by
  unfold topLayer
  rw [mode]
  rfl

theorem topLayer_grouped (mode : cfg.refreshMode = 1) :
    topLayer cfg = min (lastLayer cfg / cfg.refreshGroupingSize *
      cfg.refreshGroupingSize + cfg.refreshGroupingSize - 1) 63 := by
  unfold topLayer
  rw [mode]
  rfl

theorem topLayer_segments (mode : cfg.refreshMode = 2) :
    topLayer cfg =
      if lastLayer cfg = 63 then 63 else min (lastLayer cfg) 20 + 42 := by
  unfold topLayer
  rw [mode]
  rfl

theorem topLayer_neighbours (mode : cfg.refreshMode = 3) :
    topLayer cfg =
      if lastLayer cfg = 63 then 63
      else min (lastLayer cfg) 20 / 3 * 3 + 44 := by
  unfold topLayer
  rw [mode]
  rfl

theorem mem_layersOf_le {layerNum layer : Nat}
    (below : layerNum ≤ lastLayer cfg)
    (member : layer ∈ layersOf cfg layerNum) :
    cfg.refreshMode ≤ 3 ∧ layer ≤ topLayer cfg ∧ layer < 64 := by
  have short : lastLayer cfg ≤ 63 := Nat.min_le_right _ _
  unfold layersOf at member
  split at member
  · next mode =>
      rw [topLayer_single mode]
      have same := List.mem_singleton.mp member
      omega
  · next mode =>
      rw [topLayer_grouped mode]
      dsimp only at member
      split at member
      · next first =>
          obtain ⟨offset, inside, rfl⟩ := List.mem_map.mp member
          have small := List.mem_range.mp inside
          have order : layerNum / cfg.refreshGroupingSize *
              cfg.refreshGroupingSize ≤ lastLayer cfg /
                cfg.refreshGroupingSize * cfg.refreshGroupingSize :=
            Nat.mul_le_mul_right _ (Nat.div_le_div_right below)
          omega
      · cases member
  · next mode =>
      rw [topLayer_segments mode]
      dsimp only at member
      rcases List.mem_cons.mp member with rfl | segments
      · split <;> omega
      · obtain ⟨segment, inside, rfl⟩ := List.mem_map.mp segments
        obtain ⟨few, small⟩ := List.mem_filter.mp inside
        have few := List.mem_range.mp few
        have small := of_decide_eq_true small
        split_ifs at small ⊢ <;> omega
  · next mode =>
      rw [topLayer_neighbours mode]
      dsimp only at member
      rcases List.mem_cons.mp member with rfl | neighbours
      · split <;> omega
      · obtain ⟨inside, small⟩ := List.mem_filter.mp neighbours
        have small := of_decide_eq_true small
        obtain ⟨segment, few, inside⟩ := List.mem_flatMap.mp inside
        obtain ⟨neighbour, near, rfl⟩ := List.mem_map.mp inside
        have few := List.mem_range.mp few
        have near := List.mem_range.mp near
        split_ifs at small ⊢ <;> omega
  · cases member

theorem topLayer_mem (grouping : 0 < cfg.refreshGroupingSize)
    (mode : cfg.refreshMode ≤ 3) :
    ∃ layerNum ≤ lastLayer cfg, topLayer cfg ∈ layersOf cfg layerNum := by
  have short : lastLayer cfg ≤ 63 := Nat.min_le_right _ _
  have modes : cfg.refreshMode = 0 ∨ cfg.refreshMode = 1 ∨
      cfg.refreshMode = 2 ∨ cfg.refreshMode = 3 := by omega
  unfold layersOf
  rcases modes with mode | mode | mode | mode
  · rw [topLayer_single mode, mode]
    exact ⟨lastLayer cfg, le_rfl, List.mem_singleton.mpr rfl⟩
  · rw [topLayer_grouped mode, mode]
    have first : lastLayer cfg / cfg.refreshGroupingSize *
        cfg.refreshGroupingSize ≤ lastLayer cfg := Nat.div_mul_le_self _ _
    refine ⟨lastLayer cfg / cfg.refreshGroupingSize * cfg.refreshGroupingSize,
      first, ?_⟩
    dsimp only
    rw [Nat.mul_div_cancel _ grouping, if_pos rfl]
    refine List.mem_map.mpr ⟨min (cfg.refreshGroupingSize - 1)
      (63 - lastLayer cfg / cfg.refreshGroupingSize *
        cfg.refreshGroupingSize), List.mem_range.mpr ?_, ?_⟩
    · omega
    · omega
  · rw [topLayer_segments mode, mode]
    by_cases last : lastLayer cfg = 63
    · rw [if_pos last]
      exact ⟨63, last.ge, .head _⟩
    · rw [if_neg last]
      refine ⟨min (lastLayer cfg) 20, Nat.min_le_left _ _, .tail _ ?_⟩
      refine List.mem_map.mpr ⟨2, List.mem_filter.mpr
        ⟨by decide, decide_eq_true ?_⟩, ?_⟩
      · split <;> omega
      · split <;> omega
  · rw [topLayer_neighbours mode, mode]
    by_cases last : lastLayer cfg = 63
    · rw [if_pos last]
      exact ⟨63, last.ge, .head _⟩
    · rw [if_neg last]
      refine ⟨min (lastLayer cfg) 20, Nat.min_le_left _ _, .tail _ ?_⟩
      refine List.mem_filter.mpr ⟨List.mem_flatMap.mpr ⟨2, by decide,
        List.mem_map.mpr ⟨2, by decide, ?_⟩⟩, decide_eq_true ?_⟩
      · split <;> omega
      · omega

end Layers

namespace RefreshQueue

def Queued (queue : RefreshQueue) (id : Nat) : Prop :=
  ∃ queueNum, id ∈ queue.refreshQueues queueNum ∨
    id ∈ queue.checkedQueues queueNum

structure Uses (cfg : Config) (ids : List Nat) (queue : RefreshQueue)
    (result : Except Panic RefreshQueue) : Prop where
  grows : ∀ updated, result = .ok updated →
    updated.layerCount = queue.layerCount ∧
      updated.queueCount = queue.queueCount ∧
      ∀ id, updated.Queued id → queue.Queued id ∨ id ∈ ids
  fails : cfg.refreshFilterNum ≤ queue.queueCount →
    result = .error .outOfRange → ∃ id ∈ ids, queue.layerCount ≤ id

section Uses

variable {cfg : Config} {env : Environment} {queue updated : RefreshQueue}
  {ids : List Nat} {queueNum id : Nat}

theorem queued_push {target layerID : Nat}
    (queued : (queue.push target layerID).Queued id) :
    queue.Queued id ∨ id = layerID := by
  obtain ⟨queueNum, waits | checked⟩ := queued
  · by_cases same : queueNum = target
    · subst same
      change id ∈ Function.update queue.refreshQueues queueNum _ queueNum
        at waits
      rw [Function.update_self] at waits
      rcases List.mem_append.mp waits with old | new
      · exact .inl ⟨queueNum, .inl old⟩
      · exact .inr (List.mem_singleton.mp new)
    · change id ∈ Function.update queue.refreshQueues target _ queueNum
        at waits
      rw [Function.update_of_ne same] at waits
      exact .inl ⟨queueNum, .inl waits⟩
  · exact .inl ⟨queueNum, .inr checked⟩

theorem queued_removeFromQueue {layerID : Nat}
    (queued : (queue.removeFromQueue layerID).Queued id) :
    queue.Queued id := by
  obtain ⟨queueNum, waits | checked⟩ := queued
  · refine ⟨queueNum, .inl ?_⟩
    change id ∈ Function.update queue.refreshQueues _ _ queueNum at waits
    by_cases same : queueNum = queue.layerQueueNum layerID
    · subst same
      rw [Function.update_self] at waits
      exact List.mem_of_mem_erase waits
    · rwa [Function.update_of_ne same] at waits
  · exact ⟨queueNum, .inr checked⟩

theorem queued_noteMove {layerID : Nat}
    (queued : (queue.noteMove layerID).Queued id) : queue.Queued id := by
  unfold noteMove at queued
  split at queued <;> exact queued

theorem noteMove_counts (layerID : Nat) :
    (queue.noteMove layerID).layerCount = queue.layerCount ∧
      (queue.noteMove layerID).queueCount = queue.queueCount := by
  unfold noteMove
  split <;> exact ⟨rfl, rfl⟩

theorem Uses.pure (ids : List Nat) : Uses cfg ids queue (.ok queue) where
  grows := by
    intro updated same
    cases same
    exact ⟨rfl, rfl, fun _ => .inl⟩
  fails := fun _ => nofun

theorem Uses.foldlM {items : List Nat}
    {step : RefreshQueue → Nat → Except Panic RefreshQueue}
    (each : ∀ item ∈ items, ∀ queue : RefreshQueue,
      Uses cfg ids queue (step queue item)) :
    Uses cfg ids queue (items.foldlM step queue) := by
  induction items generalizing queue with
  | nil => exact .pure ids
  | cons item rest induction =>
      rw [List.foldlM_cons]
      have first := each item (.head _) queue
      cases result : step queue item with
      | error raised =>
          rw [result] at first
          exact ⟨nofun, first.fails⟩
      | ok next =>
          obtain ⟨layers, queues, added⟩ := first.grows next result
          have others : Uses cfg ids next (rest.foldlM step next) :=
            induction fun other member => each other (.tail _ member)
          refine ⟨?_, ?_⟩
          · intro updated returned
            obtain ⟨layers', queues', added'⟩ := others.grows updated returned
            refine ⟨layers'.trans layers, queues'.trans queues, ?_⟩
            intro id queued
            rcases added' id queued with earlier | listed
            · exact added id earlier
            · exact .inr listed
          · intro counted failed
            obtain ⟨id, listed, outside⟩ :=
              others.fails (by rw [queues]; exact counted) failed
            exact ⟨id, listed, layers ▸ outside⟩

theorem insertToQueue_uses (refreshCallCount queueNum : Nat)
    (listed : id ∈ ids) :
    Uses cfg ids queue (insertToQueue cfg refreshCallCount queueNum id queue) := by
  refine ⟨?_, ?_⟩
  · intro updated inserted
    rcases insertToQueue_cases inserted with
      ⟨_, rfl | ⟨target, rfl⟩⟩ | ⟨_, target, rfl⟩
    · exact ⟨rfl, rfl, fun _ => .inl⟩
    · obtain ⟨layers, queues⟩ : (queue.noteMove id).layerCount =
          queue.layerCount ∧ (queue.noteMove id).queueCount =
            queue.queueCount := noteMove_counts id
      refine ⟨layers, queues, ?_⟩
      intro other queued
      rcases queued_push queued with old | rfl
      · exact .inl (queued_noteMove (queued_removeFromQueue old))
      · exact .inr listed
    · refine ⟨rfl, rfl, ?_⟩
      intro other queued
      rcases queued_push queued with old | rfl
      · exact .inl old
      · exact .inr listed
  · intro counted failed
    unfold insertToQueue at failed
    dsimp only at failed
    split at failed
    · cases failed
    · next some =>
      split at failed
      · next outside =>
          rcases outside with outside | missing
          · exact ⟨id, listed, outside⟩
          · have inside := Nat.mod_lt queueNum (Nat.pos_of_ne_zero some)
            omega
      · split at failed
        · split at failed <;> cases failed
        · cases failed

theorem flagAndPush_uses (inside : queueNum < cfg.refreshFilterNum)
    (listed : id ∈ ids) :
    Uses cfg ids queue (flagAndPush queueNum queue id) := by
  unfold flagAndPush
  split
  · next outside =>
      refine ⟨nofun, fun counted _ => ⟨id, listed, ?_⟩⟩
      unfold divCeil at outside
      omega
  · split
    · exact .pure ids
    · refine ⟨?_, fun _ => nofun⟩
      intro updated same
      cases same
      refine ⟨rfl, rfl, ?_⟩
      intro other queued
      rcases queued_push queued with old | rfl
      · exact .inl old
      · exact .inr listed

theorem Uses.of_error {raised : Panic} (other : raised ≠ .outOfRange) :
    Uses cfg ids queue (.error raised) where
  grows := nofun
  fails := by
    intro _ same
    cases same
    exact absurd rfl other

/-- The count of `getRBER` calls and the history are not part of the tables. -/
theorem Uses.of_tables {start : RefreshQueue}
    {result : Except Panic RefreshQueue} (uses : Uses cfg ids start result)
    (layers : start.layerCount = queue.layerCount)
    (queues : start.queueCount = queue.queueCount)
    (waits : start.refreshQueues = queue.refreshQueues)
    (checked : start.checkedQueues = queue.checkedQueues) :
    Uses cfg ids queue result := by
  refine ⟨?_, fun counted failed => ?_⟩
  · intro updated returned
    obtain ⟨layers', queues', added⟩ := uses.grows updated returned
    refine ⟨layers'.trans layers, queues'.trans queues, ?_⟩
    intro id queued
    refine (added id queued).imp_left ?_
    intro earlier
    unfold Queued at earlier ⊢
    rw [waits, checked] at earlier
    exact earlier
  · obtain ⟨id, listed, outside⟩ :=
      uses.fails (by rw [queues]; exact counted) failed
    exact ⟨id, listed, layers ▸ outside⟩

private theorem target_lt {numQueue : Nat} (positive : 0 < numQueue)
    (reached : Prop) [Decidable reached] (current later : Nat) :
    (if reached then current % numQueue else later % numQueue) < numQueue := by
  split
  · exact Nat.mod_lt _ positive
  · exact Nat.mod_lt _ positive

theorem setRefreshPeriod_uses
    (refreshCallCount eraseCount blockNum layerNum : Nat) :
    Uses cfg ((layersOf cfg layerNum).map (blockNum * 64 + ·)) queue
      (queue.setRefreshPeriod cfg env refreshCallCount eraseCount blockNum
        layerNum) := by
  unfold setRefreshPeriod
  dsimp only
  split
  · exact .of_error (by decide)
  next some =>
  have positive : 0 < cfg.refreshFilterNum := Nat.pos_of_ne_zero some
  split
  · next mode =>
      refine Uses.of_tables (insertToQueue_uses _ _ ?_) rfl rfl rfl rfl
      simp [layersOf, mode]
  · next mode =>
      split
      · exact .of_error (by decide)
      split
      · next first =>
          refine Uses.of_tables (Uses.foldlM ?_) rfl rfl rfl rfl
          intro offset inside queue
          refine insertToQueue_uses _ _ ?_
          refine List.mem_map.mpr ⟨layerNum / cfg.refreshGroupingSize *
            cfg.refreshGroupingSize + offset, ?_, by omega⟩
          unfold layersOf
          rw [mode]
          dsimp only
          rw [if_pos first]
          exact List.mem_map.mpr ⟨offset, inside, rfl⟩
      · split
        · exact .pure _
        · exact Uses.of_tables (Uses.pure _) rfl rfl rfl rfl
  · next mode =>
      split
      · next outside =>
          refine ⟨?_, fun _ _ => ⟨blockNum * 64 + layerNum, ?_, ?_⟩⟩
          · intro _ impossible
            cases impossible
          · exact List.mem_map.mpr ⟨layerNum, by simp [layersOf, mode], rfl⟩
          · unfold divCeil at outside
            omega
      split
      · exact .pure _
      · refine Uses.of_tables (Uses.foldlM ?_) rfl rfl rfl rfl
        intro segment inside queue
        refine flagAndPush_uses ?_ ?_
        · exact target_lt positive _ _ _
        · refine List.mem_map.mpr ⟨_, ?_, (Nat.add_assoc _ _ _).symm⟩
          unfold layersOf
          rw [mode]
          exact .tail _ (List.mem_map.mpr ⟨segment, inside, rfl⟩)
  · next mode =>
      split
      · next outside =>
          refine ⟨?_, fun _ _ => ⟨blockNum * 64 + layerNum, ?_, ?_⟩⟩
          · intro _ impossible
            cases impossible
          · exact List.mem_map.mpr ⟨layerNum, by simp [layersOf, mode], rfl⟩
          · unfold divCeil at outside
            omega
      split
      · exact .pure _
      · refine Uses.of_tables (Uses.foldlM ?_) rfl rfl rfl rfl
        intro layer inside queue
        refine flagAndPush_uses ?_ ?_
        · exact target_lt positive _ _ _
        · refine List.mem_map.mpr ⟨layer, ?_, rfl⟩
          unfold layersOf
          rw [mode]
          exact .tail _ inside
  · exact .pure _

theorem queued_swap {target : Nat} (queued : (queue.swap target).Queued id) :
    queue.Queued id := by
  obtain ⟨queueNum, waits | checked⟩ := queued
  · change id ∈ Function.update queue.refreshQueues target _ queueNum at waits
    by_cases same : queueNum = target
    · subst same
      rw [Function.update_self] at waits
      exact ⟨queueNum, .inr waits⟩
    · rw [Function.update_of_ne same] at waits
      exact ⟨queueNum, .inl waits⟩
  · change id ∈ Function.update queue.checkedQueues target _ queueNum
      at checked
    by_cases same : queueNum = target
    · subst same
      rw [Function.update_self] at checked
      exact ⟨queueNum, .inl checked⟩
    · rw [Function.update_of_ne same] at checked
      exact ⟨queueNum, .inr checked⟩

theorem queued_popFront {target : Nat}
    (queued : (queue.popFront target).Queued id) : queue.Queued id := by
  obtain ⟨queueNum, waits | checked⟩ := queued
  · exact ⟨queueNum, .inl waits⟩
  · refine ⟨queueNum, .inr ?_⟩
    change id ∈ Function.update queue.checkedQueues target _ queueNum
      at checked
    by_cases same : queueNum = target
    · subst same
      rw [Function.update_self] at checked
      exact List.mem_of_mem_tail checked
    · rwa [Function.update_of_ne same] at checked

end Uses

end RefreshQueue

/-! The layers that wait over whole runs. -/

def Identifies (cfg : Config) (id : Nat) : Prop :=
  ∃ blockNum < cfg.totalPhysicalBlocks, ∃ page < cfg.pagesInBlock,
    ∃ layer ∈ layersOf cfg (page % 64), id = blockNum * 64 + layer

theorem identifies_invariant (cfg : Config) (env : Environment)
    (allow : Allowance) :
    (machine cfg env allow).Invariant fun config =>
      ∀ id, config.2.refresh.Queued id → Identifies cfg id := by
  intro before after step sound waits
  cases step with
  | quiet same =>
      rw [same.refresh_eq]
      exact waits
  | program aimed found inside awaits mapped written scheduled =>
      intro id queued
      obtain ⟨pools, _⟩ := sound
      obtain ⟨_, pageInside, _⟩ := Block.write_ok written
      rw [(pools.wellFormed _ _ found).pageCount_eq] at pageInside
      have grows := (RefreshQueue.setRefreshPeriod_uses _ _ _ _).grows _
        scheduled
      rcases grows.2.2 id queued with earlier | listed
      · exact waits id earlier
      · obtain ⟨layer, member, same⟩ := List.mem_map.mp listed
        exact ⟨_, pools.inUse_lt ⟨_, found⟩, _, pageInside, layer, member,
          same.symm⟩
  | swap allowed target =>
      exact fun id queued => waits id (RefreshQueue.queued_swap queued)
  | skipLayer allowed front elsewhere =>
      exact fun id queued => waits id (RefreshQueue.queued_popFront queued)
  | popLayer allowed idle front here flagged =>
      exact fun id queued => waits id (RefreshQueue.queued_popFront queued)
  | _ => exact waits

/-- The identifiers fit the tables, also those that wait while operations are
under way, scheduling reaches for nothing outside, and no two layers share an
identifier. -/
structure RefreshIndices (cfg : Config) : Prop where
  inside : ∀ blockNum < cfg.totalPhysicalBlocks, ∀ page < cfg.pagesInBlock,
    ∀ layer ∈ layersOf cfg (page % 64),
      layerIndex blockNum layer < layerCheckSize cfg ∧
        layerIndex blockNum layer < queueNumSize cfg
  scheduled : ∀ env (queue : RefreshQueue) refreshCallCount eraseCount,
    queue.layerCount = queueNumSize cfg →
    queue.queueCount = cfg.refreshFilterNum →
    ∀ blockNum < cfg.totalPhysicalBlocks, ∀ page < cfg.pagesInBlock,
      queue.setRefreshPeriod cfg env refreshCallCount eraseCount blockNum
        (page % 64) ≠ .error .outOfRange
  queued : ∀ env phase state,
    (machine cfg env .all).Reaches (.rest ∅, blankState cfg) (phase, state) →
      ∀ id, state.refresh.Queued id →
        id < layerCheckSize cfg ∧ id < queueNumSize cfg
  distinct : ∀ blockNum < cfg.totalPhysicalBlocks,
    ∀ other < cfg.totalPhysicalBlocks, ∀ layer < 64, ∀ layer' < 64,
      layerIndex blockNum layer = layerIndex other layer' →
        blockNum = other ∧ layer = layer'

section Indices

variable {cfg : Config}

theorem Identifies.lt {id : Nat} (identifies : Identifies cfg id)
    (fits : cfg.refreshMode ≤ 3 → 0 < cfg.totalPhysicalBlocks →
      (cfg.totalPhysicalBlocks - 1) * 64 + topLayer cfg <
        layerCheckSize cfg) :
    id < layerCheckSize cfg := by
  obtain ⟨blockNum, block, page, inside, layer, member, rfl⟩ := identifies
  have below : page % 64 ≤ lastLayer cfg := by
    unfold lastLayer
    omega
  obtain ⟨mode, highest, _⟩ := mem_layersOf_le below member
  have last := fits mode (Nat.zero_lt_of_lt block)
  have order : blockNum * 64 ≤ (cfg.totalPhysicalBlocks - 1) * 64 :=
    Nat.mul_le_mul_right _ (Nat.le_sub_one_of_lt block)
  omega

theorem layerIndex_eq (bits : cfg.totalPhysicalBlocks * 64 ≤ 2 ^ 32)
    {blockNum layer : Nat} (block : blockNum < cfg.totalPhysicalBlocks)
    (small : layer < 64) : layerIndex blockNum layer = blockNum * 64 + layer := by
  have order : (blockNum + 1) * 64 ≤ cfg.totalPhysicalBlocks * 64 :=
    Nat.mul_le_mul_right _ block
  refine Nat.mod_eq_of_lt ?_
  omega

theorem layerCheckSize_le (cfg : Config) :
    layerCheckSize cfg ≤ queueNumSize cfg := Nat.mod_le _ _

/-- The identifiers are as they should be just when 32 bits hold them all and
the highest one of the last block fits the bitmap. -/
theorem refresh_indices (cfg : Config)
    (grouping : 0 < cfg.refreshGroupingSize) (pages : 0 < cfg.pagesInBlock) :
    RefreshIndices cfg ↔ cfg.totalPhysicalBlocks * 64 ≤ 2 ^ 32 ∧
      (cfg.refreshMode ≤ 3 → 0 < cfg.totalPhysicalBlocks →
        (cfg.totalPhysicalBlocks - 1) * 64 + topLayer cfg <
          layerCheckSize cfg) := by
  constructor
  · intro indices
    have bits : cfg.totalPhysicalBlocks * 64 ≤ 2 ^ 32 := by
      by_contra many
      have wrapped : layerIndex 0 0 = layerIndex 67108864 0 := by decide
      have same := indices.distinct 0 (by omega) 67108864 (by omega) 0
        (by decide) 0 (by decide) wrapped
      cases same.1
    refine ⟨bits, ?_⟩
    intro mode blocks
    obtain ⟨layerNum, early, member⟩ := topLayer_mem grouping mode
    have highest := mem_layersOf_le early member
    have inPage : layerNum < cfg.pagesInBlock ∧ layerNum % 64 = layerNum := by
      unfold lastLayer at early
      omega
    have fits := indices.inside (cfg.totalPhysicalBlocks - 1) (by omega)
      layerNum inPage.1 (topLayer cfg) (by rw [inPage.2]; exact member)
    rw [layerIndex_eq bits (by omega) highest.2.2] at fits
    exact fits.1
  · intro ⟨bits, fits⟩
    have inside : ∀ id, Identifies cfg id →
        id < layerCheckSize cfg ∧ id < queueNumSize cfg := by
      intro id identifies
      have below := identifies.lt fits
      exact ⟨below, below.trans_le (layerCheckSize_le cfg)⟩
    refine ⟨?_, ?_, ?_, ?_⟩
    · intro blockNum block page pageInside layer member
      have below : page % 64 ≤ lastLayer cfg := by
        unfold lastLayer
        omega
      rw [layerIndex_eq bits block (mem_layersOf_le below member).2.2]
      exact inside _ ⟨blockNum, block, page, pageInside, layer, member, rfl⟩
    · intro env queue refreshCallCount eraseCount layers queues blockNum block
        page pageInside failed
      obtain ⟨id, listed, outside⟩ :=
        (RefreshQueue.setRefreshPeriod_uses _ _ _ _).fails queues.ge failed
      obtain ⟨layer, member, rfl⟩ := List.mem_map.mp listed
      have below := (inside _ ⟨blockNum, block, page, pageInside, layer,
        member, rfl⟩).2
      omega
    · intro env phase state reaches
      have waits := (identifies_invariant cfg env .all).reaches reaches
        ⟨blankState_pools cfg, blankState_maps cfg⟩
        (fun id queued => by
          obtain ⟨_, none | none⟩ := queued <;> cases none)
      exact fun id queued => inside id (waits id queued)
    · intro blockNum block other block' layer small layer' small' same
      rw [layerIndex_eq bits block small, layerIndex_eq bits block' small'] at same
      omega

theorem refresh_indices_sample : RefreshIndices sampleConfig :=
  (refresh_indices sampleConfig (by decide) (by decide)).mpr (by decide)

end Indices

def halfConfig : Config :=
  { sampleConfig with
    pagesInBlock := 256
    ioUnitInPage_pos := Nat.one_pos
    pageCountToMaxPerf_pos := Nat.one_pos
    hotBlocksLimit_le := Nat.le_of_ble_eq_true rfl }

/-- Layer 0 of block 2 is outside both tables. -/
theorem refresh_indices_outside : ¬ RefreshIndices halfConfig := by
  intro indices
  have inside := indices.inside 2 (by decide) 0 (by decide) 0
    (List.mem_singleton.mpr rfl)
  exact absurd inside (by decide)

end SimpleSSD.FTL
