import SimpleSSD.FTL.Custody

namespace SimpleSSD.FTL

open Program

/-! Wear levelling: a returned block is placed by its erase count, so that the
free lists stay in the order of wear that `calculateWearLeveling` relies on. -/

/-- The accumulation of `calculateWearLeveling`: the erase counts and their
squares. -/
def addWear (sums : UInt64 × UInt64) (block : Block) : UInt64 × UInt64 :=
  let eraseCnt := block.eraseCount
  (sums.1 + UInt64.ofNat eraseCnt, sums.2 + UInt64.ofNat (eraseCnt * eraseCnt))

/-- `calculateWearLeveling` up to the division in floating point of the square
of the first sum by a multiple of the second; `none` stands for the result -1. -/
def calculateWearLeveling (state : State) : Option (UInt64 × UInt64) :=
  let used := state.blocks.entries.foldl
    (fun sums entry => addWear sums entry.2) (0, 0)
  let sums := ((state.free .plain).blocks.reverse.takeWhile fun block =>
    block.eraseCount ≠ 0).foldl addWear used
  if sums.2 = 0 then none else some sums

def State.placedBlocks (state : State) : List Block :=
  state.blocks.entries.map (·.2) ++ (state.free .plain).blocks

/-- What `calculateWearLeveling` stands for, over a whole list of blocks. -/
def wearOf (blocks : List Block) : Option (UInt64 × UInt64) :=
  let total := UInt64.ofNat (blocks.map (·.eraseCount)).sum
  let squares := UInt64.ofNat
    (blocks.map fun block => block.eraseCount * block.eraseCount).sum
  if squares = 0 then none else some (total, squares)

def WearOrdered (blocks : List Block) : Prop :=
  blocks.Pairwise fun block later => block.eraseCount ≤ later.eraseCount

def FreeOrdered (state : State) : Prop :=
  ∀ pool, WearOrdered (state.free pool).blocks

/-! The reverse search. -/

theorem freePosition_concat (erasedCount : Nat) (blocks : List Block)
    (block : Block) :
    freePosition erasedCount (blocks ++ [block]) =
      if erasedCount < block.eraseCount then
        (freePosition erasedCount blocks).or (some block.idx)
      else none := by
  unfold freePosition
  rw [List.reverse_append, List.reverse_singleton, List.singleton_append,
    List.takeWhile_cons]
  split
  · next heavier =>
      rw [if_pos (by simpa using heavier), List.getLast?_cons]
      cases (blocks.reverse.takeWhile fun block =>
        erasedCount < block.eraseCount).getLast? <;> rfl
  · next lighter =>
      rw [if_neg (by simpa using lighter)]
      rfl

/-- The position found in an ordered list parts it by the erase count. -/
theorem freePosition_parts (erasedCount : Nat) {blocks : List Block}
    (ordered : WearOrdered blocks) :
    (freePosition erasedCount blocks = none ∧
      ∀ block ∈ blocks, block.eraseCount ≤ erasedCount) ∨
    ∃ low anchor high, blocks = low ++ anchor :: high ∧
      freePosition erasedCount blocks = some anchor.idx ∧
      (∀ block ∈ low, block.eraseCount ≤ erasedCount) ∧
      ∀ block ∈ anchor :: high, erasedCount < block.eraseCount := by
  induction blocks using List.reverseRecOn with
  | nil => exact .inl ⟨rfl, by simp⟩
  | append_singleton blocks last induction =>
      obtain ⟨before, _, below⟩ := List.pairwise_append.mp ordered
      have bounded : ∀ block ∈ blocks, block.eraseCount ≤ last.eraseCount :=
        fun block member => below block member last (by simp)
      rw [freePosition_concat]
      split
      · next heavier =>
          refine .inr ?_
          rcases induction before with ⟨none, light⟩ |
            ⟨low, anchor, high, same, found, light, heavy⟩
          · refine ⟨blocks, last, [], rfl, by rw [none]; rfl, light, ?_⟩
            simpa using heavier
          · refine ⟨low, anchor, high ++ [last], by rw [same]; simp,
              by rw [found]; rfl, light, ?_⟩
            intro block member
            rw [← List.cons_append, List.mem_append] at member
            rcases member with earlier | final
            · exact heavy block earlier
            · rw [List.mem_singleton.mp final]
              exact heavier
      · next lighter =>
          refine .inl ⟨rfl, ?_⟩
          have light := Nat.le_of_not_lt lighter
          intro block member
          rcases List.mem_append.mp member with earlier | final
          · exact (bounded block earlier).trans light
          · rw [List.mem_singleton.mp final]
            exact light

/-- A block placed by a search in an earlier, longer list keeps the order. -/
theorem WearOrdered.emplace {earlier blocks placed : List Block}
    {block : Block} (ordered : WearOrdered earlier)
    (nodup : (earlier.map (·.idx)).Nodup) (sublist : blocks.Sublist earlier)
    (emplaced : emplaceBefore (freePosition block.eraseCount earlier) block
      blocks = .ok placed) : WearOrdered placed := by
  rcases freePosition_parts block.eraseCount ordered with ⟨none, light⟩ |
    ⟨low, anchor, high, same, found, light, heavy⟩
  · rw [none] at emplaced
    cases emplaced
    refine List.pairwise_append.mpr ⟨ordered.sublist sublist, by simp, ?_⟩
    intro other member last here
    rw [List.mem_singleton.mp here]
    exact light other (sublist.subset member)
  · rw [found] at emplaced
    subst same
    obtain ⟨first, rest, rfl, firstLow, restHigh⟩ :=
      List.sublist_append_iff.mp sublist
    rw [List.map_append, List.map_cons] at nodup
    have apart := List.nodup_append.mp nodup
    have notLow : ∀ other ∈ first, other.idx ≠ anchor.idx :=
      fun other member => apart.2.2 _ (List.mem_map_of_mem (firstLow.subset member))
        _ (.head _)
    have notHigh : ∀ other ∈ high, other.idx ≠ anchor.idx :=
      fun other member equality => (List.nodup_cons.mp apart.2.1).1
        (equality ▸ List.mem_map_of_mem member)
    unfold emplaceBefore at emplaced
    dsimp only at emplaced
    split at emplaced
    · next present =>
        obtain ⟨named, member, here⟩ := List.any_eq_true.mp present
        simp only [decide_eq_true_eq] at here
        -- the anchor heads what is left of its half
        obtain ⟨tail, tailHigh, rfl⟩ : ∃ tail : List Block,
            tail.Sublist high ∧ rest = anchor :: tail := by
          cases restHigh with
          | cons _ inHigh =>
              rcases List.mem_append.mp member with inFirst | inRest
              · exact absurd here (notLow named inFirst)
              · exact absurd here (notHigh named (inHigh.subset inRest))
          | cons_cons _ inHigh => exact ⟨_, inHigh, rfl⟩
        have stays : ∀ other ∈ first,
            (decide (other.idx ≠ anchor.idx)) = true :=
          fun other member => by simpa using notLow other member
        rw [List.takeWhile_append_of_pos stays,
          List.dropWhile_append_of_pos stays, List.takeWhile_cons_of_neg
          (by simp), List.dropWhile_cons_of_neg (by simp)] at emplaced
        cases emplaced
        rw [List.append_nil]
        refine List.pairwise_append.mpr
          ⟨(List.pairwise_append.mp (ordered.sublist sublist)).1, ?_, ?_⟩
        · refine List.pairwise_cons.mpr ⟨?_,
            (List.pairwise_append.mp (ordered.sublist sublist)).2.1⟩
          intro other member
          exact (heavy other ((List.Sublist.cons_cons anchor tailHigh).subset
            member)).le
        · intro other before later after
          rcases List.mem_cons.mp after with rfl | behind
          · exact light other (firstLow.subset before)
          · exact (List.pairwise_append.mp (ordered.sublist sublist)).2.2
              other before later behind
    · cases emplaced

theorem freeOrdered_setFree {state : State} (ordered : FreeOrdered state)
    {pool : FreePool} {list : FreeList} (here : WearOrdered list.blocks)
    {updated : State}
    (free_eq : updated.free = Function.update state.free pool list) :
    FreeOrdered updated := by
  intro other
  rw [free_eq]
  by_cases same : other = pool
  · subst same
    rw [Function.update_self]
    exact here
  · rw [Function.update_of_ne same]
    exact ordered other

theorem freeOrdered_custody (cfg : Config) : Custody cfg FreeOrdered where
  agree := by
    intro state updated ordered _ free_eq _
    unfold FreeOrdered
    rw [free_eq]
    exact ordered
  touch := fun ordered _ _ => ordered
  refresh := fun _ ordered _ => ordered
  take := fun {_ pool _ _} _ ordered _ _ =>
    freeOrdered_setFree ordered ((ordered pool).sublist List.eraseP_sublist) rfl
  give := fun {_ _ pool _ _ _} _ housed before _ ordered sublist _ emplaced =>
    freeOrdered_setFree ordered
      ((before pool).emplace (housed.indices_nodup pool) sublist emplaced) rfl
  drop := fun ordered _ => ordered

theorem freeOrdered_blank (cfg : Config) : FreeOrdered (blankState cfg) := by
  intro pool
  refine List.pairwise_of_forall_mem_list ?_
  intro block member later member'
  obtain ⟨_, _, rfl, _⟩ := blankState_free cfg pool block member
  obtain ⟨_, _, rfl, _⟩ := blankState_free cfg pool later member'
  exact le_rfl

/-! The sums over an ordered list. -/

theorem foldl_addWear (blocks : List Block) (sums : UInt64 × UInt64) :
    blocks.foldl addWear sums =
      (sums.1 + UInt64.ofNat (blocks.map (·.eraseCount)).sum,
        sums.2 + UInt64.ofNat
          (blocks.map fun block => block.eraseCount * block.eraseCount).sum) := by
  induction blocks generalizing sums with
  | nil => simp
  | cons block rest induction =>
      rw [List.foldl_cons, induction]
      simp only [addWear, List.map_cons, List.sum_cons, UInt64.ofNat_add,
        UInt64.add_assoc]

theorem foldl_addWear_worn {blocks : List Block} (ordered : WearOrdered blocks)
    (sums : UInt64 × UInt64) :
    (blocks.reverse.takeWhile fun block => block.eraseCount ≠ 0).foldl addWear
      sums = blocks.foldl addWear sums := by
  induction blocks using List.reverseRecOn generalizing sums with
  | nil => rfl
  | append_singleton blocks last induction =>
      obtain ⟨before, _, below⟩ := List.pairwise_append.mp ordered
      rw [List.reverse_append, List.reverse_singleton, List.singleton_append,
        List.takeWhile_cons, List.foldl_append]
      split
      · next worn =>
          rw [List.foldl_cons, induction before, foldl_addWear blocks,
            foldl_addWear blocks]
          simp only [addWear, List.foldl_cons, List.foldl_nil, Prod.mk.injEq]
          constructor <;> ac_rfl
      · next unworn =>
          have zero : last.eraseCount = 0 := by simpa using unworn
          have idle : ∀ block ∈ blocks, block.eraseCount = 0 := by
            intro block member
            have bound := below block member last (by simp)
            omega
          have nothing : (blocks.map (·.eraseCount)).sum = 0 ∧
              (blocks.map fun block =>
                block.eraseCount * block.eraseCount).sum = 0 := by
            constructor
            · refine List.sum_eq_zero ?_
              simpa using idle
            · refine List.sum_eq_zero ?_
              simpa using idle
          rw [foldl_addWear blocks, nothing.1, nothing.2]
          simp [addWear, zero]

theorem calculateWearLeveling_eq {state : State} (ordered : FreeOrdered state) :
    calculateWearLeveling state = wearOf state.placedBlocks := by
  have whole : ((state.free .plain).blocks.reverse.takeWhile fun block =>
      block.eraseCount ≠ 0).foldl addWear
        (state.blocks.entries.foldl (fun sums entry => addWear sums entry.2)
          (0, 0)) = state.placedBlocks.foldl addWear (0, 0) := by
    rw [foldl_addWear_worn (ordered .plain), State.placedBlocks,
      List.foldl_append, List.foldl_map]
  unfold calculateWearLeveling wearOf
  dsimp only
  rw [whole, foldl_addWear]
  simp only [UInt64.zero_add]

/-- Wherever a life ends, also short of a search that fails, the free lists are
in the order of wear, and the backward scan of `freeBlocks` misses nothing. -/
theorem wear_ordered (cfg : Config) (env : Environment) (ops : List Op) :
    Meets (life cfg env ops) (blankState cfg)
      (fun _ final => FreeOrdered final ∧
        calculateWearLeveling final = wearOf final.placedBlocks)
      fun _ stopped => FreeOrdered stopped ∧
        calculateWearLeveling stopped = wearOf stopped.placedBlocks := by
  have rests :=
    (freeOrdered_custody cfg).life env (freeOrdered_blank cfg) ops
  refine rests.mono ?_ ?_
  · intro _ final rests
    exact ⟨rests.2, calculateWearLeveling_eq rests.2⟩
  · intro _ stopped rests
    exact ⟨rests.2, calculateWearLeveling_eq rests.2⟩

end SimpleSSD.FTL
