import SimpleSSD.FTL.FreeBlock
import Mathlib.Data.List.Sort

namespace SimpleSSD.FTL

/-! Selection of the blocks that a garbage collection reclaims. -/

variable (cfg : Config) (env : Environment)

/-- Number of blocks to reclaim before the increase by `bReclaimMore`. -/
def blocksToReclaim (pool : FreePool) (state : State) : Except Panic Nat :=
  match cfg.gcMode with
  | .mode0 => .ok cfg.reclaimBlock
  | .mode1 => .ok (env.reclaimTarget pool (state.free pool).count)
  | .invalid => .error .invalidGCMode

def candidates (keep : Block → Bool) (state : State) : List (Nat × Block) :=
  (env.iterate state.selections state.blocks.keys).filterMap fun key =>
    match state.blocks.lookup key with
    | some block => if keep block then some (key, block) else none
    | none => none

def isFull (block : Block) : Bool :=
  block.getNextWritePageIndex = cfg.pagesInBlock

def calculateVictimWeight (state : State) :
    Except Panic (List (Nat × Nat)) :=
  let full := candidates env (isFull cfg) state
  match cfg.evictPolicy with
  | .greedy | .random | .dChoice =>
      .ok (full.map fun entry => (entry.1, entry.2.getValidPageCountRaw))
  | .costBenefit | .reco =>
      .ok (full.map fun entry =>
        (entry.1, env.victimRank state.selections entry.1))
  | .invalid => .error .invalidEvictPolicy

def sortWeights (weights : List (Nat × Nat)) : List (Nat × Nat) :=
  weights.insertionSort fun left right => left.2 ≤ right.2

def sampleWeights (draw amount : Nat) (weights : List (Nat × Nat)) :
    Except Panic (List (Nat × Nat)) :=
  if weights.length < amount then
    .error .endlessSampling
  else
    .ok ((env.sample draw weights).take amount)

def sampledWeights (nBlocks : Nat) (state : State)
    (weights : List (Nat × Nat)) : Except Panic (List (Nat × Nat)) :=
  match cfg.evictPolicy with
  | .random => sampleWeights env state.selections nBlocks weights
  | .dChoice =>
      sampleWeights env state.selections (cfg.dChoiceParam * nBlocks) weights
  | _ => .ok weights

def victimsOf (state : State) : Except Panic (List Nat) := do
  let reclaim ← blocksToReclaim cfg env .plain state
  let nBlocks := if state.bReclaimMore then reclaim + cfg.pageCountToMaxPerf
    else reclaim
  let weights ← calculateVictimWeight cfg env state
  let weights ← sampledWeights cfg env nBlocks state weights
  return ((sortWeights weights).take nBlocks).map Prod.fst

def selectVictimBlock : FTLM (List Nat) := do
  let state ← get
  let victims ← liftExcept (victimsOf cfg env state)
  set { state with
    bReclaimMore := false
    selections := state.selections + 1 }
  return victims

def selectHotVictimBlock : FTLM (List Nat) := do
  let state ← get
  let reclaim ← liftExcept (blocksToReclaim cfg env .hot state)
  let nBlocks := if state.bReclaimMore then reclaim + 1 else reclaim
  set { state with
    bReclaimMore := false
    hotWindow := state.hotWindow.drop nBlocks }
  return state.hotWindow.take nBlocks

def calculateColdVictimWeight (state : State) :
    Except Panic (List (Nat × Nat)) :=
  let full := candidates env
    (fun block => block.blockType ≠ .hot && isFull cfg block) state
  match cfg.evictPolicy with
  | .greedy =>
      .ok (full.map fun entry => (entry.1, entry.2.getValidPageCountRaw))
  | .reco =>
      .ok (full.map fun entry =>
        (entry.1, env.victimRank state.selections entry.1))
  | _ => .error .invalidColdEvictPolicy

def coldVictimsOf (state : State) : Except Panic (List Nat) := do
  let reclaim ← blocksToReclaim cfg env .cold state
  let nBlocks := if state.bReclaimMore then reclaim + 1 else reclaim
  let weights ← calculateColdVictimWeight cfg env state
  return ((sortWeights weights).take nBlocks).map Prod.fst

def selectColdVictimBlock : FTLM (List Nat) := do
  let state ← get
  let victims ← liftExcept (coldVictimsOf cfg env state)
  set { state with
    bReclaimMore := false
    selections := state.selections + 1
    coolDownWindow := victims.foldl (fun window victim => window.erase victim)
      state.coolDownWindow }
  return victims

end SimpleSSD.FTL
