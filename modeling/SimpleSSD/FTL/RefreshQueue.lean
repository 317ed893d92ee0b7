import SimpleSSD.FTL.Config
import Mathlib.Data.List.Count
import Mathlib.Logic.Function.Basic

namespace SimpleSSD.FTL

/-! The refresh schedule: which layers wait in which queue.  `requeued` and
`unscheduled` are history, kept for specifications only. -/

structure RefreshQueue where
  /-- Size of `refreshQueues` and of `checkedQueues`. -/
  queueCount : Nat
  /-- Size of `layerQueueNum` and of `insertedLayerCheck`. -/
  layerCount : Nat
  insertedLayerCheck : Nat → Bool
  layerQueueNum : Nat → Nat
  refreshQueues : Nat → List Nat
  checkedQueues : Nat → List Nat
  /-- Number of `getRBER` calls made so far. -/
  rberCalls : Nat
  /-- Layers that were moved to another queue while their old queue number named
  a queue of which only the checked part held them. -/
  requeued : List Nat
  /-- Layers that received a page without being flagged or queued. -/
  unscheduled : List Nat

namespace RefreshQueue

def empty : RefreshQueue where
  queueCount := 0
  layerCount := 0
  insertedLayerCheck := fun _ => false
  layerQueueNum := fun _ => 0
  refreshQueues := fun _ => []
  checkedQueues := fun _ => []
  rberCalls := 0
  requeued := []
  unscheduled := []

def divCeil (dividend divisor : Nat) : Nat := (dividend - 1) / divisor + 1

/-- The refresh tables built by `initialize`. -/
def setup (cfg : Config) (queue : RefreshQueue) : RefreshQueue :=
  { queue with
    queueCount := queue.queueCount + cfg.refreshFilterNum
    layerCount := divCeil (cfg.totalPhysicalBlocks * cfg.pagesInBlock) 8
    insertedLayerCheck := fun _ => false
    layerQueueNum := fun _ => 0 }

/-- `7200000000000000`, two hours in picoseconds. -/
def refreshPeriod : Nat := 3600000000000000 * 2

def push (queue : RefreshQueue) (queueNum layerID : Nat) : RefreshQueue :=
  { queue with
    refreshQueues := Function.update queue.refreshQueues queueNum
      (queue.refreshQueues queueNum ++ [layerID]) }

def setLayerCheck (queue : RefreshQueue) (layerID : Nat) (value : Bool) :
    RefreshQueue :=
  { queue with
    insertedLayerCheck :=
      Function.update queue.insertedLayerCheck layerID value }

def enqueue (queue : RefreshQueue) (queueNum layerID : Nat) : RefreshQueue :=
  { queue.push queueNum layerID with
    layerQueueNum := Function.update queue.layerQueueNum layerID queueNum }

/-- Only `refreshQueues` is searched. -/
def removeFromQueue (queue : RefreshQueue) (layerID : Nat) : RefreshQueue :=
  let queueNum := queue.layerQueueNum layerID
  { queue with
    refreshQueues := Function.update queue.refreshQueues queueNum
      ((queue.refreshQueues queueNum).erase layerID) }

/-- Position of a queue in the order of its next refresh, as `insertToQueue`
computes it in 32-bit arithmetic. -/
def queueDistance (queueNum curQueue numQueue : Nat) : Nat :=
  if queueNum ≤ curQueue then (queueNum + numQueue) % 2 ^ 32 else queueNum

/-- `newQueue - oldQueue > 24` on `uint32_t`. -/
def movesTo (newQueue oldQueue : Nat) : Bool :=
  24 < (newQueue + 2 ^ 32 - oldQueue) % 2 ^ 32

/-- History of a move: the layer is not in the part of its old queue that
`removeFromQueue` searches. -/
def noteMove (queue : RefreshQueue) (layerID : Nat) : RefreshQueue :=
  if layerID ∈ queue.refreshQueues (queue.layerQueueNum layerID) then queue
  else { queue with requeued := layerID :: queue.requeued }

def insertToQueue (cfg : Config) (refreshCallCount queueNum layerID : Nat)
    (queue : RefreshQueue) : Except Panic RefreshQueue :=
  let numQueue := cfg.refreshFilterNum
  if numQueue = 0 then
    .error .divisionByZero
  else if queue.layerCount ≤ layerID ∨
      queue.queueCount ≤ queueNum % numQueue then
    .error .outOfRange
  else
    let curQueue := refreshCallCount % numQueue
    if queue.insertedLayerCheck layerID then
      let newQueue := queueDistance (queueNum % numQueue) curQueue numQueue
      let oldQueue := queueDistance (queue.layerQueueNum layerID) curQueue
        numQueue
      if movesTo newQueue oldQueue then
        .ok (((queue.noteMove layerID).removeFromQueue layerID).enqueue
          (queueNum % numQueue) layerID)
      else
        .ok queue
    else
      .ok ((queue.enqueue (queueNum % numQueue) layerID).setLayerCheck layerID
        true)

/-- The search for the first interval whose error rate exceeds the limit,
together with the number of `getRBER` calls made.  `remaining` intervals are
left before `interval` would reach the number of queues. -/
def safeInterval (env : Environment) (limit : Rat) (eraseCount layer : Nat) :
    (remaining interval calls : Nat) → Nat × Nat
  | 0, interval, calls => (interval, calls)
  | remaining + 1, interval, calls =>
      if limit < env.getRBER calls (refreshPeriod * interval % 2 ^ 64)
          eraseCount layer then
        (interval, calls + 1)
      else
        safeInterval env limit eraseCount layer remaining (interval + 1)
          (calls + 1)

/-- Flag and push a layer that is not flagged yet, as the segment-grouping modes
do: `layerQueueNum` keeps its value. -/
def flagAndPush (queueNum : Nat) (queue : RefreshQueue) (layerID : Nat) :
    Except Panic RefreshQueue :=
  if divCeil queue.layerCount 8 * 8 ≤ layerID ∨ queue.queueCount ≤ queueNum then
    .error .outOfRange
  else if queue.insertedLayerCheck layerID then
    .ok queue
  else
    .ok ((queue.push queueNum layerID).setLayerCheck layerID true)

def setRefreshPeriod (cfg : Config) (env : Environment)
    (refreshCallCount eraseCount blockNum layerNum : Nat)
    (queue : RefreshQueue) : Except Panic RefreshQueue :=
  let numQueue := cfg.refreshFilterNum
  let layerID := blockNum * 64 + layerNum
  if numQueue = 0 then
    .error .divisionByZero
  else
    let curQueue := refreshCallCount % numQueue
    match cfg.refreshMode with
    | 0 =>
        let (interval, calls) := safeInterval env cfg.refreshMaxRBER eraseCount
          (layerID % 64) (numQueue - 1) 1 queue.rberCalls
        let target := if interval = numQueue then curQueue
          else (curQueue + interval) % 2 ^ 32
        insertToQueue cfg refreshCallCount target layerID
          { queue with rberCalls := calls }
    | 1 =>
        let groupingSize := cfg.refreshGroupingSize
        if groupingSize = 0 then
          .error .divisionByZero
        else
          let groupFirst := layerNum / groupingSize * groupingSize
          if layerNum = groupFirst then
            let groupLast := min (groupFirst + groupingSize - 1) 63
            let (interval, calls) := safeInterval env cfg.refreshMaxRBER
              eraseCount groupLast (numQueue - 1) 1 queue.rberCalls
            let target := if interval = numQueue then curQueue
              else (curQueue + interval) % 2 ^ 32 % numQueue
            (List.range (min groupingSize (64 - groupFirst))).foldlM
              (fun queue member => insertToQueue cfg refreshCallCount target
                (blockNum * 64 + groupFirst + member) queue)
              { queue with rberCalls := calls }
          else if queue.insertedLayerCheck layerID then
            .ok queue
          else
            .ok { queue with unscheduled := layerID :: queue.unscheduled }
    | 2 =>
        if divCeil queue.layerCount 8 * 8 ≤ layerID then
          .error .outOfRange
        else if queue.insertedLayerCheck layerID then
          .ok queue
        else
          let groupFirst := if layerNum = 63 then 63 else layerNum % 21
          let (interval, calls) := safeInterval env (32 / 100000) eraseCount
            groupFirst (numQueue - 1) 1 queue.rberCalls
          let target := if interval = numQueue then curQueue
            else (curQueue + interval) % 2 ^ 32 % numQueue
          ((List.range 3).filter fun segment =>
              groupFirst + segment * 21 < 64).foldlM
            (fun queue segment => flagAndPush target queue
              (blockNum * 64 + groupFirst + segment * 21))
            { queue with rberCalls := calls }
    | 3 =>
        if divCeil queue.layerCount 8 * 8 ≤ layerID then
          .error .outOfRange
        else if queue.insertedLayerCheck layerID then
          .ok queue
        else
          let groupFirst := if layerNum = 63 then 63
            else layerNum % 21 / 3 * 3
          let groupLast := min (groupFirst + 2) 63
          let (interval, calls) := safeInterval env (32 / 100000) eraseCount
            groupLast (numQueue - 1) 1 queue.rberCalls
          let target := if interval = numQueue then curQueue
            else (curQueue + interval) % 2 ^ 32 % numQueue
          (((List.range 3).flatMap fun segment =>
              (List.range 3).map fun neighbour =>
                groupFirst + segment * 21 + neighbour).filter (· < 64)).foldlM
            (fun queue layer => flagAndPush target queue
              (blockNum * 64 + layer))
            { queue with rberCalls := calls }
    | _ => .ok queue

/-- The exchange of the two halves of the target queue in `refresh_event`. -/
def swap (queue : RefreshQueue) (target : Nat) : RefreshQueue :=
  { queue with
    checkedQueues := Function.update queue.checkedQueues target
      (queue.refreshQueues target)
    refreshQueues := Function.update queue.refreshQueues target
      (queue.checkedQueues target) }

def popFront (queue : RefreshQueue) (queueNum : Nat) : RefreshQueue :=
  { queue with
    checkedQueues := Function.update queue.checkedQueues queueNum
      (queue.checkedQueues queueNum).tail }

/-! A page that cannot be scheduled is reported by one of two errors. -/

def Unschedulable (raised : Panic) : Prop :=
  raised = .divisionByZero ∨ raised = .outOfRange

theorem foldlM_error {α β ε : Type} {step : β → α → Except ε β}
    {items : List α} {start : β} {raised : ε} {post : ε → Prop}
    (each : ∀ accumulator item raised,
      step accumulator item = .error raised → post raised)
    (failed : items.foldlM step start = .error raised) : post raised := by
  induction items generalizing start with
  | nil => cases failed
  | cons item rest induction =>
      rw [List.foldlM_cons] at failed
      cases first : step start item with
      | error other =>
          rw [first] at failed
          cases failed
          exact each start item raised first
      | ok next =>
          rw [first] at failed
          exact induction failed

theorem insertToQueue_error {cfg : Config}
    {refreshCallCount queueNum layerID : Nat} {queue : RefreshQueue}
    {raised : Panic}
    (failed : insertToQueue cfg refreshCallCount queueNum layerID queue =
      .error raised) : Unschedulable raised := by
  unfold insertToQueue at failed
  dsimp only at failed
  split at failed
  · cases failed
    exact .inl rfl
  · split at failed
    · cases failed
      exact .inr rfl
    · split at failed
      · split at failed <;> cases failed
      · cases failed

theorem flagAndPush_error {queueNum layerID : Nat} {queue : RefreshQueue}
    {raised : Panic}
    (failed : flagAndPush queueNum queue layerID = .error raised) :
    Unschedulable raised := by
  unfold flagAndPush at failed
  split at failed
  · cases failed
    exact .inr rfl
  · split at failed <;> cases failed

theorem setRefreshPeriod_error {cfg : Config} {env : Environment}
    {refreshCallCount eraseCount blockNum layerNum : Nat}
    {queue : RefreshQueue} {raised : Panic}
    (failed : queue.setRefreshPeriod cfg env refreshCallCount eraseCount
      blockNum layerNum = .error raised) : Unschedulable raised := by
  unfold setRefreshPeriod at failed
  dsimp only at failed
  split at failed
  · cases failed
    exact .inl rfl
  split at failed
  · exact insertToQueue_error failed
  · split at failed
    · cases failed
      exact .inl rfl
    · split at failed
      · exact foldlM_error (fun _ _ _ => insertToQueue_error) failed
      · split at failed <;> cases failed
  · split at failed
    · cases failed
      exact .inr rfl
    · split at failed
      · cases failed
      · exact foldlM_error (fun _ _ _ => flagAndPush_error) failed
  · split at failed
    · cases failed
      exact .inr rfl
    · split at failed
      · cases failed
      · exact foldlM_error (fun _ _ _ => flagAndPush_error) failed
  · cases failed

end RefreshQueue

end SimpleSSD.FTL
