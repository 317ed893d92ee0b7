import SimpleSSD.FTL.Consistency
import SimpleSSD.FTL.Schedule

namespace SimpleSSD.FTL.RefreshQueue

/-! When `insertToQueue` moves a layer that is queued already. -/

variable {cfg : Config} {queue updated : RefreshQueue}
  {refreshCallCount queueNum layerID : Nat}

def eventsUntil (numQueue curQueue queueNum : Nat) : Nat :=
  if (queueNum + numQueue - curQueue) % numQueue = 0 then numQueue
  else (queueNum + numQueue - curQueue) % numQueue

/-- A layer leaves the queue that its number names and waits in another one. -/
structure Moved (queue updated : RefreshQueue) (target layerID : Nat) :
    Prop where
  refreshQueues : updated.refreshQueues =
    ((queue.removeFromQueue layerID).push target layerID).refreshQueues
  checkedQueues : updated.checkedQueues = queue.checkedQueues
  layerQueueNum : updated.layerQueueNum =
    Function.update queue.layerQueueNum layerID target

structure Unmoved (queue updated : RefreshQueue) : Prop where
  refreshQueues : updated.refreshQueues = queue.refreshQueues
  checkedQueues : updated.checkedQueues = queue.checkedQueues
  layerQueueNum : updated.layerQueueNum = queue.layerQueueNum

theorem queueDistance_eq {numQueue curQueue : Nat} (hcur : curQueue < numQueue)
    (hqueue : queueNum < numQueue) :
    queueDistance queueNum curQueue numQueue % 2 ^ 32 =
      (curQueue + eventsUntil numQueue curQueue queueNum) % 2 ^ 32 := by
  unfold queueDistance eventsUntil
  by_cases hle : queueNum ≤ curQueue
  · rw [if_pos hle, Nat.mod_mod]
    by_cases heq : queueNum = curQueue
    · have hzero : (queueNum + numQueue - curQueue) % numQueue = 0 := by
        rw [heq, Nat.add_sub_cancel_left, Nat.mod_self]
      rw [if_pos hzero, heq]
    · have hmod : (queueNum + numQueue - curQueue) % numQueue =
          queueNum + numQueue - curQueue :=
        Nat.mod_eq_of_lt (by omega)
      rw [hmod, if_neg (by omega)]
      congr 1
      omega
  · have hmod : (queueNum + numQueue - curQueue) % numQueue =
        queueNum - curQueue := by
      have hsplit : queueNum + numQueue - curQueue =
          (queueNum - curQueue) + numQueue := by
        omega
      rw [hsplit, Nat.add_mod_right]
      exact Nat.mod_eq_of_lt (by omega)
    rw [if_neg hle, hmod, if_neg (by omega)]
    congr 1
    omega

theorem eventsUntil_pos {numQueue curQueue : Nat} (hpos : 0 < numQueue) :
    0 < eventsUntil numQueue curQueue queueNum ∧
      eventsUntil numQueue curQueue queueNum ≤ numQueue := by
  unfold eventsUntil
  have hlt := Nat.mod_lt (queueNum + numQueue - curQueue) hpos
  split
  · omega
  · omega

theorem queueDistance_lt {numQueue curQueue : Nat} (hqueue : queueNum < numQueue)
    (hwidth : numQueue < 2 ^ 32) :
    queueDistance queueNum curQueue numQueue < 2 ^ 32 := by
  unfold queueDistance
  split
  · exact Nat.mod_lt _ (by decide)
  · omega

/-- The comparison that decides the move, in refresh events: a queue that comes
up earlier counts as one that is `2 ^ 32` events further on. -/
theorem movesTo_iff {numQueue curQueue newQueue oldQueue : Nat}
    (hwidth : numQueue < 2 ^ 32) (hcur : curQueue < numQueue)
    (hnew : newQueue < numQueue) (hold : oldQueue < numQueue) :
    movesTo (queueDistance newQueue curQueue numQueue)
        (queueDistance oldQueue curQueue numQueue) = true ↔
      eventsUntil numQueue curQueue oldQueue + 24 <
          eventsUntil numQueue curQueue newQueue ∨
        (eventsUntil numQueue curQueue newQueue <
            eventsUntil numQueue curQueue oldQueue ∧
          eventsUntil numQueue curQueue oldQueue + 24 <
            eventsUntil numQueue curQueue newQueue + 2 ^ 32) := by
  have hnew' := queueDistance_eq hcur hnew
  have hold' := queueDistance_eq hcur hold
  have hnewLt := @queueDistance_lt newQueue numQueue curQueue hnew hwidth
  have holdLt := @queueDistance_lt oldQueue numQueue curQueue hold hwidth
  have hnewPos := @eventsUntil_pos newQueue numQueue curQueue (by omega)
  have holdPos := @eventsUntil_pos oldQueue numQueue curQueue (by omega)
  unfold movesTo
  rw [decide_eq_true_iff]
  rw [Nat.mod_eq_of_lt hnewLt] at hnew'
  rw [Nat.mod_eq_of_lt holdLt] at hold'
  omega

theorem insertToQueue_queued
    (hflag : queue.insertedLayerCheck layerID = true)
    (h : insertToQueue cfg refreshCallCount queueNum layerID queue =
      .ok updated) :
    0 < cfg.refreshFilterNum ∧
      (movesTo
          (queueDistance (queueNum % cfg.refreshFilterNum)
            (refreshCallCount % cfg.refreshFilterNum) cfg.refreshFilterNum)
          (queueDistance (queue.layerQueueNum layerID)
            (refreshCallCount % cfg.refreshFilterNum) cfg.refreshFilterNum) =
            true ∧
          queue.Moved updated (queueNum % cfg.refreshFilterNum) layerID ∨
        movesTo
          (queueDistance (queueNum % cfg.refreshFilterNum)
            (refreshCallCount % cfg.refreshFilterNum) cfg.refreshFilterNum)
          (queueDistance (queue.layerQueueNum layerID)
            (refreshCallCount % cfg.refreshFilterNum) cfg.refreshFilterNum) =
            false ∧
          updated = queue) := by
  unfold insertToQueue at h
  dsimp only at h
  split at h
  · cases h
  next hzero =>
  refine ⟨Nat.pos_of_ne_zero hzero, ?_⟩
  split at h
  · cases h
  split at h
  · next hmoves =>
      cases h
      refine .inl ⟨hmoves, ?_⟩
      constructor
      · unfold enqueue push removeFromQueue
        simp only [noteMove_refreshQueues, noteMove_layerQueueNum]
      · unfold noteMove
        split
        · rfl
        · rfl
      · unfold enqueue removeFromQueue
        simp only [noteMove_layerQueueNum]
  · next hmoves =>
      cases h
      exact .inr ⟨Bool.eq_false_iff.mpr hmoves, rfl⟩

/-- A layer that is queued already moves when its new queue comes up more than
24 refresh events after its old one, and stays where it is otherwise, unless the
new queue comes up before the old one: then it moves too, since the difference is
taken without a sign. -/
theorem requeue_rule (hflag : queue.insertedLayerCheck layerID = true)
    (hnamed : queue.layerQueueNum layerID < cfg.refreshFilterNum)
    (hwidth : cfg.refreshFilterNum < 2 ^ 32)
    (h : insertToQueue cfg refreshCallCount queueNum layerID queue =
      .ok updated) :
    let numQueue := cfg.refreshFilterNum
    let curQueue := refreshCallCount % numQueue
    let newEvents := eventsUntil numQueue curQueue (queueNum % numQueue)
    let oldEvents := eventsUntil numQueue curQueue (queue.layerQueueNum layerID)
    ((oldEvents + 24 < newEvents →
          queue.Moved updated (queueNum % numQueue) layerID) ∧
        (¬ oldEvents + 24 < newEvents → queue.Unmoved updated)) ↔
      oldEvents ≤ newEvents ∨ newEvents + 2 ^ 32 ≤ oldEvents + 24 := by
  intro numQueue curQueue newEvents oldEvents
  obtain ⟨hpos, houtcome⟩ := insertToQueue_queued hflag h
  have hiff := movesTo_iff hwidth (Nat.mod_lt refreshCallCount hpos)
    (Nat.mod_lt queueNum hpos) hnamed
  obtain ⟨hmoves, hmoved⟩ | ⟨hstays, rfl⟩ := houtcome
  · have hcase := hiff.mp hmoves
    constructor
    · rintro ⟨-, hunmoved⟩
      by_contra hearlier
      have hsame := (hunmoved (by omega)).layerQueueNum
      rw [hmoved.layerQueueNum] at hsame
      have hqueue := congrFun hsame layerID
      rw [Function.update_self] at hqueue
      have hevents : newEvents = oldEvents :=
        congrArg (eventsUntil numQueue curQueue) hqueue
      omega
    · intro hlater
      refine ⟨fun _ => hmoved, fun hnot => absurd hcase ?_⟩
      change ¬ (oldEvents + 24 < newEvents ∨
        newEvents < oldEvents ∧ oldEvents + 24 < newEvents + 2 ^ 32)
      omega
  · have hcase : ¬ (oldEvents + 24 < newEvents ∨
        newEvents < oldEvents ∧ oldEvents + 24 < newEvents + 2 ^ 32) :=
      fun hmoves => Bool.false_ne_true (hstays.symm.trans (hiff.mpr hmoves))
    refine iff_of_true ⟨fun hmoves => absurd (.inl hmoves) hcase,
      fun _ => ⟨rfl, rfl, rfl⟩⟩ ?_
    omega

def waitingQueue : RefreshQueue :=
  ((empty.setup sampleConfig).enqueue 5 3).setLayerCheck 3 true

/-- A queue that comes up two events later. -/
theorem requeue_rule_later :
    ∃ updated, insertToQueue sampleConfig 0 7 3 waitingQueue = .ok updated ∧
      waitingQueue.Unmoved updated := by
  have hreturns : (insertToQueue sampleConfig 0 7 3
      waitingQueue).toOption.isSome = true := by
    decide +kernel
  cases hinsert : insertToQueue sampleConfig 0 7 3 waitingQueue with
  | error raised =>
      rw [hinsert] at hreturns
      cases hreturns
  | ok updated =>
      refine ⟨updated, rfl, ?_⟩
      exact ((@requeue_rule sampleConfig waitingQueue updated 0 7 3 rfl
        (by decide) (by decide) hinsert).mpr (.inl (by decide +kernel))).2
          (by decide +kernel)

/-- A queue that comes up three events earlier. -/
theorem requeue_earlier :
    ∃ updated, insertToQueue sampleConfig 0 2 3 waitingQueue = .ok updated ∧
      waitingQueue.insertedLayerCheck 3 = true ∧
      ¬ eventsUntil 10 0 (waitingQueue.layerQueueNum 3) + 24 <
        eventsUntil 10 0 2 ∧
      ¬ waitingQueue.Unmoved updated := by
  have hnumber : (insertToQueue sampleConfig 0 2 3
      waitingQueue).toOption.map (·.layerQueueNum 3) = some 2 := by
    decide +kernel
  cases hinsert : insertToQueue sampleConfig 0 2 3 waitingQueue with
  | error raised =>
      rw [hinsert] at hnumber
      cases hnumber
  | ok updated =>
      rw [hinsert] at hnumber
      refine ⟨updated, rfl, rfl, by decide +kernel, fun hunmoved => ?_⟩
      have hsame := congrFun hunmoved.layerQueueNum 3
      have htwo : updated.layerQueueNum 3 = 2 := Option.some.inj hnumber
      exact absurd (htwo.symm.trans hsame) (by decide)

end SimpleSSD.FTL.RefreshQueue
