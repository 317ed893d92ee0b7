import SimpleSSD.FTL.RefreshQueue

namespace SimpleSSD.FTL.RefreshQueue

/-! What the operations on the refresh schedule keep: how often a layer is queued,
where it is queued, and that a scheduled page has its layer flagged. -/

variable {cfg : Config} {env : Environment} {queue updated : RefreshQueue}
  {refreshCallCount : Nat}

def occurrences (queue : RefreshQueue) (queueNum layerID : Nat) : Nat :=
  (queue.refreshQueues queueNum ++ queue.checkedQueues queueNum).count layerID

/-- A flagged layer waits once, in the queue that its number names; any other
layer waits nowhere. -/
def Exact (queue : RefreshQueue) : Prop :=
  ∀ queueNum layerID, queue.occurrences queueNum layerID =
    if queue.insertedLayerCheck layerID = true ∧
      queueNum = queue.layerQueueNum layerID then 1 else 0

def Located (queue : RefreshQueue) : Prop :=
  ∀ layerID, queue.insertedLayerCheck layerID = true →
    0 < queue.occurrences (queue.layerQueueNum layerID) layerID

theorem occurrences_pos {queueNum layerID : Nat} :
    0 < queue.occurrences queueNum layerID ↔
      layerID ∈ queue.refreshQueues queueNum ∨
        layerID ∈ queue.checkedQueues queueNum := by
  unfold occurrences
  rw [List.count_pos_iff, List.mem_append]

theorem occurrences_push (queueNum layerID other layer : Nat) :
    (queue.push queueNum layerID).occurrences other layer =
      queue.occurrences other layer +
        if other = queueNum ∧ layer = layerID then 1 else 0 := by
  unfold occurrences push
  by_cases same : other = queueNum
  · subst same
    simp only [Function.update_self, List.count_append, List.count_singleton,
      true_and, beq_iff_eq, @eq_comm _ layerID layer]
    omega
  · simp [same]

theorem occurrences_enqueue (queueNum layerID other layer : Nat) :
    (queue.enqueue queueNum layerID).occurrences other layer =
      queue.occurrences other layer +
        if other = queueNum ∧ layer = layerID then 1 else 0 :=
  occurrences_push queueNum layerID other layer

theorem occurrences_setLayerCheck (layerID : Nat) (value : Bool) :
    (queue.setLayerCheck layerID value).occurrences = queue.occurrences :=
  rfl

/-- The search half of the old queue loses the layer. -/
theorem occurrences_removeFromQueue (layerID other layer : Nat) :
    (queue.removeFromQueue layerID).occurrences other layer =
      queue.occurrences other layer -
        if other = queue.layerQueueNum layerID ∧ layer = layerID ∧
          layerID ∈ queue.refreshQueues (queue.layerQueueNum layerID)
        then 1 else 0 := by
  unfold occurrences removeFromQueue
  by_cases same : other = queue.layerQueueNum layerID
  · subst same
    by_cases here : layer = layerID
    · subst here
      simp only [Function.update_self, List.count_append,
        List.count_erase_self, true_and]
      split
      · next member =>
          have positive := List.count_pos_iff.mpr member
          omega
      · next absent =>
          rw [List.count_eq_zero.mpr absent]
          omega
    · simp [here, List.count_append, List.count_erase_of_ne here]
  · simp [same]

theorem occurrences_noteMove (layerID other layer : Nat) :
    (queue.noteMove layerID).occurrences other layer =
      queue.occurrences other layer := by
  unfold noteMove
  split <;> rfl

theorem occurrences_swap (target other layer : Nat) :
    (queue.swap target).occurrences other layer =
      queue.occurrences other layer := by
  unfold occurrences swap
  by_cases same : other = target
  · subst same
    simp only [Function.update_self, List.count_append]
    omega
  · simp [Function.update_of_ne same]

theorem occurrences_popFront {queueNum layerID : Nat} {rest : List Nat}
    (front : queue.checkedQueues queueNum = layerID :: rest)
    (other layer : Nat) :
    (queue.popFront queueNum).occurrences other layer +
        (if other = queueNum ∧ layer = layerID then 1 else 0) =
      queue.occurrences other layer := by
  unfold occurrences popFront
  by_cases same : other = queueNum
  · subst same
    simp only [Function.update_self, front, List.tail_cons,
      List.count_append, List.count_cons, true_and, beq_iff_eq,
      @eq_comm _ layerID layer]
    omega
  · simp [same]

@[simp] theorem noteMove_layerQueueNum (layerID : Nat) :
    (queue.noteMove layerID).layerQueueNum = queue.layerQueueNum := by
  unfold noteMove
  split <;> rfl

@[simp] theorem noteMove_insertedLayerCheck (layerID : Nat) :
    (queue.noteMove layerID).insertedLayerCheck =
      queue.insertedLayerCheck := by
  unfold noteMove
  split <;> rfl

@[simp] theorem noteMove_refreshQueues (layerID : Nat) :
    (queue.noteMove layerID).refreshQueues = queue.refreshQueues := by
  unfold noteMove
  split <;> rfl

/-- The three outcomes of an insertion: the layer stays where it waits, moves to
another queue, or is queued for the first time. -/
theorem insertToQueue_cases {queueNum layerID : Nat}
    (inserted : insertToQueue cfg refreshCallCount queueNum layerID queue =
      .ok updated) :
    (queue.insertedLayerCheck layerID = true ∧
      (updated = queue ∨ ∃ target, updated =
        ((queue.noteMove layerID).removeFromQueue layerID).enqueue target
          layerID)) ∨
    (queue.insertedLayerCheck layerID = false ∧ ∃ target, updated =
      (queue.enqueue target layerID).setLayerCheck layerID true) := by
  unfold insertToQueue at inserted
  dsimp only at inserted
  split at inserted
  · cases inserted
  split at inserted
  · cases inserted
  split at inserted
  · next flagged =>
      refine .inl ⟨flagged, ?_⟩
      split at inserted
      · cases inserted
        exact .inr ⟨_, rfl⟩
      · cases inserted
        exact .inl rfl
  · next clear =>
      cases inserted
      exact .inr ⟨by simpa using clear, _, rfl⟩

theorem setRefreshPeriod_single {eraseCount blockNum layerNum : Nat}
    (mode : cfg.refreshMode = 0)
    (scheduled : queue.setRefreshPeriod cfg env refreshCallCount eraseCount
      blockNum layerNum = .ok updated) :
    ∃ target calls, insertToQueue cfg refreshCallCount target
      (blockNum * 64 + layerNum) { queue with rberCalls := calls } =
        .ok updated := by
  unfold setRefreshPeriod at scheduled
  simp only [mode] at scheduled
  split at scheduled
  · cases scheduled
  · exact ⟨_, _, scheduled⟩

def insertGroup (cfg : Config) (refreshCallCount target first : Nat)
    (members : List Nat) (queue : RefreshQueue) :
    Except Panic RefreshQueue :=
  members.foldlM (fun queue member =>
    insertToQueue cfg refreshCallCount target (first + member) queue) queue

/-- Mode 1 inserts the whole group when the page is in its first layer, and
otherwise leaves the schedule as it is. -/
theorem setRefreshPeriod_grouped {eraseCount blockNum layerNum : Nat}
    (mode : cfg.refreshMode = 1)
    (scheduled : queue.setRefreshPeriod cfg env refreshCallCount eraseCount
      blockNum layerNum = .ok updated) :
    (0 < cfg.refreshGroupingSize ∧ ∃ target calls, insertGroup cfg
      refreshCallCount target (blockNum * 64 + layerNum)
      (List.range (min cfg.refreshGroupingSize (64 - layerNum)))
      { queue with rberCalls := calls } = .ok updated) ∨
    (queue.insertedLayerCheck (blockNum * 64 + layerNum) = true ∧
      updated = queue) ∨
    (queue.insertedLayerCheck (blockNum * 64 + layerNum) = false ∧
      updated = { queue with
        unscheduled := (blockNum * 64 + layerNum) :: queue.unscheduled }) := by
  unfold setRefreshPeriod at scheduled
  simp only [mode] at scheduled
  split at scheduled
  · cases scheduled
  split at scheduled
  · cases scheduled
  next positive =>
  split at scheduled
  · next first =>
      rw [← first] at scheduled
      exact .inl ⟨Nat.pos_of_ne_zero positive, _, _, scheduled⟩
  · split at scheduled
    · next flagged =>
        cases scheduled
        exact .inr (.inl ⟨flagged, rfl⟩)
    · next clear =>
        cases scheduled
        exact .inr (.inr ⟨by simpa using clear, rfl⟩)

theorem insertGroup_keeps {target first : Nat} {members : List Nat}
    (kept : RefreshQueue → Prop)
    (inserts : ∀ queueNum layerID queue updated,
      insertToQueue cfg refreshCallCount queueNum layerID queue =
        .ok updated → kept queue → kept updated)
    (inserted : insertGroup cfg refreshCallCount target first members queue =
      .ok updated) (start : kept queue) : kept updated := by
  induction members generalizing queue with
  | nil =>
      cases inserted
      exact start
  | cons member rest induction =>
      unfold insertGroup at inserted
      rw [List.foldlM_cons] at inserted
      cases outcome : insertToQueue cfg refreshCallCount target
          (first + member) queue with
      | error raised =>
          rw [outcome] at inserted
          cases inserted
      | ok next =>
          rw [outcome] at inserted
          exact induction inserted (inserts _ _ _ _ outcome start)

/-- In the first two modes the schedule changes by insertions, or it is recorded
that a page was left out. -/
theorem setRefreshPeriod_keeps {eraseCount blockNum layerNum : Nat}
    (kept : RefreshQueue → Prop)
    (mode : cfg.refreshMode = 0 ∨ cfg.refreshMode = 1)
    (rber : ∀ queue calls, kept queue →
      kept { queue with rberCalls := calls })
    (inserts : ∀ queueNum layerID queue updated,
      insertToQueue cfg refreshCallCount queueNum layerID queue =
        .ok updated → kept queue → kept updated)
    (skips : ∀ queue layerID, kept queue →
      kept { queue with unscheduled := layerID :: queue.unscheduled })
    (scheduled : queue.setRefreshPeriod cfg env refreshCallCount eraseCount
      blockNum layerNum = .ok updated) (start : kept queue) :
    kept updated := by
  rcases mode with single | grouped
  · obtain ⟨target, calls, inserted⟩ :=
      setRefreshPeriod_single single scheduled
    exact inserts _ _ _ _ inserted (rber _ _ start)
  · rcases setRefreshPeriod_grouped grouped scheduled with
      ⟨_, target, calls, inserted⟩ | ⟨_, same⟩ | ⟨_, same⟩
    · exact insertGroup_keeps kept inserts inserted (rber _ _ start)
    · exact same ▸ start
    · exact same ▸ skips _ _ start

/-! Exactness. -/

/-- As long as no layer was moved out of the half of its old queue that is not
searched, every layer waits where it should. -/
def Orderly (queue : RefreshQueue) : Prop :=
  queue.requeued = [] → queue.Exact

theorem insertToQueue_orderly {queueNum layerID : Nat}
    (inserted : insertToQueue cfg refreshCallCount queueNum layerID queue =
      .ok updated) (orderly : queue.Orderly) : updated.Orderly := by
  intro unmoved
  rcases insertToQueue_cases inserted with
    ⟨flagged, rfl | ⟨target, rfl⟩⟩ | ⟨clear, target, rfl⟩
  · exact orderly unmoved
  · -- the old place is in the searched half, for the move was not recorded
    have here : layerID ∈
        queue.refreshQueues (queue.layerQueueNum layerID) := by
      by_contra elsewhere
      have recorded : ((queue.noteMove layerID).removeFromQueue
          layerID).requeued = [] := unmoved
      unfold noteMove at recorded
      rw [if_neg elsewhere] at recorded
      cases recorded
    have same : queue.noteMove layerID = queue := if_pos here
    have exact := orderly (by rw [← same]; exact unmoved)
    rw [same]
    intro other layer
    rw [occurrences_enqueue, occurrences_removeFromQueue, exact other layer]
    by_cases this : layer = layerID
    · subst this
      simp [enqueue, push, removeFromQueue, flagged, here]
    · simp [enqueue, push, removeFromQueue, this]
  · have exact := orderly unmoved
    intro other layer
    rw [occurrences_setLayerCheck, occurrences_enqueue, exact other layer]
    by_cases this : layer = layerID
    · subst this
      simp [setLayerCheck, enqueue, clear]
    · simp [setLayerCheck, enqueue, push, this]

theorem setRefreshPeriod_orderly {eraseCount blockNum layerNum : Nat}
    (mode : cfg.refreshMode = 0 ∨ cfg.refreshMode = 1)
    (scheduled : queue.setRefreshPeriod cfg env refreshCallCount eraseCount
      blockNum layerNum = .ok updated) (orderly : queue.Orderly) :
    updated.Orderly :=
  setRefreshPeriod_keeps Orderly mode (fun _ _ holds => holds)
    (fun _ _ _ _ => insertToQueue_orderly) (fun _ _ holds => holds) scheduled
    orderly

theorem Orderly.swap (orderly : queue.Orderly) (target : Nat) :
    (queue.swap target).Orderly := by
  intro unmoved other layer
  rw [occurrences_swap]
  exact orderly unmoved other layer

theorem Exact.front {queueNum layerID : Nat} {rest : List Nat}
    (exact : queue.Exact)
    (front : queue.checkedQueues queueNum = layerID :: rest) :
    queue.insertedLayerCheck layerID = true ∧
      queueNum = queue.layerQueueNum layerID := by
  have positive : 0 < queue.occurrences queueNum layerID := by
    apply occurrences_pos.mpr
    rw [front]
    exact .inr (.head _)
  rw [exact queueNum layerID] at positive
  by_contra elsewhere
  rw [if_neg elsewhere] at positive
  exact absurd positive (Nat.lt_irrefl 0)

theorem Orderly.pop {queueNum layerID : Nat} {rest : List Nat}
    (orderly : queue.Orderly)
    (front : queue.checkedQueues queueNum = layerID :: rest) :
    ((queue.popFront queueNum).setLayerCheck layerID false).Orderly := by
  intro unmoved other layer
  have exact := orderly unmoved
  obtain ⟨flagged, here⟩ := exact.front front
  have count := occurrences_popFront front other layer
  rw [exact other layer] at count
  rw [occurrences_setLayerCheck]
  subst here
  by_cases this : layer = layerID
  · subst this
    simp only [flagged, and_true, true_and] at count
    simp only [setLayerCheck, Function.update_self, Bool.false_eq_true,
      false_and, if_false]
    omega
  · simp only [this, and_false, if_false, Nat.add_zero] at count
    rw [count]
    simp [setLayerCheck, popFront, this]

/-! Location. -/

theorem insertToQueue_located {queueNum layerID : Nat}
    (inserted : insertToQueue cfg refreshCallCount queueNum layerID queue =
      .ok updated) (located : queue.Located) : updated.Located := by
  intro layer flagged
  rcases insertToQueue_cases inserted with
    ⟨_, rfl | ⟨target, rfl⟩⟩ | ⟨_, target, rfl⟩
  · exact located layer flagged
  · rw [occurrences_enqueue, occurrences_removeFromQueue,
      occurrences_noteMove]
    by_cases this : layer = layerID
    · subst this
      simp [enqueue]
    · have before := located layer
        (by simpa [enqueue, push, removeFromQueue] using flagged)
      simp [enqueue, push, removeFromQueue, this, before]
  · rw [occurrences_setLayerCheck, occurrences_enqueue]
    by_cases this : layer = layerID
    · subst this
      simp [setLayerCheck, enqueue]
    · have before := located layer
        (by simpa [setLayerCheck, enqueue, push, this] using flagged)
      simp [setLayerCheck, enqueue, push, this, before]

theorem setRefreshPeriod_located {eraseCount blockNum layerNum : Nat}
    (mode : cfg.refreshMode = 0 ∨ cfg.refreshMode = 1)
    (scheduled : queue.setRefreshPeriod cfg env refreshCallCount eraseCount
      blockNum layerNum = .ok updated) (located : queue.Located) :
    updated.Located :=
  setRefreshPeriod_keeps Located mode (fun _ _ holds => holds)
    (fun _ _ _ _ => insertToQueue_located) (fun _ _ holds => holds) scheduled
    located

theorem Located.swap (located : queue.Located) (target : Nat) :
    (queue.swap target).Located := by
  intro layer flagged
  rw [occurrences_swap]
  exact located layer flagged

/-- A head that is taken from a queue costs no other layer its place. -/
theorem Located.popFront {queueNum layerID : Nat} {rest : List Nat}
    (located : queue.Located)
    (front : queue.checkedQueues queueNum = layerID :: rest)
    {layer : Nat} (flagged : queue.insertedLayerCheck layer = true)
    (different : layer = layerID →
      queueNum ≠ queue.layerQueueNum layerID) :
    0 < (queue.popFront queueNum).occurrences (queue.layerQueueNum layer)
      layer := by
  have before := located layer flagged
  have count := occurrences_popFront front (queue.layerQueueNum layer) layer
  rw [if_neg] at count
  · omega
  · intro ⟨here, this⟩
    subst this
    exact different rfl here.symm

theorem Located.pop {queueNum layerID : Nat} {rest : List Nat}
    (located : queue.Located)
    (front : queue.checkedQueues queueNum = layerID :: rest) :
    ((queue.popFront queueNum).setLayerCheck layerID false).Located := by
  intro layer flagged
  have different : layer ≠ layerID := by
    intro this
    subst this
    simp [setLayerCheck] at flagged
  refine located.popFront front ?_ fun this => absurd this different
  simpa [setLayerCheck, RefreshQueue.popFront, different] using flagged

theorem Located.skip {queueNum layerID : Nat} {rest : List Nat}
    (located : queue.Located)
    (front : queue.checkedQueues queueNum = layerID :: rest)
    (elsewhere : queueNum ≠ queue.layerQueueNum layerID) :
    (queue.popFront queueNum).Located :=
  fun _ flagged => located.popFront front flagged fun _ => elsewhere

/-! Flags and history. -/

theorem insertToQueue_flagged {queueNum layerID : Nat}
    (inserted : insertToQueue cfg refreshCallCount queueNum layerID queue =
      .ok updated) :
    updated.insertedLayerCheck =
      Function.update queue.insertedLayerCheck layerID true := by
  rcases insertToQueue_cases inserted with
    ⟨flagged, rfl | ⟨target, rfl⟩⟩ | ⟨_, target, rfl⟩
  · rw [← flagged, Function.update_eq_self]
  · simp [enqueue, push, removeFromQueue, ← flagged]
  · rfl

theorem insertToQueue_history {queueNum layerID : Nat}
    (inserted : insertToQueue cfg refreshCallCount queueNum layerID queue =
      .ok updated) :
    updated.unscheduled = queue.unscheduled ∧
      (updated.requeued = [] → queue.requeued = []) := by
  rcases insertToQueue_cases inserted with
    ⟨flagged, rfl | ⟨target, rfl⟩⟩ | ⟨_, target, rfl⟩
  · exact ⟨rfl, id⟩
  · simp only [enqueue, push, removeFromQueue, noteMove]
    split
    · exact ⟨rfl, id⟩
    · exact ⟨rfl, fun moved => by cases moved⟩
  · exact ⟨rfl, id⟩

/-- Scheduling a page clears no flag and forgets no history. -/
theorem setRefreshPeriod_grows {eraseCount blockNum layerNum : Nat}
    (mode : cfg.refreshMode = 0 ∨ cfg.refreshMode = 1)
    (scheduled : queue.setRefreshPeriod cfg env refreshCallCount eraseCount
      blockNum layerNum = .ok updated) :
    (∀ layerID, queue.insertedLayerCheck layerID = true →
      updated.insertedLayerCheck layerID = true) ∧
    (updated.unscheduled = [] → queue.unscheduled = []) ∧
    (updated.requeued = [] → queue.requeued = []) := by
  refine setRefreshPeriod_keeps (fun later =>
    (∀ layerID, queue.insertedLayerCheck layerID = true →
      later.insertedLayerCheck layerID = true) ∧
    (later.unscheduled = [] → queue.unscheduled = []) ∧
    (later.requeued = [] → queue.requeued = [])) mode
    (fun _ _ holds => holds) ?_ ?_ scheduled ⟨fun _ => id, id, id⟩
  · intro queueNum layerID before after inserted ⟨flags, skipped, moved⟩
    obtain ⟨same, unmoved⟩ := insertToQueue_history inserted
    refine ⟨?_, fun complete => skipped (same ▸ complete),
      fun settled => moved (unmoved settled)⟩
    intro layer flagged
    rw [insertToQueue_flagged inserted]
    by_cases this : layer = layerID
    · subst this
      exact Function.update_self ..
    · rw [Function.update_of_ne this]
      exact flags layer flagged
  · intro before layerID ⟨flags, _, moved⟩
    exact ⟨flags, fun complete => absurd complete (List.cons_ne_nil _ _),
      moved⟩

theorem setRefreshPeriod_unscheduled {eraseCount blockNum layerNum : Nat}
    (mode : cfg.refreshMode = 0)
    (scheduled : queue.setRefreshPeriod cfg env refreshCallCount eraseCount
      blockNum layerNum = .ok updated) :
    updated.unscheduled = queue.unscheduled := by
  obtain ⟨target, calls, inserted⟩ := setRefreshPeriod_single mode scheduled
  exact (insertToQueue_history inserted).1

/-- The layer of a scheduled page is flagged, unless it was recorded that the
page was left out. -/
theorem setRefreshPeriod_flagged {eraseCount blockNum layerNum : Nat}
    (mode : cfg.refreshMode = 0 ∨ cfg.refreshMode = 1)
    (layer : layerNum < 64)
    (scheduled : queue.setRefreshPeriod cfg env refreshCallCount eraseCount
      blockNum layerNum = .ok updated) (complete : updated.unscheduled = []) :
    updated.insertedLayerCheck (blockNum * 64 + layerNum) = true := by
  rcases mode with single | grouped
  · obtain ⟨target, calls, inserted⟩ :=
      setRefreshPeriod_single single scheduled
    rw [insertToQueue_flagged inserted]
    exact Function.update_self ..
  · rcases setRefreshPeriod_grouped grouped scheduled with
      ⟨positive, target, calls, inserted⟩ | ⟨flagged, rfl⟩ | ⟨_, rfl⟩
    · -- the first member of the group is the layer itself
      obtain ⟨size, members⟩ : ∃ size,
          min cfg.refreshGroupingSize (64 - layerNum) = size + 1 :=
        ⟨min cfg.refreshGroupingSize (64 - layerNum) - 1, by omega⟩
      rw [members, List.range_succ_eq_map] at inserted
      unfold insertGroup at inserted
      rw [List.foldlM_cons, Nat.add_zero] at inserted
      cases first : insertToQueue cfg refreshCallCount target
          (blockNum * 64 + layerNum)
          { queue with rberCalls := calls } with
      | error raised =>
          rw [first] at inserted
          cases inserted
      | ok next =>
          rw [first] at inserted
          refine insertGroup_keeps (fun later => later.insertedLayerCheck
            (blockNum * 64 + layerNum) = true) ?_ inserted ?_
          · intro queueNum layerID before after outcome flagged
            rw [insertToQueue_flagged outcome]
            by_cases this : blockNum * 64 + layerNum = layerID
            · rw [this]
              exact Function.update_self ..
            · rw [Function.update_of_ne this]
              exact flagged
          · rw [insertToQueue_flagged first]
            exact Function.update_self ..
    · exact flagged
    · cases complete

end SimpleSSD.FTL.RefreshQueue
