import SimpleSSD.FTL.Occasion
import SimpleSSD.FTL.Retention

namespace SimpleSSD.FTL

open Machine Program

/-! The segment-grouping modes: they flag and queue layers without recording the
queue, so that a refresh takes up the layers of queue 0 only. -/

namespace RefreshQueue

variable {cfg : Config} {env : Environment} {queue updated : RefreshQueue}
  {refreshCallCount : Nat}

theorem flagAndPush_cases {queueNum layerID : Nat}
    (pushed : flagAndPush queueNum queue layerID = .ok updated) :
    updated = queue ∨ (queue.insertedLayerCheck layerID = false ∧
      updated = (queue.push queueNum layerID).setLayerCheck layerID true) := by
  unfold flagAndPush at pushed
  split at pushed
  · cases pushed
  split at pushed
  · cases pushed
    exact .inl rfl
  · next clear =>
      cases pushed
      exact .inr ⟨by simpa using clear, rfl⟩

theorem flagAndPushAll_keeps {α : Type} {target : Nat} {members : List α}
    {layer : α → Nat} (kept : RefreshQueue → Prop)
    (pushes : ∀ queueNum layerID queue updated,
      flagAndPush queueNum queue layerID = .ok updated →
        kept queue → kept updated)
    (pushed : members.foldlM (fun queue member =>
      flagAndPush target queue (layer member)) queue = .ok updated)
    (start : kept queue) : kept updated := by
  induction members generalizing queue with
  | nil =>
      cases pushed
      exact start
  | cons member rest induction =>
      rw [List.foldlM_cons] at pushed
      cases first : flagAndPush target queue (layer member) with
      | error raised =>
          rw [first] at pushed
          cases pushed
      | ok next =>
          rw [first] at pushed
          exact induction pushed (pushes _ _ _ _ first start)

/-- In the segment-grouping modes the schedule grows by flagged layers. -/
theorem setRefreshPeriod_pushes {eraseCount blockNum layerNum : Nat}
    (kept : RefreshQueue → Prop)
    (mode : cfg.refreshMode = 2 ∨ cfg.refreshMode = 3)
    (rber : ∀ queue calls, kept queue →
      kept { queue with rberCalls := calls })
    (pushes : ∀ queueNum layerID queue updated,
      flagAndPush queueNum queue layerID = .ok updated →
        kept queue → kept updated)
    (scheduled : queue.setRefreshPeriod cfg env refreshCallCount eraseCount
      blockNum layerNum = .ok updated) (start : kept queue) :
    kept updated := by
  unfold setRefreshPeriod at scheduled
  dsimp only at scheduled
  split at scheduled
  · cases scheduled
  rcases mode with two | three
  · simp only [two] at scheduled
    split at scheduled
    · cases scheduled
    split at scheduled
    · cases scheduled
      exact start
    · exact flagAndPushAll_keeps kept pushes scheduled (rber _ _ start)
  · simp only [three] at scheduled
    split at scheduled
    · cases scheduled
    split at scheduled
    · cases scheduled
      exact start
    · exact flagAndPushAll_keeps kept pushes scheduled (rber _ _ start)

/-- No queue number is recorded, and a layer that waits does so once and is
flagged. -/
structure Segmented (queue : RefreshQueue) : Prop where
  unnumbered : ∀ layerID, queue.layerQueueNum layerID = 0
  single : ∀ layerID, ∃ place : Option Nat,
    (∀ queueNum, queue.occurrences queueNum layerID =
      if place = some queueNum then 1 else 0) ∧
    (place ≠ none → queue.insertedLayerCheck layerID = true)

def Stray (queue : RefreshQueue) (layerID : Nat) : Prop :=
  queue.insertedLayerCheck layerID = true ∧
    ∀ queueNum, queue.occurrences queueNum layerID = 0

theorem Segmented.flagged (segmented : queue.Segmented) {queueNum layerID : Nat}
    (waits : 0 < queue.occurrences queueNum layerID) :
    queue.insertedLayerCheck layerID = true := by
  obtain ⟨place, places, flagged⟩ := segmented.single layerID
  apply flagged
  intro none
  rw [places, none] at waits
  simp at waits

theorem Segmented.flagAndPush {queueNum layerID : Nat}
    (pushed : flagAndPush queueNum queue layerID = .ok updated)
    (segmented : queue.Segmented) : updated.Segmented := by
  rcases flagAndPush_cases pushed with same | ⟨clear, same⟩
  · exact same ▸ segmented
  subst same
  refine ⟨segmented.unnumbered, ?_⟩
  intro layer
  obtain ⟨place, places, flagged⟩ := segmented.single layer
  by_cases here : layer = layerID
  · subst here
    have nowhere : place = none := by
      by_contra some
      rw [flagged some] at clear
      cases clear
    refine ⟨some queueNum, ?_, fun _ => by simp [setLayerCheck]⟩
    intro other
    rw [occurrences_setLayerCheck, occurrences_push, places, nowhere]
    simp [@eq_comm _ queueNum other]
  · refine ⟨place, ?_, ?_⟩
    · intro other
      rw [occurrences_setLayerCheck, occurrences_push, places]
      simp [here]
    · intro some
      simpa [setLayerCheck, push, here] using flagged some

theorem Segmented.swap (segmented : queue.Segmented) (target : Nat) :
    (queue.swap target).Segmented := by
  refine ⟨segmented.unnumbered, ?_⟩
  intro layer
  obtain ⟨place, places, flagged⟩ := segmented.single layer
  refine ⟨place, ?_, flagged⟩
  intro other
  rw [occurrences_swap, places]

theorem Segmented.popFront (segmented : queue.Segmented)
    {queueNum layerID : Nat} {rest : List Nat}
    (front : queue.checkedQueues queueNum = layerID :: rest) :
    (queue.popFront queueNum).Segmented ∧
      ∀ other, (queue.popFront queueNum).occurrences other layerID = 0 := by
  have waits := occurrences_popFront front
  have gone : ∀ other,
      (queue.popFront queueNum).occurrences other layerID = 0 := by
    intro other
    obtain ⟨place, places, _⟩ := segmented.single layerID
    have here := waits queueNum layerID
    have there := waits other layerID
    rw [places] at here there
    have placed : place = some queueNum := by
      by_contra elsewhere
      simp [elsewhere] at here
    subst placed
    by_cases same : other = queueNum
    · subst same
      simpa using there
    · simpa [same, @eq_comm _ queueNum other] using there
  refine ⟨⟨segmented.unnumbered, ?_⟩, gone⟩
  intro layer
  obtain ⟨place, places, flagged⟩ := segmented.single layer
  by_cases same : layer = layerID
  · subst same
    exact ⟨none, by simpa using gone, by simp⟩
  · refine ⟨place, ?_, flagged⟩
    intro other
    have before := waits other layer
    simp only [same, and_false, if_false] at before
    rw [← places, ← before]
    omega

theorem Segmented.pop (segmented : queue.Segmented) {queueNum layerID : Nat}
    {rest : List Nat}
    (front : queue.checkedQueues queueNum = layerID :: rest) :
    ((queue.popFront queueNum).setLayerCheck layerID false).Segmented := by
  obtain ⟨popped, gone⟩ := segmented.popFront front
  refine ⟨popped.unnumbered, ?_⟩
  intro layer
  by_cases same : layer = layerID
  · subst same
    refine ⟨none, ?_, by simp⟩
    intro other
    rw [occurrences_setLayerCheck, gone]
    simp
  · obtain ⟨place, places, flagged⟩ := popped.single layer
    refine ⟨place, places, ?_⟩
    intro some
    simpa [setLayerCheck, same] using flagged some

/-! A stray layer stays one; none arises unless the pop loop skips a layer. -/

def Complete (queue : RefreshQueue) : Prop :=
  ∀ layerID, ¬ queue.Stray layerID

def Tidy (queue : RefreshQueue) : Prop :=
  queue.Segmented ∧ queue.Complete

theorem Stray.flagAndPush {queueNum layerID layer : Nat}
    (pushed : flagAndPush queueNum queue layerID = .ok updated)
    (stray : queue.Stray layer) : updated.Stray layer := by
  rcases flagAndPush_cases pushed with same | ⟨clear, same⟩
  · exact same ▸ stray
  subst same
  obtain ⟨flagged, nowhere⟩ := stray
  have different : layer ≠ layerID := by
    intro same
    rw [← same, flagged] at clear
    cases clear
  refine ⟨?_, ?_⟩
  · simpa [setLayerCheck, push, different] using flagged
  · intro other
    rw [occurrences_setLayerCheck, occurrences_push, nowhere]
    simp [different]

theorem Complete.flagAndPush {queueNum layerID : Nat}
    (pushed : flagAndPush queueNum queue layerID = .ok updated)
    (complete : queue.Complete) : updated.Complete := by
  rcases flagAndPush_cases pushed with same | ⟨clear, same⟩
  · exact same ▸ complete
  subst same
  intro layer stray
  obtain ⟨flagged, nowhere⟩ := stray
  by_cases here : layer = layerID
  · have waits := nowhere queueNum
    rw [occurrences_setLayerCheck, occurrences_push] at waits
    simp [here] at waits
  · refine complete layer ⟨?_, ?_⟩
    · simpa [setLayerCheck, push, here] using flagged
    · intro other
      have waits := nowhere other
      rw [occurrences_setLayerCheck, occurrences_push] at waits
      omega

theorem Stray.swap {layer : Nat} (target : Nat) :
    (queue.swap target).Stray layer ↔ queue.Stray layer := by
  unfold Stray
  simp only [occurrences_swap]
  rfl

theorem Stray.popFront {queueNum layerID layer : Nat} {rest : List Nat}
    (front : queue.checkedQueues queueNum = layerID :: rest)
    (stray : queue.Stray layer) :
    (queue.popFront queueNum).Stray layer ∧ layer ≠ layerID := by
  have waits := occurrences_popFront front
  refine ⟨⟨stray.1, ?_⟩, ?_⟩
  · intro other
    have before := waits other layer
    rw [stray.2] at before
    omega
  · intro same
    have before := waits queueNum layer
    rw [stray.2] at before
    simp [same] at before

theorem Stray.pop {queueNum layerID layer : Nat} {rest : List Nat}
    (front : queue.checkedQueues queueNum = layerID :: rest)
    (stray : queue.Stray layer) :
    ((queue.popFront queueNum).setLayerCheck layerID false).Stray layer := by
  obtain ⟨popped, different⟩ := stray.popFront front
  exact ⟨by simpa [setLayerCheck, different] using popped.1, popped.2⟩

theorem Complete.pop {queueNum layerID : Nat} {rest : List Nat}
    (front : queue.checkedQueues queueNum = layerID :: rest)
    (complete : queue.Complete) :
    ((queue.popFront queueNum).setLayerCheck layerID false).Complete := by
  intro layer stray
  obtain ⟨flagged, nowhere⟩ := stray
  have different : layer ≠ layerID := by
    intro same
    simp [setLayerCheck, same] at flagged
  refine complete layer ⟨?_, ?_⟩
  · simpa [setLayerCheck, RefreshQueue.popFront, different] using flagged
  · intro other
    rw [← occurrences_popFront front other layer]
    simpa [different, occurrences_setLayerCheck] using nowhere other

end RefreshQueue

variable {cfg : Config} {env : Environment} {state : State}

/-! Over whole runs. -/

/-- What the pushes of the segment-grouping modes keep is kept outside the
refresh events. -/
theorem pushes_invariant (kept : RefreshQueue → Prop)
    (mode : cfg.refreshMode = 2 ∨ cfg.refreshMode = 3)
    (rber : ∀ queue calls, kept queue →
      kept { queue with rberCalls := calls })
    (pushes : ∀ queueNum layerID queue updated,
      RefreshQueue.flagAndPush queueNum queue layerID = .ok updated →
        kept queue → kept updated) :
    (machine cfg env .calm).Invariant fun config => kept config.2.refresh := by
  intro before after step _ holds
  rcases (step.schedules id id).2 with same | ⟨_, _, _, scheduled⟩
  · exact same ▸ holds
  · exact RefreshQueue.setRefreshPeriod_pushes kept mode rber pushes scheduled
      holds

theorem segmented_invariant
    (mode : cfg.refreshMode = 2 ∨ cfg.refreshMode = 3) (hotFill : Prop) :
    (machine cfg env (.running hotFill)).Invariant fun config =>
      config.2.refresh.Segmented := by
  intro before after step _ segmented
  cases step.reschedules id with
  | unchanged same => exact same ▸ segmented
  | schedule scheduled =>
      exact RefreshQueue.setRefreshPeriod_pushes _ mode
        (fun _ _ kept => ⟨kept.unnumbered, kept.single⟩)
        (fun _ _ _ _ => RefreshQueue.Segmented.flagAndPush) scheduled segmented
  | swap target swapped => exact swapped ▸ segmented.swap target
  | skip front elsewhere popped => exact popped ▸ (segmented.popFront front).1
  | pop front popped => exact popped ▸ segmented.pop front

theorem stray_invariant (layerID : Nat)
    (mode : cfg.refreshMode = 2 ∨ cfg.refreshMode = 3) (hotFill : Prop) :
    (machine cfg env (.running hotFill)).Invariant fun config =>
      config.2.refresh.Stray layerID := by
  intro before after step _ stray
  cases step.reschedules id with
  | unchanged same => exact same ▸ stray
  | schedule scheduled =>
      exact RefreshQueue.setRefreshPeriod_pushes _ mode
        (fun _ _ kept => kept)
        (fun _ _ _ _ => RefreshQueue.Stray.flagAndPush) scheduled stray
  | swap target swapped =>
      exact swapped ▸ (RefreshQueue.Stray.swap target).mpr stray
  | skip front elsewhere popped => exact popped ▸ (stray.popFront front).1
  | pop front popped => exact popped ▸ stray.pop front

theorem Constructed.tidy (constructed : Constructed cfg state) :
    (state.scheduling cfg).refresh.Tidy := by
  refine ⟨⟨fun _ => rfl, ?_⟩, ?_⟩
  · intro layerID
    refine ⟨none, ?_, by simp⟩
    intro queueNum
    simpa using constructed.occurrences queueNum layerID
  · intro layerID stray
    cases stray.1

theorem calm_meets {α : Type} {program : FTLM α} (kept : RefreshQueue → Prop)
    (holding : (machine cfg env .calm).Invariant fun config =>
      kept config.2.refresh)
    (consistent : Consistent cfg state) {mapped : Set (Nat × Nat)}
    (follows : (machine cfg env .calm).Follows program
      (.rest (mappedUnits cfg state)) state fun _ last _ =>
        last = .rest mapped) (start : kept state.refresh) :
    Meets program state
      (fun _ final => Consistent cfg final ∧ kept final.refresh)
      fun _ _ => True := by
  refine (follows.meets holding consistent start).mono ?_
    fun _ _ _ => trivial
  intro _ final ⟨last, sound, holds, same⟩
  subst same
  exact ⟨sound.2.consistent sound.1, holds⟩

theorem popLayer_elsewhere {queueNum layerID : Nat}
    (elsewhere : queueNum ≠ state.refresh.layerQueueNum layerID) :
    Meets (popLayer queueNum layerID) state
      (fun taken popped => taken = false ∧
        popped.refresh = state.refresh.popFront queueNum) fun _ _ => True := by
  unfold popLayer
  apply meets_bind.mpr
  apply meets_modify.mpr
  apply meets_bind.mpr
  apply meets_get.mpr
  dsimp only
  split
  · exact trivial
  split
  · exact ⟨rfl, rfl⟩
  · next here => exact absurd elsewhere here

theorem popLayer_here {queueNum layerID : Nat}
    (here : queueNum = state.refresh.layerQueueNum layerID)
    (flagged : state.refresh.insertedLayerCheck layerID = true) :
    Meets (popLayer queueNum layerID) state
      (fun taken popped => taken = true ∧ popped = { state with
        refresh := (state.refresh.popFront queueNum).setLayerCheck layerID
          false }) fun _ _ => True := by
  unfold popLayer
  apply meets_bind.mpr
  apply meets_modify.mpr
  apply meets_bind.mpr
  apply meets_get.mpr
  dsimp only
  split
  · exact trivial
  split
  · next elsewhere => exact absurd here elsewhere
  split
  · exact ⟨rfl, rfl⟩
  · next clear => exact absurd flagged clear

theorem Consistent.reschedule (consistent : Consistent cfg state)
    (refresh : RefreshQueue) :
    Consistent cfg { state with refresh := refresh } :=
  ⟨{ consistent.1 with }, consistent.2.of_agree rfl rfl rfl rfl⟩

theorem Consistent.swapped (consistent : Consistent cfg state) :
    Consistent cfg state.swapped :=
  consistent.reschedule _

/-- The copy loop of a layer: the layer holds no valid unit any more, and the
same logical units are mapped. -/
theorem copyLayer_meets (kept : RefreshQueue → Prop)
    (holding : (machine cfg env .calm).Invariant fun config =>
      kept config.2.refresh)
    (consistent : Consistent cfg state) (start : kept state.refresh)
    (layerID : Nat) :
    Meets (copyLayer cfg env layerID) state
      (fun _ final => (Consistent cfg final ∧ kept final.refresh) ∧
        mappedUnits cfg final = mappedUnits cfg state ∧
        ∀ page, page % 64 = layerID % 64 → final.Bare (layerID / 64) page)
      fun _ _ => True := by
  have sound : (machine cfg env .calm).sound
      ({ Phase.rest (mappedUnits cfg state) with
        drain := some (layerID, layerPages cfg (layerID % 64)) }, state) :=
    ⟨consistent.1, consistent.2.of_agree rfl rfl rfl rfl⟩
  refine ((copyLayer_follows layerID).meets holding sound start).mono ?_
    fun _ _ _ => trivial
  intro _ final ⟨last, sound', holds, same, bare⟩
  subst same
  refine ⟨⟨sound'.2.consistent sound'.1, holds⟩, sound'.2.mapped_eq.symm, ?_⟩
  intro page layer idx lpn stores
  have below := (sound'.1.stores_inside stores).1.2
  exact bare page (mem_layerPages.mpr ⟨below, layer⟩) idx lpn stores

/-- A unit that is stored stays stored as long as it stays mapped. -/
theorem Consistent.still_stored {updated : State}
    (consistent : Consistent cfg state) (later : Consistent cfg updated)
    (same : mappedUnits cfg updated = mappedUnits cfg state)
    {blockIndex page idx lpn : Nat}
    (stores : state.Stores blockIndex page idx lpn) :
    ∃ blockIndex page, updated.Stores blockIndex page idx lpn := by
  obtain ⟨_, mapping, found, located⟩ := consistent.2.stored _ _ _ _ stores
  obtain ⟨location, inside⟩ := consistent.1.stores_inside stores
  have mapped : (lpn, idx) ∈ mappedUnits cfg updated := by
    rw [same]
    exact ⟨inside, mapping, found, by rw [located]; exact location⟩
  obtain ⟨_, mapping', found', located'⟩ := mapped
  exact ⟨_, _, later.2.backed lpn mapping' found' idx inside located'
    fun waits => waits.elim⟩

/-! The events of a run. -/

/-- The refresh event of a state comes to pop a layer; `current` is the state
right before the pop. -/
def Pops (cfg : Config) (env : Environment) (event : State) (layerID : Nat)
    (current : State) : Prop :=
  ∃ amount < cfg.refreshMaxLayerNum,
    (popLayers cfg env amount).run event = .ok event.nextQueue current ∧
      ∃ rest, current.refresh.checkedQueues event.nextQueue = layerID :: rest

/-- The pop clears the bit of the layer, and the copy loop leaves no valid unit
in it and every unit that was there stored elsewhere. -/
def Renews (cfg : Config) (env : Environment) (queueNum layerID : Nat)
    (current : State) : Prop :=
  ∃ popped, (popLayer queueNum layerID).run current = .ok true popped ∧
    popped.refresh.insertedLayerCheck layerID = false ∧
    ∀ copied, (copyLayer cfg env layerID).run popped = .ok () copied →
      (∀ page, page % 64 = layerID % 64 → copied.Bare (layerID / 64) page) ∧
      ∀ page idx lpn, current.Stores (layerID / 64) page idx lpn →
        ∃ blockIndex page, copied.Stores blockIndex page idx lpn

def RenewsAll (cfg : Config) (env : Environment) (event : State) : Prop :=
  ∀ layerID current, Pops cfg env event layerID current →
    current.refresh.insertedLayerCheck layerID = true →
      Renews cfg env event.nextQueue layerID current

def Harmless (cfg : Config) (event : State) : Prop :=
  event.nextQueue = 0 ∨ cfg.refreshMaxLayerNum = 0 ∨
    event.refresh.refreshQueues event.nextQueue = []

def Starts (cfg : Config) (env : Environment) (ops : List Op)
    (event : State) : Prop :=
  ∃ earlier later, ops = earlier ++ .refresh :: later ∧
    outcome cfg env (.initializeFTL :: earlier) = .ok () event

/-- The half that an event pops from is the one that was filled before. -/
theorem checked_meets (mode : cfg.refreshMode = 2 ∨ cfg.refreshMode = 3)
    (consistent : Consistent cfg state) :
    Meets (refreshGC cfg env) state
      (fun _ final => final.refresh.checkedQueues =
        state.refresh.checkedQueues) fun _ _ => True := by
  have pushes : ∀ queueNum layerID queue updated,
      RefreshQueue.flagAndPush queueNum queue layerID = .ok updated →
      queue.checkedQueues = state.refresh.checkedQueues →
        updated.checkedQueues = state.refresh.checkedQueues := by
    intro queueNum layerID queue updated pushed kept
    rcases RefreshQueue.flagAndPush_cases pushed with same | ⟨_, same⟩
    · exact same ▸ kept
    · subst same
      exact kept
  refine (calm_meets (fun queue => queue.checkedQueues =
      state.refresh.checkedQueues) (pushes_invariant _ mode
        (fun _ _ kept => kept) pushes) consistent (refreshGC_follows trivial)
    rfl).mono (fun _ _ post => post.2) fun _ _ _ => trivial

theorem popLayers_segmented (mode : cfg.refreshMode = 2 ∨ cfg.refreshMode = 3)
    (consistent : Consistent cfg state) (segmented : state.refresh.Segmented)
    {amount target : Nat} {current : State}
    (returned : (popLayers cfg env amount).run state = .ok target current) :
    Consistent cfg current ∧ current.refresh.Segmented := by
  obtain ⟨last, sound, holds, same⟩ := ((popLayers_follows amount trivial
    trivial).meets (segmented_invariant mode True) consistent
      segmented).of_ok returned
  subst same
  exact ⟨sound.2.consistent sound.1, holds⟩

/-- The first layer that an event pops from another queue is skipped. -/
theorem first_pop_elsewhere
    (mode : cfg.refreshMode = 2 ∨ cfg.refreshMode = 3) {event final : State}
    (consistent : Consistent cfg event) (segmented : event.refresh.Segmented)
    (returned : (refreshEvent cfg env).run event = .ok () final)
    (harmful : ¬ Harmless cfg event) :
    ∃ layerID current, Pops cfg env event layerID current ∧
      current.refresh.insertedLayerCheck layerID = true ∧
      event.nextQueue ≠ current.refresh.layerQueueNum layerID ∧
      ∃ rest, event.refresh.refreshQueues event.nextQueue =
        layerID :: rest := by
  unfold Harmless at harmful
  simp only [not_or] at harmful
  obtain ⟨elsewhere, some, waits⟩ := harmful
  obtain ⟨popped, _, pops, _⟩ := refreshEvent_returns returned
  have whole : 0 + cfg.refreshMaxLayerNum = cfg.refreshMaxLayerNum :=
    Nat.zero_add _
  rw [← whole] at pops
  obtain ⟨current, early, _⟩ := popLayers_cut pops
  obtain ⟨_, segmented'⟩ := popLayers_segmented mode consistent segmented early
  obtain ⟨_, collected, collects, none⟩ := popLayers_returns early
  cases none
  have checked := (checked_meets mode consistent.swapped).of_ok collects
  cases front : event.refresh.refreshQueues event.nextQueue with
  | nil => exact absurd front waits
  | cons layerID rest =>
      have here : current.refresh.checkedQueues event.nextQueue =
          layerID :: rest := by
        rw [checked, ← front]
        exact Function.update_self ..
      refine ⟨layerID, current, ⟨0, Nat.pos_of_ne_zero some, early, rest, here⟩,
        ?_, ?_, rest, rfl⟩
      · apply segmented'.flagged
        apply RefreshQueue.occurrences_pos.mpr
        exact .inr (by rw [here]; exact .head _)
      · rw [segmented'.unnumbered]
        exact elsewhere

theorem renewsAll_iff (mode : cfg.refreshMode = 2 ∨ cfg.refreshMode = 3)
    {event final : State} (consistent : Consistent cfg event)
    (segmented : event.refresh.Segmented)
    (returned : (refreshEvent cfg env).run event = .ok () final) :
    RenewsAll cfg env event ↔ Harmless cfg event := by
  constructor
  · intro renews
    by_contra harmful
    obtain ⟨layerID, current, pops, flagged, elsewhere, _⟩ :=
      first_pop_elsewhere mode consistent segmented returned harmful
    obtain ⟨popped, taken, _⟩ := renews layerID current pops flagged
    have skipped := ((popLayer_elsewhere elsewhere).of_ok taken).1
    cases skipped
  · intro harmless layerID current pops flagged
    obtain ⟨amount, below, early, rest, front⟩ := pops
    obtain ⟨consistent', segmented'⟩ :=
      popLayers_segmented mode consistent segmented early
    -- a layer is popped, so that the event works off queue 0
    have zero : event.nextQueue = 0 := by
      rcases harmless with zero | none | empty
      · exact zero
      · omega
      · obtain ⟨_, collected, collects, pops⟩ := popLayers_returns early
        have checked := (checked_meets mode consistent.swapped).of_ok collects
        have none : collected.refresh.checkedQueues event.nextQueue = [] := by
          rw [checked, ← empty]
          exact Function.update_self ..
        rw [refreshLayers_nil none] at pops
        cases pops
        rw [none] at front
        cases front
    have here : event.nextQueue = current.refresh.layerQueueNum layerID := by
      rw [segmented'.unnumbered, zero]
    -- the event has returned, so that this pop has
    obtain ⟨more, total⟩ := Nat.exists_eq_add_of_lt below
    obtain ⟨_, _, pops, _⟩ := refreshEvent_returns returned
    rw [total, Nat.add_assoc] at pops
    obtain ⟨middle, same, later⟩ := popLayers_cut pops
    rw [early] at same
    cases same
    rw [run_refreshLayers_cons front] at later
    obtain ⟨_, _, turned, _⟩ := run_bind_ok later
    obtain ⟨taken, popped, popping, _⟩ := run_bind_ok turned
    obtain ⟨rfl, rfl⟩ := (popLayer_here here flagged).of_ok popping
    refine ⟨_, popping, by simp [RefreshQueue.setLayerCheck], ?_⟩
    intro copied copies
    have consistent'' := consistent'.reschedule
      ((current.refresh.popFront event.nextQueue).setLayerCheck layerID false)
    obtain ⟨⟨after, _⟩, mapped, bare⟩ := (copyLayer_meets
      (fun _ => True) (machine_trivial cfg env .calm) consistent'' trivial
        layerID).of_ok copies
    exact ⟨bare, fun page idx lpn stores =>
      consistent''.still_stored after mapped stores⟩

/-! No flagged layer is lost as long as no event pops from another queue. -/

theorem tidy_invariant
    (mode : cfg.refreshMode = 2 ∨ cfg.refreshMode = 3) :
    (machine cfg env .calm).Invariant fun config => config.2.refresh.Tidy := by
  refine pushes_invariant RefreshQueue.Tidy mode
    (fun _ _ kept => ⟨⟨kept.1.unnumbered, kept.1.single⟩, kept.2⟩) ?_
  intro queueNum layerID queue updated pushed kept
  exact ⟨kept.1.flagAndPush pushed, kept.2.flagAndPush pushed⟩

theorem refreshLayers_complete
    (mode : cfg.refreshMode = 2 ∨ cfg.refreshMode = 3)
    {queueNum remaining : Nat} (consistent : Consistent cfg state)
    (kept : state.refresh.Tidy)
    (harmless : queueNum = 0 ∨ remaining = 0 ∨
      state.refresh.checkedQueues queueNum = []) :
    Meets (refreshLayers cfg env queueNum remaining) state
      (fun _ final => Consistent cfg final ∧ final.refresh.Tidy)
      fun _ _ => True := by
  induction remaining generalizing state with
  | zero => exact ⟨consistent, kept⟩
  | succ remaining induction =>
      cases front : state.refresh.checkedQueues queueNum with
      | nil =>
          unfold Meets
          rw [refreshLayers_nil front]
          exact ⟨consistent, kept⟩
      | cons layerID rest =>
          have zero : queueNum = 0 := by
            rcases harmless with zero | none | empty
            · exact zero
            · omega
            · rw [empty] at front
              cases front
          have here : queueNum = state.refresh.layerQueueNum layerID := by
            rw [kept.1.unnumbered, zero]
          have flagged : state.refresh.insertedLayerCheck layerID = true := by
            apply kept.1.flagged
            apply RefreshQueue.occurrences_pos.mpr
            exact .inr (by rw [front]; exact .head _)
          have turned : Meets (popTurn cfg env queueNum layerID) state
              (fun _ final => Consistent cfg final ∧ final.refresh.Tidy)
              fun _ _ => True := by
            refine (popLayer_here here flagged).bind ?_
            intro taken popped ⟨same, equality⟩
            subst same equality
            refine (copyLayer_meets RefreshQueue.Tidy (tidy_invariant mode)
              (consistent.reschedule _)
              ⟨kept.1.pop front, kept.2.pop front⟩ layerID).mono ?_
              fun _ _ _ => trivial
            intro _ copied post
            exact post.1
          unfold Meets
          rw [run_refreshLayers_cons front]
          exact turned.bind fun _ _ post =>
            induction post.1 post.2 (.inl zero)

theorem refreshEvent_complete
    (mode : cfg.refreshMode = 2 ∨ cfg.refreshMode = 3)
    (consistent : Consistent cfg state)
    (kept : state.refresh.Tidy)
    (harmless : Harmless cfg state) {final : State}
    (returned : (refreshEvent cfg env).run state = .ok () final) :
    final.refresh.Complete := by
  obtain ⟨popped, last, pops, trailing, rfl⟩ := refreshEvent_returns returned
  obtain ⟨_, collected, leading, loops⟩ := popLayers_returns pops
  have swapped : state.swapped.refresh.Tidy :=
    ⟨kept.1.swap _, fun layerID stray =>
      kept.2 layerID ((RefreshQueue.Stray.swap _).mp stray)⟩
  have checked := (checked_meets mode consistent.swapped).of_ok leading
  obtain ⟨consistent', kept'⟩ := (calm_meets RefreshQueue.Tidy
    (tidy_invariant mode) consistent.swapped (refreshGC_follows trivial) swapped).of_ok leading
  have harmless' : state.nextQueue = 0 ∨ cfg.refreshMaxLayerNum = 0 ∨
      collected.refresh.checkedQueues state.nextQueue = [] := by
    refine harmless.imp_right (Or.imp_right ?_)
    intro empty
    rw [checked, ← empty]
    exact Function.update_self ..
  obtain ⟨consistent'', kept''⟩ :=
    (refreshLayers_complete mode consistent' kept' harmless').of_ok loops
  exact ((calm_meets RefreshQueue.Tidy (tidy_invariant mode) consistent''
    (refreshGC_follows trivial) kept'').of_ok trailing).2.2

theorem skipped_stray (mode : cfg.refreshMode = 2 ∨ cfg.refreshMode = 3)
    {event final current : State} {layerID : Nat}
    (consistent : Consistent cfg event) (segmented : event.refresh.Segmented)
    (returned : (refreshEvent cfg env).run event = .ok () final)
    (pops : Pops cfg env event layerID current)
    (flagged : current.refresh.insertedLayerCheck layerID = true)
    (elsewhere : event.nextQueue ≠ current.refresh.layerQueueNum layerID) :
    final.refresh.Stray layerID := by
  obtain ⟨amount, below, early, rest, front⟩ := pops
  obtain ⟨consistent', segmented'⟩ :=
    popLayers_segmented mode consistent segmented early
  obtain ⟨more, total⟩ := Nat.exists_eq_add_of_lt below
  obtain ⟨popped, last, pops, trailing, rfl⟩ := refreshEvent_returns returned
  rw [total, Nat.add_assoc] at pops
  obtain ⟨middle, same, later⟩ := popLayers_cut pops
  rw [early] at same
  cases same
  rw [run_refreshLayers_cons front] at later
  obtain ⟨_, turned, turns, loops⟩ := run_bind_ok later
  obtain ⟨taken, skipped, popping, rest⟩ := run_bind_ok turns
  obtain ⟨rfl, refresh⟩ := (popLayer_elsewhere elsewhere).of_ok popping
  cases rest
  have stray : turned.refresh.Stray layerID := by
    rw [refresh]
    exact ⟨flagged, (segmented'.popFront front).2⟩
  -- from here on the machine keeps it
  have kept : (machine cfg env (.running True)).Invariant _ :=
    stray_invariant layerID mode True
  obtain ⟨_, sound, _, rfl⟩ := ((popLayer_follows trivial trivial front).meets
    (machine_trivial cfg env (.running True)) consistent' trivial).of_ok
      popping
  obtain ⟨_, sound', stray', rfl⟩ := ((refreshLayers_follows event.nextQueue
    more trivial trivial).meets kept sound stray).of_ok loops
  obtain ⟨_, _, stray'', _⟩ := ((refreshGC_follows trivial).meets kept sound'
    stray').of_ok trailing
  exact stray''

theorem segmented_meets (mode : cfg.refreshMode = 2 ∨ cfg.refreshMode = 3)
    {ops : List Op} (once : .initializeFTL ∉ ops)
    (result : outcome cfg env (.initializeFTL :: ops) = .ok () state) :
    Consistent cfg state ∧ state.refresh.Segmented := by
  have meets := initialized_meets (.running True) ops trivial
    (fills_allowed (fun _ _ => trivial) fun _ => trivial)
    (Op.allowed_running once) (machine_trivial cfg env .none) trivial
    (segmented_invariant mode True) fun _ constructed _ =>
      constructed.tidy.1
  obtain ⟨pools, mapped, maps, segmented⟩ := meets.of_ok result
  exact ⟨maps.consistent pools, segmented⟩

theorem complete_of_harmless
    (mode : cfg.refreshMode = 2 ∨ cfg.refreshMode = 3) {ops : List Op}
    (once : .initializeFTL ∉ ops)
    (result : outcome cfg env (.initializeFTL :: ops) = .ok () state)
    (harmless : ∀ event, Starts cfg env ops event → Harmless cfg event) :
    state.refresh.Complete := by
  induction ops using List.reverseRecOn generalizing state with
  | nil =>
      have meets := initialized_meets .calm [] trivial
        (fills_allowed (fun _ _ => trivial) fun _ => trivial) (by simp)
        (machine_trivial cfg env .none) trivial (tidy_invariant mode)
        fun _ constructed _ => constructed.tidy
      obtain ⟨_, _, _, tidy⟩ := meets.of_ok result
      exact tidy.2
  | append_singleton earlier op induction =>
      simp only [List.mem_append, List.mem_singleton, not_or] at once
      rw [← List.cons_append] at result
      obtain ⟨middle, early, last⟩ := outcome_append result
      obtain ⟨consistent, segmented⟩ := segmented_meets mode once.1 early
      have complete : middle.refresh.Complete := by
        refine induction once.1 early ?_
        intro event starts
        obtain ⟨before, after, split, reached⟩ := starts
        exact harmless event ⟨before, after ++ [op], by simp [split], reached⟩
      obtain ⟨_, final, performed, none⟩ := run_bind_ok last
      cases none
      by_cases refreshes : op = .refresh
      · subst refreshes
        exact refreshEvent_complete mode consistent ⟨segmented, complete⟩
          (harmless middle ⟨earlier, [], rfl, early⟩) performed
      · have allowed : op.Allowed cfg env .calm := by
          cases op with
          | refresh => exact absurd rfl refreshes
          | initializeFTL => exact absurd rfl once.2
          | read | write | trim | gc | format => trivial
        exact ((calm_meets RefreshQueue.Tidy (tidy_invariant mode) consistent
          (perform_follows op trivial allowed)
          ⟨segmented, complete⟩).of_ok performed).2.2

/-- In the segment-grouping modes an event refreshes every flagged layer that it
pops exactly when it works off queue 0 or pops nothing, and every flagged layer
waits in a queue exactly as long as all events were of that kind. -/
theorem segment_refresh (cfg : Config) (env : Environment) (ops : List Op)
    (mode : cfg.refreshMode = 2 ∨ cfg.refreshMode = 3)
    (once : .initializeFTL ∉ ops) {state : State}
    (result : outcome cfg env (.initializeFTL :: ops) = .ok () state) :
    (∀ event, Starts cfg env ops event →
      (RenewsAll cfg env event ↔ Harmless cfg event)) ∧
    ((∀ layerID, state.refresh.insertedLayerCheck layerID = true →
        ∃ queueNum, layerID ∈ state.refresh.refreshQueues queueNum ∨
          layerID ∈ state.refresh.checkedQueues queueNum) ↔
      ∀ event, Starts cfg env ops event → Harmless cfg event) := by
  have events : ∀ event, Starts cfg env ops event →
      Consistent cfg event ∧ event.refresh.Segmented ∧
        ∃ (after : State) (later : List Op),
        (refreshEvent cfg env).run event = .ok () after ∧
        (later.forM (perform cfg env)).run after = .ok () state ∧
        .initializeFTL ∉ later := by
    intro event starts
    obtain ⟨earlier, later, split, reached⟩ := starts
    subst split
    simp only [List.mem_append, List.mem_cons, not_or] at once
    obtain ⟨consistent, segmented⟩ := segmented_meets mode once.1 reached
    rw [← List.cons_append] at result
    obtain ⟨middle, early, performed⟩ := outcome_append result
    rw [reached] at early
    cases early
    obtain ⟨_, after, refreshed, rest⟩ := run_bind_ok performed
    exact ⟨consistent, segmented, after, later, refreshed, rest, once.2.2⟩
  have complete_iff : state.refresh.Complete ↔
      ∀ layerID, state.refresh.insertedLayerCheck layerID = true →
        ∃ queueNum, layerID ∈ state.refresh.refreshQueues queueNum ∨
          layerID ∈ state.refresh.checkedQueues queueNum := by
    simp only [RefreshQueue.Complete, RefreshQueue.Stray, not_and, not_forall,
      ← Nat.pos_iff_ne_zero, RefreshQueue.occurrences_pos]
  refine ⟨?_, ?_⟩
  · intro event starts
    obtain ⟨consistent, segmented, after, _, refreshed, _⟩ :=
      events event starts
    exact renewsAll_iff mode consistent segmented refreshed
  · rw [← complete_iff]
    constructor
    · intro complete event starts
      by_contra harmful
      obtain ⟨consistent, segmented, after, later, refreshed, rest, once'⟩ :=
        events event starts
      obtain ⟨layerID, current, pops, flagged, elsewhere, _⟩ :=
        first_pop_elsewhere mode consistent segmented refreshed harmful
      have stray := skipped_stray mode consistent segmented refreshed pops
        flagged elsewhere
      obtain ⟨_, sound, _, rfl⟩ := ((refreshEvent_follows trivial
        trivial).meets (machine_trivial cfg env (.running True)) consistent
          trivial).of_ok refreshed
      obtain ⟨_, _, stray'⟩ := (performs_meet trivial
        (Op.allowed_running once') (stray_invariant layerID mode True) sound.1
          sound.2 stray).of_ok rest
      exact complete layerID stray'
    · exact complete_of_harmless mode once result

def segmentConfig : Config :=
  { sampleConfig with refreshMode := 2, refreshFilterNum := 2 }

/-- Pages that last as long as there are queues wait in queue 0. -/
theorem segment_refresh_queue_zero :
    ∃ event state, outcome segmentConfig sampleEnvironment
        [.initializeFTL, writePage 0, .refresh, .refresh] = .ok () state ∧
      Starts segmentConfig sampleEnvironment
        [writePage 0, .refresh, .refresh] event ∧
      event.refresh.refreshQueues event.nextQueue = [0, 21, 42] ∧
      RenewsAll segmentConfig sampleEnvironment event := by
  have whole : returns (outcome segmentConfig sampleEnvironment
      [.initializeFTL, writePage 0, .refresh, .refresh])
      (fun _ => true) = true := by
    decide +kernel
  have before : returns (outcome segmentConfig sampleEnvironment
      [.initializeFTL, writePage 0, .refresh])
      (fun event => event.nextQueue = 0 ∧
        event.refresh.refreshQueues event.nextQueue = [0, 21, 42]) = true := by
    decide +kernel
  obtain ⟨state, result, _⟩ := returns_iff.mp whole
  obtain ⟨event, reached, test⟩ := returns_iff.mp before
  obtain ⟨zero, waits⟩ := of_decide_eq_true test
  have starts : Starts segmentConfig sampleEnvironment
      [writePage 0, .refresh, .refresh] event :=
    ⟨[writePage 0, .refresh], [], rfl, reached⟩
  exact ⟨event, state, result, starts, waits,
    ((segment_refresh segmentConfig sampleEnvironment
      [writePage 0, .refresh, .refresh] (.inl rfl) (by simp [writePage])
      result).1 event starts).mpr (.inl zero)⟩

def hastyEnvironment : Environment :=
  { sampleEnvironment with getRBER := fun _ _ _ _ => 2 }

/-- Pages that last for one period wait in queue 1, where the event skips
them. -/
theorem segment_layer_skipped :
    ∃ event state, outcome segmentConfig hastyEnvironment
        [.initializeFTL, writePage 0, .refresh] = .ok () state ∧
      Starts segmentConfig hastyEnvironment [writePage 0, .refresh] event ∧
      ¬ RenewsAll segmentConfig hastyEnvironment event ∧
      state.refresh.insertedLayerCheck 0 = true ∧
      ∀ queueNum, 0 ∉ state.refresh.refreshQueues queueNum ∧
        0 ∉ state.refresh.checkedQueues queueNum := by
  have whole : returns (outcome segmentConfig hastyEnvironment
      [.initializeFTL, writePage 0, .refresh])
      (fun _ => true) = true := by
    decide +kernel
  have before : returns (outcome segmentConfig hastyEnvironment
      [.initializeFTL, writePage 0])
      (fun event => event.nextQueue = 1 ∧
        event.refresh.refreshQueues 1 = [0, 21, 42]) = true := by
    decide +kernel
  obtain ⟨state, result, _⟩ := returns_iff.mp whole
  obtain ⟨event, reached, test⟩ := returns_iff.mp before
  obtain ⟨one, waits⟩ := of_decide_eq_true test
  have starts : Starts segmentConfig hastyEnvironment
      [writePage 0, .refresh] event := ⟨[writePage 0], [], rfl, reached⟩
  obtain ⟨consistent, segmented⟩ := segmented_meets (.inl rfl)
    (by simp [writePage]) reached
  have split : [Op.initializeFTL, writePage 0, .refresh] =
      [.initializeFTL, writePage 0] ++ [.refresh] := rfl
  have parts := result
  rw [split] at parts
  obtain ⟨middle, early, performed⟩ := outcome_append parts
  rw [reached] at early
  cases early
  obtain ⟨_, final, refreshed, none⟩ := run_bind_ok performed
  cases none
  have harmful : ¬ Harmless segmentConfig event := by
    rintro (zero | none | empty)
    · omega
    · cases none
    · rw [one, waits] at empty
      cases empty
  obtain ⟨layerID, current, pops, flagged, elsewhere, _, first⟩ :=
    first_pop_elsewhere (.inl rfl) consistent segmented refreshed harmful
  have layer : layerID = 0 := by
    rw [one, waits] at first
    exact (List.cons.inj first.symm).1
  subst layer
  obtain ⟨flag, nowhere⟩ := skipped_stray (.inl rfl) consistent segmented
    refreshed pops flagged elsewhere
  refine ⟨event, _, result, starts, ?_, flag, ?_⟩
  · rw [renewsAll_iff (.inl rfl) consistent segmented refreshed]
    exact harmful
  · intro queueNum
    have none := nowhere queueNum
    rw [← not_or, ← RefreshQueue.occurrences_pos]
    omega

end SimpleSSD.FTL
