import SimpleSSD.FTL.Consistency
import SimpleSSD.FTL.Schedule

namespace SimpleSSD.FTL

open Machine

/-! The refresh schedule over whole runs: no layer waits twice, and no valid page
is left out. -/

variable {cfg : Config} {env : Environment} {allow : Allowance}
  {before after : Phase × State}

/-- What a step can do to the schedule once its tables are built. -/
inductive Reschedules (cfg : Config) (env : Environment)
    (before after : State) : Prop
  | unchanged (same : after.refresh = before.refresh)
      (counted : after.stat.doubleInsertionCount =
        before.stat.doubleInsertionCount)
  | schedule (scheduled : before.refresh.setRefreshPeriod cfg env
        before.stat.refreshCallCount eraseCount blockIndex (page % 64) =
          .ok after.refresh)
      (counted : after.stat.doubleInsertionCount =
        before.stat.doubleInsertionCount)
  | swap (target : Nat) (swapped : after.refresh = before.refresh.swap target)
      (counted : after.stat.doubleInsertionCount =
        before.stat.doubleInsertionCount)
  | skip (front : before.refresh.checkedQueues queueNum = layerID :: rest)
      (elsewhere : queueNum ≠ before.refresh.layerQueueNum layerID)
      (popped : after.refresh = before.refresh.popFront queueNum)
  | pop (front : before.refresh.checkedQueues queueNum = layerID :: rest)
      (popped : after.refresh =
        (before.refresh.popFront queueNum).setLayerCheck layerID false)
      (counted : after.stat.doubleInsertionCount =
        before.stat.doubleInsertionCount)

theorem Step.reschedules (step : Step cfg env allow before after)
    (once : ¬ allow.setup) : Reschedules cfg env before.2 after.2 := by
  cases step with
  | quiet same => exact .unchanged same.refresh_eq same.double_eq
  | program aimed found inside waits mapped written scheduled =>
      exact .schedule scheduled rfl
  | setup allowed => exact absurd allowed once
  | swap allowed target => exact .swap target rfl rfl
  | skipLayer allowed front elsewhere => exact .skip front elsewhere rfl
  | popLayer allowed idle front here flagged => exact .pop front rfl rfl
  | _ => exact .unchanged rfl rfl

/-- Outside a refresh event the schedule changes with the programmed pages
only. -/
theorem Step.schedules (step : Step cfg env allow before after)
    (once : ¬ allow.setup) (calm : ¬ allow.refreshing) :
    after.2.stat.refreshCallCount = before.2.stat.refreshCallCount ∧
      (after.2.refresh = before.2.refresh ∨ ∃ eraseCount blockIndex page,
        before.2.refresh.setRefreshPeriod cfg env
          before.2.stat.refreshCallCount eraseCount blockIndex (page % 64) =
            .ok after.2.refresh) := by
  cases step with
  | quiet same => exact ⟨same.calls_eq, .inl same.refresh_eq⟩
  | program aimed found inside waits mapped written scheduled =>
      exact ⟨rfl, .inr ⟨_, _, _, scheduled⟩⟩
  | setup allowed => exact absurd allowed once
  | swap allowed => exact absurd allowed calm
  | tick allowed => exact absurd allowed calm
  | skipLayer allowed => exact absurd allowed calm
  | popLayer allowed => exact absurd allowed calm
  | _ => exact ⟨rfl, .inl rfl⟩

/-! Exactness. -/

/-- Until a layer is moved out of a checked queue, every layer waits where it
should and the pop loop skips none. -/
def Queued (state : State) : Prop :=
  state.refresh.Orderly ∧
    (state.refresh.requeued = [] → state.stat.doubleInsertionCount = 0)

theorem Queued.step (mode : cfg.refreshMode = 0 ∨ cfg.refreshMode = 1)
    {before after : State} (changes : Reschedules cfg env before after)
    (queued : Queued before) : Queued after := by
  obtain ⟨orderly, single⟩ := queued
  cases changes with
  | unchanged same counted =>
      unfold Queued
      rw [same, counted]
      exact ⟨orderly, single⟩
  | schedule scheduled counted =>
      refine ⟨RefreshQueue.setRefreshPeriod_orderly mode scheduled orderly, ?_⟩
      intro unmoved
      rw [counted]
      exact single
        ((RefreshQueue.setRefreshPeriod_grows mode scheduled).2.2 unmoved)
  | swap target swapped counted =>
      unfold Queued
      rw [swapped, counted]
      exact ⟨orderly.swap target, single⟩
  | skip front elsewhere popped =>
      -- an exact schedule has no layer to skip
      have never : after.refresh.requeued ≠ [] := by
        intro unmoved
        rw [popped] at unmoved
        exact elsewhere ((orderly unmoved).front front).2
      exact ⟨fun unmoved => absurd unmoved never,
        fun unmoved => absurd unmoved never⟩
  | pop front popped counted =>
      unfold Queued
      rw [popped, counted]
      exact ⟨orderly.pop front, single⟩

theorem queued_invariant (mode : cfg.refreshMode = 0 ∨ cfg.refreshMode = 1)
    (once : ¬ allow.setup) :
    (machine cfg env allow).Invariant fun config => Queued config.2 :=
  fun _ _ step _ queued => queued.step mode (step.reschedules once)

/-- The tables that `initialize` builds hold no layer. -/
theorem Constructed.refresh_eq {state : State}
    (constructed : Constructed cfg state) :
    state.refresh = .empty ∧ state.stat = {} := by
  have books := constructed.books
  simp only [State.books, Prod.mk.injEq] at books
  exact ⟨books.2.1, books.2.2.1⟩

theorem Constructed.occurrences {state : State}
    (constructed : Constructed cfg state) (queueNum layerID : Nat) :
    (state.scheduling cfg).refresh.occurrences queueNum layerID = 0 := by
  unfold State.scheduling
  rw [constructed.refresh_eq.1]
  rfl

theorem Constructed.queued {state : State}
    (constructed : Constructed cfg state) :
    Queued (state.scheduling cfg) := by
  refine ⟨fun _ queueNum layerID => ?_, fun _ => ?_⟩
  · rw [constructed.occurrences]
    simp [State.scheduling, RefreshQueue.setup]
  · unfold State.scheduling
    rw [constructed.refresh_eq.2]

/-- Runs after the one call of `initialize`: everything but a second set-up is
allowed, and the hot pool is filled only if it should be. -/
def Allowance.running (hotFill : Prop) : Allowance where
  policy := True
  setup := False
  plainFill := True
  hotFill := hotFill
  foreign := True
  refreshing := True

def Allowance.calm : Allowance :=
  { Allowance.running True with refreshing := False }

theorem Op.allowed_running {hotFill : Prop} {ops : List Op}
    (once : .initializeFTL ∉ ops) :
    ∀ op ∈ ops, op.Allowed cfg env (.running hotFill) := by
  intro op member
  cases op with
  | initializeFTL => exact absurd member once
  | read | write | trim | gc | refresh | format => trivial

/-- In the first two modes, between the operations of every life that has moved
no layer out of a checked queue, a flagged layer waits exactly once and in the
queue that its number names, and any other layer waits nowhere. -/
theorem queue_exactness (cfg : Config) (env : Environment) (ops : List Op)
    (mode : cfg.refreshMode = 0 ∨ cfg.refreshMode = 1)
    (once : .initializeFTL ∉ ops) :
    match outcome cfg env (.initializeFTL :: ops) with
    | .ok _ final => final.refresh.requeued = [] →
        final.refresh.Exact ∧ final.stat.doubleInsertionCount = 0
    | .error raised stopped => stopped.refresh.requeued = [] →
        raised ≠ .corruptedLayerCheck := by
  have meets := initialized_meets (.running True) ops trivial
    (fills_allowed (fun _ _ => trivial) fun _ => trivial)
    (Op.allowed_running once) (machine_trivial cfg env .none) trivial
    (queued_invariant mode id) fun _ constructed _ => constructed.queued
  cases result : outcome cfg env (.initializeFTL :: ops) with
  | ok value final =>
      obtain ⟨_, _, _, orderly, single⟩ := meets.of_ok result
      exact fun unmoved => ⟨orderly unmoved, single unmoved⟩
  | error raised stopped =>
      intro unmoved same
      subst same
      rcases meets.of_error result with
        ⟨early, _⟩ | ⟨phase, state, _, _, ⟨orderly, _⟩, history, cause⟩
      · revert early
        decide
      · rw [history.requeued_eq] at unmoved
        obtain ⟨queueNum, layerID, rest, front, cleared⟩ :=
          cause.layerCheck rfl
        have flagged := ((orderly unmoved).front front).1
        rw [cleared] at flagged
        cases flagged

theorem queue_exactness_sample :
    ∃ final, outcome sampleConfig sampleEnvironment
        [.initializeFTL, writePage 0, .refresh] = .ok () final ∧
      final.refresh.requeued = [] ∧ final.refresh.Exact := by
  have exact := queue_exactness sampleConfig sampleEnvironment
    [writePage 0, .refresh] (.inl rfl) (by simp [writePage])
  have evaluated : returns (outcome sampleConfig sampleEnvironment
      [.initializeFTL, writePage 0, .refresh])
      (fun final => final.refresh.requeued = []) = true := by
    decide +kernel
  obtain ⟨final, result, unmoved⟩ := returns_iff.mp evaluated
  rw [result] at exact
  have settled : final.refresh.requeued = [] := by simpa using unmoved
  exact ⟨final, result, settled, (exact settled).1⟩

def movedConfig : Config :=
  { sampleConfig with
    ioUnitInPage := 2
    ioUnitInPage_pos := Nat.two_pos
    pageCountToMaxPerf_pos := Nat.one_pos
    bRandomTweak := true
    refreshFilterNum := 2
    refreshMaxLayerNum := 0 }

/-- The first error rate drawn is low and the later ones are high. -/
def movedEnvironment : Environment :=
  { sampleEnvironment with
    getRBER := fun draw _ _ _ => if draw = 0 then 0 else 2 }

/-- Layer 0 waits in the checked half of queue 0; the second write moves it to
queue 1 and leaves it in queue 0 as well. -/
theorem moved_layer_waits_twice :
    ∃ final, outcome movedConfig movedEnvironment
        [.initializeFTL, .write 0 (· = 0), .refresh, .refresh,
          .write 1 (· = 1)] = .ok () final ∧
      ¬ final.refresh.Exact := by
  have evaluated : returns (outcome movedConfig movedEnvironment
      [.initializeFTL, .write 0 (· = 0), .refresh, .refresh,
        .write 1 (· = 1)])
      (fun final => final.refresh.occurrences 0 0 = 1 ∧
        final.refresh.occurrences 1 0 = 1) = true := by
    decide +kernel
  obtain ⟨final, result, both⟩ := returns_iff.mp evaluated
  simp only [decide_eq_true_eq] at both
  refine ⟨final, result, ?_⟩
  intro exact
  have first := exact 0 0
  have second := exact 1 0
  rw [both.1] at first
  rw [both.2] at second
  split at first
  · next here =>
      rw [← here.2] at second
      simp at second
  · cases first

/-! Coverage. -/

/-- Every valid page that is not in the layer being drained has its layer
flagged. -/
def Covered (phase : Phase) (state : State) : Prop :=
  ∀ blockIndex page idx lpn, state.Stores blockIndex page idx lpn →
    state.refresh.insertedLayerCheck (blockIndex * 64 + page % 64) = true ∨
      ∃ pages, phase.drain = some (blockIndex * 64 + page % 64, pages) ∧
        page ∈ pages

/-- The schedule covers the valid pages, as long as no page was left out. -/
structure Retained (cfg : Config) (phase : Phase) (state : State) : Prop where
  located : state.refresh.Located
  covered : state.refresh.unscheduled = [] → Covered phase state
  single : cfg.refreshMode = 0 → state.refresh.unscheduled = []

theorem Reschedules.located
    (mode : cfg.refreshMode = 0 ∨ cfg.refreshMode = 1)
    {before after : State} (changes : Reschedules cfg env before after)
    (located : before.refresh.Located) : after.refresh.Located := by
  cases changes with
  | unchanged same => exact same ▸ located
  | schedule scheduled =>
      exact RefreshQueue.setRefreshPeriod_located mode scheduled located
  | swap target swapped => exact swapped ▸ located.swap target
  | skip front elsewhere popped => exact popped ▸ located.skip front elsewhere
  | pop front popped => exact popped ▸ located.pop front

/-- History is never forgotten, and mode 0 leaves no page out. -/
theorem Reschedules.unscheduled
    (mode : cfg.refreshMode = 0 ∨ cfg.refreshMode = 1)
    {before after : State} (changes : Reschedules cfg env before after) :
    (after.refresh.unscheduled = [] → before.refresh.unscheduled = []) ∧
      (cfg.refreshMode = 0 →
        after.refresh.unscheduled = before.refresh.unscheduled) := by
  cases changes with
  | unchanged same => exact same ▸ ⟨id, fun _ => rfl⟩
  | schedule scheduled =>
      exact ⟨(RefreshQueue.setRefreshPeriod_grows mode scheduled).2.1,
        fun zero => RefreshQueue.setRefreshPeriod_unscheduled zero scheduled⟩
  | swap target swapped => exact swapped ▸ ⟨id, fun _ => rfl⟩
  | skip front elsewhere popped => exact popped ▸ ⟨id, fun _ => rfl⟩
  | pop front popped => exact popped ▸ ⟨id, fun _ => rfl⟩

theorem Covered.keeps (step : Step cfg env allow before after)
    (pools : Pools cfg before.2) (once : ¬ allow.setup)
    (mode : cfg.refreshMode = 0 ∨ cfg.refreshMode = 1)
    {blockIndex page idx lpn : Nat}
    (stores : before.2.Stores blockIndex page idx lpn)
    (covered : before.2.refresh.insertedLayerCheck
        (blockIndex * 64 + page % 64) = true ∨
      ∃ pages, before.1.drain = some (blockIndex * 64 + page % 64, pages) ∧
        page ∈ pages) :
    after.2.refresh.insertedLayerCheck (blockIndex * 64 + page % 64) = true ∨
      ∃ pages, after.1.drain = some (blockIndex * 64 + page % 64, pages) ∧
        page ∈ pages := by
  cases step with
  | quiet same =>
      dsimp only
      rw [same.refresh_eq]
      exact covered
  | program aimed found inside waits mapped written scheduled =>
      refine covered.imp_left ?_
      exact (RefreshQueue.setRefreshPeriod_grows mode scheduled).1 _
  | setup allowed => exact absurd allowed once
  | @popLayer layerID rest queueNum phase state allowed idle front here
      flagged =>
      by_cases same : blockIndex * 64 + page % 64 = layerID
      · -- the layer is being drained, and its list holds every page of it
        right
        refine ⟨layerPages cfg (layerID % 64), by rw [same], ?_⟩
        have below := (pools.stores_inside stores).1.2
        exact mem_layerPages.mpr ⟨below, by omega⟩
      · left
        rcases covered with covered | ⟨pages, draining, _⟩
        · simpa [RefreshQueue.setLayerCheck, RefreshQueue.popFront, same]
            using covered
        · rw [idle] at draining
          cases draining
  | @visited layerID visited pages phase state draining nothing =>
      refine covered.imp_right ?_
      intro waits
      obtain ⟨listed, same, member⟩ := waits
      dsimp only at same
      rw [draining] at same
      cases same
      refine ⟨pages, rfl, ?_⟩
      rcases List.mem_cons.mp member with this | later
      · subst this
        refine absurd stores ?_
        have block : (blockIndex * 64 + page % 64) / 64 = blockIndex := by
          omega
        rw [block] at nothing
        exact nothing idx lpn
      · exact later
  | @drained layerID pages phase state draining nothing =>
      refine .inl (covered.resolve_right ?_)
      intro waits
      obtain ⟨listed, same, member⟩ := waits
      dsimp only at same
      rw [draining] at same
      cases same
      have block : (blockIndex * 64 + page % 64) / 64 = blockIndex := by
        omega
      rw [block] at nothing
      exact nothing page member idx lpn stores
  | _ => exact covered

theorem Retained.step (step : Step cfg env allow before after)
    (pools : Pools cfg before.2)
    (mode : cfg.refreshMode = 0 ∨ cfg.refreshMode = 1)
    (once : ¬ allow.setup) (cold : ¬ allow.hotFill)
    (retained : Retained cfg before.1 before.2) :
    Retained cfg after.1 after.2 := by
  have changes := step.reschedules once
  obtain ⟨grows, same⟩ := changes.unscheduled mode
  refine ⟨changes.located mode retained.located, ?_, ?_⟩
  · intro complete blockIndex page idx lpn stores
    rcases step.stores pools stores with old | ⟨_, hot | ⟨_, scheduled⟩⟩
    · exact Covered.keeps step pools once mode old
        (retained.covered (grows complete) _ _ _ _ old)
    · exact absurd hot cold
    · exact .inl (RefreshQueue.setRefreshPeriod_flagged mode
        (Nat.mod_lt _ (by decide)) scheduled complete)
  · intro zero
    rw [same zero]
    exact retained.single zero

theorem Constructed.retained {state : State}
    (constructed : Constructed cfg state) :
    Retained cfg (.rest ∅) (state.scheduling cfg) where
  located := by
    intro layerID flagged
    simp [State.scheduling, RefreshQueue.setup] at flagged
  covered := by
    intro _ blockIndex page idx lpn stores
    have mapped := (constructed.maps.stored blockIndex page idx lpn stores).2
    obtain ⟨mapping, found, _⟩ := mapped
    have books := constructed.books
    simp only [State.books, Prod.mk.injEq] at books
    rw [books.1] at found
    cases found
  single := by
    intro _
    unfold State.scheduling
    rw [constructed.refresh_eq.1]
    rfl

/-- A page that the schedule knows: its layer is flagged and waits in the queue
that its number names. -/
def Scheduled (state : State) (blockIndex page : Nat) : Prop :=
  let layerID := blockIndex * 64 + page % 64
  let queueNum := state.refresh.layerQueueNum layerID
  state.refresh.insertedLayerCheck layerID = true ∧
    (layerID ∈ state.refresh.refreshQueues queueNum ∨
      layerID ∈ state.refresh.checkedQueues queueNum)

theorem Retained.scheduled {mapped : Set (Nat × Nat)} {state : State}
    (retained : Retained cfg (.rest mapped) state)
    (complete : state.refresh.unscheduled = [])
    {blockIndex page idx lpn : Nat}
    (stores : state.Stores blockIndex page idx lpn) :
    Scheduled state blockIndex page := by
  have flagged := (retained.covered complete _ _ _ _ stores).resolve_right
    fun ⟨_, draining, _⟩ => by cases draining
  exact ⟨flagged,
    RefreshQueue.occurrences_pos.mp (retained.located _ flagged)⟩

theorem retained_meets (cfg : Config) (env : Environment) {ops : List Op}
    (mode : cfg.refreshMode = 0 ∨ cfg.refreshMode = 1)
    (cold : ∀ lpn, .hot lpn ∉ fills cfg env)
    (once : .initializeFTL ∉ ops) {final : State}
    (result : outcome cfg env (.initializeFTL :: ops) = .ok () final) :
    ∃ mapped, Retained cfg (.rest mapped) final := by
  have meets := initialized_meets (.running False) ops trivial
    (fills_allowed (fun _ _ => trivial)
      fun ⟨lpn, member⟩ => cold lpn member)
    (Op.allowed_running once) (machine_trivial cfg env .none) trivial
    (fun _ _ step sound retained =>
      Retained.step step sound.1 mode id id retained)
    fun _ constructed _ => constructed.retained
  obtain ⟨_, mapped, _, retained⟩ := meets.of_ok result
  exact ⟨mapped, retained⟩

theorem fills_cold (plain : cfg.hotColdSeparation = false) (lpn : Nat) :
    .hot lpn ∉ fills cfg env := by
  intro member
  have separated := fills_separated member (by simp)
  rw [plain] at separated
  cases separated

/-- In mode 0 without separation no valid page is ever outside the schedule. -/
theorem single_layer_retention (cfg : Config) (env : Environment)
    (ops : List Op) (mode : cfg.refreshMode = 0)
    (plain : cfg.hotColdSeparation = false)
    (once : .initializeFTL ∉ ops) :
    match outcome cfg env (.initializeFTL :: ops) with
    | .ok _ final => ∀ blockIndex page idx lpn,
        final.Stores blockIndex page idx lpn → Scheduled final blockIndex page
    | .error _ _ => True := by
  cases result : outcome cfg env (.initializeFTL :: ops) with
  | error raised stopped => trivial
  | ok value final =>
      obtain ⟨mapped, retained⟩ := retained_meets cfg env (.inl mode)
        (fills_cold plain) once result
      intro blockIndex page idx lpn stores
      exact retained.scheduled (retained.single mode) stores

def holds (blockIndex page idx lpn : Nat) (state : State) : Bool :=
  match state.blocks.lookup blockIndex with
  | some block => block.validBits page idx && block.lpns page idx = lpn
  | none => false

theorem holds_iff {state : State} {blockIndex page idx lpn : Nat} :
    holds blockIndex page idx lpn state = true ↔
      state.Stores blockIndex page idx lpn := by
  unfold holds State.Stores
  cases state.blocks.lookup blockIndex <;> simp

theorem single_layer_retention_sample :
    ∃ final, outcome sampleConfig sampleEnvironment
        [.initializeFTL, writePage 0, .refresh] = .ok () final ∧
      final.Stores 0 0 0 0 ∧ Scheduled final 0 0 := by
  have retained := single_layer_retention sampleConfig sampleEnvironment
    [writePage 0, .refresh] rfl rfl (by simp [writePage])
  have evaluated : returns (outcome sampleConfig sampleEnvironment
      [.initializeFTL, writePage 0, .refresh]) (holds 0 0 0 0) = true := by
    decide +kernel
  obtain ⟨final, result, test⟩ := returns_iff.mp evaluated
  have stores := holds_iff.mp test
  rw [result] at retained
  exact ⟨final, result, stores, retained 0 0 0 0 stores⟩

/-- In mode 1 without separation the schedule covers every valid page, in every
life that has programmed no page into a later layer of a group whose flag was
clear. -/
theorem grouped_retention (cfg : Config) (env : Environment) (ops : List Op)
    (mode : cfg.refreshMode = 1) (plain : cfg.hotColdSeparation = false)
    (once : .initializeFTL ∉ ops) :
    match outcome cfg env (.initializeFTL :: ops) with
    | .ok _ final => final.refresh.unscheduled = [] →
        ∀ blockIndex page idx lpn, final.Stores blockIndex page idx lpn →
          Scheduled final blockIndex page
    | .error _ _ => True := by
  cases result : outcome cfg env (.initializeFTL :: ops) with
  | error raised stopped => trivial
  | ok value final =>
      obtain ⟨mapped, retained⟩ := retained_meets cfg env (.inr mode)
        (fills_cold plain) once result
      intro complete blockIndex page idx lpn stores
      exact retained.scheduled complete stores

def groupedConfig : Config :=
  { sampleConfig with
    pageCountToMaxPerf := 2
    ioUnitInPage_pos := Nat.one_pos
    pageCountToMaxPerf_pos := Nat.two_pos
    refreshFilterNum := 1
    refreshMode := 1 }

theorem grouped_retention_sample :
    ∃ final, outcome groupedConfig sampleEnvironment
        [.initializeFTL, writePage 0] = .ok () final ∧
      final.refresh.unscheduled = [] ∧ final.Stores 1 0 0 0 ∧
      Scheduled final 1 0 := by
  have retained := grouped_retention groupedConfig sampleEnvironment
    [writePage 0] rfl rfl (by simp [writePage])
  have evaluated : returns (outcome groupedConfig sampleEnvironment
      [.initializeFTL, writePage 0])
      (fun final => holds 1 0 0 0 final &&
        final.refresh.unscheduled = []) = true := by
    decide +kernel
  obtain ⟨final, result, test⟩ := returns_iff.mp evaluated
  simp only [Bool.and_eq_true, decide_eq_true_eq, holds_iff] at test
  rw [result] at retained
  exact ⟨final, result, test.2, test.1, retained test.2 1 0 0 0 test.1⟩

/-- The refresh takes the first group of block 1 off the schedule, and the next
write programs the second page of that block, whose layer no one schedules. -/
theorem later_layer_unscheduled :
    ∃ final, outcome groupedConfig sampleEnvironment
        [.initializeFTL, writePage 0, .refresh, writePage 1] = .ok () final ∧
      final.Stores 1 1 0 1 ∧ ¬ Scheduled final 1 1 := by
  have evaluated : returns (outcome groupedConfig sampleEnvironment
      [.initializeFTL, writePage 0, .refresh, writePage 1])
      (fun final => holds 1 1 0 1 final &&
        !final.refresh.insertedLayerCheck 65) = true := by
    decide +kernel
  obtain ⟨final, result, test⟩ := returns_iff.mp evaluated
  simp only [Bool.and_eq_true, Bool.not_eq_true', holds_iff] at test
  refine ⟨final, result, test.1, ?_⟩
  intro scheduled
  have flagged : final.refresh.insertedLayerCheck 65 = true := scheduled.1
  rw [test.2] at flagged
  cases flagged

/-- With separation the schedule covers every valid page in HOT, COOL and COLD
blocks alike, when the warm-up writes no page through the hot filling. -/
theorem separated_retention (cfg : Config) (env : Environment)
    (ops : List Op) (mode : cfg.refreshMode = 0)
    (filling : cfg.fillingMode = .mode0 ∨ cfg.fillingMode = .mode1)
    (valid : cfg.nPagesToInvalidate = 0)
    (cold : cfg.nPagesToWarmup ≤ cfg.coldWarmup)
    (once : .initializeFTL ∉ ops) :
    match outcome cfg env (.initializeFTL :: ops) with
    | .ok _ final => ∀ blockIndex page idx lpn,
        final.Stores blockIndex page idx lpn → Scheduled final blockIndex page
    | .error _ _ => True := by
  have unfilled : ∀ lpn, .hot lpn ∉ fills cfg env := by
    intro lpn member
    have nothing : cfg.nPagesToWarmup - cfg.coldWarmup = 0 := by omega
    rcases filling with zero | one
    · simp only [fills, fillingWrites, invalidatingWrites, zero, valid,
        nothing] at member
      split at member <;> simp at member
    · simp only [fills, fillingWrites, invalidatingWrites, one, valid,
        nothing] at member
      split at member <;> simp at member
  cases result : outcome cfg env (.initializeFTL :: ops) with
  | error raised stopped => trivial
  | ok value final =>
      obtain ⟨mapped, retained⟩ := retained_meets cfg env (.inl mode)
        unfilled once result
      intro blockIndex page idx lpn stores
      exact retained.scheduled (retained.single mode) stores

theorem separated_retention_sample :
    ∃ final, outcome separatedConfig sampleEnvironment
        [.initializeFTL, writePage 0] = .ok () final ∧
      final.Stores 2 0 0 0 ∧ Scheduled final 2 0 := by
  have retained := separated_retention separatedConfig sampleEnvironment
    [writePage 0] rfl (.inl rfl) rfl (by decide) (by simp [writePage])
  have evaluated : returns (outcome separatedConfig sampleEnvironment
      [.initializeFTL, writePage 0]) (holds 2 0 0 0) = true := by
    decide +kernel
  obtain ⟨final, result, test⟩ := returns_iff.mp evaluated
  have stores := holds_iff.mp test
  rw [result] at retained
  exact ⟨final, result, stores, retained 2 0 0 0 stores⟩

def warmConfig : Config :=
  { separatedConfig with nPagesToWarmup := 1 }

/-- The one warm-up page goes to the hot pool, where its layer is not
scheduled. -/
theorem hot_page_unscheduled :
    ∃ final, outcome warmConfig sampleEnvironment [.initializeFTL] =
        .ok () final ∧
      final.Stores 0 0 0 0 ∧ ¬ Scheduled final 0 0 := by
  have evaluated : returns (outcome warmConfig sampleEnvironment
      [.initializeFTL])
      (fun final => holds 0 0 0 0 final &&
        !final.refresh.insertedLayerCheck 0) = true := by
    decide +kernel
  obtain ⟨final, result, test⟩ := returns_iff.mp evaluated
  simp only [Bool.and_eq_true, Bool.not_eq_true', holds_iff] at test
  refine ⟨final, result, test.1, ?_⟩
  intro scheduled
  have flagged : final.refresh.insertedLayerCheck 0 = true := scheduled.1
  rw [test.2] at flagged
  cases flagged

end SimpleSSD.FTL
