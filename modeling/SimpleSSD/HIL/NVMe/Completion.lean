import SimpleSSD.Data.Liveness
import SimpleSSD.HIL.NVMe.Calls

namespace SimpleSSD.HIL.NVMe

namespace Subsystem

structure Fresh (subsystem : Subsystem) : Prop where
  pending : subsystem.pending = []
  responses : subsystem.responses = []
  submitted : subsystem.submitted = 0

structure Tracked (cfg : ConfigData) (subsystem : Subsystem) : Prop where
  accounted : ∀ func < subsystem.submitted, Accounted subsystem func
  unused : ∀ func, subsystem.submitted ≤ func → Handled subsystem func
  single : ∀ callback ∈ subsystem.pending, callback.Single
  placed : Placed cfg subsystem

theorem Fresh.tracked {cfg : ConfigData} {subsystem : Subsystem}
    (fresh : Fresh subsystem) (placed : Placed cfg subsystem) :
    Tracked cfg subsystem := by
  refine ⟨?_, ?_, ?_, placed⟩
  · intro func below
    rw [fresh.submitted] at below
    exact absurd below (Nat.not_lt_zero _)
  · intro func _
    constructor
    · unfold pendingOf
      rw [fresh.pending]
      rfl
    · unfold repliesTo
      rw [fresh.responses]
      rfl
  · rw [fresh.pending]
    intro callback member
    cases member

end Subsystem

namespace Step

/-- The step stays clear of the places where a command loses its response or
gets a second one. -/
def Answerable (cfg : ConfigData) (subsystem : Subsystem) : Step → Prop
  | .submit req => req.sqID = 0 → subsystem.Answerable cfg req
  | .call index arrival => ∀ callback ∈ subsystem.pending[index]?,
      subsystem.Callable cfg arrival callback
  | .elapse _ | .work _ => True

def CallsFor (subsystem : Subsystem) (func : Nat) : Step → Prop
  | .call index _ => ∃ callback ∈ subsystem.pending[index]?,
      callback.func = func
  | _ => False

open Subsystem

variable {cfg : ConfigData} {subsystem : Subsystem}

structure Steps (cfg : ConfigData) (before after : Subsystem) (step : Step) :
    Prop where
  tracked : Tracked cfg after
  submitted : before.submitted ≤ after.submitted
  load : ∀ func < before.submitted, after.load func ≤ before.load func
  called : ∀ func, step.CallsFor before func →
    after.load func < before.load func

theorem perform_submit {req : Command} (tracked : Tracked cfg subsystem)
    (answerable : req.sqID = 0 → subsystem.Answerable cfg req) :
    ∃ after, subsystem.submitCommand cfg req = .ok after ∧
      Steps cfg subsystem after (.submit req) := by
  obtain ⟨after, result, stage⟩ := submitCommand_stage answerable
  have handled : Handled { subsystem with
      submitted := subsystem.submitted + 1 } subsystem.submitted :=
    { tracked.unused subsystem.submitted (Nat.le_refl _) with }
  have moves := stage.outcome.moves
  have count : after.submitted = subsystem.submitted + 1 := stage.submitted
  refine ⟨after, result, ⟨?_, ?_, ?_, ?_⟩, by omega, ?_, ?_⟩
  · intro func below
    by_cases own : func = subsystem.submitted
    · rw [own]
      exact stage.outcome.accounted handled
    · have old := tracked.accounted func (by omega)
      refine Accounted.moves ?_ moves own
      exact old.moves ⟨fun _ _ => rfl, fun _ _ => rfl, fun _ _ held _ => held,
        fun _ _ held _ => held⟩ own
  · intro func beyond
    have later := tracked.unused func (by omega)
    have other : func ≠ subsystem.submitted := by omega
    exact ⟨(moves.pending func other).trans later.idle,
      (moves.responses func other).trans later.unanswered⟩
  · exact stage.outcome.single tracked.single
  · exact stage.placed (tracked.placed.of_ranges rfl)
  · intro func below
    exact Nat.le_of_eq (load_same (moves.pending func (by omega)))
  · intro func calls
    exact absurd calls id

theorem perform_call {index : Nat} {arrival : Arrival}
    (tracked : Tracked cfg subsystem)
    (callable : ∀ callback ∈ subsystem.pending[index]?,
      Callable cfg subsystem arrival callback) :
    ∃ after, (Step.call index arrival).perform cfg subsystem = .ok after ∧
      Steps cfg subsystem after (.call index arrival) := by
  unfold Step.perform
  dsimp only
  cases here : subsystem.pending[index]? with
  | none =>
      refine ⟨subsystem, rfl, tracked, Nat.le_refl _, fun _ _ => Nat.le_refl _,
        ?_⟩
      rintro func ⟨callback, member, _⟩
      rw [here] at member
      cases member
  | some callback =>
      have below : callback.func < subsystem.submitted := by
        by_contra beyond
        have idle := (tracked.unused callback.func
          (Nat.not_lt.mp beyond)).idle
        have due : callback ∈ subsystem.pendingOf callback.func :=
          List.mem_filter.mpr ⟨List.mem_of_getElem? here, by simp⟩
        rw [idle] at due
        cases due
      obtain ⟨after, result, progress⟩ := call_progress here tracked.placed
        tracked.single (callable callback here)
        (tracked.accounted callback.func below)
      have count := progress.submitted
      refine ⟨after, result, ⟨?_, ?_, progress.single, progress.placed⟩,
        by omega, ?_, ?_⟩
      · intro func inside
        by_cases own : func = callback.func
        · rw [own]
          exact progress.accounted
        · exact (tracked.accounted func (by omega)).moves progress.moves own
      · intro func beyond
        have later := tracked.unused func (by omega)
        have other : func ≠ callback.func := by omega
        exact ⟨(progress.moves.pending func other).trans later.idle,
          (progress.moves.responses func other).trans later.unanswered⟩
      · intro func inside
        by_cases own : func = callback.func
        · rw [own]
          exact Nat.le_of_lt progress.load
        · exact Nat.le_of_eq (load_same (progress.moves.pending func own))
      · rintro func ⟨called, member, own⟩
        rw [here] at member
        cases member
        rw [← own]
        exact progress.load

theorem perform_steps {step : Step} (tracked : Tracked cfg subsystem)
    (answerable : step.Answerable cfg subsystem) :
    ∃ after, step.perform cfg subsystem = .ok after ∧
      Steps cfg subsystem after step := by
  have unchanged : ∀ after : Subsystem, SameWork subsystem after →
      ∀ func < subsystem.submitted, Accounted after func := by
    intro after same func below
    have moves : Moves (func + 1) subsystem after := by
      refine ⟨fun _ _ => pendingOf_same same.pending,
        fun _ _ => repliesTo_same same.responses, ?_, ?_⟩
      · intro context found held _
        rw [same.contexts]
        exact held
      · intro context found held _
        rw [same.trims]
        exact held
    exact (tracked.accounted func below).moves moves
      (Nat.succ_ne_self func).symm
  cases step with
  | submit req => exact perform_submit tracked answerable
  | call index arrival => exact perform_call tracked answerable
  | elapse ticks =>
      exact ⟨_, rfl, ⟨unchanged _ ⟨rfl, rfl, rfl, rfl, rfl⟩,
        fun func beyond => { tracked.unused func beyond with },
        tracked.single, tracked.placed.of_ranges rfl⟩, Nat.le_refl _,
        fun _ _ => Nat.le_refl _, fun _ calls => absurd calls id⟩
  | work update =>
      exact ⟨_, rfl, ⟨unchanged _ ⟨rfl, rfl, rfl, rfl, rfl⟩,
        fun func beyond => { tracked.unused func beyond with },
        tracked.single, tracked.placed.of_ranges rfl⟩, Nat.le_refl _,
        fun _ _ => Nat.le_refl _, fun _ calls => absurd calls id⟩

end Step

/-! Runs without end. -/

def reached (cfg : ConfigData) (start : Subsystem) (steps : Nat → Step) :
    Nat → Except Fault Subsystem
  | 0 => .ok start
  | time + 1 => (reached cfg start steps time).bind
      fun subsystem => (steps time).perform cfg subsystem

/-- Each DMA, with the walk over the lists and segments of its set-up, each
request to the HIL and each `execute` calls back: while a function of a command
is due, one of them is called later. -/
def CallsBack (cfg : ConfigData) (start : Subsystem) (steps : Nat → Step) :
    Prop :=
  ∀ time subsystem func, reached cfg start steps time = .ok subsystem →
    subsystem.pendingOf func ≠ [] →
      ∃ later state, time ≤ later ∧
        reached cfg start steps later = .ok state ∧
        (steps later).CallsFor state func

/-- The run goes on, no command is answered twice, and every command is
answered. -/
structure AnsweredOnce (cfg : ConfigData) (start : Subsystem)
    (steps : Nat → Step) : Prop where
  runs : ∀ time, ∃ subsystem, reached cfg start steps time = .ok subsystem
  atMostOnce : ∀ time subsystem func,
    reached cfg start steps time = .ok subsystem →
      (subsystem.repliesTo func).length ≤ 1
  eventually : ∀ time subsystem func,
    reached cfg start steps time = .ok subsystem →
    func < subsystem.submitted →
      ∃ later, time ≤ later ∧ ∀ last state, later ≤ last →
        reached cfg start steps last = .ok state →
          (state.repliesTo func).length = 1

section Run

variable {cfg : ConfigData} {start : Subsystem} {steps : Nat → Step}

theorem reached_tracked (tracked : start.Tracked cfg)
    (answerable : ∀ time subsystem,
      reached cfg start steps time = .ok subsystem →
        (steps time).Answerable cfg subsystem) (time : Nat) :
    ∃ subsystem, reached cfg start steps time = .ok subsystem ∧
      subsystem.Tracked cfg := by
  induction time with
  | zero => exact ⟨start, rfl, tracked⟩
  | succ time induction =>
      obtain ⟨subsystem, result, tracked⟩ := induction
      obtain ⟨after, performed, stepped⟩ :=
        Step.perform_steps tracked (answerable time subsystem result)
      refine ⟨after, ?_, stepped.tracked⟩
      unfold reached
      rw [result]
      exact performed

theorem Subsystem.Accounted.answered_of_idle {subsystem : Subsystem}
    {func : Nat} (accounted : subsystem.Accounted func)
    (idle : subsystem.pendingOf func = []) :
    (subsystem.repliesTo func).length = 1 := by
  cases accounted with
  | answered resp _ replied => rw [replied]; rfl
  | waits callback due => rw [idle] at due; cases due
  | reads callback context found due => rw [idle] at due; cases due
  | both first second context found due => rw [idle] at due; cases due
  | half callback context found due => rw [idle] at due; cases due
  | trims callback context found due => rw [idle] at due; cases due

theorem Subsystem.Accounted.replies_le {subsystem : Subsystem}
    {func : Nat} (accounted : subsystem.Accounted func) :
    (subsystem.repliesTo func).length ≤ 1 := by
  cases accounted with
  | answered resp _ replied => rw [replied]; exact Nat.le_refl _
  | waits callback due share unanswered => rw [unanswered]; exact Nat.zero_le _
  | reads callback context found due share held own unanswered =>
      rw [unanswered]
      exact Nat.zero_le _
  | both first second context found due shares held own fresh unanswered =>
      rw [unanswered]
      exact Nat.zero_le _
  | half callback context found due share held own begun unanswered =>
      rw [unanswered]
      exact Nat.zero_le _
  | trims callback context found due share held own single unanswered =>
      rw [unanswered]
      exact Nat.zero_le _

theorem Subsystem.load_eq_zero {subsystem : Subsystem} {func : Nat} :
    subsystem.load func = 0 ↔ subsystem.pendingOf func = [] := by
  unfold Subsystem.load
  cases subsystem.pendingOf func with
  | nil => simp
  | cons callback rest =>
      have positive := callback.rank_pos
      simp only [List.map_cons, List.sum_cons, reduceCtorEq, iff_false]
      omega

/-- In a run whose steps stay clear of the defects every command is answered
exactly once. -/
theorem exactly_one_completion (cfg : ConfigData) (start : Subsystem)
    (steps : Nat → Step) (fresh : start.Fresh) (placed : start.Placed cfg)
    (callsBack : CallsBack cfg start steps)
    (answerable : ∀ time subsystem,
      reached cfg start steps time = .ok subsystem →
        (steps time).Answerable cfg subsystem) :
    AnsweredOnce cfg start steps := by
  have tracked := reached_tracked (fresh.tracked placed) answerable
  -- the states of the run, and what each step does
  choose state result kept using tracked
  have next : ∀ time, Step.Steps cfg (state time) (state (time + 1))
      (steps time) := by
    intro time
    obtain ⟨after, performed, stepped⟩ := Step.perform_steps (kept time)
      (answerable time (state time) (result time))
    have same : reached cfg start steps (time + 1) = .ok after := by
      unfold reached
      rw [result time]
      exact performed
    rw [result (time + 1)] at same
    cases same
    exact stepped
  have unique : ∀ {time subsystem},
      reached cfg start steps time = .ok subsystem →
        subsystem = state time := by
    intro time subsystem here
    rw [result time] at here
    cases here
    rfl
  refine ⟨fun time => ⟨state time, result time⟩, ?_, ?_⟩
  · intro time subsystem func here
    rw [unique here]
    by_cases below : func < (state time).submitted
    · exact ((kept time).accounted func below).replies_le
    · rw [((kept time).unused func (Nat.not_lt.mp below)).unanswered]
      exact Nat.zero_le _
  · intro time subsystem func here below
    rw [unique here] at below
    have submitted : ∀ later, time ≤ later →
        func < (state later).submitted := by
      intro later from_there
      refine @kept_from Subsystem state
        (fun reached => func < reached.submitted) time ?_ below later from_there
      intro middle _ inside
      exact Nat.lt_of_lt_of_le inside (next middle).submitted
    obtain ⟨later, from_there, idle⟩ := @eventually_of_rank Subsystem
      state (fun reached => reached.pendingOf func = [])
      (fun reached => reached.load func) time (by
        intro middle from_there idle
        have bounded := (next middle).load func (submitted middle from_there)
        rw [Subsystem.load_eq_zero.mpr idle] at bounded
        exact Subsystem.load_eq_zero.mp (Nat.le_zero.mp bounded)) (by
        intro middle from_there
        exact (next middle).load func (submitted middle from_there)) (by
        intro middle _ busy
        obtain ⟨later, reachedState, after, there, calls⟩ :=
          callsBack middle (state middle) func (result middle) busy
        rw [unique there] at calls
        exact ⟨later, after, (next later).called func calls⟩)
    refine ⟨later, from_there, ?_⟩
    intro last reachedState after there
    rw [unique there]
    exact ((kept last).accounted func
      (submitted last (Nat.le_trans from_there after))).answered_of_idle
        (idle last after)

end Run

/-! Concrete runs. -/

def sampleConfig : ConfigData where
  maxQueueEntry := 8192
  totalLogicalPages := 1024
  logicalPageSize := 4096
  memoryPageSize := 4096
  maxIOCQueue := 1
  maxIOSQueue := 1
  wrrHigh := 2
  wrrMedium := 2
  useWriteCache := true
  enableDiskImage := false
  pages_lt := Nat.le_of_ble_eq_true rfl

def sampleSubsystem : Subsystem where
  controller := Controller.enabled 1 1 64
  aggregationTime := 0
  aggregationThreshold := 0
  lNamespaces := []
  queueAllocated := 0
  allocatedLogicalPages := 0
  tick := 0
  nextAddress := 0
  contexts := []
  trims := []
  freedLists := []
  pending := []
  responses := []
  submitted := 0

def adminCommandOf (opcode : UInt8) (namespaceID dword10 : UInt32) :
    Command where
  sqID := 0
  cqID := 0
  commandID := 7
  useSGL := false
  opcode := opcode
  namespaceID := namespaceID
  data1 := 0
  data2 := 0
  dword10 := dword10
  dword11 := 0
  dword12 := 0
  dword13 := 0

def noArrival : Arrival where
  buffer _ := 0
  differs := false

def oneCommand (req : Command) : Nat → Step
  | 0 => .submit req
  | _ + 1 => .call 0 noArrival

theorem sampleSubsystem_fresh : sampleSubsystem.Fresh := ⟨rfl, rfl, rfl⟩

theorem sampleSubsystem_placed : sampleSubsystem.Placed sampleConfig :=
  ⟨fun _ member => absurd member List.not_mem_nil, List.Pairwise.nil⟩

section OneCommand

variable {cfg : ConfigData} {start after : Subsystem} {req : Command}
  {length : Nat}

theorem reached_idle
    (result : reached cfg start (oneCommand req) (length + 1) = .ok after)
    (idle : after.pending = []) (time : Nat) :
    reached cfg start (oneCommand req) (length + 1 + time) = .ok after := by
  induction time with
  | zero => exact result
  | succ time induction =>
      change (reached cfg start (oneCommand req) (length + 1 + time)).bind
        (fun subsystem => (oneCommand req (length + 1 + time)).perform cfg
          subsystem) = .ok after
      rw [induction, show length + 1 + time = length + time + 1 by omega]
      change (Step.call 0 noArrival).perform cfg after = .ok after
      unfold Step.perform
      dsimp only
      rw [idle]
      rfl

end OneCommand

/-- What a state of a run shows of its calls and its responses. -/
def shown (result : Except Fault Subsystem) :
    Option (List Callback × List Response × Nat) :=
  match result with
  | .ok subsystem =>
      some (subsystem.pending, subsystem.responses, subsystem.submitted)
  | .error _ => none

theorem shown_eq_some {result : Except Fault Subsystem}
    {view : List Callback × List Response × Nat}
    (seen : shown result = some view) :
    ∃ subsystem, result = .ok subsystem ∧ subsystem.pending = view.1 ∧
      subsystem.responses = view.2.1 ∧ subsystem.submitted = view.2.2 := by
  cases result with
  | error raised => cases seen
  | ok subsystem =>
      cases seen
      exact ⟨subsystem, rfl, rfl, rfl, rfl⟩

def refusedCreation : Command := adminCommandOf 0x05 0 0

def bucketIdentification : Command :=
  { adminCommandOf 0x06 0 1 with
    useSGL := true
    data2 := 0x1000000000001000 }

def healthLog : Command := adminCommandOf 0x02 5 2

def identifyController : Command := adminCommandOf 0x06 0 1

theorem callsBack_of_idle {req : Command} {after : Subsystem}
    (result : reached sampleConfig sampleSubsystem (oneCommand req) 1 =
      .ok after) (idle : after.pending = []) :
    CallsBack sampleConfig sampleSubsystem (oneCommand req) := by
  intro time subsystem func here busy
  have quiet : subsystem.pending = [] := by
    cases time with
    | zero =>
        cases here
        rfl
    | succ time =>
        rw [Nat.add_comm, @reached_idle _ _ _ _ 0 result idle] at here
        cases here
        exact idle
  refine absurd ?_ busy
  unfold Subsystem.pendingOf
  rw [quiet]
  rfl

theorem callsFor_only {callback : Callback} {func : Nat} {arrival : Arrival}
    (only : subsystem.pending = [callback])
    (busy : subsystem.pendingOf func ≠ []) :
    (Step.call 0 arrival).CallsFor subsystem func := by
  refine ⟨callback, by rw [only]; rfl, ?_⟩
  by_contra other
  refine busy ?_
  unfold Subsystem.pendingOf
  rw [only]
  refine List.filter_eq_nil_iff.mpr ?_
  intro due member
  rw [List.mem_singleton.mp member]
  simpa using other

theorem identify_completes : AnsweredOnce sampleConfig sampleSubsystem
    (oneCommand identifyController) := by
  have first : shown (reached sampleConfig sampleSubsystem
      (oneCommand identifyController) 1) = some
        ([.identifyWrite .controller (Response.make identifyController 0)],
          [], 1) := by decide +kernel
  have second : shown (reached sampleConfig sampleSubsystem
      (oneCommand identifyController) 2) = some
        ([.identifyDone (Response.make identifyController 0)], [], 1) := by
    decide +kernel
  have third : shown (reached sampleConfig sampleSubsystem
      (oneCommand identifyController) 3) = some
        ([], [Response.make identifyController 0], 1) := by decide +kernel
  obtain ⟨one, oneResult, onePending, _⟩ := shown_eq_some first
  obtain ⟨two, twoResult, twoPending, _⟩ := shown_eq_some second
  obtain ⟨three, threeResult, threePending, _⟩ := shown_eq_some third
  have later := @reached_idle _ _ _ _ 2 threeResult threePending
  refine exactly_one_completion sampleConfig sampleSubsystem
    (oneCommand identifyController) sampleSubsystem_fresh
    sampleSubsystem_placed ?_ ?_
  · intro time subsystem func here busy
    match time with
    | 0 =>
        cases here
        exact absurd rfl busy
    | 1 =>
        rw [oneResult] at here
        cases here
        exact ⟨1, one, Nat.le_refl _, oneResult,
          callsFor_only onePending busy⟩
    | 2 =>
        rw [twoResult] at here
        cases here
        exact ⟨2, two, Nat.le_refl _, twoResult,
          callsFor_only twoPending busy⟩
    | time + 3 =>
        rw [Nat.add_comm, later] at here
        cases here
        refine absurd ?_ busy
        unfold Subsystem.pendingOf
        rw [threePending]
        rfl
  · intro time subsystem here
    match time with
    | 0 =>
        cases here
        exact fun _ => ⟨Nat.zero_le _, fun _ => by decide +kernel⟩
    | 1 =>
        rw [oneResult] at here
        cases here
        intro callback member
        rw [onePending] at member
        cases member
        trivial
    | 2 =>
        rw [twoResult] at here
        cases here
        intro callback member
        rw [twoPending] at member
        cases member
        trivial
    | time + 3 =>
        rw [Nat.add_comm, later] at here
        cases here
        intro callback member
        rw [threePending] at member
        cases member

def Unanswered (steps : Nat → Step) : Prop :=
  CallsBack sampleConfig sampleSubsystem steps ∧
    ∀ time, ∃ subsystem,
      reached sampleConfig sampleSubsystem steps (time + 1) = .ok subsystem ∧
      subsystem.submitted = 1 ∧ subsystem.repliesTo 0 = [] ∧
      ¬ AnsweredOnce sampleConfig sampleSubsystem steps

theorem unanswered_of_dropped {req : Command}
    (dropped : shown (reached sampleConfig sampleSubsystem (oneCommand req)
      1) = some ([], [], 1)) :
    Unanswered (oneCommand req) := by
  obtain ⟨after, result, pending, none, one⟩ := shown_eq_some dropped
  have later := @reached_idle _ _ _ _ 0 result pending
  have silent : after.repliesTo 0 = [] := by
    unfold Subsystem.repliesTo
    rw [none]
    rfl
  refine ⟨callsBack_of_idle result pending, ?_⟩
  intro time
  refine ⟨after, by rw [Nat.add_comm]; exact later time, one, silent, ?_⟩
  intro answered
  obtain ⟨start, _, settled⟩ := answered.eventually 1 after 0 result
    (by rw [one]; exact Nat.one_pos)
  have replied := settled (0 + 1 + start) after (by omega) (later start)
  rw [silent] at replied
  cases replied

/-- A creation that is refused is never answered, nor is a command whose SGL
starts with a bit bucket; and the health log of a namespace that does not exist
is answered twice. -/
theorem refused_creation_unanswered :
    (∃ steps, steps 0 = .submit refusedCreation ∧ Unanswered steps) ∧
    (∃ steps, steps 0 = .submit bucketIdentification ∧ Unanswered steps) ∧
    ∃ steps, CallsBack sampleConfig sampleSubsystem steps ∧
      ∃ subsystem, reached sampleConfig sampleSubsystem steps 1 =
          .ok subsystem ∧ (subsystem.repliesTo 0).length = 2 := by
  have refused : shown (reached sampleConfig sampleSubsystem
      (oneCommand refusedCreation) 1) = some ([], [], 1) := by
    decide +kernel
  have bucket : shown (reached sampleConfig sampleSubsystem
      (oneCommand bucketIdentification) 1) = some ([], [], 1) := by
    decide +kernel
  have twice : shown (reached sampleConfig sampleSubsystem
      (oneCommand healthLog) 1) = some ([],
        [Response.make healthLog 0, (Response.make healthLog 0).makeStatus
          false false .genericCommandStatus .abortInvalidNamespace], 1) := by
    decide +kernel
  obtain ⟨doubled, doubledResult, doubledPending, two, _⟩ :=
    shown_eq_some twice
  refine ⟨⟨_, rfl, unanswered_of_dropped refused⟩,
    ⟨_, rfl, unanswered_of_dropped bucket⟩, oneCommand healthLog,
    callsBack_of_idle doubledResult doubledPending, doubled, doubledResult, ?_⟩
  unfold Subsystem.repliesTo
  rw [two]
  rfl

end SimpleSSD.HIL.NVMe
