import SimpleSSD.SIL.NVMe.Interrupt

namespace SimpleSSD.SIL.NVMe

open HIL.NVMe (SQueue CQueue CQEntry)

section Runs

open QueuePair

variable {size : Nat} {start : UInt16} {pair next : QueuePair}

theorem Step.perform_remembers (step : Step) (pair : QueuePair) :
    Remembers pair id (step.perform pair) := by
  cases step with
  | submit =>
      dsimp only [Step.perform]
      cases result : pair.submitCommand with
      | error stopped =>
          obtain ⟨raised, stopped⟩ := stopped
          obtain ⟨_, same⟩ := submitCommand_error result
          rw [same]
          exact List.suffix_refl _
      | ok next => exact (submitCommand_extends result).history
  | fetch =>
      dsimp only [Step.perform, QueuePair.fetch, Remembers]
      split <;> exact List.suffix_refl _
  | read =>
      dsimp only [Step.perform, QueuePair.read, Remembers]
      split <;> exact List.suffix_refl _
  | complete index status =>
      dsimp only [Step.perform, QueuePair.complete]
      split
      · exact List.suffix_refl _
      · split <;> exact List.suffix_refl _
  | arrive =>
      dsimp only [Step.perform, QueuePair.arrive, Remembers]
      split <;> exact List.suffix_refl _
  | interrupt answers => exact updateInterrupt_remembers 2 answers pair

theorem Step.perform_settled (step : Step) (settled : Settled size start pair)
    (distinct : Distinct start pair) :
    match step.perform pair with
    | .error (raised, stopped) => stopped.reused = [] → raised = .limit
    | .ok next => next.reused = [] →
        Settled size start next ∧ Distinct start next := by
  cases step with
  | submit =>
      dsimp only [Step.perform]
      cases result : pair.submitCommand with
      | error stopped => exact fun _ => (submitCommand_error result).1
      | ok next =>
          intro fresh
          exact ⟨submitCommand_settled settled result,
            submitCommand_distinct settled.linked distinct result fresh⟩
  | fetch => exact fun _ => ⟨fetch_settled settled, fetch_distinct distinct⟩
  | read => exact fun _ => ⟨read_settled settled, read_distinct distinct⟩
  | complete index status =>
      obtain ⟨next, result, after, same⟩ :=
        @complete_settled size start pair index status settled
      dsimp only [Step.perform]
      rw [result]
      refine fun _ => ⟨after, ?_⟩
      unfold Distinct
      rw [same.2]
      exact distinct
  | arrive => exact fun _ => ⟨arrive_settled settled, arrive_distinct distinct⟩
  | interrupt answers =>
      have handled := @updateInterrupt_settled size start pair answers settled
        distinct
      dsimp only [Step.perform]
      cases result : pair.updateInterrupt 2 answers with
      | error stopped =>
          rw [result] at handled
          exact handled
      | ok next =>
          rw [result] at handled
          exact fun fresh => ⟨(handled fresh).1, (handled fresh).2.1⟩

theorem Step.performAll_remembers (steps : List Step) (pair : QueuePair) :
    Remembers pair id (Step.performAll steps pair) := by
  induction steps generalizing pair with
  | nil => exact List.suffix_refl _
  | cons step rest induction =>
      have history := step.perform_remembers pair
      rw [Step.performAll]
      split
      · next failed =>
          rw [failed] at history
          exact history
      · next performed =>
          rw [performed] at history
          exact Remembers.trans history (induction _)

theorem Step.performAll_settled (steps : List Step)
    (settled : Settled size start pair) (distinct : Distinct start pair) :
    match Step.performAll steps pair with
    | .error (raised, stopped) => stopped.reused = [] → raised = .limit
    | .ok next => next.reused = [] →
        Settled size start next ∧ Distinct start next := by
  induction steps generalizing pair with
  | nil => exact fun _ => ⟨settled, distinct⟩
  | cons step rest induction =>
      have kept := step.perform_settled settled distinct
      rw [Step.performAll]
      cases performed : step.perform pair with
      | error stopped =>
          rw [performed] at kept
          exact kept
      | ok next =>
          rw [performed] at kept
          dsimp only
          have history := Step.performAll_remembers rest next
          split
          · next raised stopped failed =>
              rw [failed] at history
              intro fresh
              have both := kept (List.suffix_nil.mp (fresh ▸ history))
              have later := induction both.1 both.2
              rw [failed] at later
              exact later fresh
          · next final finished =>
              rw [finished] at history
              intro fresh
              have both := kept (List.suffix_nil.mp (fresh ▸ history))
              have later := induction both.1 both.2
              rw [finished] at later
              exact later fresh

theorem make_settled {entries : UInt16} (positive : 0 < entries.toNat) :
    Settled entries.toNat start (make entries start) where
  linked :=
    { submissions :=
        { hostSize := rfl, deviceSize := rfl
          hostTail := (Nat.zero_mod _).symm
          deviceTail := rfl
          deviceHead := (Nat.zero_mod _).symm
          issued := Nat.le_refl _
          reading := fun offset slot there => nomatch there
          stored := fun number _ before => absurd before (Nat.not_lt_zero _)
          inOrder := rfl
          known := fun entry member => nomatch member
          lastID := rfl }
      completions :=
        { hostSize := rfl, deviceSize := rfl
          deviceTail := (Nat.zero_mod _).symm
          devicePhase := by simp [phaseOf, make, CQueue.make]
          flying := Nat.le_refl _
          writing := fun offset slot entry there => nomatch there
          arrived := fun position _ before =>
            absurd before (Nat.not_lt_zero _)
          stale := by
            intro position _ before
            have inside : position < entries.toNat := by
              simpa [arrivals, make] using before
            have first : phaseOf entries.toNat position = true := by
              simp [phaseOf, Nat.div_eq_of_lt inside]
            have blank : phaseTag { commandID := 0, status := 0 } = false := by
              decide
            rw [first]
            exact blank
          inOrder := rfl }
      accounts :=
        { working := List.Perm.refl _
          pending := rfl
          few := by
            simpa [make] using positive } }
  reading :=
    { head := (Nat.zero_mod _).symm
      phase := by simp [phaseOf, make] }
  doorbell := rfl

end Runs

open QueuePair

structure Faithful (pair : QueuePair) : Prop where
  /-- Commands are fetched once, in the order of their submission. -/
  fetched : pair.fetches = List.range pair.fetches.length
  /-- A command that is not fetched is being read or still in the ring. -/
  unfetched : pair.fetches.length + pair.reads.length +
    pair.sq.getItemCount.toNat = pair.submitted
  /-- A fetched command is posted once, or the device works on it. -/
  posted : (pair.posted ++ pair.fetched.map (·.number)).Perm pair.fetches
  /-- Callbacks are made once, in the order of completion, each with the
  context of its command. -/
  called : pair.called = pair.posted.take pair.called.length
  /-- All other commands wait for their callbacks. -/
  pending : pair.pendingCommandList.map (·.context) = pair.outstanding

theorem QueuePair.Settled.faithful {size : Nat} {start : UInt16}
    {pair : QueuePair} (settled : Settled size start pair) :
    Faithful pair where
  fetched := settled.linked.submissions.inOrder
  unfetched := by
    have submissions := settled.linked.submissions
    have issued := submissions.issued
    have few := settled.linked.accounts.few
    have below := settled.linked.called_le
    have inRange : pair.sq.InRange := by
      constructor
      · rw [UInt16.lt_iff_toNat_lt, submissions.deviceHead,
          submissions.deviceSize, submissions.hostSize]
        exact Nat.mod_lt _ settled.linked.size_pos
      · rw [UInt16.lt_iff_toNat_lt, submissions.deviceTail,
          submissions.hostTail, submissions.deviceSize, submissions.hostSize]
        exact Nat.mod_lt _ settled.linked.size_pos
    rw [inRange.getItemCount_toNat, submissions.deviceHead,
      submissions.deviceTail, submissions.hostTail, submissions.deviceSize,
      submissions.hostSize, Ring.count_mod issued (by omega)]
    omega
  posted := by
    rw [settled.linked.submissions.inOrder]
    exact settled.linked.accounts.working
  called := settled.linked.completions.inOrder
  pending := by
    rw [settled.linked.accounts.pending_outstanding, List.map_map]
    exact List.map_id _

/-- In every run in which no command gets the id of an outstanding one. -/
theorem queue_pair_protocol (entries start : UInt16) (two : 2 ≤ entries)
    (steps : List Step) :
    match Step.performAll steps (make entries start) with
    | .error (raised, stopped) => stopped.reused = [] → raised = .limit
    | .ok pair => pair.reused = [] → Faithful pair ∧
        ∀ answers next, (Step.interrupt answers).perform pair = .ok next →
          next.reused = [] →
            next.called = pair.posted.take
              (pair.posted.length - pair.writes.length) := by
  have positive : 0 < entries.toNat := by
    have bound := UInt16.le_iff_toNat_le.mp two
    exact Nat.lt_of_lt_of_le (by decide) bound
  have kept := Step.performAll_settled steps
    (@make_settled start entries positive) List.nodup_nil
  cases result : Step.performAll steps (make entries start) with
  | error stopped =>
      rw [result] at kept
      exact kept
  | ok pair =>
      rw [result] at kept
      intro fresh
      obtain ⟨settled, distinct⟩ := kept fresh
      refine ⟨settled.faithful, ?_⟩
      intro answers next performed freshNext
      have handled := @updateInterrupt_settled _ _ pair answers settled distinct
      dsimp only [Step.perform] at performed
      rw [performed] at handled
      obtain ⟨after, _, count, posted, _⟩ := handled freshNext
      rw [after.faithful.called, count, posted]
      rfl

theorem queue_pair_protocol_sample :
    ∃ pair, Step.performAll [.submit, .fetch, .read, .complete 0 0, .arrive,
        .interrupt []] (make 3 0) = .ok pair ∧ Faithful pair := by
  have kept := queue_pair_protocol 3 0 (by decide) [.submit, .fetch, .read,
    .complete 0 0, .arrive, .interrupt []]
  obtain ⟨pair, result, fresh⟩ : ∃ pair, Step.performAll [.submit, .fetch,
      .read, .complete 0 0, .arrive, .interrupt []] (make 3 0) = .ok pair ∧
        pair.reused = [] := ⟨_, rfl, rfl⟩
  rw [result] at kept
  exact ⟨pair, result, (kept fresh).1⟩

/-! Ids come back after 32767 commands, whether they are free or not. -/

section Reuse

theorem increaseCommandID_toNat {id : UInt16} (small : id.toNat < 32767) :
    (increaseCommandID id).toNat = id.toNat + 1 := by
  have moved : (id + 1).toNat = id.toNat + 1 := by
    rw [UInt16.toNat_add]
    exact Nat.mod_eq_of_lt (by simp; omega)
  have within : ¬ maxID < id + 1 := by
    rw [UInt16.lt_iff_toNat_lt, moved]
    simp [maxID]
    omega
  unfold increaseCommandID
  rw [if_neg within, moved]

theorem cidOf_toNat (number : Nat) (small : number < 32767) :
    (cidOf 0 number).toNat = number + 1 := by
  induction number with
  | zero => rfl
  | succ number induction =>
      have before := induction (by omega)
      have step : cidOf 0 (number + 1) = increaseCommandID (cidOf 0 number) :=
        Function.iterate_succ_apply' _ _ _
      rw [step, increaseCommandID_toNat (by omega), before]

theorem cidOf_again : cidOf 0 32767 = cidOf 0 0 := by
  have step : cidOf 0 32767 = increaseCommandID (cidOf 0 32766) :=
    Function.iterate_succ_apply' _ _ _
  have last : cidOf 0 32766 = 32767 :=
    UInt16.toNat_inj.mp (cidOf_toNat 32766 (by omega))
  rw [step, last]
  rfl

theorem fetch_takes {size : Nat} {start : UInt16} {pair : QueuePair}
    (settled : Settled size start pair)
    (more : pair.fetches.length + pair.reads.length < pair.submitted) :
    ∃ slot sq, pair.fetch =
      { pair with sq := sq, reads := pair.reads ++ [slot] } := by
  have submissions := settled.linked.submissions
  have few := settled.linked.accounts.few
  have below := settled.linked.called_le
  have different : pair.sq.head ≠ pair.sq.tail := by
    intro same
    have equal := congrArg UInt16.toNat same
    rw [submissions.deviceHead, submissions.deviceTail,
      submissions.hostTail] at equal
    exact slot_ne more (by omega) equal
  unfold fetch SQueue.getData
  rw [if_pos different]
  exact ⟨_, _, rfl⟩

/-- Command 0 is with the device while others have come and gone. -/
structure Waiting (others : Nat) (pair : QueuePair) : Prop where
  settled : Settled 3 0 pair
  submitted : pair.submitted = others + 1
  reads : pair.reads = []
  fetched : pair.fetched = [sqEntry 0 0]
  writes : pair.writes = []
  posted : pair.posted.length = others
  called : pair.called.length = others
  reused : pair.reused = []

theorem Waiting.outstanding {others : Nat} {pair : QueuePair}
    (waiting : Waiting others pair) : pair.outstanding = [0] := by
  have linked := waiting.settled.linked
  have same : pair.called = pair.posted := by
    rw [linked.completions.inOrder, waiting.called, ← waiting.posted,
      List.take_length]
  have working := linked.accounts.working
  have count := linked.accounts.posted_le
  rw [waiting.fetched] at working count
  rw [waiting.posted] at count
  have sum : pair.fetches.length = others + 1 := count.symm
  rw [sum] at working
  have apart := (List.nodup_append.mp
    (working.nodup_iff.mpr List.nodup_range)).2.2
  unfold QueuePair.outstanding
  rw [waiting.submitted, same]
  have test : ∀ number ∈ List.range (others + 1),
      (!pair.posted.contains number) = (number == 0) := by
    intro number member
    by_cases first : number = 0
    · have absent : 0 ∉ pair.posted := fun there =>
        apart 0 there 0 (by simp [sqEntry]) rfl
      simp [first, absent]
    · have there : number ∈ pair.posted := by
        rcases List.mem_append.mp (working.mem_iff.mpr member) with
          posted | zero
        · exact posted
        · exact absurd (by simpa [sqEntry] using zero) first
      simp [first, there]
  rw [List.filter_congr test, List.range_succ_eq_map, List.filter_cons_of_pos rfl]
  have none : (List.map Nat.succ (List.range others)).filter (· == 0) = [] := by
    rw [List.filter_eq_nil_iff]
    intro number member
    obtain ⟨before, _, rfl⟩ := List.mem_map.mp member
    simp
  rw [none]

structure Announced (others : Nat) (pair announced : QueuePair) : Prop where
  settled : Settled 3 0 announced
  submitted : announced.submitted = others + 2
  reads : announced.reads = []
  fetched : announced.fetched = [sqEntry 0 0]
  writes : announced.writes = []
  posted : announced.posted = pair.posted ++ [others + 1]
  called : announced.called = pair.called
  outstanding : announced.outstanding = [0, others + 1]
  reused : announced.reused =
    if cidOf 0 (others + 1) = cidOf 0 0 then [others + 1] else []

theorem Waiting.submits {others : Nat} {pair : QueuePair}
    (waiting : Waiting others pair) :
    ∃ next, pair.submitCommand = .ok next ∧
      next.submitted = others + 2 ∧ next.reads = [] ∧
      next.fetched = [sqEntry 0 0] ∧ next.writes = [] ∧
      next.fetches = pair.fetches ∧ next.posted = pair.posted ∧
      next.called = pair.called ∧
      next.reused =
        if cidOf 0 (others + 1) = cidOf 0 0 then [others + 1] else [] := by
  have linked := waiting.settled.linked
  have cid := cidOf_last linked
  have pending := linked.accounts.pending_outstanding
  rw [waiting.outstanding] at pending
  have inOrder := linked.completions.inOrder
  have room : ¬ pair.maxOutstanding ≤ pair.submitted - pair.called.length := by
    unfold maxOutstanding
    rw [linked.submissions.hostSize, waiting.submitted, waiting.called]
    omega
  have zero : pair.called.contains 0 = false := by
    have member : 0 ∈ pair.outstanding := by
      rw [waiting.outstanding]
      exact .head _
    have test := (List.mem_filter.mp member).2
    rwa [Bool.not_eq_true'] at test
  have busy : pair.outstandingID (cidOf 0 (others + 1)) =
      decide (cidOf 0 (others + 1) = cidOf 0 0) := by
    unfold outstandingID
    rw [pending, List.map_singleton, List.any_cons, List.any_nil,
      Bool.or_false]
    dsimp only [commandEntry]
    rw [zero, Bool.not_false, Bool.and_true, Bool.beq_eq_decide_eq]
    exact decide_eq_decide.mpr eq_comm
  unfold submitCommand
  rw [if_neg room]
  refine ⟨_, rfl, ?_, waiting.reads, waiting.fetched, waiting.writes, rfl, rfl,
    rfl, ?_⟩
  · rw [waiting.submitted]
  · dsimp only
    rw [cid, waiting.submitted, busy, waiting.reused]
    simp only [decide_eq_true_eq]

theorem Waiting.announces {others : Nat} {pair : QueuePair}
    (waiting : Waiting others pair) :
    ∃ announced, Step.performAll
        [.submit, .fetch, .read, .complete 1 0, .arrive] pair =
          .ok announced ∧ Announced others pair announced := by
  obtain ⟨first, submitted, count, reads, fetched, writes, fetches, posted,
    called, reused⟩ := waiting.submits
  have firstSettled := submitCommand_settled waiting.settled submitted
  have outstanding := submitCommand_outstanding waiting.settled.linked submitted
  rw [waiting.outstanding, waiting.submitted] at outstanding
  have sum := waiting.settled.linked.accounts.posted_le
  rw [waiting.fetched, waiting.posted] at sum
  obtain ⟨slot, sq, taken⟩ := fetch_takes firstSettled (by
    rw [fetches, reads, count, ← sum]
    simp)
  have readEq : first.fetch.read =
      { first with
        sq := sq, reads := []
        fetched := [sqEntry 0 0] ++ [first.sqMemory slot.toNat]
        fetches := first.fetches ++ [(first.sqMemory slot.toNat).number] } := by
    rw [taken, reads, ← fetched]
    rfl
  have third := read_settled (fetch_settled firstSettled)
  rw [readEq] at third
  have length : first.fetches.length = others + 1 := by
    rw [fetches, ← sum]
    simp
  have number : (first.sqMemory slot.toNat).number = others + 1 := by
    have inOrder := third.linked.submissions.inOrder
    dsimp only at inOrder
    rw [List.length_append, length, List.length_singleton,
      List.range_succ, firstSettled.linked.submissions.inOrder, length]
      at inOrder
    simpa using inOrder
  obtain ⟨fourth, completed, fourthSettled, sameReused, sameOutstanding⟩ :=
    @complete_settled 3 0 _ 1 0 third
  have after : fourth.submitted = others + 2 ∧ fourth.reads = [] ∧
      fourth.fetched = [sqEntry 0 0] ∧ (∃ write, fourth.writes = [write]) ∧
      fourth.posted = pair.posted ++ [others + 1] ∧
      fourth.called = pair.called := by
    unfold QueuePair.complete at completed
    dsimp only [List.cons_append, List.nil_append, List.getElem?_cons_succ,
      List.getElem?_cons_zero] at completed
    split at completed
    · cases completed
    · next write cq _ =>
        cases completed
        refine ⟨count, rfl, rfl, ⟨write, ?_⟩, ?_, called⟩
        · dsimp only
          rw [writes]
          rfl
        · dsimp only
          rw [posted, number]
  obtain ⟨fourthCount, fourthReads, fourthFetched, ⟨write, fourthWrites⟩,
    fourthPosted, fourthCalled⟩ := after
  refine ⟨fourth.arrive, ?_, ?_⟩
  · simp only [Step.performAll, Step.perform, submitted, readEq, completed]
  · have arrived : fourth.arrive =
        { fourth with
          cqMemory := Function.update fourth.cqMemory write.1.toNat write.2
          writes := [] } := by
      unfold arrive
      rw [fourthWrites]
    constructor
    case settled => exact arrive_settled fourthSettled
    all_goals rw [arrived]
    case submitted => exact fourthCount
    case reads => exact fourthReads
    case fetched => exact fourthFetched
    case posted => exact fourthPosted
    case called => exact fourthCalled
    case outstanding => exact sameOutstanding.trans outstanding
    case reused => exact sameReused.trans reused

theorem Step.performAll_append (first second : List Step) (pair : QueuePair) :
    Step.performAll (first ++ second) pair =
      match Step.performAll first pair with
      | .error stopped => .error stopped
      | .ok next => Step.performAll second next := by
  induction first generalizing pair with
  | nil => rfl
  | cons step rest induction =>
      rw [List.cons_append, Step.performAll, Step.performAll]
      cases step.perform pair with
      | error stopped => rfl
      | ok next => exact induction next

def oneCommand : List Step :=
  [.submit, .fetch, .read, .complete 1 0, .arrive] ++ [.interrupt []]

theorem Waiting.served {others : Nat} {pair : QueuePair}
    (waiting : Waiting others pair)
    (free : cidOf 0 (others + 1) ≠ cidOf 0 0) :
    ∃ next, Step.performAll oneCommand pair = .ok next ∧
      Waiting (others + 1) next := by
  obtain ⟨announced, performed, known⟩ := waiting.announces
  have reused := known.reused
  rw [if_neg free] at reused
  have distinct : Distinct 0 announced := by
    unfold Distinct
    rw [known.outstanding]
    simp [Ne.symm free]
  have handled := @updateInterrupt_settled 3 0 announced [] known.settled
    distinct
  have quiet := updateInterrupt_quiet 2 announced
  unfold oneCommand
  rw [Step.performAll_append, performed]
  dsimp only [Step.performAll, Step.perform]
  cases result : announced.updateInterrupt 2 [] with
  | error stopped =>
      rw [result] at handled quiet
      exact absurd (handled (quiet.2.trans reused)) quiet.1
  | ok next =>
      rw [result] at handled quiet
      have empty := quiet.reused.trans reused
      obtain ⟨settled, _, called, _, _⟩ := handled empty
      have posted := known.posted
      have length : announced.posted.length = others + 1 := by
        rw [posted, List.length_append, waiting.posted, List.length_singleton]
      refine ⟨next, rfl, settled, quiet.submitted.trans known.submitted,
        quiet.reads.trans known.reads, quiet.fetched.trans known.fetched,
        quiet.writes.trans known.writes, ?_, ?_, empty⟩
      · rw [quiet.posted, length]
      · rw [called]
        unfold arrivals
        rw [known.writes, length]
        rfl

theorem waiting_first :
    ∃ pair, Step.performAll [.submit, .fetch, .read] (make 3 0) = .ok pair ∧
      Waiting 0 pair := by
  have start := @make_settled 0 3 (by decide)
  obtain ⟨first, submitted, fields⟩ : ∃ first,
      (make 3 0).submitCommand = .ok first ∧
        first.submitted = 1 ∧ first.fetch.read.submitted = 1 ∧
        first.fetch.read.reads = [] ∧
        first.fetch.read.fetched = [sqEntry 0 0] ∧
        first.fetch.read.writes = [] ∧ first.fetch.read.posted = [] ∧
        first.fetch.read.called = [] ∧ first.fetch.read.reused = [] :=
    ⟨_, rfl, rfl, rfl, rfl, rfl, rfl, rfl, rfl, rfl⟩
  obtain ⟨_, count, reads, fetched, writes, posted, called, reused⟩ := fields
  refine ⟨first.fetch.read, ?_, ?_⟩
  · simp only [Step.performAll, Step.perform, submitted]
  · exact ⟨read_settled (fetch_settled (submitCommand_settled start submitted)),
      count, reads, fetched, writes, by rw [posted]; rfl,
      by rw [called]; rfl, reused⟩

/-- All ids but that of command 0 are given once. -/
theorem waiting_others (others : Nat) (small : others < 32767)
    {pair : QueuePair} (waiting : Waiting 0 pair) :
    ∃ next, Step.performAll (List.replicate others oneCommand).flatten pair =
        .ok next ∧ Waiting others next := by
  induction others with
  | zero => exact ⟨pair, rfl, waiting⟩
  | succ others induction =>
      obtain ⟨middle, performed, before⟩ := induction (by omega)
      have free : cidOf 0 (others + 1) ≠ cidOf 0 0 := by
        intro same
        have equal := congrArg UInt16.toNat same
        rw [cidOf_toNat _ small, cidOf_toNat 0 (by omega)] at equal
        omega
      obtain ⟨next, served, after⟩ := before.served free
      refine ⟨next, ?_, after⟩
      rw [List.replicate_succ', List.flatten_append, Step.performAll_append,
        performed]
      simpa using served

/-- The interrupt finds command 0 under the id of the other command. -/
theorem Announced.misdirected {others : Nat} {pair announced : QueuePair}
    (waiting : Waiting others pair) (known : Announced others pair announced)
    (again : cidOf 0 (others + 1) = cidOf 0 0) (fuel : Nat) :
    match drain (fuel + 1) [] announced with
    | .error _ => True
    | .ok (drained, _) => announced.called ++ [0] <+: drained.called ∧
        drained.posted = announced.posted := by
  have linked := known.settled.linked
  have reading := known.settled.reading
  have length : announced.called.length = others := by
    rw [known.called]
    exact waiting.called
  have arrivals : announced.arrivals = others + 1 := by
    unfold QueuePair.arrivals
    rw [known.writes, known.posted, List.length_append, waiting.posted]
    rfl
  have announces := linked.completions.arrived announced.called.length
    (Nat.le_refl _) (by omega)
  rw [← reading.head] at announces
  have id : (announced.cqMemory announced.ioCQ.head.toNat).commandID =
      cidOf 0 0 := by
    rw [announces.commandID, ← again, length, known.posted, ← waiting.posted,
      List.getD_append_right _ _ _ _ (Nat.le_refl _), Nat.sub_self]
    rfl
  have pending : announced.pendingCommandList =
      [commandEntry 0 0, commandEntry 0 (others + 1)] := by
    rw [linked.accounts.pending_outstanding, known.outstanding]
    rfl
  have index : announced.pendingCommandList.findIdx (fun command =>
      command.cid == cidOf 0 0) = 0 := by
    rw [pending, List.findIdx_cons]
    simp [commandEntry]
  have first : announced.pendingCommandList[0]? =
      some (commandEntry 0 0) := by
    rw [pending]
    rfl
  rw [drain]
  dsimp only
  rw [if_pos (announces.phase.trans reading.phase.symm), id, index, first]
  dsimp only [List.headD_nil, submitCommands, List.tail_nil]
  have later := drain_quiet fuel
    { announced with
      pendingCommandList := announced.pendingCommandList.eraseIdx 0
      ioCQ := announced.ioCQ.incrTail.incrHead
      phase := if announced.ioCQ.incrTail.incrHead.head = 0 then
          !announced.phase
        else announced.phase
      called := announced.called ++ [(commandEntry 0 0).context] }
  split at later
  · next failed =>
      rw [failed]
      trivial
  · next finished =>
      rw [finished]
      exact ⟨later.called, later.posted⟩

theorem Announced.interrupted {others : Nat} {pair announced : QueuePair}
    (waiting : Waiting others pair) (known : Announced others pair announced)
    (again : cidOf 0 (others + 1) = cidOf 0 0) :
    match announced.updateInterrupt 2 [] with
    | .error (raised, _) => raised ≠ .limit
    | .ok next => announced.called ++ [0] <+: next.called ∧
        next.posted = announced.posted := by
  have drains := known.misdirected waiting again announced.ioCQ.entries.toNat
  have quiet := drain_quiet (announced.ioCQ.entries.toNat + 1) announced
  rw [updateInterrupt]
  cases result : drain (announced.ioCQ.entries.toNat + 1) [] announced with
  | error stopped =>
      rw [result] at quiet
      exact quiet.1
  | ok outcome =>
      obtain ⟨drained, count⟩ := outcome
      rw [result] at drains
      dsimp only
      rw [List.drop_nil]
      by_cases taken : 0 < count
      · rw [if_pos taken]
        by_cases more : drained.ringCQHeadDoorbell.cq.ien = true ∧
            0 < drained.ringCQHeadDoorbell.cq.getItemCount
        · rw [if_pos more]
          have later := updateInterrupt_quiet 1 drained.ringCQHeadDoorbell
          cases again : updateInterrupt 1 [] drained.ringCQHeadDoorbell with
          | error stopped =>
              rw [again] at later
              exact later.1
          | ok next =>
              rw [again] at later
              exact ⟨drains.1.trans later.called, later.posted.trans drains.2⟩
        · rw [if_neg more]
          exact drains
      · rw [if_neg taken]
        exact drains

theorem performAll_oneCommand {pair announced : QueuePair}
    (announcing : Step.performAll
      [.submit, .fetch, .read, .complete 1 0, .arrive] pair =
        .ok announced) :
    Step.performAll oneCommand pair = announced.updateInterrupt 2 [] := by
  unfold oneCommand
  rw [Step.performAll_append, announcing]
  dsimp only [Step.performAll, Step.perform]
  cases announced.updateInterrupt 2 [] with
  | error stopped => rfl
  | ok next => rfl

def lateSteps : List Step :=
  [.submit, .fetch, .read] ++
    ((List.replicate 32766 oneCommand).flatten ++ oneCommand)

/-- With a ring of three entries and two commands outstanding, the last command
gets the id of command 0, whose callback is made in its place. -/
theorem reused_id_misdirects :
    ¬ match Step.performAll lateSteps (make 3 0) with
      | .error (raised, _) => raised = .limit
      | .ok pair => Faithful pair := by
  obtain ⟨start, started, first⟩ := waiting_first
  obtain ⟨pair, performed, waiting⟩ := waiting_others 32766 (by omega) first
  obtain ⟨announced, announcing, known⟩ := waiting.announces
  have interrupted := known.interrupted waiting cidOf_again
  have run : Step.performAll lateSteps (make 3 0) =
      announced.updateInterrupt 2 [] := by
    unfold lateSteps
    rw [Step.performAll_append, started]
    dsimp only
    rw [Step.performAll_append, performed]
    exact performAll_oneCommand announcing
  rw [run]
  intro claimed
  cases result : announced.updateInterrupt 2 [] with
  | error stopped =>
      rw [result] at claimed interrupted
      exact interrupted claimed
  | ok next =>
      rw [result] at claimed interrupted
      obtain ⟨⟨later, whole⟩, posted⟩ := interrupted
      have zero : next.called[32766]? = some 0 := by
        rw [← whole, known.called, List.append_assoc,
          List.getElem?_append_right (Nat.le_of_eq waiting.called),
          waiting.called]
        rfl
      have inOrder : next.called[32766]? =
          (next.posted.take next.called.length)[32766]? :=
        congrArg (·[32766]?) claimed.called
      have inside : 32766 < next.called.length :=
        (List.getElem?_eq_some_iff.mp zero).1
      rw [zero, List.getElem?_take_of_lt inside, posted, known.posted,
        List.getElem?_append_right (Nat.le_of_eq waiting.posted),
        waiting.posted] at inOrder
      cases inOrder

end Reuse

end SimpleSSD.SIL.NVMe
