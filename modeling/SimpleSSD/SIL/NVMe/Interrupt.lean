import SimpleSSD.SIL.NVMe.Rings

namespace SimpleSSD.SIL.NVMe

open HIL.NVMe (SQueue CQueue CQEntry)

namespace QueuePair

section Interrupt

variable {size : Nat} {start : UInt16} {pair : QueuePair}

theorem unread_tag (linked : Linked size start [] pair)
    (reading : Reading size pair)
    (all : pair.called.length = pair.arrivals) :
    phaseTag (pair.cqMemory pair.ioCQ.head.toNat) ≠ pair.phase := by
  have stale := linked.completions.stale pair.arrivals (Nat.le_refl _)
    (Nat.lt_add_of_pos_right linked.size_pos)
  rw [reading.head, reading.phase, all, stale]
  cases phaseOf size pair.arrivals <;> decide

theorem next_outstanding (linked : Linked size start [] pair)
    (more : pair.called.length < pair.arrivals) :
    ∃ number, pair.posted[pair.called.length]? = some number ∧
      number ∈ pair.outstanding := by
  have inside : pair.called.length < pair.posted.length := by
    unfold arrivals at more
    omega
  refine ⟨pair.posted[pair.called.length], List.getElem?_eq_getElem inside, ?_⟩
  have member : pair.posted[pair.called.length] ∈ pair.posted :=
    List.getElem_mem inside
  have below := linked.accounts.posted_lt member
  have issued := linked.fetches_le
  refine List.mem_filter.mpr ⟨List.mem_range.mpr (by omega), ?_⟩
  rw [Bool.not_eq_true', Bool.eq_false_iff]
  intro called
  rw [List.contains_iff_mem] at called
  obtain ⟨index, before, same⟩ := List.mem_iff_getElem.mp called
  have there : pair.called[index]? = pair.posted[index]? :=
    (congrArg (·[index]?) linked.completions.inOrder).trans
      (List.getElem?_take_of_lt before)
  rw [List.getElem?_eq_getElem before, List.getElem?_eq_getElem (by omega),
    same, Option.some.injEq] at there
  have equal := (linked.accounts.posted_nodup.getElem_inj_iff).mp there
  omega

theorem findIdx_outstanding {numbers : List Nat} {number : Nat}
    (distinct : (numbers.map (cidOf start)).Nodup)
    (member : number ∈ numbers) :
    ∃ index, (numbers.map (commandEntry start)).findIdx (fun command =>
        command.cid == cidOf start number) = index ∧
      numbers[index]? = some number := by
  induction numbers with
  | nil => cases member
  | cons first rest induction =>
      obtain ⟨unlike, later⟩ := List.nodup_cons.mp distinct
      rw [List.map_cons, List.findIdx_cons]
      by_cases same : first = number
      · refine ⟨0, ?_, by rw [same]; rfl⟩
        rw [same]
        simp [commandEntry]
      · have elsewhere : number ∈ rest := by
          rcases List.mem_cons.mp member with here | there
          · exact absurd here.symm same
          · exact there
        have differs : ¬ (cidOf start first == cidOf start number) = true := by
          rw [beq_iff_eq]
          intro equal
          exact unlike (equal ▸ List.mem_map_of_mem elsewhere)
        obtain ⟨index, found, there⟩ := induction later elsewhere
        refine ⟨index + 1, ?_, there⟩
        have test : ((commandEntry start first).cid == cidOf start number) =
            false := Bool.eq_false_iff.mpr differs
        rw [test, found]
        rfl

theorem Accounts.pending_outstanding (accounts : Accounts size start [] pair) :
    pair.pendingCommandList = pair.outstanding.map (commandEntry start) := by
  have pending := accounts.pending
  simp only [List.contains_nil, Bool.or_false] at pending
  exact pending

/-- A callback starts: its command is still in the list. -/
theorem calling_linked (linked : Linked size start [] pair) {number : Nat}
    (more : pair.called.length < pair.arrivals)
    (next : pair.posted[pair.called.length]? = some number)
    (member : number ∈ pair.outstanding) :
    Linked size start [number]
      { pair with
        ioCQ := pair.ioCQ.incrTail
        called := pair.called ++ [number] } := by
  obtain ⟨submissions, completions, accounts⟩ := linked
  have length : (pair.called ++ [number]).length = pair.called.length + 1 := by
    simp
  have uncalled : pair.called.contains number = false := by
    have test := (List.mem_filter.mp member).2
    rwa [Bool.not_eq_true'] at test
  refine ⟨⟨submissions.hostSize, submissions.deviceSize, submissions.hostTail,
    submissions.deviceTail, submissions.deviceHead, submissions.issued,
    submissions.reading, submissions.stored, submissions.inOrder,
    submissions.known, submissions.lastID⟩, ?_, ?_⟩
  · constructor
    case hostSize => exact completions.hostSize
    case deviceSize => exact completions.deviceSize
    case deviceTail => exact completions.deviceTail
    case devicePhase => exact completions.devicePhase
    case flying =>
      unfold arrivals at more
      dsimp only
      omega
    case writing => exact completions.writing
    case arrived =>
      intro position after before
      dsimp only at after
      rw [length] at after
      exact completions.arrived position (by omega) before
    case stale => exact completions.stale
    case inOrder =>
      dsimp only
      rw [length, List.take_add_one, ← completions.inOrder, next]
      rfl
  · constructor
    case working => exact accounts.working
    case pending =>
      rw [accounts.pending]
      congr 1
      refine List.filter_congr ?_
      intro other _
      dsimp only
      by_cases same : other = number
      · rw [same, uncalled]
        simp
      · simp [same]
    case few =>
      have few := accounts.few
      dsimp only
      omega

theorem calling_distinct (distinct : Distinct start pair) (number : Nat) :
    Distinct start
      { pair with
        ioCQ := pair.ioCQ.incrTail
        called := pair.called ++ [number] } := by
  refine List.Nodup.sublist ?_ distinct
  refine List.Sublist.map _ ?_
  unfold outstanding
  refine List.monotone_filter_right _ ?_
  intro other test
  simp only [List.contains_eq_mem, List.mem_append, List.mem_singleton,
    Bool.not_eq_true', decide_eq_false_iff_not, not_or] at test ⊢
  exact test.1

theorem eraseIdx_commandEntry {numbers : List Nat} {number index : Nat}
    (unique : numbers.Nodup)
    (there : (numbers.map (commandEntry start))[index]? =
      some (commandEntry start number)) :
    (numbers.map (commandEntry start)).eraseIdx index =
      (numbers.filter (· != number)).map (commandEntry start) := by
  rw [List.getElem?_map, Option.map_eq_some_iff] at there
  obtain ⟨other, found, same⟩ := there
  have equal : other = number := congrArg CommandEntry.context same
  obtain ⟨inside, here⟩ := List.getElem?_eq_some_iff.mp found
  rw [List.eraseIdx_map, ← unique.erase_getElem index inside, here, equal,
    unique.erase_eq_filter]

/-- A callback has ended: its command leaves the list, and the host moves on. -/
theorem called_linked {number index : Nat}
    (linked : Linked size start [number] pair)
    (reading : pair.ioCQ.head.toNat = (pair.called.length - 1) % size ∧
      pair.phase = phaseOf size (pair.called.length - 1))
    (some : pair.called ≠ [])
    (member : number ∈ pair.called)
    (there : pair.pendingCommandList[index]? =
      .some (commandEntry start number)) :
    Linked size start []
      { pair with
        pendingCommandList := pair.pendingCommandList.eraseIdx index
        ioCQ := pair.ioCQ.incrHead
        phase := if pair.ioCQ.incrHead.head = 0 then !pair.phase
          else pair.phase } ∧
    Reading size
      { pair with
        pendingCommandList := pair.pendingCommandList.eraseIdx index
        ioCQ := pair.ioCQ.incrHead
        phase := if pair.ioCQ.incrHead.head = 0 then !pair.phase
          else pair.phase } := by
  have positive := linked.size_pos
  obtain ⟨submissions, completions, accounts⟩ := linked
  have count : pair.called.length - 1 + 1 = pair.called.length := by
    have nonempty := List.length_pos_of_ne_nil some
    omega
  have turned := @turn_toNat pair.ioCQ.entries pair.ioCQ.head
    (pair.called.length - 1) (by rw [completions.hostSize]; exact positive)
    (by rw [completions.hostSize]; exact reading.1)
  rw [completions.hostSize, count] at turned
  refine ⟨⟨⟨submissions.hostSize, submissions.deviceSize, submissions.hostTail,
    submissions.deviceTail, submissions.deviceHead, submissions.issued,
    submissions.reading, submissions.stored, submissions.inOrder,
    submissions.known, submissions.lastID⟩, ⟨completions.hostSize,
    completions.deviceSize, completions.deviceTail, completions.devicePhase,
    completions.flying, completions.writing, completions.arrived,
    completions.stale, completions.inOrder⟩, ⟨accounts.working, ?_,
    accounts.few⟩⟩, turned, ?_⟩
  · dsimp only
    rw [accounts.pending] at there ⊢
    rw [eraseIdx_commandEntry (List.nodup_range.filter _) there,
      List.filter_filter]
    congr 1
    refine List.filter_congr ?_
    intro other _
    by_cases same : other = number
    · rw [same]
      simp [member]
    · simp [same]
  · have succ := @phaseOf_succ size (pair.called.length - 1)
    rw [count, ← turned] at succ
    dsimp only
    rw [succ, reading.2]
    have zero : (Queue.turn pair.ioCQ.entries pair.ioCQ.head).toNat = 0 ↔
        pair.ioCQ.incrHead.head = 0 := by
      rw [← UInt16.toNat_inj]
      rfl
    simp only [zero]

structure SameDevice (pair next : QueuePair) : Prop where
  cq : next.cq = pair.cq
  writes : next.writes = pair.writes
  posted : next.posted = pair.posted

theorem SameDevice.trans {first second third : QueuePair}
    (before : SameDevice first second) (after : SameDevice second third) :
    SameDevice first third where
  cq := after.cq.trans before.cq
  writes := after.writes.trans before.writes
  posted := after.posted.trans before.posted

/-- The commands that got the id of another one are not forgotten. -/
def Remembers (pair : QueuePair) {Result : Type} (state : Result → QueuePair) :
    Run Result → Prop
  | .error (_, stopped) => pair.reused <:+ stopped.reused
  | .ok result => pair.reused <:+ (state result).reused

theorem drain_remembers (fuel : Nat) (answers : List Nat) (pair : QueuePair) :
    Remembers pair Prod.fst (drain fuel answers pair) := by
  induction fuel generalizing pair answers with
  | zero => exact List.suffix_refl _
  | succ fuel induction =>
      rw [drain]
      dsimp only
      split
      · split
        · exact List.suffix_refl _
        · split
          · next stopped failed =>
              exact (submitCommands_error failed).2
          · next answered submitted =>
              have history := (submitCommands_extends submitted).history
              have later := @induction answers.tail
                { answered with
                  pendingCommandList := answered.pendingCommandList.eraseIdx
                    (pair.pendingCommandList.findIdx fun command =>
                      command.cid ==
                        (pair.cqMemory pair.ioCQ.head.toNat).commandID)
                  ioCQ := answered.ioCQ.incrHead
                  phase := if answered.ioCQ.incrHead.head = 0 then
                      !answered.phase
                    else answered.phase }
              split
              · next failed =>
                  rw [failed] at later
                  exact history.trans later
              · next drained =>
                  rw [drained] at later
                  exact history.trans later
      · exact List.suffix_refl _

def Drains (size : Nat) (start : UInt16) (pair : QueuePair) :
    Run (QueuePair × Nat) → Prop
  | .error (raised, stopped) => stopped.reused = [] → raised = .limit
  | .ok (drained, count) => drained.reused = [] →
      Linked size start [] drained ∧ Distinct start drained ∧
        Reading size drained ∧ SameDevice pair drained ∧
        drained.called.length = pair.arrivals ∧
        count = pair.arrivals - pair.called.length

theorem drain_idle {fuel : Nat} {answers : List Nat}
    (linked : Linked size start [] pair) (reading : Reading size pair)
    (all : pair.called.length = pair.arrivals) :
    drain (fuel + 1) answers pair = .ok (pair, 0) := by
  rw [drain]
  exact if_neg (unread_tag linked reading all)

theorem drain_drains {fuel : Nat} {answers : List Nat}
    (linked : Linked size start [] pair) (distinct : Distinct start pair)
    (reading : Reading size pair)
    (enough : pair.arrivals - pair.called.length < fuel) :
    Drains size start pair (drain fuel answers pair) := by
  induction fuel generalizing pair answers with
  | zero => omega
  | succ fuel induction =>
      have ordered := linked.called_le.1
      by_cases all : pair.called.length = pair.arrivals
      · rw [drain_idle linked reading all]
        exact fun _ => ⟨linked, distinct, reading, ⟨rfl, rfl, rfl⟩, all,
          by omega⟩
      · have more : pair.called.length < pair.arrivals := by omega
        obtain ⟨number, posted, member⟩ := next_outstanding linked more
        have announces := linked.completions.arrived pair.called.length
          (Nat.le_refl _) more
        rw [← reading.head] at announces
        have id : (pair.cqMemory pair.ioCQ.head.toNat).commandID =
            cidOf start number := by
          rw [announces.commandID, List.getD_eq_getElem?_getD, posted]
          rfl
        obtain ⟨index, found, listed⟩ := findIdx_outstanding
          distinct member
        have entry : pair.pendingCommandList[index]? =
            some (commandEntry start number) := by
          rw [linked.accounts.pending_outstanding, List.getElem?_map, listed]
          rfl
        rw [drain]
        dsimp only
        rw [if_pos (announces.phase.trans reading.phase.symm), id,
          linked.accounts.pending_outstanding, found,
          ← linked.accounts.pending_outstanding, entry]
        dsimp only
        have calling := calling_linked linked more posted member
        split
        · next failed => exact fun _ => (submitCommands_error failed).1
        · next answered submitted =>
            have extended := submitCommands_extends submitted
            have same := extended.completions
            have length : answered.called.length =
                pair.called.length + 1 := by
              rw [same.called]
              simp
            have arrivals : answered.arrivals = pair.arrivals := by
              unfold QueuePair.arrivals
              rw [same.posted, same.writes]
            have erased : answered.pendingCommandList[index]? =
                some (commandEntry start number) := by
              obtain ⟨appended, whole⟩ := extended.pending
              rw [← whole, List.getElem?_append_left
                (List.getElem?_eq_some_iff.mp entry).1]
              exact entry
            have answering := fun fresh : answered.reused = [] =>
              submitCommands_linked calling (calling_distinct distinct number)
                submitted fresh
            have moved := fun fresh : answered.reused = [] => called_linked
              (answering fresh).1
              ⟨by rw [same.ioCQ, length]; exact reading.head,
                by rw [same.phase, length]; exact reading.phase⟩
              (by rw [same.called]; simp)
              (by rw [same.called]; simp [commandEntry]) erased
            have history := drain_remembers fuel answers.tail
              { answered with
                pendingCommandList := answered.pendingCommandList.eraseIdx index
                ioCQ := answered.ioCQ.incrHead
                phase := if answered.ioCQ.incrHead.head = 0 then
                    !answered.phase
                  else answered.phase }
            have drains := fun fresh : answered.reused = [] =>
              @induction _ answers.tail (moved fresh).1 (answering fresh).2
                (moved fresh).2 (by
                have count : answered.arrivals - answered.called.length <
                    fuel := by omega
                exact count)
            split
            · next stopped failed =>
                rw [failed] at history drains
                intro fresh
                exact drains (List.suffix_nil.mp (fresh ▸ history)) fresh
            · next drained count finished =>
                rw [finished] at history drains
                intro fresh
                obtain ⟨after, apart, read, device, called, taken⟩ :=
                  drains (List.suffix_nil.mp (fresh ▸ history)) fresh
                have before : SameDevice pair answered :=
                  ⟨same.cq, same.writes, same.posted⟩
                have total : answered.arrivals - answered.called.length + 1 =
                    pair.arrivals - pair.called.length := by omega
                exact ⟨after, apart, read,
                  before.trans ⟨device.cq, device.writes, device.posted⟩,
                  called.trans arrivals, (congrArg (· + 1) taken).trans total⟩

theorem Remembers.trans {middle : QueuePair} {Result : Type}
    {state : Result → QueuePair} {run : Run Result}
    (before : pair.reused <:+ middle.reused)
    (after : Remembers middle state run) : Remembers pair state run := by
  cases run with
  | error stopped => exact before.trans after
  | ok result => exact before.trans after

structure Quiet (pair next : QueuePair) : Prop where
  submitted : next.submitted = pair.submitted
  reads : next.reads = pair.reads
  fetched : next.fetched = pair.fetched
  writes : next.writes = pair.writes
  posted : next.posted = pair.posted
  reused : next.reused = pair.reused
  called : pair.called <+: next.called

theorem Quiet.refl (pair : QueuePair) : Quiet pair pair :=
  ⟨rfl, rfl, rfl, rfl, rfl, rfl, List.prefix_refl _⟩

theorem Quiet.trans {first second third : QueuePair}
    (before : Quiet first second) (after : Quiet second third) :
    Quiet first third where
  submitted := after.submitted.trans before.submitted
  reads := after.reads.trans before.reads
  fetched := after.fetched.trans before.fetched
  writes := after.writes.trans before.writes
  posted := after.posted.trans before.posted
  reused := after.reused.trans before.reused
  called := before.called.trans after.called

theorem drain_quiet (fuel : Nat) (pair : QueuePair) :
    match drain fuel [] pair with
    | .error (raised, stopped) => raised ≠ .limit ∧
        stopped.reused = pair.reused
    | .ok (drained, _) => Quiet pair drained := by
  induction fuel generalizing pair with
  | zero => exact ⟨by decide, rfl⟩
  | succ fuel induction =>
      rw [drain]
      dsimp only
      by_cases tag : phaseTag (pair.cqMemory pair.ioCQ.head.toNat) = pair.phase
      · rw [if_pos tag]
        cases entry : pair.pendingCommandList[pair.pendingCommandList.findIdx
            fun command => command.cid ==
              (pair.cqMemory pair.ioCQ.head.toNat).commandID]? with
        | none => exact ⟨by decide, rfl⟩
        | some command =>
            dsimp only [List.headD_nil, submitCommands, List.tail_nil]
            have later := induction
              { pair with
                pendingCommandList := pair.pendingCommandList.eraseIdx
                  (pair.pendingCommandList.findIdx fun command =>
                    command.cid ==
                      (pair.cqMemory pair.ioCQ.head.toNat).commandID)
                ioCQ := pair.ioCQ.incrTail.incrHead
                phase := if pair.ioCQ.incrTail.incrHead.head = 0 then
                    !pair.phase
                  else pair.phase
                called := pair.called ++ [command.context] }
            split at later
            · next failed =>
                rw [failed]
                exact later
            · next finished =>
                rw [finished]
                have first : Quiet pair
                    { pair with called := pair.called ++ [command.context] } :=
                  ⟨rfl, rfl, rfl, rfl, rfl, rfl, List.prefix_append _ _⟩
                exact first.trans ⟨later.submitted, later.reads, later.fetched,
                  later.writes, later.posted, later.reused, later.called⟩
      · rw [if_neg tag]
        exact .refl pair

theorem updateInterrupt_quiet (depth : Nat) (pair : QueuePair) :
    match updateInterrupt depth [] pair with
    | .error (raised, stopped) => raised ≠ .limit ∧
        stopped.reused = pair.reused
    | .ok next => Quiet pair next := by
  induction depth generalizing pair with
  | zero => exact ⟨by decide, rfl⟩
  | succ depth induction =>
      have drains := drain_quiet (pair.ioCQ.entries.toNat + 1) pair
      rw [updateInterrupt]
      cases result : drain (pair.ioCQ.entries.toNat + 1) [] pair with
      | error stopped =>
          rw [result] at drains
          exact drains
      | ok outcome =>
          obtain ⟨drained, count⟩ := outcome
          rw [result] at drains
          have rung : Quiet pair drained.ringCQHeadDoorbell :=
            drains.trans ⟨rfl, rfl, rfl, rfl, rfl, rfl, List.prefix_refl _⟩
          dsimp only
          rw [List.drop_nil]
          by_cases taken : 0 < count
          · rw [if_pos taken]
            by_cases more : drained.ringCQHeadDoorbell.cq.ien = true ∧
                0 < drained.ringCQHeadDoorbell.cq.getItemCount
            · rw [if_pos more]
              have later := induction drained.ringCQHeadDoorbell
              split at later
              · exact ⟨later.1, later.2.trans rung.reused⟩
              · exact rung.trans later
            · rw [if_neg more]
              exact rung
          · rw [if_neg taken]
            exact drains

theorem updateInterrupt_remembers (depth : Nat) (answers : List Nat)
    (pair : QueuePair) :
    Remembers pair id (updateInterrupt depth answers pair) := by
  induction depth generalizing pair answers with
  | zero => exact List.suffix_refl _
  | succ depth induction =>
      have history := drain_remembers (pair.ioCQ.entries.toNat + 1) answers pair
      rw [updateInterrupt]
      split
      · next failed =>
          rw [failed] at history
          exact history
      · next drained count finished =>
          rw [finished] at history
          dsimp only
          split
          · split
            · exact Remembers.trans history (induction (answers.drop count)
                drained.ringCQHeadDoorbell)
            · exact history
          · exact history

theorem ringCQHeadDoorbell_settled (linked : Linked size start [] pair)
    (reading : Reading size pair) :
    Settled size start pair.ringCQHeadDoorbell where
  linked :=
    { submissions :=
        { linked.submissions with }
      completions :=
        { linked.completions with }
      accounts :=
        { linked.accounts with } }
  reading := { reading with }
  doorbell := rfl

/-- An interrupt calls back every command whose completion has arrived. -/
theorem updateInterrupt_settled {answers : List Nat}
    (settled : Settled size start pair) (distinct : Distinct start pair) :
    match pair.updateInterrupt 2 answers with
    | .error (raised, stopped) => stopped.reused = [] → raised = .limit
    | .ok next => next.reused = [] → Settled size start next ∧
        Distinct start next ∧ next.called.length = pair.arrivals ∧
        next.posted = pair.posted ∧ next.writes = pair.writes := by
  obtain ⟨linked, reading, doorbell⟩ := settled
  have few := linked.accounts.few
  have issued := linked.fetches_le
  have ordered := linked.called_le
  have drains := @drain_drains size start pair (pair.ioCQ.entries.toNat + 1)
    answers linked distinct reading (by rw [linked.completions.hostSize]; omega)
  rw [updateInterrupt]
  cases result : drain (pair.ioCQ.entries.toNat + 1) answers pair with
  | error stopped =>
      rw [result] at drains
      exact drains
  | ok outcome =>
      obtain ⟨drained, count⟩ := outcome
      rw [result] at drains
      dsimp only
      by_cases taken : 0 < count
      · rw [if_pos taken]
        by_cases fresh : drained.reused = []
        · obtain ⟨after, apart, read, device, called, _⟩ := drains fresh
          have rung := ringCQHeadDoorbell_settled after read
          have all : drained.ringCQHeadDoorbell.called.length =
              drained.ringCQHeadDoorbell.arrivals := by
            have arrivals : drained.arrivals = pair.arrivals := by
              unfold QueuePair.arrivals
              rw [device.posted, device.writes]
            exact called.trans arrivals.symm
          have again : updateInterrupt 1 (answers.drop count)
              drained.ringCQHeadDoorbell = .ok drained.ringCQHeadDoorbell := by
            rw [updateInterrupt, drain_idle rung.linked rung.reading all]
            rfl
          rw [again, ite_self]
          exact fun _ => ⟨rung, apart, called, device.posted, device.writes⟩
        · have never : ∀ {stopped : QueuePair},
              drained.reused <:+ stopped.reused → stopped.reused ≠ [] := by
            intro stopped history empty
            rw [empty] at history
            exact fresh (List.suffix_nil.mp history)
          have history := updateInterrupt_remembers 1 (answers.drop count)
            drained.ringCQHeadDoorbell
          split
          · next raised stopped failed =>
              split at failed
              · rw [failed] at history
                exact fun empty => absurd empty (never history)
              · cases failed
          · next final finished =>
              split at finished
              · rw [finished] at history
                exact fun empty => absurd empty (never history)
              · cases finished
                exact fun empty => absurd empty fresh
      · rw [if_neg taken]
        intro fresh
        obtain ⟨after, apart, read, device, called, none⟩ := drains fresh
        refine ⟨⟨after, read, ?_⟩, apart, called, device.posted,
          device.writes⟩
        rw [device.cq, doorbell, ← UInt16.toNat_inj, reading.head, read.head,
          called]
        congr 1
        omega

end Interrupt

end QueuePair

end SimpleSSD.SIL.NVMe
