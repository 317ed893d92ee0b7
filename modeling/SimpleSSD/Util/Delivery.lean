import SimpleSSD.Util.Reading

namespace SimpleSSD.Util

namespace FIFO

/-! What the FIFO does with requests, over its runs. -/

variable {param : FIFOParam} {fifo after : FIFO} {queue : Queue}

/-- Pieces go upstream in the order of the requests, and callbacks come in that
order, each one after the last piece of its request has been transferred. -/
structure Queue.Delivers (queue : Queue) : Prop where
  pieces : ∃ rest, Tiles queue.requested (queue.issued ++ rest)
  called : ∃ count ≤ queue.transferred,
    queue.called = lastFuncs (queue.issued.take count)

/-- Every request has gone upstream, its callback was called once, and nothing
waits. -/
structure Queue.Complete (queue : Queue) : Prop where
  pieces : Tiles queue.requested queue.issued
  called : queue.called = queue.requested.map DMARequest.func
  waitQueue : queue.waitQueue = []
  transferQueue : queue.transferQueue = []

def Quiet (fifo : FIFO) : Prop :=
  ∀ direction, (fifo.queue direction).scheduled = [] ∧
    (fifo.queue direction).transferred = (fifo.queue direction).issued.length

/-- In every run every step returns, requests are delivered as they should be,
and they are complete once nothing is outstanding. -/
structure Correct (param : FIFOParam) : Prop where
  returns : ∀ fifo, Reaches param fifo → ∀ tick action,
    fifo.Enabled tick action →
      ∃ after, perform param action { fifo with now := tick } = .ok after
  delivers : ∀ fifo, Reaches param fifo → ∀ direction,
    (fifo.queue direction).Delivers
  drains : ∀ fifo, Reaches param fifo → fifo.Quiet → ∀ direction,
    (fifo.queue direction).Complete

structure AtRest (param : FIFOParam) (fifo : FIFO) : Prop where
  write : WriteRest param fifo.writeQueue
  read : ReadMid param false fifo.readQueue fifo.counter fifo.readCompletion

theorem Queue.scheduled_nil (quiet : queue.scheduled = []) :
    queue.insertDone = none ∧ queue.beginTransfer = none ∧
      queue.submitCompletion = none := by
  unfold scheduled at quiet
  cases one : queue.insertDone with
  | some tick => simp [one] at quiet
  | none =>
      cases two : queue.beginTransfer with
      | some tick => simp [one, two] at quiet
      | none =>
          cases three : queue.submitCompletion with
          | some tick => simp [one, two, three] at quiet
          | none => exact ⟨rfl, rfl, rfl⟩

theorem WriteRest.delivers (rest : WriteRest param queue) :
    queue.Delivers := by
  obtain ⟨⟨flow, _, issued, sent⟩, _, _, _⟩ := rest
  constructor
  · refine ⟨((queue.transferQueue.drop (if queue.transferPending then 1 else 0)) ++
      waiting queue.insertPending queue).map FIFOEntry.toPiece, ?_⟩
    rw [issued, List.append_assoc, ← List.map_append, ← List.append_assoc,
      List.take_append_drop]
    exact flow.tiles
  · refine ⟨queue.finished.length, ?_, ?_⟩
    · have count := congrArg List.length issued
      rw [List.length_append, List.length_map, List.length_take] at count
      cases busy : queue.transferPending with
      | false =>
          rw [busy, if_neg (by simp)] at sent
          omega
      | true =>
          have some := List.length_pos_iff.mpr (flow.front busy)
          rw [busy, if_pos rfl] at count
          split at sent <;> omega
    · rw [issued, List.take_left, flow.called, List.append_nil]

theorem ReadMid.delivers {counter : Nat} {completion : List ReadEntry}
    (mid : ReadMid param false queue counter completion) : queue.Delivers := by
  obtain ⟨⟨flow, issued, _, _, _, _, behind, _⟩, _, _, _⟩ := mid
  constructor
  · refine ⟨(waiting queue.transferPending queue).map FIFOEntry.toPiece, ?_⟩
    rw [issued, List.append_assoc, ← List.map_append]
    exact flow.tiles
  · refine ⟨queue.finished.length, behind, ?_⟩
    rw [issued, List.take_left, flow.called, List.append_nil]

theorem Flow.complete {limit : UInt64}
    (flow : Flow param limit false false [] queue)
    (settled : Settled param limit false queue) (awake : Awake false queue)
    (quiet : queue.beginTransfer = none)
    (issued : queue.transferQueue = [] → queue.issued = queue.finished) :
    queue.Complete := by
  obtain ⟨empty, nothing⟩ := flow.drained settled awake quiet
  have tiles := flow.tiles
  unfold waiting at tiles
  rw [empty, if_neg Bool.false_ne_true, nothing, List.append_nil, List.map_nil,
    List.append_nil] at tiles
  refine ⟨?_, ?_, nothing, empty⟩
  · rw [issued empty]
    exact tiles
  · rw [flow.called, List.append_nil, tiles.lastFuncs_eq]

theorem WriteRest.complete (rest : WriteRest param queue)
    (quiet : queue.scheduled = [])
    (back : queue.transferred = queue.issued.length) : queue.Complete := by
  obtain ⟨insertDone, begin, submit⟩ := queue.scheduled_nil quiet
  obtain ⟨⟨flow, inserting, issued, sent⟩, settled, awake, _⟩ := rest
  have pending : queue.insertPending = false := by
    rw [inserting, insertDone]
    rfl
  have busy : queue.transferPending = false := by
    by_contra working
    rw [if_pos ⟨by simpa using working, submit⟩] at sent
    omega
  rw [pending] at flow settled
  rw [busy] at flow awake issued
  refine flow.complete settled awake begin fun empty => ?_
  rw [issued, empty, List.take_nil, List.map_nil, List.append_nil]

theorem ReadMid.complete {counter : Nat} {completion : List ReadEntry}
    (mid : ReadMid param false queue counter completion)
    (quiet : queue.scheduled = [])
    (back : queue.transferred = queue.issued.length) : queue.Complete := by
  obtain ⟨insertDone, begin, submit⟩ := queue.scheduled_nil quiet
  obtain ⟨⟨flow, issued, _, _, sent, _, _, _⟩, settled, awake, phase⟩ := mid
  have pending : queue.transferPending = false := by
    by_contra working
    rw [if_pos ⟨by simpa using working, rfl⟩] at sent
    omega
  have busy : queue.insertPending = false := by
    cases phase with
    | moving inserting =>
        rw [inserting, insertDone]
        rfl
    | upstream working _ _ out =>
        -- the front would be upstream, but everything has come back
        have some := List.length_pos_iff.mpr (flow.front working)
        rw [issued, List.length_append, List.length_map] at back
        omega
    | submitting _ _ due =>
        rw [submit] at due
        cases due
  rw [pending, busy] at flow
  rw [pending] at settled
  rw [busy] at awake
  refine flow.complete settled awake begin fun empty => ?_
  rw [issued, empty, List.map_nil, List.append_nil]

theorem make_ok : (∃ fifo, make param = .ok fifo) ↔
    param.transferUnit ≤ param.rqSize ∧ param.transferUnit ≤ param.wqSize := by
  unfold make
  by_cases large : param.transferUnit > param.rqSize ∨
      param.transferUnit > param.wqSize
  · rw [if_pos large]
    constructor
    · rintro ⟨_, made⟩
      cases made
    · rintro ⟨reads, writes⟩
      rcases large with read | write
      · exact absurd read (UInt64.not_lt.mpr reads)
      · exact absurd write (UInt64.not_lt.mpr writes)
  · rw [if_neg large]
    rw [not_or] at large
    exact ⟨fun _ => ⟨UInt64.not_lt.mp large.1, UInt64.not_lt.mp large.2⟩,
      fun _ => ⟨_, rfl⟩⟩

theorem make_flow (limit : UInt64) :
    Flow param limit false false [] (Queue.make limit) :=
  ⟨rfl, nofun, nofun, rfl, trivial, rfl, nofun, nofun⟩

theorem AtRest.make (made : FIFO.make param = .ok fifo) :
    AtRest param fifo := by
  unfold FIFO.make at made
  split at made
  · cases made
  · cases made
    refine ⟨⟨⟨make_flow _, rfl, rfl, rfl⟩, .inr (.inl rfl), .inr (.inl rfl),
      nofun⟩, ?_⟩
    exact ⟨⟨make_flow _, rfl, rfl, rfl, rfl, nofun, Nat.le_refl _, nofun⟩,
      .inr (.inl rfl), .inr (.inl rfl), .moving rfl rfl rfl⟩

theorem AtRest.step {tick : UInt64} {action : Action}
    (unit : param.transferUnit ≠ 0)
    (reads : param.transferUnit ≤ param.rqSize)
    (writes : param.transferUnit ≤ param.wqSize) (rest : AtRest param fifo)
    (enabled : fifo.Enabled tick action) :
    ∃ after, perform param action { fifo with now := tick } = .ok after ∧
      AtRest param after := by
  obtain ⟨write, read⟩ := rest
  obtain ⟨_, _, can⟩ := enabled
  have writeStable := @WriteRest.stable param unit writes
  have readStable := @ReadMid.stable param false unit reads
  cases action with
  | request req =>
      obtain ⟨_, _, _, result, write, read⟩ := request_ok writeStable readStable
        req { fifo with now := tick } write read
      exact ⟨_, result, write, read⟩
  | transferDone direction calls =>
      cases direction with
      | write =>
          obtain ⟨_, _, _, result, write, read⟩ := @performTransferDone_ok param
            { fifo with now := tick } unit writes _ readStable calls write can read
          exact ⟨_, result, write, read⟩
      | read =>
          obtain ⟨_, _, _, _, result, write, read⟩ :=
            @performReadTransferred_ok param { fifo with now := tick } unit reads _
              writeStable calls read can write
          exact ⟨_, result, write, read⟩
  | insertDone direction calls =>
      have due := Option.isSome_of_eq_some can
      cases direction with
      | write =>
          obtain ⟨_, result, write⟩ := @insertWriteDone_ok param
            { fifo with now := tick } unit writes calls write due
          exact ⟨_, result, write, read⟩
      | read =>
          obtain ⟨_, _, _, _, result, write, read⟩ :=
            @performReadInserted_ok param { fifo with now := tick } unit reads _
              writeStable calls read due write
          exact ⟨_, result, write, read⟩
  | beginTransfer direction =>
      have due := Option.isSome_of_eq_some can
      cases direction with
      | write =>
          obtain ⟨_, result, write⟩ := @beginWrite_ok param
            { fifo with now := tick } write due
          exact ⟨_, result, write, read⟩
      | read =>
          obtain ⟨_, result, read⟩ := @performReadBegun_ok param
            { fifo with now := tick } unit read due
          exact ⟨_, result, write, read⟩
  | submitCompletion direction calls =>
      have due := Option.isSome_of_eq_some can
      cases direction with
      | write =>
          obtain ⟨_, _, _, result, write, read⟩ := @submitWrite_ok param
            { fifo with now := tick } unit writes _ readStable calls write due read
          exact ⟨_, result, write, read⟩
      | read =>
          obtain ⟨_, _, _, _, result, write, read⟩ :=
            @performReadSubmitted_ok param { fifo with now := tick } unit reads _
              writeStable calls read due write
          exact ⟨_, result, write, read⟩

theorem Reaches.atRest (unit : param.transferUnit ≠ 0)
    (reaches : Reaches param fifo) : AtRest param fifo := by
  have sizes : param.transferUnit ≤ param.rqSize ∧
      param.transferUnit ≤ param.wqSize := by
    refine make_ok.mp ?_
    induction reaches with
    | make made => exact ⟨_, made⟩
    | step _ _ _ induction => exact induction
  induction reaches with
  | make made => exact .make made
  | step _ enabled performed induction =>
      obtain ⟨after, result, rest⟩ :=
        induction.step unit sizes.1 sizes.2 enabled
      rw [performed] at result
      cases result
      exact rest

/-- The first request divides by the unit. -/
theorem incorrect_of_zero (zero : param.transferUnit = 0) :
    ¬Correct param := by
  intro correct
  have sizes : param.transferUnit ≤ param.rqSize ∧
      param.transferUnit ≤ param.wqSize := by
    rw [zero]
    exact ⟨UInt64.zero_le, UInt64.zero_le⟩
  obtain ⟨fifo, made⟩ := make_ok.mpr sizes
  have reached := correct.returns fifo (.make made) fifo.now
    (.request ⟨.write, 0, 1, none, 0⟩)
  unfold FIFO.make at made
  split at made
  · cases made
  · cases made
    have some : (1 : UInt64) ≠ 0 := by decide
    refine absurd (reached ⟨UInt64.le_refl _, ?_, some⟩) ?_
    · intro direction other member
      cases direction <;> cases member
    · rintro ⟨after, result⟩
      simp [perform, request, dmaWrite, insertWrite, takeHead, calcSize, zero,
        Queue.make, bind, Except.bind, throw, throwThe, MonadExceptOf.throw]
        at result

/-- A FIFO that can be constructed is correct just when its unit is not zero. -/
theorem delivers_requests (param : FIFOParam)
    (reads : param.transferUnit ≤ param.rqSize)
    (writes : param.transferUnit ≤ param.wqSize) :
    Correct param ↔ param.transferUnit ≠ 0 := by
  refine ⟨fun correct zero => incorrect_of_zero zero correct, fun unit => ?_⟩
  refine ⟨?_, ?_, ?_⟩
  · intro fifo reaches tick action enabled
    obtain ⟨after, result, _⟩ :=
      (reaches.atRest unit).step unit reads writes enabled
    exact ⟨after, result⟩
  · intro fifo reaches direction
    cases direction with
    | read => exact (reaches.atRest unit).read.delivers
    | write => exact (reaches.atRest unit).write.delivers
  · intro fifo reaches quiet direction
    obtain ⟨scheduled, back⟩ := quiet direction
    cases direction with
    | read => exact (reaches.atRest unit).read.complete scheduled back
    | write => exact (reaches.atRest unit).write.complete scheduled back

def twoUnits : FIFOParam where
  rqSize := 8
  wqSize := 8
  transferUnit := 4
  latency size := size

theorem delivers_requests_two_units : Correct twoUnits :=
  (delivers_requests twoUnits (by decide) (by decide)).mpr (by decide)

/-- The constructor accepts a unit of zero, and the first request divides by
it. -/
theorem zero_unit_divides :
    ∃ param, (∃ fifo, make param = .ok fifo) ∧ ¬Correct param :=
  ⟨{ twoUnits with transferUnit := 0 }, ⟨_, rfl⟩, incorrect_of_zero rfl⟩

end FIFO

end SimpleSSD.Util
