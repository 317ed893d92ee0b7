import SimpleSSD.Util.Flow

namespace SimpleSSD.Util

namespace FIFO

/-! The write queue: entries are written to the FIFO, and go upstream from
there. -/

variable {param : FIFOParam} {leaving : List Piece} {out : Nat}
  {queue before after : Queue} {fifo : FIFO} {iter : FIFOEntry}

/-- What holds of the write queue at every point; `out` pieces are upstream. -/
structure WriteInv (param : FIFOParam) (leaving : List Piece) (out : Nat)
    (queue : Queue) : Prop where
  flow : Flow param param.wqSize queue.insertPending queue.transferPending
    leaving queue
  inserting : queue.insertPending = queue.insertDone.isSome
  issued : queue.issued = queue.finished ++
    (queue.transferQueue.take (if queue.transferPending then 1 else 0)).map
      FIFOEntry.toPiece
  sent : queue.transferred + out = queue.issued.length

structure Grows (before after : Queue) : Prop where
  more : ∃ more, after.transferQueue = before.transferQueue ++ more ∧
    (more ≠ [] ∨ before.beginTransfer.isSome = true →
      after.beginTransfer.isSome = true)
  submit : after.submitCompletion = before.submitCompletion

theorem Grows.refl (queue : Queue) : Grows queue queue :=
  ⟨⟨[], (List.append_nil _).symm, fun called => called.resolve_left (· rfl)⟩, rfl⟩

theorem Grows.front (grows : Grows before after) {rest : List FIFOEntry}
    (there : before.transferQueue = iter :: rest) :
    ∃ rest, after.transferQueue = iter :: rest := by
  obtain ⟨more, grown, _⟩ := grows.more
  exact ⟨rest ++ more, by rw [grown, there, List.cons_append]⟩

theorem Grows.awake (grows : Grows before after) {busy : Bool}
    (awake : Awake busy before) : Awake busy after := by
  obtain ⟨more, grown, called⟩ := grows.more
  exact awake.grown grown called

theorem dueUnless_isSome (event : Option UInt64) (tick : UInt64) :
    (fifo.dueUnless event tick).isSome = true := by
  cases event <;> rfl

section Inserting

variable (unit : param.transferUnit ≠ 0)
  (units : param.transferUnit ≤ param.wqSize)

include unit units

theorem insertWrite_ok (inv : WriteInv param leaving out fifo.writeQueue)
    (some : fifo.writeQueue.waitQueue ≠ []) :
    ∃ queue, insertWrite param fifo = .ok { fifo with writeQueue := queue } ∧
      WriteInv param leaving out queue ∧
      Settled param param.wqSize queue.insertPending queue ∧
      queue.transferPending = fifo.writeQueue.transferPending ∧
      Grows fifo.writeQueue queue := by
  obtain ⟨flow, inserting, issued, sent⟩ := id inv
  cases pending : fifo.writeQueue.insertPending with
  | true =>
      rw [pending] at flow
      obtain ⟨iter, rest, there, fits⟩ := flow.head rfl
      refine ⟨fifo.writeQueue, ?_, inv, .inl pending, rfl, .refl _⟩
      unfold insertWrite
      dsimp only
      rw [pending, takeHead_pending unit there fits]
      rfl
  | false =>
      rw [pending] at flow
      obtain ⟨iter, rest, there⟩ := List.exists_cons_of_ne_nil some
      have whole := flow.whole
      unfold waiting at whole
      rw [if_neg Bool.false_ne_true, there] at whole
      rcases takeHead_idle unit units flow.capacity there whole with
        ⟨result, fits, full⟩ | ⟨taken, result, takes⟩
      · refine ⟨fifo.writeQueue, ?_, inv, ?_, rfl, .refl _⟩
        · unfold insertWrite
          dsimp only
          rw [pending, result]
          rfl
        · exact .inr (.inr ⟨iter, rest, there, fits, full⟩)
      · refine ⟨beginInsert param fifo taken, ?_,
          ⟨flow.enter there takes rfl, rfl, ?_, sent⟩, .inl rfl, rfl,
          ⟨_, rfl, fun _ => dueUnless_isSome _ _⟩, rfl⟩
        · unfold insertWrite
          dsimp only
          rw [pending, result]
          rfl
        · unfold beginInsert
          dsimp only
          rw [issued]
          cases busy : fifo.writeQueue.transferPending with
          | false => rfl
          | true =>
              obtain ⟨first, others, front⟩ :=
                List.exists_cons_of_ne_nil (flow.front busy)
              rw [front]
              rfl

theorem dmaWrite_ok (req : DMARequest)
    (inv : WriteInv param leaving out fifo.writeQueue)
    (settled : Settled param param.wqSize fifo.writeQueue.insertPending
      fifo.writeQueue) :
    ∃ queue, dmaWrite param req fifo = .ok { fifo with writeQueue := queue } ∧
      WriteInv param leaving out queue ∧
      Settled param param.wqSize queue.insertPending queue ∧
      queue.transferPending = fifo.writeQueue.transferPending ∧
      Grows fifo.writeQueue queue := by
  unfold dmaWrite
  by_cases empty : req.size = 0
  · rw [if_pos empty]
    exact ⟨fifo.writeQueue, rfl, inv, settled, rfl, .refl _⟩
  · rw [if_neg empty]
    obtain ⟨queue, result, after, settled, busy, grows⟩ :=
      @insertWrite_ok param leaving out { fifo with writeQueue :=
        { fifo.writeQueue with
          requested := fifo.writeQueue.requested ++ [req]
          waitQueue := fifo.writeQueue.waitQueue ++
            [⟨req.whole, 0, 0⟩] } } unit units
        ⟨inv.flow.push empty rfl, inv.inserting, inv.issued, inv.sent⟩
        (by simp)
    exact ⟨queue, result, after, settled, busy, grows.more, grows.submit⟩

end Inserting

structure WriteRest (param : FIFOParam) (queue : Queue) : Prop where
  inv : WriteInv param []
    (if queue.transferPending = true ∧ queue.submitCompletion = none then 1
      else 0) queue
  settled : Settled param param.wqSize queue.insertPending queue
  awake : Awake queue.transferPending queue
  submit : queue.submitCompletion.isSome = true → queue.transferPending = true

structure WriteCall (param : FIFOParam) (iter : FIFOEntry) (queue : Queue) :
    Prop where
  inv : WriteInv param [iter.toPiece] 0 queue
  settled : Settled param param.wqSize queue.insertPending queue
  busy : queue.transferPending = true
  submit : queue.submitCompletion = none
  front : ∃ rest, queue.transferQueue = iter :: rest

section Requests

variable (unit : param.transferUnit ≠ 0)
  (units : param.transferUnit ≤ param.wqSize)

include unit units

theorem WriteRest.dmaWrite (req : DMARequest)
    (rest : WriteRest param fifo.writeQueue) :
    ∃ queue, FIFO.dmaWrite param req fifo =
        .ok { fifo with writeQueue := queue } ∧ WriteRest param queue := by
  obtain ⟨queue, result, inv, settled, busy, grows⟩ :=
    dmaWrite_ok unit units req rest.inv rest.settled
  refine ⟨queue, result, ?_, settled, ?_, ?_⟩
  · rw [busy, grows.submit]
    exact inv
  · rw [busy]
    exact grows.awake rest.awake
  · rw [busy, grows.submit]
    exact rest.submit

theorem WriteCall.dmaWrite (req : DMARequest)
    (call : WriteCall param iter fifo.writeQueue) :
    ∃ queue, FIFO.dmaWrite param req fifo =
        .ok { fifo with writeQueue := queue } ∧ WriteCall param iter queue := by
  obtain ⟨queue, result, inv, settled, busy, grows⟩ :=
    dmaWrite_ok unit units req call.inv call.settled
  obtain ⟨rest, there⟩ := call.front
  exact ⟨queue, result, inv, settled, busy.trans call.busy,
    grows.submit.trans call.submit, grows.front there⟩

end Requests

theorem transferWrite_ok (inv : WriteInv param [] 0 fifo.writeQueue)
    (some : fifo.writeQueue.transferQueue ≠ [])
    (idle : fifo.writeQueue.transferPending = false)
    (quiet : fifo.writeQueue.beginTransfer = none) :
    ∃ queue, transferWrite fifo = .ok { fifo with writeQueue := queue } ∧
      WriteInv param [] 1 queue ∧ queue.transferPending = true ∧
      queue.submitCompletion = fifo.writeQueue.submitCompletion ∧
      (Settled param param.wqSize fifo.writeQueue.insertPending fifo.writeQueue →
        Settled param param.wqSize queue.insertPending queue) := by
  obtain ⟨flow, inserting, issued, sent⟩ := inv
  obtain ⟨iter, rest, there⟩ := List.exists_cons_of_ne_nil some
  rw [idle] at flow
  refine ⟨{ fifo.writeQueue with
    transferPending := true
    issued := fifo.writeQueue.issued ++ [iter.toPiece] }, ?_,
    ⟨?_, inserting, ?_, ?_⟩, rfl, rfl, id⟩
  · unfold transferWrite
    rw [there]
    dsimp only
    rw [idle]
    rfl
  · have started := @Flow.start _ _ _ _ _ iter iter rest
      fifo.writeQueue.insertDone fifo.writeQueue.insertPending true
      (fifo.writeQueue.issued ++ [iter.toPiece]) flow there rfl
    rw [← there, ← quiet] at started
    exact started
  · dsimp only
    rw [issued, idle, there, if_neg Bool.false_ne_true, if_pos rfl,
      List.take_zero, List.map_nil, List.append_nil]
    rfl
  · dsimp only
    rw [List.length_append, ← sent]
    rfl

/-! Callbacks. -/

def ReadStable (param : FIFOParam)
    (holds : Queue → Nat → List ReadEntry → Prop) : Prop :=
  ∀ (req : DMARequest) (fifo : FIFO),
    holds fifo.readQueue fifo.counter fifo.readCompletion →
      ∃ queue counter, dmaRead param req fifo =
          .ok { fifo with readQueue := queue, counter := counter } ∧
        holds queue counter fifo.readCompletion

def WriteStable (param : FIFOParam) (holds : Queue → Prop) : Prop :=
  ∀ (req : DMARequest) (fifo : FIFO), holds fifo.writeQueue →
    ∃ queue, dmaWrite param req fifo = .ok { fifo with writeQueue := queue } ∧
      holds queue

theorem request_ok {writes : Queue → Prop}
    {reads : Queue → Nat → List ReadEntry → Prop}
    (writeStable : WriteStable param writes)
    (readStable : ReadStable param reads) (req : DMARequest) (fifo : FIFO)
    (write : writes fifo.writeQueue)
    (read : reads fifo.readQueue fifo.counter fifo.readCompletion) :
    ∃ writeQueue readQueue counter, request param fifo req = .ok { fifo with
        writeQueue := writeQueue, readQueue := readQueue, counter := counter } ∧
      writes writeQueue ∧ reads readQueue counter fifo.readCompletion := by
  unfold request
  cases req.direction with
  | read =>
      obtain ⟨queue, counter, result, after⟩ := readStable req fifo read
      exact ⟨fifo.writeQueue, queue, counter, result, write, after⟩
  | write =>
      obtain ⟨queue, result, after⟩ := writeStable req fifo write
      exact ⟨queue, fifo.readQueue, fifo.counter, result, after, read⟩

theorem calls_ok {writes : Queue → Prop}
    {reads : Queue → Nat → List ReadEntry → Prop}
    (writeStable : WriteStable param writes)
    (readStable : ReadStable param reads) (calls : List DMARequest)
    (fifo : FIFO) (write : writes fifo.writeQueue)
    (read : reads fifo.readQueue fifo.counter fifo.readCompletion) :
    ∃ writeQueue readQueue counter, calls.foldlM (request param) fifo =
        .ok { fifo with
          writeQueue := writeQueue, readQueue := readQueue, counter := counter } ∧
      writes writeQueue ∧ reads readQueue counter fifo.readCompletion := by
  induction calls generalizing fifo with
  | nil => exact ⟨_, _, _, rfl, write, read⟩
  | cons req rest induction =>
      obtain ⟨writeQueue, readQueue, counter, result, write, read⟩ :=
        request_ok writeStable readStable req fifo write read
      obtain ⟨writeQueue', readQueue', counter', result', write', read'⟩ :=
        induction { fifo with
          writeQueue := writeQueue, readQueue := readQueue, counter := counter }
          write read
      refine ⟨writeQueue', readQueue', counter', ?_, write', read'⟩
      rw [List.foldlM_cons, result]
      exact result'

/-! The steps of the write queue. -/

section Steps

variable (unit : param.transferUnit ≠ 0)
  (units : param.transferUnit ≤ param.wqSize)

include unit units

theorem WriteRest.stable : WriteStable param (WriteRest param) :=
  fun req _ rest => rest.dmaWrite unit units req

theorem WriteCall.stable : WriteStable param (WriteCall param iter) :=
  fun req _ call => call.dmaWrite unit units req

theorem nextInsertWrite_ok
    (inv : WriteInv param leaving out fifo.writeQueue) :
    ∃ queue, nextInsertWrite param fifo =
        .ok { fifo with writeQueue := queue } ∧
      WriteInv param leaving out queue ∧
      Settled param param.wqSize queue.insertPending queue ∧
      queue.transferPending = fifo.writeQueue.transferPending ∧
      Grows fifo.writeQueue queue := by
  unfold nextInsertWrite
  by_cases empty : fifo.writeQueue.waitQueue = []
  · rw [if_pos (List.isEmpty_iff.mpr empty)]
    exact ⟨fifo.writeQueue, rfl, inv, .inr (.inl empty), rfl, .refl _⟩
  · rw [if_neg (by simpa using empty)]
    exact insertWrite_ok unit units inv empty

omit unit units in
theorem nextTransferWrite_ok (inv : WriteInv param [] 0 fifo.writeQueue)
    (idle : fifo.writeQueue.transferPending = false) :
    ∃ queue, nextTransferWrite fifo = .ok { fifo with writeQueue := queue } ∧
      WriteInv param [] (if queue.transferPending then 1 else 0) queue ∧
      Awake queue.transferPending queue ∧
      queue.submitCompletion = fifo.writeQueue.submitCompletion := by
  unfold nextTransferWrite
  by_cases goes : ¬fifo.writeQueue.transferQueue.isEmpty ∧
      fifo.writeQueue.beginTransfer.isNone
  · rw [if_pos goes]
    obtain ⟨queue, result, after, busy, submit, _⟩ := transferWrite_ok inv
      (by simpa using goes.1) idle (by simpa using goes.2)
    refine ⟨queue, result, ?_, .inl busy, submit⟩
    rw [busy]
    exact after
  · rw [if_neg goes]
    refine ⟨fifo.writeQueue, rfl, ?_, ?_, rfl⟩
    · rw [idle]
      exact inv
    · by_cases empty : fifo.writeQueue.transferQueue = []
      · exact .inr (.inl empty)
      · refine .inr (.inr ?_)
        by_contra none
        refine goes ⟨?_, ?_⟩
        · simpa using empty
        · simpa using none

theorem leaveWrite_ok (call : WriteCall param iter fifo.writeQueue) :
    ∃ queue, leaveWrite param iter fifo = .ok { fifo with writeQueue := queue } ∧
      WriteRest param queue := by
  obtain ⟨⟨flow, inserting, issued, sent⟩, settled, busy, submit, rest, front⟩ :=
    call
  rw [busy] at flow
  have left : WriteInv param [] 0 { fifo.writeQueue with
      usage := fifo.writeQueue.usage - unitSize param iter.size
      transferPending := false
      transferQueue := fifo.writeQueue.transferQueue.tail
      finished := fifo.writeQueue.finished ++ [iter.toPiece] } := by
    refine ⟨?_, inserting, ?_, sent⟩
    · have leaves := @Flow.leave _ _ _ _ _ _
        fifo.writeQueue.insertPending false flow front
      rw [front]
      exact leaves
    · dsimp only
      rw [issued, busy, front, if_pos rfl, if_neg Bool.false_ne_true,
        List.take_zero, List.map_nil, List.append_nil]
      rfl
  obtain ⟨middle, transfers, inv, awake, submit'⟩ :=
    @nextTransferWrite_ok param { fifo with writeQueue := _ } left rfl
  obtain ⟨queue, inserts, inv', settled', busy', grows⟩ :=
    @nextInsertWrite_ok param [] _ { fifo with writeQueue := middle } unit units
      inv
  have quiet : queue.submitCompletion = none :=
    grows.submit.trans (submit'.trans submit)
  refine ⟨queue, ?_, ⟨?_, settled', ?_, ?_⟩⟩
  · unfold leaveWrite
    rw [calcSize_eq unit]
    change (nextTransferWrite _ >>= _) = _
    rw [transfers]
    exact inserts
  · rw [busy', quiet]
    simpa using inv'
  · rw [busy']
    exact grows.awake awake
  · rw [quiet]
    nofun

/-- The callback of the front is called before it leaves. -/
theorem transferWriteDoneNext_ok {reads : Queue → Nat → List ReadEntry → Prop}
    (readStable : ReadStable param reads) (calls : List DMARequest)
    (inv : WriteInv param [] 0 fifo.writeQueue)
    (settled : Settled param param.wqSize fifo.writeQueue.insertPending
      fifo.writeQueue)
    (busy : fifo.writeQueue.transferPending = true)
    (submit : fifo.writeQueue.submitCompletion = none)
    (read : reads fifo.readQueue fifo.counter fifo.readCompletion) :
    ∃ writeQueue readQueue counter, transferWriteDoneNext param calls fifo =
        .ok { fifo with
          writeQueue := writeQueue, readQueue := readQueue, counter := counter } ∧
      WriteRest param writeQueue ∧
        reads readQueue counter fifo.readCompletion := by
  obtain ⟨iter, rest, front⟩ :=
    List.exists_cons_of_ne_nil (inv.flow.front busy)
  have calling : WriteCall param iter { fifo.writeQueue with
      called := if iter.last then fifo.writeQueue.called ++ [iter.func]
        else fifo.writeQueue.called } :=
    ⟨⟨inv.flow.call iter.toPiece, inv.inserting, inv.issued, inv.sent⟩, settled,
      busy, submit, rest, front⟩
  unfold transferWriteDoneNext
  rw [front]
  dsimp only
  by_cases last : iter.last = true
  · rw [if_pos last] at calling ⊢
    obtain ⟨writeQueue, readQueue, counter, result, call, read⟩ :=
      calls_ok (WriteCall.stable unit units) readStable calls
        { fifo with writeQueue := { fifo.writeQueue with
          called := fifo.writeQueue.called ++ [iter.func] } } calling read
    obtain ⟨queue, leaves, atRest⟩ := @leaveWrite_ok param { fifo with
      writeQueue := writeQueue, readQueue := readQueue, counter := counter }
      iter unit units call
    refine ⟨queue, readQueue, counter, ?_, atRest, read⟩
    rw [result]
    exact leaves
  · rw [if_neg last] at calling ⊢
    obtain ⟨queue, leaves, atRest⟩ :=
      @leaveWrite_ok param fifo iter unit units calling
    exact ⟨queue, _, _, leaves, atRest, read⟩

/-- What upstream has taken is finished at once, or later. -/
theorem transferWriteDone_ok {reads : Queue → Nat → List ReadEntry → Prop}
    (readStable : ReadStable param reads) (calls : List DMARequest)
    (inv : WriteInv param [] 0 fifo.writeQueue)
    (settled : Settled param param.wqSize fifo.writeQueue.insertPending
      fifo.writeQueue)
    (busy : fifo.writeQueue.transferPending = true)
    (submit : fifo.writeQueue.submitCompletion = none)
    (read : reads fifo.readQueue fifo.counter fifo.readCompletion) :
    ∃ writeQueue readQueue counter, transferWriteDone param calls fifo =
        .ok { fifo with
          writeQueue := writeQueue, readQueue := readQueue, counter := counter } ∧
      WriteRest param writeQueue ∧
        reads readQueue counter fifo.readCompletion := by
  obtain ⟨iter, others, front⟩ :=
    List.exists_cons_of_ne_nil (inv.flow.front busy)
  unfold transferWriteDone
  rw [front]
  dsimp only
  split
  · exact transferWriteDoneNext_ok unit units readStable calls inv settled busy
      submit read
  · refine ⟨_, _, _, rfl, ⟨?_, settled, .inl busy, fun _ => busy⟩, read⟩
    rw [if_neg (by simp)]
    obtain ⟨flow, inserting, issued, away⟩ := inv
    exact ⟨flow.frame, inserting, issued, away⟩

theorem performTransferDone_ok {reads : Queue → Nat → List ReadEntry → Prop}
    (readStable : ReadStable param reads) (calls : List DMARequest)
    (rest : WriteRest param fifo.writeQueue)
    (sent : fifo.writeQueue.transferred < fifo.writeQueue.issued.length)
    (read : reads fifo.readQueue fifo.counter fifo.readCompletion) :
    ∃ writeQueue readQueue counter,
      perform param (.transferDone .write calls) fifo = .ok { fifo with
        writeQueue := writeQueue, readQueue := readQueue, counter := counter } ∧
      WriteRest param writeQueue ∧
        reads readQueue counter fifo.readCompletion := by
  obtain ⟨⟨flow, inserting, issued, away⟩, settled, _, _⟩ := rest
  have upstream : fifo.writeQueue.transferPending = true ∧
      fifo.writeQueue.submitCompletion = none := by
    by_contra back
    rw [if_neg back] at away
    omega
  rw [if_pos upstream] at away
  have back : WriteInv param [] 0 { fifo.writeQueue with
      transferred := fifo.writeQueue.transferred + 1 } :=
    ⟨flow.frame, inserting, issued, away⟩
  exact @transferWriteDone_ok param { fifo with writeQueue :=
    { fifo.writeQueue with transferred := fifo.writeQueue.transferred + 1 } }
    unit units reads readStable calls back settled upstream.1 upstream.2 read

theorem submitWrite_ok {reads : Queue → Nat → List ReadEntry → Prop}
    (readStable : ReadStable param reads) (calls : List DMARequest)
    (rest : WriteRest param fifo.writeQueue)
    (due : fifo.writeQueue.submitCompletion.isSome = true)
    (read : reads fifo.readQueue fifo.counter fifo.readCompletion) :
    ∃ writeQueue readQueue counter,
      perform param (.submitCompletion .write calls) fifo = .ok { fifo with
        writeQueue := writeQueue, readQueue := readQueue, counter := counter } ∧
      WriteRest param writeQueue ∧
        reads readQueue counter fifo.readCompletion := by
  obtain ⟨⟨flow, inserting, issued, sent⟩, settled, _, submit⟩ := rest
  have later : ¬(fifo.writeQueue.transferPending = true ∧
      fifo.writeQueue.submitCompletion = none) := by
    rintro ⟨_, none⟩
    rw [none] at due
    cases due
  rw [if_neg later] at sent
  have inv : WriteInv param [] 0 { fifo.writeQueue with
      submitCompletion := none } :=
    ⟨flow.frame, inserting, issued, sent⟩
  exact @transferWriteDoneNext_ok param { fifo with writeQueue :=
    { fifo.writeQueue with submitCompletion := none } }
    unit units reads readStable calls inv settled (submit due) rfl read

theorem insertWriteDone_ok (calls : List DMARequest)
    (rest : WriteRest param fifo.writeQueue)
    (due : fifo.writeQueue.insertDone.isSome = true) :
    ∃ queue, perform param (.insertDone .write calls) fifo =
        .ok { fifo with writeQueue := queue } ∧ WriteRest param queue := by
  obtain ⟨⟨flow, inserting, issued, sent⟩, settled, awake, submit⟩ := rest
  have pending : fifo.writeQueue.insertPending = true := inserting.trans due
  rw [pending] at flow
  obtain ⟨iter, others, there, _⟩ := flow.head rfl
  have ready : WriteInv param []
      (if fifo.writeQueue.transferPending = true ∧
        fifo.writeQueue.submitCompletion = none then 1 else 0)
      { fifo.writeQueue with
        insertDone := none, waitQueue := others, insertPending := false } := by
    refine ⟨?_, rfl, issued, sent⟩
    have ready := @Flow.ready _ _ _ _ _ false
      fifo.writeQueue.transferPending flow
    rw [there] at ready
    exact ready.frame
  obtain ⟨queue, result, inv, settled', busy, grows⟩ :=
    @nextInsertWrite_ok param [] _ { fifo with writeQueue :=
      { fifo.writeQueue with
        insertDone := none, waitQueue := others, insertPending := false } }
      unit units ready
  refine ⟨queue, ?_, ⟨?_, settled', ?_, ?_⟩⟩
  · unfold perform insertWriteDone
    dsimp only
    rw [there]
    exact result
  · rw [busy, grows.submit]
    exact inv
  · rw [busy]
    exact grows.awake awake
  · rw [busy, grows.submit]
    exact submit

omit unit units in
theorem beginWrite_ok (rest : WriteRest param fifo.writeQueue)
    (due : fifo.writeQueue.beginTransfer.isSome = true) :
    ∃ queue, perform param (.beginTransfer .write) fifo =
        .ok { fifo with writeQueue := queue } ∧ WriteRest param queue := by
  obtain ⟨⟨flow, inserting, issued, sent⟩, settled, _, submit⟩ := rest
  have some := flow.waits due
  have quiet : WriteInv param []
      (if fifo.writeQueue.transferPending = true ∧
        fifo.writeQueue.submitCompletion = none then 1 else 0)
      { fifo.writeQueue with beginTransfer := none } :=
    ⟨flow.quiet, inserting, issued, sent⟩
  cases busy : fifo.writeQueue.transferPending with
  | true =>
      refine ⟨{ fifo.writeQueue with beginTransfer := none }, ?_,
        ⟨quiet, settled, .inl busy, submit⟩⟩
      obtain ⟨iter, others, front⟩ := List.exists_cons_of_ne_nil (flow.front busy)
      unfold perform transferWrite
      dsimp only
      rw [front, busy]
      rfl
  | false =>
      have back : fifo.writeQueue.submitCompletion = none := by
        by_contra later
        have working := submit (Option.isSome_iff_ne_none.mpr later)
        rw [busy] at working
        cases working
      rw [busy, if_neg (by simp)] at quiet
      have front : fifo.writeQueue.transferQueue ≠ [] :=
        List.length_pos_iff.mp (Nat.zero_lt_of_lt some)
      obtain ⟨queue, result, inv, busy', submit', settles⟩ := @transferWrite_ok
        param { fifo with writeQueue :=
          { fifo.writeQueue with beginTransfer := none } } quiet front busy rfl
      have none : queue.submitCompletion = none := submit'.trans back
      refine ⟨queue, result, ?_, settles settled, .inl busy', ?_⟩
      · rw [busy', none]
        exact inv
      · rw [none]
        nofun

end Steps

end FIFO

end SimpleSSD.Util
