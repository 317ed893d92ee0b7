import SimpleSSD.Util.Writing

namespace SimpleSSD.Util

namespace FIFO

/-! The read queue: entries come from upstream, and are written to the FIFO from
there.  Of an entry both have to end, in any order. -/

variable {param : FIFOParam} {leaving : List Piece} {returned : Bool}
  {queue before after : Queue} {fifo : FIFO} {iter : FIFOEntry} {counter : Nat}
  {completion : List ReadEntry}

/-- What holds of the read queue at every point.  The last piece that was asked
for is upstream until it has `returned`. -/
structure ReadInv (param : FIFOParam) (leaving : List Piece) (returned : Bool)
    (queue : Queue) (counter : Nat) : Prop where
  flow : Flow param param.rqSize queue.transferPending queue.insertPending
    leaving queue
  issued : queue.issued =
    queue.finished ++ queue.transferQueue.map FIFOEntry.toPiece
  counted : counter = queue.issued.length
  ids : queue.transferQueue.map FIFOEntry.id =
    List.range' queue.finished.length queue.transferQueue.length
  sent : queue.transferred +
    (if queue.transferPending = true ∧ returned = false then 1 else 0) =
      queue.issued.length
  newest : queue.transferPending = true → ∃ iter rest,
    queue.waitQueue = iter :: rest ∧ iter.id + 1 = counter
  behind : queue.finished.length ≤ queue.transferred
  back : returned = true → queue.transferPending = true

/-- Entries come in behind the others, and the second stage is left alone. -/
structure ReadGrows (before after : Queue) : Prop where
  grows : Grows before after
  pending : after.insertPending = before.insertPending
  inserting : after.insertDone = before.insertDone
  finished : after.finished = before.finished
  transferred : after.transferred = before.transferred

theorem ReadGrows.refl (queue : Queue) : ReadGrows queue queue :=
  ⟨.refl _, rfl, rfl, rfl, rfl⟩

section Taking

variable (unit : param.transferUnit ≠ 0)
  (units : param.transferUnit ≤ param.rqSize)

include unit units

theorem transferRead_ok
    (inv : ReadInv param leaving returned fifo.readQueue fifo.counter)
    (some : fifo.readQueue.waitQueue ≠ []) :
    ∃ queue counter, transferRead param fifo =
        .ok { fifo with readQueue := queue, counter := counter } ∧
      ReadInv param leaving returned queue counter ∧
      Settled param param.rqSize queue.transferPending queue ∧
      ReadGrows fifo.readQueue queue := by
  obtain ⟨flow, issued, counted, ids, sent, newest, behind, back⟩ := id inv
  cases pending : fifo.readQueue.transferPending with
  | true =>
      rw [pending] at flow
      obtain ⟨iter, rest, there, fits⟩ := flow.head rfl
      refine ⟨fifo.readQueue, fifo.counter, ?_, inv, .inl pending, .refl _⟩
      unfold transferRead
      dsimp only
      rw [pending, takeHead_pending unit there fits]
      rfl
  | false =>
      rw [pending] at flow
      have here : returned = false := by
        cases returned with
        | false => rfl
        | true =>
            have working := back rfl
            rw [pending] at working
            cases working
      obtain ⟨iter, rest, there⟩ := List.exists_cons_of_ne_nil some
      have whole := flow.whole
      unfold waiting at whole
      rw [if_neg Bool.false_ne_true, there] at whole
      rcases takeHead_idle unit units flow.capacity there whole with
        ⟨result, fits, full⟩ | ⟨taken, result, takes⟩
      · refine ⟨fifo.readQueue, fifo.counter, ?_, inv, ?_, .refl _⟩
        · unfold transferRead
          dsimp only
          rw [pending, result]
          rfl
        · exact .inr (.inr ⟨iter, rest, there, fits, full⟩)
      · refine ⟨beginRead param fifo taken, fifo.counter + 1, ?_,
          ⟨flow.enter there takes rfl, ?_, ?_, ?_, ?_,
            fun _ => ⟨_, _, rfl, rfl⟩, behind, fun _ => rfl⟩,
          .inl rfl, ⟨⟨_, rfl, fun _ => dueUnless_isSome _ _⟩, rfl⟩, rfl, rfl,
          rfl, rfl⟩
        · unfold transferRead
          dsimp only
          rw [pending, result]
          rfl
        · unfold beginRead
          dsimp only
          rw [issued, List.map_append, List.append_assoc]
          rfl
        · unfold beginRead
          dsimp only
          rw [List.length_append, counted]
          rfl
        · have length : fifo.counter =
              fifo.readQueue.finished.length +
                fifo.readQueue.transferQueue.length := by
            rw [counted, issued, List.length_append, List.length_map]
          unfold beginRead
          dsimp only
          rw [List.map_append, ids, List.length_append, List.map_singleton,
            List.length_singleton, List.range'_concat, Nat.one_mul, ← length]
        · rw [pending, if_neg (by simp)] at sent
          unfold beginRead
          dsimp only
          rw [here, if_pos ⟨rfl, rfl⟩, List.length_append, ← sent]
          rfl

theorem nextTransferRead_ok
    (inv : ReadInv param leaving returned fifo.readQueue fifo.counter) :
    ∃ queue counter, nextTransferRead param fifo =
        .ok { fifo with readQueue := queue, counter := counter } ∧
      ReadInv param leaving returned queue counter ∧
      Settled param param.rqSize queue.transferPending queue ∧
      ReadGrows fifo.readQueue queue := by
  unfold nextTransferRead
  by_cases empty : fifo.readQueue.waitQueue = []
  · rw [if_pos (List.isEmpty_iff.mpr empty)]
    exact ⟨_, _, rfl, inv, .inr (.inl empty), .refl _⟩
  · rw [if_neg (by simpa using empty)]
    exact transferRead_ok unit units inv empty

theorem dmaRead_ok (req : DMARequest)
    (inv : ReadInv param leaving returned fifo.readQueue fifo.counter)
    (settled : Settled param param.rqSize fifo.readQueue.transferPending
      fifo.readQueue) :
    ∃ queue counter, dmaRead param req fifo =
        .ok { fifo with readQueue := queue, counter := counter } ∧
      ReadInv param leaving returned queue counter ∧
      Settled param param.rqSize queue.transferPending queue ∧
      ReadGrows fifo.readQueue queue := by
  unfold dmaRead
  by_cases empty : req.size = 0
  · rw [if_pos empty]
    exact ⟨_, _, rfl, inv, settled, .refl _⟩
  · rw [if_neg empty]
    have pushed : ReadInv param leaving returned { fifo.readQueue with
        requested := fifo.readQueue.requested ++ [req]
        waitQueue := fifo.readQueue.waitQueue ++ [⟨req.whole, 0, 0⟩] }
        fifo.counter := by
      refine ⟨inv.flow.push empty rfl, inv.issued, inv.counted, inv.ids, inv.sent,
        ?_, inv.behind, inv.back⟩
      intro working
      obtain ⟨iter, rest, there, number⟩ := inv.newest working
      refine ⟨iter, rest ++ [⟨req.whole, 0, 0⟩], ?_, number⟩
      dsimp only
      rw [there, List.cons_append]
    obtain ⟨queue, counter, result, after, settled, grows⟩ :=
      @transferRead_ok param leaving returned { fifo with readQueue :=
        { fifo.readQueue with
          requested := fifo.readQueue.requested ++ [req]
          waitQueue := fifo.readQueue.waitQueue ++ [⟨req.whole, 0, 0⟩] } }
        unit units pushed (by simp)
    exact ⟨queue, counter, result, after, settled,
      ⟨grows.grows.more, grows.grows.submit⟩, grows.pending, grows.inserting,
      grows.finished, grows.transferred⟩

end Taking

/-- How far the second stage is, and of which entries one end is known. -/
inductive ReadPhase (queue : Queue) (completion : List ReadEntry) : Prop
  | moving (inserting : queue.insertPending = queue.insertDone.isSome)
      (submit : queue.submitCompletion = none)
      (ids : completion.map ReadEntry.id =
        List.range' queue.finished.length
          (queue.transferred - queue.finished.length))
  /-- The front is in the FIFO, but has not come from upstream. -/
  | upstream (pending : queue.insertPending = true)
      (inserting : queue.insertDone = none)
      (submit : queue.submitCompletion = none)
      (out : queue.transferred = queue.finished.length)
      (ids : completion.map ReadEntry.id = [queue.finished.length])
  | submitting (pending : queue.insertPending = true)
      (inserting : queue.insertDone = none)
      (submit : queue.submitCompletion.isSome = true)
      (done : queue.finished.length < queue.transferred)
      (ids : completion.map ReadEntry.id =
        List.range' (queue.finished.length + 1)
          (queue.transferred - queue.finished.length - 1))

theorem ReadPhase.grown (phase : ReadPhase before completion)
    (grows : ReadGrows before after) : ReadPhase after completion := by
  obtain ⟨⟨_, submit'⟩, pending', inserting', finished, transferred⟩ := grows
  cases phase with
  | moving inserting submit ids =>
      refine .moving ?_ (submit'.trans submit) ?_
      · rw [pending', inserting', inserting]
      · rw [finished, transferred, ids]
  | upstream pending inserting submit out ids =>
      refine .upstream (pending'.trans pending) (inserting'.trans inserting)
        (submit'.trans submit) ?_ ?_
      · rw [finished, transferred, out]
      · rw [finished, ids]
  | submitting pending inserting submit done ids =>
      refine .submitting (pending'.trans pending) (inserting'.trans inserting)
        ?_ ?_ ?_
      · rw [submit', submit]
      · rw [finished, transferred]
        exact done
      · rw [finished, transferred, ids]

structure ReadMid (param : FIFOParam) (returned : Bool) (queue : Queue)
    (counter : Nat) (completion : List ReadEntry) : Prop where
  inv : ReadInv param [] returned queue counter
  settled : Settled param param.rqSize queue.transferPending queue
  awake : Awake queue.insertPending queue
  phase : ReadPhase queue completion

structure ReadCall (param : FIFOParam) (iter : FIFOEntry) (returned : Bool)
    (before : Queue) (noted : List ReadEntry) (queue : Queue) (counter : Nat)
    (completion : List ReadEntry) : Prop where
  inv : ReadInv param [iter.toPiece] returned queue counter
  settled : Settled param param.rqSize queue.transferPending queue
  busy : queue.insertPending = true
  inserting : queue.insertDone = none
  submit : queue.submitCompletion = none
  front : ∃ rest, queue.transferQueue = iter :: rest
  finished : queue.finished = before.finished
  transferred : queue.transferred = before.transferred
  noted : completion = noted

section Requests

variable (unit : param.transferUnit ≠ 0)
  (units : param.transferUnit ≤ param.rqSize)

include unit units

theorem ReadMid.stable : ReadStable param (ReadMid param returned) := by
  intro req fifo mid
  obtain ⟨queue, counter, result, inv, settled, grows⟩ :=
    dmaRead_ok unit units req mid.inv mid.settled
  refine ⟨queue, counter, result, inv, settled, ?_, mid.phase.grown grows⟩
  rw [grows.pending]
  exact grows.grows.awake mid.awake

theorem ReadCall.stable {noted : List ReadEntry} :
    ReadStable param (ReadCall param iter returned before noted) := by
  intro req fifo call
  obtain ⟨queue, counter, result, inv, settled, grows⟩ :=
    dmaRead_ok unit units req call.inv call.settled
  obtain ⟨rest, there⟩ := call.front
  exact ⟨queue, counter, result, inv, settled, grows.pending.trans call.busy,
    grows.inserting.trans call.inserting,
    grows.grows.submit.trans call.submit, grows.grows.front there,
    grows.finished.trans call.finished, grows.transferred.trans call.transferred,
    call.noted⟩

end Requests

/-! The second stage. -/

section Stages

variable (unit : param.transferUnit ≠ 0)

include unit

theorem insertRead_ok
    (inv : ReadInv param [] returned fifo.readQueue fifo.counter)
    (some : fifo.readQueue.transferQueue ≠ [])
    (idle : fifo.readQueue.insertPending = false)
    (quiet : fifo.readQueue.beginTransfer = none) :
    ∃ queue, insertRead param fifo = .ok { fifo with readQueue := queue } ∧
      ReadInv param [] returned queue fifo.counter ∧
      queue.insertPending = true ∧ queue.insertDone.isSome = true ∧
      queue.submitCompletion = fifo.readQueue.submitCompletion ∧
      queue.finished = fifo.readQueue.finished ∧
      queue.transferred = fifo.readQueue.transferred ∧
      (Settled param param.rqSize fifo.readQueue.transferPending
          fifo.readQueue →
        Settled param param.rqSize queue.transferPending queue) := by
  obtain ⟨flow, issued, counted, ids, sent, newest, behind, back⟩ := inv
  obtain ⟨iter, rest, there⟩ := List.exists_cons_of_ne_nil some
  rw [idle] at flow
  refine ⟨{ fifo.readQueue with
    insertPending := true
    transferQueue := { iter with
      insertEndAt := fifo.now + param.latency (unitSize param iter.size) } :: rest
    insertDone := fifo.dueUnless fifo.readQueue.insertDone
      (fifo.now + param.latency (unitSize param iter.size)) }, ?_,
    ⟨?_, ?_, counted, ?_, sent, newest, behind, back⟩, rfl,
    dueUnless_isSome _ _, rfl, rfl, rfl, id⟩
  · unfold insertRead
    rw [there]
    dsimp only
    rw [idle, calcSize_eq unit]
    rfl
  · have started := @Flow.start _ _ _ _ _ iter { iter with
      insertEndAt := fifo.now + param.latency (unitSize param iter.size) } rest
      (fifo.dueUnless fifo.readQueue.insertDone
        (fifo.now + param.latency (unitSize param iter.size))) true
      fifo.readQueue.transferPending fifo.readQueue.issued flow there rfl
    rw [← quiet] at started
    exact started
  · rw [there] at issued
    exact issued
  · rw [there] at ids
    exact ids

theorem nextInsertRead_ok
    (inv : ReadInv param [] returned fifo.readQueue fifo.counter)
    (idle : fifo.readQueue.insertPending = false)
    (inserting : fifo.readQueue.insertDone = none) :
    ∃ queue, nextInsertRead param fifo = .ok { fifo with readQueue := queue } ∧
      ReadInv param [] returned queue fifo.counter ∧
      queue.insertPending = queue.insertDone.isSome ∧
      Awake queue.insertPending queue ∧
      queue.submitCompletion = fifo.readQueue.submitCompletion ∧
      queue.finished = fifo.readQueue.finished ∧
      queue.transferred = fifo.readQueue.transferred := by
  unfold nextInsertRead
  by_cases goes : ¬fifo.readQueue.transferQueue.isEmpty ∧
      fifo.readQueue.beginTransfer.isNone
  · rw [if_pos goes]
    obtain ⟨queue, result, after, busy, due, submit, finished, transferred, _⟩ :=
      insertRead_ok unit inv (by simpa using goes.1) idle (by simpa using goes.2)
    exact ⟨queue, result, after, busy.trans due.symm, .inl busy, submit, finished,
      transferred⟩
  · rw [if_neg goes]
    refine ⟨fifo.readQueue, rfl, inv, ?_, ?_, rfl, rfl, rfl⟩
    · rw [idle, inserting]
      rfl
    · by_cases empty : fifo.readQueue.transferQueue = []
      · exact .inr (.inl empty)
      · refine .inr (.inr ?_)
        by_contra none
        refine goes ⟨?_, ?_⟩
        · simpa using empty
        · simpa using none

end Stages

structure ReadNext (param : FIFOParam) (returned : Bool) (before : Queue)
    (queue : Queue) (counter : Nat) : Prop where
  inv : ReadInv param [] returned queue counter
  settled : Settled param param.rqSize queue.transferPending queue
  awake : Awake queue.insertPending queue
  inserting : queue.insertPending = queue.insertDone.isSome
  submit : queue.submitCompletion = none
  finished : queue.finished.length = before.finished.length + 1
  transferred : queue.transferred = before.transferred

section Steps

variable (unit : param.transferUnit ≠ 0)
  (units : param.transferUnit ≤ param.rqSize)

include unit units

theorem leaveRead_ok {noted : List ReadEntry}
    (call : ReadCall param iter returned before noted fifo.readQueue fifo.counter
      fifo.readCompletion)
    (done : before.finished.length < before.transferred) :
    ∃ queue counter, leaveRead param iter fifo =
        .ok { fifo with readQueue := queue, counter := counter } ∧
      ReadNext param returned before queue counter := by
  obtain ⟨⟨flow, issued, counted, ids, sent, newest, behind, back⟩, settled, busy,
    inserting, submit, ⟨rest, front⟩, finished, transferred, _⟩ := call
  rw [busy] at flow
  have left : ReadInv param [] returned { fifo.readQueue with
      usage := fifo.readQueue.usage - unitSize param iter.size
      insertPending := false
      transferQueue := fifo.readQueue.transferQueue.tail
      finished := fifo.readQueue.finished ++ [iter.toPiece] } fifo.counter := by
    rw [front, List.map_cons] at ids issued
    rw [List.length_cons, List.range'_succ, List.cons.injEq] at ids
    refine ⟨?_, ?_, counted, ?_, sent, newest, ?_, back⟩
    · have leaves := @Flow.leave _ _ _ _ _ _ false
        fifo.readQueue.transferPending flow front
      rw [front]
      exact leaves
    · dsimp only
      rw [front, issued, List.append_assoc]
      rfl
    · dsimp only
      rw [front, List.length_append]
      exact ids.2
    · dsimp only
      rw [List.length_append, finished, transferred]
      exact done
  obtain ⟨middle, inserts, inv, inserting', awake, submit', finished',
      transferred'⟩ :=
    @nextInsertRead_ok param returned { fifo with readQueue := _ } unit left rfl
      inserting
  obtain ⟨queue, counter, transfers, inv', settled', grows⟩ :=
    @nextTransferRead_ok param [] returned { fifo with readQueue := middle } unit
      units inv
  refine ⟨queue, counter, ?_, inv', settled', ?_, ?_, ?_, ?_, ?_⟩
  · unfold leaveRead
    rw [calcSize_eq unit]
    change (nextInsertRead param _ >>= _) = _
    rw [inserts]
    exact transfers
  · rw [grows.pending]
    exact grows.grows.awake awake
  · rw [grows.pending, grows.inserting]
    exact inserting'
  · exact grows.grows.submit.trans (submit'.trans submit)
  · rw [grows.finished, finished', List.length_append, finished]
    rfl
  · exact grows.transferred.trans (transferred'.trans transferred)

/-- The callback of the front is called before it leaves. -/
theorem insertReadDoneNext_ok {writes : Queue → Prop}
    (writeStable : WriteStable param writes) (calls : List DMARequest)
    (inv : ReadInv param [] returned fifo.readQueue fifo.counter)
    (settled : Settled param param.rqSize fifo.readQueue.transferPending
      fifo.readQueue)
    (busy : fifo.readQueue.insertPending = true)
    (inserting : fifo.readQueue.insertDone = none)
    (submit : fifo.readQueue.submitCompletion = none)
    (done : fifo.readQueue.finished.length < fifo.readQueue.transferred)
    (write : writes fifo.writeQueue) :
    ∃ writeQueue readQueue counter, insertReadDoneNext param calls fifo =
        .ok { fifo with
          writeQueue := writeQueue, readQueue := readQueue, counter := counter } ∧
      writes writeQueue ∧
        ReadNext param returned fifo.readQueue readQueue counter := by
  obtain ⟨iter, rest, front⟩ :=
    List.exists_cons_of_ne_nil (inv.flow.front busy)
  have calling : ReadCall param iter returned fifo.readQueue fifo.readCompletion
      { fifo.readQueue with
        called := if iter.last then fifo.readQueue.called ++ [iter.func]
          else fifo.readQueue.called } fifo.counter fifo.readCompletion :=
    ⟨⟨inv.flow.call iter.toPiece, inv.issued, inv.counted, inv.ids, inv.sent,
      inv.newest, inv.behind, inv.back⟩, settled, busy, inserting, submit,
      ⟨rest, front⟩, rfl, rfl, rfl⟩
  unfold insertReadDoneNext
  rw [front]
  dsimp only
  by_cases last : iter.last = true
  · rw [if_pos last] at calling ⊢
    obtain ⟨writeQueue, readQueue, counter, result, write, call⟩ :=
      calls_ok writeStable (ReadCall.stable unit units) calls
        { fifo with readQueue := { fifo.readQueue with
          called := fifo.readQueue.called ++ [iter.func] } } write calling
    obtain ⟨queue, counter, leaves, next⟩ := @leaveRead_ok param returned _
      { fifo with
        writeQueue := writeQueue, readQueue := readQueue, counter := counter }
      iter unit units _ call done
    refine ⟨writeQueue, queue, counter, ?_, write, next⟩
    rw [result]
    exact leaves
  · rw [if_neg last] at calling ⊢
    obtain ⟨queue, counter, leaves, next⟩ :=
      @leaveRead_ok param returned _ fifo iter unit units _ calling done
    exact ⟨fifo.writeQueue, queue, counter, leaves, write, next⟩

omit unit units in
theorem eraseP_ids {first count : Nat}
    (ids : completion.map ReadEntry.id = List.range' first (count + 1)) :
    (completion.eraseP fun entry => entry.id = first).map ReadEntry.id =
      List.range' (first + 1) count := by
  rw [List.range'_succ] at ids
  cases completion with
  | nil => cases ids
  | cons entry rest =>
      rw [List.map_cons, List.cons.injEq] at ids
      rw [List.eraseP_cons_of_pos (by simpa using ids.1)]
      exact ids.2

theorem insertReadDoneMerge_ok {writes : Queue → Prop}
    (writeStable : WriteStable param writes) (calls : List DMARequest)
    {comp : ReadEntry}
    (inv : ReadInv param [] returned fifo.readQueue fifo.counter)
    (settled : Settled param param.rqSize fifo.readQueue.transferPending
      fifo.readQueue)
    (busy : fifo.readQueue.insertPending = true)
    (inserting : fifo.readQueue.insertDone = none)
    (submit : fifo.readQueue.submitCompletion = none)
    (done : fifo.readQueue.finished.length < fifo.readQueue.transferred)
    (front : comp.id = fifo.readQueue.finished.length)
    (ids : fifo.readCompletion.map ReadEntry.id =
      List.range' fifo.readQueue.finished.length
        (fifo.readQueue.transferred - fifo.readQueue.finished.length))
    (write : writes fifo.writeQueue) :
    ∃ writeQueue readQueue counter completion,
      insertReadDoneMerge param calls comp fifo = .ok { fifo with
        writeQueue := writeQueue, readQueue := readQueue, counter := counter
        readCompletion := completion } ∧
      writes writeQueue ∧
        ReadMid param returned readQueue counter completion := by
  have others : (fifo.readCompletion.eraseP fun entry =>
      entry.id = comp.id).map ReadEntry.id =
        List.range' (fifo.readQueue.finished.length + 1)
          (fifo.readQueue.transferred - fifo.readQueue.finished.length - 1) := by
    rw [front]
    refine eraseP_ids ?_
    rw [ids, Nat.sub_add_cancel (by omega)]
  unfold insertReadDoneMerge
  dsimp only
  split
  · obtain ⟨writeQueue, readQueue, counter, result, write, next⟩ :=
      insertReadDoneNext_ok unit units writeStable calls inv settled busy inserting
        submit done write
    rw [result]
    refine ⟨writeQueue, readQueue, counter, _, rfl, write, next.inv, next.settled,
      next.awake, .moving next.inserting next.submit ?_⟩
    rw [next.finished, next.transferred, ← Nat.sub_sub]
    exact others
  · refine ⟨fifo.writeQueue, _, fifo.counter, _, rfl, write, ?_, settled,
      .inl busy, .submitting busy inserting rfl done others⟩
    obtain ⟨flow, issued, counted, numbers, sent, newest, behind, back⟩ := inv
    exact ⟨flow.frame, issued, counted, numbers, sent,
      newest, behind, back⟩

omit unit units in
theorem find_front {first count : Nat}
    (ids : fifo.readCompletion.map ReadEntry.id =
      List.range' first (count + 1)) :
    ∃ comp, fifo.find first = some comp ∧ comp.id = first := by
  rw [List.range'_succ] at ids
  unfold find
  cases known : fifo.readCompletion with
  | nil =>
      rw [known] at ids
      cases ids
  | cons entry rest =>
      rw [known, List.map_cons, List.cons.injEq] at ids
      exact ⟨entry, List.find?_cons_of_pos (by simpa using ids.1), ids.1⟩

omit unit units in
theorem find_none {number : Nat} {ids : List Nat}
    (same : fifo.readCompletion.map ReadEntry.id = ids)
    (outside : number ∉ ids) : fifo.find number = none := by
  unfold find
  rw [List.find?_eq_none]
  intro entry member equal
  refine outside ?_
  rw [← same, List.mem_map]
  exact ⟨entry, member, by simpa using equal⟩

theorem insertReadDone_ok {writes : Queue → Prop}
    (writeStable : WriteStable param writes) (calls : List DMARequest)
    (inv : ReadInv param [] returned fifo.readQueue fifo.counter)
    (settled : Settled param param.rqSize fifo.readQueue.transferPending
      fifo.readQueue)
    (busy : fifo.readQueue.insertPending = true)
    (inserting : fifo.readQueue.insertDone = none)
    (submit : fifo.readQueue.submitCompletion = none)
    (ids : fifo.readCompletion.map ReadEntry.id =
      List.range' fifo.readQueue.finished.length
        (fifo.readQueue.transferred - fifo.readQueue.finished.length))
    (write : writes fifo.writeQueue) :
    ∃ writeQueue readQueue counter completion,
      insertReadDone param calls fifo = .ok { fifo with
        writeQueue := writeQueue, readQueue := readQueue, counter := counter
        readCompletion := completion } ∧
      writes writeQueue ∧
        ReadMid param returned readQueue counter completion := by
  obtain ⟨iter, rest, front⟩ :=
    List.exists_cons_of_ne_nil (inv.flow.front busy)
  have number : iter.id = fifo.readQueue.finished.length := by
    have numbers := inv.ids
    rw [front, List.map_cons, List.length_cons, List.range'_succ,
      List.cons.injEq] at numbers
    exact numbers.1
  unfold insertReadDone
  rw [front]
  dsimp only
  rw [number]
  by_cases done : fifo.readQueue.finished.length < fifo.readQueue.transferred
  · obtain ⟨comp, found, same⟩ := @find_front fifo
      fifo.readQueue.finished.length
      (fifo.readQueue.transferred - fifo.readQueue.finished.length - 1)
      (by rw [ids, Nat.sub_add_cancel (by omega)])
    rw [found]
    exact insertReadDoneMerge_ok unit units writeStable calls inv settled busy
      inserting submit done same ids write
  · have out : fifo.readQueue.transferred = fifo.readQueue.finished.length :=
      Nat.le_antisymm (Nat.le_of_not_lt done) inv.behind
    rw [out, Nat.sub_self, List.range'_zero, List.map_eq_nil_iff] at ids
    rw [find_none (by rw [ids]; exact List.map_nil) (List.not_mem_nil)]
    refine ⟨_, _, _, _, rfl, write, inv, settled, .inl busy,
      .upstream busy inserting submit out ?_⟩
    rw [ids]
    rfl

/-- The end of an entry at upstream is noted, or is the second of its ends. -/
theorem saveTransfer_ok {writes : Queue → Prop}
    (writeStable : WriteStable param writes) (calls : List DMARequest)
    (inv : ReadInv param [] true fifo.readQueue fifo.counter)
    (settled : Settled param param.rqSize fifo.readQueue.transferPending
      fifo.readQueue)
    (awake : Awake fifo.readQueue.insertPending fifo.readQueue)
    (phase : ReadPhase { fifo.readQueue with
      transferred := fifo.readQueue.transferred - 1 } fifo.readCompletion)
    (any : 0 < fifo.readQueue.transferred)
    (behind : fifo.readQueue.finished.length ≤ fifo.readQueue.transferred - 1)
    (write : writes fifo.writeQueue)
    (number : iter.id + 1 = fifo.readQueue.transferred) :
    ∃ writeQueue readQueue counter completion,
      saveTransfer param calls iter fifo = .ok { fifo with
        writeQueue := writeQueue, readQueue := readQueue, counter := counter
        readCompletion := completion } ∧
      writes writeQueue ∧
        ReadMid param true readQueue counter completion := by
  have last : iter.id = fifo.readQueue.transferred - 1 := by omega
  unfold saveTransfer
  cases phase with
  | moving inserting submit ids =>
      dsimp only at inserting submit ids
      have fresh : fifo.find iter.id = none := by
        refine find_none ids ?_
        rw [List.mem_range'_1]
        omega
      rw [fresh]
      refine ⟨_, _, _, _, rfl, write, inv, settled, awake,
        .moving inserting submit ?_⟩
      rw [List.map_append, ids, List.map_singleton, last]
      have count : fifo.readQueue.transferred - fifo.readQueue.finished.length =
          fifo.readQueue.transferred - 1 - fifo.readQueue.finished.length + 1 := by
        omega
      have position : fifo.readQueue.finished.length +
          1 * (fifo.readQueue.transferred - 1 -
            fifo.readQueue.finished.length) =
          fifo.readQueue.transferred - 1 := by omega
      rw [count, List.range'_concat, position]
  | upstream pending inserting submit out ids =>
      dsimp only at pending inserting submit out ids
      have one : fifo.readQueue.transferred - fifo.readQueue.finished.length =
          1 := by omega
      have front : iter.id = fifo.readQueue.finished.length := by omega
      obtain ⟨comp, found, same⟩ := @find_front fifo
        fifo.readQueue.finished.length 0 ids
      rw [front, found]
      refine insertReadDoneMerge_ok unit units writeStable calls inv settled
        pending inserting submit (by omega) same ?_ write
      rw [ids, one]
      rfl
  | submitting pending inserting submit done ids =>
      dsimp only at pending inserting submit done ids
      have fresh : fifo.find iter.id = none := by
        refine find_none ids ?_
        rw [List.mem_range'_1]
        omega
      rw [fresh]
      refine ⟨_, _, _, _, rfl, write, inv, settled, awake,
        .submitting pending inserting submit (by omega) ?_⟩
      rw [List.map_append, ids, List.map_singleton, last]
      have count : fifo.readQueue.transferred -
            fifo.readQueue.finished.length - 1 =
          fifo.readQueue.transferred - 1 - fifo.readQueue.finished.length - 1 +
            1 := by omega
      have position : fifo.readQueue.finished.length + 1 +
          1 * (fifo.readQueue.transferred - 1 -
            fifo.readQueue.finished.length - 1) =
          fifo.readQueue.transferred - 1 := by omega
      rw [count, List.range'_concat, position]

theorem performReadTransferred_ok {writes : Queue → Prop}
    (writeStable : WriteStable param writes) (calls : List DMARequest)
    (mid : ReadMid param false fifo.readQueue fifo.counter fifo.readCompletion)
    (sent : fifo.readQueue.transferred < fifo.readQueue.issued.length)
    (write : writes fifo.writeQueue) :
    ∃ writeQueue readQueue counter completion,
      perform param (.transferDone .read calls) fifo = .ok { fifo with
        writeQueue := writeQueue, readQueue := readQueue, counter := counter
        readCompletion := completion } ∧
      writes writeQueue ∧
        ReadMid param false readQueue counter completion := by
  obtain ⟨⟨flow, issued, counted, ids, away, newest, behind, _⟩, settled, awake,
    phase⟩ := mid
  have working : fifo.readQueue.transferPending = true := by
    by_contra none
    rw [if_neg (fun both => none both.1)] at away
    omega
  rw [if_pos ⟨working, rfl⟩] at away
  obtain ⟨iter, rest, there, number⟩ := newest working
  have returned : ReadInv param [] true { fifo.readQueue with
      transferred := fifo.readQueue.transferred + 1 } fifo.counter := by
    refine ⟨flow.frame, issued, counted, ids, ?_, newest,
      Nat.le_succ_of_le behind, fun _ => working⟩
    rw [if_neg (by simp)]
    exact away
  obtain ⟨writeQueue, readQueue, counter, completion, result, write, mid⟩ :=
    @saveTransfer_ok param { fifo with readQueue := { fifo.readQueue with
      transferred := fifo.readQueue.transferred + 1 } } iter unit units writes
      writeStable calls returned settled awake phase (Nat.succ_pos _) behind write
      (by dsimp only; omega)
  obtain ⟨⟨flow', issued', counted', ids', sent', newest', behind', back'⟩,
    settled', awake', phase'⟩ := mid
  have pending := back' rfl
  rw [pending] at flow'
  have ready : ReadInv param [] false { readQueue with
      waitQueue := readQueue.waitQueue.tail, transferPending := false }
      counter := by
    refine ⟨flow'.ready, issued', counted', ids', ?_, nofun, behind', nofun⟩
    rw [if_neg (by simp)] at sent' ⊢
    exact sent'
  obtain ⟨queue, counter, transfers, inv, settled, grows⟩ :=
    @nextTransferRead_ok param [] false { fifo with
      writeQueue := writeQueue
      readQueue := { readQueue with
        waitQueue := readQueue.waitQueue.tail, transferPending := false }
      counter := counter, readCompletion := completion } unit units ready
  refine ⟨writeQueue, queue, counter, completion, ?_, write, inv, settled, ?_, ?_⟩
  · unfold perform transferReadDone
    dsimp only
    rw [there]
    change (saveTransfer param calls iter _ >>= _) = _
    rw [← there, result]
    exact transfers
  · rw [grows.pending]
    exact grows.grows.awake awake'
  · exact phase'.grown ⟨⟨grows.grows.more, grows.grows.submit⟩, grows.pending,
      grows.inserting, grows.finished, grows.transferred⟩

theorem performReadInserted_ok {writes : Queue → Prop}
    (writeStable : WriteStable param writes) (calls : List DMARequest)
    (mid : ReadMid param false fifo.readQueue fifo.counter fifo.readCompletion)
    (due : fifo.readQueue.insertDone.isSome = true)
    (write : writes fifo.writeQueue) :
    ∃ writeQueue readQueue counter completion,
      perform param (.insertDone .read calls) fifo = .ok { fifo with
        writeQueue := writeQueue, readQueue := readQueue, counter := counter
        readCompletion := completion } ∧
      writes writeQueue ∧
        ReadMid param false readQueue counter completion := by
  obtain ⟨⟨flow, issued, counted, ids, sent, newest, behind, back⟩, settled, _,
    phase⟩ := mid
  cases phase with
  | moving inserting submit noted =>
      have busy : fifo.readQueue.insertPending = true := inserting.trans due
      exact @insertReadDone_ok param false { fifo with readQueue :=
        { fifo.readQueue with insertDone := none } } unit units writes
        writeStable calls
        ⟨flow.frame, issued, counted, ids, sent,
          newest, behind, back⟩ settled busy rfl submit noted write
  | upstream _ inserting =>
      rw [inserting] at due
      cases due
  | submitting _ inserting =>
      rw [inserting] at due
      cases due

/-- A read is finished later than its ends. -/
theorem performReadSubmitted_ok {writes : Queue → Prop}
    (writeStable : WriteStable param writes) (calls : List DMARequest)
    (mid : ReadMid param false fifo.readQueue fifo.counter fifo.readCompletion)
    (due : fifo.readQueue.submitCompletion.isSome = true)
    (write : writes fifo.writeQueue) :
    ∃ writeQueue readQueue counter completion,
      perform param (.submitCompletion .read calls) fifo = .ok { fifo with
        writeQueue := writeQueue, readQueue := readQueue, counter := counter
        readCompletion := completion } ∧
      writes writeQueue ∧
        ReadMid param false readQueue counter completion := by
  obtain ⟨⟨flow, issued, counted, ids, sent, newest, behind, back⟩, settled, _,
    phase⟩ := mid
  cases phase with
  | moving _ submit =>
      rw [submit] at due
      cases due
  | upstream _ _ submit =>
      rw [submit] at due
      cases due
  | submitting busy inserting _ done noted =>
      obtain ⟨writeQueue, readQueue, counter, result, write, next⟩ :=
        @insertReadDoneNext_ok param false { fifo with readQueue :=
          { fifo.readQueue with submitCompletion := none } } unit units writes
          writeStable calls
          ⟨flow.frame, issued, counted, ids, sent,
            newest, behind, back⟩ settled busy inserting rfl done write
      refine ⟨writeQueue, readQueue, counter, fifo.readCompletion, result, write,
        next.inv, next.settled, next.awake, .moving next.inserting next.submit ?_⟩
      rw [next.finished, next.transferred, ← Nat.sub_sub]
      exact noted

omit units in
theorem performReadBegun_ok
    (mid : ReadMid param false fifo.readQueue fifo.counter fifo.readCompletion)
    (due : fifo.readQueue.beginTransfer.isSome = true) :
    ∃ queue, perform param (.beginTransfer .read) fifo =
        .ok { fifo with readQueue := queue } ∧
      ReadMid param false queue fifo.counter fifo.readCompletion := by
  obtain ⟨⟨flow, issued, counted, ids, sent, newest, behind, back⟩, settled, _,
    phase⟩ := mid
  have any := flow.waits due
  have quiet : ReadInv param [] false
      { fifo.readQueue with beginTransfer := none } fifo.counter :=
    ⟨flow.quiet, issued, counted, ids, sent, newest, behind, back⟩
  cases busy : fifo.readQueue.insertPending with
  | true =>
      obtain ⟨iter, others, front⟩ := List.exists_cons_of_ne_nil (flow.front busy)
      refine ⟨{ fifo.readQueue with beginTransfer := none }, ?_, quiet, settled,
        .inl busy, ?_⟩
      · unfold perform insertRead
        dsimp only
        rw [front, busy]
        rfl
      · cases phase with
        | moving inserting submit noted => exact .moving inserting submit noted
        | upstream pending inserting submit out noted =>
            exact .upstream pending inserting submit out noted
        | submitting pending inserting submit done noted =>
            exact .submitting pending inserting submit done noted
  | false =>
      have front : fifo.readQueue.transferQueue ≠ [] :=
        List.length_pos_iff.mp (Nat.zero_lt_of_lt any)
      obtain ⟨queue, result, inv, pending, inserts, submit', finished,
          transferred, settles⟩ :=
        @insertRead_ok param false { fifo with readQueue :=
          { fifo.readQueue with beginTransfer := none } } unit quiet front busy rfl
      refine ⟨queue, result, inv, settles settled, .inl pending, ?_⟩
      cases phase with
      | moving inserting submit noted =>
          refine .moving (pending.trans inserts.symm) (submit'.trans submit) ?_
          rw [finished, transferred]
          exact noted
      | upstream working =>
          rw [busy] at working
          cases working
      | submitting working =>
          rw [busy] at working
          cases working

end Steps

end FIFO

end SimpleSSD.Util
