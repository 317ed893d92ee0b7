import SimpleSSD.Util.Pieces

namespace SimpleSSD.Util

namespace FIFO

/-! What the two queues of the FIFO have in common: entries wait, are taken into
the transfer queue one at a time, and leave it one at a time. -/

variable {param : FIFOParam} {limit size : UInt64} {pending busy : Bool}
  {leaving : List Piece} {queue : Queue} {iter entry : FIFOEntry}
  {rest : List FIFOEntry}

def unitSize (param : FIFOParam) (size : UInt64) : UInt64 :=
  if size < param.transferUnit then size
  else divCeil size param.transferUnit * param.transferUnit

theorem calcSize_eq (unit : param.transferUnit ≠ 0) (size : UInt64) :
    calcSize param size =
      .ok (unitSize param size, decide (size < param.transferUnit)) := by
  unfold calcSize unitSize
  by_cases smaller : size < param.transferUnit
  · rw [if_pos smaller, if_pos smaller, decide_eq_true smaller]
    rfl
  · rw [if_neg smaller, if_neg smaller, if_neg unit, decide_eq_false smaller]
    rfl

theorem unitSize_unit (unit : param.transferUnit ≠ 0) :
    unitSize param param.transferUnit = param.transferUnit := by
  have pos : 0 < param.transferUnit.toNat :=
    Nat.pos_of_ne_zero fun zero => unit (UInt64.toNat_inj.mp zero)
  have once : divCeil param.transferUnit param.transferUnit = 1 := by
    rw [← UInt64.toNat_inj, divCeil_toNat unit,
      Nat.div_eq_of_lt (Nat.sub_lt pos Nat.one_pos)]
    rfl
  unfold unitSize
  rw [if_neg (UInt64.lt_irrefl _), once, UInt64.one_mul]

theorem unit_lt (unit : param.transferUnit ≠ 0)
    (fits : param.transferUnit ≤ limit) (large : limit < unitSize param size) :
    param.transferUnit < size := by
  have above : param.transferUnit < unitSize param size :=
    UInt64.lt_of_le_of_lt fits large
  by_cases smaller : size < param.transferUnit
  · unfold unitSize at above
    rw [if_pos smaller] at above
    exact absurd above (UInt64.lt_asymm smaller)
  · refine UInt64.lt_of_le_of_ne (UInt64.not_lt.mp smaller) ?_
    rintro same
    rw [← same, unitSize_unit unit] at above
    exact UInt64.lt_irrefl _ above

/-- The entry taken fits into the queue, and the pieces are still those of the
requests. -/
structure Takes (param : FIFOParam) (limit : UInt64) (iter : FIFOEntry)
    (rest : List FIFOEntry) (taken : Taken) : Prop where
  size : taken.size = unitSize param taken.iter.size
  fits : unitSize param taken.iter.size ≤ limit
  whole : ∀ entry ∈ taken.rest, entry.last = true
  tiles : ∀ requests pieces,
    Tiles requests (pieces ++ (iter :: rest).map FIFOEntry.toPiece) →
      Tiles requests
        (pieces ++ (taken.iter :: taken.rest).map FIFOEntry.toPiece)

theorem takeHead_pending (unit : param.transferUnit ≠ 0)
    (there : queue.waitQueue = iter :: rest)
    (fits : unitSize param iter.size ≤ limit) :
    takeHead param limit true queue = .ok none := by
  unfold takeHead
  rw [there]
  dsimp only
  rw [calcSize_eq unit]
  simp [bind, Except.bind, pure, Except.pure, fits]

/-- Without a pending entry the head has to wait for room, or is taken. -/
theorem takeHead_idle (unit : param.transferUnit ≠ 0)
    (units : param.transferUnit ≤ limit) (capacity : queue.capacity = limit)
    (there : queue.waitQueue = iter :: rest)
    (whole : ∀ entry ∈ iter :: rest, entry.last = true) :
    (takeHead param limit false queue = .ok none ∧
      unitSize param iter.size ≤ limit ∧
        limit < queue.usage + unitSize param iter.size) ∨
    ∃ taken, takeHead param limit false queue = .ok (some taken) ∧
      Takes param limit iter rest taken := by
  have behind := fun entry member => whole entry (List.mem_cons_of_mem iter member)
  unfold takeHead
  rw [there]
  dsimp only
  rw [calcSize_eq unit]
  by_cases fits : unitSize param iter.size ≤ limit
  · by_cases full : limit < queue.usage + unitSize param iter.size
    · left
      simp [bind, Except.bind, pure, Except.pure, fits, full, capacity]
    · right
      refine ⟨⟨iter, rest, unitSize param iter.size,
        decide (iter.size < param.transferUnit)⟩, ?_, ?_⟩
      · simp [bind, Except.bind, pure, Except.pure, full, capacity,
          UInt64.not_lt.mpr fits]
      · exact ⟨rfl, fits, behind, fun _ _ => id⟩
  · right
    have large := UInt64.not_le.mp fits
    refine ⟨⟨{ iter with last := false, size := param.transferUnit },
      { iter with
        last := true
        addr := iter.addr + param.transferUnit
        size := iter.size - param.transferUnit
        buffer := iter.buffer.map (· + param.transferUnit) } :: rest,
      unitSize param param.transferUnit,
      decide (param.transferUnit < param.transferUnit)⟩, ?_, ?_⟩
    · simp [bind, Except.bind, pure, Except.pure, fits, large,
        calcSize_eq unit]
    · refine ⟨rfl, ?_, ?_, ?_⟩
      · dsimp only
        rw [unitSize_unit unit]
        exact units
      · intro entry member
        rcases List.mem_cons.mp member with rfl | later
        · rfl
        · exact behind entry later
      · intro requests pieces tiles
        exact tiles.cut (whole iter (.head _)) unit (unit_lt unit units large)

def unitSizes (param : FIFOParam) : List FIFOEntry → UInt64
  | [] => 0
  | entry :: rest => unitSize param entry.size + unitSizes param rest

theorem unitSizes_concat (entries : List FIFOEntry) :
    unitSizes param (entries ++ [entry]) =
      unitSizes param entries + unitSize param entry.size := by
  induction entries with
  | nil =>
      rw [List.nil_append, unitSizes, UInt64.add_comm]
      rfl
  | cons first rest induction =>
      rw [List.cons_append, unitSizes, induction, unitSizes, UInt64.add_assoc]

def waiting (pending : Bool) (queue : Queue) : List FIFOEntry :=
  if pending then queue.waitQueue.tail else queue.waitQueue

/-- What holds of a queue at every point.  An entry is `pending` while the first
stage works on it, and the second is `busy` with the front of the transfer
queue; the callback of what is `leaving` has been called. -/
structure Flow (param : FIFOParam) (limit : UInt64) (pending busy : Bool)
    (leaving : List Piece) (queue : Queue) : Prop where
  capacity : queue.capacity = limit
  head : pending = true → ∃ iter rest, queue.waitQueue = iter :: rest ∧
    unitSize param iter.size ≤ limit
  whole : ∀ entry ∈ waiting pending queue, entry.last = true
  usage : queue.usage = unitSizes param queue.transferQueue
  tiles : Tiles queue.requested (queue.finished ++
    (queue.transferQueue ++ waiting pending queue).map FIFOEntry.toPiece)
  called : queue.called = lastFuncs (queue.finished ++ leaving)
  waits : queue.beginTransfer.isSome = true →
    (if busy then 1 else 0) < queue.transferQueue.length
  front : busy = true → queue.transferQueue ≠ []

def Settled (param : FIFOParam) (limit : UInt64) (pending : Bool)
    (queue : Queue) : Prop :=
  pending = true ∨ queue.waitQueue = [] ∨ ∃ iter rest,
    queue.waitQueue = iter :: rest ∧ unitSize param iter.size ≤ limit ∧
      limit < queue.usage + unitSize param iter.size

/-- The second stage works, or has nothing to do, or will be called. -/
def Awake (busy : Bool) (queue : Queue) : Prop :=
  busy = true ∨ queue.transferQueue = [] ∨ queue.beginTransfer.isSome = true

namespace Flow

/-- Of a queue at rest, where the second stage is not called any more, the first
one has nothing left either. -/
theorem drained (flow : Flow param limit false false leaving queue)
    (settled : Settled param limit false queue) (awake : Awake false queue)
    (quiet : queue.beginTransfer = none) :
    queue.transferQueue = [] ∧ queue.waitQueue = [] := by
  have empty : queue.transferQueue = [] := by
    rcases awake with working | empty | called
    · cases working
    · exact empty
    · rw [quiet] at called
      cases called
  refine ⟨empty, ?_⟩
  rcases settled with working | nothing | ⟨iter, rest, there, fits, full⟩
  · cases working
  · exact nothing
  · have unused := flow.usage
    rw [empty, unitSizes] at unused
    rw [unused, UInt64.zero_add] at full
    exact absurd full (UInt64.not_lt.mpr fits)

theorem push (flow : Flow param limit pending busy leaving queue)
    {req : DMARequest} (some : req.size ≠ 0) (whole : entry.toPiece = req.whole) :
    Flow param limit pending busy leaving
      { queue with
        requested := queue.requested ++ [req]
        waitQueue := queue.waitQueue ++ [entry] } := by
  have behind : waiting pending { queue with
        requested := queue.requested ++ [req]
        waitQueue := queue.waitQueue ++ [entry] } =
      waiting pending queue ++ [entry] := by
    unfold waiting
    cases pending with
    | false => rfl
    | true =>
        obtain ⟨iter, rest, there, _⟩ := flow.head rfl
        dsimp only
        rw [there]
        rfl
  refine ⟨flow.capacity, ?_, ?_, flow.usage, ?_, flow.called, flow.waits,
    flow.front⟩
  · intro working
    obtain ⟨iter, rest, there, fits⟩ := flow.head working
    refine ⟨iter, rest ++ [entry], ?_, fits⟩
    dsimp only
    rw [there, List.cons_append]
  · rw [behind]
    intro other member
    rcases List.mem_append.mp member with old | new
    · exact flow.whole other old
    · have last := congrArg Piece.last whole
      rw [List.mem_singleton.mp new]
      exact last
  · rw [behind, ← List.append_assoc, List.map_append, List.map_singleton, whole,
      ← List.append_assoc]
    exact flow.tiles.append_request some

/-- Events, flags and what went upstream do not matter to it. -/
theorem frame (flow : Flow param limit pending busy leaving queue)
    {insertDone submitCompletion : Option UInt64}
    {insertPending transferPending : Bool} {issued : List Piece}
    {transferred : Nat} :
    Flow param limit pending busy leaving
      { queue with
        insertDone := insertDone
        submitCompletion := submitCompletion
        insertPending := insertPending
        transferPending := transferPending
        issued := issued
        transferred := transferred } :=
  ⟨flow.capacity, flow.head, flow.whole, flow.usage, flow.tiles, flow.called,
    flow.waits, flow.front⟩

theorem quiet (flow : Flow param limit pending busy leaving queue) :
    Flow param limit pending busy leaving
      { queue with beginTransfer := none } :=
  ⟨flow.capacity, flow.head, flow.whole, flow.usage, flow.tiles, flow.called,
    nofun, flow.front⟩

section Stages

variable {taken : Taken} {begin : Option UInt64} {done : Option UInt64}
  {inserts transfers : Bool} {issued : List Piece}

theorem enter (flow : Flow param limit false busy leaving queue)
    (there : queue.waitQueue = iter :: rest)
    (takes : Takes param limit iter rest taken)
    (same : entry.toPiece = taken.iter.toPiece) :
    Flow param limit true busy leaving
      { queue with
        waitQueue := entry :: taken.rest
        usage := queue.usage + taken.size
        transferQueue := queue.transferQueue ++ [entry]
        insertDone := done
        beginTransfer := begin
        insertPending := inserts
        transferPending := transfers
        issued := issued } := by
  have size : entry.size = taken.iter.size := congrArg Piece.size same
  have before : waiting false queue = iter :: rest := there
  refine ⟨flow.capacity, ?_, takes.whole, ?_, ?_, flow.called, ?_, ?_⟩
  · intro _
    exact ⟨entry, taken.rest, rfl, size ▸ takes.fits⟩
  · dsimp only
    rw [unitSizes_concat, ← flow.usage, size, takes.size]
  · have tiles := flow.tiles
    rw [before, List.map_append, ← List.append_assoc] at tiles
    have cut := takes.tiles _ _ tiles
    rw [List.map_cons, ← same] at cut
    dsimp only [waiting]
    rw [if_pos rfl, List.tail_cons, List.map_append, List.map_append,
      List.map_singleton, List.append_assoc, List.singleton_append,
      ← List.append_assoc]
    exact cut
  · intro _
    dsimp only
    rw [List.length_append, List.length_singleton]
    split
    · next working =>
        have some := List.length_pos_iff.mpr (flow.front working)
        omega
    · omega
  · intro _ empty
    exact absurd (List.append_eq_nil_iff.mp empty).2 (List.cons_ne_nil _ _)

theorem ready (flow : Flow param limit true busy leaving queue) :
    Flow param limit false busy leaving
      { queue with
        waitQueue := queue.waitQueue.tail
        insertPending := inserts
        transferPending := transfers } :=
  ⟨flow.capacity, nofun, flow.whole, flow.usage, flow.tiles, flow.called,
    flow.waits, flow.front⟩

theorem start (flow : Flow param limit pending false leaving queue)
    (there : queue.transferQueue = iter :: rest)
    (same : entry.toPiece = iter.toPiece) :
    Flow param limit pending true leaving
      { queue with
        transferQueue := entry :: rest
        insertDone := done
        beginTransfer := none
        insertPending := inserts
        transferPending := transfers
        issued := issued } := by
  have size : entry.size = iter.size := congrArg Piece.size same
  refine ⟨flow.capacity, flow.head, flow.whole, ?_, ?_, flow.called, nofun,
    fun _ => List.cons_ne_nil _ _⟩
  · have usage := flow.usage
    rw [there, unitSizes] at usage
    dsimp only
    rw [unitSizes, size]
    exact usage
  · have tiles := flow.tiles
    rw [there, List.cons_append, List.map_cons] at tiles
    dsimp only
    rw [List.cons_append, List.map_cons, same]
    exact tiles

theorem leave (flow : Flow param limit pending true [iter.toPiece] queue)
    (there : queue.transferQueue = iter :: rest) :
    Flow param limit pending false []
      { queue with
        usage := queue.usage - unitSize param iter.size
        transferQueue := rest
        finished := queue.finished ++ [iter.toPiece]
        insertPending := inserts
        transferPending := transfers } := by
  refine ⟨flow.capacity, flow.head, flow.whole, ?_, ?_, ?_, ?_, nofun⟩
  · have usage := flow.usage
    rw [there, unitSizes, UInt64.add_comm] at usage
    dsimp only
    rw [usage, UInt64.add_sub_cancel]
  · have tiles := flow.tiles
    rw [there, List.cons_append, List.map_cons] at tiles
    dsimp only
    rw [List.append_assoc]
    exact tiles
  · rw [List.append_nil]
    exact flow.called
  · intro called
    have waits := flow.waits called
    rw [there, List.length_cons, if_pos rfl] at waits
    exact Nat.lt_of_succ_lt_succ waits

/-- The callback of the front is called, if the front is the last piece. -/
theorem call (flow : Flow param limit pending busy [] queue)
    (piece : Piece) :
    Flow param limit pending busy [piece]
      { queue with
        called := if piece.last then queue.called ++ [piece.func]
          else queue.called } := by
  refine ⟨flow.capacity, flow.head, flow.whole, flow.usage, flow.tiles, ?_,
    flow.waits, flow.front⟩
  have called := flow.called
  rw [List.append_nil] at called
  dsimp only
  rw [lastFuncs_append, ← called]
  cases last : piece.last with
  | true => simp [lastFuncs, last]
  | false => simp [lastFuncs, last]

end Stages

end Flow

/-- Room only gets less while nothing leaves. -/
theorem Awake.grown {after : Queue} {more : List FIFOEntry}
    (awake : Awake busy queue)
    (grown : after.transferQueue = queue.transferQueue ++ more)
    (called : more ≠ [] ∨ queue.beginTransfer.isSome = true →
      after.beginTransfer.isSome = true) : Awake busy after := by
  rcases awake with working | empty | waits
  · exact .inl working
  · by_cases none : more = []
    · rw [empty, none] at grown
      exact .inr (.inl grown)
    · exact .inr (.inr (called (.inl none)))
  · exact .inr (.inr (called (.inr waits)))

end FIFO

end SimpleSSD.Util
