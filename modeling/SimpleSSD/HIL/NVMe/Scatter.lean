import SimpleSSD.Data.Tiling
import SimpleSSD.HIL.NVMe.PRPList

namespace SimpleSSD.HIL.NVMe

open Data (EndToEnd)

/-! Reads and writes through a PRP list or an SGL.  `PRPList` and `SGL` have the
same loops but for the chunks that an SGL ignores. -/

structure Chunk where
  addr : Nat
  length : Nat
  ignore : Bool
  deriving DecidableEq, Repr

def Region.chunk (prp : Region) : Chunk where
  addr := prp.addr
  length := prp.size
  ignore := false

/-- `dmaRead` and `dmaWrite` of the interface. -/
inductive DMAOperation where
  | dmaRead
  | dmaWrite
  deriving DecidableEq, Repr

/-- A call of the interface; `buffer` is none for a null pointer. -/
structure DMARequest where
  operation : DMAOperation
  addr : Nat
  size : Nat
  buffer : Option Nat
  deriving DecidableEq, Repr

section Loop

variable (operation : DMAOperation) (offset length : Nat) (buffer : Option Nat)

/-- The loop once it has begun, with `totalRead` bytes before it. -/
def continueAt : (chunks : List Chunk) → (totalRead : Nat) → List DMARequest
  | [], _ => []
  | iter :: rest, totalRead =>
      let read := min iter.length (length - totalRead)
      let issued :=
        if iter.ignore then []
        else [{ operation := operation, addr := iter.addr, size := read
                buffer := buffer.map (· + totalRead) }]
      if totalRead + read = length then issued
      else issued ++ continueAt rest (totalRead + read)

/-- The loop until it begins.  There is no test for the end when it does. -/
def beginAt : (chunks : List Chunk) → (currentOffset : Nat) → List DMARequest
  | [], _ => []
  | iter :: rest, currentOffset =>
      if offset < currentOffset + iter.length then
        let skipped := offset - currentOffset
        let read := min (iter.length - skipped) length
        let issued :=
          if iter.ignore then []
          else [{ operation := operation, addr := iter.addr + skipped
                  size := read, buffer := buffer }]
        issued ++ continueAt operation length buffer rest read
      else beginAt rest (currentOffset + iter.length)

end Loop

/-- A `PRPList` or an `SGL`. -/
inductive ScatterList where
  | prpList (prps : List Region)
  | sgl (chunks : List Chunk)
  deriving DecidableEq, Repr

def ScatterList.chunks : ScatterList → List Chunk
  | .prpList prps => prps.map Region.chunk
  | .sgl chunks => chunks

/-- The requests of `read` and `write`. -/
def ScatterList.issue (list : ScatterList) (operation : DMAOperation)
    (offset length : Nat) (buffer : Option Nat) : List DMARequest :=
  beginAt operation offset length buffer list.chunks 0

/-! The handler of the requests. -/

/-- A `DMAContext`, none once it is deleted, and the calls of its function. -/
structure DMAProgress where
  counter : Option Nat
  calls : Nat
  deriving DecidableEq, Repr

def commonDMAHandler (progress : DMAProgress) : Option DMAProgress :=
  match progress.counter with
  | none => none
  | some counter =>
      if counter - 1 = 0 then
        some { counter := none, calls := progress.calls + 1 }
      else some { progress with counter := some (counter - 1) }

/-- After the loop: `counter` has one for each call, or the handler runs. -/
def afterLoop (requests : List DMARequest) : Option DMAProgress :=
  if requests.length = 0 then commonDMAHandler { counter := some 1, calls := 0 }
  else some { counter := some requests.length, calls := 0 }

/-- The requests that the interface takes; it ignores those of no bytes. -/
def accepted (requests : List DMARequest) : List DMARequest :=
  requests.filter fun request => request.size ≠ 0

def callBack (progress : Option DMAProgress) (done : List DMARequest) :
    Option DMAProgress :=
  done.foldl (fun progress _ => progress.bind commonDMAHandler) progress

/-! What the requests should be. -/

/-- The part of a chunk that is in the range; `first` counts from the start of
the list. -/
structure Piece where
  addr : Nat
  first : Nat
  size : Nat
  ignore : Bool
  deriving DecidableEq, Repr

def pieces (offset length : Nat) : (chunks : List Chunk) → (start : Nat) →
    List Piece
  | [], _ => []
  | chunk :: rest, start =>
      let first := max start offset
      let last := min (start + chunk.length) (offset + length)
      let later := pieces offset length rest (start + chunk.length)
      if first < last then
        { addr := chunk.addr + (first - start), first := first
          size := last - first, ignore := chunk.ignore } :: later
      else later

def Piece.request (operation : DMAOperation) (offset : Nat)
    (buffer : Option Nat) (piece : Piece) : DMARequest where
  operation := operation
  addr := piece.addr
  size := piece.size
  buffer := buffer.map (· + (piece.first - offset))

def requestsOf (operation : DMAOperation) (offset : Nat) (buffer : Option Nat)
    (pieces : List Piece) : List DMARequest :=
  (pieces.filter fun piece => !piece.ignore).map
    (Piece.request operation offset buffer)

/-- The pieces lie end to end from the start of the range to its end, each has
its request, and the handler runs once however the interface calls back. -/
structure Transfers (operation : DMAOperation) (chunks : List Chunk)
    (offset length : Nat) (buffer : Option Nat)
    (requests : List DMARequest) : Prop where
  tiled : EndToEnd Piece.first Piece.size offset
    (pieces offset length chunks 0) (offset + length)
  exact : requests =
    requestsOf operation offset buffer (pieces offset length chunks 0)
  nonempty : ∀ request ∈ requests, 0 < request.size
  once : ∀ done, done.Perm (accepted requests) →
    callBack (afterLoop requests) done = some { counter := none, calls := 1 }

/-- The range goes on behind the chunk that it begins in, or no chunk that
counts comes next. -/
def GoesOn (offset length : Nat) : (chunks : List Chunk) → (start : Nat) → Prop
  | [], _ => True
  | chunk :: rest, start =>
      if offset < start + chunk.length then
        start + chunk.length < offset + length ∨
          ∀ next ∈ rest.head?, next.ignore = true
      else GoesOn offset length rest (start + chunk.length)

instance (offset length : Nat) : (chunks : List Chunk) → (start : Nat) →
    Decidable (GoesOn offset length chunks start)
  | [], _ => isTrue trivial
  | chunk :: rest, start =>
      have : Decidable (GoesOn offset length rest (start + chunk.length)) :=
        instDecidableGoesOn offset length rest (start + chunk.length)
      inferInstanceAs (Decidable (ite _ _ _))

section Pieces

variable {offset length start total : Nat} {chunks : List Chunk}
  {operation : DMAOperation} {buffer : Option Nat}

theorem pieces_behind (behind : offset + length ≤ start) :
    pieces offset length chunks start = [] := by
  induction chunks generalizing start with
  | nil => rfl
  | cons chunk rest induction =>
      rw [pieces]
      rw [if_neg (by omega), induction (by omega)]

theorem pieces_tile (some : 0 < length)
    (reached : max start offset ≤ offset + length)
    (inside : offset + length ≤ start + (chunks.map Chunk.length).sum) :
    EndToEnd Piece.first Piece.size (max start offset)
      (pieces offset length chunks start) (offset + length) := by
  induction chunks generalizing start with
  | nil =>
      have all : max start offset = offset + length := by
        rw [List.map_nil, List.sum_nil] at inside
        omega
      rw [all]
      exact .nil _
  | cons chunk rest induction =>
      rw [List.map_cons, List.sum_cons] at inside
      rw [pieces]
      split
      · next here =>
          have later : EndToEnd Piece.first Piece.size
              (max start offset + (min (start + chunk.length)
                (offset + length) - max start offset))
              (pieces offset length rest (start + chunk.length))
              (offset + length) := by
            by_cases ends : offset + length ≤ start + chunk.length
            · rw [pieces_behind ends]
              have all : max start offset + (min (start + chunk.length)
                  (offset + length) - max start offset) =
                    offset + length := by omega
              rw [all]
              exact .nil _
            · have next : max start offset + (min (start + chunk.length)
                  (offset + length) - max start offset) =
                    max (start + chunk.length) offset := by omega
              rw [next]
              exact induction (by omega) (by omega)
          exact @EndToEnd.cons Piece Piece.first Piece.size
            { addr := _, first := max start offset, size := _, ignore := _ }
            _ _ (by dsimp only; omega) later
      · next outside =>
          by_cases ends : offset + length ≤ start
          · rw [pieces_behind (by omega)]
            have all : max start offset = offset + length := by omega
            rw [all]
            exact .nil _
          · have same : max start offset =
                max (start + chunk.length) offset := by omega
            rw [same]
            exact induction (by omega) (by omega)

theorem requestsOf_cons (piece : Piece) (later : List Piece) :
    requestsOf operation offset buffer (piece :: later) =
      (if piece.ignore then []
        else [piece.request operation offset buffer]) ++
          requestsOf operation offset buffer later := by
  unfold requestsOf
  cases ignored : piece.ignore <;> simp [ignored]

/-- Once begun, the loop takes the pieces of the chunks. -/
theorem continueAt_pieces (more : total < length)
    (positive : ∀ chunk ∈ chunks, 0 < chunk.length) :
    continueAt operation length buffer chunks total =
      requestsOf operation offset buffer
        (pieces offset length chunks (offset + total)) := by
  induction chunks generalizing total with
  | nil => rfl
  | cons chunk rest induction =>
      have own := positive chunk (.head _)
      have first : max (offset + total) offset = offset + total :=
        Nat.max_eq_left (Nat.le_add_right _ _)
      have size : min (offset + total + chunk.length) (offset + length) -
          (offset + total) = min chunk.length (length - total) := by omega
      have here : offset + total <
          min (offset + total + chunk.length) (offset + length) := by omega
      rw [continueAt, pieces, first, if_pos here, requestsOf_cons]
      unfold Piece.request
      dsimp only
      rw [size, Nat.sub_self, Nat.add_zero, Nat.add_sub_cancel_left]
      split
      · next ends =>
          rw [pieces_behind (by omega)]
          exact (List.append_nil _).symm
      · next continues =>
          have next : total + min chunk.length (length - total) =
              total + chunk.length := by omega
          rw [next, induction (by omega)
            (fun other member => positive other (.tail _ member)),
            Nat.add_assoc]

/-- With nothing left, the loop asks the next chunk for no bytes. -/
theorem continueAt_nothing (chunks : List Chunk) :
    continueAt operation length buffer chunks length =
      match chunks with
      | [] => []
      | next :: _ =>
          if next.ignore then []
          else [{ operation := operation, addr := next.addr, size := 0
                  buffer := buffer.map (· + length) }] := by
  cases chunks with
  | nil => rfl
  | cons next rest =>
      rw [continueAt, Nat.sub_self, Nat.min_zero, Nat.add_zero, if_pos rfl]

theorem beginAt_here {chunk : Chunk} {rest : List Chunk}
    (here : offset < start + chunk.length) :
    beginAt operation offset length buffer (chunk :: rest) start =
      (if chunk.ignore then []
        else [{ operation := operation, addr := chunk.addr + (offset - start)
                size := min (chunk.length - (offset - start)) length
                buffer := buffer }]) ++
        continueAt operation length buffer rest
          (min (chunk.length - (offset - start)) length) := by
  rw [beginAt, if_pos here]

theorem requestsOf_here {chunk : Chunk} {rest : List Chunk} (some : 0 < length)
    (before : start ≤ offset) (here : offset < start + chunk.length) :
    requestsOf operation offset buffer
        (pieces offset length (chunk :: rest) start) =
      (if chunk.ignore then []
        else [{ operation := operation, addr := chunk.addr + (offset - start)
                size := min (chunk.length - (offset - start)) length
                buffer := buffer }]) ++
        requestsOf operation offset buffer
          (pieces offset length rest (start + chunk.length)) := by
  have first : max start offset = offset := Nat.max_eq_right before
  have size : min (start + chunk.length) (offset + length) - offset =
      min (chunk.length - (offset - start)) length := by omega
  have inside : offset < min (start + chunk.length) (offset + length) := by
    omega
  have base : buffer.map (· + (offset - offset)) = buffer := by
    rw [Nat.sub_self]
    exact Option.map_id_apply
  rw [pieces, first, if_pos inside, requestsOf_cons]
  unfold Piece.request
  dsimp only
  rw [size, base]

theorem beginAt_pieces (some : 0 < length) (before : start ≤ offset)
    (positive : ∀ chunk ∈ chunks, 0 < chunk.length)
    (goesOn : GoesOn offset length chunks start) :
    beginAt operation offset length buffer chunks start =
      requestsOf operation offset buffer
        (pieces offset length chunks start) := by
  induction chunks generalizing start with
  | nil => rfl
  | cons chunk rest induction =>
      have later := fun other member => positive other (.tail chunk member)
      rw [GoesOn] at goesOn
      split at goesOn
      · next here =>
          rw [beginAt_here here, requestsOf_here some before here]
          congr 1
          by_cases further : start + chunk.length < offset + length
          · have read : min (chunk.length - (offset - start)) length =
                start + chunk.length - offset := by omega
            have next : offset + (start + chunk.length - offset) =
                start + chunk.length := by omega
            rw [read, continueAt_pieces (by omega) later, next]
          · have read : min (chunk.length - (offset - start)) length =
                length := by omega
            have last := goesOn.resolve_left further
            rw [read, continueAt_nothing, pieces_behind (by omega)]
            cases rest with
            | nil => rfl
            | cons next others =>
                dsimp only
                rw [if_pos (last next rfl)]
                rfl
      · next notYet =>
          have outside : ¬ max start offset <
              min (start + chunk.length) (offset + length) := by omega
          rw [beginAt, if_neg notYet, pieces, if_neg outside]
          exact induction (by omega) later goesOn

/-- Where it ends and a chunk comes next, a request has no bytes. -/
theorem beginAt_empty (before : start ≤ offset)
    (stops : ¬ GoesOn offset length chunks start) :
    ∃ request ∈ beginAt operation offset length buffer chunks start,
      request.size = 0 := by
  induction chunks generalizing start with
  | nil => exact absurd trivial stops
  | cons chunk rest induction =>
      rw [GoesOn] at stops
      split at stops
      · next here =>
          rw [not_or] at stops
          have read : min (chunk.length - (offset - start)) length =
              length := by omega
          rw [beginAt_here here, read, continueAt_nothing]
          cases rest with
          | nil => exact absurd (fun next nothing => nomatch nothing) stops.2
          | cons next others =>
              have counts : ¬ next.ignore = true := by
                intro ignored
                apply stops.2
                intro other same
                cases same
                exact ignored
              dsimp only
              rw [if_neg counts]
              exact ⟨_, List.mem_append_right _ (.head _), rfl⟩
      · next notYet =>
          rw [beginAt, if_neg notYet]
          exact induction (by omega) stops

end Pieces

section Handler

theorem callBack_counts {counter : Nat} (done : List DMARequest)
    (enough : done.length ≤ counter + 1) :
    callBack (some { counter := some (counter + 1), calls := 0 }) done =
      if done.length = counter + 1 then some { counter := none, calls := 1 }
      else some { counter := some (counter + 1 - done.length), calls := 0 } := by
  induction done generalizing counter with
  | nil => rfl
  | cons request rest induction =>
      rw [List.length_cons] at enough
      have first : callBack (some { counter := some (counter + 1), calls := 0 })
          (request :: rest) = callBack (commonDMAHandler
            { counter := some (counter + 1), calls := 0 }) rest := rfl
      rw [first, commonDMAHandler]
      dsimp only
      rw [Nat.add_sub_cancel, List.length_cons]
      cases counter with
      | zero =>
          have last : rest = [] := List.length_eq_zero_iff.mp (by omega)
          rw [last]
          rfl
      | succ counter =>
          rw [if_neg (Nat.succ_ne_zero counter), induction (by omega)]
          split
          · next all => rw [if_pos (by omega)]
          · next some =>
              rw [if_neg (by omega)]
              congr 3
              omega

theorem afterLoop_once {requests done : List DMARequest}
    (nonempty : ∀ request ∈ requests, 0 < request.size)
    (all : done.Perm (accepted requests)) :
    callBack (afterLoop requests) done =
      some { counter := none, calls := 1 } := by
  have taken : accepted requests = requests := by
    refine List.filter_eq_self.mpr ?_
    intro request member
    exact decide_eq_true (Nat.ne_of_gt (nonempty request member))
  have count := all.length_eq
  rw [taken] at count
  unfold afterLoop
  cases requests with
  | nil =>
      rw [List.length_eq_zero_iff.mp count]
      rfl
  | cons request rest =>
      rw [List.length_cons] at count
      rw [List.length_cons, if_neg (Nat.succ_ne_zero _),
        callBack_counts done (by omega), if_pos count]

/-- With a request that the interface ignores the function never runs. -/
theorem afterLoop_never {requests done : List DMARequest}
    (empty : ∃ request ∈ requests, request.size = 0)
    (all : done.Perm (accepted requests)) :
    ∃ left, callBack (afterLoop requests) done =
      some { counter := some (left + 1), calls := 0 } := by
  obtain ⟨request, member, none⟩ := empty
  have fewer : (accepted requests).length < requests.length := by
    refine List.length_filter_lt_length_iff_exists.mpr ⟨request, member, ?_⟩
    simp [none]
  have count := all.length_eq
  unfold afterLoop
  obtain ⟨counter, counted⟩ : ∃ counter, requests.length = counter + 1 :=
    Nat.exists_eq_succ_of_ne_zero (by omega)
  rw [counted, if_neg (Nat.succ_ne_zero counter),
    callBack_counts done (by omega), if_neg (by omega)]
  exact ⟨counter - done.length, by congr 3; omega⟩

end Handler

/-- Exactly when a read or a write of a list of chunks with bytes takes the
parts of its range, without a request for nothing, and ends once. -/
theorem scatter_transfers (list : ScatterList) (operation : DMAOperation)
    (offset length : Nat) (buffer : Option Nat)
    (positive : ∀ chunk ∈ list.chunks, 0 < chunk.length) (some : 0 < length)
    (inside : offset + length ≤ (list.chunks.map Chunk.length).sum) :
    Transfers operation list.chunks offset length buffer
        (list.issue operation offset length buffer) ↔
      GoesOn offset length list.chunks 0 := by
  constructor
  · intro transfers
    by_contra stops
    obtain ⟨request, member, none⟩ :=
      @beginAt_empty offset length 0 list.chunks operation buffer
        (Nat.zero_le _) stops
    have bytes := transfers.nonempty request member
    omega
  · intro goesOn
    have tiled := @pieces_tile offset length 0 list.chunks some
      (by omega) (by omega)
    rw [Nat.max_eq_right (Nat.zero_le offset)] at tiled
    have exact : list.issue operation offset length buffer =
        requestsOf operation offset buffer
          (pieces offset length list.chunks 0) :=
      beginAt_pieces some (Nat.zero_le _) positive goesOn
    have nonempty : ∀ request ∈ list.issue operation offset length buffer,
        0 < request.size := by
      intro request member
      rw [exact] at member
      obtain ⟨piece, kept, rfl⟩ := List.mem_map.mp member
      exact (tiled.between (List.mem_filter.mp kept).1).2.1
    exact ⟨tiled, exact, nonempty, fun done all => afterLoop_once nonempty all⟩

/-- Two pages in full. -/
theorem scatter_transfers_two_pages :
    let list := ScatterList.prpList [⟨4096, 4096⟩, ⟨16384, 4096⟩]
    Transfers .dmaRead list.chunks 0 8192 none
      (list.issue .dmaRead 0 8192 none) :=
  (scatter_transfers (.prpList [⟨4096, 4096⟩, ⟨16384, 4096⟩]) .dmaRead 0 8192
    none (by decide) (by decide) (by decide)).mpr (by decide)

/-- The first half of a page, with another page behind it: the second request is
for nothing. -/
theorem scatter_asks_for_nothing :
    let list := ScatterList.prpList [⟨4096, 4096⟩, ⟨16384, 4096⟩]
    ¬ Transfers .dmaRead list.chunks 0 2048 none
        (list.issue .dmaRead 0 2048 none) ∧
      callBack (afterLoop (list.issue .dmaRead 0 2048 none))
          [⟨.dmaRead, 4096, 2048, none⟩] =
        some { counter := some 1, calls := 0 } := by
  refine ⟨?_, by decide⟩
  intro transfers
  have some := transfers.nonempty ⟨.dmaRead, 16384, 0, none⟩ (by decide)
  exact absurd some (by decide)

theorem scatter_hangs (list : ScatterList) (operation : DMAOperation)
    (offset length : Nat) (buffer : Option Nat)
    (stops : ¬ GoesOn offset length list.chunks 0) (done : List DMARequest)
    (all : done.Perm
      (accepted (list.issue operation offset length buffer))) :
    ∃ left, callBack
        (afterLoop (list.issue operation offset length buffer)) done =
      some { counter := some (left + 1), calls := 0 } :=
  afterLoop_never (beginAt_empty (Nat.zero_le _) stops) all

end SimpleSSD.HIL.NVMe
