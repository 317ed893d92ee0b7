import SimpleSSD.Util.FIFO

namespace SimpleSSD.Util

/-! The pieces that requests are cut into. -/

def DMARequest.advance (req : DMARequest) (size : UInt64) : DMARequest :=
  { req with
    addr := req.addr + size
    size := req.size - size
    buffer := req.buffer.map (· + size) }

/-- The pieces are those of the requests, in their order: none is empty, those
of one request lie one behind the other from its address and its buffer on, and
the one with the last of its bytes is marked. -/
def Tiles : (requests : List DMARequest) → (pieces : List Piece) → Prop
  | [], [] => True
  | req :: requests, piece :: pieces =>
      (piece.addr = req.addr ∧ piece.buffer = req.buffer ∧
        piece.func = req.func ∧ piece.size ≠ 0) ∧
      if piece.last then piece.size = req.size ∧ Tiles requests pieces
      else piece.size < req.size ∧
        Tiles (req.advance piece.size :: requests) pieces
  | _, _ => False

def DMARequest.whole (req : DMARequest) : Piece where
  last := true
  addr := req.addr
  size := req.size
  buffer := req.buffer
  func := req.func

def Piece.cut (piece : Piece) (unit : UInt64) : Piece × Piece :=
  ({ piece with last := false, size := unit },
    { piece with
      last := true
      addr := piece.addr + unit
      size := piece.size - unit
      buffer := piece.buffer.map (· + unit) })

def lastFuncs (pieces : List Piece) : List Nat :=
  (pieces.filter Piece.last).map Piece.func

theorem lastFuncs_append (pieces others : List Piece) :
    lastFuncs (pieces ++ others) = lastFuncs pieces ++ lastFuncs others := by
  unfold lastFuncs
  rw [List.filter_append, List.map_append]

namespace Tiles

variable {requests : List DMARequest} {pieces others : List Piece}

theorem append_request (tiles : Tiles requests pieces) {req : DMARequest}
    (some : req.size ≠ 0) :
    Tiles (requests ++ [req]) (pieces ++ [req.whole]) := by
  induction pieces generalizing requests with
  | nil =>
      cases requests with
      | nil =>
          simp only [List.nil_append, Tiles, DMARequest.whole, if_true, and_true,
            true_and]
          exact some
      | cons other rest => exact tiles.elim
  | cons piece pieces induction =>
      cases requests with
      | nil => exact tiles.elim
      | cons other rest =>
          obtain ⟨own, later⟩ := tiles
          rw [List.cons_append, List.cons_append, Tiles]
          refine ⟨own, ?_⟩
          split at later
          · next last =>
              rw [if_pos last]
              exact ⟨later.1, induction later.2⟩
          · next more =>
              rw [if_neg more]
              exact ⟨later.1, induction later.2⟩

theorem sub_ne_zero {size unit : UInt64} (less : unit < size) :
    size - unit ≠ 0 := by
  intro zero
  have same : size = unit := by
    rw [← UInt64.sub_add_cancel size unit, zero, UInt64.zero_add]
  exact UInt64.lt_irrefl _ (same ▸ less)

theorem cut {piece : Piece} {unit : UInt64} (last : piece.last = true)
    (some : unit ≠ 0) (less : unit < piece.size)
    (tiles : Tiles requests (pieces ++ piece :: others)) :
    Tiles requests
      (pieces ++ (piece.cut unit).1 :: (piece.cut unit).2 :: others) := by
  induction pieces generalizing requests with
  | nil =>
      cases requests with
      | nil => exact tiles.elim
      | cons req rest =>
          obtain ⟨⟨addr, buffer, func, _⟩, later⟩ := tiles
          rw [if_pos last] at later
          obtain ⟨size, rest⟩ := later
          rw [List.nil_append, Tiles]
          refine ⟨⟨addr, buffer, func, some⟩, ?_⟩
          rw [if_neg (by simp [Piece.cut])]
          refine ⟨size ▸ less, ?_⟩
          rw [Tiles]
          refine ⟨⟨?_, ?_, func, sub_ne_zero less⟩, ?_⟩
          · rw [Piece.cut, DMARequest.advance, addr]
          · rw [Piece.cut, DMARequest.advance, buffer]
          · rw [if_pos (by simp [Piece.cut])]
            refine ⟨?_, rest⟩
            rw [Piece.cut, DMARequest.advance, size]
  | cons first pieces induction =>
      cases requests with
      | nil => exact tiles.elim
      | cons req rest =>
          obtain ⟨own, later⟩ := tiles
          rw [List.cons_append, Tiles]
          refine ⟨own, ?_⟩
          split at later
          · next ends =>
              rw [if_pos ends]
              exact ⟨later.1, induction later.2⟩
          · next more =>
              rw [if_neg more]
              exact ⟨later.1, induction later.2⟩

/-- Every request has one last piece, and these are in order. -/
theorem lastFuncs_eq (tiles : Tiles requests pieces) :
    lastFuncs pieces = requests.map DMARequest.func := by
  induction pieces generalizing requests with
  | nil =>
      cases requests with
      | nil => rfl
      | cons req rest => exact tiles.elim
  | cons piece pieces induction =>
      cases requests with
      | nil => exact tiles.elim
      | cons req rest =>
          obtain ⟨⟨_, _, func, _⟩, later⟩ := tiles
          split at later
          · next last =>
              have rest := induction later.2
              unfold lastFuncs at rest ⊢
              rw [List.filter_cons_of_pos last, List.map_cons, rest, func,
                List.map_cons]
          · next more =>
              have rest := induction later.2
              unfold lastFuncs at rest ⊢
              rw [List.filter_cons_of_neg more, rest]
              rfl

end Tiles

end SimpleSSD.Util
