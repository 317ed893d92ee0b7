import Mathlib.Algebra.Ring.Nat
import Mathlib.Tactic.Common
import SimpleSSD.Data.Tiling

namespace SimpleSSD.ICL.Interface

/-! What the class `ICL` passes to its cache. -/

structure Request where
  reqID : UInt64
  reqSubID : UInt64
  offset : UInt64
  length : UInt64
  slpn : UInt64
  nlp : UInt64
  deriving DecidableEq, Repr

/-- The first byte of a request that stays in its first page. -/
def Request.first (logicalPageSize : Nat) (req : Request) : Nat :=
  req.slpn.toNat * logicalPageSize + req.offset.toNat

def Request.Has (logicalPageSize : Nat) (req : Request) (byte : Nat) : Prop :=
  req.first logicalPageSize ≤ byte ∧
    byte < req.first logicalPageSize + req.length.toNat

/-- The loop of `read` and `write` from iteration `i` on, with the iterations
that are left and the values of `reqRemain` and `reqInternal.offset`. -/
def requestsFrom (logicalPageSize : UInt32) (req : Request) :
    (count i : Nat) → (reqRemain offset : UInt64) → List Request
  | 0, _, _, _ => []
  | count + 1, i, reqRemain, offset =>
      let room := logicalPageSize.toUInt64 - offset
      let length := if reqRemain > room then room else reqRemain
      { reqID := req.reqID
        reqSubID := i.toUInt64 + 1
        offset := offset
        length := length
        slpn := req.slpn + i.toUInt64
        nlp := 0 } ::
        requestsFrom logicalPageSize req count (i + 1) (reqRemain - length) 0

def read (logicalPageSize : UInt32) (req : Request) : List Request :=
  requestsFrom logicalPageSize req req.nlp.toNat 0 req.length req.offset

def write (logicalPageSize : UInt32) (req : Request) : List Request :=
  requestsFrom logicalPageSize req req.nlp.toNat 0 req.length req.offset

/-- The requests have the bytes from `first` to `last` between them, each byte
once and no other, and none crosses the end of a page. -/
structure Tiles (logicalPageSize : Nat) (requests : List Request)
    (first last : Nat) : Prop where
  covered : ∀ byte, (∃ req ∈ requests, req.Has logicalPageSize byte) ↔
    first ≤ byte ∧ byte < last
  disjoint : requests.Pairwise fun one other =>
    ∀ byte, one.Has logicalPageSize byte → ¬ other.Has logicalPageSize byte
  inside : ∀ req ∈ requests,
    req.offset.toNat + req.length.toNat ≤ logicalPageSize

namespace Tiles

theorem nil {logicalPageSize first : Nat} :
    Tiles logicalPageSize [] first first where
  covered byte := by
    simp only [List.not_mem_nil, false_and, exists_false, false_iff]
    omega
  disjoint := .nil
  inside := by simp

/-- A request before others; where these have no bytes it does not matter where
they stand. -/
theorem cons {logicalPageSize middle last last' : Nat} {req : Request}
    {requests : List Request}
    (h : Tiles logicalPageSize requests middle last')
    (hsame : ∀ byte, middle ≤ byte ∧ byte < last' ↔
      req.first logicalPageSize + req.length.toNat ≤ byte ∧ byte < last)
    (hle : req.first logicalPageSize + req.length.toNat ≤ last)
    (hinside : req.offset.toNat + req.length.toNat ≤ logicalPageSize) :
    Tiles logicalPageSize (req :: requests) (req.first logicalPageSize)
      last where
  covered byte := by
    simp only [List.mem_cons, exists_eq_or_imp]
    rw [h.covered, hsame]
    unfold Request.Has
    omega
  disjoint := by
    rw [List.pairwise_cons]
    refine ⟨fun other hother byte hone hhas => ?_, h.disjoint⟩
    have hafter := (hsame byte).mp ((h.covered byte).mp ⟨other, hother, hhas⟩)
    unfold Request.Has at hone
    omega
  inside := by
    intro other hother
    rw [List.mem_cons] at hother
    obtain rfl | hother := hother
    · exact hinside
    · exact h.inside other hother

theorem last_unique {logicalPageSize first last last' : Nat}
    {requests : List Request} (h : Tiles logicalPageSize requests first last)
    (h' : Tiles logicalPageSize requests first last') (hlt : first < last') :
    last' ≤ last := by
  have hlast := (h'.covered (last' - 1)).mpr (by omega)
  have hlast' := (h.covered (last' - 1)).mp hlast
  omega

end Tiles

theorem piece_toNat {logicalPageSize : UInt32} {reqRemain offset : UInt64}
    (hoffset : offset.toNat ≤ logicalPageSize.toNat) :
    (if reqRemain > logicalPageSize.toUInt64 - offset then
        logicalPageSize.toUInt64 - offset else reqRemain).toNat =
      min reqRemain.toNat (logicalPageSize.toNat - offset.toNat) := by
  have hroom : (logicalPageSize.toUInt64 - offset).toNat =
      logicalPageSize.toNat - offset.toNat := by
    rw [UInt64.toNat_sub_of_le, UInt32.toNat_toUInt64]
    rw [UInt64.le_iff_toNat_le, UInt32.toNat_toUInt64]
    exact hoffset
  split
  next hgt =>
    rw [gt_iff_lt, UInt64.lt_iff_toNat_lt, hroom] at hgt
    omega
  next hle =>
    rw [gt_iff_lt, UInt64.lt_iff_toNat_lt, hroom] at hle
    omega

/-- The iterations that are left have the bytes that remain, as far as their
pages reach. -/
theorem requestsFrom_tiles {logicalPageSize : UInt32} {req : Request}
    {count i : Nat} {reqRemain offset : UInt64}
    (hoffset : offset.toNat ≤ logicalPageSize.toNat)
    (hpages : req.slpn.toNat + i + count ≤ 2 ^ 64) :
    Tiles logicalPageSize.toNat
      (requestsFrom logicalPageSize req count i reqRemain offset)
      ((req.slpn.toNat + i) * logicalPageSize.toNat + offset.toNat)
      ((req.slpn.toNat + i) * logicalPageSize.toNat + offset.toNat +
        min reqRemain.toNat (count * logicalPageSize.toNat - offset.toNat)) := by
  induction count generalizing i reqRemain offset with
  | zero =>
      rw [Nat.zero_mul, Nat.zero_sub, Nat.min_zero]
      exact .nil
  | succ count ih =>
      have hslpn : (req.slpn + i.toUInt64).toNat = req.slpn.toNat + i := by
        rw [UInt64.toNat_add, UInt64.toNat_ofNat']
        omega
      unfold requestsFrom
      dsimp only
      have hmin := @piece_toNat logicalPageSize reqRemain offset hoffset
      generalize (if reqRemain > logicalPageSize.toUInt64 - offset then
        logicalPageSize.toUInt64 - offset else reqRemain) = length at hmin ⊢
      have hremain : (reqRemain - length).toNat =
          reqRemain.toNat - length.toNat := by
        apply UInt64.toNat_sub_of_le
        rw [UInt64.le_iff_toNat_le]
        omega
      have hrest := @ih (i + 1) (reqRemain - length) 0 (Nat.zero_le _) (by omega)
      have hnext : (req.slpn.toNat + (i + 1)) * logicalPageSize.toNat =
          (req.slpn.toNat + i) * logicalPageSize.toNat +
            logicalPageSize.toNat := by
        rw [← Nat.add_assoc, Nat.add_one_mul]
      have hpages : (count + 1) * logicalPageSize.toNat =
          count * logicalPageSize.toNat + logicalPageSize.toNat :=
        Nat.add_one_mul _ _
      have hzero : (0 : UInt64).toNat = 0 := rfl
      rw [hremain, hnext, hzero] at hrest
      rw [hpages, ← hslpn]
      rw [← hslpn] at hrest
      apply Tiles.cons hrest
      · intro byte
        dsimp only [Request.first]
        omega
      · dsimp only [Request.first]
        omega
      · dsimp only
        omega

def BytesFrom (logicalPageSize : Nat) :
    (start : Nat) → (requests : List Request) → (finish : Nat) → Prop :=
  Data.EndToEnd (Request.first logicalPageSize) fun req => req.length.toNat

theorem requestsFrom_bytes {logicalPageSize : UInt32} {req : Request}
    {count i : Nat} {reqRemain offset : UInt64}
    (hoffset : offset.toNat < logicalPageSize.toNat)
    (hsome : 0 < reqRemain.toNat)
    (henough : offset.toNat + reqRemain.toNat ≤ count * logicalPageSize.toNat)
    (hneeded : count * logicalPageSize.toNat <
      offset.toNat + reqRemain.toNat + logicalPageSize.toNat)
    (hpages : req.slpn.toNat + i + count ≤ 2 ^ 64) :
    BytesFrom logicalPageSize.toNat
        ((req.slpn.toNat + i) * logicalPageSize.toNat + offset.toNat)
        (requestsFrom logicalPageSize req count i reqRemain offset)
        ((req.slpn.toNat + i) * logicalPageSize.toNat + offset.toNat +
          reqRemain.toNat) ∧
      ∀ sub ∈ requestsFrom logicalPageSize req count i reqRemain offset,
        sub.offset.toNat + sub.length.toNat ≤ logicalPageSize.toNat := by
  induction count generalizing i reqRemain offset with
  | zero => omega
  | succ count ih =>
      have hslpn : (req.slpn + i.toUInt64).toNat = req.slpn.toNat + i := by
        rw [UInt64.toNat_add, UInt64.toNat_ofNat']
        omega
      have hcount : (count + 1) * logicalPageSize.toNat =
          count * logicalPageSize.toNat + logicalPageSize.toNat :=
        Nat.add_one_mul _ _
      have hnext : (req.slpn.toNat + (i + 1)) * logicalPageSize.toNat =
          (req.slpn.toNat + i) * logicalPageSize.toNat +
            logicalPageSize.toNat := by
        rw [← Nat.add_assoc, Nat.add_one_mul]
      unfold requestsFrom
      dsimp only
      have hmin := @piece_toNat logicalPageSize reqRemain offset
        (Nat.le_of_lt hoffset)
      generalize (if reqRemain > logicalPageSize.toUInt64 - offset then
        logicalPageSize.toUInt64 - offset else reqRemain) = length at hmin ⊢
      have hremain : (reqRemain - length).toNat =
          reqRemain.toNat - length.toNat := by
        apply UInt64.toNat_sub_of_le
        rw [UInt64.le_iff_toNat_le]
        omega
      have hzero : (0 : UInt64).toNat = 0 := rfl
      have hhere : Request.first logicalPageSize.toNat
          { reqID := req.reqID, reqSubID := i.toUInt64 + 1, offset := offset
            length := length, slpn := req.slpn + i.toUInt64, nlp := 0 } =
          (req.slpn.toNat + i) * logicalPageSize.toNat + offset.toNat := by
        unfold Request.first
        rw [hslpn]
      rw [hcount] at henough hneeded
      have hlength : 0 < length.toNat := by omega
      rw [← hhere]
      obtain rfl | hmore := Nat.eq_zero_or_pos count
      · -- The last page has all that remains.
        have hall : reqRemain.toNat = length.toNat := by omega
        refine ⟨.cons hlength ?_, ?_⟩
        · rw [hall]
          exact .nil _
        · intro sub hsub
          rw [List.mem_singleton.mp hsub]
          dsimp only
          omega
      · have hone := Nat.mul_le_mul_right logicalPageSize.toNat hmore
        rw [Nat.one_mul] at hone
        have hfull : length.toNat =
            logicalPageSize.toNat - offset.toNat := by omega
        obtain ⟨hrest, hinside⟩ := @ih (i + 1) (reqRemain - length) 0
          (by omega) (by omega) (by omega) (by omega) (by omega)
        rw [hremain, hnext, hzero] at hrest
        refine ⟨.cons hlength ?_, ?_⟩
        · have hstart : (req.slpn.toNat + i) * logicalPageSize.toNat +
              offset.toNat + length.toNat =
                (req.slpn.toNat + i) * logicalPageSize.toNat +
                  logicalPageSize.toNat + 0 := by omega
          have hfinish : (req.slpn.toNat + i) * logicalPageSize.toNat +
              offset.toNat + reqRemain.toNat =
                (req.slpn.toNat + i) * logicalPageSize.toNat +
                  logicalPageSize.toNat + 0 +
                    (reqRemain.toNat - length.toNat) := by omega
          rw [hhere, hstart, hfinish]
          exact hrest
        · intro sub hsub
          obtain rfl | hsub := List.mem_cons.mp hsub
          · dsimp only
            omega
          · exact hinside sub hsub

end SimpleSSD.ICL.Interface
