import SimpleSSD.FTL.Config
import Mathlib.Algebra.BigOperators.Group.List.Basic
import Mathlib.Logic.Function.Basic

namespace SimpleSSD.FTL

inductive BlockPoolType where
  | hot
  | cold
  | cool
  deriving DecidableEq, Repr

/-! A `Block` with one row of unit bits per page; the single bitmap that the
source keeps when `ioUnitInPage = 1` is the case of rows of width one. -/

structure Block where
  idx : Nat
  pageCount : Nat
  ioUnitInPage : Nat
  nextWritePage : Nat → Nat
  validBits : Nat → Nat → Bool
  erasedBits : Nat → Nat → Bool
  lpns : Nat → Nat → Nat
  eraseCount : Nat
  refreshedPageCount : Nat
  blockType : BlockPoolType

namespace Block

def setBit (bits : Nat → Nat → Bool) (page unit : Nat) (value : Bool) :
    Nat → Nat → Bool :=
  fun page' unit' => if page' = page ∧ unit' = unit then value
    else bits page' unit'

def make (idx pageCount ioUnitInPage eraseCount : Nat)
    (blockType : BlockPoolType) : Block where
  idx := idx
  pageCount := pageCount
  ioUnitInPage := ioUnitInPage
  nextWritePage := fun _ => 0
  validBits := fun _ _ => false
  erasedBits := fun _ _ => true
  lpns := fun _ _ => 0
  eraseCount := eraseCount
  refreshedPageCount := 0
  blockType := blockType

def getValidPageCount (block : Block) : Nat :=
  (List.range block.pageCount).countP fun page =>
    (List.range block.ioUnitInPage).any (block.validBits page)

def getValidPageCountRaw (block : Block) : Nat :=
  ((List.range block.pageCount).map fun page =>
    (List.range block.ioUnitInPage).countP (block.validBits page)).sum

def getNextWritePageIndex (block : Block) : Nat :=
  (List.range block.ioUnitInPage).foldl
    (fun largest unit =>
      if largest < block.nextWritePage unit then block.nextWritePage unit
      else largest) 0

def write (block : Block) (pageIndex lpn idx : Nat) : Except Panic Block :=
  if block.ioUnitInPage ≤ idx then
    .error .ioMapSizeMismatch
  else if block.pageCount ≤ pageIndex then
    .error .programOutOfRange
  else if block.erasedBits pageIndex idx then
    if pageIndex < block.nextWritePage idx then
      .error .writeNotSequential
    else
      .ok { block with
        erasedBits := setBit block.erasedBits pageIndex idx false
        validBits := setBit block.validBits pageIndex idx true
        lpns := fun page unit =>
          if page = pageIndex ∧ unit = idx then lpn else block.lpns page unit
        nextWritePage := Function.update block.nextWritePage idx
          (pageIndex + 1) }
  else
    .error .writeToNonErasedPage

def erase (block : Block) : Block :=
  { block with
    validBits := fun _ _ => false
    erasedBits := fun _ _ => true
    nextWritePage := fun _ => 0
    eraseCount := block.eraseCount + 1 }

def invalidate (block : Block) (pageIndex idx : Nat) : Except Panic Block :=
  if block.pageCount ≤ pageIndex then
    .error .outOfRange
  else
    .ok { block with validBits := setBit block.validBits pageIndex idx false }

/-- Every unit is in one of three states: erased from the unit's next write
index on, valid or dirty below it. -/
structure WellFormed (cfg : Config) (block : Block) : Prop where
  pageCount_eq : block.pageCount = cfg.pagesInBlock
  ioUnitInPage_eq : block.ioUnitInPage = cfg.ioUnitInPage
  nextWritePage_le : ∀ unit, block.nextWritePage unit ≤ cfg.pagesInBlock
  erased_iff : ∀ page unit,
    block.erasedBits page unit = true ↔ block.nextWritePage unit ≤ page
  valid_lt : ∀ page unit, block.validBits page unit = true →
    page < block.nextWritePage unit
  valid_unit : ∀ page unit, block.validBits page unit = true →
    unit < cfg.bitsetSize

structure Empty (block : Block) : Prop where
  nextWritePage_eq : ∀ unit, block.nextWritePage unit = 0
  valid_eq : ∀ page unit, block.validBits page unit = false

def Full (cfg : Config) (block : Block) : Prop :=
  block.getNextWritePageIndex = cfg.pagesInBlock

instance (cfg : Config) (block : Block) : Decidable (block.Full cfg) :=
  inferInstanceAs (Decidable (_ = _))

@[simp] theorem setBit_same (bits : Nat → Nat → Bool) (page unit : Nat)
    (value : Bool) : setBit bits page unit value page unit = value := by
  simp [setBit]

theorem setBit_of_ne {bits : Nat → Nat → Bool} {page unit page' unit' : Nat}
    {value : Bool} (different : ¬ (page' = page ∧ unit' = unit)) :
    setBit bits page unit value page' unit' = bits page' unit' := by
  simp only [setBit, if_neg different]

theorem setBit_false_eq_true {bits : Nat → Nat → Bool}
    {page unit page' unit' : Nat} :
    setBit bits page unit false page' unit' = true ↔
      ¬ (page' = page ∧ unit' = unit) ∧ bits page' unit' = true := by
  unfold setBit
  split <;> simp_all

theorem setBit_true_eq_true {bits : Nat → Nat → Bool}
    {page unit page' unit' : Nat} :
    setBit bits page unit true page' unit' = true ↔
      (page' = page ∧ unit' = unit) ∨ bits page' unit' = true := by
  unfold setBit
  split <;> simp_all

private theorem foldl_max_le (next : Nat → Nat) (units : List Nat)
    (start : Nat) :
    start ≤ units.foldl
        (fun largest unit => if largest < next unit then next unit
          else largest) start ∧
      ∀ unit ∈ units, next unit ≤ units.foldl
        (fun largest unit => if largest < next unit then next unit
          else largest) start := by
  induction units generalizing start with
  | nil => simp
  | cons head tail induction =>
      simp only [List.foldl_cons, List.mem_cons, forall_eq_or_imp]
      obtain ⟨start_le, tail_le⟩ := induction
        (if start < next head then next head else start)
      have largest : start ≤ (if start < next head then next head else start) ∧
          next head ≤ (if start < next head then next head else start) := by
        split <;> omega
      exact ⟨Nat.le_trans largest.1 start_le,
        Nat.le_trans largest.2 start_le, tail_le⟩

private theorem foldl_max_eq (next : Nat → Nat) (units : List Nat)
    (start : Nat) :
    units.foldl
        (fun largest unit => if largest < next unit then next unit
          else largest) start = start ∨
      ∃ unit ∈ units, units.foldl
        (fun largest unit => if largest < next unit then next unit
          else largest) start = next unit := by
  induction units generalizing start with
  | nil => simp
  | cons head tail induction =>
      simp only [List.foldl_cons]
      rcases induction (if start < next head then next head else start) with
        reached | ⟨unit, member, reached⟩
      · rw [reached]
        split
        · exact .inr ⟨head, by simp, rfl⟩
        · exact .inl rfl
      · exact .inr ⟨unit, by simp [member], reached⟩

theorem nextWritePage_le_getNextWritePageIndex (block : Block) {unit : Nat}
    (inside : unit < block.ioUnitInPage) :
    block.nextWritePage unit ≤ block.getNextWritePageIndex :=
  (foldl_max_le block.nextWritePage _ 0).2 unit (List.mem_range.mpr inside)

theorem getNextWritePageIndex_eq (block : Block) :
    block.getNextWritePageIndex = 0 ∨ ∃ unit < block.ioUnitInPage,
      block.getNextWritePageIndex = block.nextWritePage unit := by
  rcases foldl_max_eq block.nextWritePage (List.range block.ioUnitInPage) 0
    with zero | ⟨unit, member, equality⟩
  · exact .inl zero
  · exact .inr ⟨unit, List.mem_range.mp member, equality⟩

theorem WellFormed.nextWritePage_lt {cfg : Config} {block : Block}
    (wellFormed : block.WellFormed cfg) (room : ¬ block.Full cfg)
    {unit : Nat} (inside : unit < cfg.ioUnitInPage) :
    block.nextWritePage unit < cfg.pagesInBlock := by
  have below := block.nextWritePage_le_getNextWritePageIndex
    (wellFormed.ioUnitInPage_eq ▸ inside)
  have bound : block.getNextWritePageIndex ≤ cfg.pagesInBlock := by
    rcases block.getNextWritePageIndex_eq with zero | ⟨other, _, equality⟩
    · omega
    · rw [equality]
      exact wellFormed.nextWritePage_le other
  have strict : block.getNextWritePageIndex ≠ cfg.pagesInBlock := room
  omega

theorem getValidPageCount_eq_zero {cfg : Config} {block : Block}
    (wellFormed : block.WellFormed cfg)
    (none : block.getValidPageCount = 0) (page unit : Nat) :
    block.validBits page unit = false := by
  by_contra valid
  simp only [Bool.not_eq_false] at valid
  have pageInside : page < block.pageCount := by
    have := wellFormed.valid_lt page unit valid
    have := wellFormed.nextWritePage_le unit
    rw [wellFormed.pageCount_eq]
    omega
  have unitInside : unit < block.ioUnitInPage := by
    have bound := wellFormed.valid_unit page unit valid
    have positive := cfg.ioUnitInPage_pos
    rw [wellFormed.ioUnitInPage_eq]
    unfold Config.bitsetSize at bound
    split at bound <;> omega
  have empty := List.countP_eq_zero.mp none page
    (List.mem_range.mpr pageInside)
  exact empty (List.any_eq_true.mpr
    ⟨unit, List.mem_range.mpr unitInside, valid⟩)

theorem getValidPageCount_of_unset {block : Block}
    (unset : ∀ page unit, block.validBits page unit = false) :
    block.getValidPageCount = 0 := by
  apply List.countP_eq_zero.mpr
  intro page _
  simp [unset]

/-! What a successful `write` returns. -/

theorem write_ok {block updated : Block} {pageIndex lpn idx : Nat}
    (written : block.write pageIndex lpn idx = .ok updated) :
    idx < block.ioUnitInPage ∧ pageIndex < block.pageCount ∧
      block.erasedBits pageIndex idx = true ∧
      block.nextWritePage idx ≤ pageIndex ∧
      updated = { block with
        erasedBits := setBit block.erasedBits pageIndex idx false
        validBits := setBit block.validBits pageIndex idx true
        lpns := fun page unit =>
          if page = pageIndex ∧ unit = idx then lpn else block.lpns page unit
        nextWritePage := Function.update block.nextWritePage idx
          (pageIndex + 1) } := by
  unfold write at written
  split at written
  · cases written
  · split at written
    · cases written
    · split at written
      · split at written
        · cases written
        · cases written
          exact ⟨by omega, by omega, by assumption, by omega, rfl⟩
      · cases written

/-- Programming a unit at its next write index never raises a panic. -/
theorem WellFormed.write_next {cfg : Config} {block : Block}
    (wellFormed : block.WellFormed cfg) {idx : Nat}
    (unitInside : idx < cfg.ioUnitInPage)
    (room : block.nextWritePage idx < cfg.pagesInBlock) (lpn : Nat) :
    ∃ updated, block.write (block.nextWritePage idx) lpn idx = .ok updated := by
  have erased : block.erasedBits (block.nextWritePage idx) idx = true :=
    (wellFormed.erased_iff _ _).mpr (Nat.le_refl _)
  unfold write
  rw [if_neg (by rw [wellFormed.ioUnitInPage_eq]; omega),
    if_neg (by rw [wellFormed.pageCount_eq]; omega), if_pos erased,
    if_neg (Nat.lt_irrefl _)]
  exact ⟨_, rfl⟩

theorem WellFormed.write {cfg : Config} {block updated : Block}
    (wellFormed : block.WellFormed cfg) {lpn idx : Nat}
    (unitInside : idx < cfg.bitsetSize)
    (written : block.write (block.nextWritePage idx) lpn idx = .ok updated) :
    updated.WellFormed cfg := by
  obtain ⟨_, pageInside, _, _, rfl⟩ := write_ok written
  rw [wellFormed.pageCount_eq] at pageInside
  refine ⟨wellFormed.pageCount_eq, wellFormed.ioUnitInPage_eq, ?_, ?_, ?_, ?_⟩
  · intro unit
    by_cases same : unit = idx
    · subst same
      simp only [Function.update_self]
      omega
    · simpa [Function.update_of_ne same] using wellFormed.nextWritePage_le unit
  · intro page unit
    have before := wellFormed.erased_iff page unit
    by_cases same : unit = idx
    · subst same
      simp only [Function.update_self, setBit_false_eq_true, before, and_true]
      omega
    · simp only [Function.update_of_ne same, setBit_false_eq_true, before]
      tauto
  · intro page unit valid
    rcases setBit_true_eq_true.mp valid with ⟨rfl, rfl⟩ | valid
    · simp
    · have below := wellFormed.valid_lt page unit valid
      by_cases same : unit = idx
      · subst same
        simp only [Function.update_self]
        omega
      · simpa [Function.update_of_ne same] using below
  · intro page unit valid
    rcases setBit_true_eq_true.mp valid with ⟨rfl, rfl⟩ | valid
    · exact unitInside
    · exact wellFormed.valid_unit page unit valid

theorem WellFormed.clear {cfg : Config} {block : Block}
    (wellFormed : block.WellFormed cfg) (pageIndex idx : Nat) :
    Block.WellFormed cfg { block with
      validBits := setBit block.validBits pageIndex idx false } := by
  refine { wellFormed with valid_lt := ?_, valid_unit := ?_ }
  · intro page unit valid
    exact wellFormed.valid_lt page unit (setBit_false_eq_true.mp valid).2
  · intro page unit valid
    exact wellFormed.valid_unit page unit (setBit_false_eq_true.mp valid).2

theorem WellFormed.erase {cfg : Config} {block : Block}
    (wellFormed : block.WellFormed cfg) : block.erase.WellFormed cfg where
  pageCount_eq := wellFormed.pageCount_eq
  ioUnitInPage_eq := wellFormed.ioUnitInPage_eq
  nextWritePage_le := by simp [Block.erase]
  erased_iff := by simp [Block.erase]
  valid_lt := by simp [Block.erase]
  valid_unit := by simp [Block.erase]

theorem erase_empty (block : Block) : block.erase.Empty where
  nextWritePage_eq := fun _ => rfl
  valid_eq := fun _ _ => rfl

theorem make_wellFormed (cfg : Config) (idx eraseCount : Nat)
    (blockType : BlockPoolType) :
    (make idx cfg.pagesInBlock cfg.ioUnitInPage eraseCount
      blockType).WellFormed cfg where
  pageCount_eq := rfl
  ioUnitInPage_eq := rfl
  nextWritePage_le := by simp [make]
  erased_iff := by simp [make]
  valid_lt := by simp [make]
  valid_unit := by simp [make]

theorem make_empty (idx pageCount ioUnitInPage eraseCount : Nat)
    (blockType : BlockPoolType) :
    (make idx pageCount ioUnitInPage eraseCount blockType).Empty where
  nextWritePage_eq := fun _ => rfl
  valid_eq := fun _ _ => rfl

end Block

end SimpleSSD.FTL
