import SimpleSSD.FTL.Layout

namespace SimpleSSD.FTL.Common

open Data Util

/-! Runs of operations on a block. -/

structure Written where
  pageIndex : Nat
  idx : Nat
  lpn : Nat
  deriving DecidableEq, Repr

structure Handled where
  block : Block
  writes : List Written

inductive Op where
  | write (lpn idx tick : Nat)
  | invalidate (pageIndex idx : Nat)
  | erase
  | copy
  | move

def perform (handled : Handled) : Op → Except Fault Handled
  | .write lpn idx tick => do
      let pageIndex ← handled.block.getNextWritePageIndexAt idx
      let block ← handled.block.write pageIndex lpn idx tick
      return ⟨block, ⟨pageIndex, idx, lpn⟩ :: handled.writes⟩
  | .invalidate pageIndex idx => do
      return ⟨← handled.block.invalidate pageIndex idx, handled.writes⟩
  | .erase => do
      return ⟨← handled.block.erase, handled.writes⟩
  | .copy => do
      return ⟨← handled.block.copy, handled.writes⟩
  | .move =>
      return ⟨handled.block.move.1, handled.writes⟩

def lastWritten (writes : List Written) (page unit : Nat) : Option Nat :=
  (writes.find? fun written =>
    written.pageIndex = page ∧ written.idx = unit).map (·.lpn)

def InRange (handled : Handled) : Op → Prop
  | .write _ idx _ => ∃ next,
      handled.block.getNextWritePageIndexAt idx = .ok next ∧
        next < handled.block.pageCount.toNat
  | .invalidate pageIndex idx =>
      pageIndex < handled.block.pageCount.toNat ∧
        idx < handled.block.ioUnitInPage.toNat
  | .erase => True
  | .copy => True
  | .move => True

/-- The LPN that `getPageInfo` reports for a unit. -/
def Block.storedLPN (block : Block) (page unit : Nat) : Except Fault Nat := do
  let (lpns, _, _) ← block.getPageInfo page (Bitset.make block.ioUnitInPage)
  Block.entry lpns unit

/-- Next write index, erased bit and valid bit of a unit fit together, and a
valid unit stores what was last written to it. -/
def Handled.UnitState (handled : Handled) (page unit : Nat) : Prop :=
  ∃ next erased valid,
    handled.block.getNextWritePageIndexAt unit = .ok next ∧
    handled.block.testErased page unit = .ok erased ∧
    handled.block.testValid page unit = .ok valid ∧
    (erased = true ↔ next ≤ page) ∧
    (valid = true → erased = false ∧ ∃ lpn,
      handled.block.storedLPN page unit = .ok lpn ∧
        lastWritten handled.writes page unit = some lpn)

def Block.SameUnit (block other : Block) (page unit : Nat) : Prop :=
  other.getNextWritePageIndexAt unit = block.getNextWritePageIndexAt unit ∧
    other.testErased page unit = block.testErased page unit ∧
    other.testValid page unit = block.testValid page unit ∧
    other.storedLPN page unit = block.storedLPN page unit

def Block.erasedPages (block : Block) : Nat :=
  (List.range block.pageCount.toNat).countP fun page =>
    (block.testErased page 0).toOption == some true

structure Handled.UnitStates (count ioUnit : UInt32) (handled : Handled) :
    Prop where
  pageCount_eq : handled.block.pageCount = count
  ioUnitInPage_eq : handled.block.ioUnitInPage = ioUnit
  states : ∀ page < count.toNat, ∀ unit < ioUnit.toNat,
    handled.UnitState page unit
  copied : ∃ copy, handled.block.copy = .ok copy ∧
    copy.pageCount = count ∧ copy.ioUnitInPage = ioUnit ∧
    ∀ page < count.toNat, ∀ unit < ioUnit.toNat,
      handled.block.SameUnit copy page unit
  moved : handled.block.move.1 = handled.block
  counted : ioUnit = 1 → ∃ valid dirty,
    handled.block.getValidPageCount = .ok valid ∧
    handled.block.getDirtyPageCount = .ok dirty ∧
    valid.toNat + dirty.toNat + handled.block.erasedPages = count.toNat

section Units

variable {block : Block} {rows : FTL.Block}

theorem Block.Holds.testErased (holds : block.Holds rows) {page unit : Nat}
    (inside : page < block.pageCount.toNat)
    (below : unit < block.ioUnitInPage.toNat) :
    block.testErased page unit = .ok (rows.erasedBits page unit) := by
  have tested := Block.Holds.testUnit holds.erased page unit
  cases result : block.testErased page unit with
  | ok value =>
      obtain ⟨-, rfl⟩ := tested.of_ok result
      simp [inside]
  | error failure => exact absurd ⟨inside, below⟩ (tested.of_error result)

theorem Block.Holds.testValid (holds : block.Holds rows) {page unit : Nat}
    (inside : page < block.pageCount.toNat)
    (below : unit < block.ioUnitInPage.toNat) :
    block.testValid page unit = .ok (rows.validBits page unit) := by
  have tested := Block.Holds.testUnit holds.valid page unit
  cases result : block.testValid page unit with
  | ok value =>
      obtain ⟨-, rfl⟩ := tested.of_ok result
      simp [inside]
  | error failure => exact absurd ⟨inside, below⟩ (tested.of_error result)

theorem Block.Holds.next_ok (holds : block.Holds rows) {unit : Nat}
    (below : unit < block.ioUnitInPage.toNat) :
    block.getNextWritePageIndexAt unit = .ok (rows.nextWritePage unit) := by
  have read := holds.next_eq unit
  cases result : block.getNextWritePageIndexAt unit with
  | ok value => rw [(read.of_ok result).2]
  | error failure =>
      have outside := read.of_error result
      omega

theorem Block.Holds.storedLPN (holds : block.Holds rows) {page unit : Nat}
    (inside : page < block.pageCount.toNat)
    (below : unit < block.ioUnitInPage.toNat) :
    block.storedLPN page unit = .ok (rows.lpns page unit) := by
  have size : (Bitset.make block.ioUnitInPage).dataSize =
      block.ioUnitInPage := UInt32.toNat_inj.mp
    (Bitset.make_sized holds.units).dataSize_eq
  unfold Block.storedLPN Block.getPageInfo
  by_cases one : block.ioUnitInPage = 1
  · obtain ⟨valid, valid_eq, refines⟩ := holds.valid.single one
    have first : unit = 0 := by
      have := Block.units_eq_one.mp one
      omega
    have lpn : Block.entry ((List.range block.pageCount.toNat).map
        fun page => rows.lpns page 0) page = .ok (rows.lpns page 0) := by
      simp [Block.entry, inside]
    have map := (Bitset.make_refines holds.units).reset
    obtain ⟨full, set, -⟩ := map.set
    subst first
    rw [if_pos ⟨one, size.trans one⟩, valid_eq, holds.lpns one]
    simp only [deref_some, bind, Except.bind, refines.test inside, set, lpn]
    generalize (column rows.validBits block.pageCount.toNat)[page] = bit
    cases bit <;> rfl
  · have lines := holds.valid.several one
    have within : page < block.validBits.length := by
      rwa [lines.length_eq]
    have valid : Block.row block.validBits page =
        .ok block.validBits[page] := by
      simp [Block.row, within]
    have lpns : Block.entry ((List.range block.pageCount.toNat).map fun page =>
          (List.range block.ioUnitInPage.toNat).map (rows.lpns page)) page =
        .ok ((List.range block.ioUnitInPage.toNat).map (rows.lpns page)) := by
      simp [Block.entry, inside]
    have lpn : Block.entry ((List.range block.ioUnitInPage.toNat).map
        (rows.lpns page)) unit = .ok (rows.lpns page unit) := by
      simp [Block.entry, below]
    rw [if_neg fun both => one both.1, if_pos size, holds.rowLPNs one]
    simp only [deref_some, bind, Except.bind, valid, lpns, pure, Except.pure,
      lpn]

end Units

/-! The invariant of a run. -/

def Logged (rows : FTL.Block) (writes : List Written) : Prop :=
  ∀ page unit, rows.validBits page unit = true →
    lastWritten writes page unit = some (rows.lpns page unit)

structure Handled.Invariant (count ioUnit : UInt32) (handled : Handled) :
    Prop where
  pageCount_eq : handled.block.pageCount = count
  ioUnitInPage_eq : handled.block.ioUnitInPage = ioUnit
  rows : ∃ rows, handled.block.Holds rows ∧ Block.Sequential rows ∧
    Logged rows handled.writes

namespace Block

theorem Sequential.programmed {rows : FTL.Block} (sequential : Sequential rows)
    (lpn idx : Nat) :
    Sequential (programmed rows (rows.nextWritePage idx) lpn idx) where
  erased_iff := by
    intro page unit
    have before := sequential.erased_iff page unit
    by_cases same : unit = idx
    · subst same
      simp only [Block.programmed, Function.update_self,
        FTL.Block.setBit_false_eq_true, before, and_true]
      omega
    · simp only [Block.programmed, Function.update_of_ne same,
        FTL.Block.setBit_false_eq_true, before]
      tauto
  valid_lt := by
    intro page unit valid
    rcases FTL.Block.setBit_true_eq_true.mp valid with ⟨rfl, rfl⟩ | valid
    · simp [Block.programmed]
    · have below := sequential.valid_lt page unit valid
      by_cases same : unit = idx
      · subst same
        simp only [Block.programmed, Function.update_self]
        omega
      · simpa [Block.programmed, Function.update_of_ne same] using below

theorem Sequential.cleared {rows : FTL.Block} (sequential : Sequential rows)
    (pageIndex idx : Nat) : Sequential (cleared rows pageIndex idx) where
  erased_iff := sequential.erased_iff
  valid_lt := fun page unit valid => sequential.valid_lt page unit
    (FTL.Block.setBit_false_eq_true.mp valid).2

theorem erase_sequential (rows : FTL.Block) : Sequential rows.erase where
  erased_iff := by simp [FTL.Block.erase]
  valid_lt := by simp [FTL.Block.erase]

theorem make_sequential (idx pageCount ioUnitInPage eraseCount : Nat)
    (blockType : BlockPoolType) : Sequential
      (FTL.Block.make idx pageCount ioUnitInPage eraseCount blockType) where
  erased_iff := by simp [FTL.Block.make]
  valid_lt := by simp [FTL.Block.make]

end Block

theorem Logged.programmed {rows : FTL.Block} {writes : List Written}
    (logged : Logged rows writes) (pageIndex lpn idx : Nat) :
    Logged (Block.programmed rows pageIndex lpn idx)
      (⟨pageIndex, idx, lpn⟩ :: writes) := by
  intro page unit valid
  by_cases same : pageIndex = page ∧ idx = unit
  · simp [lastWritten, same, Block.programmed]
  · have before := (FTL.Block.setBit_true_eq_true.mp valid).resolve_left
      fun both => same ⟨both.1.symm, both.2.symm⟩
    have kept := logged page unit before
    have other : ¬ (page = pageIndex ∧ unit = idx) :=
      fun both => same ⟨both.1.symm, both.2.symm⟩
    simp only [Block.programmed, if_neg other]
    rw [← kept, lastWritten, List.find?_cons_of_neg (by simpa using same)]
    rfl

theorem Logged.cleared {rows : FTL.Block} {writes : List Written}
    (logged : Logged rows writes) (pageIndex idx : Nat) :
    Logged (Block.cleared rows pageIndex idx) writes :=
  fun page unit valid => logged page unit
    (FTL.Block.setBit_false_eq_true.mp valid).2

theorem Block.Holds.shape {block result : Block} {rows changed : FTL.Block}
    (holds : block.Holds rows) (result_holds : result.Holds changed)
    (pageCount_eq : changed.pageCount = rows.pageCount)
    (ioUnitInPage_eq : changed.ioUnitInPage = rows.ioUnitInPage) :
    result.pageCount = block.pageCount ∧
      result.ioUnitInPage = block.ioUnitInPage := by
  constructor
  · apply UInt32.toNat_inj.mp
    rw [← result_holds.pageCount_eq, pageCount_eq, holds.pageCount_eq]
  · apply UInt32.toNat_inj.mp
    rw [← result_holds.ioUnitInPage_eq, ioUnitInPage_eq,
      holds.ioUnitInPage_eq]

theorem Handled.Invariant.perform {count ioUnit : UInt32} {handled : Handled}
    (invariant : handled.Invariant count ioUnit) (op : Op) :
    Returns (Handled.Invariant count ioUnit) (fun _ => ¬ InRange handled op)
      (perform handled op) := by
  obtain ⟨pageCount_eq, ioUnitInPage_eq, rows, holds, sequential, logged⟩ :=
    invariant
  have kept : ∀ (result : Block) (changed : FTL.Block) (writes : List Written),
      result.Holds changed → changed.pageCount = rows.pageCount →
      changed.ioUnitInPage = rows.ioUnitInPage → Block.Sequential changed →
      Logged changed writes →
      Handled.Invariant count ioUnit ⟨result, writes⟩ := by
    intro result changed writes result_holds pages units sequential logged
    obtain ⟨pages_eq, units_eq⟩ := holds.shape result_holds pages units
    exact ⟨pages_eq.trans pageCount_eq, units_eq.trans ioUnitInPage_eq,
      changed, result_holds, sequential, logged⟩
  cases op with
  | write lpn idx tick =>
      by_cases unit : idx < handled.block.ioUnitInPage.toNat
      · have next := holds.next_ok unit
        unfold Common.perform
        simp only [next, bind, Except.bind]
        have written := holds.write sequential lpn idx tick
        cases result : handled.block.write (rows.nextWritePage idx) lpn idx
            tick with
        | ok block =>
            exact kept block _ _ (written.of_ok result) rfl rfl
              (sequential.programmed lpn idx) (logged.programmed _ lpn idx)
        | error failure =>
            rintro ⟨index, index_eq, below⟩
            rw [next] at index_eq
            cases index_eq
            exact written.of_error result ⟨below, unit⟩
      · have outside := holds.next_eq idx
        cases result : handled.block.getNextWritePageIndexAt idx with
        | ok value => exact absurd (outside.of_ok result).1 unit
        | error failure =>
            unfold Common.perform
            dsimp only
            rw [result]
            rintro ⟨index, index_eq, -⟩
            rw [result] at index_eq
            cases index_eq
  | invalidate pageIndex idx =>
      refine Returns.bind (holds.invalidate pageIndex idx) ?_
      intro result result_holds
      exact kept result _ _ result_holds rfl rfl
        (sequential.cleared pageIndex idx) (logged.cleared pageIndex idx)
  | erase =>
      obtain ⟨result, erase_eq, result_holds⟩ := holds.erase
      unfold Common.perform
      dsimp only
      rw [erase_eq]
      exact kept result _ _ result_holds rfl rfl
        (Block.erase_sequential rows) fun _ _ valid => nomatch valid
  | copy =>
      obtain ⟨result, copy_eq, result_holds⟩ := holds.copy
      unfold Common.perform
      dsimp only
      rw [copy_eq]
      exact kept result rows _ result_holds rfl rfl sequential logged
  | move =>
      exact kept _ rows _ holds.move rfl rfl sequential logged

/-! Valid, dirty and erased pages. -/

theorem count_partition {valid erased : Nat → Bool}
    (exclusive : ∀ page, valid page = true → erased page = false)
    (count : Nat) :
    (List.range count).countP valid +
        (List.range count).countP (fun page => !(valid page || erased page)) +
      (List.range count).countP erased = count := by
  induction count with
  | zero => rfl
  | succ count induction =>
      simp only [List.range_succ, List.countP_append, List.countP_cons,
        List.countP_nil]
      have here := exclusive count
      cases valid_eq : valid count <;> cases erased_eq : erased count <;>
        simp [valid_eq, erased_eq] at here induction ⊢ <;> omega

theorem Block.Holds.counted {block : Block} {rows : FTL.Block}
    (holds : block.Holds rows) (sequential : Block.Sequential rows)
    (one : block.ioUnitInPage = 1) :
    ∃ valid dirty, block.getValidPageCount = .ok valid ∧
      block.getDirtyPageCount = .ok dirty ∧
      valid.toNat + dirty.toNat + block.erasedPages =
        block.pageCount.toNat := by
  obtain ⟨valid, valid_eq, valid_refines⟩ := holds.valid.single one
  obtain ⟨erased, erased_eq, erased_refines⟩ := holds.erased.single one
  obtain ⟨both, or_eq, both_refines⟩ := valid_refines.combine
    (fun _ _ _ _ => BitVec.getLsbD_or) rfl erased_refines
  obtain ⟨dirty, flip_eq, dirty_refines⟩ := both_refines.flip
  have units : 0 < block.ioUnitInPage.toNat := by
    rw [Block.units_eq_one.mp one]
    decide
  have vector : (Vector.zipWith (· || ·)
        (column rows.validBits block.pageCount.toNat)
        (column rows.erasedBits block.pageCount.toNat)).map (!·) =
      column (fun page unit =>
        !(rows.validBits page unit || rows.erasedBits page unit))
        block.pageCount.toNat := by
    apply Vector.ext
    intro index below
    rw [Vector.getElem_map, Vector.getElem_zipWith]
    simp only [column_getElem]
  have erasedPages : block.erasedPages =
      (List.range block.pageCount.toNat).countP
        fun page => rows.erasedBits page 0 := by
    apply List.countP_congr
    intro page member
    rw [holds.testErased (List.mem_range.mp member) units]
    simp [Except.toOption]
  have exclusive : ∀ page, rows.validBits page 0 = true →
      rows.erasedBits page 0 = false := by
    intro page valid
    have below := sequential.valid_lt page 0 valid
    rw [← Bool.not_eq_true, sequential.erased_iff]
    omega
  refine ⟨valid.count, dirty.count, ?_, ?_, ?_⟩
  · unfold Block.getValidPageCount
    rw [if_pos one, valid_eq]
    rfl
  · unfold Block.getDirtyPageCount Block.dirtyBits Bitset.complement Bitset.or
    rw [if_pos one, valid_eq, erased_eq]
    simp only [deref_some, bind, Except.bind, or_eq, flip_eq]
    rfl
  · rw [valid_refines.count, dirty_refines.count, vector, erasedPages]
    rw [column_count, column_count]
    exact count_partition exclusive _

/-! What the invariant says of the stored block. -/

theorem Handled.Invariant.unitStates {count ioUnit : UInt32}
    {handled : Handled} (invariant : handled.Invariant count ioUnit) :
    handled.UnitStates count ioUnit := by
  obtain ⟨pageCount_eq, ioUnitInPage_eq, rows, holds, sequential, logged⟩ :=
    invariant
  obtain ⟨copy, copy_eq, copy_holds⟩ := holds.copy
  obtain ⟨copy_pages, copy_units⟩ := holds.shape copy_holds rfl rfl
  refine ⟨pageCount_eq, ioUnitInPage_eq, ?_, ?_, rfl, ?_⟩
  · intro page inside unit below
    rw [← pageCount_eq] at inside
    rw [← ioUnitInPage_eq] at below
    refine ⟨_, _, _, holds.next_ok below, holds.testErased inside below,
      holds.testValid inside below, sequential.erased_iff page unit, ?_⟩
    intro valid
    have written := sequential.valid_lt page unit valid
    refine ⟨?_, _, holds.storedLPN inside below, logged page unit valid⟩
    rw [← Bool.not_eq_true, sequential.erased_iff]
    omega
  · refine ⟨copy, copy_eq, copy_pages.trans pageCount_eq,
      copy_units.trans ioUnitInPage_eq, ?_⟩
    intro page inside unit below
    rw [← pageCount_eq] at inside
    rw [← ioUnitInPage_eq] at below
    have copy_inside : page < copy.pageCount.toNat := by rwa [copy_pages]
    have copy_below : unit < copy.ioUnitInPage.toNat := by rwa [copy_units]
    exact ⟨by rw [holds.next_ok below, copy_holds.next_ok copy_below],
      by rw [holds.testErased inside below,
        copy_holds.testErased copy_inside copy_below],
      by rw [holds.testValid inside below,
        copy_holds.testValid copy_inside copy_below],
      by rw [holds.storedLPN inside below,
        copy_holds.storedLPN copy_inside copy_below]⟩
  · intro one
    rw [← pageCount_eq]
    exact holds.counted sequential (ioUnitInPage_eq.trans one)

def run (blockIdx : Nat) (count ioUnit : UInt32) (initPE : Nat)
    (blockType : BlockPoolType) (ops : List Op) : Except Fault Handled := do
  let block ← Block.make blockIdx count ioUnit initPE blockType
  ops.foldlM perform ⟨block, []⟩

/-- The constructor allocates a block, and each operation names a unit and a
page of it. -/
def Allowed (blockIdx : Nat) (count ioUnit : UInt32) (initPE : Nat)
    (blockType : BlockPoolType) (ops : List Op) : Prop :=
  ioUnit ≠ 0 ∧ (ioUnit = 1 → count ≠ 0) ∧
    ∀ block, Block.make blockIdx count ioUnit initPE blockType = .ok block →
      Along perform InRange ⟨block, []⟩ ops

/-- Whatever is done to a block, its units keep their states, and only an
operation outside the block can fail. -/
theorem run_unitStates (blockIdx : Nat) (count ioUnit : UInt32) (initPE : Nat)
    (blockType : BlockPoolType) (ops : List Op) :
    Returns (Handled.UnitStates count ioUnit)
      (fun _ => ¬ Allowed blockIdx count ioUnit initPE blockType ops)
      (run blockIdx count ioUnit initPE blockType ops) := by
  by_cases shape : ioUnit ≠ 0 ∧ (ioUnit = 1 → count ≠ 0)
  · obtain ⟨block, make_eq, holds⟩ :=
      Block.make_holds blockIdx initPE blockType shape.1 shape.2
    have start : Handled.Invariant count ioUnit ⟨block, []⟩ :=
      { pageCount_eq := UInt32.toNat_inj.mp holds.pageCount_eq.symm
        ioUnitInPage_eq := UInt32.toNat_inj.mp holds.ioUnitInPage_eq.symm
        rows := ⟨_, holds, Block.make_sequential _ _ _ _ _,
          fun _ _ valid => nomatch valid⟩ }
    unfold run
    rw [make_eq]
    refine (Returns.foldlM (fun _ op invariant => invariant.perform op) start
      ops).mono (fun _ invariant => invariant.unitStates) ?_
    exact fun _ fails allowed => fails (allowed.2.2 block make_eq)
  · unfold run
    cases make_eq : Block.make blockIdx count ioUnit initPE blockType with
    | ok block => exact absurd (Block.make_shape make_eq) shape
    | error failure => exact fun allowed => shape ⟨allowed.1, allowed.2.1⟩

-- A write, an invalidation and a second write of a block of three pages.
example : (run 0 3 1 0 .hot [.write 7 0 0, .invalidate 0 0,
    .write 8 0 0]).toOption.isSome = true := by
  decide +kernel

end SimpleSSD.FTL.Common
