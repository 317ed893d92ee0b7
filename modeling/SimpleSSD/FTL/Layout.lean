import SimpleSSD.FTL.Common
import Mathlib.Data.List.FinRange

namespace SimpleSSD.FTL.Common

open Data Util

/-! What the bitmaps, the index array and the LPN tables of a block say about
each unit. -/

def column (bits : Nat → Nat → Bool) (count : Nat) : Vector Bool count :=
  Vector.ofFn fun page : Fin count => bits page 0

def line (bits : Nat → Nat → Bool) (page width : Nat) : Vector Bool width :=
  Vector.ofFn fun unit : Fin width => bits page unit

structure Lines (bitsets : List Bitset) (bits : Nat → Nat → Bool)
    (count width : Nat) : Prop where
  length_eq : bitsets.length = count
  refines : ∀ (page : Nat) (bitset : Bitset), bitsets[page]? = some bitset →
    bitset.Refines (line bits page width)

structure Keeps (count unit : UInt32) (single : Option Bitset)
    (several : List Bitset) (bits : Nat → Nat → Bool) : Prop where
  single : unit = 1 → ∃ bitset : Bitset, single = some bitset ∧
    bitset.Refines (column bits count.toNat)
  several : unit ≠ 1 → Lines several bits count.toNat unit.toNat

structure Block.Holds (block : Block) (rows : FTL.Block) : Prop where
  units : block.ioUnitInPage ≠ 0
  idx_eq : rows.idx = block.idx
  pageCount_eq : rows.pageCount = block.pageCount.toNat
  ioUnitInPage_eq : rows.ioUnitInPage = block.ioUnitInPage.toNat
  eraseCount_eq : rows.eraseCount = block.eraseCount
  refreshed_eq : rows.refreshedPageCount = block.refreshedPageCount
  blockType_eq : rows.blockType = block.blockType
  next : block.pNextWritePageIndex = some
    ((List.range block.ioUnitInPage.toNat).map rows.nextWritePage)
  valid : Keeps block.pageCount block.ioUnitInPage block.pValidBits
    block.validBits rows.validBits
  erased : Keeps block.pageCount block.ioUnitInPage block.pErasedBits
    block.erasedBits rows.erasedBits
  lpns : block.ioUnitInPage = 1 → block.pLPNs = some
    ((List.range block.pageCount.toNat).map fun page => rows.lpns page 0)
  rowLPNs : block.ioUnitInPage ≠ 1 → block.ppLPNs = some
    ((List.range block.pageCount.toNat).map fun page =>
      (List.range block.ioUnitInPage.toNat).map (rows.lpns page))

section Bits

variable {bits : Nat → Nat → Bool} {count width page unit : Nat}

@[simp] theorem column_getElem (inside : page < count) :
    (column bits count)[page] = bits page 0 :=
  Vector.getElem_ofFn inside

@[simp] theorem line_getElem (inside : unit < width) :
    (line bits page width)[unit] = bits page unit :=
  Vector.getElem_ofFn inside

theorem column_set (page : Nat) (value : Bool) :
    (column bits count).setIfInBounds page value =
      column (FTL.Block.setBit bits page 0 value) count := by
  apply Vector.ext
  intro index below
  rw [Vector.getElem_setIfInBounds, column_getElem below, column_getElem below]
  by_cases same : page = index
  · subst same
    rw [if_pos rfl, FTL.Block.setBit_same]
  · rw [if_neg same, FTL.Block.setBit_of_ne fun both => same both.1.symm]

theorem line_set (unit : Nat) (value : Bool) :
    (line bits page width).setIfInBounds unit value =
      line (FTL.Block.setBit bits page unit value) page width := by
  apply Vector.ext
  intro index below
  rw [Vector.getElem_setIfInBounds, line_getElem below, line_getElem below]
  by_cases same : unit = index
  · subst same
    rw [if_pos rfl, FTL.Block.setBit_same]
  · rw [if_neg same, FTL.Block.setBit_of_ne fun both => same both.2.symm]

theorem line_of_ne {other : Nat} (different : other ≠ page) (value : Bool) :
    line (FTL.Block.setBit bits page unit value) other width =
      line bits other width := by
  apply Vector.ext
  intro index below
  rw [line_getElem below, line_getElem below,
    FTL.Block.setBit_of_ne fun both => different both.1]

theorem column_replicate (value : Bool) :
    column (fun _ _ => value) count = Vector.replicate count value := by
  apply Vector.ext
  intro index below
  rw [column_getElem below, Vector.getElem_replicate]

theorem line_replicate (value : Bool) :
    line (fun _ _ => value) page width = Vector.replicate width value := by
  apply Vector.ext
  intro index below
  rw [line_getElem below, Vector.getElem_replicate]

theorem count_ofFn (f : Nat → Bool) :
    (Vector.ofFn fun index : Fin count => f index).count true =
      (List.range count).countP f := by
  rw [← Vector.count_toList, Vector.toList_ofFn, List.ofFn_eq_map,
    ← List.map_coe_finRange_eq_range, List.countP_map, List.count,
    List.countP_map]
  apply List.countP_congr
  intro index _
  simp

theorem column_count : (column bits count).count true =
    (List.range count).countP fun page => bits page 0 :=
  count_ofFn fun page => bits page 0

theorem map_range_set {f : Nat → α} (position : Nat) (value : α) :
    ((List.range count).map f).set position value =
      (List.range count).map (Function.update f position value) := by
  apply List.ext_getElem
  · simp
  · intro index _ below
    simp only [List.length_map, List.length_range] at below
    by_cases same : position = index
    · subst same
      simp
    · simp [List.getElem_set_ne same, Function.update_of_ne (Ne.symm same)]

theorem Lines.set {bitsets : List Bitset}
    (lines : Lines bitsets bits count width) {bitset : Bitset} {value : Bool}
    (refines : bitset.Refines
      (line (FTL.Block.setBit bits page unit value) page width)) :
    Lines (bitsets.set page bitset) (FTL.Block.setBit bits page unit value)
      count width where
  length_eq := by rw [List.length_set, lines.length_eq]
  refines := by
    intro other held found
    by_cases same : page = other
    · subst same
      have inside : page < bitsets.length := by
        have := (List.getElem?_eq_some_iff.mp found).1
        simpa using this
      rw [List.getElem?_set_self inside] at found
      cases found
      exact refines
    · rw [List.getElem?_set_ne same] at found
      rw [line_of_ne (Ne.symm same)]
      exact lines.refines other held found

theorem mapM_ok {ε : Type} {f : α → Except ε β} {Q : α → β → Prop}
    {list : List α} (each : ∀ value ∈ list, ∃ result, f value = .ok result ∧
      Q value result) :
    ∃ results, list.mapM f = .ok results ∧ List.Forall₂ Q list results := by
  induction list with
  | nil => exact ⟨[], rfl, .nil⟩
  | cons head tail induction =>
      obtain ⟨first, first_eq, holds⟩ := each head List.mem_cons_self
      obtain ⟨rest, rest_eq, forall_tail⟩ := induction fun value member =>
        each value (List.mem_cons_of_mem _ member)
      refine ⟨first :: rest, ?_, .cons holds forall_tail⟩
      rw [List.mapM_cons, first_eq, rest_eq]
      rfl

theorem Lines.of_forall₂ {bitsets results : List Bitset} {value : Bool}
    (lines : Lines bitsets bits count width)
    (changed : List.Forall₂ (fun _ result : Bitset =>
      result.Refines (Vector.replicate width value)) bitsets results) :
    Lines results (fun _ _ => value) count width where
  length_eq := by rw [← changed.length_eq, lines.length_eq]
  refines := by
    intro page result found
    rw [line_replicate]
    obtain ⟨inside, rfl⟩ := List.getElem?_eq_some_iff.mp found
    have below : page < bitsets.length := by
      rwa [changed.length_eq]
    exact changed.get below inside

theorem Lines.row {bitsets : List Bitset}
    (lines : Lines bitsets bits count width) (page : Nat) :
    Returns (fun bitset => page < count ∧ bitsets[page]? = some bitset ∧
        bitset.Refines (line bits page width))
      (fun _ => count ≤ page) (Block.row bitsets page) := by
  unfold Block.row
  cases found : bitsets[page]? with
  | none =>
      rw [List.getElem?_eq_none_iff, lines.length_eq] at found
      exact found
  | some bitset =>
      have inside := (List.getElem?_eq_some_iff.mp found).1
      rw [lines.length_eq] at inside
      exact ⟨inside, rfl, lines.refines page bitset found⟩

end Bits

theorem deref_some (value : α) : Block.deref (some value) = .ok value := rfl

theorem entry_range {f : Nat → α} (count position : Nat) :
    Returns (fun value => position < count ∧ value = f position)
      (fun _ => count ≤ position)
      (Block.entry ((List.range count).map f) position) := by
  unfold Block.entry
  by_cases inside : position < count
  · rw [List.getElem?_eq_getElem (by simpa using inside)]
    exact ⟨inside, by simp⟩
  · rw [List.getElem?_eq_none (by simpa using Nat.le_of_not_lt inside)]
    exact Nat.le_of_not_lt inside

theorem store_range {f : Nat → α} {count position : Nat}
    (inside : position < count) (value : α) :
    Block.store ((List.range count).map f) position value =
      .ok ((List.range count).map (Function.update f position value)) := by
  unfold Block.store
  rw [if_pos (by simpa using inside), map_range_set]

namespace Block

variable {block : Block} {rows : FTL.Block}

theorem units_eq_one {unit : UInt32} : unit = 1 ↔ unit.toNat = 1 :=
  ⟨fun one => by rw [one]; rfl, fun one => UInt32.toNat_inj.mp one⟩

/-- What a test of a unit returns, and when it fails. -/
theorem Holds.testUnit {single : Option Bitset} {several : List Bitset}
    {bits : Nat → Nat → Bool}
    (keeps : Keeps block.pageCount block.ioUnitInPage single several bits)
    (page unit : Nat) :
    Returns (fun value => unit < block.ioUnitInPage.toNat ∧
        value = (decide (page < block.pageCount.toNat) && bits page unit))
      (fun _ => ¬ (page < block.pageCount.toNat ∧
        unit < block.ioUnitInPage.toNat))
      (block.testUnit single several page unit) := by
  unfold Block.testUnit
  by_cases one : block.ioUnitInPage = 1
  · obtain ⟨bitset, rfl, refines⟩ := keeps.single one
    have one_toNat := units_eq_one.mp one
    by_cases first : unit = 0
    · subst first
      rw [if_pos ⟨one, rfl⟩]
      refine (refines.test_any page).mono ?_ ?_
      · rintro value rfl
        refine ⟨by omega, ?_⟩
        by_cases inside : page < block.pageCount.toNat
        · rw [Vector.getElem?_eq_getElem inside, column_getElem]
          simp [inside]
        · rw [Vector.getElem?_eq_none (Nat.le_of_not_lt inside)]
          simp [inside]
      · intro _ outside inside
        omega
    · rw [if_neg fun both => first both.2, if_neg (by omega)]
      intro inside
      omega
  · rw [if_neg fun both => one both.1]
    split
    · next inside =>
        refine Returns.bind (((keeps.several one).row page).mono
          (fun _ found => found)
          (fun _ outside both => by omega)) ?_
        rintro bitset ⟨below, -, refines⟩
        refine (refines.test_any unit).mono ?_ ?_
        · rintro value rfl
          rw [Vector.getElem?_eq_getElem inside, line_getElem]
          simp [inside, below]
        · intro _ outside both
          omega
    · next outside =>
        exact fun inside => outside inside.2

theorem Holds.next_eq (holds : block.Holds rows) (unit : Nat) :
    Returns (fun next => unit < block.ioUnitInPage.toNat ∧
        next = rows.nextWritePage unit)
      (fun _ => block.ioUnitInPage.toNat ≤ unit)
      (block.getNextWritePageIndexAt unit) := by
  unfold getNextWritePageIndexAt
  rw [holds.next]
  exact entry_range _ _

def programmed (rows : FTL.Block) (pageIndex lpn idx : Nat) : FTL.Block :=
  { rows with
    erasedBits := FTL.Block.setBit rows.erasedBits pageIndex idx false
    validBits := FTL.Block.setBit rows.validBits pageIndex idx true
    lpns := fun page unit =>
      if page = pageIndex ∧ unit = idx then lpn else rows.lpns page unit
    nextWritePage := Function.update rows.nextWritePage idx (pageIndex + 1) }

theorem programmed_lpns (rows : FTL.Block) (pageIndex lpn idx page : Nat) :
    (programmed rows pageIndex lpn idx).lpns page =
      Function.update rows.lpns pageIndex
        (Function.update (rows.lpns pageIndex) idx lpn) page := by
  funext unit
  by_cases samePage : page = pageIndex
  · subst samePage
    by_cases sameUnit : unit = idx
    · simp [programmed, sameUnit]
    · simp [programmed, sameUnit]
  · simp [programmed, samePage]

theorem Holds.program (holds : block.Holds rows) {pageIndex idx : Nat}
    (page : pageIndex < block.pageCount.toNat)
    (unit : idx < block.ioUnitInPage.toNat) (lpn : Nat) :
    ∃ result, block.program pageIndex lpn idx = .ok result ∧
      Holds { result with
        pNextWritePageIndex := some
          (((List.range block.ioUnitInPage.toNat).map
            rows.nextWritePage).set idx (pageIndex + 1)) }
        (programmed rows pageIndex lpn idx) := by
  unfold Block.program
  by_cases one : block.ioUnitInPage = 1
  · obtain ⟨valid, valid_eq, valid_refines⟩ := holds.valid.single one
    obtain ⟨erased, erased_eq, erased_refines⟩ := holds.erased.single one
    obtain ⟨erased', reset, erased'_refines⟩ := erased_refines.resetAt page
    obtain ⟨valid', set, valid'_refines⟩ := valid_refines.setAt page true
    have first : idx = 0 := by
      have := units_eq_one.mp one
      omega
    subst first
    rw [if_pos one, valid_eq, erased_eq, holds.lpns one]
    simp only [deref_some, bind, Except.bind, reset, set, store_range page]
    rw [Bitset.set_eq _ page, column_set] at erased'_refines valid'_refines
    refine ⟨_, rfl, ?_⟩
    exact
      { holds with
        next := congrArg some (map_range_set _ _)
        valid := ⟨fun _ => ⟨valid', rfl, valid'_refines⟩,
          fun several => absurd one several⟩
        erased := ⟨fun _ => ⟨erased', rfl, erased'_refines⟩,
          fun several => absurd one several⟩
        lpns := fun _ => congrArg some (List.map_congr_left fun page _ => by
          rw [programmed_lpns]
          by_cases same : page = pageIndex
          · subst same
            simp
          · simp [Function.update_of_ne same])
        rowLPNs := fun several => absurd one several }
  · have validLines := holds.valid.several one
    have erasedLines := holds.erased.several one
    have validInside : pageIndex < block.validBits.length := by
      rwa [validLines.length_eq]
    have erasedInside : pageIndex < block.erasedBits.length := by
      rwa [erasedLines.length_eq]
    have valid_row : row block.validBits pageIndex =
        .ok block.validBits[pageIndex] := by
      simp [row, validInside]
    have erased_row : row block.erasedBits pageIndex =
        .ok block.erasedBits[pageIndex] := by
      simp [row, erasedInside]
    have valid_refines := validLines.refines pageIndex _
      (List.getElem?_eq_getElem validInside)
    have erased_refines := erasedLines.refines pageIndex _
      (List.getElem?_eq_getElem erasedInside)
    obtain ⟨erased', reset, erased'_refines⟩ := erased_refines.resetAt unit
    obtain ⟨valid', set, valid'_refines⟩ := valid_refines.setAt unit true
    have lpns_row : entry ((List.range block.pageCount.toNat).map fun page =>
          (List.range block.ioUnitInPage.toNat).map (rows.lpns page))
          pageIndex =
        .ok ((List.range block.ioUnitInPage.toNat).map
          (rows.lpns pageIndex)) := by
      simp [entry, page]
    rw [if_neg one, valid_row, erased_row, holds.rowLPNs one]
    simp only [deref_some, bind, Except.bind, reset, set, lpns_row,
      store_range unit]
    rw [Bitset.set_eq _ unit, line_set] at erased'_refines valid'_refines
    refine ⟨_, rfl, ?_⟩
    exact
      { holds with
        next := congrArg some (map_range_set _ _)
        valid := ⟨fun single => absurd single one,
          fun _ => validLines.set valid'_refines⟩
        erased := ⟨fun single => absurd single one,
          fun _ => erasedLines.set erased'_refines⟩
        lpns := fun single => absurd single one
        rowLPNs := fun _ => by
          refine congrArg some ?_
          rw [map_range_set]
          apply List.map_congr_left
          intro page _
          rw [programmed_lpns]
          by_cases same : page = pageIndex
          · subst same
            simp
          · simp [Function.update_of_ne same] }

structure Sequential (rows : FTL.Block) : Prop where
  erased_iff : ∀ page unit,
    rows.erasedBits page unit = true ↔ rows.nextWritePage unit ≤ page
  valid_lt : ∀ page unit, rows.validBits page unit = true →
    page < rows.nextWritePage unit

theorem Holds.write (holds : block.Holds rows) (sequential : Sequential rows)
    (lpn idx tick : Nat) :
    Returns (fun result => result.Holds
        (programmed rows (rows.nextWritePage idx) lpn idx))
      (fun _ => ¬ (rows.nextWritePage idx < block.pageCount.toNat ∧
        idx < block.ioUnitInPage.toNat))
      (block.write (rows.nextWritePage idx) lpn idx tick) := by
  unfold Block.write
  refine (Holds.testUnit holds.erased (rows.nextWritePage idx) idx).bind ?_
  rintro value ⟨unit, rfl⟩
  have erased := (sequential.erased_iff (rows.nextWritePage idx) idx).mpr
    (Nat.le_refl _)
  by_cases page : rows.nextWritePage idx < block.pageCount.toNat
  · have indices : deref block.pNextWritePageIndex = .ok
        ((List.range block.ioUnitInPage.toNat).map rows.nextWritePage) := by
      rw [holds.next]
      rfl
    have next : entry ((List.range block.ioUnitInPage.toNat).map
        rows.nextWritePage) idx = .ok (rows.nextWritePage idx) := by
      simp [entry, unit]
    have touched : Holds { block with lastAccessed := tick } rows :=
      { holds with }
    obtain ⟨result, program, result_holds⟩ := touched.program page unit lpn
    rw [if_pos (by simp [page, erased])]
    simp only [bind, Except.bind, indices, next, Nat.lt_irrefl, if_false,
      program]
    exact result_holds
  · rw [if_neg (by simp [page])]
    exact fun both => page both.1

def cleared (rows : FTL.Block) (pageIndex idx : Nat) : FTL.Block :=
  { rows with
    validBits := FTL.Block.setBit rows.validBits pageIndex
      (if rows.ioUnitInPage = 1 then 0 else idx) false }

theorem Holds.invalidate (holds : block.Holds rows) (pageIndex idx : Nat) :
    Returns (fun result => result.Holds (cleared rows pageIndex idx))
      (fun _ => ¬ (pageIndex < block.pageCount.toNat ∧
        idx < block.ioUnitInPage.toNat))
      (block.invalidate pageIndex idx) := by
  unfold Block.invalidate
  by_cases one : block.ioUnitInPage = 1
  · obtain ⟨valid, valid_eq, refines⟩ := holds.valid.single one
    have unit : rows.ioUnitInPage = 1 := by
      rw [holds.ioUnitInPage_eq, units_eq_one.mp one]
    rw [if_pos one, valid_eq]
    change Returns _ _ (valid.resetAt pageIndex >>= _)
    refine Returns.bind ((refines.resetAt_any pageIndex).mono
      (fun _ reset => reset) (fun _ outside both => by omega)) ?_
    intro valid' valid'_refines
    rw [column_set] at valid'_refines
    refine
      { holds with
        valid := ⟨fun _ => ⟨valid', rfl, ?_⟩, fun several => absurd one several⟩ }
    rwa [cleared, if_pos unit]
  · have lines := holds.valid.several one
    have unit : rows.ioUnitInPage ≠ 1 := by
      rw [holds.ioUnitInPage_eq]
      exact fun toNat => one (units_eq_one.mpr toNat)
    rw [if_neg one]
    refine Returns.bind ((lines.row pageIndex).mono (fun _ found => found)
      (fun _ outside both => by omega)) ?_
    rintro valid ⟨page, -, refines⟩
    refine Returns.bind ((refines.resetAt_any idx).mono
      (fun _ reset => reset) (fun _ outside both => by omega)) ?_
    intro valid' valid'_refines
    rw [line_set] at valid'_refines
    refine
      { holds with
        valid := ⟨fun single => absurd single one, fun _ => ?_⟩ }
    rw [cleared, if_neg unit]
    exact lines.set valid'_refines

theorem Holds.erase (holds : block.Holds rows) :
    ∃ result, block.erase = .ok result ∧ result.Holds rows.erase := by
  have next : ((List.range block.ioUnitInPage.toNat).map
      rows.nextWritePage).map (fun _ => 0) =
      (List.range block.ioUnitInPage.toNat).map rows.erase.nextWritePage := by
    rw [List.map_map]
    rfl
  unfold Block.erase
  by_cases one : block.ioUnitInPage = 1
  · obtain ⟨valid, valid_eq, valid_refines⟩ := holds.valid.single one
    obtain ⟨erased, erased_eq, erased_refines⟩ := holds.erased.single one
    obtain ⟨erased', set, erased'_refines⟩ := erased_refines.set
    rw [if_pos one, valid_eq, erased_eq, holds.next]
    simp only [deref_some, bind, Except.bind, set]
    refine ⟨_, rfl, ?_⟩
    exact
      { holds with
        next := congrArg some next
        eraseCount_eq := congrArg (· + 1) holds.eraseCount_eq
        valid := ⟨fun _ => ⟨_, rfl, column_replicate false ▸
          valid_refines.reset⟩, fun several => absurd one several⟩
        erased := ⟨fun _ => ⟨erased', rfl, column_replicate true ▸
          erased'_refines⟩, fun several => absurd one several⟩ }
  · have validLines := holds.valid.several one
    have erasedLines := holds.erased.several one
    obtain ⟨erased', set, changed⟩ :=
      @mapM_ok _ _ _ Bitset.set
        (fun _ result => result.Refines
          (Vector.replicate block.ioUnitInPage.toNat true))
        block.erasedBits fun bitset member => by
          obtain ⟨page, inside, rfl⟩ := List.getElem_of_mem member
          exact (erasedLines.refines page _
            (List.getElem?_eq_getElem inside)).set
    have reset : List.Forall₂ (fun _ result : Bitset => result.Refines
          (Vector.replicate block.ioUnitInPage.toNat false))
        block.validBits (block.validBits.map Bitset.reset) := by
      rw [List.forall₂_map_right_iff, List.forall₂_same]
      intro bitset member
      obtain ⟨page, inside, rfl⟩ := List.getElem_of_mem member
      exact (validLines.refines page _
        (List.getElem?_eq_getElem inside)).reset
    rw [if_neg one, holds.next]
    simp only [bind, Except.bind, set]
    refine ⟨_, rfl, ?_⟩
    exact
      { holds with
        next := congrArg some next
        eraseCount_eq := congrArg (· + 1) holds.eraseCount_eq
        valid := ⟨fun single => absurd single one,
          fun _ => validLines.of_forall₂ reset⟩
        erased := ⟨fun single => absurd single one,
          fun _ => erasedLines.of_forall₂ changed⟩ }

/-! The same operations on the rows that the rest of the FTL works with. -/

theorem Sequential.write (sequential : Sequential rows) {idx : Nat}
    (page : rows.nextWritePage idx < rows.pageCount)
    (unit : idx < rows.ioUnitInPage) (lpn : Nat) :
    rows.write (rows.nextWritePage idx) lpn idx =
      .ok (programmed rows (rows.nextWritePage idx) lpn idx) := by
  have erased := (sequential.erased_iff (rows.nextWritePage idx) idx).mpr
    (Nat.le_refl _)
  unfold FTL.Block.write
  rw [if_neg (Nat.not_le_of_lt unit), if_neg (Nat.not_le_of_lt page),
    if_pos erased, if_neg (Nat.lt_irrefl _)]
  rfl

theorem invalidate_cleared {pageIndex idx : Nat}
    (page : pageIndex < rows.pageCount) (unit : idx < rows.ioUnitInPage) :
    rows.invalidate pageIndex idx = .ok (cleared rows pageIndex idx) := by
  have position : (if rows.ioUnitInPage = 1 then 0 else idx) = idx := by
    split <;> omega
  unfold FTL.Block.invalidate cleared
  rw [if_neg (Nat.not_le_of_lt page), position]

/-- A write of the stored block is the write of its rows. -/
theorem Holds.write_refines (holds : block.Holds rows)
    (sequential : Sequential rows) {idx : Nat}
    (page : rows.nextWritePage idx < rows.pageCount)
    (unit : idx < rows.ioUnitInPage) (lpn tick : Nat) :
    ∃ result updated,
      block.write (rows.nextWritePage idx) lpn idx tick = .ok result ∧
      rows.write (rows.nextWritePage idx) lpn idx = .ok updated ∧
      result.Holds updated := by
  have written := holds.write sequential lpn idx tick
  have inside := holds.pageCount_eq ▸ page
  have below := holds.ioUnitInPage_eq ▸ unit
  cases result_eq : block.write (rows.nextWritePage idx) lpn idx tick with
  | ok result =>
      exact ⟨result, _, rfl, sequential.write page unit lpn,
        written.of_ok result_eq⟩
  | error failure => exact absurd ⟨inside, below⟩ (written.of_error result_eq)

theorem Holds.invalidate_refines (holds : block.Holds rows)
    {pageIndex idx : Nat} (page : pageIndex < rows.pageCount)
    (unit : idx < rows.ioUnitInPage) :
    ∃ result updated, block.invalidate pageIndex idx = .ok result ∧
      rows.invalidate pageIndex idx = .ok updated ∧ result.Holds updated := by
  have reset := holds.invalidate pageIndex idx
  have inside := holds.pageCount_eq ▸ page
  have below := holds.ioUnitInPage_eq ▸ unit
  cases result_eq : block.invalidate pageIndex idx with
  | ok result =>
      exact ⟨result, _, rfl, invalidate_cleared page unit,
        reset.of_ok result_eq⟩
  | error failure => exact absurd ⟨inside, below⟩ (reset.of_error result_eq)

theorem range_map_const (count : Nat) (value : α) :
    List.replicate count value = (List.range count).map fun _ => value := by
  rw [List.map_const', List.length_range]

theorem allocate_holds (idx : Nat) {count ioUnit : UInt32}
    (blockType : BlockPoolType) (units : ioUnit ≠ 0)
    (pages : ioUnit = 1 → count ≠ 0) :
    ∃ block, allocate idx count ioUnit blockType = .ok block ∧
      block.Holds { FTL.Block.make idx count.toNat ioUnit.toNat 0 blockType
        with erasedBits := fun _ _ => false } := by
  unfold allocate
  by_cases one : ioUnit = 1
  · have refines := column_replicate false ▸ Bitset.make_refines (pages one)
    rw [if_pos one]
    refine ⟨_, rfl, ?_⟩
    exact
      { units := units
        idx_eq := rfl
        pageCount_eq := rfl
        ioUnitInPage_eq := rfl
        eraseCount_eq := rfl
        refreshed_eq := rfl
        blockType_eq := rfl
        next := congrArg some (range_map_const _ _)
        valid := ⟨fun _ => ⟨_, rfl, refines⟩, fun several => absurd one several⟩
        erased := ⟨fun _ => ⟨_, rfl, refines⟩,
          fun several => absurd one several⟩
        lpns := fun _ => congrArg some (range_map_const _ _)
        rowLPNs := fun several => absurd one several }
  · have several : 1 < ioUnit := by
      have nonzero : ioUnit.toNat ≠ 0 := fun zero =>
        units (UInt32.toNat_inj.mp zero)
      have other : ioUnit.toNat ≠ 1 := fun toNat =>
        one (units_eq_one.mpr toNat)
      exact UInt32.lt_iff_toNat_lt.mpr (show 1 < ioUnit.toNat by omega)
    have lines : Lines (List.replicate count.toNat (Bitset.make ioUnit))
        (fun _ _ => false) count.toNat ioUnit.toNat :=
      { length_eq := List.length_replicate
        refines := by
          intro page bitset found
          have member := List.mem_of_getElem? found
          rw [List.eq_of_mem_replicate member, line_replicate]
          exact Bitset.make_refines units }
    have zeros : List.replicate count.toNat (List.replicate ioUnit.toNat 0) =
        (List.range count.toNat).map fun _ =>
          (List.range ioUnit.toNat).map fun _ => 0 := by
      rw [range_map_const count.toNat, range_map_const ioUnit.toNat]
    rw [if_neg one, if_pos several]
    refine ⟨_, rfl, ?_⟩
    exact
      { units := units
        idx_eq := rfl
        pageCount_eq := rfl
        ioUnitInPage_eq := rfl
        eraseCount_eq := rfl
        refreshed_eq := rfl
        blockType_eq := rfl
        next := congrArg some (range_map_const _ _)
        valid := ⟨fun single => absurd single one, fun _ => lines⟩
        erased := ⟨fun single => absurd single one, fun _ => lines⟩
        lpns := fun single => absurd single one
        rowLPNs := fun _ => congrArg some zeros }

theorem make_holds (blockIdx : Nat) {count ioUnit : UInt32} (initPE : Nat)
    (blockType : BlockPoolType) (units : ioUnit ≠ 0)
    (pages : ioUnit = 1 → count ≠ 0) :
    ∃ block, make blockIdx count ioUnit initPE blockType = .ok block ∧
      block.Holds (FTL.Block.make blockIdx count.toNat ioUnit.toNat initPE
        blockType) := by
  obtain ⟨allocated, allocate_eq, holds⟩ :=
    allocate_holds blockIdx blockType units pages
  obtain ⟨erased, erase_eq, erased_holds⟩ := holds.erase
  unfold make
  rw [allocate_eq]
  simp only [bind, Except.bind, erase_eq]
  exact ⟨_, rfl, { erased_holds with eraseCount_eq := rfl }⟩

theorem make_shape {blockIdx : Nat} {count ioUnit : UInt32} {initPE : Nat}
    {blockType : BlockPoolType} {block : Block}
    (make_eq : make blockIdx count ioUnit initPE blockType = .ok block) :
    ioUnit ≠ 0 ∧ (ioUnit = 1 → count ≠ 0) := by
  constructor
  · rintro rfl
    cases make_eq
  · rintro rfl rfl
    cases make_eq

theorem Holds.pages (holds : block.Holds rows)
    (one : block.ioUnitInPage = 1) : block.pageCount ≠ 0 := by
  obtain ⟨bitset, -, refines⟩ := holds.valid.single one
  have nonempty := refines.nonempty
  intro zero
  rw [zero] at nonempty
  exact absurd nonempty (Nat.lt_irrefl 0)

theorem take_range (f : Nat → α) (count : Nat) :
    ((List.range count).map f).take count = (List.range count).map f :=
  List.take_of_length_le (by rw [List.length_map, List.length_range])

theorem Holds.copy (holds : block.Holds rows) :
    ∃ result, block.copy = .ok result ∧ result.Holds rows := by
  obtain ⟨fresh, make_eq, fresh_holds⟩ :=
    make_holds block.idx 0 .cold holds.units holds.pages
  have idx_eq : fresh.idx = block.idx := fresh_holds.idx_eq.symm
  have count_eq : fresh.pageCount = block.pageCount :=
    UInt32.toNat_inj.mp fresh_holds.pageCount_eq.symm
  have unit_eq : fresh.ioUnitInPage = block.ioUnitInPage :=
    UInt32.toNat_inj.mp fresh_holds.ioUnitInPage_eq.symm
  unfold Block.copy
  rw [make_eq]
  simp only [bind, Except.bind, unit_eq, count_eq]
  by_cases one : block.ioUnitInPage = 1
  · obtain ⟨valid, valid_eq, valid_refines⟩ := holds.valid.single one
    obtain ⟨erased, erased_eq, erased_refines⟩ := holds.erased.single one
    simp only [if_pos one, valid_eq, erased_eq, holds.lpns one, holds.next,
      deref_some, pure, Except.pure]
    refine ⟨_, rfl, ?_⟩
    exact
      { holds with
        idx_eq := holds.idx_eq.trans idx_eq.symm
        next := congrArg some (take_range _ _)
        valid := ⟨fun _ => ⟨valid, rfl, valid_refines⟩,
          fun several => absurd one several⟩
        erased := ⟨fun _ => ⟨erased, rfl, erased_refines⟩,
          fun several => absurd one several⟩
        lpns := fun _ => congrArg some (take_range _ _)
        rowLPNs := fun several => absurd one several }
  · have lpns : (((List.range block.pageCount.toNat).map fun page =>
          (List.range block.ioUnitInPage.toNat).map (rows.lpns page)).take
            block.pageCount.toNat).map (List.take block.ioUnitInPage.toNat) =
        (List.range block.pageCount.toNat).map fun page =>
          (List.range block.ioUnitInPage.toNat).map (rows.lpns page) := by
      rw [take_range, List.map_map]
      exact List.map_congr_left fun page _ => take_range _ _
    simp only [if_neg one, holds.rowLPNs one, holds.next, deref_some, pure,
      Except.pure, lpns]
    refine ⟨_, rfl, ?_⟩
    exact
      { holds with
        idx_eq := holds.idx_eq.trans idx_eq.symm
        next := congrArg some (take_range _ _)
        valid := ⟨fun single => absurd single one,
          fun _ => holds.valid.several one⟩
        erased := ⟨fun single => absurd single one,
          fun _ => holds.erased.several one⟩
        lpns := fun single => absurd single one
        rowLPNs := fun _ => rfl }

theorem Holds.move (holds : block.Holds rows) : block.move.1.Holds rows :=
  holds

end Block

end SimpleSSD.FTL.Common
