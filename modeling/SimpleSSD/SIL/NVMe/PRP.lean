import Mathlib.Algebra.BigOperators.Group.List.Basic
import Mathlib.Algebra.Ring.Nat
import Mathlib.Logic.Function.Basic
import Mathlib.Tactic.Common

namespace SimpleSSD.SIL.NVMe

/-! The buffer that the host describes by PRP entries. -/

def pageSize : Nat := 4096

def maxEntryCount : Nat := pageSize / 8

def divCeil (size unit : Nat) : Nat := (size - 1) / unit + 1

structure ListPlan where
  listCount : Nat
  lastEntryCount : Nat
  capacity : Nat
  deriving DecidableEq, Repr

/-- The loop that counts list pages; `listCount` is a `uint32_t`. -/
def planLists : (fuel : Nat) → (size listCount capacity : Nat) →
    Option ListPlan
  | 0, _, _, _ => none
  | fuel + 1, size, listCount, capacity =>
      if pageSize * maxEntryCount < size then
        planLists fuel (size - pageSize * (maxEntryCount - 1))
          ((listCount + 1) % 2 ^ 32) (capacity + pageSize * maxEntryCount)
      else
        let lastEntryCount := divCeil size pageSize % 2 ^ 32
        some
          { listCount := listCount
            lastEntryCount := lastEntryCount
            capacity := capacity + pageSize * lastEntryCount }

/-- The members of `PRP` and the memory behind them, in words of eight bytes.
`dataPages` and `listPages` are history: what the pages are used for. -/
structure PRP where
  ptr1 : Nat
  ptr2 : Nat
  ptrList : List Nat
  memory : Nat → Nat
  dataPages : List Nat
  listPages : List Nat

def fillLists (lastEntryCount : Nat) : (fuel : Nat) →
    (listPtr page entry listCount : Nat) → PRP → Option PRP
  | 0, _, _, _, _, _ => none
  | fuel + 1, listPtr, page, entry, listCount, prp =>
      let prp := { prp with
        memory := Function.update prp.memory (listPtr + 8 * entry) page
        ptrList := prp.ptrList ++ [page]
        dataPages := prp.dataPages ++ [page] }
      let page := page + pageSize
      let entry := entry + 1
      if listCount = 1 ∧ entry = lastEntryCount then
        some { prp with
          memory := Function.update prp.memory (listPtr + 8 * entry) 0 }
      else if 1 < listCount ∧ entry = maxEntryCount - 1 then
        fillLists lastEntryCount fuel page (page + pageSize) 0 (listCount - 1)
          { prp with
            memory := Function.update prp.memory (listPtr + 8 * entry) page
            listPages := prp.listPages ++ [page] }
      else fillLists lastEntryCount fuel listPtr page entry listCount prp

def PRP.make (fuel base size : Nat) : Option PRP :=
  if size ≤ pageSize then
    some
      { ptr1 := base, ptr2 := 0, ptrList := [base], memory := fun _ => 0
        dataPages := [base], listPages := [] }
  else if size ≤ pageSize * 2 then
    some
      { ptr1 := base, ptr2 := base + pageSize
        ptrList := [base, base + pageSize], memory := fun _ => 0
        dataPages := [base, base + pageSize], listPages := [] }
  else
    match planLists fuel (size - pageSize) 1 (pageSize * 2) with
    | none => none
    | some plan =>
        fillLists plan.lastEntryCount fuel (base + pageSize)
          (base + pageSize * 2) 0 plan.listCount
          { ptr1 := base, ptr2 := base + pageSize
            ptrList := [base, base + pageSize], memory := fun _ => 0
            dataPages := [base], listPages := [base + pageSize] }

end SimpleSSD.SIL.NVMe
