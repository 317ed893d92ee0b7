import Mathlib.Algebra.BigOperators.Group.List.Basic
import Mathlib.Algebra.Ring.Nat
import Mathlib.Data.List.Basic
import Mathlib.Tactic.Common

namespace SimpleSSD.HIL.NVMe

/-! The list of physical regions that the device builds for a transfer.  Memory
is read in words of eight bytes. -/

/-- One `PRP`. -/
structure Region where
  addr : Nat
  size : Nat
  deriving DecidableEq, Repr

inductive PRPPanic where
  | invalidDPTRSize
  | invalidPRP
  | outOfFuel
  deriving DecidableEq, Repr

def PRPPanic.message : PRPPanic → String
  | .invalidDPTRSize => "prp_list: Invalid DPTR size"
  | .invalidPRP => "prp_list: Invalid PRP in PRP List"
  | .outOfFuel => ""

/-- A list page that is being read: its address and the bytes that are still to
be described. -/
structure ListRead where
  base : Nat
  totalSize : Nat
  deriving DecidableEq, Repr

/-- The members of `PRPList`, with the reads in flight.  `scheduled` counts
pending immediate events and `initCalls` the calls of `initFunction`. -/
structure PRPList where
  pagesize : Nat
  prpList : List Region
  callCounter : Nat
  reading : List ListRead
  scheduled : Nat
  initCalls : Nat
  deriving DecidableEq, Repr

namespace PRPList

def getPRPSize (pagesize addr : Nat) : Nat :=
  pagesize - (addr &&& (pagesize - 1))

def push (list : PRPList) (addr size : Nat) : PRPList :=
  { list with prpList := list.prpList ++ [{ addr := addr, size := size }] }

def getPRPListFromPRP (list : PRPList) (base size : Nat) : PRPList :=
  { list with
    callCounter := list.callCounter + 1
    reading := list.reading ++ [{ base := base, totalSize := size }] }

def schedule (list : PRPList) : PRPList :=
  { list with scheduled := list.scheduled + 1 }

def empty (pagesize : Nat) : PRPList where
  pagesize := pagesize
  prpList := []
  callCounter := 0
  reading := []
  scheduled := 0
  initCalls := 0

def bothPointers (pagesize prp1 prp2 totalSize : Nat) :
    Except PRPPanic PRPList :=
  let prp1Size := getPRPSize pagesize prp1
  let prp2Size := getPRPSize pagesize prp2
  if prp1Size + prp2Size < totalSize then .error .invalidDPTRSize
  else .ok (((empty pagesize).push prp1 prp1Size).push prp2 prp2Size).schedule

def make (pagesize prp1 prp2 totalSize : Nat) : Except PRPPanic PRPList :=
  let prp1Size := getPRPSize pagesize prp1
  let listed := ((empty pagesize).push prp1 prp1Size).getPRPListFromPRP prp2
    (totalSize - prp1Size)
  if totalSize ≤ pagesize then
    if totalSize ≤ prp1Size then
      .ok ((empty pagesize).push prp1 totalSize).schedule
    else bothPointers pagesize prp1 prp2 totalSize
  else if totalSize ≤ pagesize * 2 then
    if prp1Size = pagesize then bothPointers pagesize prp1 prp2 totalSize
    else .ok listed
  else .ok listed

/-- The loop over the entries of a list page; the result has the sum of the
sizes. -/
def readEntries (pagesize totalSize : Nat) : (words : List Nat) →
    (currentSize : Nat) → List Region → Except PRPPanic (Nat × List Region)
  | [], currentSize, prpList => .ok (currentSize, prpList)
  | listPRP :: rest, currentSize, prpList =>
      let listPRPSize := getPRPSize pagesize listPRP
      if listPRP = 0 then .error .invalidPRP
      else
        let pushed := prpList ++ [{ addr := listPRP, size := listPRPSize }]
        if totalSize ≤ currentSize + listPRPSize then
          .ok (currentSize + listPRPSize, pushed)
        else readEntries pagesize totalSize rest (currentSize + listPRPSize)
          pushed

def listWords (pagesize : Nat) (memory : Nat → Nat) (base : Nat) : List Nat :=
  (List.range ((getPRPSize pagesize base + 7) / 8)).map fun entry =>
    memory (base + 8 * entry)

/-- `initFunction` is called when no read is left. -/
def finish (list : PRPList) : PRPList :=
  { list with initCalls :=
      if list.callCounter = 0 then list.initCalls + 1 else list.initCalls }

def doRead (memory : Nat → Nat) (list : PRPList) (page : ListRead) :
    Except PRPPanic PRPList :=
  let returned := { list with callCounter := list.callCounter - 1 }
  match readEntries list.pagesize page.totalSize
      (listWords list.pagesize memory page.base) 0 list.prpList with
  | .error raised => .error raised
  | .ok (currentSize, prpList) =>
      .ok (finish
        (if currentSize < page.totalSize then
          -- The last entry is a pointer to another list page.
          { returned with prpList := prpList.dropLast }.getPRPListFromPRP
            ((prpList.getLast?.map Region.addr).getD 0)
            (page.totalSize - currentSize)
        else { returned with prpList := prpList }))

def serve (memory : Nat → Nat) : (fuel : Nat) → PRPList →
    Except PRPPanic PRPList
  | 0, _ => .error .outOfFuel
  | fuel + 1, list =>
      match list.reading with
      | page :: rest =>
          match doRead memory { list with reading := rest } page with
          | .error raised => .error raised
          | .ok updated => serve memory fuel updated
      | [] => .ok { list with
          scheduled := 0
          initCalls := list.initCalls + list.scheduled }

end PRPList

end SimpleSSD.HIL.NVMe
