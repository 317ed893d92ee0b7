import Mathlib.Data.Finset.Card
import Mathlib.Order.Interval.Finset.Nat
import Mathlib.Tactic.Common

namespace SimpleSSD.HIL

/-! The busy times that the HIL counts: reads under index 0, writes under 1, and
both under 2. -/

structure Stat where
  request : Fin 2 → UInt64
  busy : Fin 3 → UInt64
  iosize : Fin 2 → UInt64
  lastBusyAt : Fin 3 → UInt64

/-- A call of `updateBusyTime`. -/
structure BusyCall where
  idx : Fin 3
  beginAt : UInt64
  endAt : UInt64
  deriving DecidableEq, Repr

def BusyCall.ticks (call : BusyCall) : Finset Nat :=
  Finset.Ico call.beginAt.toNat call.endAt.toNat

namespace Stat

def cleared : Stat where
  request _ := 0
  busy _ := 0
  iosize _ := 0
  lastBusyAt _ := 0

def updateBusyTime (stat : Stat) (call : BusyCall) : Stat :=
  let last := stat.lastBusyAt call.idx
  if call.endAt ≤ last then stat
  else
    let added := if call.beginAt < last then call.endAt - last
      else call.endAt - call.beginAt
    { stat with
      busy := Function.update stat.busy call.idx (stat.busy call.idx + added)
      lastBusyAt := Function.update stat.lastBusyAt call.idx call.endAt }

end Stat

def busyTicks (idx : Fin 3) : List BusyCall → Finset Nat
  | [] => ∅
  | call :: rest =>
      if call.idx = idx then call.ticks ∪ busyTicks idx rest
      else busyTicks idx rest

/-- What is counted under an index after some ticks, when the latest interval
begins at `low`. -/
structure Counts (idx : Fin 3) (stat : Stat) (ticks : Finset Nat)
    (low : Nat) : Prop where
  busy_eq : (stat.busy idx).toNat = ticks.card
  below : ∀ tick ∈ ticks, tick < (stat.lastBusyAt idx).toNat
  filled : ∀ tick, low ≤ tick → tick < (stat.lastBusyAt idx).toNat →
    tick ∈ ticks

namespace Counts

variable {idx : Fin 3} {stat : Stat} {ticks : Finset Nat} {low : Nat}
  {call : BusyCall}

theorem cleared (idx : Fin 3) : Counts idx Stat.cleared ∅ 0 where
  busy_eq := rfl
  below tick member := absurd member (Finset.notMem_empty tick)
  filled tick _ before := absurd before (Nat.not_lt_zero tick)

theorem card_le (counts : Counts idx stat ticks low) :
    ticks.card ≤ (stat.lastBusyAt idx).toNat := by
  have inside : ticks ⊆ Finset.range (stat.lastBusyAt idx).toNat := by
    intro tick member
    exact Finset.mem_range.mpr (counts.below tick member)
  have bound := Finset.card_le_card inside
  rwa [Finset.card_range] at bound

theorem other (counts : Counts idx stat ticks low) (different : call.idx ≠ idx) :
    Counts idx (stat.updateBusyTime call) ticks low := by
  have busy : (stat.updateBusyTime call).busy idx = stat.busy idx := by
    unfold Stat.updateBusyTime
    dsimp only
    split
    · rfl
    · exact Function.update_of_ne different.symm _ _
  have last : (stat.updateBusyTime call).lastBusyAt idx =
      stat.lastBusyAt idx := by
    unfold Stat.updateBusyTime
    dsimp only
    split
    · rfl
    · exact Function.update_of_ne different.symm _ _
  refine ⟨?_, ?_, ?_⟩
  · rw [busy]
    exact counts.busy_eq
  · rw [last]
    exact counts.below
  · rw [last]
    exact counts.filled

/-- A call that ends inside the counted time adds no tick. -/
theorem inside (counts : Counts idx stat ticks low)
    (order : low ≤ call.beginAt.toNat)
    (ended : call.endAt.toNat ≤ (stat.lastBusyAt idx).toNat) :
    Counts idx stat (ticks ∪ call.ticks) call.beginAt.toNat := by
  have same : ticks ∪ call.ticks = ticks := by
    apply Finset.union_eq_left.mpr
    intro tick member
    have bounds := Finset.mem_Ico.mp member
    exact counts.filled tick (by omega) (by omega)
  rw [same]
  refine ⟨counts.busy_eq, counts.below, ?_⟩
  intro tick after before
  exact counts.filled tick (by omega) before

/-- The ticks of a later end are those from the last counted tick on, or the
whole interval. -/
theorem later (counts : Counts idx stat ticks low)
    (order : low ≤ call.beginAt.toNat) :
    (ticks ∪ call.ticks).card = ticks.card + (call.endAt.toNat -
      max call.beginAt.toNat (stat.lastBusyAt idx).toNat) := by
  have split : ticks ∪ call.ticks = ticks ∪
      Finset.Ico (max call.beginAt.toNat (stat.lastBusyAt idx).toNat)
        call.endAt.toNat := by
    ext tick
    simp only [Finset.mem_union, BusyCall.ticks, Finset.mem_Ico]
    have filled := counts.filled tick
    constructor
    · intro member
      rcases member with earlier | ⟨after, before⟩
      · exact .inl earlier
      · by_cases counted : tick < (stat.lastBusyAt idx).toNat
        · exact .inl (filled (by omega) counted)
        · exact .inr ⟨by omega, before⟩
    · intro member
      rcases member with earlier | ⟨after, before⟩
      · exact .inl earlier
      · exact .inr ⟨by omega, before⟩
  have apart : Disjoint ticks
      (Finset.Ico (max call.beginAt.toNat (stat.lastBusyAt idx).toNat)
        call.endAt.toNat) := by
    apply Finset.disjoint_left.mpr
    intro tick earlier member
    have before := counts.below tick earlier
    have after := (Finset.mem_Ico.mp member).1
    omega
  rw [split, Finset.card_union_of_disjoint apart, Nat.card_Ico]

theorem update (counts : Counts idx stat ticks low) (own : call.idx = idx)
    (order : low ≤ call.beginAt.toNat) (ordered : call.beginAt ≤ call.endAt) :
    Counts idx (stat.updateBusyTime call) (ticks ∪ call.ticks)
      call.beginAt.toNat := by
  subst own
  rw [UInt64.le_iff_toNat_le] at ordered
  unfold Stat.updateBusyTime
  dsimp only
  split
  · next ended =>
      rw [UInt64.le_iff_toNat_le] at ended
      exact counts.inside order ended
  next ends =>
  rw [UInt64.le_iff_toNat_le, Nat.not_le] at ends
  have card := counts.later order
  have known := counts.card_le
  have bound := call.endAt.toNat_lt
  refine ⟨?_, ?_, ?_⟩
  · dsimp only
    rw [Function.update_self, card, UInt64.toNat_add, counts.busy_eq]
    split
    · next overlaps =>
        rw [UInt64.lt_iff_toNat_lt] at overlaps
        rw [UInt64.toNat_sub_of_le _ _
          (UInt64.le_iff_toNat_le.mpr (Nat.le_of_lt ends))]
        omega
    · next apart =>
        rw [UInt64.lt_iff_toNat_lt, Nat.not_lt] at apart
        rw [UInt64.toNat_sub_of_le _ _ (UInt64.le_iff_toNat_le.mpr ordered)]
        omega
  · intro tick member
    dsimp only
    rw [Function.update_self]
    rcases Finset.mem_union.mp member with earlier | new
    · have before := counts.below tick earlier
      omega
    · exact (Finset.mem_Ico.mp new).2
  · intro tick after before
    dsimp only at before
    rw [Function.update_self] at before
    exact Finset.mem_union_right _ (Finset.mem_Ico.mpr ⟨after, before⟩)

theorem run {calls : List BusyCall} (counts : Counts idx stat ticks low)
    (ordered : ∀ call ∈ calls, call.idx = idx → call.beginAt ≤ call.endAt)
    (after : ∀ call ∈ calls, call.idx = idx → low ≤ call.beginAt.toNat)
    (nondecreasing : (calls.filter (·.idx = idx)).Pairwise
      fun one other => one.beginAt ≤ other.beginAt) :
    ∃ low, Counts idx (calls.foldl Stat.updateBusyTime stat)
      (ticks ∪ busyTicks idx calls) low := by
  induction calls generalizing stat ticks low with
  | nil =>
      refine ⟨low, ?_⟩
      rw [busyTicks, Finset.union_empty]
      exact counts
  | cons call rest induction =>
      have ordered' : ∀ other ∈ rest, other.idx = idx →
          other.beginAt ≤ other.endAt :=
        fun other member => ordered other (.tail _ member)
      rw [List.foldl_cons, busyTicks]
      by_cases own : call.idx = idx
      · rw [if_pos own, ← Finset.union_assoc]
        rw [List.filter_cons_of_pos (by simpa using own)] at nondecreasing
        obtain ⟨first, rest'⟩ := List.pairwise_cons.mp nondecreasing
        have counts' := counts.update own (after call (.head _) own)
          (ordered call (.head _) own)
        refine induction counts' ordered' ?_ rest'
        intro other member same
        exact UInt64.le_iff_toNat_le.mp (first other
          (List.mem_filter.mpr ⟨member, by simpa using same⟩))
      · rw [if_neg own]
        rw [List.filter_cons_of_neg (by simpa using own)] at nondecreasing
        exact induction (counts.other own) ordered'
          (fun other member => after other (.tail _ member)) nondecreasing

end Counts

/-- The busy time of an index is the number of ticks that its intervals cover, in
every sequence of calls whose intervals begin later and later. -/
theorem busy_time (calls : List BusyCall) (idx : Fin 3)
    (ordered : ∀ call ∈ calls, call.idx = idx → call.beginAt ≤ call.endAt)
    (nondecreasing : (calls.filter (·.idx = idx)).Pairwise
      fun one other => one.beginAt ≤ other.beginAt) :
    ((calls.foldl Stat.updateBusyTime Stat.cleared).busy idx).toNat =
      (busyTicks idx calls).card := by
  obtain ⟨low, counts⟩ := (Counts.cleared idx).run ordered
    (fun _ _ _ => Nat.zero_le _) nondecreasing
  rw [Finset.empty_union] at counts
  exact counts.busy_eq

/-- Overlapping, nested and touching intervals between calls of another index. -/
theorem busy_time_sample :
    (([⟨2, 3, 9⟩, ⟨0, 1, 2⟩, ⟨2, 4, 6⟩, ⟨2, 5, 12⟩, ⟨2, 12, 14⟩].foldl
      Stat.updateBusyTime Stat.cleared).busy 2).toNat = 11 := by
  have counted := busy_time
    [⟨2, 3, 9⟩, ⟨0, 1, 2⟩, ⟨2, 4, 6⟩, ⟨2, 5, 12⟩, ⟨2, 12, 14⟩] 2
    (by decide) (by decide)
  rw [counted]
  decide

/-! The requests that the calls come from. -/

structure Served where
  write : Bool
  length : UInt64
  beginAt : UInt64
  tick : UInt64
  deriving DecidableEq, Repr

namespace Served

def operation (served : Served) : Fin 2 := if served.write then 1 else 0

def calls (served : Served) : List BusyCall :=
  [⟨served.operation.castSucc, served.beginAt, served.tick⟩,
    ⟨2, served.beginAt, served.tick⟩]

end Served

/-- The part of `doRead` and `doWrite` that counts. -/
def Stat.serve (stat : Stat) (served : Served) : Stat :=
  served.calls.foldl Stat.updateBusyTime
    { stat with
      request := Function.update stat.request served.operation
        (stat.request served.operation + 1)
      iosize := Function.update stat.iosize served.operation
        (stat.iosize served.operation + served.length) }

def Stat.SameBusy (stat other : Stat) : Prop :=
  stat.busy = other.busy ∧ stat.lastBusyAt = other.lastBusyAt

theorem Stat.SameBusy.updateBusyTime {stat other : Stat}
    (same : stat.SameBusy other) (call : BusyCall) :
    (stat.updateBusyTime call).SameBusy (other.updateBusyTime call) := by
  unfold Stat.SameBusy Stat.updateBusyTime
  rw [same.1, same.2]
  dsimp only
  split
  · exact same
  · exact ⟨rfl, rfl⟩

theorem Stat.SameBusy.run {stat other : Stat} (same : stat.SameBusy other)
    (calls : List BusyCall) :
    (calls.foldl Stat.updateBusyTime stat).SameBusy
      (calls.foldl Stat.updateBusyTime other) := by
  induction calls generalizing stat other with
  | nil => exact same
  | cons call rest induction => exact induction (same.updateBusyTime call)

theorem serve_sameBusy {stat other : Stat} (same : stat.SameBusy other)
    (requests : List Served) :
    (requests.foldl Stat.serve stat).SameBusy
      ((requests.flatMap Served.calls).foldl Stat.updateBusyTime other) := by
  induction requests generalizing stat other with
  | nil => exact same
  | cons served rest induction =>
      rw [List.flatMap_cons, List.foldl_append]
      refine induction (Stat.SameBusy.run ?_ served.calls)
      exact same

/-- Reads and writes that are served one after the other: each busy time is the
number of ticks that the requests counted under it cover. -/
theorem served_busy_time (requests : List Served) (idx : Fin 3)
    (ordered : ∀ served ∈ requests, served.beginAt ≤ served.tick)
    (nondecreasing : requests.Pairwise
      fun one other => one.beginAt ≤ other.beginAt) :
    ((requests.foldl Stat.serve Stat.cleared).busy idx).toNat =
      (busyTicks idx (requests.flatMap Served.calls)).card := by
  have times : ∀ call ∈ requests.flatMap Served.calls, ∃ served ∈ requests,
      call.beginAt = served.beginAt ∧ call.endAt = served.tick := by
    intro call member
    obtain ⟨served, listed, own⟩ := List.mem_flatMap.mp member
    rcases List.mem_pair.mp own with rfl | rfl
    · exact ⟨served, listed, rfl, rfl⟩
    · exact ⟨served, listed, rfl, rfl⟩
  have sorted : (requests.flatMap Served.calls).Pairwise
      fun one other => one.beginAt ≤ other.beginAt := by
    refine List.pairwise_flatMap.mpr ⟨?_, ?_⟩
    · intro served _
      simp [Served.calls]
    · refine nondecreasing.imp ?_
      intro one other order call member call' member'
      have same : call.beginAt = one.beginAt := by
        rcases List.mem_pair.mp member with rfl | rfl <;> rfl
      have same' : call'.beginAt = other.beginAt := by
        rcases List.mem_pair.mp member' with rfl | rfl <;> rfl
      rw [same, same']
      exact order
  have forward : ∀ call ∈ requests.flatMap Served.calls, call.idx = idx →
      call.beginAt ≤ call.endAt := by
    intro call member _
    obtain ⟨served, listed, first, last⟩ := times call member
    rw [first, last]
    exact ordered served listed
  obtain ⟨low, counts⟩ := (Counts.cleared idx).run forward
    (fun _ _ _ => Nat.zero_le _) (sorted.filter _)
  rw [Finset.empty_union] at counts
  have same : Stat.cleared.SameBusy Stat.cleared := ⟨rfl, rfl⟩
  rw [(serve_sameBusy same requests).1]
  exact counts.busy_eq

end SimpleSSD.HIL
