import SimpleSSD.Data.Interval
import Mathlib.Logic.Function.Basic

namespace SimpleSSD.PAL

open Data

inductive Operation where
  | read
  | write
  | erase
  deriving DecidableEq, Repr

/-- An entry of `OpTimeStamp`: from the start of the first transfer of a command
to the end of its last. -/
structure Stamp where
  startTick : UInt64
  endTick : UInt64
  ordered : startTick ≤ endTick

namespace Stamp

def first (stamp : Stamp) : Nat := stamp.startTick.toNat

def last (stamp : Stamp) : Nat := stamp.endTick.toNat

theorem first_le (stamp : Stamp) : stamp.first ≤ stamp.last :=
  UInt64.le_iff_toNat_le.mp stamp.ordered

end Stamp

/-- The `std::map` of one operation. -/
structure Stamps where
  entries : List Stamp
  sorted : entries.Pairwise fun stamp later =>
    stamp.startTick < later.startTick

namespace Stamps

def empty : Stamps := ⟨[], .nil⟩

def enter (stamp : Stamp) : List Stamp → List Stamp
  | [] => [stamp]
  | entry :: entries =>
      if stamp.startTick < entry.startTick then
        stamp :: entry :: entries
      else if stamp.startTick = entry.startTick then
        (if entry.endTick < stamp.endTick then stamp else entry) :: entries
      else
        entry :: enter stamp entries

theorem mem_enter {stamp other : Stamp} {entries : List Stamp}
    (member : other ∈ enter stamp entries) :
    other = stamp ∨ other ∈ entries := by
  induction entries with
  | nil => exact .inl (List.mem_singleton.mp member)
  | cons entry entries induction =>
      unfold enter at member
      split at member
      · rcases List.mem_cons.mp member with same | member
        · exact .inl same
        · exact .inr member
      · split at member
        · rcases List.mem_cons.mp member with same | member
          · split at same
            · exact .inl same
            · exact .inr (same ▸ List.mem_cons_self)
          · exact .inr (List.mem_cons_of_mem _ member)
        · rcases List.mem_cons.mp member with same | member
          · exact .inr (same ▸ List.mem_cons_self)
          · exact (induction member).imp_right (List.mem_cons_of_mem _)

theorem enter_sorted (stamp : Stamp) {entries : List Stamp}
    (sorted : entries.Pairwise fun stamp later =>
      stamp.startTick < later.startTick) :
    (enter stamp entries).Pairwise fun stamp later =>
      stamp.startTick < later.startTick := by
  induction entries with
  | nil => exact List.pairwise_singleton _ _
  | cons entry entries induction =>
      obtain ⟨before, rest⟩ := List.pairwise_cons.mp sorted
      unfold enter
      split
      · next earlier =>
          refine List.pairwise_cons.mpr ⟨fun later member => ?_, sorted⟩
          rcases List.mem_cons.mp member with rfl | member
          · exact earlier
          · exact UInt64.lt_trans earlier (before later member)
      · next notEarlier =>
          split
          · next same =>
              refine List.pairwise_cons.mpr ⟨fun later member => ?_, rest⟩
              split
              · rw [same]
                exact before later member
              · exact before later member
          · next different =>
              refine List.pairwise_cons.mpr
                ⟨fun later member => ?_, induction rest⟩
              rcases mem_enter member with rfl | member
              · have le := UInt64.not_lt.mp notEarlier
                exact UInt64.lt_of_le_of_ne le (Ne.symm different)
              · exact before later member

def record (stamps : Stamps) (stamp : Stamp) : Stamps :=
  ⟨enter stamp stamps.entries, enter_sorted stamp stamps.sorted⟩

end Stamps

/-- The local variables of `FlushOpTimeStamp` and the busy time. -/
structure Sweep where
  startTick : UInt64
  endTick : UInt64
  busy : UInt64

namespace Sweep

/-- Both ticks are `(uint64_t)-1` before the first entry. -/
def start (busy : UInt64) : Sweep :=
  ⟨0xFFFFFFFFFFFFFFFF, 0xFFFFFFFFFFFFFFFF, busy⟩

def close (sweep : Sweep) : UInt64 :=
  sweep.busy + (sweep.endTick - sweep.startTick + 1)

def next (sweep : Sweep) (e : Stamp) : Sweep :=
  if sweep.startTick = 0xFFFFFFFFFFFFFFFF ∧
      sweep.endTick = 0xFFFFFFFFFFFFFFFF then
    { sweep with startTick := e.startTick, endTick := e.endTick }
  else if e.startTick < sweep.endTick ∧ e.endTick ≤ sweep.endTick then
    sweep
  else if e.startTick < sweep.endTick ∧ e.endTick > sweep.endTick then
    { sweep with endTick := e.endTick }
  else if e.startTick ≥ sweep.endTick then
    ⟨e.startTick, e.endTick, sweep.close⟩
  else
    sweep

end Sweep

/-- `OpTimeStamp` and the `OpBusyTime` of the statistics. -/
structure OpTimes where
  opTimeStamp : Operation → Stamps
  opBusyTime : Operation → UInt64

namespace OpTimes

def start : OpTimes := ⟨fun _ => .empty, fun _ => 0⟩

def record (times : OpTimes) (operation : Operation) (stamp : Stamp) :
    OpTimes :=
  { times with
    opTimeStamp := Function.update times.opTimeStamp operation
      ((times.opTimeStamp operation).record stamp) }

def flushOpTimeStamp (times : OpTimes) : OpTimes where
  opTimeStamp := fun _ => .empty
  opBusyTime := fun oper =>
    ((times.opTimeStamp oper).entries.foldl Sweep.next
      (.start (times.opBusyTime oper))).close

/-- The end of `TimelineScheduling`, for a command of an operation. -/
def schedule (times : OpTimes) (command : Operation × Stamp) : OpTimes :=
  (times.record command.1 command.2).flushOpTimeStamp

end OpTimes

/-! What the sweep adds. -/

def ticks (entries : List Stamp) : Finset Nat :=
  covered Stamp.first Stamp.last entries

def later (reach endTick : UInt64) : UInt64 :=
  if reach < endTick then endTick else reach

def touches (reach : UInt64) : List Stamp → Nat
  | [] => 0
  | stamp :: rest =>
      (if stamp.startTick = reach then 1 else 0) +
        touches (later reach stamp.endTick) rest

namespace Sweep

theorem close_toNat {sweep : Sweep} (ordered : sweep.startTick ≤ sweep.endTick) :
    sweep.close.toNat = (sweep.busy.toNat +
      (sweep.endTick.toNat - sweep.startTick.toNat + 1)) % 2 ^ 64 := by
  unfold close
  rw [UInt64.toNat_add, UInt64.toNat_add, UInt64.toNat_sub_of_le _ _ ordered]
  simp only [UInt64.reduceToNat]
  omega

/-- What is known of the numbers swept so far: they go on from the start tick
to the end tick, which none of them is past. -/
structure Solid (sweep : Sweep) (numbers : Finset Nat) : Prop where
  ordered : sweep.startTick ≤ sweep.endTick
  bounded : ∀ number ∈ numbers, number ≤ sweep.endTick.toNat
  solid : Finset.Icc sweep.startTick.toNat sweep.endTick.toNat ⊆ numbers

/-- An entry counts an extra tick if it starts at the end tick. -/
theorem Solid.next {sweep : Sweep} {numbers : Finset Nat}
    (solid : sweep.Solid numbers) {e : Stamp}
    (behind : sweep.startTick < e.startTick) :
    (sweep.next e).Solid (numbers ∪ Finset.Icc e.first e.last) ∧
      (sweep.next e).endTick = later sweep.endTick e.endTick ∧
      (sweep.next e).startTick ≤ e.startTick ∧
      ((sweep.next e).close.toNat + numbers.card) % 2 ^ 64 =
        (sweep.close.toNat + (numbers ∪ Finset.Icc e.first e.last).card +
          if e.startTick = sweep.endTick then 1 else 0) % 2 ^ 64 := by
  have ordered := UInt64.le_iff_toNat_le.mp solid.ordered
  have order := e.first_le
  have first_eq : e.first = e.startTick.toNat := rfl
  have last_eq : e.last = e.endTick.toNat := rfl
  have behind_toNat : sweep.startTick.toNat < e.first :=
    UInt64.lt_iff_toNat_lt.mp behind
  have started : ¬ (sweep.startTick = 0xFFFFFFFFFFFFFFFF ∧
      sweep.endTick = 0xFFFFFFFFFFFFFFFF) := by
    rintro ⟨sentinel, -⟩
    have top := e.startTick.toNat_lt
    rw [sentinel] at behind_toNat
    simp only [UInt64.reduceToNat] at behind_toNat
    omega
  have card := card_extend solid.bounded solid.solid
    (Nat.le_of_lt behind_toNat) e.first_le
  have closed := close_toNat solid.ordered
  have touch : e.startTick = sweep.endTick ↔ e.first = sweep.endTick.toNat :=
    UInt64.toNat_inj.symm
  have bounded : ∀ number ∈ numbers ∪ Finset.Icc e.first e.last,
      number ≤ max sweep.endTick.toNat e.last := by
    intro number member
    rcases Finset.mem_union.mp member with member | inside
    · exact Nat.le_trans (solid.bounded number member) (Nat.le_max_left _ _)
    · exact Nat.le_trans (Finset.mem_Icc.mp inside).2 (Nat.le_max_right _ _)
  have filled : ∀ number, sweep.startTick.toNat ≤ number →
      number ≤ max sweep.endTick.toNat e.last → e.first ≤ sweep.endTick.toNat →
      number ∈ numbers ∪ Finset.Icc e.first e.last := by
    intro number lower upper meets
    by_cases below : number ≤ sweep.endTick.toNat
    · exact Finset.mem_union_left _
        (solid.solid (Finset.mem_Icc.mpr ⟨lower, below⟩))
    · exact Finset.mem_union_right _ (Finset.mem_Icc.mpr (by omega))
  unfold Sweep.next
  rw [if_neg started]
  by_cases before : e.startTick < sweep.endTick
  · have before_toNat : e.first < sweep.endTick.toNat :=
      UInt64.lt_iff_toNat_lt.mp before
    have apart : e.startTick ≠ sweep.endTick := UInt64.ne_of_lt before
    by_cases longer : sweep.endTick < e.endTick
    · have longer_toNat : sweep.endTick.toNat < e.last :=
        UInt64.lt_iff_toNat_lt.mp longer
      rw [if_neg fun both => UInt64.not_lt.mpr both.2 longer,
        if_pos ⟨before, longer⟩]
      have ordered' : sweep.startTick ≤ e.endTick :=
        UInt64.le_of_lt (UInt64.lt_of_lt_of_le behind e.ordered)
      refine ⟨⟨ordered', ?_, ?_⟩, ?_, UInt64.le_of_lt behind, ?_⟩
      · rwa [max_eq_right (Nat.le_of_lt longer_toNat)] at bounded
      · intro number inside
        have inside := Finset.mem_Icc.mp inside
        exact filled number inside.1
          (Nat.le_trans inside.2 (Nat.le_max_right _ _)) (by omega)
      · rw [later, if_pos longer]
      · rw [if_neg apart, card, if_pos (by omega), closed, close_toNat ordered']
        dsimp only
        omega
    · have shorter : e.last ≤ sweep.endTick.toNat :=
        UInt64.le_iff_toNat_le.mp (UInt64.not_lt.mp longer)
      rw [if_pos ⟨before, UInt64.not_lt.mp longer⟩]
      refine ⟨⟨solid.ordered, ?_, ?_⟩, ?_, UInt64.le_of_lt behind, ?_⟩
      · rwa [max_eq_left shorter] at bounded
      · intro number inside
        have inside := Finset.mem_Icc.mp inside
        exact filled number inside.1
          (Nat.le_trans inside.2 (Nat.le_max_left _ _)) (by omega)
      · rw [later, if_neg longer]
      · rw [if_neg apart, card, if_pos (by omega)]
        omega
  · have beyond := UInt64.not_lt.mp before
    have beyond_toNat : sweep.endTick.toNat ≤ e.first :=
      UInt64.le_iff_toNat_le.mp beyond
    rw [if_neg fun both => before both.1, if_neg fun both => before both.1,
      if_pos beyond]
    refine ⟨⟨e.ordered, ?_, ?_⟩, ?_, UInt64.le_refl _, ?_⟩
    · rwa [max_eq_right (by omega)] at bounded
    · intro number inside
      exact Finset.mem_union_right _ inside
    · unfold later
      split
      · rfl
      · next notLonger =>
          apply UInt64.le_antisymm
          · exact UInt64.not_lt.mp notLonger
          · exact UInt64.le_trans beyond e.ordered
    · rw [close_toNat e.ordered]
      dsimp only
      by_cases touching : e.startTick = sweep.endTick
      · have meets := touch.mp touching
        rw [if_pos touching, card, if_pos (by omega)]
        omega
      · have apart := (not_congr touch).mp touching
        rw [if_neg touching, card, if_neg (by omega)]
        omega

theorem foldl_close (rest : List Stamp) {sweep : Sweep}
    {numbers : Finset Nat} (solid : sweep.Solid numbers)
    (behind : ∀ stamp ∈ rest, sweep.startTick < stamp.startTick)
    (sorted : rest.Pairwise fun stamp later =>
      stamp.startTick < later.startTick) :
    ((rest.foldl next sweep).close.toNat + numbers.card) % 2 ^ 64 =
      (sweep.close.toNat + (numbers ∪ ticks rest).card +
        touches sweep.endTick rest) % 2 ^ 64 := by
  induction rest generalizing sweep numbers with
  | nil => simp [ticks, touches]
  | cons e rest induction =>
      obtain ⟨after, sorted⟩ := List.pairwise_cons.mp sorted
      obtain ⟨solid', end_eq, start_le, step⟩ :=
        solid.next (behind e List.mem_cons_self)
      have run := induction solid'
        (fun stamp member => UInt64.lt_of_le_of_lt start_le
          (after stamp member)) sorted
      rw [end_eq] at run
      have union : numbers ∪ ticks (e :: rest) =
          numbers ∪ Finset.Icc e.first e.last ∪ ticks rest := by
        rw [Finset.union_assoc]
        rfl
      rw [List.foldl_cons, union, touches]
      omega

/-- Too few entries follow for the touches to vanish in 64 bits. -/
theorem touches_lt (rest : List Stamp) {reach start : UInt64}
    (behind : ∀ stamp ∈ rest, start < stamp.startTick)
    (sorted : rest.Pairwise fun stamp later =>
      stamp.startTick < later.startTick) :
    touches reach rest + start.toNat < 2 ^ 64 := by
  induction rest generalizing reach start with
  | nil =>
      rw [touches, Nat.zero_add]
      exact start.toNat_lt
  | cons e rest induction =>
      obtain ⟨after, sorted⟩ := List.pairwise_cons.mp sorted
      have run := @induction (later reach e.endTick) e.startTick after sorted
      have first := UInt64.lt_iff_toNat_lt.mp (behind e List.mem_cons_self)
      rw [touches]
      split <;> omega

end Sweep

/-- There are intervals, and each starts somewhere else than where those before
it end. -/
def Apart : List Stamp → Prop
  | [] => False
  | stamp :: rest => touches stamp.endTick rest = 0

instance : (entries : List Stamp) → Decidable (Apart entries)
  | [] => inferInstanceAs (Decidable False)
  | _ :: _ => inferInstanceAs (Decidable (_ = _))

namespace OpTimes

def Exact (times : OpTimes) (oper : Operation) : Prop :=
  times.flushOpTimeStamp.opBusyTime oper = times.opBusyTime oper +
    UInt64.ofNat (ticks (times.opTimeStamp oper).entries).card

theorem flush_toNat (times : OpTimes) (oper : Operation) (stamp : Stamp)
    (rest : List Stamp)
    (entries : (times.opTimeStamp oper).entries = stamp :: rest) :
    (times.flushOpTimeStamp.opBusyTime oper).toNat =
      ((times.opBusyTime oper).toNat + (ticks (stamp :: rest)).card +
        touches stamp.endTick rest) % 2 ^ 64 := by
  have sorted := (times.opTimeStamp oper).sorted
  rw [entries] at sorted
  obtain ⟨after, sorted⟩ := List.pairwise_cons.mp sorted
  have first : (Sweep.start (times.opBusyTime oper)).next stamp =
      ⟨stamp.startTick, stamp.endTick, times.opBusyTime oper⟩ := rfl
  have solid : Sweep.Solid
      ⟨stamp.startTick, stamp.endTick, times.opBusyTime oper⟩
      (Finset.Icc stamp.first stamp.last) :=
    ⟨stamp.ordered, fun number inside => (Finset.mem_Icc.mp inside).2,
      fun number inside => inside⟩
  have run := Sweep.foldl_close rest solid after sorted
  have closed := Sweep.close_toNat solid.ordered
  have order := stamp.first_le
  have first_eq : stamp.first = stamp.startTick.toNat := rfl
  have last_eq : stamp.last = stamp.endTick.toNat := rfl
  rw [Nat.card_Icc] at run
  dsimp only at run closed
  have bound := UInt64.toNat_lt (rest.foldl Sweep.next
    ⟨stamp.startTick, stamp.endTick, times.opBusyTime oper⟩).close
  unfold flushOpTimeStamp
  dsimp only
  rw [entries, List.foldl_cons, first]
  change _ = (_ + (Finset.Icc stamp.first stamp.last ∪ ticks rest).card + _) % _
  omega

/-- Without an entry the sentinels count a tick. -/
theorem flush_empty (times : OpTimes) (oper : Operation)
    (entries : (times.opTimeStamp oper).entries = []) :
    times.flushOpTimeStamp.opBusyTime oper = times.opBusyTime oper + 1 := by
  unfold flushOpTimeStamp
  dsimp only
  rw [entries, List.foldl_nil, Sweep.close, Sweep.start]
  dsimp only
  rw [UInt64.sub_self, UInt64.zero_add]

theorem exact_iff (times : OpTimes) (oper : Operation) :
    times.Exact oper ↔ Apart (times.opTimeStamp oper).entries := by
  unfold Exact
  rw [← UInt64.toNat_inj, UInt64.toNat_add, UInt64.toNat_ofNat']
  cases entries : (times.opTimeStamp oper).entries with
  | nil =>
      rw [flush_empty times oper entries, UInt64.toNat_add]
      change (_ + 1) % 2 ^ 64 = (_ + 0 % 2 ^ 64) % 2 ^ 64 ↔ False
      rw [iff_false]
      omega
  | cons stamp rest =>
      rw [flush_toNat times oper stamp rest entries]
      have sorted := (times.opTimeStamp oper).sorted
      rw [entries] at sorted
      obtain ⟨after, sorted⟩ := List.pairwise_cons.mp sorted
      have bound := @Sweep.touches_lt rest stamp.endTick _ after sorted
      unfold Apart
      omega

/-! Commands of a simulation: each one is recorded and flushed at once. -/

def ownTicks (commands : List (Operation × Stamp)) (oper : Operation) : Nat :=
  ((commands.filter fun command => command.1 = oper).map fun command =>
    extent Stamp.first Stamp.last command.2).sum

def others (commands : List (Operation × Stamp)) (oper : Operation) : Nat :=
  commands.countP fun command => command.1 ≠ oper

theorem schedule_busy {times : OpTimes}
    (empty : ∀ oper, times.opTimeStamp oper = .empty)
    (command : Operation × Stamp) (oper : Operation) :
    ((times.schedule command).opBusyTime oper).toNat =
      ((times.opBusyTime oper).toNat +
        if command.1 = oper then extent Stamp.first Stamp.last command.2
        else 1) % 2 ^ 64 := by
  unfold schedule
  by_cases own : command.1 = oper
  · subst own
    have entries : ((times.record command.1 command.2).opTimeStamp
        command.1).entries = [command.2] := by
      simp only [record, Function.update_self, empty]
      rfl
    rw [flush_toNat _ _ _ _ entries, if_pos rfl]
    change ((times.opBusyTime command.1).toNat + (Finset.Icc _ _ ∪ ∅).card +
      0) % 2 ^ 64 = _
    rw [Finset.union_empty, Nat.card_Icc]
    rfl
  · have entries : ((times.record command.1 command.2).opTimeStamp
        oper).entries = [] := by
      simp only [record, Function.update_of_ne (Ne.symm own), empty]
      rfl
    rw [flush_empty _ _ entries, if_neg own, UInt64.toNat_add]
    rfl

theorem foldl_busy (commands : List (Operation × Stamp)) {times : OpTimes}
    (empty : ∀ oper, times.opTimeStamp oper = .empty) (oper : Operation) :
    ((commands.foldl schedule times).opBusyTime oper).toNat =
      ((times.opBusyTime oper).toNat + ownTicks commands oper +
        others commands oper) % 2 ^ 64 := by
  induction commands generalizing times with
  | nil => exact (Nat.mod_eq_of_lt (UInt64.toNat_lt _)).symm
  | cons command commands induction =>
      have run := @induction (times.schedule command) fun _ => rfl
      have step := schedule_busy empty command oper
      rw [List.foldl_cons, run, step]
      by_cases own : command.1 = oper
      · simp only [ownTicks, others, own, decide_true, List.filter_cons_of_pos,
          List.map_cons, List.sum_cons, List.countP_cons, if_true]
        simp
        omega
      · simp [ownTicks, others, own]
        omega

/-- The busy time of an operation is the time of its commands. -/
def CountsOwn (commands : List (Operation × Stamp)) (oper : Operation) :
    Prop :=
  (commands.foldl schedule start).opBusyTime oper =
    UInt64.ofNat (ownTicks commands oper)

theorem countsOwn_iff (commands : List (Operation × Stamp))
    (oper : Operation) :
    CountsOwn commands oper ↔ 2 ^ 64 ∣ others commands oper := by
  unfold CountsOwn
  rw [← UInt64.toNat_inj, foldl_busy commands (fun _ => rfl),
    UInt64.toNat_ofNat']
  change (0 + _ + _) % 2 ^ 64 = _ ↔ _
  omega

/-- The busy times are exact where each operation has intervals that do not
start at the end of those before; a simulation counts a tick of each operation
for every command of another. -/
theorem flushOpTimeStamp_exact (times : OpTimes)
    (commands : List (Operation × Stamp)) :
    ((∀ oper, times.Exact oper ∧
        (times.flushOpTimeStamp.opTimeStamp oper).entries = []) ↔
      ∀ oper, Apart (times.opTimeStamp oper).entries) ∧
      ((∀ oper, CountsOwn commands oper) ↔
        ∀ oper, 2 ^ 64 ∣ others commands oper) := by
  refine ⟨?_, ?_⟩
  · exact forall_congr' fun oper =>
      (and_iff_left rfl).trans (times.exact_iff oper)
  · exact forall_congr' fun oper => countsOwn_iff commands oper

def fiveTicks : Stamp := ⟨0, 4, UInt64.le_iff_toNat_le.mpr (Nat.zero_le 4)⟩

def nextTicks : Stamp :=
  ⟨4, 6, UInt64.le_iff_toNat_le.mpr (Nat.le_add_right 4 2)⟩

/-- A read counts a tick of the writes, and of two intervals that share a tick
this is counted twice. -/
theorem busyTime_counts_more :
    (¬ (start.record .read fiveTicks).Exact .write ∧
      ¬ ((start.record .read fiveTicks).record .read nextTicks).Exact .read) ∧
      ¬ CountsOwn [(.read, fiveTicks)] .write := by
  rw [exact_iff, exact_iff, countsOwn_iff]
  decide +kernel

end OpTimes

end SimpleSSD.PAL
