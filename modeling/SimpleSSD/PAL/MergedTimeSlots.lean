import SimpleSSD.Data.Interval
import SimpleSSD.Data.Result

namespace SimpleSSD.PAL

open Data

structure TimeSlot where
  startTick : UInt64
  endTick : UInt64
  deriving DecidableEq, Repr

namespace TimeSlot

def make (startTick duration : UInt64) : TimeSlot :=
  ⟨startTick, startTick + duration - 1⟩

def first (slot : TimeSlot) : Nat := slot.startTick.toNat

def last (slot : TimeSlot) : Nat := slot.endTick.toNat

end TimeSlot

inductive Side where
  | inside
  | rightside
  deriving DecidableEq, Repr

/-- "find s position", "find e position": an index and a side of the slot
there. -/
def findPosition (tick : UInt64) :
    (slots : List TimeSlot) → (index : Nat) → Option (Nat × Side)
  | [], _ => none
  | cur :: rest, index =>
      if cur.startTick ≤ tick ∧ tick ≤ cur.endTick then
        some (index, .inside)
      else
        match rest with
        | [] => some (index, .rightside)
        | next :: others =>
            if tick < next.startTick then
              some (index, .rightside)
            else
              findPosition tick (next :: others) (index + 1)

inductive IteratorFault where
  /-- The loop that erases up to `epos` runs past the end of the list. -/
  | pastEnd
  deriving DecidableEq, Repr

/-- The slots behind `spos` are erased up to `epos`. -/
def closeSlots (slots : List TimeSlot) (spos : Nat) (tsMEM : TimeSlot)
    (epos : Option (Nat × Side)) : Except IteratorFault (List TimeSlot) :=
  match epos with
  | none => .ok slots
  | some (epos, epnt) =>
      match slots[spos]?, slots[epos]? with
      | some start, some stop =>
          if epos ≤ spos then
            .error .pastEnd
          else
            .ok (slots.take spos ++
              { start with
                endTick :=
                  if epnt = .inside then stop.endTick else tsMEM.endTick } ::
              slots.drop (epos + 1))
      | _, _ => .error .pastEnd

def mergeSlot (slots : List TimeSlot) (tsMEM : TimeSlot) :
    Except IteratorFault (List TimeSlot) :=
  let duration := tsMEM.endTick - tsMEM.startTick + 1
  if slots = [] then
    .ok [.make tsMEM.startTick duration]
  else
    let spos := findPosition tsMEM.startTick slots 0
    let epos := findPosition tsMEM.endTick slots 0
    match spos, epos with
    | some (s, .inside), some (e, .inside) =>
        if s = e then
          .ok slots
        else
          closeSlots (.make tsMEM.startTick 999 :: slots) 0 tsMEM
            (some (e + 1, .inside))
    | some (s, .rightside), epos =>
        closeSlots (slots.insertIdx (s + 1) (.make tsMEM.startTick duration)) s
          tsMEM (epos.map fun position =>
            (if s ≤ position.1 then position.1 + 1 else position.1,
              position.2))
    | _, none => .ok (.make tsMEM.startTick duration :: slots)
    | _, some (e, side) =>
        closeSlots (.make tsMEM.startTick 999 :: slots) 0 tsMEM
          (some (e + 1, side))

/-- `FlushATimeSlotBusyTime`. -/
def flushSlots (currentTick : UInt64) :
    List TimeSlot → UInt64 → List TimeSlot × UInt64
  | [], timeSum => ([], timeSum)
  | cur :: slots, timeSum =>
      if cur.endTick < currentTick then
        flushSlots currentTick slots
          (timeSum + (cur.endTick - cur.startTick + 1))
      else
        (cur :: slots, timeSum)

/-! Where the positions lie in a list in order. -/

abbrev InOrder (slots : List TimeSlot) : Prop :=
  Ordered TimeSlot.first TimeSlot.last slots

abbrev ticksOf (slots : List TimeSlot) : Finset Nat :=
  covered TimeSlot.first TimeSlot.last slots

theorem InOrder.split {before after : List TimeSlot} {cur : TimeSlot}
    (ordered : InOrder (before ++ cur :: after)) :
    (∀ slot ∈ before, slot.last < cur.first) ∧
      (∀ slot ∈ after, cur.last < slot.first) ∧
      InOrder before ∧ InOrder (cur :: after) := by
  obtain ⟨left, right, across⟩ := List.pairwise_append.mp ordered.apart
  refine ⟨fun slot member => across slot member cur List.mem_cons_self,
    (List.pairwise_cons.mp right).1, ⟨fun slot member => ?_, left⟩,
    ⟨fun slot member => ?_, right⟩⟩
  · exact ordered.nonempty slot (List.mem_append_left _ member)
  · exact ordered.nonempty slot (List.mem_append_right _ member)

theorem exists_split {slots : List TimeSlot} {tick : Nat} {head : TimeSlot}
    (start : head.first ≤ tick) :
    ∃ before cur after, head :: slots = before ++ cur :: after ∧
      cur.first ≤ tick ∧ ∀ slot ∈ after.head?, tick < slot.first := by
  induction slots generalizing head with
  | nil => exact ⟨[], head, [], rfl, start, fun _ none => nomatch none⟩
  | cons next others induction =>
      by_cases stop : tick < next.first
      · refine ⟨[], head, next :: others, rfl, start, ?_⟩
        rintro slot ⟨⟩
        exact stop
      · obtain ⟨before, cur, after, split, lower, upper⟩ :=
          induction (Nat.not_lt.mp stop)
        exact ⟨head :: before, cur, after, by rw [split]; rfl, lower, upper⟩

theorem InOrder.behind {cur : TimeSlot} {after : List TimeSlot} {tick : Nat}
    (ordered : InOrder (cur :: after))
    (next : ∀ slot ∈ after.head?, tick < slot.first) :
    ∀ slot ∈ after, tick < slot.first := by
  cases after with
  | nil => exact fun _ none => nomatch none
  | cons head rest =>
      have first := next head rfl
      intro slot member
      rcases List.mem_cons.mp member with rfl | member
      · exact first
      · have order := (List.pairwise_cons.mp ordered.tail.apart).1 slot member
        have nonempty := ordered.nonempty head
          (List.mem_cons_of_mem _ List.mem_cons_self)
        omega

theorem findPosition_inside {cur : TimeSlot} {tick : UInt64}
    (lower : cur.startTick ≤ tick) (upper : tick ≤ cur.endTick)
    (rest : List TimeSlot) (index : Nat) :
    findPosition tick (cur :: rest) index = some (index, .inside) := by
  cases rest with
  | nil => rw [findPosition, if_pos ⟨lower, upper⟩]
  | cons next others => rw [findPosition, if_pos ⟨lower, upper⟩]

theorem findPosition_behind {cur : TimeSlot} {tick : UInt64}
    (behind : cur.endTick < tick) {rest : List TimeSlot}
    (stop : ∀ slot ∈ rest.head?, tick < slot.startTick) (index : Nat) :
    findPosition tick (cur :: rest) index = some (index, .rightside) := by
  have outside : ¬ (cur.startTick ≤ tick ∧ tick ≤ cur.endTick) :=
    fun both => UInt64.not_lt.mpr both.2 behind
  cases rest with
  | nil => rw [findPosition, if_neg outside]
  | cons next others =>
      rw [findPosition, if_neg outside, if_pos (stop next rfl)]

theorem findPosition_next {cur next : TimeSlot} {tick : UInt64}
    (behind : cur.endTick < tick) (start : next.startTick ≤ tick)
    (others : List TimeSlot) (index : Nat) :
    findPosition tick (cur :: next :: others) index =
      findPosition tick (next :: others) (index + 1) := by
  rw [findPosition, if_neg fun both => UInt64.not_lt.mpr both.2 behind,
    if_neg (UInt64.not_lt.mpr start)]

theorem findPosition_split {before after : List TimeSlot} {cur : TimeSlot}
    {tick : UInt64} (ordered : InOrder (before ++ cur :: after))
    (lower : cur.first ≤ tick.toNat)
    (upper : ∀ slot ∈ after.head?, tick.toNat < slot.first) (index : Nat) :
    findPosition tick (before ++ cur :: after) index =
      some (index + before.length,
        if tick.toNat ≤ cur.last then .inside else .rightside) := by
  induction before generalizing index with
  | nil =>
      by_cases inside : tick.toNat ≤ cur.last
      · rw [if_pos inside]
        exact findPosition_inside (UInt64.le_iff_toNat_le.mpr lower)
          (UInt64.le_iff_toNat_le.mpr inside) _ _
      · rw [if_neg inside]
        exact findPosition_behind
          (UInt64.lt_iff_toNat_lt.mpr (Nat.not_le.mp inside))
          (fun slot next => UInt64.lt_iff_toNat_lt.mpr (upper slot next)) _
  | cons head before induction =>
      have run := induction ordered.tail (index + 1)
      have earlier := ordered.split.1
      have behind : head.endTick < tick := by
        have := earlier head List.mem_cons_self
        exact UInt64.lt_iff_toNat_lt.mpr (Nat.lt_of_lt_of_le this lower)
      have length : index + 1 + before.length =
          index + (head :: before).length := by
        rw [List.length_cons]
        omega
      rw [length] at run
      rw [← run]
      cases before with
      | nil =>
          exact findPosition_next behind (UInt64.le_iff_toNat_le.mpr lower) _ _
      | cons next others =>
          have order := earlier next (by simp)
          have nonempty := ordered.nonempty next (by simp)
          exact findPosition_next behind
            (UInt64.le_iff_toNat_le.mpr (show next.first ≤ _ by omega)) _ _

/-! A slot is prolonged over the slots that the new one meets. -/

/-- The end of what a slot makes with the last one that it meets. -/
def endOf (tsMEM stop : TimeSlot) : UInt64 :=
  if tsMEM.endTick ≤ stop.endTick then stop.endTick else tsMEM.endTick

theorem endOf_toNat (tsMEM stop : TimeSlot) :
    (endOf tsMEM stop).toNat = max tsMEM.last stop.last := by
  unfold endOf
  split
  · next le => exact (max_eq_right (UInt64.le_iff_toNat_le.mp le)).symm
  · next lt =>
      have lt := UInt64.lt_iff_toNat_lt.mp (UInt64.not_le.mp lt)
      exact (max_eq_left (Nat.le_of_lt lt)).symm

/-- The slot `cur` meets the new one, and the slots from it to `stop` are met by
it. -/
structure Meets (tsMEM : TimeSlot) (slots before : List TimeSlot)
    (cur : TimeSlot) (tail middle : List TimeSlot) (stop : TimeSlot)
    (after : List TimeSlot) : Prop where
  slots_eq : slots = before ++ cur :: tail
  tail_eq : cur :: tail = middle ++ stop :: after
  ordered : tsMEM.first ≤ tsMEM.last
  lower : cur.first ≤ tsMEM.first
  meets : tsMEM.first ≤ cur.last + 1
  reached : stop.first ≤ tsMEM.last
  upper : ∀ slot ∈ after, tsMEM.last < slot.first

section Meets

variable {tsMEM cur stop : TimeSlot}
  {slots before tail middle after : List TimeSlot}

/-- What is left: `cur` up to the end of `stop` and the new slot. -/
def prolonged (tsMEM : TimeSlot) (before : List TimeSlot) (cur stop : TimeSlot)
    (after : List TimeSlot) : List TimeSlot :=
  before ++ { cur with endTick := endOf tsMEM stop } :: after

theorem Meets.stop_after
    (met : Meets tsMEM slots before cur tail middle stop after)
    (order : InOrder slots) :
    cur.first ≤ stop.first ∧ (∀ slot ∈ middle, cur.first ≤ slot.first ∧
      slot.last < stop.first) ∧ ∀ slot ∈ after, stop.last < slot.first := by
  have slots_eq := met.slots_eq
  subst slots_eq
  have rest := order.split.2.2.2
  have nonempty := rest.nonempty cur List.mem_cons_self
  have behind : ∀ slot ∈ middle ++ stop :: after,
      cur.first ≤ slot.first := by
    intro slot member
    rw [← met.tail_eq] at member
    rcases List.mem_cons.mp member with rfl | member
    · exact Nat.le_refl _
    · have := (List.pairwise_cons.mp rest.apart).1 slot member
      omega
  rw [met.tail_eq] at rest
  exact ⟨behind stop (by simp), fun slot member => ⟨behind slot
    (List.mem_append_left _ member), rest.split.1 slot member⟩,
    rest.split.2.1⟩

theorem Meets.inOrder
    (met : Meets tsMEM slots before cur tail middle stop after)
    (order : InOrder slots) :
    InOrder (prolonged tsMEM before cur stop after) := by
  obtain ⟨-, -, stop_after⟩ := met.stop_after order
  have slots_eq := met.slots_eq
  subst slots_eq
  obtain ⟨earlier, -, before_order, rest⟩ := order.split
  have reached := endOf_toNat tsMEM stop
  have ordered := met.ordered
  have lower := met.lower
  have nonempty : cur.first ≤ (endOf tsMEM stop).toNat := by omega
  have after_order : InOrder after := by
    rw [met.tail_eq] at rest
    exact rest.split.2.2.2.tail
  refine ⟨fun slot member => ?_, List.pairwise_append.mpr
    ⟨before_order.apart, List.pairwise_cons.mpr ⟨fun slot member => ?_,
      after_order.apart⟩, fun slot member later later_member => ?_⟩⟩
  · rcases List.mem_append.mp member with member | member
    · exact before_order.nonempty slot member
    · rcases List.mem_cons.mp member with rfl | member
      · exact nonempty
      · exact after_order.nonempty slot member
  · have := stop_after slot member
    have := met.upper slot member
    change (endOf tsMEM stop).toNat < slot.first
    omega
  · have apart := earlier slot member
    rcases List.mem_cons.mp later_member with rfl | later_member
    · exact apart
    · have := stop_after later later_member
      have := met.upper later later_member
      omega

theorem Meets.ticks
    (met : Meets tsMEM slots before cur tail middle stop after)
    (order : InOrder slots) :
    ticksOf (prolonged tsMEM before cur stop after) =
      ticksOf slots ∪ Finset.Icc tsMEM.first tsMEM.last := by
  obtain ⟨cur_le, middle_after, -⟩ := met.stop_after order
  have slots_eq := met.slots_eq
  rw [met.tail_eq] at slots_eq
  have reached := endOf_toNat tsMEM stop
  have ordered := met.ordered
  have lower := met.lower
  have meets := met.meets
  have stop_reached := met.reached
  have cur_member : cur = stop ∨ cur ∈ middle := by
    have head := congrArg List.head? met.tail_eq
    cases middle with
    | nil => exact .inl (Option.some.inj head)
    | cons first others =>
        rw [Option.some.inj head]
        exact .inr List.mem_cons_self
  ext tick
  unfold ticksOf
  rw [slots_eq, prolonged, covered_append, covered_append, covered_append,
    covered_cons, covered_cons]
  simp only [Finset.mem_union, Finset.mem_Icc]
  change _ ∨ (cur.first ≤ tick ∧ tick ≤ (endOf tsMEM stop).toNat) ∨ _ ↔ _
  constructor
  · rintro (member | ⟨start, stopped⟩ | member)
    · exact .inl (.inl member)
    · by_cases own : tick ≤ cur.last
      · rcases cur_member with rfl | member
        · exact .inl (.inr (.inr (.inl ⟨start, own⟩)))
        · exact .inl (.inr (.inl (mem_covered.mpr ⟨cur, member, start, own⟩)))
      · by_cases new : tick ≤ tsMEM.last
        · exact .inr ⟨by omega, new⟩
        · exact .inl (.inr (.inr (.inl ⟨by omega, by omega⟩)))
    · exact .inl (.inr (.inr (.inr member)))
  · rintro ((member | member | ⟨start, stopped⟩ | member) | ⟨start, stopped⟩)
    · exact .inl member
    · obtain ⟨slot, slot_member, slot_first, slot_last⟩ :=
        mem_covered.mp member
      have bounds := middle_after slot slot_member
      exact .inr (.inl ⟨by omega, by omega⟩)
    · exact .inr (.inl ⟨by omega, by omega⟩)
    · exact .inr (.inr member)
    · exact .inr (.inl ⟨by omega, by omega⟩)

end Meets

/-! What the branches of the merge make of a slot that is prolonged. -/

structure DieInterval extends TimeSlot where
  ordered : startTick ≤ endTick

namespace DieInterval

/-- The new slot is the first, lies in a slot, goes on where a slot ends, or
starts with the first slot. -/
def Merges (slots : List TimeSlot) (tsMEM : DieInterval) : Prop :=
  slots = [] ∨
    (∃ slot ∈ slots, slot.first ≤ tsMEM.first ∧ tsMEM.last ≤ slot.last) ∨
    ((∃ slot ∈ slots, tsMEM.first = slot.last + 1) ∧
      ∀ slot ∈ slots, ¬ (slot.first ≤ tsMEM.first ∧
        tsMEM.first ≤ slot.last)) ∨
    ∃ slot ∈ slots.head?, slot.first = tsMEM.first

instance (slots : List TimeSlot) (tsMEM : DieInterval) :
    Decidable (tsMEM.Merges slots) :=
  inferInstanceAs (Decidable (_ ∨ _ ∨ _ ∨ _))

theorem first_le (tsMEM : DieInterval) : tsMEM.first ≤ tsMEM.last :=
  UInt64.le_iff_toNat_le.mp tsMEM.ordered

end DieInterval

theorem make_span {start stop : UInt64} :
    TimeSlot.make start (stop - start + 1) = ⟨start, stop⟩ := by
  unfold TimeSlot.make
  congr 1
  grind

/-- The slots between the prolonged one and the last that is met go. -/
theorem closeSlots_eq {before between after : List TimeSlot}
    {start stop tsMEM : TimeSlot} {side : Side} (epos : Nat)
    (position : epos = before.length + 1 + between.length) :
    closeSlots (before ++ start :: (between ++ stop :: after)) before.length
        tsMEM (some (epos, side)) =
      .ok (before ++ { start with
        endTick := if side = .inside then stop.endTick else tsMEM.endTick } ::
          after) := by
  subst position
  have first : (before ++ start :: (between ++ stop :: after))[before.length]? =
      some start := by
    simp
  have last : (before ++ start :: (between ++ stop :: after))[before.length +
      1 + between.length]? = some stop := by
    rw [List.getElem?_append_right (by omega)]
    simp [Nat.add_assoc, Nat.add_comm 1]
  have kept : (before ++ start :: (between ++ stop :: after)).drop
      (before.length + 1 + between.length + 1) = after := by
    have position : before.length + 1 + between.length + 1 =
        (before ++ start :: between ++ [stop]).length := by
      simp
      omega
    have regroup : before ++ start :: (between ++ stop :: after) =
        (before ++ start :: between ++ [stop]) ++ after := by
      simp
    rw [position, regroup, List.drop_left]
  unfold closeSlots
  dsimp only
  rw [first, last]
  dsimp only
  rw [if_neg (by omega), kept, List.take_left]

theorem endOf_side (tsMEM stop : TimeSlot) :
    (if (if tsMEM.endTick.toNat ≤ stop.last then Side.inside
        else Side.rightside) = Side.inside then stop.endTick
      else tsMEM.endTick) = endOf tsMEM stop := by
  unfold endOf
  by_cases le : tsMEM.endTick ≤ stop.endTick
  · have reached : tsMEM.endTick.toNat ≤ stop.last :=
      UInt64.le_iff_toNat_le.mp le
    rw [if_pos le, if_pos reached, if_pos rfl]
  · have lt : ¬ tsMEM.endTick.toNat ≤ stop.last :=
      fun reached => le (UInt64.le_iff_toNat_le.mpr reached)
    rw [if_neg le, if_neg lt, if_neg (by decide)]

theorem insertIdx_behind (before tail : List α) (cur new : α) :
    (before ++ cur :: tail).insertIdx (before.length + 1) new =
      before ++ cur :: new :: tail := by
  induction before with
  | nil => rfl
  | cons head before induction =>
      rw [List.cons_append, List.length_cons, List.insertIdx_succ_cons,
        induction]
      rfl

theorem mergeSlot_behind {tsMEM : DieInterval} {before tail : List TimeSlot}
    {cur : TimeSlot} (order : InOrder (before ++ cur :: tail))
    (goes_on : tsMEM.first = cur.last + 1)
    (free : ∀ slot ∈ tail.head?, tsMEM.first < slot.first) :
    ∃ middle stop after,
      Meets tsMEM.toTimeSlot (before ++ cur :: tail) before cur tail middle stop
        after ∧
      mergeSlot (before ++ cur :: tail) tsMEM.toTimeSlot =
        .ok (prolonged tsMEM.toTimeSlot before cur stop after) := by
  have nonempty := order.nonempty cur (by simp)
  have length := tsMEM.first_le
  obtain ⟨middle, stop, after, tail_eq, reached, upper⟩ :=
    @exists_split tail tsMEM.last cur (by omega)
  have order' := order
  rw [tail_eq, ← List.append_assoc] at order'
  have upper' := order'.split.2.2.2.behind upper
  have spos := findPosition_split order (show cur.first ≤ _ by
    change cur.first ≤ tsMEM.first
    omega) free 0
  have epos := findPosition_split order' reached upper 0
  rw [List.append_assoc, ← tail_eq] at epos
  have right : ¬ tsMEM.startTick.toNat ≤ cur.last := by
    change ¬ tsMEM.first ≤ cur.last
    omega
  rw [if_neg right, Nat.zero_add] at spos
  rw [Nat.zero_add, List.length_append] at epos
  refine ⟨middle, stop, after, ⟨rfl, tail_eq, length, by omega, by omega,
    reached, upper'⟩, ?_⟩
  unfold mergeSlot
  rw [if_neg (by simp), spos, epos]
  dsimp only [Option.map_some]
  rw [if_pos (by omega), make_span]
  rw [insertIdx_behind]
  cases middle with
  | nil =>
      cases tail_eq
      have past : ¬ tsMEM.endTick.toNat ≤ cur.last := by
        change ¬ tsMEM.last ≤ cur.last
        omega
      have past_endOf : endOf tsMEM.toTimeSlot cur = tsMEM.endTick := by
        rw [← endOf_side, if_neg past, if_neg (by decide)]
      rw [if_neg past, prolonged, past_endOf]
      exact @closeSlots_eq before [] tail cur
        ⟨tsMEM.startTick, tsMEM.endTick⟩ tsMEM.toTimeSlot .rightside
        (before.length + 1) rfl
  | cons head middle =>
      cases tail_eq
      have closed := @closeSlots_eq before
        (⟨tsMEM.startTick, tsMEM.endTick⟩ :: middle) after cur stop
        tsMEM.toTimeSlot
        (if tsMEM.endTick.toNat ≤ stop.last then .inside else .rightside)
        (before.length + (cur :: middle).length + 1) (by
          simp only [List.length_cons]
          omega)
      rw [endOf_side] at closed
      exact closed

theorem mergeSlot_first {tsMEM : DieInterval} {tail : List TimeSlot}
    {cur : TimeSlot} (order : InOrder (cur :: tail))
    (same : cur.first = tsMEM.first) (past : cur.last < tsMEM.last) :
    ∃ middle stop after,
      Meets tsMEM.toTimeSlot (cur :: tail) [] cur tail middle stop after ∧
      mergeSlot (cur :: tail) tsMEM.toTimeSlot =
        .ok (prolonged tsMEM.toTimeSlot [] cur stop after) := by
  have nonempty := order.nonempty cur List.mem_cons_self
  have start : cur.startTick = tsMEM.startTick := UInt64.toNat_inj.mp same
  obtain ⟨middle, stop, after, tail_eq, reached, upper⟩ :=
    @exists_split tail tsMEM.last cur (by omega)
  have order' := order
  rw [tail_eq] at order'
  have upper' := order'.split.2.2.2.behind upper
  have spos : findPosition tsMEM.startTick (cur :: tail) 0 =
      some (0, .inside) :=
    findPosition_inside (start ▸ UInt64.le_refl _)
      (UInt64.le_iff_toNat_le.mpr (by
        change tsMEM.first ≤ cur.last
        omega)) tail 0
  have epos := findPosition_split order' reached upper 0
  rw [← tail_eq, Nat.zero_add] at epos
  have closed := @closeSlots_eq [] middle after
    (.make tsMEM.startTick 999) stop tsMEM.toTimeSlot
    (if tsMEM.endTick.toNat ≤ stop.last then .inside else .rightside)
    (middle.length + 1) (by
      rw [List.length_nil]
      omega)
  rw [endOf_side, ← tail_eq] at closed
  have replaced : prolonged tsMEM.toTimeSlot [] cur stop after =
      { TimeSlot.make tsMEM.startTick 999 with
        endTick := endOf tsMEM.toTimeSlot stop } :: after := by
    rw [prolonged, start, List.nil_append, TimeSlot.make]
  refine ⟨middle, stop, after, ⟨rfl, tail_eq, tsMEM.first_le, by omega,
    by omega, reached, upper'⟩, ?_⟩
  rw [replaced]
  unfold mergeSlot
  rw [if_neg (by simp), spos, epos]
  by_cases inside : tsMEM.endTick.toNat ≤ stop.last
  · have later : middle ≠ [] := by
      rintro rfl
      cases tail_eq
      change tsMEM.last ≤ cur.last at inside
      omega
    rw [if_pos inside] at closed ⊢
    dsimp only
    rw [if_neg fun zero => later (List.eq_nil_of_length_eq_zero zero.symm)]
    exact closed
  · rw [if_neg inside] at closed ⊢
    exact closed

theorem mergeSlot_inside {tsMEM : DieInterval} {slots : List TimeSlot}
    {slot : TimeSlot} (order : InOrder slots) (member : slot ∈ slots)
    (lower : slot.first ≤ tsMEM.first) (upper : tsMEM.last ≤ slot.last) :
    mergeSlot slots tsMEM.toTimeSlot = .ok slots := by
  obtain ⟨before, after, rfl⟩ := List.append_of_mem member
  have length := tsMEM.first_le
  have behind := order.split.2.1
  have spos := findPosition_split order (show slot.first ≤ _ from lower)
    (fun later next => by
      have := behind later (List.mem_of_mem_head? next)
      change tsMEM.first < later.first
      omega) 0
  have epos := findPosition_split order
    (show slot.first ≤ tsMEM.endTick.toNat from Nat.le_trans lower length)
    (fun later next => by
      have := behind later (List.mem_of_mem_head? next)
      change tsMEM.last < later.first
      omega) 0
  rw [if_pos (show tsMEM.startTick.toNat ≤ slot.last from
    Nat.le_trans length upper)] at spos
  rw [if_pos (show tsMEM.endTick.toNat ≤ slot.last from upper)] at epos
  unfold mergeSlot
  rw [if_neg (by simp), spos, epos]
  dsimp only
  rw [if_pos rfl]

/-- A slot that can be merged adds its ticks. -/
theorem mergeSlot_ticks {tsMEM : DieInterval} {slots : List TimeSlot}
    (order : InOrder slots) (merges : tsMEM.Merges slots) :
    ∃ result, mergeSlot slots tsMEM.toTimeSlot = .ok result ∧
      InOrder result ∧ ticksOf result =
        ticksOf slots ∪ Finset.Icc tsMEM.first tsMEM.last := by
  have length := tsMEM.first_le
  rcases merges with rfl | ⟨slot, member, lower, upper⟩ |
    ⟨⟨slot, member, goes_on⟩, free⟩ | ⟨slot, head, same⟩
  · refine ⟨[⟨tsMEM.startTick, tsMEM.endTick⟩], ?_, ⟨?_, ?_⟩, ?_⟩
    · unfold mergeSlot
      rw [if_pos rfl, make_span]
    · intro slot member
      rw [List.mem_singleton.mp member]
      exact length
    · exact List.pairwise_singleton _ _
    · exact Finset.union_comm _ _
  · refine ⟨slots, mergeSlot_inside order member lower upper, order, ?_⟩
    symm
    rw [Finset.union_eq_left]
    intro tick inside
    have bounds := Finset.mem_Icc.mp inside
    exact mem_covered.mpr ⟨slot, member, by omega, by omega⟩
  · obtain ⟨before, tail, rfl⟩ := List.append_of_mem member
    have behind := order.split.2.1
    obtain ⟨middle, stop, after, met, result⟩ :=
      mergeSlot_behind order goes_on fun later next => by
        have tail_member := List.mem_of_mem_head? next
        have apart := behind later tail_member
        have outside := free later (by simp [tail_member])
        have nonempty := order.nonempty later (by simp [tail_member])
        omega
    exact ⟨_, result, met.inOrder order, met.ticks order⟩
  · cases slots with
    | nil => cases head
    | cons cur tail =>
        cases head
        by_cases past : slot.last < tsMEM.last
        · obtain ⟨middle, stop, after, met, result⟩ :=
            mergeSlot_first order same past
          exact ⟨_, result, met.inOrder order, met.ticks order⟩
        · refine ⟨slot :: tail, mergeSlot_inside order List.mem_cons_self
            (Nat.le_of_eq same) (Nat.not_lt.mp past), order, ?_⟩
          symm
          rw [Finset.union_eq_left]
          intro tick inside
          have bounds := Finset.mem_Icc.mp inside
          exact mem_covered.mpr
            ⟨slot, List.mem_cons_self, by omega, by omega⟩

/-! Runs of insertions and flushes. -/

/-- The slots, what was flushed of them, and as history the slots inserted and
the latest tick of a flush. -/
structure BusyTime where
  mergedTimeSlots : List TimeSlot
  exactBusyTime : UInt64
  inserted : List DieInterval
  flushed : UInt64

namespace BusyTime

inductive Step where
  | insert (tsMEM : DieInterval)
  | flush (currentTick : UInt64)

def start : BusyTime := ⟨[], 0, [], 0⟩

def perform (busy : BusyTime) : Step → Except IteratorFault BusyTime
  | .insert tsMEM => do
      let slots ← mergeSlot busy.mergedTimeSlots tsMEM.toTimeSlot
      return { busy with
        mergedTimeSlots := slots, inserted := tsMEM :: busy.inserted }
  | .flush currentTick =>
      let (slots, timeSum) :=
        flushSlots currentTick busy.mergedTimeSlots busy.exactBusyTime
      return { busy with
        mergedTimeSlots := slots
        exactBusyTime := timeSum
        flushed := if busy.flushed < currentTick then currentTick
          else busy.flushed }

/-- No slot starts before a flush that came earlier, and each can be merged. -/
def Allowed (busy : BusyTime) : Step → Prop
  | .insert tsMEM => busy.flushed ≤ tsMEM.startTick ∧
      tsMEM.Merges busy.mergedTimeSlots
  | .flush _ => True

instance (busy : BusyTime) : (step : Step) → Decidable (busy.Allowed step)
  | .insert _ => inferInstanceAs (Decidable (_ ∧ _))
  | .flush _ => inferInstanceAs (Decidable True)

def union (busy : BusyTime) : Finset Nat :=
  ticksOf (busy.inserted.map DieInterval.toTimeSlot)

/-- The slots are in order, and nothing is counted twice or lost. -/
structure Exact (busy : BusyTime) : Prop where
  ordered : InOrder busy.mergedTimeSlots
  total : busy.exactBusyTime.toNat + (busy.mergedTimeSlots.map
    (extent TimeSlot.first TimeSlot.last)).sum = busy.union.card

/-- What was flushed lies before the latest flush and apart from the slots. -/
structure Invariant (busy : BusyTime) : Prop where
  ordered : InOrder busy.mergedTimeSlots
  counted : ∃ gone : Finset Nat, gone.card = busy.exactBusyTime.toNat ∧
    (∀ tick ∈ gone, tick < busy.flushed.toNat) ∧
    Disjoint gone (ticksOf busy.mergedTimeSlots) ∧
    busy.union = gone ∪ ticksOf busy.mergedTimeSlots

theorem Invariant.exact {busy : BusyTime} (invariant : busy.Invariant) :
    busy.Exact := by
  obtain ⟨ordered, gone, card, -, disjoint, union⟩ := invariant
  refine ⟨ordered, ?_⟩
  rw [union, Finset.card_union_of_disjoint disjoint, card,
    ← Ordered.card ordered]

theorem Invariant.insert {busy : BusyTime} (invariant : busy.Invariant)
    {tsMEM : DieInterval} (late : busy.flushed ≤ tsMEM.startTick)
    (merges : tsMEM.Merges busy.mergedTimeSlots) :
    ∃ result, busy.perform (.insert tsMEM) = .ok result ∧
      result.Invariant := by
  obtain ⟨ordered, gone, card, earlier, disjoint, union⟩ := invariant
  obtain ⟨slots, merged, order, ticks⟩ := mergeSlot_ticks ordered merges
  have performed : busy.perform (.insert tsMEM) = .ok { busy with
      mergedTimeSlots := slots, inserted := tsMEM :: busy.inserted } := by
    rw [perform, merged]
    rfl
  refine ⟨_, performed, order, gone, card, earlier, ?_, ?_⟩
  · dsimp only
    rw [ticks, Finset.disjoint_union_right]
    refine ⟨disjoint, Finset.disjoint_left.mpr fun tick member inside => ?_⟩
    have before := earlier tick member
    have lower := (Finset.mem_Icc.mp inside).1
    have late : busy.flushed.toNat ≤ tsMEM.first :=
      UInt64.le_iff_toNat_le.mp late
    omega
  · have more : BusyTime.union { busy with
          mergedTimeSlots := slots, inserted := tsMEM :: busy.inserted } =
        Finset.Icc tsMEM.first tsMEM.last ∪ busy.union := rfl
    rw [more, union]
    dsimp only
    rw [ticks, Finset.union_comm, Finset.union_assoc]

/-- A flush moves the ticks of the first slots to the sum. -/
theorem flushSlots_ticks {currentTick : UInt64} {slots : List TimeSlot}
    {timeSum : UInt64} {gone : Finset Nat} {limit : Nat}
    (ordered : InOrder slots) (card : gone.card = timeSum.toNat)
    (earlier : ∀ tick ∈ gone, tick < limit)
    (le : currentTick.toNat ≤ limit) (bound : limit < 2 ^ 64)
    (disjoint : Disjoint gone (ticksOf slots)) :
    InOrder (flushSlots currentTick slots timeSum).1 ∧
      ∃ gone' : Finset Nat,
        gone'.card = (flushSlots currentTick slots timeSum).2.toNat ∧
        (∀ tick ∈ gone', tick < limit) ∧
        Disjoint gone' (ticksOf (flushSlots currentTick slots timeSum).1) ∧
        gone ∪ ticksOf slots =
          gone' ∪ ticksOf (flushSlots currentTick slots timeSum).1 := by
  induction slots generalizing timeSum gone with
  | nil => exact ⟨ordered, gone, card, earlier, disjoint, rfl⟩
  | cons cur slots induction =>
      unfold flushSlots
      split
      · next past =>
          have past := UInt64.lt_iff_toNat_lt.mp past
          have nonempty := ordered.nonempty cur List.mem_cons_self
          obtain ⟨apart, rest⟩ := Finset.disjoint_union_right.mp disjoint
          have earlier' : ∀ tick ∈ gone ∪ Finset.Icc cur.first cur.last,
              tick < limit := by
            intro tick member
            rcases Finset.mem_union.mp member with member | inside
            · exact earlier tick member
            · have upper := (Finset.mem_Icc.mp inside).2
              change cur.last < currentTick.toNat at past
              omega
          have few : (gone ∪ Finset.Icc cur.first cur.last).card ≤ limit := by
            have subset : gone ∪ Finset.Icc cur.first cur.last ⊆
                Finset.range limit :=
              fun tick member => Finset.mem_range.mpr (earlier' tick member)
            simpa using Finset.card_le_card subset
          have size := Finset.card_union_of_disjoint apart
          rw [Nat.card_Icc, card] at size
          have sum : (timeSum + (cur.endTick - cur.startTick + 1)).toNat =
              timeSum.toNat + (cur.last + 1 - cur.first) := by
            rw [UInt64.toNat_add, UInt64.toNat_add,
              UInt64.toNat_sub_of_le _ _ (UInt64.le_iff_toNat_le.mpr nonempty)]
            have first_eq : cur.first = cur.startTick.toNat := rfl
            have last_eq : cur.last = cur.endTick.toNat := rfl
            simp only [UInt64.reduceToNat]
            omega
          have disjoint' : Disjoint (gone ∪ Finset.Icc cur.first cur.last)
              (ticksOf slots) := by
            refine Finset.disjoint_union_left.mpr ⟨rest, ?_⟩
            rw [Finset.disjoint_left]
            intro tick inside member
            have behind := ordered.lt_of_mem member
            have upper := (Finset.mem_Icc.mp inside).2
            omega
          have run := induction ordered.tail (size.trans sum.symm) earlier'
            disjoint'
          rw [Finset.union_assoc] at run
          exact run
      · exact ⟨ordered, gone, card, earlier, disjoint, rfl⟩

theorem Invariant.flush {busy : BusyTime} (invariant : busy.Invariant)
    (currentTick : UInt64) :
    ∃ result, busy.perform (.flush currentTick) = .ok result ∧
      result.Invariant := by
  obtain ⟨ordered, gone, card, earlier, disjoint, union⟩ := invariant
  have latest : ∀ flushed : UInt64, flushed = (if busy.flushed < currentTick
      then currentTick else busy.flushed) →
      busy.flushed.toNat ≤ flushed.toNat ∧
        currentTick.toNat ≤ flushed.toNat := by
    rintro flushed rfl
    split
    · next later =>
        have later := UInt64.lt_iff_toNat_lt.mp later
        exact ⟨by omega, Nat.le_refl _⟩
    · next notLater =>
        exact ⟨Nat.le_refl _,
          UInt64.le_iff_toNat_le.mp (UInt64.not_lt.mp notLater)⟩
  obtain ⟨before, now⟩ := latest _ rfl
  obtain ⟨order, gone', card', earlier', disjoint', union'⟩ :=
    flushSlots_ticks ordered card
      (fun tick member => Nat.lt_of_lt_of_le (earlier tick member) before) now
      (UInt64.toNat_lt _) disjoint
  exact ⟨_, rfl, order, gone', card', earlier', disjoint', union.trans union'⟩

theorem start_invariant : start.Invariant where
  ordered := ⟨fun _ none => (nomatch none), .nil⟩
  counted := ⟨∅, rfl, fun _ none => (nomatch none),
    Finset.disjoint_empty_left _, rfl⟩

theorem Invariant.perform {busy : BusyTime} {step : Step}
    (invariant : busy.Invariant) (allowed : busy.Allowed step) :
    Returns Invariant (fun _ => False) (busy.perform step) := by
  cases step with
  | insert tsMEM =>
      obtain ⟨result, performed, kept⟩ :=
        invariant.insert allowed.1 allowed.2
      rw [performed]
      exact kept
  | flush currentTick =>
      obtain ⟨result, performed, kept⟩ := invariant.flush currentTick
      rw [performed]
      exact kept

/-- In a run of late flushes and of slots that can be merged, the busy time is
exact in every state. -/
theorem foldlM_exact (steps : List Step)
    (allowed : Along BusyTime.perform Allowed start steps) :
    Returns Exact (fun _ => False) (steps.foldlM BusyTime.perform start) :=
  (Along.returns (fun _ _ => Invariant.perform) start_invariant allowed).mono
    (fun _ => Invariant.exact) (fun _ none => none)

/-- Two slots with a flush between them; to the second one is added behind it,
one inside it and one that starts with it. -/
def flushedBetween : List Step :=
  [.insert ⟨⟨1, 3⟩, UInt64.le_iff_toNat_le.mpr (Nat.le_of_ble_eq_true rfl)⟩,
    .flush 4,
    .insert ⟨⟨4, 6⟩, UInt64.le_iff_toNat_le.mpr (Nat.le_of_ble_eq_true rfl)⟩,
    .insert ⟨⟨7, 9⟩, UInt64.le_iff_toNat_le.mpr (Nat.le_of_ble_eq_true rfl)⟩,
    .insert ⟨⟨5, 8⟩, UInt64.le_iff_toNat_le.mpr (Nat.le_of_ble_eq_true rfl)⟩,
    .insert ⟨⟨4, 12⟩, UInt64.le_iff_toNat_le.mpr (Nat.le_of_ble_eq_true rfl)⟩,
    .flush 13]

theorem foldlM_exact_flushedBetween :
    Along BusyTime.perform Allowed start flushedBetween ∧
      Returns Exact (fun _ => False)
        (flushedBetween.foldlM BusyTime.perform start) := by
  have allowed : Along BusyTime.perform Allowed start flushedBetween := by
    decide +kernel
  exact ⟨allowed, foldlM_exact flushedBetween allowed⟩

def gapBetween : List Step :=
  [.insert ⟨⟨1, 3⟩, UInt64.le_iff_toNat_le.mpr (Nat.le_of_ble_eq_true rfl)⟩,
    .insert ⟨⟨5, 6⟩, UInt64.le_iff_toNat_le.mpr (Nat.le_of_ble_eq_true rfl)⟩]

theorem gap_counted :
    ∃ busy, gapBetween.foldlM BusyTime.perform start = .ok busy ∧
      ¬ busy.Exact :=
  ⟨_, rfl, fun exact => absurd exact.total (by decide +kernel)⟩

end BusyTime

end SimpleSSD.PAL
