import Mathlib.Data.List.GetD
import Mathlib.Data.List.Nodup
import Mathlib.Data.List.Perm.Basic
import Mathlib.Logic.Function.Iterate
import SimpleSSD.SIL.NVMe.Driver

namespace SimpleSSD.SIL.NVMe

open HIL.NVMe (SQueue CQueue CQEntry)

/-! The rings, with positions that never wrap: the number of commands submitted,
fetched, posted and called back. -/

section Positions

def phaseOf (size position : Nat) : Bool := position / size % 2 == 0

variable {size : Nat}

theorem phaseOf_turn (positive : 0 < size) (position : Nat) :
    phaseOf size (position + size) = !phaseOf size position := by
  unfold phaseOf
  rw [Nat.add_div_right position positive]
  rcases Nat.mod_two_eq_zero_or_one (position / size) with even | odd
  · have next : (position / size).succ % 2 = 1 := by omega
    rw [even, next]
    rfl
  · have next : (position / size).succ % 2 = 0 := by omega
    rw [odd, next]
    rfl

theorem phaseOf_succ (position : Nat) :
    phaseOf size (position + 1) =
      if (position + 1) % size = 0 then !phaseOf size position
      else phaseOf size position := by
  unfold phaseOf
  rw [Nat.succ_div]
  split
  · next divides =>
      rw [if_pos (Nat.dvd_iff_mod_eq_zero.mp divides)]
      rcases Nat.mod_two_eq_zero_or_one (position / size) with even | odd
      · have next : (position / size + 1) % 2 = 1 := by omega
        rw [even, next]
        rfl
      · have next : (position / size + 1) % 2 = 0 := by omega
        rw [odd, next]
        rfl
  · next inside =>
      rw [if_neg (fun zero => inside (Nat.dvd_iff_mod_eq_zero.mpr zero))]
      rfl

/-- Positions less than a turn apart are in different slots. -/
theorem slot_ne {first second : Nat} (before : first < second)
    (near : second < first + size) : first % size ≠ second % size := by
  intro same
  have distance := Ring.count_mod (Nat.le_of_lt before) near
  rw [same] at distance
  unfold Ring.count at distance
  rw [if_pos (Nat.le_refl _)] at distance
  omega

theorem turn_toNat {entries index : UInt16} {position : Nat}
    (positive : 0 < entries.toNat)
    (here : index.toNat = position % entries.toNat) :
    (Queue.turn entries index).toNat = (position + 1) % entries.toNat := by
  have inside : index < entries := by
    rw [UInt16.lt_iff_toNat_lt, here]
    exact Nat.mod_lt _ positive
  have next := @HIL.NVMe.Queue.next_toNat (HIL.NVMe.Queue.make 0 entries)
    index inside
  have same : (HIL.NVMe.Queue.make 0 entries).next index =
      Queue.turn entries index := rfl
  rw [same] at next
  rw [next, here]
  exact Ring.next_mod positive position

theorem turn_wraps {entries index : UInt16} (inside : index < entries) :
    (Queue.turn entries index).toNat = 0 ↔ index + 1 = entries := by
  have below := UInt16.lt_iff_toNat_lt.mp inside
  have bounded := entries.toNat_lt
  have moved : (index + 1).toNat = index.toNat + 1 := by
    rw [UInt16.toNat_add]
    exact Nat.mod_eq_of_lt (by simp; omega)
  unfold Queue.turn
  split
  · next last => simp [last]
  · next more => simp only [moved, more, iff_false]; omega

theorem get_concat {Value : Type} {values : List Value} {last value : Value}
    {offset : Nat} (there : (values ++ [last])[offset]? = some value) :
    values[offset]? = some value ∨
      (offset = values.length ∧ last = value) := by
  rcases Nat.lt_or_ge offset values.length with old | new
  · rw [List.getElem?_append_left old] at there
    exact .inl there
  · rw [List.getElem?_append_right new] at there
    obtain ⟨here, same⟩ := List.getElem?_eq_some_iff.mp there
    rw [List.length_singleton] at here
    exact .inr ⟨by omega, by simpa using same⟩

theorem phaseTag_tagged (queue : CQueue) (entry : CQEntry) :
    QueuePair.phaseTag (queue.tagged entry) = queue.phase := by
  have merged : ∀ bit : UInt16, ((entry.status &&& 0xFFFE) ||| bit) &&& 1 =
      bit &&& 1 := by
    intro bit
    refine UInt16.toNat_inj.mp ?_
    simp only [UInt16.toNat_and, UInt16.toNat_or]
    have one : (1 : UInt16).toNat = 2 ^ 1 - 1 := rfl
    have mask : (0xFFFE : UInt16).toNat % 2 ^ 1 = 0 := rfl
    rw [one, Nat.and_two_pow_sub_one_eq_mod, Nat.and_two_pow_sub_one_eq_mod,
      Nat.or_mod_two_pow, Nat.and_mod_two_pow, mask, Nat.and_zero,
      Nat.zero_or]
  unfold QueuePair.phaseTag CQueue.tagged
  dsimp only
  rw [merged]
  cases queue.phase <;> rfl

end Positions

def cidOf (start : UInt16) (number : Nat) : UInt16 :=
  increaseCommandID^[number + 1] start

def sqEntry (start : UInt16) (number : Nat) : SQEntry where
  commandID := cidOf start number
  number := number

def commandEntry (start : UInt16) (number : Nat) : CommandEntry where
  cid := cidOf start number
  context := number

namespace QueuePair

def outstanding (pair : QueuePair) : List Nat :=
  (List.range pair.submitted).filter fun number =>
    !pair.called.contains number

def arrivals (pair : QueuePair) : Nat :=
  pair.posted.length - pair.writes.length

structure Submissions (size : Nat) (start : UInt16) (pair : QueuePair) :
    Prop where
  hostSize : pair.ioSQ.entries.toNat = size
  deviceSize : pair.sq.size = pair.ioSQ.entries
  hostTail : pair.ioSQ.tail.toNat = pair.submitted % size
  deviceTail : pair.sq.tail = pair.ioSQ.tail
  deviceHead : pair.sq.head.toNat =
    (pair.fetches.length + pair.reads.length) % size
  issued : pair.fetches.length + pair.reads.length ≤ pair.submitted
  reading : ∀ offset slot, pair.reads[offset]? = some slot →
    slot.toNat = (pair.fetches.length + offset) % size
  stored : ∀ number, pair.fetches.length ≤ number → number < pair.submitted →
    pair.sqMemory (number % size) = sqEntry start number
  inOrder : pair.fetches = List.range pair.fetches.length
  known : ∀ entry ∈ pair.fetched, entry = sqEntry start entry.number
  lastID : pair.ioCommandID = increaseCommandID^[pair.submitted] start

structure Announces (size : Nat) (start : UInt16) (posted : List Nat)
    (position : Nat) (entry : CQEntry) : Prop where
  commandID : entry.commandID = cidOf start (posted.getD position 0)
  phase : phaseTag entry = phaseOf size position

theorem Announces.append {size : Nat} {start : UInt16} {posted : List Nat}
    {position : Nat} {entry : CQEntry} {more : List Nat}
    (announces : Announces size start posted position entry)
    (known : position < posted.length) :
    Announces size start (posted ++ more) position entry where
  commandID := by
    rw [List.getD_append _ _ _ _ known]
    exact announces.commandID
  phase := announces.phase

structure Completions (size : Nat) (start : UInt16) (pair : QueuePair) :
    Prop where
  hostSize : pair.ioCQ.entries.toNat = size
  deviceSize : pair.cq.size = pair.ioCQ.entries
  deviceTail : pair.cq.tail.toNat = pair.posted.length % size
  devicePhase : pair.cq.phase = phaseOf size pair.posted.length
  flying : pair.called.length + pair.writes.length ≤ pair.posted.length
  writing : ∀ offset slot entry, pair.writes[offset]? = some (slot, entry) →
    slot.toNat = (pair.arrivals + offset) % size ∧
      Announces size start pair.posted (pair.arrivals + offset) entry
  arrived : ∀ position, pair.called.length ≤ position →
    position < pair.arrivals →
      Announces size start pair.posted position
        (pair.cqMemory (position % size))
  stale : ∀ position, pair.arrivals ≤ position →
    position < pair.arrivals + size →
      phaseTag (pair.cqMemory (position % size)) = !phaseOf size position
  inOrder : pair.called = pair.posted.take pair.called.length

structure Reading (size : Nat) (pair : QueuePair) : Prop where
  head : pair.ioCQ.head.toNat = pair.called.length % size
  phase : pair.phase = phaseOf size pair.called.length

/-- Where commands are; `gone` is called back and about to be erased. -/
structure Accounts (size : Nat) (start : UInt16) (gone : List Nat)
    (pair : QueuePair) : Prop where
  working : (pair.posted ++ pair.fetched.map (·.number)).Perm
    (List.range pair.fetches.length)
  pending : pair.pendingCommandList = ((List.range pair.submitted).filter
    fun number => !pair.called.contains number || gone.contains number).map
      (commandEntry start)
  few : pair.submitted < pair.called.length + size

def Distinct (start : UInt16) (pair : QueuePair) : Prop :=
  (pair.outstanding.map (cidOf start)).Nodup

structure Linked (size : Nat) (start : UInt16) (gone : List Nat)
    (pair : QueuePair) : Prop where
  submissions : Submissions size start pair
  completions : Completions size start pair
  accounts : Accounts size start gone pair

section Orders

variable {size : Nat} {start : UInt16} {gone : List Nat} {pair : QueuePair}

theorem Accounts.posted_le (accounts : Accounts size start gone pair) :
    pair.posted.length + pair.fetched.length = pair.fetches.length := by
  have length := accounts.working.length_eq
  simpa using length

theorem Accounts.posted_lt (accounts : Accounts size start gone pair)
    {number : Nat} (member : number ∈ pair.posted) :
    number < pair.fetches.length :=
  List.mem_range.mp (accounts.working.mem_iff.mp
    (List.mem_append_left _ member))

theorem Accounts.posted_nodup (accounts : Accounts size start gone pair) :
    pair.posted.Nodup :=
  (List.nodup_append.mp
    (accounts.working.nodup_iff.mpr List.nodup_range)).1

theorem Completions.called_posted (completions : Completions size start pair)
    {number : Nat} (member : number ∈ pair.called) : number ∈ pair.posted := by
  rw [completions.inOrder] at member
  exact List.mem_of_mem_take member

theorem Linked.called_lt (linked : Linked size start gone pair) {number : Nat}
    (member : number ∈ pair.called) : number < pair.fetches.length :=
  linked.accounts.posted_lt (linked.completions.called_posted member)

theorem Linked.fetches_le (linked : Linked size start gone pair) :
    pair.fetches.length ≤ pair.submitted := by
  have issued := linked.submissions.issued
  omega

theorem Linked.called_le (linked : Linked size start gone pair) :
    pair.called.length ≤ pair.arrivals ∧
      pair.arrivals ≤ pair.fetches.length := by
  have flying := linked.completions.flying
  have posted := linked.accounts.posted_le
  unfold arrivals
  omega

theorem Linked.size_pos (linked : Linked size start gone pair) : 0 < size := by
  have few := linked.accounts.few
  have below := linked.called_le
  have issued := linked.fetches_le
  omega

end Orders

section Submitting

variable {size : Nat} {start : UInt16} {gone : List Nat}
  {pair next : QueuePair}

structure SameCompletions (pair next : QueuePair) : Prop where
  ioCQ : next.ioCQ = pair.ioCQ
  phase : next.phase = pair.phase
  cqMemory : next.cqMemory = pair.cqMemory
  cq : next.cq = pair.cq
  writes : next.writes = pair.writes
  posted : next.posted = pair.posted
  called : next.called = pair.called

theorem Completions.of_same (completions : Completions size start pair)
    (same : SameCompletions pair next) : Completions size start next := by
  have arrivals : next.arrivals = pair.arrivals := by
    unfold QueuePair.arrivals
    rw [same.posted, same.writes]
  constructor
  · rw [same.ioCQ]
    exact completions.hostSize
  · rw [same.cq, same.ioCQ]
    exact completions.deviceSize
  · rw [same.cq, same.posted]
    exact completions.deviceTail
  · rw [same.cq, same.posted]
    exact completions.devicePhase
  · rw [same.called, same.writes, same.posted]
    exact completions.flying
  · rw [same.writes, arrivals, same.posted]
    exact completions.writing
  · rw [same.called, arrivals, same.posted, same.cqMemory]
    exact completions.arrived
  · rw [arrivals, same.cqMemory]
    exact completions.stale
  · rw [same.called, same.posted]
    exact completions.inOrder

theorem Reading.of_same (reading : Reading size pair)
    (same : SameCompletions pair next) : Reading size next where
  head := by
    rw [same.ioCQ, same.called]
    exact reading.head
  phase := by
    rw [same.phase, same.called]
    exact reading.phase

theorem outstandingID_false {cid : UInt16}
    (pending : pair.pendingCommandList = ((List.range pair.submitted).filter
      fun number => !pair.called.contains number || gone.contains number).map
        (commandEntry start))
    (free : pair.outstandingID cid = false) :
    cid ∉ pair.outstanding.map (cidOf start) := by
  intro member
  obtain ⟨number, waiting, same⟩ := List.mem_map.mp member
  obtain ⟨before, uncalled⟩ := List.mem_filter.mp waiting
  unfold outstandingID at free
  rw [List.any_eq_false] at free
  refine free (commandEntry start number) ?_ ?_
  · rw [pending]
    refine List.mem_map_of_mem (List.mem_filter.mpr ⟨before, ?_⟩)
    rw [uncalled, Bool.true_or]
  · rw [Bool.and_eq_true, beq_iff_eq]
    exact ⟨same, uncalled⟩

theorem Linked.uncalled (linked : Linked size start gone pair) :
    pair.called.contains pair.submitted = false := by
  rw [Bool.eq_false_iff]
  intro member
  rw [List.contains_iff_mem] at member
  have below := linked.called_lt member
  have issued := linked.fetches_le
  omega

theorem cidOf_last (linked : Linked size start gone pair) :
    increaseCommandID pair.ioCommandID = cidOf start pair.submitted := by
  unfold cidOf
  rw [linked.submissions.lastID, Function.iterate_succ_apply']

theorem submitCommand_submissions (linked : Linked size start gone pair)
    (result : pair.submitCommand = .ok next) :
    Submissions size start next := by
  have submissions := linked.submissions
  have positive : 0 < pair.ioSQ.entries.toNat := by
    rw [submissions.hostSize]
    exact linked.size_pos
  unfold submitCommand at result
  split at result
  · cases result
  · cases result
    constructor
    case hostSize => exact submissions.hostSize
    case deviceSize => exact submissions.deviceSize
    case hostTail =>
      have moved := @turn_toNat pair.ioSQ.entries pair.ioSQ.tail pair.submitted
        positive (by rw [submissions.hostSize]; exact submissions.hostTail)
      rw [submissions.hostSize] at moved
      exact moved
    case deviceTail => rfl
    case deviceHead => exact submissions.deviceHead
    case issued => exact Nat.le_succ_of_le submissions.issued
    case reading => exact submissions.reading
    case stored =>
      intro number after before
      dsimp only at after before ⊢
      rw [submissions.hostTail, cidOf_last linked]
      by_cases last : number = pair.submitted
      · rw [last, Function.update_self]
        rfl
      · have near := linked.accounts.few
        have below := linked.called_le
        rw [Function.update_of_ne (slot_ne (by omega) (by omega))]
        exact submissions.stored number after (by omega)
    case inOrder => exact submissions.inOrder
    case known => exact submissions.known
    case lastID =>
      dsimp only
      rw [submissions.lastID, Function.iterate_succ_apply']

theorem submitCommand_accounts (linked : Linked size start gone pair)
    (result : pair.submitCommand = .ok next) :
    Accounts size start gone next := by
  have accounts := linked.accounts
  have uncalled := linked.uncalled
  have cid := cidOf_last linked
  unfold submitCommand at result
  split at result
  · cases result
  · next within =>
      cases result
      constructor
      case working => exact accounts.working
      case pending =>
        dsimp only
        rw [List.range_succ, List.filter_append, List.map_append,
          ← accounts.pending, cid]
        congr 1
        rw [List.filter_cons_of_pos (by rw [uncalled]; rfl)]
        rfl
      case few =>
        have limit := Nat.not_le.mp within
        have issued := linked.fetches_le
        have below := linked.called_le
        unfold maxOutstanding at limit
        rw [linked.submissions.hostSize] at limit
        dsimp only
        omega

theorem submitCommand_outstanding (linked : Linked size start gone pair)
    (result : pair.submitCommand = .ok next) :
    next.outstanding = pair.outstanding ++ [pair.submitted] := by
  have uncalled := linked.uncalled
  unfold submitCommand at result
  split at result
  · cases result
  · cases result
    unfold outstanding
    dsimp only
    rw [List.range_succ, List.filter_append]
    congr 1
    rw [List.filter_cons_of_pos (by rw [uncalled]; rfl)]
    rfl

theorem submitCommand_distinct (linked : Linked size start gone pair)
    (distinct : Distinct start pair)
    (result : pair.submitCommand = .ok next) (fresh : next.reused = []) :
    Distinct start next := by
  have free : pair.outstandingID (cidOf start pair.submitted) = false := by
    rw [← cidOf_last linked]
    unfold submitCommand at result
    split at result
    · cases result
    · cases result
      dsimp only at fresh
      split at fresh
      · cases fresh
      · next free => exact Bool.eq_false_iff.mpr free
  have unused := outstandingID_false linked.accounts.pending free
  unfold Distinct
  rw [submitCommand_outstanding linked result, List.map_append]
  refine List.nodup_append.mpr ⟨distinct, List.nodup_singleton _, ?_⟩
  intro id member other single
  rw [List.mem_singleton.mp single]
  intro same
  exact unused (same ▸ member)

structure Extends (pair next : QueuePair) : Prop where
  completions : SameCompletions pair next
  history : pair.reused <:+ next.reused
  pending : pair.pendingCommandList <+: next.pendingCommandList

theorem Extends.refl (pair : QueuePair) : Extends pair pair :=
  ⟨⟨rfl, rfl, rfl, rfl, rfl, rfl, rfl⟩, List.suffix_refl _,
    List.prefix_refl _⟩

theorem Extends.trans {first second third : QueuePair}
    (before : Extends first second) (after : Extends second third) :
    Extends first third where
  completions :=
    { ioCQ := after.completions.ioCQ.trans before.completions.ioCQ
      phase := after.completions.phase.trans before.completions.phase
      cqMemory := after.completions.cqMemory.trans before.completions.cqMemory
      cq := after.completions.cq.trans before.completions.cq
      writes := after.completions.writes.trans before.completions.writes
      posted := after.completions.posted.trans before.completions.posted
      called := after.completions.called.trans before.completions.called }
  history := before.history.trans after.history
  pending := before.pending.trans after.pending

theorem submitCommand_extends (result : pair.submitCommand = .ok next) :
    Extends pair next := by
  unfold submitCommand at result
  split at result
  · cases result
  · cases result
    refine ⟨⟨rfl, rfl, rfl, rfl, rfl, rfl, rfl⟩, ?_, List.prefix_append _ _⟩
    dsimp only
    split
    · exact List.suffix_cons _ _
    · exact List.suffix_refl _

theorem submitCommand_linked (linked : Linked size start gone pair)
    (result : pair.submitCommand = .ok next) : Linked size start gone next :=
  ⟨submitCommand_submissions linked result,
    linked.completions.of_same (submitCommand_extends result).completions,
    submitCommand_accounts linked result⟩

theorem submitCommand_error {raised : Panic} {stopped : QueuePair}
    (result : pair.submitCommand = .error (raised, stopped)) :
    raised = .limit ∧ stopped = pair := by
  unfold submitCommand at result
  split at result
  · cases result
    exact ⟨rfl, rfl⟩
  · cases result

theorem submitCommands_extends {amount : Nat}
    (result : pair.submitCommands amount = .ok next) : Extends pair next := by
  induction amount generalizing pair with
  | zero =>
      cases result
      exact .refl _
  | succ amount induction =>
      rw [submitCommands] at result
      split at result
      · cases result
      · next submitted =>
          exact (submitCommand_extends submitted).trans (induction result)

theorem submitCommands_linked {amount : Nat}
    (linked : Linked size start gone pair) (distinct : Distinct start pair)
    (result : pair.submitCommands amount = .ok next)
    (fresh : next.reused = []) :
    Linked size start gone next ∧ Distinct start next := by
  induction amount generalizing pair with
  | zero =>
      cases result
      exact ⟨linked, distinct⟩
  | succ amount induction =>
      rw [submitCommands] at result
      split at result
      · cases result
      · next middle submitted =>
          have history := (submitCommands_extends result).history
          rw [fresh] at history
          exact induction (submitCommand_linked linked submitted)
            (submitCommand_distinct linked distinct submitted
              (List.suffix_nil.mp history)) result

theorem submitCommands_error {amount : Nat} {raised : Panic}
    {stopped : QueuePair}
    (result : pair.submitCommands amount = .error (raised, stopped)) :
    raised = .limit ∧ pair.reused <:+ stopped.reused := by
  induction amount generalizing pair with
  | zero => cases result
  | succ amount induction =>
      rw [submitCommands] at result
      split at result
      · next failed =>
          cases result
          obtain ⟨limit, same⟩ := submitCommand_error failed
          exact ⟨limit, same ▸ List.suffix_refl _⟩
      · next submitted =>
          obtain ⟨limit, history⟩ := induction result
          exact ⟨limit,
            (submitCommand_extends submitted).history.trans history⟩

end Submitting

section Device

variable {size : Nat} {start : UInt16} {pair next : QueuePair}

structure Settled (size : Nat) (start : UInt16) (pair : QueuePair) : Prop where
  linked : Linked size start [] pair
  reading : Reading size pair
  doorbell : pair.cq.head = pair.ioCQ.head

theorem submitCommand_settled (settled : Settled size start pair)
    (result : pair.submitCommand = .ok next) : Settled size start next := by
  have same := (submitCommand_extends result).completions
  refine ⟨submitCommand_linked settled.linked result,
    settled.reading.of_same same, ?_⟩
  rw [same.cq, same.ioCQ]
  exact settled.doorbell

theorem fetch_distinct (distinct : Distinct start pair) :
    Distinct start pair.fetch := by
  unfold fetch
  split <;> exact distinct

theorem read_distinct (distinct : Distinct start pair) :
    Distinct start pair.read := by
  unfold read
  split <;> exact distinct

theorem arrive_distinct (distinct : Distinct start pair) :
    Distinct start pair.arrive := by
  unfold arrive
  split <;> exact distinct

theorem fetch_settled (settled : Settled size start pair) :
    Settled size start pair.fetch := by
  obtain ⟨linked, reading, doorbell⟩ := settled
  have submissions := linked.submissions
  unfold fetch
  split
  · next slot sq taken =>
      unfold SQueue.getData at taken
      split at taken
      · next different =>
          cases taken
          have positive : 0 < pair.sq.size.toNat := by
            rw [submissions.deviceSize, submissions.hostSize]
            exact linked.size_pos
          have turned := @turn_toNat pair.sq.size pair.sq.head
            (pair.fetches.length + pair.reads.length) positive
            (by
              rw [submissions.deviceSize, submissions.hostSize]
              exact submissions.deviceHead)
          rw [submissions.deviceSize, submissions.hostSize] at turned
          refine ⟨⟨?_, linked.completions.of_same
            ⟨rfl, rfl, rfl, rfl, rfl, rfl, rfl⟩, ?_⟩,
            ⟨reading.head, reading.phase⟩, doorbell⟩
          · constructor
            case hostSize => exact submissions.hostSize
            case deviceSize => exact submissions.deviceSize
            case hostTail => exact submissions.hostTail
            case deviceTail => exact submissions.deviceTail
            case deviceHead =>
              dsimp only
              rw [List.length_append, ← Nat.add_assoc]
              rw [← submissions.deviceSize] at turned
              exact turned
            case issued =>
              have issued := submissions.issued
              have apart : pair.fetches.length + pair.reads.length ≠
                  pair.submitted := by
                intro equal
                refine different (UInt16.toNat_inj.mp ?_)
                rw [submissions.deviceHead, submissions.deviceTail,
                  submissions.hostTail, equal]
              simp only [List.length_append, List.length_singleton]
              omega
            case reading =>
              intro offset slot there
              rcases get_concat there with old | ⟨last, same⟩
              · exact submissions.reading offset slot old
              · rw [last, ← same]
                exact submissions.deviceHead
            case stored => exact submissions.stored
            case inOrder => exact submissions.inOrder
            case known => exact submissions.known
            case lastID => exact submissions.lastID
          · have accounts := linked.accounts
            exact ⟨accounts.working, accounts.pending, accounts.few⟩
      · cases taken
  · exact ⟨linked, reading, doorbell⟩

theorem read_settled (settled : Settled size start pair) :
    Settled size start pair.read := by
  obtain ⟨linked, reading, doorbell⟩ := settled
  have submissions := linked.submissions
  unfold read
  split
  · exact ⟨linked, reading, doorbell⟩
  · next slot rest reads =>
      have issued := submissions.issued
      rw [reads, List.length_cons] at issued
      have here : slot.toNat = pair.fetches.length % size := by
        have first := submissions.reading 0 slot (by rw [reads]; rfl)
        exact first
      have entry : pair.sqMemory slot.toNat =
          sqEntry start pair.fetches.length := by
        rw [here]
        exact submissions.stored _ (Nat.le_refl _) (by omega)
      rw [entry]
      refine ⟨⟨?_, linked.completions.of_same
        ⟨rfl, rfl, rfl, rfl, rfl, rfl, rfl⟩, ?_⟩,
        ⟨reading.head, reading.phase⟩, doorbell⟩
      · constructor
        case hostSize => exact submissions.hostSize
        case deviceSize => exact submissions.deviceSize
        case hostTail => exact submissions.hostTail
        case deviceTail => exact submissions.deviceTail
        case deviceHead =>
          have head := submissions.deviceHead
          rw [reads, List.length_cons] at head
          dsimp only
          rw [head, List.length_append, List.length_singleton]
          congr 1
          omega
        case issued =>
          dsimp only
          rw [List.length_append, List.length_singleton]
          omega
        case reading =>
          intro offset other there
          have before := submissions.reading (offset + 1) other
            (by rw [reads]; exact there)
          dsimp only
          rw [before, List.length_append, List.length_singleton]
          congr 1
          omega
        case stored =>
          intro number after before
          dsimp only at after before ⊢
          rw [List.length_append, List.length_singleton] at after
          exact submissions.stored number (by omega) before
        case inOrder =>
          dsimp only
          rw [List.length_append, List.length_singleton, List.range_succ,
            ← submissions.inOrder]
          rfl
        case known =>
          intro other member
          rcases List.mem_append.mp member with old | new
          · exact submissions.known other old
          · rw [List.mem_singleton.mp new]
            rfl
        case lastID => exact submissions.lastID
      · have accounts := linked.accounts
        refine ⟨?_, accounts.pending, accounts.few⟩
        dsimp only
        rw [List.length_append, List.length_singleton, List.range_succ,
          List.map_append, ← List.append_assoc]
        exact accounts.working.append (List.Perm.refl _)

theorem setData_spec (queue : CQueue) (entry : CQEntry) :
    queue.setData entry =
      if queue.head = Queue.turn queue.size queue.tail then
        .error .completionQueueOverflow
      else .ok ((queue.tail, queue.tagged entry),
        { queue with
          tail := Queue.turn queue.size queue.tail
          phase := if queue.tail + 1 = queue.size then !queue.phase
            else queue.phase }) := by
  unfold CQueue.setData Queue.turn
  by_cases last : queue.tail + 1 = queue.size
  · simp only [last, if_true]
  · simp only [last, if_false]

theorem complete_settled {index : Nat} {status : UInt16}
    (settled : Settled size start pair) :
    ∃ next, pair.complete index status = .ok next ∧
      Settled size start next ∧ next.reused = pair.reused ∧
      next.outstanding = pair.outstanding := by
  obtain ⟨linked, reading, doorbell⟩ := settled
  have completions := linked.completions
  have accounts := linked.accounts
  unfold complete
  split
  · exact ⟨pair, rfl, ⟨linked, reading, doorbell⟩, rfl, rfl⟩
  · next entry there =>
      obtain ⟨inside, member⟩ := List.getElem?_eq_some_iff.mp there
      have positive : 0 < pair.cq.size.toNat := by
        rw [completions.deviceSize, completions.hostSize]
        exact linked.size_pos
      have turned := @turn_toNat pair.cq.size pair.cq.tail pair.posted.length
        positive (by
          rw [completions.deviceSize, completions.hostSize]
          exact completions.deviceTail)
      rw [completions.deviceSize, completions.hostSize,
        ← completions.deviceSize] at turned
      have within : pair.cq.tail < pair.cq.size := by
        rw [UInt16.lt_iff_toNat_lt, completions.deviceTail,
          completions.deviceSize, completions.hostSize]
        exact Nat.mod_lt _ linked.size_pos
      have sum := accounts.posted_le
      have few := accounts.few
      have issued := linked.fetches_le
      have flying := completions.flying
      have room : pair.cq.head ≠ Queue.turn pair.cq.size pair.cq.tail := by
        intro full
        have same := congrArg UInt16.toNat full
        rw [turned, doorbell, reading.head] at same
        exact slot_ne (by omega) (by omega) same
      have entryKnown := linked.submissions.known entry
        (member ▸ List.getElem_mem inside)
      rw [setData_spec, if_neg room]
      refine ⟨_, rfl, ⟨⟨?_, ?_, ?_⟩, ⟨reading.head, reading.phase⟩, doorbell⟩,
        rfl, rfl⟩
      · have submissions := linked.submissions
        exact ⟨submissions.hostSize, submissions.deviceSize,
          submissions.hostTail, submissions.deviceTail, submissions.deviceHead,
          submissions.issued, submissions.reading, submissions.stored,
          submissions.inOrder,
          fun other still => submissions.known other
            (List.mem_of_mem_eraseIdx still), submissions.lastID⟩
      · have length : (pair.posted ++ [entry.number]).length =
            pair.posted.length + 1 := by simp
        have arrivals : (pair.posted ++ [entry.number]).length -
            (pair.writes ++ [(pair.cq.tail, pair.cq.tagged
              { commandID := entry.commandID, status := status })]).length =
            pair.arrivals := by
          unfold QueuePair.arrivals
          simp
        constructor
        case hostSize => exact completions.hostSize
        case deviceSize => exact completions.deviceSize
        case deviceTail =>
          dsimp only
          rw [length]
          exact turned
        case devicePhase =>
          dsimp only
          rw [length, phaseOf_succ, ← turned, completions.devicePhase]
          simp only [turn_wraps within]
        case flying =>
          dsimp only
          rw [length, List.length_append, List.length_singleton]
          omega
        case writing =>
          intro offset slot written there
          unfold QueuePair.arrivals
          dsimp only at there ⊢
          rw [arrivals]
          have whole : pair.arrivals + pair.writes.length =
              pair.posted.length := by
            unfold QueuePair.arrivals
            omega
          rcases get_concat there with old | ⟨last, same⟩
          · obtain ⟨before, _⟩ := List.getElem?_eq_some_iff.mp old
            obtain ⟨here, announces⟩ :=
              completions.writing offset slot written old
            exact ⟨here, announces.append (by omega)⟩
          · cases same
            rw [last, whole]
            refine ⟨completions.deviceTail, ?_, ?_⟩
            · rw [List.getD_append_right _ _ _ _ (Nat.le_refl _), Nat.sub_self]
              exact congrArg SQEntry.commandID entryKnown
            · rw [phaseTag_tagged]
              exact completions.devicePhase
        case arrived =>
          intro position after before
          unfold QueuePair.arrivals at before
          dsimp only at after before ⊢
          rw [arrivals] at before
          refine (completions.arrived position after before).append ?_
          unfold QueuePair.arrivals at before
          omega
        case stale =>
          unfold QueuePair.arrivals
          dsimp only
          rw [arrivals]
          exact completions.stale
        case inOrder =>
          dsimp only
          rw [List.take_append_of_le_length (by omega)]
          exact completions.inOrder
      · refine ⟨?_, accounts.pending, accounts.few⟩
        have moved : (entry :: pair.fetched.eraseIdx index).Perm
            pair.fetched := by
          rw [← member]
          exact List.getElem_cons_eraseIdx_perm inside
        dsimp only
        rw [List.append_assoc]
        exact ((moved.map (·.number)).append_left pair.posted).trans
          accounts.working

theorem arrive_settled (settled : Settled size start pair) :
    Settled size start pair.arrive := by
  obtain ⟨linked, reading, doorbell⟩ := settled
  have completions := linked.completions
  have positive := linked.size_pos
  unfold arrive
  split
  · exact ⟨linked, reading, doorbell⟩
  · next slot entry rest writes =>
      have flying := completions.flying
      have few := linked.accounts.few
      have sum := linked.accounts.posted_le
      have issued := linked.fetches_le
      rw [writes, List.length_cons] at flying
      obtain ⟨here, announces⟩ := completions.writing 0 slot entry
        (by rw [writes]; rfl)
      rw [Nat.add_zero] at here announces
      have arrivals : pair.posted.length - rest.length = pair.arrivals + 1 := by
        unfold QueuePair.arrivals
        rw [writes, List.length_cons]
        omega
      have before : pair.called.length ≤ pair.arrivals :=
        linked.called_le.1
      have near : pair.arrivals < pair.called.length + size := by
        have below := linked.called_le.2
        omega
      have submissions := linked.submissions
      have accounts := linked.accounts
      refine ⟨⟨⟨submissions.hostSize, submissions.deviceSize,
        submissions.hostTail, submissions.deviceTail, submissions.deviceHead,
        submissions.issued, submissions.reading, submissions.stored,
        submissions.inOrder, submissions.known, submissions.lastID⟩, ?_,
        ⟨accounts.working, accounts.pending, accounts.few⟩⟩, ⟨reading.head, reading.phase⟩, doorbell⟩
      constructor
      case hostSize => exact completions.hostSize
      case deviceSize => exact completions.deviceSize
      case deviceTail => exact completions.deviceTail
      case devicePhase => exact completions.devicePhase
      case flying =>
        dsimp only
        omega
      case writing =>
        intro offset other written there
        unfold QueuePair.arrivals
        dsimp only at there ⊢
        rw [arrivals, Nat.add_right_comm, Nat.add_assoc]
        exact completions.writing (offset + 1) other written
          (by rw [writes]; exact there)
      case arrived =>
        intro position after earlier
        unfold QueuePair.arrivals at earlier
        dsimp only at after earlier ⊢
        rw [arrivals] at earlier
        rw [here]
        by_cases last : position = pair.arrivals
        · rw [last, Function.update_self]
          exact announces
        · rw [Function.update_of_ne (slot_ne (by omega) (by omega))]
          exact completions.arrived position after (by omega)
      case stale =>
        intro position after earlier
        unfold QueuePair.arrivals at after earlier
        dsimp only at after earlier ⊢
        rw [arrivals] at after earlier
        rw [here]
        by_cases last : position = pair.arrivals + size
        · rw [last, Nat.add_mod_right, Function.update_self,
            phaseOf_turn positive, Bool.not_not]
          exact announces.phase
        · have apart := @slot_ne size pair.arrivals position (by omega)
            (by omega)
          rw [Function.update_of_ne apart.symm]
          exact completions.stale position (by omega) (by omega)
      case inOrder => exact completions.inOrder

end Device

end QueuePair

end SimpleSSD.SIL.NVMe
