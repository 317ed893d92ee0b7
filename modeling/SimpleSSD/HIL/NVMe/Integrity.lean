import SimpleSSD.HIL.NVMe.Controller

namespace SimpleSSD.HIL.NVMe

/-! References from submission queues to completion queues over all orders of
creations and deletions. -/

section Search

variable {bound : Nat} {entry : Nat → Except Panic (Option α)}
  {test : α → Bool}

private theorem walk_search (entry : Nat → Except Panic (Option α))
    (test : α → Bool) (indices : List Nat)
    (present : ∀ index ∈ indices, ∃ found, entry index = .ok found) :
    ∃ found, walk (fun i found =>
        match entry i with
        | .error raised => .error raised
        | .ok none => .ok (found, false)
        | .ok (some queue) =>
            if test queue then .ok (true, true) else .ok (found, false))
        indices false = .ok found ∧
      (found = true ↔ ∃ index ∈ indices, ∃ queue,
        entry index = .ok (some queue) ∧ test queue = true) := by
  induction indices with
  | nil => exact ⟨false, rfl, by simp⟩
  | cons index rest induction =>
      obtain ⟨result, looked, meaning⟩ :=
        induction fun other member => present other (.tail _ member)
      obtain ⟨existing, here⟩ := present index (.head _)
      unfold walk
      simp only [here]
      cases existing with
      | none =>
          refine ⟨result, looked, meaning.trans ?_⟩
          simp [here]
      | some queue =>
          cases passes : test queue with
          | true => exact ⟨true, by simp [passes], by simp [here, passes]⟩
          | false =>
              refine ⟨result, by simpa [passes] using looked,
                meaning.trans ?_⟩
              simp [here, passes]

theorem anyQueue_ok (fits : bound < 65536)
    (present : ∀ index, 1 ≤ index → index < bound →
      ∃ found, entry index = .ok found) :
    ∃ found, anyQueue bound entry test = .ok found ∧
      (found = true ↔ ∃ index, 1 ≤ index ∧ index < bound ∧ ∃ queue,
        entry index = .ok (some queue) ∧ test queue = true) := by
  have inside : ∀ index, index ∈ List.range' 1 (bound - 1) ↔
      1 ≤ index ∧ index < bound := by
    intro index
    rw [List.mem_range'_1]
    omega
  obtain ⟨found, looked, meaning⟩ :=
    walk_search entry test (List.range' 1 (bound - 1)) fun index member =>
      present index ((inside index).mp member).1 ((inside index).mp member).2
  refine ⟨found, ?_, ?_⟩
  · unfold anyQueue
    rw [forLoop_eq_walk fits (by
      change bound - 1 < loopFuel
      unfold loopFuel
      omega)]
    exact looked
  · rw [meaning]
    simp only [inside, and_assoc]

theorem anyQueue_missing {stop : Nat} (first : 1 ≤ stop) (last : stop < bound)
    (fits : stop < 65536)
    (empty : ∀ index, 1 ≤ index → index < stop → entry index = .ok none)
    (missing : entry stop = .error raised) :
    anyQueue bound entry test = .error raised := by
  unfold anyQueue
  have enough : loopFuel = loopFuel - (stop - 1) + (stop - 1) := by
    unfold loopFuel
    omega
  have reached : (1 : UInt16).toNat + (stop - 1) = stop := by
    simp
    omega
  rw [enough, forLoop_skip (stop - 1) (by omega) (by omega)]
  · rw [reached]
    obtain ⟨rest, positive⟩ : ∃ rest, loopFuel - (stop - 1) = rest + 1 :=
      Nat.exists_eq_add_one.mpr (by unfold loopFuel; omega)
    have index : (UInt16.ofNat stop).toNat = stop := by
      simp
      omega
    rw [positive, forLoop, index, if_pos last, missing]
  · intro index lower upper
    rw [reached] at upper
    rw [empty index lower upper]

theorem anyQueue_endless (unreachable : 65536 ≤ bound)
    (passed : ∀ index < 65536, ∃ found, entry index = .ok found ∧
      ∀ queue, found = some queue → test queue = false) :
    anyQueue bound entry test = .error .outOfFuel := by
  unfold anyQueue
  refine @forLoop_endless Panic Bool .outOfFuel bound _ false unreachable
    (fun _ => True) ?_ trivial loopFuel 1
  intro index inside found _
  obtain ⟨existing, here, other⟩ := passed index inside
  refine ⟨found, ?_, trivial⟩
  cases existing with
  | none => simp only [here]
  | some queue => simp only [here, other queue rfl, Bool.false_eq_true, if_false]

end Search

inductive QueueCall where
  | createCQueue (cqid : Nat) (size : UInt16) (iv : Nat) (ien : Bool)
  | createSQueue (sqid cqid : Nat) (size : UInt16) (priority : Priority)
  | deleteSQueue (sqid : Nat)
  | deleteCQueue (cqid : Nat)

namespace QueueCall

def perform : QueueCall → Controller → Except Panic (Nat × Controller)
  | .createCQueue cqid size iv ien, controller =>
      controller.createCQueue cqid size iv ien
  | .createSQueue sqid cqid size priority, controller =>
      controller.createSQueue sqid cqid size priority
  | .deleteSQueue sqid, controller => controller.deleteSQueue sqid
  | .deleteCQueue cqid, controller => controller.deleteCQueue cqid

def InTables (cqsize sqsize : Nat) : QueueCall → Prop
  | .createCQueue cqid _ _ _ | .deleteCQueue cqid => cqid < cqsize
  | .createSQueue sqid cqid _ _ => sqid < sqsize ∧ cqid < cqsize
  | .deleteSQueue sqid => sqid < sqsize

def performAll : List QueueCall → Controller → Except Panic Controller
  | [], controller => .ok controller
  | call :: rest, controller =>
      match call.perform controller with
      | .error raised => .error raised
      | .ok (_, updated) => performAll rest updated

end QueueCall

namespace Controller

def enabled (maxIOCQueue maxIOSQueue entries : UInt16) : Controller where
  ready := true
  arbitration := .roundRobin
  wrrHigh := 2
  wrrMedium := 2
  ppCQueue := some (CQueue.make 0 true 0 entries) ::
    List.replicate maxIOCQueue.toNat none
  ppSQueue := some (SQueue.make 0 .urgent 0 entries) ::
    List.replicate maxIOSQueue.toNat none
  lSQFIFO := []
  lCQFIFO := []
  aggregationMap := ∅
  issued := []

def Referential (controller : Controller) : Prop :=
  ∀ sqid, 1 ≤ sqid → ∀ queue,
    controller.ppSQueue[sqid]? = some (some queue) → ∃ completion,
      controller.ppCQueue[queue.cqID]? = some (some completion)

structure Tables (cqsize sqsize : Nat) (controller : Controller) : Prop where
  cqsize_eq : controller.ppCQueue.length = cqsize
  sqsize_eq : controller.ppSQueue.length = sqsize
  referential : controller.Referential
  vectors : ∀ cqid, 1 ≤ cqid → ∀ queue,
    controller.ppCQueue[cqid]? = some (some queue) →
      queue.interruptVector ∈ controller.aggregationMap
  idle : controller.lSQFIFO = []

theorem cqueueAt_ok {controller : Controller} {cqid : Nat}
    {entry : Option CQueue} :
    controller.cqueueAt cqid = .ok entry ↔
      controller.ppCQueue[cqid]? = some entry := by
  unfold cqueueAt
  cases controller.ppCQueue[cqid]? <;> simp

theorem squeueAt_ok {controller : Controller} {sqid : Nat}
    {entry : Option SQueue} :
    controller.squeueAt sqid = .ok entry ↔
      controller.ppSQueue[sqid]? = some entry := by
  unfold squeueAt
  cases controller.ppSQueue[sqid]? <;> simp

variable {controller : Controller} {cqsize sqsize : Nat}

theorem Tables.exists_cqueue (tables : controller.Tables cqsize sqsize)
    {cqid : Nat} (inside : cqid < cqsize) :
    ∃ entry, controller.ppCQueue[cqid]? = some entry := by
  rw [← tables.cqsize_eq] at inside
  exact ⟨_, List.getElem?_eq_getElem inside⟩

theorem Tables.exists_squeue (tables : controller.Tables cqsize sqsize)
    {sqid : Nat} (inside : sqid < sqsize) :
    ∃ entry, controller.ppSQueue[sqid]? = some entry := by
  rw [← tables.sqsize_eq] at inside
  exact ⟨_, List.getElem?_eq_getElem inside⟩

theorem Tables.createCQueue (tables : controller.Tables cqsize sqsize)
    {cqid : Nat} (inside : cqid < cqsize) (size : UInt16) (iv : Nat)
    (ien : Bool) :
    ∃ code updated, controller.createCQueue cqid size iv ien =
      .ok (code, updated) ∧ updated.Tables cqsize sqsize := by
  obtain ⟨entry, here⟩ := tables.exists_cqueue inside
  unfold Controller.createCQueue
  rw [cqueueAt_ok.mpr here]
  cases entry with
  | some queue => exact ⟨1, controller, rfl, tables⟩
  | none =>
      refine ⟨0, _, rfl, ?_⟩
      have lookup : ∀ other, (controller.ppCQueue.set cqid
          (some (CQueue.make iv ien cqid size)))[other]? =
            if cqid = other then some (some (CQueue.make iv ien cqid size))
            else controller.ppCQueue[other]? := by
        intro other
        rw [List.getElem?_set]
        split
        · rw [if_pos (by rw [tables.cqsize_eq]; exact inside)]
        · rfl
      refine ⟨by simp [setCQueue, tables.cqsize_eq], tables.sqsize_eq,
        ?_, ?_, tables.idle⟩
      · intro sqid first queue found
        obtain ⟨completion, named⟩ :=
          tables.referential sqid first queue found
        dsimp only [setCQueue]
        rw [lookup]
        split
        · exact ⟨_, rfl⟩
        · exact ⟨completion, named⟩
      · intro other first queue found
        dsimp only [setCQueue] at found ⊢
        rw [lookup] at found
        rw [AList.mem_insert]
        split at found
        · cases found
          exact .inl rfl
        · exact .inr (tables.vectors other first queue found)

theorem Tables.createSQueue (tables : controller.Tables cqsize sqsize)
    {sqid cqid : Nat} (inside : sqid < sqsize) (cqInside : cqid < cqsize)
    (size : UInt16) (priority : Priority) :
    ∃ code updated, controller.createSQueue sqid cqid size priority =
      .ok (code, updated) ∧ updated.Tables cqsize sqsize := by
  obtain ⟨entry, here⟩ := tables.exists_squeue inside
  obtain ⟨completion, named⟩ := tables.exists_cqueue cqInside
  unfold Controller.createSQueue
  rw [squeueAt_ok.mpr here]
  cases entry with
  | some queue => exact ⟨1, controller, rfl, tables⟩
  | none =>
      simp only [Option.isNone_none, if_true, bind, Except.bind]
      rw [cqueueAt_ok.mpr named]
      cases completion with
      | none => exact ⟨2, controller, rfl, tables⟩
      | some completion =>
          refine ⟨0, _, rfl, tables.cqsize_eq,
            by simp [setSQueue, tables.sqsize_eq], ?_, tables.vectors,
            tables.idle⟩
          intro other first queue found
          dsimp only [setSQueue] at found ⊢
          rw [List.getElem?_set] at found
          split at found
          · split at found
            · cases found
              exact ⟨completion, named⟩
            · cases found
          · exact tables.referential other first queue found

theorem Tables.deleteSQueue (tables : controller.Tables cqsize sqsize)
    {sqid : Nat} (inside : sqid < sqsize) :
    ∃ code updated, controller.deleteSQueue sqid = .ok (code, updated) ∧
      updated.Tables cqsize sqsize := by
  obtain ⟨entry, here⟩ := tables.exists_squeue inside
  unfold Controller.deleteSQueue
  rw [squeueAt_ok.mpr here]
  cases entry with
  | none => exact ⟨1, controller, rfl, tables⟩
  | some queue =>
      by_cases admin : sqid = 0
      · exact ⟨1, controller, by simp [bind, Except.bind, admin]; rfl, tables⟩
      · refine ⟨0, { controller with lSQFIFO := [] }.setSQueue sqid none,
          ?_, tables.cqsize_eq, by simp [setSQueue, tables.sqsize_eq], ?_,
          tables.vectors, rfl⟩
        · simp only [bind, Except.bind, admin, if_false, tables.idle,
            abortCommands]
          rfl
        · intro other first existing found
          dsimp only [setSQueue] at found ⊢
          rw [List.getElem?_set] at found
          split at found
          · split at found <;> cases found
          · exact tables.referential other first existing found

/-- The scans of `deleteCQueue` end and cover the table they look through. -/
def Scans (cqsize sqsize : Nat) : Prop :=
  cqsize ≤ 1 ∨ (cqsize = sqsize ∧ cqsize < 65536)

theorem refers_ok (covers : controller.cqsize ≤ controller.sqsize)
    (fits : controller.cqsize < 65536) (cqid : Nat) :
    ∃ found, controller.refers cqid = .ok found ∧
      (found = true ↔ ∃ sqid, 1 ≤ sqid ∧ sqid < controller.cqsize ∧
        ∃ queue, controller.ppSQueue[sqid]? = some (some queue) ∧
          queue.cqID = cqid) := by
  obtain ⟨found, looked, meaning⟩ :=
    @anyQueue_ok SQueue controller.cqsize controller.squeueAt
      (fun queue => queue.cqID = cqid) fits (by
        intro index _ inside
        have present : index < controller.ppSQueue.length :=
          Nat.lt_of_lt_of_le inside covers
        exact ⟨_, squeueAt_ok.mpr (List.getElem?_eq_getElem present)⟩)
  refine ⟨found, looked, ?_⟩
  simpa only [squeueAt_ok, decide_eq_true_eq] using meaning

theorem sameIV_ok (fits : controller.cqsize < 65536) (iv : Nat) :
    ∃ found, controller.sameIV iv = .ok found ∧
      (found = true ↔ ∃ cqid, 1 ≤ cqid ∧ cqid < controller.cqsize ∧
        ∃ queue, controller.ppCQueue[cqid]? = some (some queue) ∧
          queue.interruptVector = iv) := by
  obtain ⟨found, looked, meaning⟩ :=
    @anyQueue_ok CQueue controller.cqsize controller.cqueueAt
      (fun queue => queue.interruptVector = iv) fits (by
        intro index _ inside
        exact ⟨_, cqueueAt_ok.mpr (List.getElem?_eq_getElem inside)⟩)
  refine ⟨found, looked, ?_⟩
  simpa only [cqueueAt_ok, decide_eq_true_eq] using meaning

/-- What a deletion does once no submission queue was found. -/
theorem deleteCQueue_unreferred (fits : controller.cqsize < 65536)
    {cqid : Nat} {queue : CQueue} (first : cqid ≠ 0)
    (here : controller.ppCQueue[cqid]? = some (some queue))
    (unreferred : controller.refers cqid = .ok false)
    (known : queue.interruptVector ∈ controller.aggregationMap) :
    ∃ updated, controller.deleteCQueue cqid = .ok (0, updated) ∧
      updated.ppCQueue = controller.ppCQueue.set cqid none ∧
      updated.ppSQueue = controller.ppSQueue ∧
      updated.lSQFIFO = controller.lSQFIFO ∧
      ∀ other, 1 ≤ other → ∀ existing,
        updated.ppCQueue[other]? = some (some existing) →
        existing.interruptVector ∈ controller.aggregationMap →
          existing.interruptVector ∈ updated.aggregationMap := by
  have sized : (controller.setCQueue cqid none).cqsize = controller.cqsize := by
    simp [setCQueue, cqsize]
  obtain ⟨shared, searched, meaning⟩ :=
    @sameIV_ok (controller.setCQueue cqid none) (by omega)
      queue.interruptVector
  unfold Controller.deleteCQueue
  rw [cqueueAt_ok.mpr here]
  simp only [bind, Except.bind, first, if_false, unreferred,
    Bool.false_eq_true, searched]
  cases shared with
  | true => exact ⟨_, rfl, rfl, rfl, rfl, fun _ _ _ _ member => member⟩
  | false =>
      have listed : queue.interruptVector ∈
          (controller.setCQueue cqid none).aggregationMap := known
      simp only [Bool.false_eq_true, if_false, listed, if_true]
      refine ⟨_, rfl, rfl, rfl, rfl, ?_⟩
      intro other start existing found member
      rw [AList.mem_erase]
      refine ⟨?_, member⟩
      intro equal
      have inside : other < (controller.setCQueue cqid none).cqsize :=
        (List.getElem?_eq_some_iff.mp found).1
      have shared := meaning.mpr ⟨other, start, inside, existing, found, equal⟩
      cases shared

theorem Tables.deleteCQueue (tables : controller.Tables cqsize sqsize)
    (scans : Scans cqsize sqsize) {cqid : Nat} (inside : cqid < cqsize) :
    ∃ code updated, controller.deleteCQueue cqid = .ok (code, updated) ∧
      updated.Tables cqsize sqsize := by
  have cqs : controller.cqsize = cqsize := tables.cqsize_eq
  have sqs : controller.sqsize = sqsize := tables.sqsize_eq
  obtain ⟨entry, here⟩ := tables.exists_cqueue inside
  cases entry with
  | none =>
      refine ⟨1, controller, ?_, tables⟩
      unfold Controller.deleteCQueue
      rw [cqueueAt_ok.mpr here]
      rfl
  | some queue =>
      by_cases admin : cqid = 0
      · refine ⟨1, controller, ?_, tables⟩
        unfold Controller.deleteCQueue
        rw [cqueueAt_ok.mpr here]
        simp only [bind, Except.bind, admin, if_true]
        rfl
      have both : cqsize = sqsize ∧ cqsize < 65536 := by
        rcases scans with small | both
        · omega
        · exact both
      obtain ⟨found, looked, meaning⟩ :=
        @refers_ok controller (by omega) (by omega) cqid
      cases found with
      | true =>
          refine ⟨2, controller, ?_, tables⟩
          unfold Controller.deleteCQueue
          rw [cqueueAt_ok.mpr here]
          simp only [bind, Except.bind, admin, if_false, looked, if_true]
          rfl
      | false =>
          obtain ⟨updated, deleted, sameC, sameS, sameF, sameV⟩ :=
            deleteCQueue_unreferred (by omega) admin here looked
              (tables.vectors cqid (by omega) queue here)
          refine ⟨0, updated, deleted, by simp [sameC, tables.cqsize_eq],
            by rw [sameS]; exact tables.sqsize_eq, ?_, ?_,
            sameF.trans tables.idle⟩
          · intro sqid first existing found
            rw [sameS] at found
            obtain ⟨completion, named⟩ :=
              tables.referential sqid first existing found
            have bound : sqid < controller.ppSQueue.length :=
              (List.getElem?_eq_some_iff.mp found).1
            have bounded : sqid < controller.cqsize := by
              rw [tables.sqsize_eq] at bound
              omega
            have different : cqid ≠ existing.cqID := by
              intro equal
              have referred := meaning.mpr
                ⟨sqid, first, bounded, existing, found, equal.symm⟩
              cases referred
            rw [sameC, List.getElem?_set_ne different]
            exact ⟨completion, named⟩
          · intro other first existing found
            refine sameV other first existing found ?_
            rw [sameC, List.getElem?_set] at found
            split at found
            · split at found <;> cases found
            · exact tables.vectors other first existing found

theorem Tables.perform (tables : controller.Tables cqsize sqsize)
    (scans : Scans cqsize sqsize) {call : QueueCall}
    (inside : call.InTables cqsize sqsize) :
    ∃ code updated, call.perform controller = .ok (code, updated) ∧
      updated.Tables cqsize sqsize := by
  cases call with
  | createCQueue cqid size iv ien =>
      exact tables.createCQueue inside size iv ien
  | createSQueue sqid cqid size priority =>
      exact tables.createSQueue inside.1 inside.2 size priority
  | deleteSQueue sqid => exact tables.deleteSQueue inside
  | deleteCQueue cqid => exact tables.deleteCQueue scans inside

theorem Tables.performAll (tables : controller.Tables cqsize sqsize)
    (scans : Scans cqsize sqsize) {calls : List QueueCall}
    (inside : ∀ call ∈ calls, call.InTables cqsize sqsize) :
    ∃ final, QueueCall.performAll calls controller = .ok final ∧
      final.Tables cqsize sqsize := by
  induction calls generalizing controller with
  | nil => exact ⟨controller, rfl, tables⟩
  | cons call rest induction =>
      obtain ⟨code, updated, performed, kept⟩ :=
        tables.perform scans (inside call (.head _))
      unfold QueueCall.performAll
      rw [performed]
      exact induction kept fun other member => inside other (.tail _ member)

theorem enabled_tables (maxIOCQueue maxIOSQueue entries : UInt16) :
    (enabled maxIOCQueue maxIOSQueue entries).Tables
      (maxIOCQueue.toNat + 1) (maxIOSQueue.toNat + 1) where
  cqsize_eq := by simp [enabled]
  sqsize_eq := by simp [enabled]
  referential := by
    intro sqid first queue found
    obtain ⟨rest, rfl⟩ := Nat.exists_eq_add_one.mpr first
    simp [enabled, List.getElem?_replicate] at found
  vectors := by
    intro cqid first queue found
    obtain ⟨rest, rfl⟩ := Nat.exists_eq_add_one.mpr first
    simp [enabled, List.getElem?_replicate] at found
  idle := rfl

section Failures

variable {maxIOCQueue maxIOSQueue entries : UInt16}

theorem enabled_squeue_none {sqid : Nat} (first : 1 ≤ sqid)
    (inside : sqid ≤ maxIOSQueue.toNat) :
    (enabled maxIOCQueue maxIOSQueue entries).ppSQueue[sqid]? =
      some none := by
  obtain ⟨rest, rfl⟩ := Nat.exists_eq_add_one.mpr first
  simp [enabled, List.getElem?_replicate]
  omega

theorem enabled_createCQueue (first : 1 ≤ maxIOCQueue.toNat) :
    ∃ created, (enabled maxIOCQueue maxIOSQueue entries).createCQueue 1
        entries 1 true = .ok (0, created) ∧
      created.ppCQueue[1]? = some (some (CQueue.make 1 true 1 entries)) ∧
      created.ppCQueue.length = maxIOCQueue.toNat + 1 ∧
      created.ppSQueue =
        (enabled maxIOCQueue maxIOSQueue entries).ppSQueue ∧
      1 ∈ created.aggregationMap := by
  have vacant : (enabled maxIOCQueue maxIOSQueue entries).ppCQueue[1]? =
      some none := by
    simp [enabled, List.getElem?_replicate]
    omega
  unfold Controller.createCQueue
  rw [cqueueAt_ok.mpr vacant]
  refine ⟨_, rfl, ?_, ?_, rfl, ?_⟩
  · dsimp only [setCQueue]
    rw [List.getElem?_set_self (by simp [enabled]; omega)]
  · simp [setCQueue, enabled]
  · simp [AList.mem_insert]

theorem deleteCQueue_stops {controller : Controller} {queue : CQueue}
    (here : controller.ppCQueue[1]? = some (some queue))
    (stops : controller.refers 1 = .error raised) :
    controller.deleteCQueue 1 = .error raised := by
  unfold Controller.deleteCQueue
  rw [cqueueAt_ok.mpr here]
  simp only [bind, Except.bind, Nat.one_ne_zero, if_false, stops]

theorem refers_short {controller : Controller}
    (length : controller.ppCQueue.length = maxIOCQueue.toNat + 1)
    (same : controller.ppSQueue =
      (enabled maxIOCQueue maxIOSQueue entries).ppSQueue)
    (short : maxIOSQueue.toNat < maxIOCQueue.toNat) :
    controller.refers 1 = .error .outOfTable := by
  have bound := maxIOCQueue.toNat_lt
  have reaches : controller.cqsize = maxIOCQueue.toNat + 1 := length
  refine @anyQueue_missing SQueue _ _ _ .outOfTable (maxIOSQueue.toNat + 1)
    (by omega) (by omega) (by omega) ?_ ?_
  · intro index first inside
    rw [squeueAt_ok, same]
    exact enabled_squeue_none first (by omega)
  · unfold squeueAt
    rw [same]
    simp [enabled]

theorem refers_endless {controller : Controller}
    (length : controller.ppCQueue.length = 65536)
    (same : controller.ppSQueue =
      (enabled maxIOCQueue maxIOSQueue entries).ppSQueue)
    (wide : maxIOSQueue.toNat = 65535) :
    controller.refers 1 = .error .outOfFuel := by
  refine anyQueue_endless (Nat.le_of_eq length.symm) ?_
  intro index inside
  by_cases first : 1 ≤ index
  · refine ⟨none, ?_, by simp⟩
    rw [squeueAt_ok, same]
    exact enabled_squeue_none first (by omega)
  · obtain rfl : index = 0 := by omega
    refine ⟨some (SQueue.make 0 .urgent 0 entries), ?_, ?_⟩
    · rw [squeueAt_ok, same]
      rfl
    · intro queue equal
      cases equal
      rfl

/-- A submission queue beyond the scan keeps the number of a completion queue
that is deleted. -/
theorem long_dangles (first : 1 ≤ maxIOCQueue.toNat)
    (long : maxIOCQueue.toNat < maxIOSQueue.toNat) :
    ∃ final, QueueCall.performAll
        [.createCQueue 1 entries 1 true,
          .createSQueue (maxIOCQueue.toNat + 1) 1 entries .medium,
          .deleteCQueue 1] (enabled maxIOCQueue maxIOSQueue entries) =
        .ok final ∧ ¬ final.Referential := by
  have bound := maxIOSQueue.toNat_lt
  obtain ⟨created, calls, here, length, same, known⟩ :=
    @enabled_createCQueue maxIOCQueue maxIOSQueue entries first
  have vacant := @enabled_squeue_none maxIOCQueue maxIOSQueue entries
    (maxIOCQueue.toNat + 1) (by omega) (by omega)
  rw [← same] at vacant
  have sized : (created.setSQueue (maxIOCQueue.toNat + 1)
      (some (SQueue.make 1 .medium (maxIOCQueue.toNat + 1) entries))).cqsize =
        maxIOCQueue.toNat + 1 := length
  have table : created.ppSQueue.length = maxIOSQueue.toNat + 1 := by
    rw [same]
    simp [enabled]
  have added : created.createSQueue (maxIOCQueue.toNat + 1) 1 entries
      .medium = .ok (0, created.setSQueue (maxIOCQueue.toNat + 1)
        (some (SQueue.make 1 .medium (maxIOCQueue.toNat + 1) entries))) := by
    unfold Controller.createSQueue
    rw [squeueAt_ok.mpr vacant]
    simp only [bind, Except.bind, Option.isNone_none, if_true]
    rw [cqueueAt_ok.mpr here]
    rfl
  have longer : (created.setSQueue (maxIOCQueue.toNat + 1)
      (some (SQueue.make 1 .medium (maxIOCQueue.toNat + 1) entries))).sqsize =
        maxIOSQueue.toNat + 1 := by
    simp [sqsize, setSQueue, table]
  obtain ⟨found, looked, meaning⟩ := @refers_ok (created.setSQueue
    (maxIOCQueue.toNat + 1) (some (SQueue.make 1 .medium
      (maxIOCQueue.toNat + 1) entries))) (by omega) (by omega) 1
  have unseen : found = false := by
    rw [Bool.eq_false_iff, ne_eq, meaning]
    intro ⟨sqid, start, inside, queue, there, _⟩
    dsimp only [setSQueue] at there
    rw [List.getElem?_set_ne (by omega), same,
      enabled_squeue_none start (by omega)] at there
    cases there
  subst unseen
  obtain ⟨final, deleted, sameC, sameS, _⟩ :=
    @deleteCQueue_unreferred (created.setSQueue (maxIOCQueue.toNat + 1)
      (some (SQueue.make 1 .medium (maxIOCQueue.toNat + 1) entries)))
      (by omega) 1 _ Nat.one_ne_zero here looked known
  refine ⟨final, ?_, ?_⟩
  · simp only [QueueCall.performAll, QueueCall.perform, calls, added, deleted]
  · intro referential
    obtain ⟨completion, named⟩ := referential (maxIOCQueue.toNat + 1)
      (by omega) (SQueue.make 1 .medium (maxIOCQueue.toNat + 1) entries) (by
        rw [sameS]
        dsimp only [setSQueue]
        rw [List.getElem?_set_self (by omega)])
    rw [sameC] at named
    dsimp only [setSQueue, SQueue.make] at named
    rw [List.getElem?_set_self (by omega)] at named
    cases named

end Failures

end Controller

/-- The references stay intact over all orders of calls exactly when the two
numbers of queues agree and the counter of the scan can reach them, or when
there is no completion queue to delete. -/
theorem referential_iff (maxIOCQueue maxIOSQueue entries : UInt16) :
    (∀ calls : List QueueCall,
      (∀ call ∈ calls, call.InTables (maxIOCQueue.toNat + 1)
        (maxIOSQueue.toNat + 1)) →
      ∃ final, QueueCall.performAll calls
          (Controller.enabled maxIOCQueue maxIOSQueue entries) = .ok final ∧
        final.Referential) ↔
      maxIOCQueue = 0 ∨ (maxIOCQueue = maxIOSQueue ∧ maxIOCQueue < 65535) := by
  constructor
  · intro intact
    by_contra fails
    obtain ⟨positive, other⟩ := not_or.mp fails
    have first : 1 ≤ maxIOCQueue.toNat := by
      rw [Nat.one_le_iff_ne_zero]
      intro zero
      exact positive (UInt16.toNat_inj.mp zero)
    obtain ⟨created, calls, here, length, same, _⟩ :=
      @Controller.enabled_createCQueue maxIOCQueue maxIOSQueue entries first
    have stops : ∀ raised, created.refers 1 ≠ .error raised := by
      intro raised refused
      obtain ⟨final, performed, _⟩ := intact
        [.createCQueue 1 entries 1 true, .deleteCQueue 1] (by
          simp [QueueCall.InTables]
          omega)
      simp only [QueueCall.performAll, QueueCall.perform, calls,
        Controller.deleteCQueue_stops here refused] at performed
      cases performed
    rcases Nat.lt_trichotomy maxIOSQueue.toNat maxIOCQueue.toNat with
      short | equal | long
    · exact stops _ (Controller.refers_short length same short)
    · have wide : maxIOSQueue.toNat = 65535 := by
        have bound := maxIOSQueue.toNat_lt
        by_contra narrow
        refine other ⟨UInt16.toNat_inj.mp equal.symm, ?_⟩
        rw [UInt16.lt_iff_toNat_lt]
        change maxIOCQueue.toNat < 65535
        omega
      exact stops _ (Controller.refers_endless (by omega) same wide)
    · obtain ⟨final, performed, dangling⟩ :=
        @Controller.long_dangles maxIOCQueue maxIOSQueue entries first long
      have inside : ∀ call ∈ [QueueCall.createCQueue 1 entries 1 true,
          .createSQueue (maxIOCQueue.toNat + 1) 1 entries .medium,
          .deleteCQueue 1], call.InTables (maxIOCQueue.toNat + 1)
            (maxIOSQueue.toNat + 1) := by
        simp [QueueCall.InTables]
        omega
      obtain ⟨result, reached, referential⟩ := intact _ inside
      rw [performed] at reached
      cases reached
      exact dangling referential
  · intro condition calls inside
    obtain ⟨final, performed, kept⟩ :=
      (Controller.enabled_tables maxIOCQueue maxIOSQueue entries).performAll
        (by
          rcases condition with none | ⟨equal, narrow⟩
          · exact .inl (by simp [none])
          · refine .inr ⟨by rw [equal], ?_⟩
            have below := UInt16.lt_iff_toNat_lt.mp narrow
            change maxIOCQueue.toNat < 65535 at below
            omega) inside
    exact ⟨final, performed, kept.referential⟩

/-- One completion queue and two submission queues: the second of these is out
of the scan's sight. -/
theorem dangling_reference :
    ∃ final, QueueCall.performAll
        [.createCQueue 1 16 1 true, .createSQueue 2 1 16 .medium,
          .deleteCQueue 1] (Controller.enabled 1 2 16) = .ok final ∧
      ¬ final.Referential :=
  @Controller.long_dangles 1 2 16 (by decide) (by decide)

end SimpleSSD.HIL.NVMe
