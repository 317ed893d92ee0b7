import SimpleSSD.HIL.NVMe.Controller
import Mathlib.Algebra.BigOperators.Group.List.Basic

namespace SimpleSSD.HIL.NVMe

/-! What one call of `collectSQueue` reads. -/

def SQueue.backlog (queue : SQueue) : Nat :=
  Ring.count queue.size.toNat queue.head.toNat queue.tail.toNat

def SQueue.advanced (queue : SQueue) : SQueue :=
  { queue with head := queue.next queue.head }

theorem SQueue.backlog_eq_zero {queue : SQueue} (inRange : queue.InRange) :
    queue.backlog = 0 ↔ queue.head = queue.tail := by
  unfold backlog
  rw [Ring.count_eq_zero (UInt16.lt_iff_toNat_lt.mp inRange.head_lt)]
  exact UInt16.toNat_inj

theorem SQueue.advanced_inRange {queue : SQueue} (inRange : queue.InRange) :
    queue.advanced.InRange where
  head_lt := Queue.next_lt inRange.head_lt
  tail_lt := inRange.tail_lt

theorem SQueue.backlog_advanced {queue : SQueue} (inRange : queue.InRange)
    (waits : queue.head ≠ queue.tail) :
    queue.advanced.backlog + 1 = queue.backlog := by
  unfold backlog advanced
  dsimp only
  rw [Queue.next_toNat inRange.head_lt]
  exact Ring.count_next (UInt16.lt_iff_toNat_lt.mp inRange.head_lt)
    (UInt16.lt_iff_toNat_lt.mp inRange.tail_lt)
    fun equal => waits (UInt16.toNat_inj.mp equal)

namespace Controller

def read (controller : Controller) (sqid : Nat) (queue : SQueue) :
    Controller :=
  { controller.setSQueue sqid (some queue.advanced) with
    issued := controller.issued ++ [{ sqID := sqid, slot := queue.head }] }

theorem checkQueue_eq {controller : Controller} {sqid : Nat} {queue : SQueue}
    (inRange : queue.InRange) :
    controller.checkQueue sqid queue =
      if queue.head = queue.tail then none
      else some (controller.read sqid queue) := by
  have count : queue.getItemCount.toNat = queue.backlog :=
    inRange.getItemCount_toNat
  have empty := SQueue.backlog_eq_zero inRange
  have waiting : 0 < queue.getItemCount ↔ queue.head ≠ queue.tail := by
    rw [ne_eq, ← empty, ← count, UInt16.lt_iff_toNat_lt]
    exact Nat.pos_iff_ne_zero
  unfold checkQueue SQueue.getData
  by_cases same : queue.head = queue.tail
  · rw [if_neg (by rw [waiting]; exact not_not.mpr same), if_pos same]
  · rw [if_pos (waiting.mpr same), if_neg same, if_pos same]
    rfl

def AllInRange (controller : Controller) : Prop :=
  ∀ (sqid : Nat) (queue : SQueue),
    controller.ppSQueue[sqid]? = some (some queue) → queue.InRange

def pending (controller : Controller) : Nat :=
  (controller.ppSQueue.map fun entry =>
    match entry with
    | none => 0
    | some queue => queue.backlog).sum

/-- A number of reads, each from a queue that the predicate allows. -/
inductive Reads (allowed : Nat → Priority → Prop) (start : Controller) :
    Nat → Controller → Prop
  | none : Reads allowed start 0 start
  | read (earlier : Reads allowed start amount current)
      (here : current.ppSQueue[sqid]? = some (some queue))
      (waits : queue.head ≠ queue.tail)
      (permitted : allowed sqid queue.priority) :
      Reads allowed start (amount + 1) (current.read sqid queue)

theorem read_ppSQueue (controller : Controller) (sqid : Nat) (queue : SQueue)
    {existing : SQueue}
    (here : controller.ppSQueue[sqid]? = some (some existing)) (other : Nat) :
    (controller.read sqid queue).ppSQueue[other]? =
      if sqid = other then some (some queue.advanced)
      else controller.ppSQueue[other]? := by
  dsimp only [Controller.read, setSQueue]
  by_cases same : sqid = other
  · subst same
    rw [List.getElem?_set_self (List.getElem?_eq_some_iff.mp here).1,
      if_pos rfl]
  · rw [List.getElem?_set_ne same, if_neg same]

theorem AllInRange.read {controller : Controller}
    (inRange : controller.AllInRange) {sqid : Nat} {queue : SQueue}
    (here : controller.ppSQueue[sqid]? = some (some queue)) :
    (controller.read sqid queue).AllInRange := by
  intro other current found
  rw [read_ppSQueue controller sqid queue here] at found
  split at found
  · cases found
    exact SQueue.advanced_inRange (inRange sqid queue here)
  · exact inRange other current found

private theorem sum_map_set (weight : Option SQueue → Nat)
    (table : List (Option SQueue)) {index : Nat} {old : Option SQueue}
    (here : table[index]? = some old) (new : Option SQueue) :
    ((table.set index new).map weight).sum + weight old =
      (table.map weight).sum + weight new := by
  induction table generalizing index with
  | nil => cases here
  | cons head tail induction =>
      cases index with
      | zero =>
          cases here
          simp only [List.set_cons_zero, List.map_cons, List.sum_cons]
          omega
      | succ index =>
          have rest := induction (by simpa using here)
          simp only [List.set_cons_succ, List.map_cons, List.sum_cons]
          omega

theorem pending_read {controller : Controller}
    (inRange : controller.AllInRange) {sqid : Nat} {queue : SQueue}
    (here : controller.ppSQueue[sqid]? = some (some queue))
    (waits : queue.head ≠ queue.tail) :
    (controller.read sqid queue).pending + 1 = controller.pending := by
  have less := SQueue.backlog_advanced (inRange sqid queue here) waits
  have moved := sum_map_set (fun entry =>
    match entry with
    | none => 0
    | some queue => queue.backlog) controller.ppSQueue here
      (some queue.advanced)
  unfold pending
  dsimp only [Controller.read, setSQueue] at moved ⊢
  omega

namespace Reads

variable {allowed weaker : Nat → Priority → Prop}
  {start middle current : Controller} {amount more : Nat}

theorem trans (first : Reads allowed start amount middle)
    (second : Reads allowed middle more current) :
    Reads allowed start (amount + more) current := by
  induction second with
  | none => exact first
  | read earlier here waits permitted induction =>
      exact .read induction here waits permitted

theorem mono (reads : Reads allowed start amount current)
    (implies : ∀ sqid priority, allowed sqid priority →
      weaker sqid priority) : Reads weaker start amount current := by
  induction reads with
  | none => exact .none
  | read earlier here waits permitted induction =>
      exact .read induction here waits (implies _ _ permitted)

theorem inRange (reads : Reads allowed start amount current)
    (inRange : start.AllInRange) : current.AllInRange := by
  induction reads with
  | none => exact inRange
  | read earlier here waits permitted induction => exact induction.read here

theorem pending_eq (reads : Reads allowed start amount current)
    (inRange : start.AllInRange) :
    current.pending + amount = start.pending := by
  induction reads with
  | none => rfl
  | read earlier here waits permitted induction =>
      have less := pending_read (earlier.inRange inRange) here waits
      omega

theorem sqsize_eq (reads : Reads allowed start amount current) :
    current.sqsize = start.sqsize := by
  induction reads with
  | none => rfl
  | read earlier here waits permitted induction =>
      rw [← induction]
      simp [sqsize, Controller.read, setSQueue]

theorem untouched (reads : Reads allowed start amount current) {sqid : Nat}
    {queue : SQueue} (here : start.ppSQueue[sqid]? = some (some queue))
    (idle : ¬ allowed sqid queue.priority ∨ queue.head = queue.tail) :
    current.ppSQueue[sqid]? = some (some queue) := by
  induction reads with
  | none => exact here
  | @read amount current other read earlier found waits permitted induction =>
      rw [read_ppSQueue current other read found]
      split
      · next same =>
          subst same
          rw [induction] at found
          cases found
          rcases idle with forbidden | empty
          · exact absurd permitted forbidden
          · exact absurd empty waits
      · exact induction

end Reads

def slotsOf (fetched : List Fetch) (sqid : Nat) : List Nat :=
  (fetched.filter fun fetch => fetch.sqID = sqid).map (·.slot.toNat)

theorem slotsOf_append (fetched : List Fetch) (fetch : Fetch) (sqid : Nat) :
    slotsOf (fetched ++ [fetch]) sqid =
      slotsOf fetched sqid ++
        if fetch.sqID = sqid then [fetch.slot.toNat] else [] := by
  unfold slotsOf
  rw [List.filter_append, List.map_append]
  by_cases same : fetch.sqID = sqid <;> simp [same]

/-- A queue after the first `done` of its commands were read. -/
structure Partly (queue now : SQueue) (slots : List Nat) (done : Nat) :
    Prop where
  same : now = { queue with head := now.head }
  backlog_eq : now.backlog + done = queue.backlog
  head_eq : now.head.toNat =
    (queue.head.toNat + done) % queue.size.toNat
  slots_eq : slots = Ring.slots queue.size.toNat queue.head.toNat done

theorem Partly.advanced {queue now : SQueue} {slots : List Nat} {done : Nat}
    (partly : Partly queue now slots done) (inRange : now.InRange)
    (waits : now.head ≠ now.tail) :
    Partly queue now.advanced (slots ++ [now.head.toNat]) (done + 1) := by
  have size_eq : now.size = queue.size := by rw [partly.same]
  have less := SQueue.backlog_advanced inRange waits
  have positive : 0 < now.size.toNat :=
    Nat.lt_of_le_of_lt (Nat.zero_le _)
      (UInt16.lt_iff_toNat_lt.mp inRange.head_lt)
  refine ⟨?_, ?_, ?_, ?_⟩
  · unfold SQueue.advanced
    rw [partly.same]
  · have before := partly.backlog_eq
    omega
  · unfold SQueue.advanced
    dsimp only
    rw [Queue.next_toNat inRange.head_lt, partly.head_eq, ← size_eq,
      Ring.next_mod positive, Nat.add_assoc]
  · rw [Ring.slots_succ, partly.slots_eq, partly.head_eq]

theorem Reads.progress {allowed : Nat → Priority → Prop}
    {start current : Controller} {amount : Nat}
    (reads : Reads allowed start amount current)
    (inRange : start.AllInRange) :
    ∃ fetched, current.issued = start.issued ++ fetched ∧ ∀ sqid : Nat,
      (∀ queue, start.ppSQueue[sqid]? = some (some queue) →
        ∃ now done, current.ppSQueue[sqid]? = some (some now) ∧
          Partly queue now (slotsOf fetched sqid) done) ∧
      ((∀ queue, start.ppSQueue[sqid]? ≠ some (some queue)) →
        slotsOf fetched sqid = [] ∧
        current.ppSQueue[sqid]? = start.ppSQueue[sqid]?) := by
  induction reads with
  | none =>
      refine ⟨[], by simp, ?_⟩
      intro sqid
      refine ⟨?_, fun _ => ⟨rfl, rfl⟩⟩
      intro queue here
      refine ⟨queue, 0, here, rfl, rfl, ?_, rfl⟩
      exact (Nat.mod_eq_of_lt (UInt16.lt_iff_toNat_lt.mp
        (inRange sqid queue here).head_lt)).symm
  | @read amount current sqid queue earlier here waits permitted induction =>
      obtain ⟨fetched, issued, each⟩ := induction
      refine ⟨fetched ++ [{ sqID := sqid, slot := queue.head }], ?_, ?_⟩
      · dsimp only [Controller.read]
        rw [issued, List.append_assoc]
      intro other
      rw [read_ppSQueue current sqid queue here, slotsOf_append]
      obtain ⟨queued, vacant⟩ := each other
      by_cases same : sqid = other
      · subst same
        simp only [if_true]
        constructor
        · intro first began
          obtain ⟨now, done, found, partly⟩ := queued first began
          rw [found] at here
          cases here
          refine ⟨_, done + 1, rfl, partly.advanced ?_ waits⟩
          exact earlier.inRange inRange sqid queue found
        · intro never
          rw [(vacant never).2] at here
          exact absurd here (never queue)
      · simp only [same, if_false, List.append_nil]
        exact ⟨queued, vacant⟩

def Drained (select : SQueue → Bool) (places : Nat → Prop)
    (controller : Controller) : Prop :=
  ∀ sqid, places sqid → ∀ queue : SQueue,
    controller.ppSQueue[sqid]? = some (some queue) → select queue = true →
      queue.head = queue.tail

theorem Reads.drained {allowed : Nat → Priority → Prop}
    {start current : Controller} {amount : Nat}
    (reads : Reads allowed start amount current)
    (inRange : start.AllInRange) {select : SQueue → Bool}
    {places : Nat → Prop}
    (headless : ∀ (queue : SQueue) head,
      select { queue with head := head } = select queue)
    (drained : start.Drained select places) :
    current.Drained select places := by
  intro sqid place queue found selected
  obtain ⟨fetched, _, each⟩ := reads.progress inRange
  cases here : start.ppSQueue[sqid]? with
  | none =>
      rw [((each sqid).2 (by simp [here])).2, here] at found
      cases found
  | some entry =>
      cases entry with
      | none =>
          rw [((each sqid).2 (by simp [here])).2, here] at found
          cases found
      | some first =>
          obtain ⟨now, done, there, partly⟩ := (each sqid).1 first here
          rw [there] at found
          cases found
          have chosen : select first = true := by
            rw [← selected, partly.same]
            exact (headless first queue.head).symm
          have empty := drained sqid place first here chosen
          have kept := reads.untouched here (.inr empty)
          rw [there] at kept
          cases kept
          exact empty

section Loops

variable {select : SQueue → Bool} {account : κ → κ × Bool}
  {allowed : Nat → Priority → Prop} {total : κ → Nat} {limit : Nat}

/-- One loop over queues: what it reads, how it counts, and when it stays
idle. -/
theorem walk_visit
    (counts : ∀ counters, total counters + 1 < limit →
      total (account counters).1 = total counters + 1)
    (indices : List Nat)
    (permits : ∀ sqid ∈ indices, ∀ queue, select queue = true →
      allowed sqid queue.priority)
    {controller : Controller} {counters : κ}
    (inRange : controller.AllInRange)
    (inside : ∀ sqid ∈ indices, sqid < controller.sqsize)
    (room : total counters + indices.length < limit) :
    ∃ amount collected after, walk (visitQueue select account) indices
        (controller, counters) = .ok (collected, after) ∧
      Reads allowed controller amount collected ∧
      total after = total counters + amount ∧ amount ≤ indices.length ∧
      (amount = 0 → controller.Drained select (· ∈ indices)) := by
  induction indices generalizing controller counters with
  | nil =>
      exact ⟨0, controller, counters, rfl, .none, rfl, Nat.le_refl _,
        fun _ sqid member => nomatch member⟩
  | cons sqid rest induction =>
      rw [List.length_cons] at room
      have present : ∃ entry, controller.ppSQueue[sqid]? = some entry :=
        ⟨_, List.getElem?_eq_getElem (inside sqid (.head _))⟩
      obtain ⟨entry, here⟩ := present
      have looked : controller.squeueAt sqid = .ok entry := by
        unfold squeueAt
        rw [here]
      -- A queue that gives nothing leaves the loop to the queues after it.
      have passes : visitQueue select account sqid (controller, counters) =
          .ok ((controller, counters), false) →
          (∀ queue, entry = some queue → select queue = true →
            queue.head = queue.tail) →
          ∃ amount collected after, walk (visitQueue select account)
              (sqid :: rest) (controller, counters) =
                .ok (collected, after) ∧
            Reads allowed controller amount collected ∧
            total after = total counters + amount ∧
            amount ≤ rest.length + 1 ∧
            (amount = 0 → controller.Drained select (· ∈ sqid :: rest)) := by
        intro idle empty
        obtain ⟨amount, collected, after, walked, reads, counted, few,
          drained⟩ := induction
            (fun other member => permits other (.tail _ member)) inRange
            (fun other member => inside other (.tail _ member))
            (by exact Nat.lt_of_succ_lt room)
        refine ⟨amount, collected, after, ?_, reads, counted, by omega, ?_⟩
        · rw [walk, idle]
          exact walked
        · intro none other member queue found selected
          rcases List.mem_cons.mp member with same | later
          · subst same
            rw [here] at found
            cases found
            exact empty queue rfl selected
          · exact drained none other later queue found selected
      cases entry with
      | none =>
          exact passes (by simp only [visitQueue, looked])
            fun queue absent => nomatch absent
      | some queue =>
          cases selected : select queue with
          | false =>
              refine passes (by simp [visitQueue, looked, selected]) ?_
              intro other same chosen
              cases same
              rw [selected] at chosen
              cases chosen
          | true =>
              have checked :=
                @checkQueue_eq controller sqid queue (inRange sqid queue here)
              by_cases empty : queue.head = queue.tail
              · rw [if_pos empty] at checked
                refine passes
                  (by simp [visitQueue, looked, selected, checked]) ?_
                intro other same chosen
                cases same
                exact empty
              · rw [if_neg empty] at checked
                have first : Reads allowed controller 1
                    (controller.read sqid queue) :=
                  .read .none here empty (permits sqid (.head _) queue selected)
                have count := counts counters (by omega)
                have visited : visitQueue select account sqid
                    (controller, counters) =
                    .ok ((controller.read sqid queue, (account counters).1),
                      (account counters).2) := by
                  simp [visitQueue, looked, selected, checked]
                rw [walk, visited]
                cases (account counters).2 with
                | true =>
                    refine ⟨1, _, _, rfl, first, count, by simp, ?_⟩
                    intro never
                    cases never
                | false =>
                    obtain ⟨amount, collected, after, walked, reads, counted,
                      few, _⟩ := @induction
                        (fun other member => permits other (.tail _ member))
                        (controller.read sqid queue) (account counters).1
                        (inRange.read here)
                        (by
                          intro other member
                          rw [first.sqsize_eq]
                          exact inside other (.tail _ member))
                        (by omega)
                    refine ⟨1 + amount, collected, after, walked,
                      first.trans reads, by omega,
                      by rw [List.length_cons]; omega, ?_⟩
                    intro never
                    omega

theorem loop_visit
    (counts : ∀ counters, total counters + 1 < limit →
      total (account counters).1 = total counters + 1)
    {controller : Controller} {counters : κ} (first : UInt16)
    (permits : ∀ sqid, first.toNat ≤ sqid → ∀ queue, select queue = true →
      allowed sqid queue.priority)
    (fits : controller.sqsize < 65536) (inRange : controller.AllInRange)
    (room : total counters + controller.sqsize < limit) :
    ∃ amount collected after, forLoop .outOfFuel controller.sqsize
        (visitQueue select account) loopFuel first (controller, counters) =
          .ok (collected, after) ∧
      Reads allowed controller amount collected ∧
      total after = total counters + amount ∧
      amount ≤ controller.sqsize ∧
      (amount = 0 → controller.Drained select (first.toNat ≤ ·)) := by
  have member : ∀ sqid, sqid ∈ List.range' first.toNat
      (controller.sqsize - first.toNat) ↔
        first.toNat ≤ sqid ∧ sqid < controller.sqsize := by
    intro sqid
    rw [List.mem_range'_1]
    omega
  obtain ⟨amount, collected, after, walked, reads, counted, few, drained⟩ :=
    @walk_visit κ select account allowed total limit counts
      (List.range' first.toNat (controller.sqsize - first.toNat))
      (fun sqid listed => permits sqid ((member sqid).mp listed).1)
      controller counters inRange
      (fun sqid listed => ((member sqid).mp listed).2)
      (by rw [List.length_range']; omega)
  rw [List.length_range'] at few
  refine ⟨amount, collected, after, ?_, reads, counted, by omega, ?_⟩
  · rw [forLoop_eq_walk fits (by unfold loopFuel; omega)]
    exact walked
  · intro none sqid place queue found selected
    exact drained none sqid ((member sqid).mpr
      ⟨place, (List.getElem?_eq_some_iff.mp found).1⟩) queue found selected

end Loops

theorem countUpdated_total (updated : UInt16)
    (room : updated.toNat + 1 < 65536) :
    (countUpdated updated).1.toNat = updated.toNat + 1 := by
  unfold countUpdated
  rw [UInt16.toNat_add]
  exact Nat.mod_eq_of_lt (by simpa using room)

section RoundRobin

variable {select : SQueue → Bool} {allowed : Nat → Priority → Prop}
  {first : UInt16} {controller collected : Controller} {fuel : Nat}

theorem pass_spec
    (permits : ∀ sqid, first.toNat ≤ sqid → ∀ queue, select queue = true →
      allowed sqid queue.priority)
    (fits : controller.sqsize < 65536) (inRange : controller.AllInRange) :
    ∃ amount collected updated, forLoop .outOfFuel controller.sqsize
        (visitQueue select countUpdated) loopFuel first (controller, 0) =
          .ok (collected, updated) ∧
      Reads allowed controller amount collected ∧
      (updated = 0 ↔ amount = 0) ∧
      (amount = 0 → controller.Drained select (first.toNat ≤ ·)) := by
  obtain ⟨amount, collected, updated, looped, reads, counted, _, drained⟩ :=
    @loop_visit UInt16 select countUpdated allowed UInt16.toNat 65536
      countUpdated_total controller 0 first permits fits inRange (by simpa)
  refine ⟨amount, collected, updated, looped, reads, ?_, drained⟩
  rw [← UInt16.toNat_inj, counted]
  simp

theorem roundRobin_ok
    (permits : ∀ sqid, first.toNat ≤ sqid → ∀ queue, select queue = true →
      allowed sqid queue.priority)
    (fits : controller.sqsize < 65536) (inRange : controller.AllInRange)
    (result : roundRobin first select fuel controller = .ok collected) :
    ∃ amount, Reads allowed controller amount collected ∧
      collected.Drained select (first.toNat ≤ ·) := by
  induction fuel generalizing controller with
  | zero => cases result
  | succ fuel induction =>
      obtain ⟨amount, passed, updated, looped, reads, zero, drained⟩ :=
        pass_spec permits fits inRange
      rw [roundRobin, looped] at result
      dsimp only at result
      split at result
      · next none =>
          cases result
          have nothing := zero.mp none
          subst nothing
          have still := drained rfl
          cases reads
          exact ⟨0, .none, still⟩
      · obtain ⟨more, later, empty⟩ := induction
          (by rw [reads.sqsize_eq]; exact fits) (reads.inRange inRange) result
        exact ⟨amount + more, reads.trans later, empty⟩

theorem roundRobin_total (fits : controller.sqsize < 65536)
    (inRange : controller.AllInRange) (enough : controller.pending < fuel) :
    ∃ collected, roundRobin first select fuel controller = .ok collected := by
  induction fuel generalizing controller with
  | zero => omega
  | succ fuel induction =>
      obtain ⟨amount, passed, updated, looped, reads, zero, _⟩ :=
        @pass_spec select (fun _ _ => True) first controller
          (fun _ _ _ _ => trivial) fits inRange
      rw [roundRobin, looped]
      dsimp only
      split
      · exact ⟨passed, rfl⟩
      · next some =>
          have left := reads.pending_eq inRange
          have positive : amount ≠ 0 := fun none => some (zero.mpr none)
          exact induction (by rw [reads.sqsize_eq]; exact fits)
            (reads.inRange inRange) (by omega)

/-- The counter cannot reach the number of queues. -/
theorem roundRobin_endless (inRange : controller.AllInRange)
    (wide : 65536 ≤ controller.sqsize) :
    roundRobin first select fuel controller = .error .outOfFuel := by
  cases fuel with
  | zero => rfl
  | succ fuel =>
      have endless : forLoop .outOfFuel controller.sqsize
          (visitQueue select countUpdated) loopFuel first (controller, 0) =
            .error .outOfFuel := by
        refine @forLoop_endless Panic (Controller × UInt16) .outOfFuel _ _ _
          wide (fun state => state.1.AllInRange ∧ 65536 ≤ state.1.sqsize) ?_
          ⟨inRange, wide⟩ loopFuel first
        intro sqid inside state ⟨inRange, wide⟩
        have short : sqid < state.1.ppSQueue.length := by
          unfold sqsize at wide
          omega
        have looked : state.1.squeueAt sqid =
            .ok state.1.ppSQueue[sqid] := by
          unfold squeueAt
          rw [List.getElem?_eq_getElem short]
        unfold visitQueue
        rw [looked]
        cases here : state.1.ppSQueue[sqid] with
        | none => exact ⟨state, rfl, inRange, wide⟩
        | some queue =>
            have found : state.1.ppSQueue[sqid]? = some (some queue) := by
              rw [List.getElem?_eq_getElem short, here]
            have checked :=
              @checkQueue_eq state.1 sqid queue (inRange sqid queue found)
            cases selected : select queue with
            | false => exact ⟨state, by simp [selected], inRange, wide⟩
            | true =>
                by_cases empty : queue.head = queue.tail
                · rw [if_pos empty] at checked
                  exact ⟨state, by simp [selected, checked], inRange, wide⟩
                · rw [if_neg empty] at checked
                  refine ⟨(state.1.read sqid queue, state.2 + 1),
                    by simp [selected, checked, countUpdated],
                    inRange.read found, ?_⟩
                  simpa [sqsize, Controller.read, setSQueue] using wide
      rw [roundRobin, endless]

end RoundRobin

section Weighted

variable {controller collected : Controller} {fuel : Nat}

theorem adminCommands_ok (inRange : controller.AllInRange)
    (result : adminCommands fuel controller = .ok collected) :
    ∃ amount, Reads (fun sqid _ => sqid = 0) controller amount collected ∧
      collected.Drained (fun _ => true) (· = 0) := by
  induction fuel generalizing controller with
  | zero => cases result
  | succ fuel induction =>
      rw [adminCommands] at result
      unfold squeueAt at result
      cases here : controller.ppSQueue[0]? with
      | none =>
          rw [here] at result
          cases result
      | some entry =>
          rw [here] at result
          cases entry with
          | none => cases result
          | some queue =>
              dsimp only at result
              rw [checkQueue_eq (inRange 0 queue here)] at result
              by_cases empty : queue.head = queue.tail
              · rw [if_pos empty] at result
                cases result
                refine ⟨0, .none, ?_⟩
                intro sqid place other found _
                subst place
                rw [here] at found
                cases found
                exact empty
              · rw [if_neg empty] at result
                obtain ⟨amount, reads, drained⟩ :=
                  induction (inRange.read here) result
                exact ⟨1 + amount,
                  (Reads.read .none here empty rfl).trans reads, drained⟩

theorem adminCommands_total (inRange : controller.AllInRange)
    (admin : ∃ queue, controller.ppSQueue[0]? = some (some queue))
    (enough : controller.pending < fuel) :
    ∃ collected, adminCommands fuel controller = .ok collected := by
  induction fuel generalizing controller with
  | zero => omega
  | succ fuel induction =>
      obtain ⟨queue, here⟩ := admin
      have looked : controller.squeueAt 0 = .ok (some queue) := by
        unfold squeueAt
        rw [here]
      rw [adminCommands, looked]
      dsimp only
      rw [checkQueue_eq (inRange 0 queue here)]
      by_cases empty : queue.head = queue.tail
      · rw [if_pos empty]
        exact ⟨controller, rfl⟩
      · rw [if_neg empty]
        have less := pending_read inRange here empty
        refine induction (inRange.read here) ⟨queue.advanced, ?_⟩ (by omega)
        rw [read_ppSQueue controller 0 queue here, if_pos rfl]

theorem countWeighted_total (weight : UInt16) (counters : UInt16 × UInt32)
    (room : counters.2.toNat + 1 < 4294967296) :
    (countWeighted weight counters).1.2.toNat = counters.2.toNat + 1 := by
  have stepped : (counters.2 + 1).toNat = counters.2.toNat + 1 := by
    rw [UInt32.toNat_add]
    exact Nat.mod_eq_of_lt (by simpa using room)
  unfold countWeighted
  split <;> exact stepped

theorem countLow_total (counters : UInt16 × UInt32)
    (room : counters.2.toNat + 1 < 4294967296) :
    (countLow counters).1.2.toNat = counters.2.toNat + 1 := by
  unfold countLow
  dsimp only
  rw [UInt32.toNat_add]
  exact Nat.mod_eq_of_lt (by simpa using room)

def WeightedQueue (sqid : Nat) (priority : Priority) : Prop :=
  1 ≤ sqid ∧ (priority = .high ∨ priority = .medium)

theorem weightedLoop_spec {priority : Priority}
    {account : UInt16 × UInt32 → (UInt16 × UInt32) × Bool}
    (counts : ∀ counters : UInt16 × UInt32,
      counters.2.toNat + 1 < 4294967296 →
      (account counters).1.2.toNat = counters.2.toNat + 1)
    (weighted : priority = .high ∨ priority = .medium)
    {counters : UInt16 × UInt32} (fits : controller.sqsize < 65536)
    (inRange : controller.AllInRange)
    (room : counters.2.toNat + controller.sqsize < 4294967296) :
    ∃ amount collected after,
      weightedLoop priority account (controller, counters) =
        .ok (collected, after) ∧
      Reads WeightedQueue controller amount collected ∧
      after.2.toNat = counters.2.toNat + amount ∧
      amount ≤ controller.sqsize ∧
      (amount = 0 → controller.Drained
        (fun queue => queue.priority = priority) (1 ≤ ·)) := by
  obtain ⟨amount, collected, after, looped, reads, counted, few, drained⟩ :=
    @loop_visit (UInt16 × UInt32) (fun queue => queue.priority = priority)
      account WeightedQueue (fun counters => counters.2.toNat) 4294967296
      counts controller counters 1 (by
        intro sqid later queue selected
        rw [of_decide_eq_true selected]
        exact ⟨later, weighted⟩) fits inRange room
  exact ⟨amount, collected, after, looped, reads, counted, few, drained⟩

theorem weightedRound_spec {updated : UInt16}
    (fits : controller.sqsize < 65536) (inRange : controller.AllInRange) :
    ∃ amount collected after total,
      weightedRound controller updated = .ok (collected, after, total) ∧
      Reads WeightedQueue controller amount collected ∧
      (total = 0 ↔ amount = 0) ∧
      (amount = 0 → controller.Drained
          (fun queue => queue.priority = .high) (1 ≤ ·) ∧
        controller.Drained (fun queue => queue.priority = .medium)
          (1 ≤ ·)) := by
  obtain ⟨high, highest, afterHigh, highLoop, highReads, highCount, highFew,
    highDrained⟩ := @weightedLoop_spec controller .high _
      (countWeighted_total controller.wrrHigh) (.inl rfl) (updated, 0) fits
      inRange (by simpa using (by omega))
  have highSize := highReads.sqsize_eq
  have highRange := highReads.inRange inRange
  have highZero : afterHigh.2.toNat = high := by simpa using highCount
  obtain ⟨medium, middle, afterMedium, mediumLoop, mediumReads, mediumCount,
    mediumFew, mediumDrained⟩ := @weightedLoop_spec highest .medium _
      (countWeighted_total controller.wrrMedium) (.inr rfl) afterHigh
      (by omega) highRange (by omega)
  have mediumSize := mediumReads.sqsize_eq
  obtain ⟨low, last, afterLow, lowLoop, lowReads, lowCount, _, _⟩ :=
    @weightedLoop_spec middle .medium countLow countLow_total (.inr rfl)
      afterMedium (by omega) (mediumReads.inRange highRange) (by omega)
  refine ⟨high + medium + low, last, afterLow.1, afterLow.2, ?_,
    (highReads.trans mediumReads).trans lowReads, ?_, ?_⟩
  · unfold weightedRound
    simp only [bind, Except.bind, highLoop, mediumLoop, lowLoop]
  · rw [← UInt32.toNat_inj]
    change afterLow.2.toNat = 0 ↔ _
    omega
  · intro none
    obtain rfl : high = 0 := by omega
    obtain rfl : medium = 0 := by omega
    have highEmpty := highDrained rfl
    have mediumEmpty := mediumDrained rfl
    cases highReads
    exact ⟨highEmpty, mediumEmpty⟩

theorem weightedRoundRobin_ok {updated : UInt16}
    (fits : controller.sqsize < 65536) (inRange : controller.AllInRange)
    (result : weightedRoundRobin fuel controller updated = .ok collected) :
    ∃ amount, Reads WeightedQueue controller amount collected ∧
      collected.Drained (fun queue => queue.priority = .high) (1 ≤ ·) ∧
      collected.Drained (fun queue => queue.priority = .medium) (1 ≤ ·) := by
  induction fuel generalizing controller updated with
  | zero => cases result
  | succ fuel induction =>
      obtain ⟨amount, round, after, total, looped, reads, zero, drained⟩ :=
        @weightedRound_spec controller updated fits inRange
      rw [weightedRoundRobin, looped] at result
      dsimp only at result
      split at result
      · next none =>
          cases result
          have nothing := zero.mp none
          subst nothing
          have still := drained rfl
          cases reads
          exact ⟨0, .none, still⟩
      · obtain ⟨more, later, empty⟩ := induction
          (by rw [reads.sqsize_eq]; exact fits) (reads.inRange inRange) result
        exact ⟨amount + more, reads.trans later, empty⟩

theorem weightedRoundRobin_total {updated : UInt16}
    (fits : controller.sqsize < 65536) (inRange : controller.AllInRange)
    (enough : controller.pending < fuel) :
    ∃ collected,
      weightedRoundRobin fuel controller updated = .ok collected := by
  induction fuel generalizing controller updated with
  | zero => omega
  | succ fuel induction =>
      obtain ⟨amount, round, after, total, looped, reads, zero, _⟩ :=
        @weightedRound_spec controller updated fits inRange
      rw [weightedRoundRobin, looped]
      dsimp only
      split
      · exact ⟨round, rfl⟩
      · next some =>
          have left := reads.pending_eq inRange
          have positive : amount ≠ 0 := fun none => some (zero.mpr none)
          exact induction (by rw [reads.sqsize_eq]; exact fits)
            (reads.inRange inRange) (by omega)

end Weighted

/-- Every command that waits is read once, in the order of its ring, and every
queue is empty afterwards. -/
def Complete (start final : Controller) : Prop :=
  ∃ fetched, final.issued = start.issued ++ fetched ∧
    ∀ sqid : Nat, match start.ppSQueue[sqid]? with
      | some (some queue) =>
          final.ppSQueue[sqid]? = some (some { queue with head := queue.tail }) ∧
          slotsOf fetched sqid = Ring.slots queue.size.toNat
            queue.head.toNat queue.getItemCount.toNat
      | _ => slotsOf fetched sqid = []

theorem Reads.complete {allowed : Nat → Priority → Prop}
    {start final : Controller} {amount : Nat}
    (reads : Reads allowed start amount final) (inRange : start.AllInRange)
    (empty : final.Drained (fun _ => true) fun _ => True) :
    Complete start final := by
  obtain ⟨fetched, issued, each⟩ := reads.progress inRange
  refine ⟨fetched, issued, ?_⟩
  intro sqid
  obtain ⟨queued, vacant⟩ := each sqid
  split
  · next queue here =>
      obtain ⟨now, done, found, partly⟩ := queued queue here
      have nowRange := reads.inRange inRange sqid now found
      have same := empty sqid trivial now found rfl
      have all := partly.backlog_eq
      rw [(SQueue.backlog_eq_zero nowRange).mpr same, Nat.zero_add] at all
      have count : queue.getItemCount.toNat = queue.backlog :=
        (inRange sqid queue here).getItemCount_toNat
      refine ⟨?_, ?_⟩
      · rw [found, partly.same, same, partly.same]
      · rw [partly.slots_eq, all, count]
  · next other =>
      exact (vacant fun queue here => other queue here).1

def Arbitrated (sqid : Nat) (priority : Priority) : Prop :=
  sqid = 0 ∨ priority ≠ .low

theorem weightedArbitration_ok {start final : Controller} {fuel : Nat}
    (fits : start.sqsize < 65536) (inRange : start.AllInRange)
    (result : weightedArbitration fuel start = .ok final) :
    ∃ amount, Reads Arbitrated start amount final ∧
      ∀ (sqid : Nat) (queue : SQueue),
        final.ppSQueue[sqid]? = some (some queue) →
          Arbitrated sqid queue.priority → queue.head = queue.tail := by
  unfold weightedArbitration at result
  cases adminResult : adminCommands fuel start with
  | error raised =>
      rw [adminResult] at result
      cases result
  | ok afterAdmin =>
  cases urgentResult : roundRobin 1
      (fun queue => queue.priority = .urgent) fuel afterAdmin with
  | error raised =>
      simp only [bind, Except.bind, adminResult, urgentResult] at result
      cases result
  | ok afterUrgent =>
  simp only [bind, Except.bind, adminResult, urgentResult] at result
  obtain ⟨admins, adminReads, adminEmpty⟩ :=
    adminCommands_ok inRange adminResult
  have adminRange := adminReads.inRange inRange
  have adminSize := adminReads.sqsize_eq
  obtain ⟨urgents, urgentReads, urgentEmpty⟩ :=
    @roundRobin_ok _ (fun _ priority => priority = .urgent) _ _ _ _
      (fun _ _ _ selected => of_decide_eq_true selected) (by omega) adminRange
      urgentResult
  have urgentRange := urgentReads.inRange adminRange
  have urgentSize := urgentReads.sqsize_eq
  obtain ⟨rest, weightedReads, highEmpty, mediumEmpty⟩ :=
    weightedRoundRobin_ok (by omega) urgentRange result
  have adminStays := weightedReads.drained urgentRange (fun _ _ => rfl)
    (urgentReads.drained adminRange (fun _ _ => rfl) adminEmpty)
  have urgentStays :=
    weightedReads.drained urgentRange (fun _ _ => rfl) urgentEmpty
  refine ⟨admins + urgents + rest, ?_, ?_⟩
  · refine ((adminReads.mono ?_).trans (urgentReads.mono ?_)).trans
      (weightedReads.mono ?_)
    · intro sqid priority admin
      exact .inl admin
    · intro sqid priority urgent
      exact .inr (by simp [urgent])
    · intro sqid priority weighted
      rcases weighted.2 with high | medium
      · exact .inr (by simp [high])
      · exact .inr (by simp [medium])
  · intro sqid queue found arbitrated
    by_cases admin : sqid = 0
    · exact adminStays sqid admin queue found rfl
    have later : 1 ≤ sqid := Nat.one_le_iff_ne_zero.mpr admin
    cases priority : queue.priority with
    | urgent =>
        exact urgentStays sqid later queue found (decide_eq_true priority)
    | high => exact highEmpty sqid later queue found (decide_eq_true priority)
    | medium =>
        exact mediumEmpty sqid later queue found (decide_eq_true priority)
    | low =>
        rcases arbitrated with zero | other
        · exact absurd zero admin
        · exact absurd priority other

theorem weightedArbitration_total {start : Controller}
    (fits : start.sqsize < 65536) (inRange : start.AllInRange)
    (admin : ∃ queue, start.ppSQueue[0]? = some (some queue)) :
    ∃ final, weightedArbitration (start.pending + 1) start = .ok final := by
  obtain ⟨afterAdmin, adminResult⟩ :=
    @adminCommands_total start (start.pending + 1) inRange admin
      (Nat.lt_succ_self _)
  obtain ⟨admins, adminReads, _⟩ := adminCommands_ok inRange adminResult
  have adminSize := adminReads.sqsize_eq
  have adminRange := adminReads.inRange inRange
  have adminLeft := adminReads.pending_eq inRange
  obtain ⟨afterUrgent, urgentResult⟩ :=
    @roundRobin_total (fun queue => queue.priority = .urgent) 1 afterAdmin
      (start.pending + 1) (by omega) adminRange (by omega)
  obtain ⟨urgents, urgentReads, _⟩ :=
    @roundRobin_ok _ (fun _ _ => True) _ _ _ _ (fun _ _ _ _ => trivial)
      (by omega) adminRange urgentResult
  have urgentSize := urgentReads.sqsize_eq
  have urgentLeft := urgentReads.pending_eq adminRange
  obtain ⟨final, lastResult⟩ :=
    @weightedRoundRobin_total afterUrgent (start.pending + 1) 0 (by omega)
      (urgentReads.inRange adminRange) (by omega)
  refine ⟨final, ?_⟩
  unfold weightedArbitration
  simp only [bind, Except.bind, adminResult, urgentResult, lastResult]

theorem weightedArbitration_endless {start : Controller} {fuel : Nat}
    (inRange : start.AllInRange) (wide : 65536 ≤ start.sqsize)
    (final : Controller) : weightedArbitration fuel start ≠ .ok final := by
  intro result
  unfold weightedArbitration at result
  cases first : adminCommands fuel start with
  | error raised =>
      simp only [first, bind, Except.bind] at result
      cases result
  | ok afterAdmin =>
      obtain ⟨amount, reads, _⟩ := adminCommands_ok inRange first
      have size := reads.sqsize_eq
      have endless := @roundRobin_endless
        (fun queue => queue.priority = .urgent) 1 afterAdmin fuel
        (reads.inRange inRange) (by omega)
      simp only [first, bind, Except.bind, endless] at result
      cases result

def LowEmpty (controller : Controller) : Prop :=
  ∀ sqid, 1 ≤ sqid → ∀ queue : SQueue,
    controller.ppSQueue[sqid]? = some (some queue) →
      queue.priority = .low → queue.head = queue.tail

theorem weightedArbitration_complete {start final : Controller} {fuel : Nat}
    (fits : start.sqsize < 65536) (inRange : start.AllInRange)
    (result : weightedArbitration fuel start = .ok final) :
    Complete start final ↔ start.LowEmpty := by
  obtain ⟨amount, reads, empty⟩ := weightedArbitration_ok fits inRange result
  constructor
  · intro ⟨fetched, _, each⟩ sqid later queue here low
    have kept := reads.untouched here (.inl (by
      intro arbitrated
      rcases arbitrated with zero | other
      · omega
      · exact other low))
    have emptied := each sqid
    rw [here] at emptied
    have equal := kept.symm.trans emptied.1
    simp only [Option.some.injEq] at equal
    exact congrArg (fun queue => queue.head) equal
  · intro lowEmpty
    refine reads.complete inRange ?_
    intro sqid _ queue found _
    by_cases arbitrated : Arbitrated sqid queue.priority
    · exact empty sqid queue found arbitrated
    · obtain ⟨later, low⟩ := not_or.mp arbitrated
      obtain ⟨fetched, _, each⟩ := reads.progress inRange
      obtain ⟨queued, vacant⟩ := each sqid
      by_cases began : ∃ first, start.ppSQueue[sqid]? = some (some first)
      · obtain ⟨first, here⟩ := began
        obtain ⟨now, done, there, partly⟩ := queued first here
        rw [there] at found
        cases found
        have priority : first.priority = .low := by
          rw [partly.same] at low
          exact not_not.mp low
        have still := lowEmpty sqid (Nat.one_le_iff_ne_zero.mpr later) first
          here priority
        have kept := reads.untouched here (.inr still)
        rw [there] at kept
        cases kept
        exact still
      · have nothing := (vacant fun first here => began ⟨first, here⟩).2
        rw [found] at nothing
        exact absurd ⟨queue, nothing.symm⟩ began

end Controller

open Controller in
/-- A collection is complete exactly when the counter of its loops can pass all
queues and, with weights, no command waits in a queue of low priority. -/
theorem arbitration_complete_iff (controller : Controller)
    (ready : controller.ready = true)
    (mode : controller.arbitration ≠ .invalid)
    (admin : ∃ queue, controller.ppSQueue[0]? = some (some queue))
    (inRange : controller.AllInRange) :
    (∃ fuel final, controller.collectSQueue fuel = .ok final ∧
      Complete controller final) ↔
    controller.sqsize < 65536 ∧
      (controller.arbitration = .weightedRoundRobin →
        controller.LowEmpty) := by
  unfold collectSQueue
  simp only [ready, if_true]
  cases arbitration : controller.arbitration with
  | invalid => exact absurd arbitration mode
  | roundRobin =>
      constructor
      · intro ⟨fuel, final, collected, _⟩
        refine ⟨?_, fun weighted => by cases weighted⟩
        by_contra wide
        dsimp only at collected
        rw [roundRobin_endless inRange (Nat.not_lt.mp wide)] at collected
        cases collected
      · intro ⟨fits, _⟩
        obtain ⟨final, result⟩ :=
          @roundRobin_total (fun _ => true) 0 controller
            (controller.pending + 1) fits inRange (Nat.lt_succ_self _)
        obtain ⟨amount, reads, empty⟩ :=
          @roundRobin_ok _ (fun _ _ => True) _ _ _ _
            (fun _ _ _ _ => trivial) fits inRange result
        refine ⟨controller.pending + 1, final, result,
          reads.complete inRange ?_⟩
        intro sqid _ queue found selected
        exact empty sqid (Nat.zero_le _) queue found selected
  | weightedRoundRobin =>
      constructor
      · intro ⟨fuel, final, collected, complete⟩
        have fits : controller.sqsize < 65536 := by
          by_contra wide
          exact weightedArbitration_endless inRange (Nat.not_lt.mp wide) final
            collected
        exact ⟨fits, fun _ =>
          (weightedArbitration_complete fits inRange collected).mp complete⟩
      · intro ⟨fits, lowEmpty⟩
        obtain ⟨final, result⟩ :=
          weightedArbitration_total fits inRange admin
        exact ⟨_, final, result,
          (weightedArbitration_complete fits inRange result).mpr
            (lowEmpty rfl)⟩

/-- Weighted arbitration over an empty admin queue and one I/O queue that holds
one command. -/
def waitingController (priority : Priority) : Controller where
  ready := true
  arbitration := .weightedRoundRobin
  wrrHigh := 2
  wrrMedium := 2
  ppCQueue := [some (CQueue.make 0 true 0 2)]
  ppSQueue := [some (SQueue.make 0 .urgent 0 2),
    some ((SQueue.make 0 priority 1 2).setTail 1)]
  lSQFIFO := []
  lCQFIFO := []
  aggregationMap := ∅
  issued := []

theorem waitingController_inRange (priority : Priority) :
    (waitingController priority).AllInRange := by
  intro sqid queue found
  have listed := List.mem_of_getElem? found
  simp only [waitingController, List.mem_cons, Option.some.injEq,
    List.not_mem_nil, or_false] at listed
  rcases listed with rfl | rfl
  · exact ⟨by decide, by decide⟩
  · exact ⟨(by decide : (0 : UInt16) < 2), (by decide : (1 : UInt16) < 2)⟩

theorem arbitration_complete_medium :
    ∃ fuel final, (waitingController .medium).collectSQueue fuel =
      .ok final ∧ Controller.Complete (waitingController .medium) final := by
  refine (arbitration_complete_iff _ rfl (by decide) ⟨_, rfl⟩
    (waitingController_inRange .medium)).mpr ⟨by decide, fun _ => ?_⟩
  intro sqid later queue found low
  have listed := List.mem_of_getElem? found
  simp only [waitingController, List.mem_cons, Option.some.injEq,
    List.not_mem_nil, or_false] at listed
  rcases listed with rfl | rfl <;> cases low

/-- A command of low priority is never fetched. -/
theorem low_priority_starves :
    ¬ ∃ fuel final, (waitingController .low).collectSQueue fuel =
      .ok final ∧ Controller.Complete (waitingController .low) final := by
  intro ⟨fuel, final, collected, complete⟩
  have lowEmpty := (Controller.weightedArbitration_complete (by decide)
    (waitingController_inRange .low) collected).mp complete
  have same := lowEmpty 1 (by decide) _ rfl rfl
  revert same
  decide

end SimpleSSD.HIL.NVMe
