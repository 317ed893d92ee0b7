import SimpleSSD.Data.Result
import SimpleSSD.HIL.NVMe.Integrity

namespace SimpleSSD.HIL.NVMe

open Data (Returns Along)

/-! Commands on their way through the controller: they are read from a
submission queue, wait in `lSQFIFO`, are executed by the subsystem and the HIL
for any time, and leave a completion in `lCQFIFO`. -/

inductive FlightFault where
  | panic (raised : Panic)
  /-- `doRead` uses a queue that was deleted during the read. -/
  | useAfterFree
  /-- `completion` uses a completion queue that does not exist. -/
  | nullCompletionQueue
  deriving DecidableEq, Repr

/-- A read of a submission queue that is under way, with the members of the
queue that `doRead` will use. -/
structure QueueContext where
  sqID : Nat
  cqID : Nat
  commandID : UInt16
  /-- Whether the queue was deleted. -/
  freed : Bool
  deriving DecidableEq, Repr

structure Flight where
  controller : Controller
  reads : List QueueContext
  /-- Commands that `handleRequest` has passed on and that are not answered. -/
  executing : List SQEntryWrapper

namespace Flight

inductive Step where
  | ringSQTailDoorbell (qid : Nat) (tail : UInt16)
  | ringCQHeadDoorbell (qid : Nat) (head : UInt16)
  /-- A call of `checkQueue` by `collectSQueue`, and the id of the command it
  will find. -/
  | checkQueue (sqid : Nat) (commandID : UInt16)
  | doRead (index : Nat)
  | handleRequest
  /-- An admin command is executed. -/
  | admin (index : Nat) (call : QueueCall)
  | abort (index : Nat) (sqid : Nat) (cid : UInt16)
  /-- The subsystem answers a command. -/
  | submit (index : Nat) (status : UInt16)
  /-- The completion event. -/
  | completion

def call (result : Except Panic α) : Except FlightFault α :=
  match result with
  | .ok value => .ok value
  | .error raised => .error (.panic raised)

def withController (flight : Flight) (controller : Controller) : Flight :=
  { flight with controller := controller }

def ringSQTailDoorbell (flight : Flight) (qid : Nat) (tail : UInt16) :
    Except FlightFault Flight := do
  match ← call (flight.controller.squeueAt qid) with
  | some queue =>
      let rung := some (queue.setTail tail)
      return flight.withController (flight.controller.setSQueue qid rung)
  | none => return flight

def ringCQHeadDoorbell (flight : Flight) (qid : Nat) (head : UInt16) :
    Except FlightFault Flight := do
  match ← call (flight.controller.cqueueAt qid) with
  | some queue =>
      let rung := some (queue.setHead head)
      return flight.withController (flight.controller.setCQueue qid rung)
  | none => return flight

/-- `checkQueue` where there is a queue; a read is issued if the queue has an
entry. -/
def checkQueue (flight : Flight) (sqid : Nat) (commandID : UInt16) :
    Except FlightFault Flight := do
  match ← call (flight.controller.squeueAt sqid) with
  | none => return flight
  | some queue =>
      match flight.controller.checkQueue sqid queue with
      | none => return flight
      | some updated => return { flight with
          controller := updated
          reads := flight.reads ++ queue.getData.1.toList.map fun _ =>
            { sqID := queue.id, cqID := queue.cqID, commandID := commandID
              freed := false } }

def doRead (flight : Flight) (index : Nat) : Except FlightFault Flight :=
  match flight.reads[index]? with
  | none => .ok flight
  | some read =>
      if read.freed then .error .useAfterFree
      else
        let controller := { flight.controller with
          lSQFIFO := flight.controller.lSQFIFO ++
            [{ sqID := read.sqID, cqID := read.cqID
               commandID := read.commandID }] }
        .ok { flight with
          controller := controller
          reads := flight.reads.eraseIdx index }

def handleRequest (flight : Flight) : Flight :=
  match flight.controller.lSQFIFO with
  | [] => flight
  | front :: rest =>
      let controller := { flight.controller with lSQFIFO := rest }
      { flight with
        controller := controller
        executing := flight.executing ++ [front] }

/-- The queue that was deleted is gone for the reads that are under way. -/
def freeReads (reads : List QueueContext) : QueueCall → Nat →
    List QueueContext
  | .deleteSQueue sqid, 0 => reads.map fun read =>
      { read with freed := read.freed || read.sqID = sqid }
  | _, _ => reads

/-- An admin command that creates or deletes a queue.  Its answer is a step of
its own. -/
def admin (flight : Flight) (index : Nat) (queueCall : QueueCall) :
    Except FlightFault Flight := do
  match flight.executing[index]? with
  | none => return flight
  | some command =>
      if command.sqID ≠ 0 then return flight
      let (ret, controller) ← call (queueCall.perform flight.controller)
      return { flight with
        controller := controller
        reads := freeReads flight.reads queueCall ret }

def abort (flight : Flight) (index sqid : Nat) (cid : UInt16) :
    Except FlightFault Flight := do
  match flight.executing[index]? with
  | none => return flight
  | some command =>
      if command.sqID ≠ 0 then return flight
      let (_, controller) ← call (flight.controller.abort sqid cid)
      return flight.withController controller

def submit (flight : Flight) (index : Nat) (status : UInt16) :
    Except FlightFault Flight := do
  match flight.executing[index]? with
  | none => return flight
  | some command =>
      let controller ← call (flight.controller.submit
        { cqID := command.cqID
          entry := { commandID := command.commandID, status := status } })
      return { flight with
        controller := controller
        executing := flight.executing.eraseIdx index }

/-- The body of the second loop of `completion`, less the interrupts. -/
def post (controller : Controller) (wrapper : CQEntryWrapper) :
    Except FlightFault Controller := do
  match ← call (controller.cqueueAt wrapper.cqID) with
  | none => throw .nullCompletionQueue
  | some queue =>
      let (_, moved) ← call (queue.setData wrapper.entry)
      return controller.setCQueue wrapper.cqID (some moved)

def completion (flight : Flight) : Except FlightFault Flight := do
  let controller ← flight.controller.lCQFIFO.foldlM post
    { flight.controller with lCQFIFO := [] }
  return flight.withController controller

def perform (flight : Flight) : Step → Except FlightFault Flight
  | .ringSQTailDoorbell qid tail => flight.ringSQTailDoorbell qid tail
  | .ringCQHeadDoorbell qid head => flight.ringCQHeadDoorbell qid head
  | .checkQueue sqid commandID => flight.checkQueue sqid commandID
  | .doRead index => flight.doRead index
  | .handleRequest => .ok flight.handleRequest
  | .admin index queueCall => flight.admin index queueCall
  | .abort index sqid cid => flight.abort index sqid cid
  | .submit index status => flight.submit index status
  | .completion => flight.completion

def enabled (maxIOCQueue maxIOSQueue entries : UInt16) : Flight where
  controller := Controller.enabled maxIOCQueue maxIOSQueue entries
  reads := []
  executing := []

end Flight

/-! The completion queues that are named. -/

def Controller.queueTargets (controller : Controller) : List Nat :=
  controller.ppSQueue.filterMap fun entry => entry.map SQueue.cqID

def Controller.fifoTargets (controller : Controller) : List Nat :=
  controller.lSQFIFO.map SQEntryWrapper.cqID ++
    controller.lCQFIFO.map CQEntryWrapper.cqID

namespace Flight

def commandTargets (flight : Flight) : List Nat :=
  flight.reads.map QueueContext.cqID ++
    flight.executing.map SQEntryWrapper.cqID ++ flight.controller.fifoTargets

def deletes (flight : Flight) : Step → Option Nat
  | .admin index (.deleteCQueue cqid) =>
      match flight.executing[index]? with
      | some command => if command.sqID = 0 then some cqid else none
      | none => none
  | _ => none

/-- A completion queue is deleted after the submission queues that name it. -/
def InOrder (flight : Flight) (step : Step) : Prop :=
  ∀ cqid ∈ flight.deletes step, cqid ∉ flight.controller.queueTargets

/-- A completion queue is deleted when no command names it any more. -/
def Drained (flight : Flight) (step : Step) : Prop :=
  ∀ cqid ∈ flight.deletes step, cqid ∉ flight.commandTargets

instance (flight : Flight) (step : Step) : Decidable (flight.InOrder step) :=
  Option.decidableForallMem (flight.deletes step)

instance (flight : Flight) (step : Step) : Decidable (flight.Drained step) :=
  Option.decidableForallMem (flight.deletes step)

end Flight

namespace Controller

def HasCQueue (controller : Controller) (cqid : Nat) : Prop :=
  ∃ queue, controller.ppCQueue[cqid]? = some (some queue)

def Backed (controller : Controller) : Prop :=
  ∀ cqid ∈ controller.queueTargets ++ controller.fifoTargets,
    controller.HasCQueue cqid

/-- The queues stay, but for one that is deleted, and the controller is
backed. -/
structure Serves (before : Controller) (gone : Option Nat)
    (after : Controller) : Prop where
  kept : ∀ cqid, cqid ∉ gone → before.HasCQueue cqid → after.HasCQueue cqid
  backed : after.Backed

section

variable {controller after : Controller}

theorem HasCQueue.cqueueAt {cqid : Nat} (h : controller.HasCQueue cqid) :
    ∃ queue, controller.cqueueAt cqid = .ok (some queue) := by
  obtain ⟨queue, hqueue⟩ := h
  exact ⟨queue, cqueueAt_ok.mpr hqueue⟩

theorem Backed.queue (h : controller.Backed) {sqid : Nat} {queue : SQueue}
    (hqueue : controller.ppSQueue[sqid]? = some (some queue)) :
    controller.HasCQueue queue.cqID := by
  apply h
  apply List.mem_append_left
  exact List.mem_filterMap.mpr
    ⟨some queue, List.mem_of_getElem? hqueue, rfl⟩

theorem Backed.waiting (h : controller.Backed) {command : SQEntryWrapper}
    (hcommand : command ∈ controller.lSQFIFO) :
    controller.HasCQueue command.cqID := by
  apply h
  apply List.mem_append_right
  exact List.mem_append_left _ (List.mem_map_of_mem hcommand)

theorem Backed.finished (h : controller.Backed) {wrapper : CQEntryWrapper}
    (hwrapper : wrapper ∈ controller.lCQFIFO) :
    controller.HasCQueue wrapper.cqID := by
  apply h
  apply List.mem_append_right
  exact List.mem_append_right _ (List.mem_map_of_mem hwrapper)

theorem Backed.of (hqueues : ∀ (sqid : Nat) (queue : SQueue),
      controller.ppSQueue[sqid]? = some (some queue) →
        controller.HasCQueue queue.cqID)
    (hwaiting : ∀ command ∈ controller.lSQFIFO,
      controller.HasCQueue command.cqID)
    (hfinished : ∀ wrapper ∈ controller.lCQFIFO,
      controller.HasCQueue wrapper.cqID) : controller.Backed := by
  intro cqid hcqid
  rcases List.mem_append.mp hcqid with hqueue | hfifo
  · obtain ⟨entry, hentry, hsome⟩ := List.mem_filterMap.mp hqueue
    obtain ⟨queue, rfl, rfl⟩ := Option.map_eq_some_iff.mp hsome
    obtain ⟨sqid, hsqid⟩ := List.mem_iff_getElem?.mp hentry
    exact hqueues sqid queue hsqid
  · rcases List.mem_append.mp hfifo with hlisted | hlisted
    · obtain ⟨command, hcommand, rfl⟩ := List.mem_map.mp hlisted
      exact hwaiting command hcommand
    · obtain ⟨wrapper, hwrapper, rfl⟩ := List.mem_map.mp hlisted
      exact hfinished wrapper hwrapper

theorem Backed.setSQueue (h : controller.Backed) {sqid : Nat}
    {entry : Option SQueue}
    (hentry : ∀ queue ∈ entry, controller.HasCQueue queue.cqID) :
    Serves controller none (controller.setSQueue sqid entry) := by
  refine ⟨fun _ _ hqueue => hqueue, Backed.of ?_ ?_ ?_⟩
  · intro other queue hother
    change (controller.ppSQueue.set sqid entry)[other]? = _ at hother
    rcases List.mem_or_eq_of_mem_set (List.mem_of_getElem? hother) with
      hold | hnew
    · obtain ⟨place, hplace⟩ := List.mem_iff_getElem?.mp hold
      exact h.queue hplace
    · exact hentry queue hnew.symm
  · exact fun command hcommand => h.waiting hcommand
  · exact fun wrapper hwrapper => h.finished hwrapper

theorem Backed.setCQueue (h : controller.Backed) (cqid : Nat)
    (queue : CQueue) :
    Serves controller none (controller.setCQueue cqid (some queue)) := by
  have hkept : ∀ other, controller.HasCQueue other →
      (controller.setCQueue cqid (some queue)).HasCQueue other := by
    intro other hother
    obtain ⟨found, hfound⟩ := hother
    unfold HasCQueue Controller.setCQueue
    dsimp only
    rw [List.getElem?_set]
    split
    · next hsame =>
        subst hsame
        obtain ⟨hlt, -⟩ := List.getElem?_eq_some_iff.mp hfound
        rw [if_pos hlt]
        exact ⟨queue, rfl⟩
    · exact ⟨found, hfound⟩
  exact ⟨fun other _ => hkept other, fun other hother => hkept other (h other hother)⟩

theorem submit_returns (h : controller.Backed) {wrapper : CQEntryWrapper}
    (hqueue : controller.HasCQueue wrapper.cqID) :
    ∃ after, controller.submit wrapper = .ok after ∧
      after.lSQFIFO = controller.lSQFIFO ∧ Serves controller none after := by
  obtain ⟨queue, hat⟩ := hqueue.cqueueAt
  refine ⟨{ controller with lCQFIFO := controller.lCQFIFO ++ [wrapper] }, ?_,
    rfl, fun _ _ hother => hother, Backed.of ?_ ?_ ?_⟩
  · unfold Controller.submit
    rw [hat]
    rfl
  · exact fun sqid queue hlisted => h.queue hlisted
  · exact fun command hcommand => h.waiting hcommand
  · intro other hother
    rcases List.mem_append.mp hother with hold | hnew
    · exact h.finished hold
    · rw [List.mem_singleton] at hnew
      subst hnew
      exact hqueue

theorem Serves.trans {middle : Controller} (h : Serves controller none middle)
    (h' : Serves middle none after) : Serves controller none after :=
  ⟨fun cqid hgone hqueue => h'.kept cqid hgone (h.kept cqid hgone hqueue),
    h'.backed⟩

/-- The commands that are aborted have a completion queue, and those that are
passed over stay. -/
theorem abortCommands_returns (sqid : Nat) (commands : List SQEntryWrapper)
    (h : controller.Backed)
    (hcommands : ∀ command ∈ commands, controller.HasCQueue command.cqID) :
    Returns
      (fun result => (∀ command ∈ result.1, command ∈ commands) ∧
        Serves controller none result.2)
      (· ≠ .completionQueueNotCreated)
      (abortCommands sqid commands controller) := by
  have hrefl : ∀ {start : Controller}, start.Backed →
      Serves start none start := fun hstart => ⟨fun _ _ hqueue => hqueue, hstart⟩
  fun_induction abortCommands sqid commands controller with
  | case1 controller => exact ⟨fun _ hcommand => hcommand, hrefl h⟩
  | case2 command controller hmatch =>
      obtain ⟨submitted, hsubmitted, -, -⟩ := 
        @submit_returns controller h ⟨command.cqID, _⟩ (hcommands command (.head _))
      rw [hsubmitted]
      exact nofun
  | case3 command controller hother =>
      exact ⟨fun _ hcommand => hcommand, hrefl h⟩
  | case4 command following rest controller hmatch ih =>
      obtain ⟨submitted, hsubmitted, -, hserves⟩ := 
        @submit_returns controller h ⟨command.cqID, _⟩ (hcommands command (.head _))
      rw [hsubmitted]
      refine (ih submitted hserves.backed ?_).bind fun result hresult => ?_
      · intro other hother
        exact hserves.kept _ nofun (hcommands other (.tail _ (.tail _ hother)))
      · refine Returns.pure ⟨?_, hserves.trans hresult.2⟩
        intro other hother
        rcases List.mem_cons.mp hother with hsame | hkept
        · subst hsame
          exact .tail _ (.head _)
        · exact .tail _ (.tail _ (hresult.1 other hkept))
  | case5 command following rest controller hother ih =>
      refine (ih h fun other hlater => hcommands other (.tail _ hlater)).bind
        fun result hresult => ?_
      refine Returns.pure ⟨?_, hresult.2⟩
      intro other hmember
      rcases List.mem_cons.mp hmember with hsame | hkept
      · subst hsame
        exact .head _
      · exact .tail _ (hresult.1 other hkept)

theorem Serves.refl (h : controller.Backed) : Serves controller none controller :=
  ⟨fun _ _ hqueue => hqueue, h⟩

theorem cqueueAt_returns (cqid : Nat) :
    Returns (fun entry => controller.ppCQueue[cqid]? = some entry)
      (· ≠ .completionQueueNotCreated) (controller.cqueueAt cqid) := by
  unfold Controller.cqueueAt
  split
  · next entry hentry => exact hentry
  · exact nofun

theorem squeueAt_returns (sqid : Nat) :
    Returns (fun entry => controller.ppSQueue[sqid]? = some entry)
      (· ≠ .completionQueueNotCreated) (controller.squeueAt sqid) := by
  unfold Controller.squeueAt
  split
  · next entry hentry => exact hentry
  · exact nofun

theorem createCQueue_returns (h : controller.Backed) (cqid : Nat)
    (size : UInt16) (iv : Nat) (ien : Bool) :
    Returns (fun result => Serves controller none result.2)
      (· ≠ .completionQueueNotCreated)
      (controller.createCQueue cqid size iv ien) := by
  unfold Controller.createCQueue
  refine (cqueueAt_returns cqid).bind fun existing _ => ?_
  split
  · exact { h.setCQueue cqid (CQueue.make iv ien cqid size) with }
  · exact Serves.refl h

theorem createSQueue_returns (h : controller.Backed) (sqid cqid : Nat)
    (size : UInt16) (priority : Priority) :
    Returns (fun result => Serves controller none result.2)
      (· ≠ .completionQueueNotCreated)
      (controller.createSQueue sqid cqid size priority) := by
  unfold Controller.createSQueue
  refine (squeueAt_returns sqid).bind fun existing _ => ?_
  split
  · refine (cqueueAt_returns cqid).bind fun completion hcompletion => ?_
    split
    · next hsome =>
        obtain ⟨queue, rfl⟩ := Option.isSome_iff_exists.mp hsome
        refine Returns.pure (h.setSQueue ?_)
        intro created hcreated
        cases hcreated
        exact ⟨queue, hcompletion⟩
    · exact Serves.refl h
  · exact Serves.refl h

theorem deleteSQueue_returns (h : controller.Backed) (sqid : Nat) :
    Returns (fun result => Serves controller none result.2)
      (· ≠ .completionQueueNotCreated) (controller.deleteSQueue sqid) := by
  unfold Controller.deleteSQueue
  refine (squeueAt_returns sqid).bind fun existing _ => ?_
  cases existing with
  | none => exact Serves.refl h
  | some queue =>
      dsimp only
      split
      · exact Serves.refl h
      · refine (abortCommands_returns sqid controller.lSQFIFO h
          fun command hcommand => h.waiting hcommand).bind
            fun result hresult => ?_
        obtain ⟨hkept, hserves⟩ := hresult
        have hwaiting : Backed { result.2 with lSQFIFO := result.1 } :=
          Backed.of (fun sqid queue hqueue => hserves.backed.queue hqueue)
            (fun command hcommand => hserves.kept _ nofun
              (h.waiting (hkept command hcommand)))
            fun wrapper hwrapper => hserves.backed.finished hwrapper
        have hset := @Backed.setSQueue _ hwaiting sqid none nofun
        exact ⟨fun cqid hgone hqueue =>
          hset.kept cqid hgone (hserves.kept cqid hgone hqueue), hset.backed⟩

theorem Backed.removeCQueue (h : controller.Backed) {cqid : Nat}
    (hunnamed : cqid ∉ controller.queueTargets ++ controller.fifoTargets) :
    Serves controller (some cqid) (controller.setCQueue cqid none) := by
  have hkept : ∀ other, other ≠ cqid → controller.HasCQueue other →
      (controller.setCQueue cqid none).HasCQueue other := by
    intro other hother hqueue
    obtain ⟨found, hfound⟩ := hqueue
    refine ⟨found, ?_⟩
    change (controller.ppCQueue.set cqid none)[other]? = _
    rw [List.getElem?_set_ne (Ne.symm hother)]
    exact hfound
  refine ⟨fun other hgone => hkept other fun hsame => hgone ?_, ?_⟩
  · rw [hsame]
    rfl
  · intro other hother
    refine hkept other ?_ (h other hother)
    intro hsame
    rw [hsame] at hother
    exact hunnamed hother

/-- A loop fails only as its body does, or when it does not end. -/
theorem forLoop_returns {exhausted : Panic} {bound : Nat}
    {body : Nat → Bool → Except Panic (Bool × Bool)} {raised : Panic → Prop}
    (hbody : ∀ i state, Returns (fun _ => True) raised (body i state))
    (hexhausted : raised exhausted) (fuel : Nat) (counter : UInt16)
    (state : Bool) :
    Returns (fun _ => True) raised
      (forLoop exhausted bound body fuel counter state) := by
  induction fuel generalizing counter state with
  | zero => exact hexhausted
  | succ fuel ih =>
      unfold forLoop
      split
      · have hround := hbody counter.toNat state
        split
        · next failure hfailure => exact hround.of_error hfailure
        · trivial
        · exact ih _ _
      · trivial

theorem anyQueue_returns (bound : Nat)
    {entry : Nat → Except Panic (Option α)} (test : α → Bool)
    (hentry : ∀ i, Returns (fun _ => True) (· ≠ .completionQueueNotCreated)
      (entry i)) :
    Returns (fun _ => True) (· ≠ .completionQueueNotCreated)
      (anyQueue bound entry test) := by
  unfold anyQueue
  refine forLoop_returns (fun i found => ?_) nofun loopFuel 1 false
  have hi := hentry i
  split
  · next raised hraised => exact hi.of_error hraised
  · trivial
  · split <;> trivial

theorem deleteCQueue_returns (h : controller.Backed) {cqid : Nat}
    (hunnamed : cqid ∉ controller.queueTargets ++ controller.fifoTargets) :
    Returns (fun result => Serves controller (some cqid) result.2)
      (· ≠ .completionQueueNotCreated) (controller.deleteCQueue cqid) := by
  have hsame : Serves controller (some cqid) controller :=
    ⟨fun _ _ hqueue => hqueue, h⟩
  have hremoved := h.removeCQueue hunnamed
  unfold Controller.deleteCQueue
  refine (cqueueAt_returns cqid).bind fun existing _ => ?_
  cases existing with
  | none => exact hsame
  | some queue =>
      dsimp only
      split
      · exact hsame
      refine (anyQueue_returns _ _ fun i => (squeueAt_returns i).mono
        (fun _ _ => trivial) fun _ hother => hother).bind fun refers _ => ?_
      split
      · exact hsame
      refine (anyQueue_returns _ _ fun i => (cqueueAt_returns i).mono
        (fun _ _ => trivial) fun _ hother => hother).bind fun same _ => ?_
      split
      · exact hremoved
      split
      · exact { hremoved with }
      · exact nofun

theorem abort_returns (h : controller.Backed) (sqid : Nat) (cid : UInt16) :
    Returns (fun result => Serves controller none result.2)
      (· ≠ .completionQueueNotCreated) (controller.abort sqid cid) := by
  unfold Controller.abort
  dsimp only
  split
  · exact Serves.refl h
  · next command hfound =>
      refine (squeueAt_returns sqid).bind fun existing _ => ?_
      split
      · exact nofun
      obtain ⟨submitted, hsubmitted, hfifo, hserves⟩ := 
        @submit_returns controller h ⟨command.cqID, _⟩
          (h.waiting (List.mem_of_find?_eq_some hfound))
      rw [hsubmitted]
      refine ⟨hserves.kept, Backed.of ?_ ?_ ?_⟩
      · exact fun other queue hqueue => hserves.backed.queue hqueue
      · intro other hother
        exact hserves.backed.waiting (List.mem_of_mem_eraseP hother)
      · exact fun wrapper hwrapper => hserves.backed.finished hwrapper

end

end Controller

def FlightFault.Unrelated (fault : FlightFault) : Prop :=
  fault ≠ .panic .completionQueueNotCreated ∧ fault ≠ .nullCompletionQueue

instance (fault : FlightFault) : Decidable fault.Unrelated :=
  inferInstanceAs (Decidable (_ ∧ _))

namespace Flight

/-- Every command on its way names a completion queue that is there. -/
structure Backed (flight : Flight) : Prop where
  controller : flight.controller.Backed
  reads : ∀ read ∈ flight.reads, flight.controller.HasCQueue read.cqID
  executing : ∀ command ∈ flight.executing,
    flight.controller.HasCQueue command.cqID

section

variable {flight : Flight} {controller : Controller}

theorem Backed.serves (h : flight.Backed) {gone : Option Nat}
    (hserves : flight.controller.Serves gone controller)
    (hunnamed : ∀ cqid ∈ gone, cqid ∉ flight.commandTargets)
    {reads : List QueueContext}
    (hreads : ∀ read ∈ reads, read.cqID ∈ flight.reads.map QueueContext.cqID) :
    Backed { flight with controller := controller, reads := reads } := by
  refine ⟨hserves.backed, ?_, ?_⟩
  · intro read hread
    obtain ⟨old, hold, hsame⟩ := List.mem_map.mp (hreads read hread)
    rw [← hsame]
    refine hserves.kept old.cqID ?_ (h.reads old hold)
    intro hgone
    apply hunnamed _ hgone
    exact List.mem_append_left _
      (List.mem_append_left _ (List.mem_map_of_mem hold))
  · intro command hcommand
    refine hserves.kept _ ?_ (h.executing command hcommand)
    intro hgone
    apply hunnamed _ hgone
    exact List.mem_append_left _
      (List.mem_append_right _ (List.mem_map_of_mem hcommand))

theorem Backed.withController (h : flight.Backed)
    (hserves : flight.controller.Serves none controller) :
    (flight.withController controller).Backed :=
  h.serves hserves nofun fun _ hread => List.mem_map_of_mem hread

theorem call_returns {result : Except Panic α} {post : α → Prop}
    (h : Returns post (· ≠ .completionQueueNotCreated) result) :
    Returns post FlightFault.Unrelated (call result) := by
  cases result with
  | ok value => exact h
  | error raised => exact ⟨fun hsame => h (FlightFault.panic.inj hsame), nofun⟩

def Safe : Except FlightFault Flight → Prop :=
  Returns Backed FlightFault.Unrelated

theorem Backed.ringSQTailDoorbell (h : flight.Backed) (qid : Nat)
    (tail : UInt16) : Safe (flight.ringSQTailDoorbell qid tail) := by
  unfold Flight.ringSQTailDoorbell
  refine (call_returns (Controller.squeueAt_returns qid)).bind
    fun entry hentry => ?_
  cases entry with
  | none => exact h
  | some queue =>
      refine Returns.pure (h.withController (h.controller.setSQueue ?_))
      intro rung hrung
      cases hrung
      have hqueue := h.controller.queue hentry
      exact hqueue

theorem Backed.ringCQHeadDoorbell (h : flight.Backed) (qid : Nat)
    (head : UInt16) : Safe (flight.ringCQHeadDoorbell qid head) := by
  unfold Flight.ringCQHeadDoorbell
  refine (call_returns (Controller.cqueueAt_returns qid)).bind
    fun entry hentry => ?_
  cases entry with
  | none => exact h
  | some queue =>
      exact Returns.pure (h.withController (h.controller.setCQueue qid _))

/-- A read takes the completion queue of the queue it reads. -/
theorem Backed.checkQueue (h : flight.Backed) (sqid : Nat)
    (commandID : UInt16) : Safe (flight.checkQueue sqid commandID) := by
  unfold Flight.checkQueue
  refine (call_returns (Controller.squeueAt_returns sqid)).bind
    fun entry hentry => ?_
  cases entry with
  | none => exact h
  | some queue =>
      have hqueue := h.controller.queue hentry
      dsimp only
      cases hchecked : flight.controller.checkQueue sqid queue with
      | none => exact h
      | some updated =>
          have hserves : flight.controller.Serves none updated := by
            unfold Controller.checkQueue at hchecked
            split at hchecked
            · split at hchecked
              · next slot moved hdata =>
                  cases hchecked
                  have hmoved : moved.cqID = queue.cqID := by
                    unfold SQueue.getData at hdata
                    split at hdata
                    · cases hdata
                      rfl
                    · cases hdata
                  exact { @Controller.Backed.setSQueue _ h.controller sqid
                    (some moved) (by
                      intro read hread
                      cases hread
                      rw [hmoved]
                      exact hqueue) with }
              · cases hchecked
                exact Controller.Serves.refl h.controller
            · cases hchecked
          refine Returns.pure ⟨hserves.backed, ?_, ?_⟩
          · intro read hread
            apply hserves.kept _ nofun
            rcases List.mem_append.mp hread with hold | hnew
            · exact h.reads read hold
            · obtain ⟨slot, -, rfl⟩ := List.mem_map.mp hnew
              exact hqueue
          · exact fun command hcommand =>
              hserves.kept _ nofun (h.executing command hcommand)

theorem Backed.doRead (h : flight.Backed) (index : Nat) :
    Safe (flight.doRead index) := by
  unfold Flight.doRead
  split
  · exact h
  · next read hread =>
      split
      · exact ⟨nofun, nofun⟩
      · refine ⟨Controller.Backed.of ?_ ?_ ?_, ?_, ?_⟩
        · exact fun sqid queue hqueue => h.controller.queue hqueue
        · intro command hcommand
          rcases List.mem_append.mp hcommand with hold | hnew
          · exact h.controller.waiting hold
          · rw [List.mem_singleton] at hnew
            subst hnew
            exact h.reads read (List.mem_of_getElem? hread)
        · exact fun wrapper hwrapper => h.controller.finished hwrapper
        · exact fun other hother =>
            h.reads other (List.mem_of_mem_eraseIdx hother)
        · exact h.executing

theorem Backed.handleRequest (h : flight.Backed) :
    flight.handleRequest.Backed := by
  unfold Flight.handleRequest
  split
  · exact h
  · next front rest hfifo =>
      have hlisted : ∀ command ∈ front :: rest,
          flight.controller.HasCQueue command.cqID := by
        intro command hcommand
        rw [← hfifo] at hcommand
        exact h.controller.waiting hcommand
      refine ⟨Controller.Backed.of ?_ ?_ ?_, h.reads, ?_⟩
      · exact fun sqid queue hqueue => h.controller.queue hqueue
      · exact fun command hcommand => hlisted command (.tail _ hcommand)
      · exact fun wrapper hwrapper => h.controller.finished hwrapper
      · intro command hcommand
        rcases List.mem_append.mp hcommand with hold | hnew
        · exact h.executing command hold
        · rw [List.mem_singleton] at hnew
          subst hnew
          exact hlisted command (.head _)

theorem freeReads_cqID (reads : List QueueContext) (queueCall : QueueCall)
    (ret : Nat) : ∀ read ∈ freeReads reads queueCall ret,
      read.cqID ∈ reads.map QueueContext.cqID := by
  intro read hread
  unfold freeReads at hread
  split at hread
  · obtain ⟨old, hold, rfl⟩ := List.mem_map.mp hread
    exact List.mem_map.mpr ⟨old, hold, rfl⟩
  · exact List.mem_map_of_mem hread

/-- A completion queue goes only when nothing names it. -/
theorem Backed.admin (h : flight.Backed) {index : Nat}
    {queueCall : QueueCall}
    (hinOrder : flight.InOrder (.admin index queueCall))
    (hdrained : flight.Drained (.admin index queueCall)) :
    Safe (flight.admin index queueCall) := by
  unfold Flight.admin
  split
  · exact h
  · next command hcommand =>
      split
      · exact h
      · next hsqid =>
          have hadmin : command.sqID = 0 := Decidable.byContradiction hsqid
          have hserved : ∀ {gone : Option Nat},
              (∀ cqid ∈ gone, cqid ∉ flight.commandTargets) →
              Returns (fun result => flight.controller.Serves gone result.2)
                (· ≠ .completionQueueNotCreated)
                (queueCall.perform flight.controller) →
              Safe (call (queueCall.perform flight.controller) >>= fun result =>
                pure { flight with
                  controller := result.2
                  reads := freeReads flight.reads queueCall result.1 }) := by
            intro gone hunnamed hreturns
            refine (call_returns hreturns).bind fun result hresult => ?_
            exact Returns.pure (h.serves hresult hunnamed
              (freeReads_cqID flight.reads queueCall result.1))
          cases queueCall with
          | createCQueue cqid size iv ien =>
              exact @hserved none nofun
                (Controller.createCQueue_returns h.controller cqid size iv ien)
          | createSQueue sqid cqid size priority =>
              exact @hserved none nofun (Controller.createSQueue_returns
                h.controller sqid cqid size priority)
          | deleteSQueue sqid =>
              exact @hserved none nofun
                (Controller.deleteSQueue_returns h.controller sqid)
          | deleteCQueue cqid =>
              have hdeletes : flight.deletes (.admin index (.deleteCQueue cqid))
                  = some cqid := by
                unfold Flight.deletes
                dsimp only
                rw [hcommand]
                exact if_pos hadmin
              have hcommands := hdrained cqid hdeletes
              refine @hserved (some cqid) ?_
                (Controller.deleteCQueue_returns h.controller ?_)
              · intro other hother
                cases hother
                exact hcommands
              · intro hlisted
                rcases List.mem_append.mp hlisted with hqueue | hfifo
                · exact hinOrder cqid hdeletes hqueue
                · exact hcommands (List.mem_append_right _ hfifo)

theorem Backed.abort (h : flight.Backed) (index sqid : Nat) (cid : UInt16) :
    Safe (flight.abort index sqid cid) := by
  unfold Flight.abort
  split
  · exact h
  · split
    · exact h
    · refine (call_returns (Controller.abort_returns h.controller sqid
        cid)).bind fun result hresult => ?_
      exact Returns.pure (h.withController hresult)

theorem Backed.submit (h : flight.Backed) (index : Nat) (status : UInt16) :
    Safe (flight.submit index status) := by
  unfold Flight.submit
  split
  · exact h
  · next command hcommand =>
      obtain ⟨after, hafter, -, hserves⟩ := @Controller.submit_returns _
        h.controller ⟨command.cqID, ⟨command.commandID, status⟩⟩
        (h.executing command (List.mem_of_getElem? hcommand))
      rw [hafter]
      refine ⟨hserves.backed, ?_, ?_⟩
      · exact fun read hread => hserves.kept _ nofun (h.reads read hread)
      · exact fun other hother => hserves.kept _ nofun
          (h.executing other (List.mem_of_mem_eraseIdx hother))

theorem post_returns (wrappers : List CQEntryWrapper)
    (h : controller.Backed) (hwrappers : ∀ wrapper ∈ wrappers,
      controller.HasCQueue wrapper.cqID) :
    Returns (controller.Serves none) FlightFault.Unrelated
      (wrappers.foldlM post controller) := by
  induction wrappers generalizing controller with
  | nil => exact Controller.Serves.refl h
  | cons wrapper rest ih =>
      obtain ⟨queue, hqueue⟩ := (hwrappers wrapper (.head _)).cqueueAt
      have hposted : Returns (controller.Serves none) FlightFault.Unrelated
          (post controller wrapper) := by
        unfold post
        rw [hqueue]
        change Returns _ _ (call (queue.setData wrapper.entry) >>= _)
        have hdata : Returns (fun _ => True) (· ≠ .completionQueueNotCreated)
            (queue.setData wrapper.entry) := by
          unfold CQueue.setData
          extract_lets tail moved
          by_cases hfull : moved.head = moved.tail
          · rw [if_pos hfull]
            exact nofun
          · rw [if_neg hfull]
            trivial
        refine (call_returns hdata).bind fun result _ => ?_
        exact Returns.pure (h.setCQueue wrapper.cqID result.2)
      rw [List.foldlM_cons]
      refine hposted.bind fun posted hserves => ?_
      refine (ih hserves.backed ?_).mono (fun _ hrest => hserves.trans hrest)
        fun _ hother => hother
      exact fun other hother =>
        hserves.kept _ nofun (hwrappers other (.tail _ hother))

theorem Backed.completion (h : flight.Backed) : Safe flight.completion := by
  unfold Flight.completion
  have hempty : Controller.Backed { flight.controller with lCQFIFO := [] } :=
    Controller.Backed.of (fun sqid queue hqueue => h.controller.queue hqueue)
      (fun command hcommand => h.controller.waiting hcommand) nofun
  refine (post_returns flight.controller.lCQFIFO hempty
    fun wrapper hwrapper => h.controller.finished hwrapper).bind
      fun posted hserves => ?_
  exact Returns.pure (h.withController ⟨hserves.kept, hserves.backed⟩)

theorem Backed.perform (h : flight.Backed) {step : Step}
    (hinOrder : flight.InOrder step) (hdrained : flight.Drained step) :
    Safe (flight.perform step) := by
  cases step with
  | ringSQTailDoorbell qid tail => exact h.ringSQTailDoorbell qid tail
  | ringCQHeadDoorbell qid head => exact h.ringCQHeadDoorbell qid head
  | checkQueue sqid commandID => exact h.checkQueue sqid commandID
  | doRead index => exact h.doRead index
  | handleRequest => exact h.handleRequest
  | admin index queueCall => exact h.admin hinOrder hdrained
  | abort index sqid cid => exact h.abort index sqid cid
  | submit index status => exact h.submit index status
  | completion => exact h.completion

end

theorem enabled_backed (maxIOCQueue maxIOSQueue entries : UInt16) :
    (enabled maxIOCQueue maxIOSQueue entries).Backed := by
  refine ⟨Controller.Backed.of ?_ nofun nofun, nofun, nofun⟩
  intro sqid queue hqueue
  cases sqid with
  | zero =>
      cases hqueue
      exact ⟨_, rfl⟩
  | succ sqid =>
      obtain ⟨-, hnone⟩ := List.mem_replicate.mp (List.mem_of_getElem? hqueue)
      cases hnone

/-- While completion queues are deleted after their submission queues and with
no command left that names them, no completion misses its queue. -/
theorem completion_queue_present (maxIOCQueue maxIOSQueue entries : UInt16)
    (steps : List Step)
    (hrun : Along perform
      (fun flight step => flight.InOrder step ∧ flight.Drained step)
      (enabled maxIOCQueue maxIOSQueue entries) steps) :
    Returns Backed FlightFault.Unrelated
      (steps.foldlM perform (enabled maxIOCQueue maxIOSQueue entries)) :=
  hrun.returns (fun _ _ h hstep => h.perform hstep.1 hstep.2)
    (enabled_backed maxIOCQueue maxIOSQueue entries)

/-! A command that the HIL still works on when its queues are deleted. -/

def handOver (sqid : Nat) (tail commandID : UInt16) : List Step :=
  [.ringSQTailDoorbell sqid tail, .checkQueue sqid commandID, .doRead 0,
    .handleRequest]

/-- Completion queue 1 and submission queue 1 are created, and a command of
queue 1 is handed over behind the admin command. -/
def busySteps : List Step :=
  handOver 0 1 1 ++
    [.admin 0 (.createCQueue 1 16 1 true),
      .admin 0 (.createSQueue 1 1 16 .urgent)] ++ handOver 1 1 2

def deletions : List Step :=
  [.admin 0 (.deleteSQueue 1), .admin 0 (.deleteCQueue 1)]

def answeredLate : List Step := busySteps ++ deletions ++ [.submit 1 0]

def answeredFirst : List Step :=
  busySteps ++ [.submit 1 0, .completion] ++ deletions

theorem executing_command_loses_queue :
    Along perform InOrder (enabled 1 1 64) answeredLate ∧
      ¬Returns (fun _ => True) FlightFault.Unrelated
        (answeredLate.foldlM perform (enabled 1 1 64)) := by
  decide +kernel

theorem completion_queue_present_answered_first :
    Returns Backed FlightFault.Unrelated
      (answeredFirst.foldlM perform (enabled 1 1 64)) :=
  completion_queue_present 1 1 64 answeredFirst (by decide +kernel)

end Flight

end SimpleSSD.HIL.NVMe
