import SimpleSSD.HIL.NVMe.Accounting

namespace SimpleSSD.HIL.NVMe

namespace Controller

/-! When the calls of the controller return. -/

/-- The walk of `deleteSQueue` finds a completion queue for every command it
aborts, and the last command is not one of them. -/
def Abortable (controller : Controller) (sqid : Nat) :
    List SQEntryWrapper → Prop
  | [] => True
  | [command] => command.sqID ≠ sqid
  | command :: following :: rest =>
      if command.sqID = sqid then
        (∃ queue, controller.ppCQueue[command.cqID]? = some (some queue)) ∧
          controller.Abortable sqid rest
      else controller.Abortable sqid (following :: rest)

theorem submit_ok {controller : Controller} {wrapper : CQEntryWrapper}
    {queue : CQueue}
    (here : controller.ppCQueue[wrapper.cqID]? = some (some queue)) :
    controller.submit wrapper =
      .ok { controller with lCQFIFO := controller.lCQFIFO ++ [wrapper] } := by
  unfold submit
  rw [cqueueAt_ok.mpr here]
  rfl

theorem Abortable.returns {controller : Controller} {sqid : Nat}
    {commands : List SQEntryWrapper}
    (abortable : controller.Abortable sqid commands) {current : Controller}
    (same : current.ppCQueue = controller.ppCQueue) :
    ∃ result, abortCommands sqid commands current = .ok result := by
  fun_induction abortCommands sqid commands current with
  | case1 current => exact ⟨_, rfl⟩
  | case2 command current mine => exact absurd mine abortable
  | case3 command current other => exact ⟨_, rfl⟩
  | case4 command following rest current mine induction =>
      unfold Abortable at abortable
      rw [if_pos mine] at abortable
      obtain ⟨⟨queue, here⟩, walk⟩ := abortable
      rw [← same] at here
      rw [@submit_ok current
        { cqID := command.cqID
          entry := { commandID := command.commandID
                     status := abortedBySQDelete } } queue here]
      dsimp only [bind, Except.bind]
      obtain ⟨⟨kept, last⟩, result⟩ := induction
        { current with lCQFIFO := current.lCQFIFO ++
            [{ cqID := command.cqID
               entry := { commandID := command.commandID
                          status := abortedBySQDelete } }] } walk same
      rw [result]
      exact ⟨_, rfl⟩
  | case5 command following rest current other induction =>
      unfold Abortable at abortable
      rw [if_neg other] at abortable
      obtain ⟨⟨kept, last⟩, result⟩ := induction abortable same
      rw [result]
      exact ⟨_, rfl⟩

/-- The deletion of a submission queue stays inside the table and the list of
commands. -/
structure DeletableSQueue (controller : Controller) (sqid : Nat) : Prop where
  inside : sqid < controller.ppSQueue.length
  walk : sqid ≠ 0 → controller.ppSQueue[sqid]? ≠ some none →
    controller.Abortable sqid controller.lSQFIFO

theorem DeletableSQueue.returns {controller : Controller} {sqid : Nat}
    (deletable : controller.DeletableSQueue sqid) :
    ∃ result, controller.deleteSQueue sqid = .ok result := by
  have here := List.getElem?_eq_getElem deletable.inside
  unfold deleteSQueue
  rw [squeueAt_ok.mpr here]
  dsimp only [bind, Except.bind]
  cases entry : controller.ppSQueue.get ⟨sqid, deletable.inside⟩ with
  | none =>
      rw [List.get_eq_getElem] at entry
      dsimp only at entry
      rw [entry]
      exact ⟨_, rfl⟩
  | some queue =>
      rw [List.get_eq_getElem] at entry
      dsimp only at entry
      rw [entry]
      dsimp only
      by_cases admin : sqid = 0
      · rw [if_pos admin]
        exact ⟨_, rfl⟩
      · rw [if_neg admin]
        have walk := deletable.walk admin (by rw [here, entry]; simp)
        obtain ⟨⟨kept, aborted⟩, result⟩ := @Abortable.returns _ _ _ walk
          controller rfl
        rw [result]
        exact ⟨_, rfl⟩

/-- The scan of `deleteCQueue` stays inside the table of submission queues and
ends, and the queue's vector is known. -/
structure DeletableCQueue (controller : Controller) (cqid : Nat) : Prop where
  inside : cqid < controller.ppCQueue.length
  scan : cqid ≠ 0 → ∀ queue, controller.ppCQueue[cqid]? = some (some queue) →
    controller.cqsize ≤ controller.sqsize ∧ controller.cqsize < 65536 ∧
      queue.interruptVector ∈ controller.aggregationMap

theorem DeletableCQueue.returns {controller : Controller} {cqid : Nat}
    (deletable : controller.DeletableCQueue cqid) :
    ∃ result, controller.deleteCQueue cqid = .ok result := by
  have here := List.getElem?_eq_getElem deletable.inside
  cases entry : controller.ppCQueue.get ⟨cqid, deletable.inside⟩ with
  | none =>
      rw [List.get_eq_getElem] at entry
      dsimp only at entry
      rw [entry] at here
      refine ⟨(1, controller), ?_⟩
      unfold deleteCQueue
      rw [cqueueAt_ok.mpr here]
      rfl
  | some queue =>
      rw [List.get_eq_getElem] at entry
      dsimp only at entry
      rw [entry] at here
      by_cases admin : cqid = 0
      · refine ⟨(1, controller), ?_⟩
        unfold deleteCQueue
        rw [cqueueAt_ok.mpr here]
        simp only [bind, Except.bind, admin, if_true]
        rfl
      · obtain ⟨covers, fits, known⟩ := deletable.scan admin queue here
        obtain ⟨found, looked, _⟩ := refers_ok covers fits cqid
        cases found with
        | true =>
            refine ⟨(2, controller), ?_⟩
            unfold deleteCQueue
            rw [cqueueAt_ok.mpr here]
            simp only [bind, Except.bind, admin, if_false, looked, if_true]
            rfl
        | false =>
            obtain ⟨updated, deleted, _⟩ :=
              deleteCQueue_unreferred fits admin here looked known
            exact ⟨_, deleted⟩

def AbortableCommand (controller : Controller) (sqid : Nat) (cid : UInt16) :
    Prop :=
  ∀ command ∈ controller.lSQFIFO.find? fun command =>
      command.sqID = sqid && command.commandID = cid,
    (∃ queue, controller.ppSQueue[sqid]? = some (some queue)) ∧
      ∃ queue, controller.ppCQueue[command.cqID]? = some (some queue)

theorem AbortableCommand.returns {controller : Controller} {sqid : Nat}
    {cid : UInt16} (abortable : controller.AbortableCommand sqid cid) :
    ∃ result, controller.abort sqid cid = .ok result := by
  unfold abort
  dsimp only
  cases found : controller.lSQFIFO.find? _ with
  | none => exact ⟨_, rfl⟩
  | some command =>
      obtain ⟨⟨queue, here⟩, completion, waiting⟩ := abortable command found
      dsimp only
      rw [squeueAt_ok.mpr here, @submit_ok controller
        { cqID := command.cqID
          entry := { commandID := command.commandID
                     status := abortedByRequest } } completion waiting]
      exact ⟨_, rfl⟩

end Controller
namespace Subsystem

/-! The admin commands that are answered. -/

/-- Queue ids lie in their tables and the controller accepts what it is asked
to create; health information is asked for all namespaces together; a list of
namespaces fits its buffer; a namespace command has the fields it needs; and
the set-up of the data, where the command has data, calls back. -/
def Answerable (cfg : ConfigData) (subsystem : Subsystem) (req : Command) :
    Prop :=
  match AdminOpcode.decode req.opcode with
  | .deleteIOSQueue => subsystem.controller.DeletableSQueue (queueIDOf req)
  | .createIOSQueue => entrySizeOf req ≤ cfg.maxQueueEntry →
      subsystem.controller.ppSQueue[queueIDOf req]? = some none ∧
        ∃ queue, subsystem.controller.ppCQueue[upperDword11 req]? =
          some (some queue)
  | .getLogPage =>
      LogPage.decode (Namespace.lidOf req) = .smartHealthInformation →
        req.namespaceID = nsidAll ∧
          req.setsUp cfg (Namespace.logSizeOf req).toNat = .ok true
  | .deleteIOCQueue => subsystem.controller.DeletableCQueue (queueIDOf req)
  | .createIOCQueue => entrySizeOf req ≤ cfg.maxQueueEntry →
      subsystem.controller.ppCQueue[queueIDOf req]? = some none
  | .identify =>
      subsystem.lNamespaces.countP (fun ns => req.namespaceID < ns.nsid) ≤
          1024 ∧
        ((∃ data, identifyData subsystem req = .ok (some data)) →
          req.setsUp cfg 0x1000 = .ok true)
  | .abort => subsystem.controller.AbortableCommand (queueIDOf req)
      (req.dword10 >>> 16).toUInt16
  | .namespaceManagement => selectOf req = 1 ∨
      (selectOf req = 0 ∧ req.namespaceID = nsidNone ∧
        (freeNSID subsystem.lNamespaces nsidLowest ≠ nsidAll →
          req.setsUp cfg 0x1000 = .ok true))
  | .namespaceAttachment => req.setsUp cfg 0x1000 = .ok true
  | _ => True

section Handlers

variable {cfg : ConfigData} {subsystem : Subsystem} {req : Command}
  {func bound : Nat}

theorem Stage.reply {before after : Subsystem} {resp : Response}
    (responses : after.responses = before.responses ++ [resp])
    (own : resp.func = func) (pending : after.pending = before.pending)
    (contexts : after.contexts = before.contexts)
    (trims : after.trims = before.trims)
    (submitted : after.submitted = before.submitted)
    (ranges : after.ranges = before.ranges) :
    Stage cfg func bound before after :=
  ⟨.replied resp own pending responses contexts trims,
    fun placed => placed.of_ranges ranges, submitted⟩

theorem Stage.schedule {before after : Subsystem} {callback : Callback}
    (pending : after.pending = before.pending ++ [callback])
    (responses : after.responses = before.responses)
    (contexts : after.contexts = before.contexts)
    (trims : after.trims = before.trims)
    (submitted : after.submitted = before.submitted)
    (ranges : after.ranges = before.ranges)
    (own : callback.func = func) (share : callback.share = .alone)
    (single : callback.Single) (below : callback.rank < bound) :
    Stage cfg func bound before after :=
  ⟨.scheduled callback own share single below pending responses contexts trims,
    fun placed => placed.of_ranges ranges, submitted⟩

theorem setUp_ok {size : Nat} (ready : req.setsUp cfg size = .ok true)
    (subsystem : Subsystem) (callback : Callback) :
    subsystem.setUp cfg req size callback =
      .ok (subsystem.schedule callback) := by
  unfold setUp
  rw [ready]
  rfl

def Processed (cfg : ConfigData) (func bound : Nat) (before : Subsystem)
    (result : Except Fault (Bool × Subsystem)) : Prop :=
  ∃ after, result = .ok (true, after) ∧ Stage cfg func bound before after

theorem deleteSQueue_processed
    (deletable : subsystem.controller.DeletableSQueue (queueIDOf req)) :
    Processed cfg func bound subsystem (deleteSQueue subsystem req func) := by
  obtain ⟨⟨ret, controller⟩, result⟩ := deletable.returns
  unfold deleteSQueue
  rw [result]
  dsimp only [call, bind, Except.bind]
  split
  · exact ⟨_, rfl, .reply rfl rfl rfl rfl rfl rfl rfl⟩
  · exact ⟨_, rfl, .reply rfl rfl rfl rfl rfl rfl rfl⟩

theorem deleteCQueue_processed
    (deletable : subsystem.controller.DeletableCQueue (queueIDOf req)) :
    Processed cfg func bound subsystem (deleteCQueue subsystem req func) := by
  obtain ⟨⟨ret, controller⟩, result⟩ := deletable.returns
  unfold deleteCQueue
  rw [result]
  dsimp only [call, bind, Except.bind]
  split
  · exact ⟨_, rfl, .reply rfl rfl rfl rfl rfl rfl rfl⟩
  · split
    · exact ⟨_, rfl, .reply rfl rfl rfl rfl rfl rfl rfl⟩
    · exact ⟨_, rfl, .reply rfl rfl rfl rfl rfl rfl rfl⟩

theorem abort_processed (abortable : subsystem.controller.AbortableCommand
      (queueIDOf req) (req.dword10 >>> 16).toUInt16) :
    Processed cfg func bound subsystem (abort subsystem req func) := by
  obtain ⟨⟨ret, controller⟩, result⟩ := abortable.returns
  unfold abort
  rw [result]
  exact ⟨_, rfl, .reply rfl rfl rfl rfl rfl rfl rfl⟩

theorem createSQueue_processed (room : 2 < bound)
    (accepted : entrySizeOf req ≤ cfg.maxQueueEntry →
      subsystem.controller.ppSQueue[queueIDOf req]? = some none ∧
        ∃ queue, subsystem.controller.ppCQueue[upperDword11 req]? =
          some (some queue)) :
    Processed cfg func bound subsystem
      (createSQueue cfg subsystem req func) := by
  unfold createSQueue
  dsimp only
  by_cases large : cfg.maxQueueEntry < entrySizeOf req
  · rw [if_pos large]
    exact ⟨_, rfl, .reply rfl rfl rfl rfl rfl rfl rfl⟩
  · rw [if_neg large]
    obtain ⟨vacant, queue, here⟩ := accepted (UInt16.not_lt.mp large)
    unfold Controller.createSQueue
    rw [Controller.squeueAt_ok.mpr vacant, Controller.cqueueAt_ok.mpr here]
    exact ⟨_, rfl, .schedule rfl rfl rfl rfl rfl rfl rfl rfl trivial room⟩

theorem createCQueue_processed (room : 2 < bound)
    (accepted : entrySizeOf req ≤ cfg.maxQueueEntry →
      subsystem.controller.ppCQueue[queueIDOf req]? = some none) :
    Processed cfg func bound subsystem
      (createCQueue cfg subsystem req func) := by
  unfold createCQueue
  dsimp only
  by_cases large : cfg.maxQueueEntry < entrySizeOf req
  · rw [if_pos large]
    exact ⟨_, rfl, .reply rfl rfl rfl rfl rfl rfl rfl⟩
  · rw [if_neg large]
    have vacant := accepted (UInt16.not_lt.mp large)
    unfold Controller.createCQueue
    rw [Controller.cqueueAt_ok.mpr vacant]
    exact ⟨_, rfl, .schedule rfl rfl rfl rfl rfl rfl rfl rfl trivial room⟩

theorem getLogPage_processed (room : 2 < bound)
    (whole : LogPage.decode (Namespace.lidOf req) = .smartHealthInformation →
      req.namespaceID = nsidAll ∧
        req.setsUp cfg (Namespace.logSizeOf req).toNat = .ok true) :
    Processed cfg func bound subsystem
      (getLogPage cfg subsystem req func) := by
  unfold getLogPage
  cases page : LogPage.decode (Namespace.lidOf req) with
  | smartHealthInformation =>
      obtain ⟨every, ready⟩ := whole page
      dsimp only
      rw [if_pos every, setUp_ok ready]
      exact ⟨_, rfl, .schedule rfl rfl rfl rfl rfl rfl rfl rfl trivial room⟩
  | errorInformation => exact ⟨_, rfl, .reply rfl rfl rfl rfl rfl rfl rfl⟩
  | firmwareSlotInformation =>
      exact ⟨_, rfl, .reply rfl rfl rfl rfl rfl rfl rfl⟩
  | other => exact ⟨_, rfl, .reply rfl rfl rfl rfl rfl rfl rfl⟩

theorem listNamespaces_ok {select : Namespace → Bool}
    (short : subsystem.lNamespaces.countP (fun ns =>
      req.namespaceID < ns.nsid) ≤ 1024) :
    ∃ data, listNamespaces subsystem req select = .ok data := by
  have fewer : ((subsystem.lNamespaces.filter fun ns =>
      select ns && req.namespaceID < ns.nsid).map Namespace.nsid).length ≤
        subsystem.lNamespaces.countP fun ns => req.namespaceID < ns.nsid := by
    rw [List.length_map, ← List.countP_eq_length_filter]
    refine List.countP_mono_left ?_
    intro ns _ both
    exact (Bool.and_eq_true_iff.mp both).2
  unfold listNamespaces
  dsimp only
  rw [if_neg (by omega)]
  exact ⟨_, rfl⟩

theorem identifyData_ok
    (short : subsystem.lNamespaces.countP (fun ns =>
      req.namespaceID < ns.nsid) ≤ 1024) :
    ∃ data, identifyData subsystem req = .ok data := by
  have listed : ∀ select, ∃ data,
      (if nsidAll - 1 ≤ req.namespaceID then .ok none
        else (listNamespaces subsystem req select).map some) =
          (.ok data : Except Fault (Option IdentifyData)) := by
    intro select
    split
    · exact ⟨_, rfl⟩
    · obtain ⟨data, result⟩ := @listNamespaces_ok subsystem req select short
      rw [result]
      exact ⟨_, rfl⟩
  unfold identifyData
  dsimp only
  cases CNS.decode (req.dword10 &&& 0xFF) with
  | activeNamespaceList => exact listed _
  | allocatedNamespaceList => exact listed _
  | identifyNamespace =>
      dsimp only
      split <;> exact ⟨_, rfl⟩
  | _ => exact ⟨_, rfl⟩

theorem identify_data {data : IdentifyData}
    (found : identifyData subsystem req = .ok (some data))
    (ready : req.setsUp cfg 0x1000 = .ok true) :
    identify cfg subsystem req func = .ok (true,
      subsystem.schedule (.identifyWrite data (Response.make req func))) := by
  unfold identify
  simp only [found, setUp_ok ready]
  rfl

theorem identify_refused (refused : identifyData subsystem req = .ok none) :
    identify cfg subsystem req func = .ok (true, subsystem.reply
      ((Response.make req func).makeStatus true false .genericCommandStatus
        .abortInvalidNamespace)) := by
  unfold identify
  rw [refused]
  rfl

theorem identify_processed (room : 2 < bound)
    (short : subsystem.lNamespaces.countP (fun ns =>
      req.namespaceID < ns.nsid) ≤ 1024)
    (ready : (∃ data, identifyData subsystem req = .ok (some data)) →
      req.setsUp cfg 0x1000 = .ok true) :
    Processed cfg func bound subsystem (identify cfg subsystem req func) := by
  obtain ⟨data, result⟩ := identifyData_ok short
  cases data with
  | some data =>
      exact ⟨_, identify_data result (ready ⟨data, result⟩),
        .schedule rfl rfl rfl rfl rfl rfl rfl rfl trivial room⟩
  | none =>
      exact ⟨_, identify_refused result, .reply rfl rfl rfl rfl rfl rfl rfl⟩

theorem setFeatures_processed : Processed cfg func bound subsystem
    (.ok (setFeatures cfg subsystem req func)) := by
  unfold setFeatures
  dsimp only
  split
  · exact ⟨_, rfl, .reply rfl rfl rfl rfl rfl rfl rfl⟩
  · cases Feature.decode (req.dword10 &&& 0x00FF) with
    | numberOfQueues =>
        dsimp only
        split
        · exact ⟨_, rfl, .reply rfl rfl rfl rfl rfl rfl rfl⟩
        · exact ⟨_, rfl, .reply rfl rfl rfl rfl rfl rfl rfl⟩
    | interruptCoalescing =>
        dsimp only
        obtain ⟨ticks, set⟩ := subsystem.setCoalescingParameter_eq
          ((req.dword11 >>> 8) &&& 0xFF).toUInt8 (req.dword11 &&& 0xFF).toUInt8
        rw [set]
        exact ⟨_, rfl, .reply rfl rfl rfl rfl rfl rfl rfl⟩
    | _ =>
        dsimp only
        exact ⟨_, rfl, .reply rfl rfl rfl rfl rfl rfl rfl⟩

theorem getFeatures_processed : Processed cfg func bound subsystem
    (.ok (getFeatures cfg subsystem req func)) := by
  unfold getFeatures
  cases featureValue cfg subsystem req with
  | some value => exact ⟨_, rfl, .reply rfl rfl rfl rfl rfl rfl rfl⟩
  | none => exact ⟨_, rfl, .reply rfl rfl rfl rfl rfl rfl rfl⟩

theorem namespaceManagement_processed (room : 2 < bound)
    (fields : selectOf req = 1 ∨
      (selectOf req = 0 ∧ req.namespaceID = nsidNone ∧
        (freeNSID subsystem.lNamespaces nsidLowest ≠ nsidAll →
          req.setsUp cfg 0x1000 = .ok true))) :
    Processed cfg func bound subsystem
      (namespaceManagement cfg subsystem req func) := by
  have accepted : ¬ ((selectOf req = 0x00 ∧ req.namespaceID ≠ nsidNone) ∨
      0x01 < selectOf req) := by
    rcases fields with deletes | ⟨creates, unnamed, _⟩
    · rw [deletes]
      simp
    · rw [creates, unnamed]
      decide
  unfold namespaceManagement
  dsimp only
  rw [if_neg accepted]
  by_cases creates : selectOf req = 0x00
  · rw [if_pos creates]
    by_cases exhausted : freeNSID subsystem.lNamespaces nsidLowest = nsidAll
    · rw [if_pos exhausted]
      exact ⟨_, rfl, .reply rfl rfl rfl rfl rfl rfl rfl⟩
    · have ready : req.setsUp cfg 0x1000 = .ok true := by
        rcases fields with deletes | ⟨_, _, ready⟩
        · rw [deletes] at creates
          exact absurd creates (by decide)
        · exact ready exhausted
      rw [if_neg exhausted, setUp_ok ready]
      exact ⟨_, rfl, .schedule rfl rfl rfl rfl rfl rfl rfl rfl trivial room⟩
  · rw [if_neg creates]
    have kept := fun placed : Placed cfg subsystem =>
      placed.destroyNamespace req.namespaceID
    unfold destroyNamespace at kept ⊢
    cases found : subsystem.lNamespaces.find? (·.nsid = req.namespaceID) with
    | none => exact ⟨_, rfl, .reply rfl rfl rfl rfl rfl rfl rfl⟩
    | some ns =>
        rw [found] at kept
        refine ⟨_, rfl, ⟨.replied _ rfl rfl rfl rfl rfl, ?_, rfl⟩⟩
        exact fun placed => (kept placed).of_ranges rfl

theorem formatNVM_processed (room : 2 < bound) :
    Processed cfg func bound subsystem
      (.ok (formatNVM cfg subsystem req func)) := by
  unfold formatNVM
  dsimp only
  split
  · exact ⟨_, rfl, .reply rfl rfl rfl rfl rfl rfl rfl⟩
  · cases found : subsystem.lNamespaces.find? (·.nsid = req.namespaceID) with
    | none => exact ⟨_, rfl, .reply rfl rfl rfl rfl rfl rfl rfl⟩
    | some ns =>
        refine ⟨_, rfl, .schedule rfl rfl rfl rfl rfl ?_ rfl rfl trivial
          room⟩
        -- a format changes the block size and leaves the pages
        unfold ranges Subsystem.schedule
        dsimp only
        rw [List.map_map]
        refine List.map_congr_left ?_
        intro other _
        dsimp only [Function.comp]
        split <;> rfl

/-- An admin command is processed, or left to a namespace untouched. -/
theorem adminCommand_processed (room : 2 < bound)
    (answerable : Answerable cfg subsystem req) :
    Processed cfg func bound subsystem (adminCommand cfg subsystem req func) ∨
      adminCommand cfg subsystem req func = .ok (false, subsystem) := by
  unfold Answerable at answerable
  unfold adminCommand
  cases opcode : AdminOpcode.decode req.opcode <;>
    simp only [opcode] at answerable ⊢
  case deleteIOSQueue => exact .inl (deleteSQueue_processed answerable)
  case createIOSQueue => exact .inl (createSQueue_processed room answerable)
  case getLogPage => exact .inl (getLogPage_processed room answerable)
  case deleteIOCQueue => exact .inl (deleteCQueue_processed answerable)
  case createIOCQueue => exact .inl (createCQueue_processed room answerable)
  case identify =>
    exact .inl (identify_processed room answerable.1 answerable.2)
  case abort => exact .inl (abort_processed answerable)
  case setFeatures => exact .inl setFeatures_processed
  case getFeatures => exact .inl getFeatures_processed
  case namespaceManagement =>
    exact .inl (namespaceManagement_processed room answerable)
  case namespaceAttachment =>
    unfold namespaceAttachment
    rw [setUp_ok answerable]
    exact .inl ⟨_, rfl,
      .schedule rfl rfl rfl rfl rfl rfl rfl rfl trivial room⟩
  case formatNVM => exact .inl (formatNVM_processed room)
  case asyncEventReq => exact .inr trivial
  case other => exact .inr trivial

theorem toNamespace_stage (room : 6 < bound) :
    Stage cfg func bound subsystem (toNamespace subsystem req func) := by
  unfold toNamespace
  dsimp only
  split
  · cases found : subsystem.lNamespaces.find? (·.nsid = req.namespaceID) with
    | some ns =>
        exact .schedule rfl rfl rfl rfl rfl rfl rfl rfl trivial room
    | none => exact .reply rfl rfl rfl rfl rfl rfl rfl
  · split
    · exact .reply rfl rfl rfl rfl rfl rfl rfl
    · exact .schedule rfl rfl rfl rfl rfl rfl rfl rfl trivial room

/-- The command's number is its place among the commands. -/
theorem submitCommand_stage
    (answerable : req.sqID = 0 → Answerable cfg subsystem req) :
    ∃ after, submitCommand cfg subsystem req = .ok after ∧
      Stage cfg subsystem.submitted 7
        { subsystem with submitted := subsystem.submitted + 1 } after := by
  unfold submitCommand
  dsimp only [bind, Except.bind]
  by_cases admin : req.sqID = 0
  · rw [if_pos admin]
    rcases @adminCommand_processed cfg
      { subsystem with submitted := subsystem.submitted + 1 } req
      subsystem.submitted 7 (by decide) (answerable admin) with
      ⟨after, result, stage⟩ | result
    · rw [result]
      exact ⟨after, rfl, stage⟩
    · rw [result]
      exact ⟨_, rfl, toNamespace_stage (by decide)⟩
  · rw [if_neg admin]
    exact ⟨_, rfl, toNamespace_stage (by decide)⟩

end Handlers

end Subsystem

end SimpleSSD.HIL.NVMe
