import SimpleSSD.HIL.UFS.Slots
import SimpleSSD.Sim.Share

namespace SimpleSSD.HIL.UFS

open Data

/-! The events of the host: what waits is woken up. -/

def leftFrom (station : Station) (log : List Happening) : List UInt32 :=
  (moves log).filterMap fun (bitMask, left) =>
    if left = station then some bitMask else none

theorem leftFrom_append (station : Station) (log happenings : List Happening) :
    leftFrom station (log ++ happenings) =
      leftFrom station log ++ leftFrom station happenings := by
  simp [leftFrom]

def Quiet (happenings : List Happening) : Prop :=
  leftFrom .idle happenings = [] ∧ leftFrom .queued happenings = []

theorem Quiet.idle {happenings : List Happening} (quiet : Quiet happenings)
    (log : List Happening) :
    leftFrom .idle (log ++ happenings) = leftFrom .idle log := by
  rw [leftFrom_append, quiet.1, List.append_nil]

theorem Quiet.queued {happenings : List Happening} (quiet : Quiet happenings)
    (log : List Happening) :
    leftFrom .queued (log ++ happenings) = leftFrom .queued log := by
  rw [leftFrom_append, quiet.2, List.append_nil]

theorem quiet_of_moves {happenings : List Happening}
    (apart : ∀ move ∈ moves happenings,
      move.2 ≠ .idle ∧ move.2 ≠ .queued) : Quiet happenings := by
  constructor
  · apply List.filterMap_eq_nil_iff.mpr
    intro move member
    exact if_neg (apart move member).1
  · apply List.filterMap_eq_nil_iff.mpr
    intro move member
    exact if_neg (apart move member).2

structure Leaves (event : Sim.Event) (sim next : Sim.Run) : Prop where
  later : sim.engine.simTick ≤ next.engine.simTick
  queue : ∀ tick : UInt64, ⟨event, tick⟩ ∈ next.engine.eventQueue ↔
    ⟨event, tick⟩ ∈ sim.engine.eventQueue

namespace Host

/-- The completion event is due when the top of the queue is finished. -/
def Due (host : Host) : Prop :=
  ∀ tick : UInt64,
    ⟨host.completionEvent, tick⟩ ∈ host.sim.engine.eventQueue ↔
      ∃ top, host.lResponseQueue.head? = some top ∧
        tick = max top.finishedAt host.getTick

def Handles (host : Host) : Prop :=
  ∃ tick : UInt64, ⟨host.workEvent, tick⟩ ∈ host.sim.engine.eventQueue ∨
    ⟨host.requestEvent, tick⟩ ∈ host.sim.engine.eventQueue

structure Apart (host : Host) : Prop where
  work_request : host.workEvent ≠ host.requestEvent
  work_completion : host.workEvent ≠ host.completionEvent
  request_completion : host.requestEvent ≠ host.completionEvent

structure Awake (host : Host) (log : List Happening) : Prop where
  order : host.sim.InOrder
  apart : host.Apart
  due : host.Due
  handles : Happening.linkStartup ∈ log → host.Handles
  sorted : host.lResponseQueue.Pairwise fun first second =>
    first.finishedAt ≤ second.finishedAt
  line : leftFrom .idle log =
    leftFrom .queued log ++ host.lRequestQueue.map bit

variable {host next : Host} {log happenings : List Happening}

theorem schedule_ok {event : Sim.Event} {tick : UInt64}
    (done : host.schedule event tick = .ok next) :
    ∃ sim, host.sim.perform (.scheduleEvent event tick) = .ok sim ∧
      next = { host with sim := sim } := by
  obtain ⟨sim, scheduled, done⟩ := bind_ok done
  cases done
  exact ⟨sim, Sim.mapError_ok scheduled, rfl⟩

theorem leaves_of_foreign {event : Sim.Event} {call : Sim.Call}
    {sim after : Sim.Run} (order : sim.InOrder)
    (done : sim.perform call = .ok after) (foreign : call.Foreign event) :
    Leaves event sim after := by
  obtain ⟨now, queue⟩ := order.foreign foreign done
  exact ⟨by rw [now]; exact UInt64.le_refl _, queue⟩

theorem max_later {time now later : UInt64} (first : now ≤ later)
    (second : later ≤ max time now) : max time later = max time now := by
  rw [UInt64.max_def] at second ⊢
  rw [UInt64.max_def]
  grind

/-- Time passes until the top of the queue is finished. -/
theorem Due.leaves {sim : Sim.Run} (due : host.Due) (order : sim.InOrder)
    (leaves : Leaves host.completionEvent host.sim sim) :
    Due { host with sim := sim } := by
  intro tick
  rw [leaves.queue, due tick]
  apply exists_congr
  intro top
  apply and_congr_right
  intro first
  have there := (leaves.queue (max top.finishedAt host.getTick)).mpr
    ((due _).mpr ⟨top, first, rfl⟩)
  have passed := order.ordered.due _ there
  show _ ↔ tick = max top.finishedAt sim.engine.simTick
  rw [max_later leaves.later passed]
  rfl

theorem Handles.leaves {sim : Sim.Run} (handles : host.Handles)
    (work : Leaves host.workEvent host.sim sim)
    (request : Leaves host.requestEvent host.sim sim) :
    Handles { host with sim := sim } := by
  obtain ⟨tick, due⟩ := handles
  exact ⟨tick, due.imp (work.queue tick).mpr (request.queue tick).mpr⟩

theorem Awake.leaves {sim : Sim.Run} (awake : host.Awake log)
    (order : sim.InOrder) (work : Leaves host.workEvent host.sim sim)
    (request : Leaves host.requestEvent host.sim sim)
    (completion : Leaves host.completionEvent host.sim sim) :
    Awake { host with sim := sim } log where
  order := order
  apart := ⟨awake.apart.work_request, awake.apart.work_completion,
    awake.apart.request_completion⟩
  due := awake.due.leaves order completion
  handles started := (awake.handles started).leaves work request
  sorted := awake.sorted
  line := awake.line

theorem Awake.commands {commands : List Command} (awake : host.Awake log)
    (quiet : Quiet happenings) (unstarted : .linkStartup ∉ happenings) :
    Awake { host with commands := commands } (log ++ happenings) where
  order := awake.order
  apart := ⟨awake.apart.work_request, awake.apart.work_completion,
    awake.apart.request_completion⟩
  due := awake.due
  handles started := awake.handles
    ((List.mem_append.mp started).resolve_right unstarted)
  sorted := awake.sorted
  line := by
    rw [quiet.idle, quiet.queued]
    exact awake.line

structure Returns (host next : Host) (happenings : List Happening) : Prop where
  commands : ∃ commands, next = { host with commands := commands }
  quiet : Quiet happenings
  unstarted : .linkStartup ∉ happenings

theorem Awake.returns (awake : host.Awake log)
    (returns : Returns host next happenings) :
    next.Awake (log ++ happenings) := by
  obtain ⟨commands, rfl⟩ := returns.commands
  exact awake.commands returns.quiet returns.unstarted

theorem descriptorRead_returns {place : Nat} {desc : TransferReqDesc}
    (done : host.descriptorRead place desc = .ok (next, happenings)) :
    Returns host next happenings := by
  simp only [Host.descriptorRead] at done
  split at done
  · split at done
    · split at done
      · cases done
        refine ⟨⟨_, rfl⟩, quiet_of_moves ?_, ?_⟩
        · split <;> simp [moves, Happening.move]
        · split <;> simp
      · cases done
    · cases done
  · cases done

theorem respond_returns {place : Nat} {command : Command}
    {request response : UPIU}
    (done : host.respond place command request response =
      .ok (next, happenings)) : Returns host next happenings := by
  obtain ⟨rfl, address, row, rfl⟩ := respond_ok done
  exact ⟨⟨_, rfl⟩, ⟨rfl, rfl⟩, by simp⟩

theorem doRequest_returns {place : Nat} {command : Command} {buffer : Buffer}
    {memory : Query}
    (done : host.doRequest place command buffer memory =
      .ok (next, happenings)) : Returns host next happenings := by
  rcases doRequest_ok done with
    ⟨request, response, rfl, rfl⟩ | ⟨rfl, address, row, rfl⟩
  · exact ⟨⟨_, rfl⟩, ⟨rfl, rfl⟩, by simp⟩
  · exact ⟨⟨_, rfl⟩, ⟨rfl, rfl⟩, by simp⟩

theorem requestRead_returns {place : Nat} {buffer : Buffer} {memory : Query}
    (done : host.requestRead place buffer memory = .ok (next, happenings)) :
    Returns host next happenings := by
  simp only [Host.requestRead] at done
  split at done
  · split at done
    · split at done
      · exact doRequest_returns done
      · cases done
        exact ⟨⟨_, rfl⟩, ⟨rfl, rfl⟩, by simp⟩
    · cases done
  · cases done

theorem prdtRead_returns {place : Nat} {memory : Query}
    (done : host.prdtRead place memory = .ok (next, happenings)) :
    Returns host next happenings := by
  simp only [Host.prdtRead] at done
  split at done
  · split at done
    · split at done
      · exact doRequest_returns done
      · cases done
        exact ⟨⟨_, rfl⟩, ⟨rfl, rfl⟩, by simp⟩
    · cases done
  · cases done

theorem processed_returns {place : Nat}
    (done : host.processed place = .ok (next, happenings)) :
    Returns host next happenings := by
  simp only [Host.processed] at done
  split at done
  · split at done
    · split at done
      · split at done
        · exact respond_returns done
        · cases done
      · exact respond_returns done
    · cases done
  · cases done

theorem responseWritten_returns {place : Nat}
    (done : host.responseWritten place = .ok (next, happenings)) :
    Returns host next happenings := by
  simp only [Host.responseWritten] at done
  split at done
  · split at done
    · cases done
      exact ⟨⟨_, rfl⟩, ⟨rfl, rfl⟩, by simp⟩
    · cases done
  · cases done

theorem scheduleTop_due (done : host.scheduleTop = .ok next)
    (order : host.sim.InOrder)
    (none : host.lResponseQueue = [] → ∀ tick : UInt64,
      ⟨host.completionEvent, tick⟩ ∉ host.sim.engine.eventQueue) :
    next.sim.InOrder ∧ next.Due ∧ (∃ sim, next = { host with sim := sim }) ∧
      ∀ event, event ≠ host.completionEvent →
        Leaves event host.sim next.sim := by
  simp only [scheduleTop] at done
  split at done
  · next empty =>
      cases done
      refine ⟨order, ?_, ⟨host.sim, rfl⟩, fun event _ =>
        ⟨UInt64.le_refl _, fun _ => Iff.rfl⟩⟩
      intro tick
      simpa [empty] using none empty tick
  · next top rest queue =>
      obtain ⟨sim, scheduled, rfl⟩ := schedule_ok done
      obtain ⟨now, own⟩ := order.own scheduled
      refine ⟨(order.perform scheduled).1, ?_, ⟨sim, rfl⟩, ?_⟩
      · intro tick
        show ⟨host.completionEvent, tick⟩ ∈ sim.engine.eventQueue ↔
          ∃ first, host.lResponseQueue.head? = some first ∧
            tick = max first.finishedAt sim.engine.simTick
        rw [own tick, queue, now]
        simp
      · intro event different
        exact leaves_of_foreign order scheduled different.symm

theorem insertCompletion_sorted {entry : Completion} {queue : List Completion}
    (sorted : queue.Pairwise fun first second =>
      first.finishedAt ≤ second.finishedAt) :
    (insertCompletion entry queue).Pairwise fun first second =>
      first.finishedAt ≤ second.finishedAt := by
  induction queue with
  | nil => simp [insertCompletion]
  | cons iter rest induction =>
      rw [List.pairwise_cons] at sorted
      simp only [insertCompletion]
      split
      · next earlier =>
          apply List.pairwise_cons.mpr
          refine ⟨?_, induction sorted.2⟩
          intro other member
          rcases List.mem_cons.mp
            ((insertCompletion_perm entry rest).mem_iff.mp member) with
            rfl | member
          · exact earlier
          · exact sorted.1 other member
      · next later =>
          have before : entry.finishedAt ≤ iter.finishedAt :=
            UInt64.le_of_lt (UInt64.not_le.mp later)
          apply List.pairwise_cons.mpr
          refine ⟨?_, List.pairwise_cons.mpr sorted⟩
          intro other member
          rcases List.mem_cons.mp member with rfl | member
          · exact before
          · exact UInt64.le_trans before (sorted.1 other member)

theorem insertCompletion_ne_nil (entry : Completion)
    (queue : List Completion) : insertCompletion entry queue ≠ [] := by
  intro empty
  have length := (insertCompletion_perm entry queue).length_eq
  rw [empty] at length
  cases length

theorem Awake.descriptorWritten {place : Nat} {now : UInt64}
    (awake : host.Awake log)
    (done : host.descriptorWritten place now = .ok (next, happenings)) :
    next.Awake (log ++ happenings) := by
  simp only [Host.descriptorWritten] at done
  split at done
  · next command found =>
      split at done
      · obtain ⟨middle, scheduled, done⟩ := bind_ok done
        cases done
        obtain ⟨order, due, ⟨sim, rfl⟩, others⟩ := scheduleTop_due scheduled
          awake.order (fun empty => absurd empty (insertCompletion_ne_nil _ _))
        constructor
        · exact order
        · exact ⟨awake.apart.work_request, awake.apart.work_completion,
            awake.apart.request_completion⟩
        · exact due
        · intro started
          have started : .linkStartup ∈ log := by simpa using started
          exact (awake.handles started).leaves
            (others _ awake.apart.work_completion)
            (others _ awake.apart.request_completion)
        · exact insertCompletion_sorted awake.sorted
        · rw [leftFrom_append, leftFrom_append]
          simpa [leftFrom, moves, Happening.move] using awake.line
      · cases done
  · cases done

theorem Awake.copy (awake : host.Awake log) (sim : next.sim = host.sim)
    (work : next.workEvent = host.workEvent)
    (request : next.requestEvent = host.requestEvent)
    (completion : next.completionEvent = host.completionEvent)
    (requests : next.lRequestQueue = host.lRequestQueue)
    (responses : next.lResponseQueue = host.lResponseQueue) :
    next.Awake log where
  order := sim ▸ awake.order
  apart := by
    constructor
    · rw [work, request]
      exact awake.apart.work_request
    · rw [work, completion]
      exact awake.apart.work_completion
    · rw [request, completion]
      exact awake.apart.request_completion
  due := by
    intro tick
    rw [getTick, sim, completion, responses]
    exact awake.due tick
  handles started := by
    rw [Handles, sim, work, request]
    exact awake.handles started
  sorted := responses ▸ awake.sorted
  line := requests ▸ awake.line

theorem Awake.collect (awake : host.Awake log) (i : Nat) :
    (host.collect i).1.Awake (log ++ (host.collect i).2) := by
  simp only [Host.collect]
  split
  · constructor
    · exact awake.order
    · exact ⟨awake.apart.work_request, awake.apart.work_completion,
        awake.apart.request_completion⟩
    · exact awake.due
    · intro started
      exact awake.handles (by simpa using started)
    · exact awake.sorted
    · rw [leftFrom_append, leftFrom_append, awake.line, List.map_append]
      simp [leftFrom, moves, Happening.move]
  · rw [List.append_nil]
    exact awake

theorem Awake.collectAll (slots : List Nat) (happened : List Happening)
    (awake : host.Awake (log ++ happened)) :
    let found := slots.foldl
      (fun (found : Host × List Happening) i =>
        ((found.1.collect i).1, found.2 ++ (found.1.collect i).2))
      (host, happened)
    found.1.Awake (log ++ found.2) := by
  induction slots generalizing host happened with
  | nil => exact awake
  | cons slot slots induction =>
      apply induction
      have collected := awake.collect slot
      rw [List.append_assoc] at collected
      exact collected

theorem Awake.switchUIC {opcode : UInt32} (awake : host.Awake log)
    (done : host.switchUIC opcode = .ok next) :
    next.Awake log ∧ (opcode = DME_LINKSTARTUP → next.Handles) := by
  simp only [Host.switchUIC] at done
  split at done
  · obtain ⟨sim, scheduled, rfl⟩ := schedule_ok done
    have order := (awake.order.perform scheduled).1
    have request := leaves_of_foreign awake.order scheduled
      awake.apart.work_request
    have completion := leaves_of_foreign awake.order scheduled
      awake.apart.work_completion
    obtain ⟨now, own⟩ := awake.order.own scheduled
    have handles : Handles { host with sim := sim } :=
      ⟨_, .inl ((own _).mpr rfl)⟩
    refine ⟨⟨order, ⟨awake.apart.work_request, awake.apart.work_completion,
      awake.apart.request_completion⟩, ?_, fun _ => handles, awake.sorted,
      awake.line⟩, fun _ => handles⟩
    exact awake.due.leaves order completion
  · next other =>
      have other : opcode = DME_LINKSTARTUP → next.Handles :=
        fun same => absurd same other
      split at done
      · cases done
        exact ⟨awake.copy rfl rfl rfl rfl rfl rfl, other⟩
      · cases done
        exact ⟨awake, other⟩

theorem Awake.processUIC (awake : host.Awake log)
    (done : host.processUIC = .ok (next, happenings)) :
    next.Awake (log ++ happenings) := by
  obtain ⟨middle, started, done⟩ := bind_ok done
  cases done
  obtain ⟨awake, handles⟩ := Awake.switchUIC
    (show Awake { host with register_table.ucmdarg2 := ERR_SUCCESS } log from
      awake.copy rfl rfl rfl rfl rfl rfl) started
  have quiet : Quiet ((if host.register_table.uiccmdr &&& 0xFF =
      DME_LINKSTARTUP then [Happening.linkStartup] else []) ++
        [.generateInterrupt]) := by
    split <;> exact ⟨rfl, rfl⟩
  refine ⟨awake.order, ⟨awake.apart.work_request,
    awake.apart.work_completion, awake.apart.request_completion⟩, awake.due,
    ?_, awake.sorted, ?_⟩
  · intro member
    rcases List.mem_append.mp member with earlier | now
    · exact awake.handles earlier
    · apply handles
      by_contra other
      rw [if_neg other] at now
      simp at now
  · rw [quiet.idle, quiet.queued]
    exact awake.line

theorem Awake.quiet (awake : host.Awake log) (quiet : Quiet happenings)
    (unstarted : .linkStartup ∉ happenings) :
    host.Awake (log ++ happenings) :=
  awake.commands quiet unstarted

theorem Awake.writeRegister {offset data : UInt32} (awake : host.Awake log)
    (done : host.writeRegister offset data = .ok (next, happenings)) :
    next.Awake (log ++ happenings) := by
  simp only [Host.writeRegister] at done
  split at done
  · have same := Except.ok.inj done
    have ringing : Awake { host with
        register_table.utrldbr := host.register_table.utrldbr ||| data }
        (log ++ []) := by
      rw [List.append_nil]
      exact awake.copy rfl rfl rfl rfl rfl rfl
    have collected : Awake
        (Host.processUTPTransfer { host with
          register_table.utrldbr := host.register_table.utrldbr ||| data }).1
        (log ++ (Host.processUTPTransfer { host with
          register_table.utrldbr :=
            host.register_table.utrldbr ||| data }).2) :=
      Awake.collectAll (List.range 32) [] ringing
    rw [same] at collected
    exact collected
  · split at done
    · cases done
    · split at done
      · refine Awake.processUIC ?_ done
        exact awake.copy rfl rfl rfl rfl rfl rfl
      · cases done
        refine Awake.quiet ?_ ?_ ?_
        · exact awake.copy rfl rfl rfl rfl rfl rfl
        · split <;> exact ⟨rfl, rfl⟩
        · split <;> simp

theorem taken_cases {sim after : Sim.Run} (order : sim.InOrder)
    (idle : sim.running = []) (done : sim.perform .doNextEvent = .ok after) :
    after.running = [] ∧ (∀ event, Leaves event sim after) ∨
      ∃ event, after.running = [event] ∧
        (∀ other, other ≠ event → Leaves other sim after) ∧
        ∀ tick : UInt64, ⟨event, tick⟩ ∉ after.engine.eventQueue := by
  have later := (order.perform done).2
  rcases order.takes done with ⟨same, engine⟩ | ⟨entry, entered, queue, now⟩
  · left
    refine ⟨same.trans idle, fun event => ⟨later, fun tick => ?_⟩⟩
    rw [engine]
  · right
    refine ⟨entry.first, by rw [entered, idle], ?_, ?_⟩
    · intro other different
      refine ⟨later, fun tick => ?_⟩
      rw [queue, List.mem_cons]
      constructor
      · exact Or.inr
      · intro member
        rcases member with equal | member
        · exact absurd (congrArg Sim.Entry.first equal) different
        · exact member
    · intro tick member
      have unique := order.ordered.unique
      rw [queue, List.map_cons, List.nodup_cons] at unique
      exact unique.1 (List.mem_map.mpr ⟨_, member, rfl⟩)

theorem scheduleNext_ok {tick : UInt64}
    (done : host.scheduleNext tick = .ok next) :
    ∃ sim event due, (event = host.workEvent ∨ event = host.requestEvent) ∧
      host.sim.perform (.scheduleEvent event due) = .ok sim ∧
      next = { host with sim := sim } := by
  simp only [scheduleNext] at done
  split at done
  · obtain ⟨sim, put, same⟩ := schedule_ok done
    exact ⟨sim, _, _, .inr rfl, put, same⟩
  · obtain ⟨sim, put, same⟩ := schedule_ok done
    exact ⟨sim, _, _, .inl rfl, put, same⟩

theorem fetch_ok (host : Host) :
    (∃ requests commands counter, host.fetch.1 = { host with
      lRequestQueue := requests
      commands := commands
      requestCounter := counter }) ∧
    leftFrom .idle host.fetch.2 = [] ∧
    leftFrom .queued host.fetch.2 ++ host.fetch.1.lRequestQueue.map bit =
      host.lRequestQueue.map bit := by
  cases queue : host.lRequestQueue with
  | nil =>
      simp only [Host.fetch, queue]
      exact ⟨⟨_, _, _, rfl⟩, rfl, rfl⟩
  | cons index rest =>
      simp only [Host.fetch, queue]
      exact ⟨⟨_, _, _, rfl⟩, rfl, rfl⟩

/-- The function of the work or of the request event has been entered. -/
theorem handleRequest_awake
    (done : host.handleRequest = .ok (next, happenings))
    (order : host.sim.InOrder) (apart : host.Apart)
    (due : host.Due)
    (sorted : host.lResponseQueue.Pairwise fun first second =>
      first.finishedAt ≤ second.finishedAt)
    (line : leftFrom .idle log =
      leftFrom .queued log ++ host.lRequestQueue.map bit) :
    next.Awake (log ++ happenings) := by
  simp only [Host.handleRequest] at done
  obtain ⟨middle, scheduled, done⟩ := bind_ok done
  cases done
  obtain ⟨⟨requests, commands, counter, fetched⟩, rung, taken⟩ :=
    fetch_ok host
  have lined : leftFrom .idle (log ++ host.fetch.2) =
      leftFrom .queued (log ++ host.fetch.2) ++
        host.fetch.1.lRequestQueue.map bit := by
    rw [leftFrom_append, leftFrom_append, rung, List.append_nil,
      List.append_assoc, taken, line]
  rw [fetched] at scheduled lined
  obtain ⟨sim, event, tick, which, put, rfl⟩ := scheduleNext_ok scheduled
  obtain ⟨_, own⟩ := order.own put
  have there := (own _).mpr rfl
  refine ⟨(order.perform put).1, ⟨apart.work_request, apart.work_completion,
    apart.request_completion⟩, ?_, ?_, sorted, lined⟩
  · apply due.leaves (order.perform put).1
    apply leaves_of_foreign order put
    rcases which with rfl | rfl
    · exact apart.work_completion
    · exact apart.request_completion
  · intro _
    rcases which with rfl | rfl
    · exact ⟨_, .inl there⟩
    · exact ⟨_, .inr there⟩

theorem clear_fold (popped : List Completion) (host : Host) :
    ∃ utrldbr pending, popped.foldl Host.clear host = { host with
      register_table.utrldbr := utrldbr
      pendingInterrupt := pending } := by
  induction popped generalizing host with
  | nil => exact ⟨_, _, rfl⟩
  | cons iter popped induction =>
      obtain ⟨utrldbr, pending, same⟩ := induction (host.clear iter)
      exact ⟨utrldbr, pending, same⟩

theorem post_ok (host : Host) (count : Nat) :
    (∃ is, (host.post count).1 = { host with register_table.is := is }) ∧
      Quiet (host.post count).2 ∧ .linkStartup ∉ (host.post count).2 := by
  simp only [post]
  split
  · exact ⟨⟨_, rfl⟩, ⟨rfl, rfl⟩, by simp⟩
  · exact ⟨⟨_, rfl⟩, ⟨rfl, rfl⟩, by simp⟩

theorem completion_awake
    (done : host.completion = .ok (next, happenings))
    (order : host.sim.InOrder) (apart : host.Apart)
    (none : ∀ tick : UInt64,
      ⟨host.completionEvent, tick⟩ ∉ host.sim.engine.eventQueue)
    (handles : Happening.linkStartup ∈ log → host.Handles)
    (sorted : host.lResponseQueue.Pairwise fun first second =>
      first.finishedAt ≤ second.finishedAt)
    (line : leftFrom .idle log =
      leftFrom .queued log ++ host.lRequestQueue.map bit) :
    next.Awake (log ++ happenings) := by
  simp only [Host.completion] at done
  obtain ⟨middle, scheduled, done⟩ := bind_ok done
  cases done
  have queue := popFinished_append host.getTick [] host.lResponseQueue
  rw [List.nil_append] at queue
  generalize (popFinished host.getTick [] host.lResponseQueue).1 = popped
    at queue scheduled ⊢
  generalize (popFinished host.getTick [] host.lResponseQueue).2 = rest
    at queue scheduled ⊢
  obtain ⟨utrldbr, pending, cleared⟩ := clear_fold popped
    { host with lResponseQueue := rest }
  rw [cleared] at scheduled ⊢
  obtain ⟨⟨is, posted⟩, still, unstarted⟩ := post_ok { host with
    lResponseQueue := rest
    register_table.utrldbr := utrldbr
    pendingInterrupt := pending } popped.length
  rw [posted] at scheduled
  obtain ⟨later, due, ⟨sim, rfl⟩, others⟩ := scheduleTop_due scheduled order
    fun _ => none
  have quiet : Quiet (popped.map fun iter =>
      Happening.moved iter.bitmask .completing) := by
    apply quiet_of_moves
    intro move member
    obtain ⟨happening, listed, moved⟩ := List.mem_filterMap.mp member
    obtain ⟨iter, _, rfl⟩ := List.mem_map.mp listed
    cases moved
    simp
  rw [queue.symm] at sorted
  rw [← List.append_assoc]
  refine ⟨later, ⟨apart.work_request, apart.work_completion,
    apart.request_completion⟩, due, ?_, (List.pairwise_append.mp sorted).2.1,
    ?_⟩
  · intro member
    have started : .linkStartup ∈ log := by
      rcases List.mem_append.mp member with earlier | now
      · simpa using earlier
      · exact absurd now unstarted
    exact (handles started).leaves (others _ apart.work_completion)
      (others _ apart.request_completion)
  · rw [still.idle, still.queued, quiet.idle, quiet.queued]
    exact line

theorem Awake.handle {sim : Sim.Run} {event : Sim.Event}
    (awake : host.Awake log) (order : sim.InOrder)
    (leaves : ∀ other, other ≠ event → Leaves other host.sim sim)
    (gone : ∀ tick : UInt64, ⟨event, tick⟩ ∉ sim.engine.eventQueue)
    (own : event = host.workEvent ∨ event = host.requestEvent ∨
      event = host.completionEvent)
    (done : Host.handle { host with sim := sim } event =
      .ok (next, happenings)) : next.Awake (log ++ happenings) := by
  have apart := awake.apart
  simp only [Host.handle] at done
  split at done
  · next same =>
      refine handleRequest_awake done order ⟨apart.work_request,
        apart.work_completion, apart.request_completion⟩ ?_ awake.sorted
        awake.line
      exact awake.due.leaves order
        (leaves _ (same ▸ apart.work_completion.symm))
  · next other =>
      split at done
      · next same =>
          refine handleRequest_awake done order ⟨apart.work_request,
            apart.work_completion, apart.request_completion⟩ ?_ awake.sorted
            awake.line
          exact awake.due.leaves order
            (leaves _ (same ▸ apart.request_completion.symm))
      · next another =>
          have same := (own.resolve_left other).resolve_left another
          refine completion_awake done order ⟨apart.work_request,
            apart.work_completion, apart.request_completion⟩ (same ▸ gone) ?_
            awake.sorted awake.line
          intro started
          exact (awake.handles started).leaves
            (leaves _ (same ▸ apart.work_completion))
            (leaves _ (same ▸ apart.request_completion))

theorem Awake.doNextEvent (awake : host.Awake log)
    (idle : host.sim.running = [])
    (done : host.doNextEvent = .ok (next, happenings)) :
    next.Awake (log ++ happenings) := by
  simp only [Host.doNextEvent] at done
  obtain ⟨sim, taken, done⟩ := bind_ok done
  have taken := Sim.mapError_ok taken
  have order := (awake.order.perform taken).1
  rcases taken_cases awake.order idle taken with
    ⟨running, leaves⟩ | ⟨event, running, leaves, gone⟩
  · simp only [running] at done
    cases done
    rw [List.append_nil]
    exact awake.leaves order (leaves _) (leaves _) (leaves _)
  · simp only [running] at done
    split at done
    · next own =>
        obtain ⟨⟨middle, happened⟩, handled, done⟩ := bind_ok done
        obtain ⟨after, returned, done⟩ := bind_ok done
        cases done
        have awake := awake.handle order leaves gone (by simpa [owns] using own)
          handled
        have returned := Sim.mapError_ok returned
        obtain ⟨_, now, queue⟩ := Sim.returned_of_call returned
        have leaves (event : Sim.Event) : Leaves event middle.sim after :=
          ⟨by rw [now]; exact UInt64.le_refl _, fun tick => by rw [queue]⟩
        exact awake.leaves (awake.order.perform returned).1 (leaves _)
          (leaves _) (leaves _)
    · next foreign =>
        cases done
        rw [List.append_nil]
        have foreign : event ≠ host.workEvent ∧ event ≠ host.requestEvent ∧
            event ≠ host.completionEvent := by
          simpa [owns] using foreign
        exact awake.leaves order (leaves _ foreign.1.symm)
          (leaves _ foreign.2.1.symm) (leaves _ foreign.2.2.symm)

theorem Awake.perform {step : Step} (awake : host.Awake log)
    (suits : host.Suits step)
    (done : host.perform step = .ok (next, happenings)) :
    next.Awake (log ++ happenings) := by
  cases step with
  | call call =>
      obtain ⟨sim, called, done⟩ := bind_ok done
      cases done
      have called := Sim.mapError_ok called
      rw [List.append_nil]
      exact awake.leaves (awake.order.perform called).1
        (leaves_of_foreign awake.order called suits.2.1)
        (leaves_of_foreign awake.order called suits.2.2.1)
        (leaves_of_foreign awake.order called suits.2.2.2)
  | writeRegister offset data => exact awake.writeRegister done
  | descriptorRead place desc =>
      exact awake.returns (descriptorRead_returns done)
  | requestRead place buffer memory =>
      exact awake.returns (requestRead_returns done)
  | prdtRead place memory => exact awake.returns (prdtRead_returns done)
  | processed place => exact awake.returns (processed_returns done)
  | responseWritten place => exact awake.returns (responseWritten_returns done)
  | descriptorWritten place now => exact awake.descriptorWritten done
  | doNextEvent => exact awake.doNextEvent suits done

theorem make_awake {device : Device} {maxRequest workInterval : UInt64}
    {sim : Sim.Run} (order : sim.InOrder)
    (made : make device maxRequest workInterval sim = .ok host) :
    host.Awake [] := by
  obtain ⟨first, allocated₁, made⟩ := bind_ok made
  obtain ⟨second, allocated₂, made⟩ := bind_ok made
  obtain ⟨third, allocated₃, made⟩ := bind_ok made
  cases made
  have last := (((order.perform allocated₁).1.perform allocated₂).1.perform
    allocated₃).1
  obtain ⟨_, queue₁, list₁⟩ := Sim.allocated_of_call allocated₁
  obtain ⟨_, queue₂, list₂⟩ := Sim.allocated_of_call allocated₂
  obtain ⟨_, queue₃, list₃⟩ := Sim.allocated_of_call allocated₃
  have keys := last.ordered.keys
  rw [list₃, list₂, list₁] at keys
  simp only [List.nodup_cons, List.mem_cons, not_or] at keys
  constructor
  · exact last
  · exact ⟨Ne.symm keys.2.1.1, Ne.symm keys.1.2.1, Ne.symm keys.1.1⟩
  · intro tick
    simp only [List.head?_nil, false_and, exists_false, iff_false,
      reduceCtorEq]
    rw [queue₃, queue₂, queue₁]
    intro member
    exact keys.1.2.2 (order.ordered.allocated _ member)
  · intro started
    cases started
  · exact List.Pairwise.nil
  · rfl

theorem Reaches.awake {device : Device} {maxRequest workInterval : UInt64}
    {sim : Sim.Run} (order : sim.InOrder)
    (made : make device maxRequest workInterval sim = .ok host)
    (reaches : Reaches host log next) : next.Awake log := by
  induction reaches with
  | start => exact make_awake order made
  | step earlier suits performed induction =>
      exact induction.perform suits performed

/-- In every run requests are taken in the order they were rung in; once the
link is up there is always an event that takes the next one; and while
requests wait for their completion, its event is due as soon as the first of
them is finished, and not otherwise. -/
theorem requests_wake {device : Device} {maxRequest workInterval : UInt64}
    {sim : Sim.Run} (order : sim.InOrder)
    (made : make device maxRequest workInterval sim = .ok host)
    (reaches : Reaches host log next) :
    leftFrom .idle log =
        leftFrom .queued log ++ next.lRequestQueue.map bit ∧
      (Happening.linkStartup ∈ log → next.Handles) ∧
      next.Due ∧
      next.lResponseQueue.Pairwise (fun first second =>
        first.finishedAt ≤ second.finishedAt) := by
  have awake := reaches.awake order made
  exact ⟨awake.line, awake.handles, awake.due, awake.sorted⟩

/-- Three slots are rung and two of them are fetched; the second is written
back first. -/
def twoWaiting : List Step :=
  [.writeRegister 0x90 0x16, .writeRegister 0x58 7, .doNextEvent, .doNextEvent,
    .descriptorRead 0 testDesc, .descriptorRead 1 testDesc,
    .requestRead 0 testUnit noQuery, .requestRead 1 testUnit noQuery,
    .processed 0, .responseWritten 0, .processed 1, .responseWritten 1,
    .descriptorWritten 0 20, .descriptorWritten 0 14]

theorem requests_wake_twoWaiting :
    ∃ (log : List Happening) (next : Host), Reaches fresh log next ∧
      leftFrom .idle log = [1, 2, 4] ∧ leftFrom .queued log = [1, 2] ∧
      next.lRequestQueue.map bit = [4] ∧ next.Handles ∧
      next.lResponseQueue.map Completion.finishedAt = [14, 20] ∧
      ⟨next.completionEvent, 14⟩ ∈ next.sim.engine.eventQueue := by
  have suits : fresh.SuitsAll twoWaiting := by decide +kernel
  have waits : (twoWaiting.foldlM proceed (fresh, [])).toOption.any
      (fun reached => Happening.linkStartup ∈ reached.2 ∧
        leftFrom .queued reached.2 = [1, 2] ∧
        reached.1.lRequestQueue = [2] ∧ reached.1.getTick = 12 ∧
        reached.1.lResponseQueue.map Completion.finishedAt = [14, 20]) =
      true := by
    decide +kernel
  obtain ⟨⟨next, log⟩, run, found⟩ := (Option.any_eq_true _ _).mp waits
  obtain ⟨linked, fetched, queue, now, finished⟩ := of_decide_eq_true found
  dsimp only at linked fetched queue now finished
  have reaches : Reaches fresh log next :=
    reaches_proceed suits (toOption_ok run)
  obtain ⟨line, handles, due, -⟩ :=
    requests_wake Sim.Run.start_inOrder make_fresh reaches
  have rest : next.lRequestQueue.map bit = [4] := by
    rw [queue]
    rfl
  rw [fetched, rest] at line
  refine ⟨log, next, reaches, line, fetched, rest, handles linked, finished,
    (due 14).mpr ?_⟩
  cases tops : next.lResponseQueue with
  | nil =>
      rw [tops] at finished
      cases finished
  | cons top others =>
      rw [tops] at finished
      refine ⟨top, rfl, ?_⟩
      rw [(List.cons.inj finished).1, now]
      rfl

end Host

end SimpleSSD.HIL.UFS
