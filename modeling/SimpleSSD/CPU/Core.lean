import SimpleSSD.Sim.Calls

set_option linter.dupNamespace false

namespace SimpleSSD.CPU

/-! The processors of the device: a job holds a core for its latency, and its
function is called at the end. -/

structure InstStat where
  branch : UInt64
  load : UInt64
  store : UInt64
  arithmetic : UInt64
  floatingPoint : UInt64
  otherInsts : UInt64
  latency : UInt64
  deriving DecidableEq, Repr

namespace InstStat

def zero : InstStat := ⟨0, 0, 0, 0, 0, 0, 0⟩

def sum (inst : InstStat) : UInt64 :=
  inst.branch + inst.load + inst.store + inst.arithmetic + inst.floatingPoint +
    inst.otherInsts

def make (b l s a f o c : UInt64) : InstStat :=
  let inst : InstStat := ⟨b, l, s, a, f, o, 0⟩
  { inst with latency := inst.sum * c }

/-- `operator+=`; the latencies are not added up. -/
def add (inst rhs : InstStat) : InstStat where
  branch := inst.branch + rhs.branch
  load := inst.load + rhs.load
  store := inst.store + rhs.store
  arithmetic := inst.arithmetic + rhs.arithmetic
  floatingPoint := inst.floatingPoint + rhs.floatingPoint
  otherInsts := inst.otherInsts + rhs.otherInsts
  latency := inst.latency

end InstStat

inductive Namespace where
  | ftl
  | ftlPageMapping
  | icl
  | iclGenericCache
  | hil
  | nvmeController
  | nvmePRPList
  | nvmeSGL
  | nvmeSubsystem
  | nvmeNamespace
  | nvmeOCSSD
  | ufsDevice
  | sataDevice
  deriving DecidableEq, Repr

inductive Group where
  | hil
  | icl
  | ftl
  deriving DecidableEq, Repr

def Namespace.group : Namespace → Group
  | .ftl | .ftlPageMapping => .ftl
  | .icl | .iclGenericCache => .icl
  | .hil | .nvmeController | .nvmePRPList | .nvmeSGL | .nvmeSubsystem
  | .nvmeNamespace | .nvmeOCSSD | .ufsDevice | .sataDevice => .hil

/-- `func` stands for the function and its context. -/
structure JobEntry where
  func : Nat
  inst : InstStat
  submitAt : UInt64
  delay : UInt64
  deriving DecidableEq, Repr

structure CoreStat where
  instStat : InstStat
  busy : UInt64
  deriving DecidableEq, Repr

def CoreStat.add (stat : CoreStat) (inst : InstStat) : CoreStat where
  instStat := stat.instStat.add inst
  busy := stat.busy + inst.latency

structure Core where
  busy : Bool
  jobEvent : Sim.Event
  jobs : List JobEntry
  stat : CoreStat
  deriving DecidableEq, Repr

inductive Panic where
  | engine (panic : Sim.Panic)
  | functionMissing (ns : Namespace) (fct : UInt16)
  /-- `front` of an empty queue, `at` beyond the end. -/
  | undefined
  deriving DecidableEq, Repr

def Panic.message : Panic → String
  | .engine panic => panic.message
  | .functionMissing _ _ => "Namespace %u does not have function %u"
  | .undefined => ""

def JobEntry.finishedAt (iter : JobEntry) (now : UInt64) : UInt64 :=
  let diff := now - iter.submitAt
  if diff ≥ iter.delay then
    now + iter.inst.latency
  else
    now + iter.inst.latency + iter.delay - diff

namespace Core

def make (jobEvent : Sim.Event) : Core where
  busy := false
  jobEvent := jobEvent
  jobs := []
  stat := ⟨.zero, 0⟩

def handleJob (core : Core) (sim : Sim.Run) :
    Except Panic (Core × Sim.Run) := do
  let some iter := core.jobs.head? | throw .undefined
  let finishedAt := iter.finishedAt sim.engine.simTick
  let sim ← (sim.perform (.scheduleEvent core.jobEvent finishedAt)).mapError
    .engine
  pure ({ core with busy := true }, sim)

def submitJob (core : Core) (job : JobEntry) (delay : UInt64)
    (sim : Sim.Run) : Except Panic (Core × Sim.Run) :=
  let job :=
    { job with delay := delay, submitAt := sim.engine.simTick }
  let core := { core with jobs := core.jobs ++ [job] }
  if core.busy then
    pure (core, sim)
  else
    core.handleJob sim

/-- `jobDone` after `func` has returned. -/
def jobDone (core : Core) (sim : Sim.Run) : Except Panic (Core × Sim.Run) := do
  let some iter := core.jobs.head? | throw .undefined
  let core := { core with
    stat := core.stat.add iter.inst
    jobs := core.jobs.tail
    busy := false }
  if core.jobs.length > 0 then
    core.handleJob sim
  else
    pure (core, sim)

def addStat (core : Core) (inst : InstStat) : Core :=
  { core with stat := core.stat.add inst }

end Core

/-- The first of the idle cores with the least busy time; the last of those
with the fewest jobs where none is idle. -/
def leastBusyCPU (list : List Core) : Nat :=
  let idle := list.zipIdx.foldl
    (fun (found : Nat × UInt64) (entry : Core × Nat) =>
      if !entry.1.busy && entry.1.stat.busy < found.2 then
        (entry.2, entry.1.stat.busy)
      else found)
    (list.length, 0xFFFFFFFFFFFFFFFF)
  if idle.1 = list.length then
    (list.zipIdx.foldl
      (fun (found : Nat × Nat) (entry : Core × Nat) =>
        if entry.1.jobs.length ≤ found.2 then
          (entry.2, entry.1.jobs.length)
        else found)
      (idle.1, 0xFFFFFFFFFFFFFFFF)).1
  else
    idle.1

inductive Happening where
  | submitted (group : Group) (index : Nat) (job : JobEntry)
  | called (group : Group) (index : Nat) (func : Nat) (tick : UInt64)
  /-- There is no core for the function. -/
  | direct (func : Nat) (tick : UInt64)
  /-- `jobDone` has returned. -/
  | done (group : Group) (index : Nat) (inst : InstStat)
  | applied (group : Group) (index : Nat) (inst : InstStat)
  deriving DecidableEq, Repr

structure CPU where
  sim : Sim.Run
  cpi : Namespace → UInt16 → Option InstStat
  core : Group → List Core

namespace CPU

def setCore (cpu : CPU) (group : Group) (index : Nat) (core : Core)
    (sim : Sim.Run) : CPU :=
  { cpu with
    sim := sim
    core := fun other =>
      if other = group then (cpu.core group).set index core
      else cpu.core other }

def allocateCores : Nat → Sim.Run → Except Sim.Panic (List Core × Sim.Run)
  | 0, sim => pure ([], sim)
  | count + 1, sim => do
      let sim ← sim.perform .allocateEvent
      let (cores, rest) ← allocateCores count sim
      pure (.make sim.engine.counter :: cores, rest)

def make (cpi : Namespace → UInt16 → Option InstStat) (hil icl ftl : Nat)
    (sim : Sim.Run) : Except Sim.Panic CPU := do
  let (hilCore, sim) ← allocateCores hil sim
  let (iclCore, sim) ← allocateCores icl sim
  let (ftlCore, sim) ← allocateCores ftl sim
  pure {
    sim := sim
    cpi := cpi
    core := fun
      | .hil => hilCore
      | .icl => iclCore
      | .ftl => ftlCore }

/-- The core that is chosen, with its place and the instructions of the
function. -/
def find (cpu : CPU) (ns : Namespace) (fct : UInt16) :
    Except Panic (Nat × Core × InstStat) := do
  let index := leastBusyCPU (cpu.core ns.group)
  let some core := (cpu.core ns.group)[index]? | throw .undefined
  let some inst := cpu.cpi ns fct | throw (.functionMissing ns fct)
  pure (index, core, inst)

def execute (cpu : CPU) (ns : Namespace) (fct : UInt16) (func : Nat)
    (delay : UInt64) : Except Panic (CPU × List Happening) := do
  let now := cpu.sim.engine.simTick
  if (cpu.core ns.group).length > 0 then
    let (index, core, inst) ← cpu.find ns fct
    let job : JobEntry := ⟨func, inst, 0, 0⟩
    let (core, sim) ← core.submitJob job delay cpu.sim
    pure (cpu.setCore ns.group index core sim,
      [.submitted ns.group index
        { job with submitAt := now, delay := delay }])
  else
    pure (cpu, [.direct func now])

/-- The latency is for the caller to wait; the core is not kept busy. -/
def applyLatency (cpu : CPU) (ns : Namespace) (fct : UInt16) :
    Except Panic (CPU × UInt64 × List Happening) := do
  if (cpu.core ns.group).length > 0 then
    let (index, core, inst) ← cpu.find ns fct
    pure (cpu.setCore ns.group index (core.addStat inst) cpu.sim,
      inst.latency, [.applied ns.group index inst])
  else
    pure (cpu, 0, [])

def places (cpu : CPU) : List (Group × Nat) :=
  [Group.hil, .icl, .ftl].flatMap fun group =>
    (List.range (cpu.core group).length).map (group, ·)

def owner (cpu : CPU) (event : Sim.Event) : Option (Group × Nat) :=
  cpu.places.find? fun place =>
    (cpu.core place.1)[place.2]?.any (·.jobEvent = event)

inductive Step where
  /-- The rest of the device calls the engine. -/
  | call (call : Sim.Call)
  | execute (ns : Namespace) (fct : UInt16) (func : Nat) (delay : UInt64)
  | applyLatency (ns : Namespace) (fct : UInt16)
  | doNextEvent
  /-- The event function returns. -/
  | eventReturned
  deriving DecidableEq, Repr

/-- The engine takes an event; for that of a core `jobDone` calls the function
of its job. -/
def doNextEvent (cpu : CPU) : Except Panic (CPU × List Happening) := do
  let sim ← (cpu.sim.perform .doNextEvent).mapError .engine
  match sim.running.head?.bind cpu.owner with
  | none => pure ({ cpu with sim := sim }, [])
  | some (group, index) =>
      let some iter := (cpu.core group)[index]?.bind (·.jobs.head?)
        | throw .undefined
      pure ({ cpu with sim := sim },
        [.called group index iter.func sim.engine.simTick])

def eventReturned (cpu : CPU) : Except Panic (CPU × List Happening) := do
  match cpu.sim.running.head?.bind cpu.owner with
  | none =>
      let sim ← (cpu.sim.perform .eventReturned).mapError .engine
      pure ({ cpu with sim := sim }, [])
  | some (group, index) =>
      let some core := (cpu.core group)[index]? | throw .undefined
      let some iter := core.jobs.head? | throw .undefined
      let (core, sim) ← core.jobDone cpu.sim
      let sim ← (sim.perform .eventReturned).mapError .engine
      pure (cpu.setCore group index core sim,
        [.done group index iter.inst])

def perform (cpu : CPU) : Step → Except Panic (CPU × List Happening)
  | .call call => do
      let sim ← (cpu.sim.perform call).mapError .engine
      pure ({ cpu with sim := sim }, [])
  | .execute ns fct func delay => cpu.execute ns fct func delay
  | .applyLatency ns fct => do
      let (cpu, _, happenings) ← cpu.applyLatency ns fct
      pure (cpu, happenings)
  | .doNextEvent => cpu.doNextEvent
  | .eventReturned => cpu.eventReturned

/-- The others leave the events of the cores alone, and the engine takes an
event when the function of the last one has returned. -/
def Suits (cpu : CPU) : Step → Prop
  | .call call => call ≠ .doNextEvent ∧ call ≠ .eventReturned ∧
      ∀ group, ∀ core ∈ cpu.core group, call.Foreign core.jobEvent
  | .execute _ _ _ _ | .applyLatency _ _ => True
  | .doNextEvent => cpu.sim.running = []
  | .eventReturned => cpu.sim.running ≠ []

inductive Reaches (start : CPU) : List Happening → CPU → Prop where
  | start : Reaches start [] start
  | step {log before step after happenings}
      (earlier : Reaches start log before) (suits : before.Suits step)
      (performed : before.perform step = .ok (after, happenings)) :
      Reaches start (log ++ happenings) after

end CPU

end SimpleSSD.CPU
