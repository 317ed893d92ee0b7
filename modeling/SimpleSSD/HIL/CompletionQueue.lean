import SimpleSSD.Sim.Calls

namespace SimpleSSD.HIL

open Sim (Event)

inductive Operation where
  | read
  | write
  | flush
  | trim
  | format (erase : Bool)
  deriving DecidableEq, Repr

/-- A `Request`: its number among those that arrived stands for its function
and context. -/
structure Request where
  number : Nat
  reqID : UInt64
  finishedAt : UInt64
  deriving DecidableEq, Repr

structure Called where
  request : Request
  tick : UInt64
  deriving DecidableEq, Repr

inductive Phase where
  | idle
  /-- Before the test of the loop. -/
  | looping
  /-- In the function of a request that is not popped yet. -/
  | calling (request : Request)
  deriving DecidableEq, Repr

/-- `HIL`, on the engine and with the history of its requests. -/
structure HostInterface where
  sim : Sim.Run
  completionEvent : Event
  reqCount : UInt64
  lastScheduled : UInt64
  completionQueue : List Request
  phase : Phase
  arrived : List Request
  called : List Called

namespace HostInterface

def make (sim : Sim.Run) : Option HostInterface := do
  let sim ← (sim.perform .allocateEvent).toOption
  pure {
    sim := sim
    completionEvent := sim.engine.counter
    reqCount := 0
    lastScheduled := 0
    completionQueue := []
    phase := .idle
    arrived := []
    called := [] }

def tick (hil : HostInterface) : UInt64 :=
  hil.sim.engine.simTick

/-- The ordering of `completionQueue`: the standard leaves open which of the
requests that finish first is at the top. -/
def IsTop (hil : HostInterface) (request : Request) : Prop :=
  request ∈ hil.completionQueue ∧
    ∀ other ∈ hil.completionQueue, request.finishedAt ≤ other.finishedAt

instance (hil : HostInterface) (request : Request) :
    Decidable (hil.IsTop request) :=
  inferInstanceAs (Decidable (_ ∧ _))

def topFinishedAt (hil : HostInterface) : Option UInt64 :=
  (hil.completionQueue.map Request.finishedAt).min?

def updateCompletion (hil : HostInterface) : Option HostInterface :=
  match hil.topFinishedAt with
  | none => some hil
  | some finishedAt =>
      if hil.lastScheduled ≠ finishedAt then do
        let sim ← (hil.sim.perform
          (.scheduleEvent hil.completionEvent finishedAt)).toOption
        pure { hil with sim := sim, lastScheduled := finishedAt }
      else
        some hil

/-- All but `format` number the request. -/
def nextID (hil : HostInterface) : Operation → UInt64
  | .format _ => hil.reqCount
  | _ => hil.reqCount + 1

def givenID (hil : HostInterface) : Operation → UInt64
  | .format _ => 0
  | _ => hil.reqCount + 1

/-- The functions that `read`, `write`, `flush`, `trim` and `format` hand to
the CPU; the ICL says when the request is finished. -/
def arrive (hil : HostInterface) (operation : Operation) (finishedAt : UInt64) :
    Option HostInterface :=
  let request : Request :=
    { number := hil.arrived.length
      reqID := hil.givenID operation
      finishedAt := finishedAt }
  updateCompletion
    { hil with
      reqCount := hil.nextID operation
      completionQueue := hil.completionQueue ++ [request]
      arrived := hil.arrived ++ [request] }

end HostInterface

inductive Step where
  /-- A call of another component to the engine. -/
  | others (call : Sim.Call)
  /-- The engine takes its next event. -/
  | doNextEvent
  /-- The CPU runs the function of a request. -/
  | arrive (operation : Operation) (finishedAt : UInt64)
  /-- A round of the loop of `completion` calls the function of the top. -/
  | call (request : Request)
  /-- The function returns and the request is popped. -/
  | pop
  /-- The loop of `completion` ends. -/
  | leave
  deriving DecidableEq, Repr

namespace HostInterface

/-- The state after a step, or `none` where the step cannot be taken. A
request arrives between events or within the function of another one. -/
def perform (hil : HostInterface) : Step → Option HostInterface
  | .others call =>
      if call.Foreign hil.completionEvent ∧ hil.phase ≠ .looping then do
        let sim ← (hil.sim.perform call).toOption
        pure { hil with sim := sim }
      else
        none
  | .doNextEvent =>
      if hil.phase = .idle then do
        let sim ← (hil.sim.perform .doNextEvent).toOption
        pure { hil with
          sim := sim
          phase :=
            if sim.running = hil.completionEvent :: hil.sim.running then
              .looping
            else
              .idle }
      else
        none
  | .arrive operation finishedAt =>
      if hil.phase ≠ .looping ∧ hil.tick ≤ finishedAt then
        hil.arrive operation finishedAt
      else
        none
  | .call request =>
      if hil.phase = .looping ∧ hil.IsTop request ∧
          request.finishedAt ≤ hil.tick then
        some { hil with
          phase := .calling request
          called := hil.called ++ [⟨request, hil.tick⟩] }
      else
        none
  | .pop =>
      match hil.phase with
      | .calling request =>
          some { hil with
            phase := .looping
            completionQueue := hil.completionQueue.erase request }
      | _ => none
  | .leave =>
      if hil.phase = .looping ∧
          ∀ request ∈ hil.completionQueue, hil.tick < request.finishedAt then do
        let hil ← hil.updateCompletion
        let sim ← (hil.sim.perform .eventReturned).toOption
        pure { hil with sim := sim, phase := .idle }
      else
        none

def performAll (hil : HostInterface) (steps : List Step) : Option HostInterface :=
  steps.foldlM perform hil

end HostInterface

end SimpleSSD.HIL
