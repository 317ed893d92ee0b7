import Mathlib.Tactic.Common
import SimpleSSD.Sim.Calls

namespace SimpleSSD.Sim

open Data

/-! What a component that is one of several sees of the engine. -/

variable {sim next : Run} {event : Event}

theorem mapError_ok {action : Except Panic α} {wrap : Panic → ε} {value : α}
    (done : action.mapError wrap = .ok value) : action = .ok value := by
  cases action with
  | error raised => cases done
  | ok result =>
      cases done
      rfl

theorem running_of_call {call : Call}
    (done : sim.perform call = .ok next) (stays : call ≠ .doNextEvent)
    (remains : call ≠ .eventReturned) : next.running = sim.running := by
  obtain ⟨made, make, rfl⟩ := Run.perform_ok done
  cases call with
  | doNextEvent => exact absurd rfl stays
  | eventReturned => exact absurd rfl remains
  | stopEngine =>
      cases make
      rfl
  | allocateEvent =>
      obtain ⟨engine, _, make⟩ := bind_ok make
      cases make
      rfl
  | scheduleEvent eid tick =>
      obtain ⟨engine, _, make⟩ := bind_ok make
      cases make
      rfl
  | descheduleEvent eid =>
      obtain ⟨engine, _, make⟩ := bind_ok make
      cases make
      rfl
  | deallocateEvent eid =>
      obtain ⟨engine, _, make⟩ := bind_ok make
      cases make
      rfl

theorem returned_of_call (done : sim.perform .eventReturned = .ok next) :
    next.running = sim.running.tail ∧
      next.engine.simTick = sim.engine.simTick ∧
      next.engine.eventQueue = sim.engine.eventQueue := by
  obtain ⟨made, make, rfl⟩ := Run.perform_ok done
  cases make
  simp only [Run.counted, Run.leave]
  split
  · next none => exact ⟨by rw [none]; rfl, rfl, rfl⟩
  · next some => exact ⟨by rw [some]; rfl, rfl, rfl⟩

theorem allocated_of_call (done : sim.perform .allocateEvent = .ok next) :
    next.running = sim.running ∧
      next.engine.eventQueue = sim.engine.eventQueue ∧
      next.engine.eventList = next.engine.counter :: sim.engine.eventList := by
  obtain ⟨made, make, rfl⟩ := Run.perform_ok done
  obtain ⟨engine, allocates, make⟩ := bind_ok make
  cases make
  obtain ⟨_, rfl⟩ := Engine.allocateEvent_ok allocates
  exact ⟨rfl, rfl, rfl⟩

structure Same (event : Event) (sim next : Run) : Prop where
  later : sim.engine.simTick ≤ next.engine.simTick
  outside : event ∉ sim.running → event ∉ next.running
  inside : sim.running = [event] →
    next.running = [event] ∧ next.engine.simTick = sim.engine.simTick
  queue : ∀ tick : UInt64, ⟨event, tick⟩ ∈ next.engine.eventQueue ↔
    ⟨event, tick⟩ ∈ sim.engine.eventQueue

theorem same_of_foreign {call : Call} (order : sim.InOrder)
    (done : sim.perform call = .ok next) (foreign : call.Foreign event)
    (returns : call ≠ .eventReturned) :
    Same event sim next := by
  obtain ⟨now, queue⟩ := order.foreign foreign done
  have running := running_of_call done
    (by intro taken; subst taken; exact foreign) returns
  constructor
  · rw [now]
    exact UInt64.le_refl _
  · rw [running]
    exact id
  · intro inside
    exact ⟨running.trans inside, now⟩
  · exact queue

theorem Same.refl (event : Event) (sim : Run) : Same event sim sim where
  later := UInt64.le_refl _
  outside := id
  inside inside := ⟨inside, rfl⟩
  queue _ := Iff.rfl

theorem Same.trans {middle : Run}
    (first : Same event sim middle) (second : Same event middle next) :
    Same event sim next where
  later := UInt64.le_trans first.later second.later
  outside outside := second.outside (first.outside outside)
  inside inside := by
    obtain ⟨running, now⟩ := first.inside inside
    obtain ⟨running, later⟩ := second.inside running
    exact ⟨running, later.trans now⟩
  queue tick := (second.queue tick).trans (first.queue tick)

theorem same_of_taken (order : sim.InOrder)
    (idle : sim.running = []) (taken : sim.perform .doNextEvent = .ok next)
    (other : next.running ≠ [event]) : Same event sim next := by
  have later := (order.perform taken).2
  rcases order.takes taken with ⟨same, engine⟩ | ⟨entry, entered, queue, now⟩
  · constructor
    · exact later
    · rw [same]
      exact id
    · rw [same, engine]
      exact fun inside => ⟨inside, rfl⟩
    · rw [engine]
      exact fun _ => Iff.rfl
  · rw [idle] at entered
    have different : event ≠ entry.first := by
      intro equal
      exact other (equal ▸ entered)
    constructor
    · exact later
    · rw [entered]
      simp [different]
    · intro inside
      rw [idle] at inside
      cases inside
    · intro tick
      rw [queue, List.mem_cons]
      constructor
      · exact Or.inr
      · intro member
        rcases member with equal | member
        · exact absurd (congrArg Entry.first equal) different
        · exact member

theorem same_of_returned
    (returned : sim.perform .eventReturned = .ok next)
    (other : sim.running ≠ [event]) : Same event sim next := by
  obtain ⟨running, now, queue⟩ := returned_of_call returned
  constructor
  · rw [now]
    exact UInt64.le_refl _
  · rw [running]
    exact mt List.mem_of_mem_tail
  · exact fun inside => absurd inside other
  · rw [queue]
    exact fun _ => Iff.rfl

end SimpleSSD.Sim
