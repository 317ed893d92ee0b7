import Mathlib.Data.List.Induction
import Mathlib.Data.List.Nodup
import Mathlib.Data.List.Pairwise
import SimpleSSD.CPU.Turns

set_option linter.dupNamespace false

namespace SimpleSSD.CPU

open Data

/-! What has happened to one core. -/

def Happening.place : Happening → Option (Group × Nat)
  | .submitted group index _ | .called group index _ _ | .done group index _
  | .applied group index _ => some (group, index)
  | .direct _ _ => none

variable (group : Group) (index : Nat)

def Happening.submittedJob : Happening → Option JobEntry
  | .submitted _ _ job => some job
  | _ => none

def Happening.calledFunction : Happening → Option (Nat × Nat)
  | .called _ _ func tick => some (func, tick.toNat)
  | _ => none

def Happening.doneInst : Happening → Option InstStat
  | .done _ _ inst => some inst
  | _ => none

def Happening.countedInst : Happening → Option InstStat
  | .done _ _ inst | .applied _ _ inst => some inst
  | _ => none

def pick (part : Happening → Option α) (log : List Happening) : List α :=
  (log.filter fun happening => happening.place = some (group, index)).filterMap
    part

def submittedTo (log : List Happening) : List JobEntry :=
  pick group index Happening.submittedJob log

def calledBy (log : List Happening) : List (Nat × Nat) :=
  pick group index Happening.calledFunction log

def doneBy (log : List Happening) : List InstStat :=
  pick group index Happening.doneInst log

def countedFor (log : List Happening) : List InstStat :=
  pick group index Happening.countedInst log

variable {group index}

theorem pick_append (part : Happening → Option α)
    (log happenings : List Happening) :
    pick group index part (log ++ happenings) =
      pick group index part log ++ pick group index part happenings := by
  simp [pick]

theorem pick_elsewhere {part : Happening → Option α}
    {happenings : List Happening}
    (elsewhere : ∀ happening ∈ happenings,
      happening.place ≠ some (group, index)) (log : List Happening) :
    pick group index part (log ++ happenings) = pick group index part log := by
  have none : happenings.filter (fun happening =>
      happening.place = some (group, index)) = [] := by
    simpa using elsewhere
  rw [pick_append]
  simp [pick, none]

theorem pick_one (part : Happening → Option α) (happening : Happening) :
    pick group index part [happening] =
      if happening.place = some (group, index) then (part happening).toList
      else [] := by
  split
  · next here =>
      simp only [pick, here, List.filter_cons, decide_true, if_true,
        List.filter_nil, List.filterMap_cons, List.filterMap_nil]
      cases part happening with
      | none => rfl
      | some value => rfl
  · next elsewhere => simp [pick, elsewhere]

theorem submittedTo_submitted (log : List Happening) (job : JobEntry) :
    submittedTo group index (log ++ [.submitted group index job]) =
      submittedTo group index log ++ [job] := by
  simp [submittedTo, pick_append, pick_one, Happening.place,
    Happening.submittedJob]

def Fits (log : List Happening) : Prop :=
  ∀ group index, ∀ time ∈ timetable (submittedTo group index log),
    time < 2 ^ 64

theorem doneWith_mem (before : List JobEntry) (job : JobEntry)
    (after : List JobEntry) :
    doneWith (before ++ [job]) ∈ timetable (before ++ job :: after) := by
  have parts : (before ++ job :: after).map JobEntry.task =
      before.map JobEntry.task ++ job.task :: after.map JobEntry.task := by
    simp
  rw [doneWith_concat]
  exact List.mem_of_getElem? (Task.finishes_eq parts)

theorem Fits.of_append {log happenings : List Happening}
    (fits : Fits (log ++ happenings)) : Fits log := by
  intro group index time member
  apply fits group index time
  rw [submittedTo, pick_append, timetable, List.map_append,
    Task.finishes_append]
  exact List.mem_append_left _ member

namespace CPU

structure Kept (cpu : CPU) (log : List Happening) : Prop where
  order : cpu.sim.InOrder
  one : cpu.sim.running.length ≤ 1
  apart : ∀ {group group' : Group} {index index' : Nat} {core core' : Core},
    (cpu.core group)[index]? = some core →
    (cpu.core group')[index']? = some core' →
    core.jobEvent = core'.jobEvent → (group, index) = (group', index')
  turn : ∀ {group : Group} {index : Nat} {core : Core},
    (cpu.core group)[index]? = some core →
    core.Turn cpu.sim (submittedTo group index log) (calledBy group index log)
      (doneBy group index log)
  came : ∀ {group : Group} {index : Nat}, ∀ job ∈ submittedTo group index log,
    job.submitAt ≤ cpu.sim.engine.simTick
  stat : ∀ {group : Group} {index : Nat} {core : Core},
    (cpu.core group)[index]? = some core →
    core.stat = (countedFor group index log).foldl CoreStat.add ⟨.zero, 0⟩

variable {cpu after : CPU} {log happenings : List Happening}
  {group : Group} {index : Nat} {core changed : Core} {next : Sim.Run}

theorem setCore_found {group' : Group} {index' : Nat} {other : Core}
    (found : ((cpu.setCore group index changed next).core group')[index']? =
      some other) :
    (group', index') = (group, index) ∧ other = changed ∨
      (group', index') ≠ (group, index) ∧
        (cpu.core group')[index']? = some other := by
  simp only [setCore] at found
  split at found
  · next same =>
      subst same
      rw [List.getElem?_set] at found
      split at found
      · next here =>
          subst here
          split at found
          · cases found
            exact .inl ⟨rfl, rfl⟩
          · cases found
      · next elsewhere =>
          refine .inr ⟨?_, found⟩
          intro equal
          exact elsewhere (Prod.mk.inj equal).2.symm
  · next elsewhere =>
      refine .inr ⟨?_, found⟩
      intro equal
      exact elsewhere (Prod.mk.inj equal).1

theorem Kept.step (kept : cpu.Kept log)
    (found : (cpu.core group)[index]? = some core)
    (moves : Moves core changed cpu.sim next)
    (one : next.running.length ≤ 1)
    (here : ∀ happening ∈ happenings, happening.place = some (group, index))
    (turn : changed.Turn next (submittedTo group index (log ++ happenings))
      (calledBy group index (log ++ happenings))
      (doneBy group index (log ++ happenings)))
    (came : ∀ job ∈ submittedTo group index happenings,
      job.submitAt ≤ next.engine.simTick)
    (stat : changed.stat =
      (countedFor group index happenings).foldl CoreStat.add core.stat) :
    (cpu.setCore group index changed next).Kept (log ++ happenings) := by
  have later : cpu.sim.engine.simTick ≤ next.engine.simTick := moves.now
  have elsewhere {group' : Group} {index' : Nat}
      (different : (group', index') ≠ (group, index)) :
      ∀ happening ∈ happenings, happening.place ≠ some (group', index') := by
    intro happening member equal
    rw [here happening member] at equal
    exact different (Option.some.inj equal).symm
  have event {group' : Group} {index' : Nat} {other : Core}
      (found' : ((cpu.setCore group index changed next).core group')[index']? =
        some other) :
      ∃ earlier, (cpu.core group')[index']? = some earlier ∧
        other.jobEvent = earlier.jobEvent := by
    rcases setCore_found found' with ⟨same, rfl⟩ | ⟨_, kept'⟩
    · cases same
      exact ⟨core, found, moves.event⟩
    · exact ⟨other, kept', rfl⟩
  constructor
  · exact moves.order
  · exact one
  · intro group₁ group₂ index₁ index₂ core₁ core₂ found₁ found₂ equal
    obtain ⟨earlier₁, found₁, event₁⟩ := event found₁
    obtain ⟨earlier₂, found₂, event₂⟩ := event found₂
    exact kept.apart found₁ found₂ (event₁.symm.trans (equal.trans event₂))
  · intro group' index' other found'
    rcases setCore_found found' with ⟨same, rfl⟩ | ⟨different, found'⟩
    · cases same
      exact turn
    · have apart : other.jobEvent ≠ core.jobEvent :=
        fun equal => different (kept.apart found' found equal)
      simp only [submittedTo, calledBy, doneBy,
        pick_elsewhere (elsewhere different)]
      exact (kept.turn found').same (moves.others _ apart)
  · intro group' index' job member
    by_cases same : (group', index') = (group, index)
    · cases same
      rw [submittedTo, pick_append] at member
      rcases List.mem_append.mp member with before | now
      · exact UInt64.le_trans (kept.came job before) later
      · exact came job now
    · rw [submittedTo, pick_elsewhere (elsewhere same)] at member
      exact UInt64.le_trans (kept.came job member) later
  · intro group' index' other found'
    rcases setCore_found found' with ⟨same, rfl⟩ | ⟨different, found'⟩
    · cases same
      rw [countedFor, pick_append, List.foldl_append, ← countedFor,
        ← countedFor, ← kept.stat found, stat]
    · rw [countedFor, pick_elsewhere (elsewhere different)]
      exact kept.stat found'

theorem Kept.others (kept : cpu.Kept log) (order : next.InOrder)
    (later : cpu.sim.engine.simTick ≤ next.engine.simTick)
    (one : next.running.length ≤ 1)
    (same : ∀ {group : Group} {index : Nat} {core : Core},
      (cpu.core group)[index]? = some core →
        Sim.Same core.jobEvent cpu.sim next)
    (nowhere : ∀ happening ∈ happenings, happening.place = none) :
    Kept { cpu with sim := next } (log ++ happenings) := by
  have elsewhere (group : Group) (index : Nat) :
      ∀ happening ∈ happenings, happening.place ≠ some (group, index) := by
    intro happening member equal
    rw [nowhere happening member] at equal
    cases equal
  constructor
  · exact order
  · exact one
  · exact kept.apart
  · intro group index core found
    simp only [submittedTo, calledBy, doneBy,
      pick_elsewhere (elsewhere group index)]
    exact (kept.turn found).same (same found)
  · intro group index job member
    rw [submittedTo, pick_elsewhere (elsewhere group index)] at member
    exact UInt64.le_trans (kept.came job member) later
  · intro group index core found
    rw [countedFor, pick_elsewhere (elsewhere group index)]
    exact kept.stat found

theorem owner_some {event : Sim.Event}
    (owner : cpu.owner event = some (group, index)) :
    ∃ core, (cpu.core group)[index]? = some core ∧ core.jobEvent = event := by
  have holds := List.find?_some owner
  obtain ⟨core, found, equal⟩ := (Option.any_eq_true _ _).mp holds
  exact ⟨core, found, of_decide_eq_true equal⟩

theorem owner_none {event : Sim.Event} (owner : cpu.owner event = none)
    (found : (cpu.core group)[index]? = some core) :
    core.jobEvent ≠ event := by
  have place : (group, index) ∈ cpu.places := by
    have inside := (List.getElem?_eq_some_iff.mp found).1
    cases group <;> simp [places, inside]
  have fails := List.find?_eq_none.mp owner _ place
  simpa [found] using fails

theorem find_ok {ns : Namespace} {fct : UInt16} {inst : InstStat}
    (done : cpu.find ns fct = .ok (index, core, inst)) :
    (cpu.core ns.group)[index]? = some core ∧ cpu.cpi ns fct = some inst ∧
      index = leastBusyCPU (cpu.core ns.group) := by
  simp only [find] at done
  cases found : (cpu.core ns.group)[leastBusyCPU (cpu.core ns.group)]? with
  | none =>
      rw [found] at done
      cases done
  | some core =>
      rw [found] at done
      cases listed : cpu.cpi ns fct with
      | none =>
          rw [listed] at done
          cases done
      | some inst =>
          rw [listed] at done
          cases done
          exact ⟨found, rfl, rfl⟩

theorem fits_concat {job : JobEntry} (fits : Fits (log ++ happenings))
    (more : submittedTo group index (log ++ happenings) =
      submittedTo group index log ++ [job]) :
    doneWith (submittedTo group index log ++ [job]) < 2 ^ 64 := by
  apply fits group index
  rw [more]
  exact doneWith_mem _ job []

theorem Kept.execute (kept : cpu.Kept log) {ns : Namespace} {fct : UInt16}
    {func : Nat} {delay : UInt64}
    (done : cpu.execute ns fct func delay = .ok (after, happenings))
    (fits : Fits (log ++ happenings)) : after.Kept (log ++ happenings) := by
  simp only [CPU.execute] at done
  split at done
  · obtain ⟨⟨index, core, inst⟩, chosen, done⟩ := bind_ok done
    obtain ⟨⟨changed, next⟩, accepted, done⟩ := bind_ok done
    cases done
    obtain ⟨found, _, _⟩ := find_ok chosen
    have more : submittedTo ns.group index (log ++ _) = _ :=
      submittedTo_submitted log
        ⟨func, inst, cpu.sim.engine.simTick, delay⟩
    obtain ⟨moves, running, stat, turn⟩ := (kept.turn found).submit kept.order
      accepted rfl (fits_concat fits more)
    apply kept.step found moves
    · rw [running]
      exact kept.one
    · simp [Happening.place]
    · rw [more]
      simpa [calledBy, doneBy, pick_append, pick_one, Happening.place, Happening.calledFunction,
        Happening.doneInst] using turn
    · simpa [submittedTo, pick_append, pick_one, Happening.place, Happening.submittedJob]
        using moves.now
    · simpa [countedFor, pick_one, Happening.place, Happening.countedInst]
        using stat
  · cases done
    apply kept.others kept.order (UInt64.le_refl _) kept.one
    · intro group index core found
      exact .refl core.jobEvent cpu.sim
    · simp [Happening.place]

theorem Kept.applyLatency (kept : cpu.Kept log) {ns : Namespace}
    {fct : UInt16} {latency : UInt64}
    (done : cpu.applyLatency ns fct = .ok (after, latency, happenings)) :
    after.Kept (log ++ happenings) := by
  simp only [CPU.applyLatency] at done
  split at done
  · obtain ⟨⟨index, core, inst⟩, chosen, done⟩ := bind_ok done
    cases done
    obtain ⟨found, _, _⟩ := find_ok chosen
    have moves : Moves core (core.addStat inst) cpu.sim cpu.sim :=
      ⟨kept.order, rfl, fun event _ => .refl event cpu.sim⟩
    apply kept.step found moves kept.one
    · simp [Happening.place]
    · simpa [submittedTo, calledBy, doneBy, pick_append, pick_one, Happening.place,
        Happening.submittedJob, Happening.calledFunction, Happening.doneInst]
        using (kept.turn found).addStat inst
    · simp [submittedTo, pick_one, Happening.place, Happening.submittedJob]
    · simp [countedFor, pick_one, Happening.place, Happening.countedInst,
        Core.addStat]
  · cases done
    rw [List.append_nil]
    exact kept

theorem setCore_self (found : (cpu.core group)[index]? = some core)
    (next : Sim.Run) :
    cpu.setCore group index core next = { cpu with sim := next } := by
  simp only [setCore, CPU.mk.injEq, true_and]
  funext other
  split
  · next same =>
      subst same
      obtain ⟨inside, rfl⟩ := List.getElem?_eq_some_iff.mp found
      exact List.set_getElem_self inside
  · rfl

theorem Kept.doNextEvent (kept : cpu.Kept log) (idle : cpu.sim.running = [])
    (done : cpu.doNextEvent = .ok (after, happenings)) :
    after.Kept (log ++ happenings) := by
  simp only [CPU.doNextEvent] at done
  obtain ⟨next, taken, done⟩ := bind_ok done
  have taken := Sim.mapError_ok taken
  obtain ⟨order, later⟩ := kept.order.perform taken
  have running : next.running = [] ∨
      ∃ event, next.running = [event] := by
    rcases kept.order.takes taken with ⟨same, _⟩ | ⟨entry, entered, _⟩
    · exact .inl (same.trans idle)
    · rw [idle] at entered
      exact .inr ⟨_, entered⟩
  have one : next.running.length ≤ 1 := by
    rcases running with none | ⟨event, one⟩
    · simp [none]
    · simp [one]
  split at done
  · next nobody =>
      cases done
      apply kept.others order later one
      · intro group index core found
        apply Sim.same_of_taken kept.order idle taken
        intro own
        rw [own] at nobody
        exact owner_none nobody found rfl
      · simp
  · next group index owned =>
      obtain ⟨event, first, owner⟩ := Option.bind_eq_some_iff.mp owned
      obtain ⟨core, found, rfl⟩ := owner_some owner
      have own : next.running = [core.jobEvent] := by
        rcases running with none | ⟨event, one⟩
        · rw [none] at first
          cases first
        · rw [one] at first
          cases first
          exact one
      have moves : Moves core core cpu.sim next := by
        refine ⟨order, rfl, ?_⟩
        intro event different
        apply Sim.same_of_taken kept.order idle taken
        rw [own]
        simpa using different.symm
      have turn := kept.turn found
      generalize submits : submittedTo group index log = submitted at turn
      generalize calls : calledBy group index log = called at turn
      generalize dones : doneBy group index log = left at turn
      cases turn with
      | calls within =>
          have inside := within.inside
          rw [idle] at inside
          cases inside
      | @waits past waiting waits =>
          obtain ⟨job, rest, rfl, enters⟩ :=
            waits.enter kept.order idle taken own
          simp only [found, Option.bind_some, waits.jobs,
            List.head?_cons] at done
          cases done
          rw [← setCore_self found]
          apply kept.step found moves one
          · simp [Happening.place]
          · have turn := Core.Turn.calls enters
            rw [callsOf_concat, enters.done, ← submits, ← calls, ← dones]
              at turn
            simpa [submittedTo, calledBy, doneBy, pick_append, pick_one, Happening.place,
              Happening.submittedJob, Happening.calledFunction,
              Happening.doneInst] using turn
          · simp [submittedTo, pick_one, Happening.place,
              Happening.submittedJob]
          · simp [countedFor, pick_one, Happening.place, Happening.countedInst]

theorem Kept.eventReturned (kept : cpu.Kept log)
    (entered : cpu.sim.running ≠ [])
    (done : cpu.eventReturned = .ok (after, happenings)) (fits : Fits log) :
    after.Kept (log ++ happenings) := by
  obtain ⟨event, only⟩ : ∃ event, cpu.sim.running = [event] := by
    apply List.length_eq_one_iff.mp
    have one := kept.one
    have some := List.length_pos_of_ne_nil entered
    omega
  simp only [CPU.eventReturned, only, List.head?_cons, Option.bind_some] at done
  split at done
  · next nobody =>
      obtain ⟨next, returned, done⟩ := bind_ok done
      have returned := Sim.mapError_ok returned
      cases done
      obtain ⟨running, now, _⟩ := Sim.returned_of_call returned
      apply kept.others (kept.order.perform returned).1
      · rw [now]
        exact UInt64.le_refl _
      · rw [running, only]
        exact Nat.zero_le _
      · intro group index core found
        apply Sim.same_of_returned returned
        rw [only]
        intro own
        exact owner_none nobody found (List.cons.inj own).1.symm
      · simp
  · next group index owner =>
      obtain ⟨core, found, rfl⟩ := owner_some owner
      simp only [found] at done
      have turn := kept.turn found
      generalize submits : submittedTo group index log = submitted at turn
      generalize calls : calledBy group index log = called at turn
      generalize dones : doneBy group index log = left at turn
      cases turn with
      | waits waits =>
          have outside := waits.outside
          rw [only] at outside
          exact absurd List.mem_cons_self outside
      | @calls past job waiting within =>
          simp only [within.jobs, List.head?_cons] at done
          obtain ⟨⟨changed, middle⟩, popped, done⟩ := bind_ok done
          obtain ⟨next, returned, done⟩ := bind_ok done
          cases done
          have came : ∀ job ∈ waiting,
              job.submitAt ≤ cpu.sim.engine.simTick := by
            intro later member
            have listed : later ∈ submittedTo group index log := by
              rw [submits]
              exact List.mem_append_right _ (List.mem_cons_of_mem _ member)
            exact kept.came later listed
          have inTime : ∀ following, waiting.head? = some following →
              doneWith (past ++ [job] ++ [following]) < 2 ^ 64 := by
            intro following first
            obtain ⟨rest, rfl⟩ := List.head?_eq_some_iff.mp first
            apply fits group index
            rw [submits]
            simpa using doneWith_mem (past ++ [job]) following rest
          obtain ⟨moves, none, stat, waits⟩ := within.leave kept.order came
            inTime popped (Sim.mapError_ok returned)
          apply kept.step found moves
          · rw [none]
            exact Nat.zero_le _
          · simp [Happening.place]
          · have turn := Core.Turn.waits waits
            rw [List.append_assoc, List.singleton_append, ← submits, ← calls,
              List.map_append, ← dones] at turn
            simpa [submittedTo, calledBy, doneBy, pick_append, pick_one,
              Happening.place, Happening.submittedJob,
              Happening.calledFunction, Happening.doneInst] using turn
          · simp [submittedTo, pick_one, Happening.place,
              Happening.submittedJob]
          · simpa [countedFor, pick_one, Happening.place,
              Happening.countedInst] using stat

theorem Kept.perform (kept : cpu.Kept log) {step : Step}
    (suits : cpu.Suits step)
    (done : cpu.perform step = .ok (after, happenings))
    (fits : Fits (log ++ happenings)) : after.Kept (log ++ happenings) := by
  cases step with
  | call call =>
      obtain ⟨next, performed, done⟩ := bind_ok done
      have performed := Sim.mapError_ok performed
      cases done
      obtain ⟨stays, remains, foreign⟩ := suits
      obtain ⟨order, later⟩ := kept.order.perform performed
      apply kept.others order later
      · rw [Sim.running_of_call performed stays remains]
        exact kept.one
      · intro group index core found
        exact Sim.same_of_foreign kept.order performed
          (foreign group core (List.mem_of_getElem? found)) remains
      · simp
  | execute ns fct func delay => exact kept.execute done fits
  | applyLatency ns fct =>
      obtain ⟨⟨changed, latency, applied⟩, performed, done⟩ := bind_ok done
      cases done
      exact kept.applyLatency performed
  | doNextEvent => exact kept.doNextEvent suits done
  | eventReturned => exact kept.eventReturned suits done fits.of_append

theorem Kept.of_reaches {start : CPU} (begun : start.Kept [])
    (reaches : Reaches start log cpu) (fits : Fits log) : cpu.Kept log := by
  induction reaches with
  | start => exact begun
  | step _ suits performed induction =>
      exact (induction fits.of_append).perform suits performed fits

theorem allocateCores_ok {count : Nat} {sim : Sim.Run} {cores : List Core}
    (order : sim.InOrder)
    (allocated : allocateCores count sim = .ok (cores, next)) :
    next.InOrder ∧ next.running = sim.running ∧
      next.engine.eventQueue = sim.engine.eventQueue ∧
      next.engine.eventList =
        (cores.map Core.jobEvent).reverse ++ sim.engine.eventList ∧
      ∀ core ∈ cores, core = .make core.jobEvent := by
  induction count generalizing sim cores with
  | zero =>
      cases allocated
      exact ⟨order, rfl, rfl, rfl, by simp⟩
  | succ count induction =>
      obtain ⟨first, performed, allocated⟩ := bind_ok allocated
      obtain ⟨⟨rest, last⟩, others, allocated⟩ := bind_ok allocated
      cases allocated
      obtain ⟨same, kept, new⟩ := Sim.allocated_of_call performed
      obtain ⟨order, running, queue, list, made⟩ :=
        induction (order.perform performed).1 others
      refine ⟨order, running.trans same, queue.trans kept, ?_, ?_⟩
      · rw [list, new]
        simp [Core.make]
      · intro core member
        rcases List.mem_cons.mp member with rfl | member
        · rfl
        · exact made core member

def events (cpu : CPU) : List Sim.Event :=
  [Group.ftl, .icl, .hil].flatMap fun group =>
    ((cpu.core group).map Core.jobEvent).reverse

theorem event_mem (found : (cpu.core group)[index]? = some core) :
    core.jobEvent ∈ ((cpu.core group).map Core.jobEvent).reverse :=
  List.mem_reverse.mpr (List.mem_map_of_mem (List.mem_of_getElem? found))

theorem apart_of_nodup (nodup : cpu.events.Nodup) {group' : Group}
    {index' : Nat} {core' : Core}
    (found : (cpu.core group)[index]? = some core)
    (found' : (cpu.core group')[index']? = some core')
    (equal : core.jobEvent = core'.jobEvent) :
    (group, index) = (group', index') := by
  have listed (group : Group) : group ∈ [Group.ftl, .icl, .hil] := by
    cases group <;> simp
  obtain ⟨each, disjoint⟩ := List.nodup_flatMap.mp nodup
  by_cases same : group = group'
  · subst same
    have once := List.nodup_reverse.mp (each group (listed group))
    have event : ((cpu.core group).map Core.jobEvent)[index]? =
        ((cpu.core group).map Core.jobEvent)[index']? := by
      rw [List.getElem?_map, List.getElem?_map, found, found',
        Option.map_some, Option.map_some, equal]
    have inside : index < ((cpu.core group).map Core.jobEvent).length := by
      rw [List.length_map]
      exact (List.getElem?_eq_some_iff.mp found).1
    rw [(List.getElem?_inj inside once).mp event]
  · have symmetric : Std.Symm (Function.onFun List.Disjoint fun group =>
        ((cpu.core group).map Core.jobEvent).reverse) :=
      ⟨fun _ _ apart _ first second => apart second first⟩
    have apart := disjoint.forall (listed group) (listed group') same
    exact absurd (equal ▸ event_mem found') (apart (event_mem found))

theorem make_kept {cpi : Namespace → UInt16 → Option InstStat}
    {hil icl ftl : Nat} {sim : Sim.Run} (order : sim.InOrder)
    (idle : sim.running = []) (made : CPU.make cpi hil icl ftl sim = .ok cpu) :
    cpu.Kept [] := by
  obtain ⟨⟨hilCore, first⟩, hils, made⟩ := bind_ok made
  obtain ⟨⟨iclCore, second⟩, icls, made⟩ := bind_ok made
  obtain ⟨⟨ftlCore, third⟩, ftls, made⟩ := bind_ok made
  cases made
  obtain ⟨order₁, running₁, queue₁, list₁, fresh₁⟩ := allocateCores_ok order hils
  obtain ⟨order₂, running₂, queue₂, list₂, fresh₂⟩ :=
    allocateCores_ok order₁ icls
  obtain ⟨order₃, running₃, queue₃, list₃, fresh₃⟩ :=
    allocateCores_ok order₂ ftls
  have running : third.running = [] := by
    rw [running₃, running₂, running₁, idle]
  have queue : third.engine.eventQueue = sim.engine.eventQueue := by
    rw [queue₃, queue₂, queue₁]
  generalize made : CPU.mk third cpi _ = cpu
  have core₁ : cpu.core .hil = hilCore := by rw [← made]
  have core₂ : cpu.core .icl = iclCore := by rw [← made]
  have core₃ : cpu.core .ftl = ftlCore := by rw [← made]
  have state : cpu.sim = third := by rw [← made]
  have list : third.engine.eventList =
      cpu.events ++ sim.engine.eventList := by
    rw [list₃, list₂, list₁]
    simp [events, core₁, core₂, core₃]
  have nodup := order₃.ordered.keys
  rw [list, List.nodup_append] at nodup
  obtain ⟨once, _, fresh⟩ := nodup
  have begins {group : Group} {index : Nat} {core : Core}
      (found : (cpu.core group)[index]? = some core) :
      core = .make core.jobEvent := by
    have member := List.mem_of_getElem? found
    cases group with
    | hil => exact fresh₁ core (core₁ ▸ member)
    | icl => exact fresh₂ core (core₂ ▸ member)
    | ftl => exact fresh₃ core (core₃ ▸ member)
  have unscheduled {group : Group} {index : Nat} {core : Core}
      (found : (cpu.core group)[index]? = some core) (tick : UInt64) :
      ⟨core.jobEvent, tick⟩ ∉ third.engine.eventQueue := by
    intro member
    rw [queue] at member
    have own : core.jobEvent ∈ cpu.events := by
      apply List.mem_flatMap.mpr
      refine ⟨group, ?_, event_mem found⟩
      cases group <;> simp
    exact fresh _ own _ (order.ordered.allocated _ member) rfl
  constructor
  · rw [state]
    exact order₃
  · rw [state, running]
    exact Nat.zero_le _
  · exact apart_of_nodup once
  · intro group index core found
    rw [state]
    have begun := begins found
    have waits : core.Waits third [] [] := by
      constructor
      · rw [begun]
        rfl
      · rw [begun]
        simp [Core.make]
      · rw [running]
        simp
      · exact Nat.zero_le _
      · intro tick
        simpa using unscheduled found tick
    exact .waits waits
  · intro group index job member
    cases member
  · intro group index core found
    rw [begins found]
    rfl

/-- Jobs are called in the order they were submitted in, each one at the time
it is done with, and none that is done with waits to be called.  A core counts
the jobs that are done and the latencies applied to it, and its jobs have not
kept it busy for longer than the clock ran. -/
structure InTurn (cpu : CPU) (log : List Happening) (group : Group)
    (index : Nat) (core : Core) : Prop where
  called : calledBy group index log <+: callsOf (submittedTo group index log)
  prompt : ∀ {number : Nat} {time : Nat},
    (timetable (submittedTo group index log))[number]? = some time →
    time < cpu.sim.engine.simTick.toNat →
      number < (calledBy group index log).length
  past : ∀ call ∈ calledBy group index log,
    call.2 ≤ cpu.sim.engine.simTick.toNat
  done : doneBy group index log <+:
    (submittedTo group index log).map JobEntry.inst
  counted : core.stat =
    (countedFor group index log).foldl CoreStat.add ⟨.zero, 0⟩
  busy : ((doneBy group index log).map fun inst => inst.latency.toNat).sum ≤
    cpu.sim.engine.simTick.toNat

theorem timetable_le_doneWith {past : List JobEntry} {time : Nat}
    (member : time ∈ timetable past) : time ≤ doneWith past := by
  induction past using List.reverseRecOn with
  | nil => cases member
  | append_singleton before job induction =>
      rw [timetable_concat] at member
      rcases List.mem_append.mp member with earlier | last
      · rw [doneWith_concat]
        exact (induction earlier).trans (Task.le_finish _ _)
      · exact Nat.le_of_eq (List.mem_singleton.mp last)

theorem callsOf_append_prefix (past waiting : List JobEntry) :
    callsOf past <+: callsOf (past ++ waiting) := by
  induction waiting using List.reverseRecOn with
  | nil => simp
  | append_singleton before job induction =>
      rw [← List.append_assoc, callsOf_concat]
      exact induction.trans (List.prefix_append _ _)

theorem callsOf_le {past : List JobEntry} {call : Nat × Nat}
    (member : call ∈ callsOf past) : call.2 ≤ doneWith past :=
  timetable_le_doneWith (List.of_mem_zip member).2

/-- A time beyond those of the first jobs is not before the next job's. -/
theorem time_after {past waiting : List JobEntry} {job : JobEntry}
    {number time : Nat}
    (found : (timetable (past ++ job :: waiting))[number]? = some time)
    (beyond : past.length ≤ number) : doneWith (past ++ [job]) ≤ time := by
  have parts : past ++ job :: waiting = past ++ [job] ++ waiting := by simp
  rw [parts, timetable, List.map_append, Task.finishes_append,
    ← timetable, timetable_concat, List.append_assoc,
    List.getElem?_append_right (by simpa [timetable] using beyond)] at found
  rcases List.mem_append.mp (List.mem_of_getElem? found) with here | later
  · exact Nat.le_of_eq (List.mem_singleton.mp here).symm
  · exact Task.free_le_finishes later

theorem busy_le (past : List JobEntry) :
    ((past.map JobEntry.inst).map fun inst => inst.latency.toNat).sum ≤
      doneWith past := by
  have sum := Task.sum_le_freeAfter 0 (past.map JobEntry.task)
  rw [List.map_map] at sum ⊢
  simpa [doneWith, JobEntry.task, Function.comp_def] using sum

theorem Kept.ahead (kept : cpu.Kept log) (fits : Fits log)
    {past waiting : List JobEntry} {job : JobEntry}
    (submits : submittedTo group index log = past ++ job :: waiting)
    (waits : core.Waits cpu.sim past (job :: waiting)) :
    cpu.sim.engine.simTick.toNat ≤ doneWith (past ++ [job]) := by
  have small : doneWith (past ++ [job]) < 2 ^ 64 := by
    apply fits group index
    rw [submits]
    exact doneWith_mem past job waiting
  have tick := UInt64.toNat_ofNat_of_lt' small
  have queued := (waits.due (UInt64.ofNat (doneWith (past ++ [job])))).mpr
    ⟨job, rfl, tick⟩
  have due := UInt64.le_iff_toNat_le.mp (kept.order.ordered.due _ queued)
  rw [tick] at due
  exact due

theorem Kept.inTurn (kept : cpu.Kept log) (fits : Fits log)
    (found : (cpu.core group)[index]? = some core) :
    cpu.InTurn log group index core := by
  have stat := kept.stat found
  have turn := kept.turn found
  generalize submits : submittedTo group index log = submitted at turn
  generalize calls : calledBy group index log = called at turn
  generalize dones : doneBy group index log = left at turn
  cases turn with
  | @waits past waiting waits =>
      have done := waits.done
      constructor
      · rw [calls, submits]
        exact callsOf_append_prefix past waiting
      · intro number time listed early
        rw [submits] at listed
        rw [calls, length_callsOf]
        by_contra beyond
        have beyond := Nat.le_of_not_lt beyond
        cases waiting with
        | nil =>
            have inside := (List.getElem?_eq_some_iff.mp listed).1
            simp [timetable] at inside
            omega
        | cons job rest =>
            have time := time_after listed beyond
            have ahead := kept.ahead fits submits waits
            omega
      · intro call member
        rw [calls] at member
        exact (callsOf_le member).trans done
      · rw [dones, submits, List.map_append]
        exact List.prefix_append _ _
      · exact stat
      · rw [dones]
        exact (busy_le past).trans done
  | @calls past job waiting within =>
      have done := Nat.le_of_eq within.done
      constructor
      · rw [calls, submits]
        simpa using callsOf_append_prefix (past ++ [job]) waiting
      · intro number time listed early
        rw [submits] at listed
        rw [calls, length_callsOf]
        by_contra beyond
        have beyond := Nat.le_of_not_lt beyond
        rw [List.length_append, List.length_singleton] at beyond
        have time := time_after listed (by omega)
        have now := within.done
        omega
      · intro call member
        rw [calls] at member
        exact (callsOf_le member).trans done
      · rw [dones, submits, List.map_append]
        exact List.prefix_append _ _
      · exact stat
      · rw [dones]
        apply (busy_le past).trans
        apply Nat.le_trans _ done
        rw [doneWith_concat]
        exact Task.le_finish _ _

/-- The cores do their jobs in turn. -/
theorem jobs_in_turn {cpi : Namespace → UInt16 → Option InstStat}
    {hil icl ftl : Nat} {calls : List Sim.Call} {sim : Sim.Run} {start : CPU}
    (simulated : Sim.Run.start.performAll calls = .ok sim)
    (idle : sim.running = [])
    (made : CPU.make cpi hil icl ftl sim = .ok start)
    (reaches : Reaches start log cpu) (fits : Fits log)
    (found : (cpu.core group)[index]? = some core) :
    cpu.InTurn log group index core := by
  have order := Sim.Run.start_inOrder.performAll simulated
  exact ((make_kept order idle made).of_reaches reaches fits).inTurn fits found

instance (cpu : CPU) : (step : Step) → Decidable (cpu.Suits step)
  | .call call =>
      have decidable (group : Group) : Decidable
          (∀ core ∈ cpu.core group, call.Foreign core.jobEvent) :=
        List.decidableBAll _ _
      have each : Decidable
          (∀ group, ∀ core ∈ cpu.core group, call.Foreign core.jobEvent) :=
        decidable_of_iff (∀ group ∈ [Group.ftl, .icl, .hil],
            ∀ core ∈ cpu.core group, call.Foreign core.jobEvent)
          ⟨fun all group => all group (by cases group <;> simp),
            fun all group _ => all group⟩
      inferInstanceAs (Decidable (_ ∧ _ ∧ _))
  | .execute _ _ _ _ | .applyLatency _ _ => inferInstanceAs (Decidable True)
  | .doNextEvent => inferInstanceAs (Decidable (cpu.sim.running = []))
  | .eventReturned => inferInstanceAs (Decidable (cpu.sim.running ≠ []))

def follow : List Step → List Happening × CPU →
    Option (List Happening × CPU)
  | [], reached => some reached
  | step :: rest, (log, cpu) =>
      if cpu.Suits step then
        (cpu.perform step).toOption.bind fun (after, happenings) =>
          follow rest (log ++ happenings, after)
      else none

theorem follow_reaches {steps : List Step} {start : CPU}
    {before after : List Happening × CPU}
    (earlier : Reaches start before.1 before.2)
    (followed : follow steps before = some after) :
    Reaches start after.1 after.2 := by
  induction steps generalizing before with
  | nil =>
      cases followed
      exact earlier
  | cons step rest induction =>
      simp only [follow] at followed
      split at followed
      · next suits =>
          obtain ⟨⟨cpu, happenings⟩, performed, followed⟩ :=
            Option.bind_eq_some_iff.mp followed
          exact induction (earlier.step suits (toOption_ok performed)) followed
      · cases followed

theorem fits_iff : Fits log ↔ ∀ place ∈ log.filterMap Happening.place,
    ∀ time ∈ timetable (submittedTo place.1 place.2 log), time < 2 ^ 64 := by
  constructor
  · intro fits place _
    exact fits place.1 place.2
  · intro each group index
    by_cases listed : (group, index) ∈ log.filterMap Happening.place
    · exact each (group, index) listed
    · have none : submittedTo group index log = [] := by
        apply pick_elsewhere _ []
        intro happening member here
        exact listed (List.mem_filterMap.mpr ⟨happening, member, here⟩)
      rw [none]
      intro time member
      cases member

instance (log : List Happening) : Decidable (Fits log) :=
  @decidable_of_iff _ _ fits_iff.symm (List.decidableBAll _ _)

/-- Two jobs for one core, of which the second waits for the first. -/
theorem jobs_in_turn_two :
    ∃ (log : List Happening) (cpu : CPU) (core : Core),
      (cpu.core .hil)[0]? = some core ∧
      calledBy .hil 0 log = [(7, 142500), (8, 285000)] ∧
      cpu.InTurn log .hil 0 core := by
  let cpi : Namespace → UInt16 → Option InstStat :=
    fun _ _ => some (.make 5 32 6 13 0 1 2500)
  have found : (CPU.make cpi 1 0 0 .start).toOption.any (fun start =>
      (follow [.execute .hil 0 7 0, .execute .hil 0 8 100, .doNextEvent,
        .eventReturned, .doNextEvent] ([], start)).any fun reached =>
          Fits reached.1 ∧ (reached.2.core .hil)[0]?.isSome ∧
            calledBy .hil 0 reached.1 = [(7, 142500), (8, 285000)]) = true := by
    decide +kernel
  obtain ⟨start, made, found⟩ := (Option.any_eq_true _ _).mp found
  obtain ⟨reached, followed, holds⟩ := (Option.any_eq_true _ _).mp found
  obtain ⟨fits, some, called⟩ := of_decide_eq_true holds
  obtain ⟨core, there⟩ := Option.isSome_iff_exists.mp some
  exact ⟨reached.1, reached.2, core, there, called,
    jobs_in_turn (rfl : Sim.Run.start.performAll [] = .ok .start) rfl
      (toOption_ok made)
      (follow_reaches .start followed) fits there⟩

end CPU

end SimpleSSD.CPU
