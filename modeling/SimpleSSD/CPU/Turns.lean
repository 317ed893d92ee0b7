import Mathlib.Tactic.Common
import SimpleSSD.CPU.Core
import SimpleSSD.Data.Task
import SimpleSSD.Sim.Share

set_option linter.dupNamespace false

namespace SimpleSSD.CPU

open Data

/-! The jobs of a core, in turn. -/

def JobEntry.task (job : JobEntry) : Task where
  ready := job.submitAt.toNat + job.delay.toNat
  length := job.inst.latency.toNat

theorem JobEntry.finishedAt_toNat {iter : JobEntry} {now : UInt64}
    (came : iter.submitAt ≤ now) (fits : iter.task.finish now.toNat < 2 ^ 64) :
    (iter.finishedAt now).toNat = iter.task.finish now.toNat := by
  have elapsed := UInt64.toNat_sub_of_le _ _ came
  have earlier := UInt64.le_iff_toNat_le.mp came
  have below := now.toNat_lt
  simp only [JobEntry.task, Task.finish] at fits ⊢
  simp only [JobEntry.finishedAt, ge_iff_le]
  split
  · next passed =>
      have passed := UInt64.le_iff_toNat_le.mp passed
      rw [UInt64.toNat_add]
      omega
  · next under =>
      have under := mt UInt64.le_iff_toNat_le.mpr under
      have delay := iter.delay.toNat_lt
      rw [UInt64.toNat_sub, UInt64.toNat_add, UInt64.toNat_add]
      omega

def timetable (jobs : List JobEntry) : List Nat :=
  Task.finishes 0 (jobs.map JobEntry.task)

def doneWith (jobs : List JobEntry) : Nat :=
  Task.freeAfter 0 (jobs.map JobEntry.task)

/-- Which functions were called when, if the jobs are done in turn. -/
def callsOf (jobs : List JobEntry) : List (Nat × Nat) :=
  (jobs.map JobEntry.func).zip (timetable jobs)

section

variable {jobs : List JobEntry} {job : JobEntry}

theorem doneWith_concat (jobs : List JobEntry) (job : JobEntry) :
    doneWith (jobs ++ [job]) = job.task.finish (doneWith jobs) := by
  simp [doneWith]

theorem callsOf_concat (jobs : List JobEntry) (job : JobEntry) :
    callsOf (jobs ++ [job]) =
      callsOf jobs ++ [(job.func, doneWith (jobs ++ [job]))] := by
  rw [callsOf, timetable, List.map_append, List.map_append,
    Task.finishes_append, List.zip_append (by simp), doneWith_concat]
  rfl

@[simp] theorem length_callsOf (jobs : List JobEntry) :
    (callsOf jobs).length = jobs.length := by
  simp [callsOf, timetable]

theorem timetable_concat (jobs : List JobEntry) (job : JobEntry) :
    timetable (jobs ++ [job]) =
      timetable jobs ++ [doneWith (jobs ++ [job])] := by
  rw [timetable, List.map_append, Task.finishes_append, doneWith_concat]
  rfl

end

/-- The event of the core is there for the first of the `waiting` jobs. -/
def Core.Due (core : Core) (sim : Sim.Run)
    (past waiting : List JobEntry) : Prop :=
  ∀ tick : UInt64, ⟨core.jobEvent, tick⟩ ∈ sim.engine.eventQueue ↔
    ∃ job, waiting.head? = some job ∧ tick.toNat = doneWith (past ++ [job])

/-- A core between two steps: `waiting` jobs, after those whose function has
been called. -/
structure Core.Waits (core : Core) (sim : Sim.Run)
    (past waiting : List JobEntry) : Prop where
  jobs : core.jobs = waiting
  busy : core.busy = true ↔ waiting ≠ []
  outside : core.jobEvent ∉ sim.running
  done : doneWith past ≤ sim.engine.simTick.toNat
  due : core.Due sim past waiting

structure Core.Calls (core : Core) (sim : Sim.Run) (past : List JobEntry)
    (job : JobEntry) (waiting : List JobEntry) : Prop where
  jobs : core.jobs = job :: waiting
  busy : core.busy = true
  inside : sim.running = [core.jobEvent]
  done : doneWith (past ++ [job]) = sim.engine.simTick.toNat
  due : ∀ tick : UInt64, ⟨core.jobEvent, tick⟩ ∉ sim.engine.eventQueue

/-- What is left to do of the jobs that were submitted, with the calls and the
jobs that were done with so far. -/
inductive Core.Turn (core : Core) (sim : Sim.Run) :
    (submitted : List JobEntry) → (called : List (Nat × Nat)) →
    (left : List InstStat) → Prop where
  | waits {past waiting} (waits : core.Waits sim past waiting) :
      Core.Turn core sim (past ++ waiting) (callsOf past)
        (past.map JobEntry.inst)
  | calls {past job waiting} (calls : core.Calls sim past job waiting) :
      Core.Turn core sim (past ++ job :: waiting) (callsOf (past ++ [job]))
        (past.map JobEntry.inst)

section

variable {core after : Core} {sim next : Sim.Run}
  {past waiting submitted : List JobEntry} {job : JobEntry}
  {called : List (Nat × Nat)} {left : List InstStat}

theorem Core.Turn.same (turn : core.Turn sim submitted called left)
    (same : Sim.Same core.jobEvent sim next) :
    core.Turn next submitted called left := by
  have later := UInt64.le_iff_toNat_le.mp same.later
  cases turn with
  | waits waits =>
      apply Core.Turn.waits
      exact ⟨waits.jobs, waits.busy, same.outside waits.outside,
        waits.done.trans later,
        fun tick => (same.queue tick).trans (waits.due tick)⟩
  | calls calls =>
      obtain ⟨running, now⟩ := same.inside calls.inside
      apply Core.Turn.calls
      exact ⟨calls.jobs, calls.busy, running, by rw [now, calls.done],
        fun tick => (same.queue tick).not.mpr (calls.due tick)⟩

theorem handleJob_ok (handled : core.handleJob sim = .ok (after, next)) :
    ∃ iter, core.jobs.head? = some iter ∧ after = { core with busy := true } ∧
      sim.perform (.scheduleEvent core.jobEvent
        (iter.finishedAt sim.engine.simTick)) = .ok next := by
  simp only [Core.handleJob] at handled
  cases front : core.jobs.head? with
  | none =>
      rw [front] at handled
      cases handled
  | some iter =>
      rw [front] at handled
      obtain ⟨scheduled, done, rest⟩ := bind_ok handled
      cases rest
      exact ⟨iter, rfl, rfl, Sim.mapError_ok done⟩

structure Moves (core after : Core) (sim next : Sim.Run) : Prop where
  order : next.InOrder
  event : after.jobEvent = core.jobEvent
  others : ∀ event, event ≠ core.jobEvent → Sim.Same event sim next

theorem Core.Turn.addStat (turn : core.Turn sim submitted called left)
    (inst : InstStat) : (core.addStat inst).Turn sim submitted called left := by
  cases turn with
  | waits waits =>
      exact .waits ⟨waits.jobs, waits.busy, waits.outside, waits.done,
        waits.due⟩
  | calls calls =>
      exact .calls ⟨calls.jobs, calls.busy, calls.inside, calls.done,
        calls.due⟩

theorem Moves.now (moves : Moves core after sim next) :
    sim.engine.simTick ≤ next.engine.simTick :=
  (moves.others (core.jobEvent + 1) (by simp)).later

theorem handleJob_due (order : sim.InOrder)
    (handled : core.handleJob sim = .ok (after, next))
    (front : core.jobs = job :: waiting)
    (came : job.submitAt ≤ sim.engine.simTick)
    (start : job.task.finish sim.engine.simTick.toNat =
      doneWith (past ++ [job]))
    (fits : doneWith (past ++ [job]) < 2 ^ 64) :
    Moves core after sim next ∧ after = { core with busy := true } ∧
      next.running = sim.running ∧
      next.engine.simTick = sim.engine.simTick ∧
      after.Due next past (job :: waiting) := by
  obtain ⟨iter, first, rfl, scheduled⟩ := handleJob_ok handled
  rw [front] at first
  cases first
  have finished := JobEntry.finishedAt_toNat came (start ▸ fits)
  obtain ⟨now, due⟩ := order.own scheduled
  have running := Sim.running_of_call scheduled (by simp) (by simp)
  have later : sim.engine.simTick ≤ job.finishedAt sim.engine.simTick := by
    rw [UInt64.le_iff_toNat_le, finished]
    exact Task.le_finish _ _
  have latest : max (job.finishedAt sim.engine.simTick) sim.engine.simTick =
      job.finishedAt sim.engine.simTick := by
    rw [UInt64.max_def]
    grind
  refine ⟨⟨(order.perform scheduled).1, rfl, ?_⟩, rfl, running, now, ?_⟩
  · intro event different
    exact Sim.same_of_foreign order scheduled different.symm (by simp)
  · intro tick
    rw [due, latest, ← UInt64.toNat_inj, finished, start]
    simp

theorem Core.Waits.submit {entry sub : JobEntry} {delay : UInt64}
    (waits : core.Waits sim past waiting) (order : sim.InOrder)
    (submitted : core.submitJob entry delay sim = .ok (after, next))
    (given : sub =
      { entry with delay := delay, submitAt := sim.engine.simTick })
    (fits : doneWith (past ++ waiting ++ [sub]) < 2 ^ 64) :
    Moves core after sim next ∧ next.running = sim.running ∧
      after.stat = core.stat ∧ after.Waits next past (waiting ++ [sub]) := by
  simp only [Core.submitJob, ← given] at submitted
  split at submitted
  · next busy =>
      cases submitted
      have some := waits.busy.mp busy
      refine ⟨⟨order, rfl, fun event _ => .refl event sim⟩, rfl, rfl, ?_⟩
      constructor
      · simp [waits.jobs]
      · simp [busy]
      · exact waits.outside
      · exact waits.done
      · intro tick
        rw [waits.due tick, List.head?_append_of_ne_nil _ some]
  · next idle =>
      have none : waiting = [] := by
        by_contra some
        exact idle (waits.busy.mpr some)
      subst none
      rw [List.append_nil] at fits
      have start : sub.task.finish sim.engine.simTick.toNat =
          doneWith (past ++ [sub]) := by
        have done := waits.done
        rw [doneWith_concat]
        simp only [given, JobEntry.task, Task.finish]
        omega
      have came : sub.submitAt ≤ sim.engine.simTick := by
        rw [given]
        exact UInt64.le_refl _
      obtain ⟨moves, rfl, running, now, due⟩ := handleJob_due order submitted
        (by simp [waits.jobs]; rfl) came start fits
      refine ⟨⟨moves.order, rfl, moves.others⟩, running, rfl, ?_⟩
      constructor
      · simp [waits.jobs]
      · simp
      · rw [running]
        exact waits.outside
      · rw [now]
        exact waits.done
      · exact due

/-- A job that comes while another one's function is called waits. -/
theorem Core.Calls.submit {entry sub : JobEntry} {delay : UInt64}
    (calls : core.Calls sim past job waiting) (order : sim.InOrder)
    (submitted : core.submitJob entry delay sim = .ok (after, next))
    (given : sub =
      { entry with delay := delay, submitAt := sim.engine.simTick }) :
    Moves core after sim next ∧ next.running = sim.running ∧
      after.stat = core.stat ∧ after.Calls next past job (waiting ++ [sub]) := by
  simp only [Core.submitJob, ← given, calls.busy, if_true] at submitted
  cases submitted
  refine ⟨⟨order, rfl, fun event _ => .refl event sim⟩, rfl, rfl, ?_⟩
  exact ⟨by simp [calls.jobs], rfl, calls.inside, calls.done, calls.due⟩

theorem Core.Turn.submit {entry sub : JobEntry} {delay : UInt64}
    (turn : core.Turn sim submitted called left) (order : sim.InOrder)
    (accepted : core.submitJob entry delay sim = .ok (after, next))
    (given : sub =
      { entry with delay := delay, submitAt := sim.engine.simTick })
    (fits : doneWith (submitted ++ [sub]) < 2 ^ 64) :
    Moves core after sim next ∧ next.running = sim.running ∧
      after.stat = core.stat ∧ after.Turn next (submitted ++ [sub]) called left := by
  cases turn with
  | waits waits =>
      obtain ⟨moves, running, stat, waits⟩ :=
        waits.submit order accepted given fits
      rw [List.append_assoc]
      exact ⟨moves, running, stat, .waits waits⟩
  | calls calls =>
      obtain ⟨moves, running, stat, calls⟩ :=
        calls.submit order accepted given
      rw [List.append_assoc, List.cons_append]
      exact ⟨moves, running, stat, .calls calls⟩

theorem Core.Waits.enter (waits : core.Waits sim past waiting)
    (order : sim.InOrder) (idle : sim.running = [])
    (taken : sim.perform .doNextEvent = .ok next)
    (running : next.running = [core.jobEvent]) :
    ∃ job rest, waiting = job :: rest ∧ core.Calls next past job rest := by
  rcases order.takes taken with ⟨same, _⟩ | ⟨entry, entered, queue, now⟩
  · rw [same, idle] at running
    cases running
  · rw [idle] at entered
    have key : entry.first = core.jobEvent := by
      rw [entered] at running
      exact (List.cons.inj running).1
    have front : (⟨core.jobEvent, entry.second⟩ : Sim.Entry) ∈
        sim.engine.eventQueue := by
      rw [queue, ← key]
      exact List.mem_cons_self
    obtain ⟨job, first, due⟩ := (waits.due entry.second).mp front
    obtain ⟨rest, rfl⟩ := List.head?_eq_some_iff.mp first
    refine ⟨job, rest, rfl, waits.jobs, waits.busy.mpr (by simp), running, ?_,
      ?_⟩
    · rw [now, due]
    · intro tick member
      have unique := order.ordered.unique
      rw [queue, List.map_cons, List.nodup_cons, key] at unique
      exact unique.1 (List.mem_map_of_mem member)

theorem Core.Calls.leave {middle : Sim.Run}
    (calls : core.Calls sim past job waiting) (order : sim.InOrder)
    (came : ∀ job ∈ waiting, job.submitAt ≤ sim.engine.simTick)
    (fits : ∀ next, waiting.head? = some next →
      doneWith (past ++ [job] ++ [next]) < 2 ^ 64)
    (done : core.jobDone sim = .ok (after, middle))
    (returned : middle.perform .eventReturned = .ok next) :
    Moves core after sim next ∧ next.running = [] ∧
      after.stat = core.stat.add job.inst ∧
      after.Waits next (past ++ [job]) waiting := by
  obtain ⟨popped, now, queue⟩ := Sim.returned_of_call returned
  simp only [Core.jobDone, calls.jobs, List.head?_cons, List.tail_cons] at done
  cases waiting with
  | nil =>
      cases done
      rw [calls.inside] at popped
      refine ⟨⟨(order.perform returned).1, rfl, ?_⟩, popped, rfl, ?_⟩
      · intro event different
        apply Sim.same_of_returned returned
        rw [calls.inside]
        simpa using different.symm
      · constructor
        · rfl
        · simp
        · rw [popped]
          simp
        · rw [now, calls.done]
        · intro tick
          rw [queue]
          simpa using calls.due tick
  | cons following rest =>
      simp only [List.length_cons, gt_iff_lt, Nat.zero_lt_succ, if_true] at done
      have start : following.task.finish sim.engine.simTick.toNat =
          doneWith (past ++ [job] ++ [following]) := by
        rw [doneWith_concat, calls.done]
      obtain ⟨moves, rfl, running, time, due⟩ := handleJob_due order done rfl
        (came following List.mem_cons_self) start (fits following rfl)
      rw [running, calls.inside] at popped
      refine ⟨⟨(moves.order.perform returned).1, rfl, ?_⟩, popped, rfl, ?_⟩
      · intro event different
        apply (moves.others event different).trans
        apply Sim.same_of_returned returned
        rw [running, calls.inside]
        simpa using different.symm
      · constructor
        · rfl
        · simp
        · rw [popped]
          simp
        · rw [now, time, calls.done]
        · intro tick
          rw [queue]
          exact due tick

end

end SimpleSSD.CPU
