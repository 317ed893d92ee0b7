import SimpleSSD.CPU.InTurn

set_option linter.dupNamespace false

namespace SimpleSSD.CPU

open Data

/-! Which core a job is given to. -/

/-- What a scan for the least has found: an entry of a core that is admitted,
that beats the start, and that is not more than any other. -/
def Found [LE κ] (admitted : Core → Prop) (key : Core → κ)
    (beats : κ → κ → Prop) (list : List Core) (offset : Nat)
    (start result : Nat × κ) : Prop :=
  ∃ (index : Nat) (core : Core), list[index]? = some core ∧
    result = (offset + index, key core) ∧ admitted core ∧
    beats (key core) start.2 ∧
    ∀ other ∈ list, admitted other → key core ≤ key other

theorem Found.cons [LE κ] {admitted : Core → Prop} {key : Core → κ}
    {beats : κ → κ → Prop} {list : List Core} {offset : Nat}
    {start middle result : Nat × κ} {head : Core}
    (found : Found admitted key beats list (offset + 1) middle result)
    (further : ∀ {value}, beats value middle.2 → beats value start.2)
    (first : ∀ {value}, admitted head → beats value middle.2 →
      value ≤ key head) :
    Found admitted key beats (head :: list) offset start result := by
  obtain ⟨index, core, listed, rfl, admits, beaten, all⟩ := found
  refine ⟨index + 1, core, by simpa using listed, ?_, admits, further beaten,
    ?_⟩
  · rw [Nat.add_right_comm, Nat.add_assoc]
  · intro some member admitted
    rcases List.mem_cons.mp member with rfl | member
    · exact first admitted beaten
    · exact all some member admitted

theorem idle_scan (list : List Core) (offset : Nat) (start : Nat × UInt64) :
    let result := (list.zipIdx offset).foldl
      (fun (found : Nat × UInt64) (entry : Core × Nat) =>
        if !entry.1.busy && entry.1.stat.busy < found.2 then
          (entry.2, entry.1.stat.busy)
        else found) start
    (result = start ∧ ∀ core ∈ list, core.busy = false →
        start.2 ≤ core.stat.busy) ∨
      Found (·.busy = false) (·.stat.busy) (· < ·) list offset start
        result := by
  induction list generalizing offset start with
  | nil => exact .inl ⟨rfl, by simp⟩
  | cons head rest induction =>
      simp only [List.zipIdx_cons, List.foldl_cons]
      split
      · next better =>
          simp only [Bool.and_eq_true, Bool.not_eq_true',
            decide_eq_true_eq] at better
          obtain ⟨idle, less⟩ := better
          right
          rcases induction (offset + 1) (offset, head.stat.busy) with
            ⟨same, none⟩ | found
          · rw [same]
            refine ⟨0, head, rfl, rfl, idle, less, ?_⟩
            intro other member admitted
            rcases List.mem_cons.mp member with rfl | member
            · exact UInt64.le_refl _
            · exact none other member admitted
          · apply found.cons
            · exact fun beaten => UInt64.lt_trans beaten less
            · exact fun _ beaten => UInt64.le_of_lt beaten
      · next worse =>
          have worse (idle : head.busy = false) :
              start.2 ≤ head.stat.busy := by
            simpa [idle, UInt64.not_lt] using worse
          rcases induction (offset + 1) start with ⟨same, none⟩ | found
          · left
            refine ⟨same, ?_⟩
            intro core member idle
            rcases List.mem_cons.mp member with rfl | member
            · exact worse idle
            · exact none core member idle
          · right
            apply found.cons id
            intro value idle beaten
            exact UInt64.le_trans (UInt64.le_of_lt beaten) (worse idle)

theorem queue_scan (list : List Core) (offset : Nat) (start : Nat × Nat) :
    let result := (list.zipIdx offset).foldl
      (fun (found : Nat × Nat) (entry : Core × Nat) =>
        if entry.1.jobs.length ≤ found.2 then
          (entry.2, entry.1.jobs.length)
        else found) start
    (result = start ∧ ∀ core ∈ list, start.2 < core.jobs.length) ∨
      Found (fun _ => True) (·.jobs.length) (· ≤ ·) list offset start
        result := by
  induction list generalizing offset start with
  | nil => exact .inl ⟨rfl, by simp⟩
  | cons head rest induction =>
      simp only [List.zipIdx_cons, List.foldl_cons]
      split
      · next better =>
          right
          rcases induction (offset + 1) (offset, head.jobs.length) with
            ⟨same, none⟩ | found
          · rw [same]
            refine ⟨0, head, rfl, rfl, trivial, better, ?_⟩
            intro other member _
            rcases List.mem_cons.mp member with rfl | member
            · exact Nat.le_refl _
            · exact Nat.le_of_lt (none other member)
          · apply found.cons
            · exact fun beaten => Nat.le_trans beaten better
            · exact fun _ beaten => beaten
      · next worse =>
          have worse := Nat.lt_of_not_le worse
          rcases induction (offset + 1) start with ⟨same, none⟩ | found
          · left
            refine ⟨same, ?_⟩
            intro core member
            rcases List.mem_cons.mp member with rfl | member
            · exact worse
            · exact none core member
          · right
            apply found.cons id
            intro value _ beaten
            exact Nat.le_trans beaten (Nat.le_of_lt worse)

def Core.Free (core : Core) : Prop :=
  core.busy = false ∧ core.stat.busy < 0xFFFFFFFFFFFFFFFF

/-- The choice: a free core that has been busy the least, or a core with the
fewest jobs where none is free. -/
structure Chosen (list : List Core) (core : Core) : Prop where
  free : (∃ other ∈ list, other.Free) → core.Free
  least : ∀ other ∈ list, core.Free → other.Free →
    core.stat.busy ≤ other.stat.busy
  fewest : (∀ other ∈ list, ¬other.Free) → ∀ other ∈ list,
    core.jobs.length ≤ other.jobs.length

theorem leastBusyCPU_chosen {list : List Core} (nonempty : list ≠ [])
    (short : ∀ core ∈ list, core.jobs.length < 2 ^ 64) :
    ∃ core, list[leastBusyCPU list]? = some core ∧ Chosen list core := by
  simp only [leastBusyCPU]
  rcases idle_scan list 0 (list.length, 0xFFFFFFFFFFFFFFFF) with
    ⟨same, none⟩ | ⟨index, core, listed, found, idle, less, least⟩
  · have unfree : ∀ other ∈ list, ¬other.Free := by
      intro other member free
      have beyond := none other member free.1
      exact UInt64.not_lt.mpr beyond free.2
    rw [same, if_pos rfl]
    rcases queue_scan list 0 (list.length, 0xFFFFFFFFFFFFFFFF) with
      ⟨_, long⟩ | ⟨index, core, listed, found, _, _, fewest⟩
    · obtain ⟨head, member⟩ := List.exists_mem_of_ne_nil list nonempty
      have long := long head member
      have short := short head member
      simp only at long
      omega
    · rw [found, Nat.zero_add]
      refine ⟨core, listed, ?_, ?_, ?_⟩
      · intro some
        obtain ⟨other, member, free⟩ := some
        exact absurd free (unfree other member)
      · intro other member _ free
        exact absurd free (unfree other member)
      · intro _ other member
        exact fewest other member trivial
  · have inside := (List.getElem?_eq_some_iff.mp listed).1
    rw [found, Nat.zero_add, if_neg (Nat.ne_of_lt inside)]
    have free : core.Free := ⟨idle, less⟩
    refine ⟨core, listed, fun _ => free, ?_, ?_⟩
    · intro other member _ freed
      exact least other member freed.1
    · intro unfree
      exact absurd free (unfree core (List.mem_of_getElem? listed))

namespace CPU

variable {cpu after : CPU} {log happenings : List Happening}

/-- A job begins as soon as it may if one of the cores is free. -/
theorem Kept.begins (kept : cpu.Kept log) {ns : Namespace} {fct : UInt16}
    {func : Nat} {delay : UInt64}
    (done : cpu.execute ns fct func delay = .ok (after, happenings))
    (some : cpu.core ns.group ≠ [])
    (short : ∀ core ∈ cpu.core ns.group, core.jobs.length < 2 ^ 64) :
    ∃ index core inst, (cpu.core ns.group)[index]? = .some core ∧
      Chosen (cpu.core ns.group) core ∧ cpu.cpi ns fct = .some inst ∧
      happenings = [.submitted ns.group index
        ⟨func, inst, cpu.sim.engine.simTick, delay⟩] ∧
      (core.Free → doneWith (submittedTo ns.group index (log ++ happenings)) =
        cpu.sim.engine.simTick.toNat + delay.toNat + inst.latency.toNat) := by
  simp only [CPU.execute] at done
  split at done
  · obtain ⟨⟨index, core, inst⟩, chosen, done⟩ := bind_ok done
    obtain ⟨⟨changed, next⟩, accepted, done⟩ := bind_ok done
    cases done
    obtain ⟨found, listed, rfl⟩ := find_ok chosen
    obtain ⟨core', found', choice⟩ := leastBusyCPU_chosen some short
    rw [found] at found'
    cases found'
    refine ⟨_, core, inst, found, choice, listed, rfl, ?_⟩
    intro free
    have turn := kept.turn found
    generalize submits : submittedTo ns.group _ log = submitted at turn
    generalize calls : calledBy ns.group _ log = called at turn
    generalize dones : doneBy ns.group _ log = left at turn
    rw [submittedTo_submitted, submits]
    cases turn with
    | calls within =>
        have idle := free.1
        rw [within.busy] at idle
        cases idle
    | @waits past waiting waits =>
        have none : waiting = [] := by
          by_contra some
          have idle := free.1
          rw [waits.busy.mpr some] at idle
          cases idle
        have beyond := waits.done
        subst none
        simp only [List.append_nil, doneWith_concat, JobEntry.task, Task.finish]
        omega
  · next none => exact absurd (List.length_pos_of_ne_nil some) none

/-- In every state a job goes to a free core that has been busy the least, and
is done with after its delay and its latency, or to a core with the fewest jobs
if none is free. -/
theorem execute_chooses {cpi : Namespace → UInt16 → Option InstStat}
    {hil icl ftl : Nat} {calls : List Sim.Call} {sim : Sim.Run} {start : CPU}
    (simulated : Sim.Run.start.performAll calls = .ok sim)
    (idle : sim.running = [])
    (made : CPU.make cpi hil icl ftl sim = .ok start)
    (reaches : Reaches start log cpu) (fits : Fits log) {ns : Namespace}
    {fct : UInt16} {func : Nat} {delay : UInt64}
    (done : cpu.execute ns fct func delay = .ok (after, happenings))
    (some : cpu.core ns.group ≠ [])
    (short : ∀ core ∈ cpu.core ns.group, core.jobs.length < 2 ^ 64) :
    ∃ index core inst, (cpu.core ns.group)[index]? = .some core ∧
      Chosen (cpu.core ns.group) core ∧ cpu.cpi ns fct = .some inst ∧
      happenings = [.submitted ns.group index
        ⟨func, inst, cpu.sim.engine.simTick, delay⟩] ∧
      (core.Free → doneWith (submittedTo ns.group index (log ++ happenings)) =
        cpu.sim.engine.simTick.toNat + delay.toNat + inst.latency.toNat) := by
  have order := Sim.Run.start_inOrder.performAll simulated
  exact ((make_kept order idle made).of_reaches reaches fits).begins done some
    short

/-- The second job goes to the second core. -/
theorem execute_chooses_second :
    ∃ (log : List Happening) (cpu : CPU), ∃ core inst,
      (cpu.core .ftl)[1]? = some core ∧ Chosen (cpu.core .ftl) core ∧
      cpu.cpi .ftlPageMapping 1 = some inst ∧ log ≠ [] ∧
      (core.Free → doneWith (submittedTo .ftl 1 (log ++
        [.submitted .ftl 1 ⟨8, inst, cpu.sim.engine.simTick, 100⟩])) =
          cpu.sim.engine.simTick.toNat + 100 + inst.latency.toNat) := by
  let cpi : Namespace → UInt16 → Option InstStat :=
    fun _ _ => some (.make 5 32 6 13 0 1 2500)
  have found : (CPU.make cpi 0 0 2 .start).toOption.any (fun start =>
      (follow [.execute .ftl 0 7 0] ([], start)).any fun reached =>
        Fits reached.1 ∧ reached.1.length = 1 ∧
          (reached.2.core .ftl).length = 2 ∧
          (∀ core ∈ reached.2.core .ftl, core.jobs.length < 2 ^ 64) ∧
            (reached.2.execute .ftlPageMapping 1 8 100).toOption.any
              fun done => done.2.map Happening.place = [some (.ftl, 1)]) =
      true := by
    decide +kernel
  obtain ⟨start, made, found⟩ := (Option.any_eq_true _ _).mp found
  obtain ⟨reached, followed, holds⟩ := (Option.any_eq_true _ _).mp found
  obtain ⟨fits, once, two, short, runs⟩ := of_decide_eq_true holds
  obtain ⟨⟨after, happenings⟩, done, second⟩ :=
    (Option.any_eq_true _ _).mp runs
  have some : reached.2.core .ftl ≠ [] := by
    intro none
    rw [none] at two
    cases two
  obtain ⟨index, core, inst, there, chosen, listed, rfl, begins⟩ :=
    execute_chooses (rfl : Sim.Run.start.performAll [] = .ok .start) rfl
      (toOption_ok made) (follow_reaches .start followed) fits
      (toOption_ok done) some short
  have chose : index = 1 :=
    (Prod.mk.inj (Option.some.inj
      (List.cons.inj (of_decide_eq_true second)).1)).2
  subst chose
  refine ⟨reached.1, reached.2, core, inst, there, chosen, listed, ?_, begins⟩
  intro empty
  rw [empty] at once
  cases once

end CPU

end SimpleSSD.CPU
