import SimpleSSD.Data.Result
import SimpleSSD.Sim.Order

namespace SimpleSSD.Sim

/-! Runs of the engine.  The calls of an event function come between the call
of `doNextEvent` that enters it and its return. -/

inductive Call where
  | allocateEvent
  | scheduleEvent (eid : Event) (tick : UInt64)
  | descheduleEvent (eid : Event)
  | deallocateEvent (eid : Event)
  | stopEngine
  | doNextEvent
  /-- The innermost event function returns. -/
  | eventReturned
  deriving DecidableEq, Repr

/-- A call of a component that does not own the event: it leaves the entry of
the event and the clock alone. -/
def Call.Foreign (event : Event) : Call → Prop
  | .scheduleEvent eid _ => eid ≠ event
  | .descheduleEvent eid => eid ≠ event
  | .deallocateEvent eid => eid ≠ event
  | .doNextEvent => False
  | .allocateEvent | .stopEngine | .eventReturned => True

instance (event : Event) : (call : Call) → Decidable (call.Foreign event)
  | .scheduleEvent eid _ => inferInstanceAs (Decidable (eid ≠ event))
  | .descheduleEvent eid => inferInstanceAs (Decidable (eid ≠ event))
  | .deallocateEvent eid => inferInstanceAs (Decidable (eid ≠ event))
  | .doNextEvent => inferInstanceAs (Decidable False)
  | .allocateEvent | .stopEngine | .eventReturned =>
      inferInstanceAs (Decidable True)

/-- An event function that was entered: its entry, and the number of the call
that placed the entry. -/
structure Entered where
  entry : Entry
  placed : Nat
  deriving DecidableEq, Repr

/-- The engine, the event functions it is in, and the history of the calls. -/
structure Run where
  engine : Engine
  running : List Event
  calls : Nat
  /-- For each event the number of the call that last placed its entry. -/
  placed : Event → Nat
  entered : List Entered

namespace Run

def start : Run where
  engine := .make
  running := []
  calls := 0
  placed := fun _ => 0
  entered := []

/-- Scheduling an entry to the tick it already has does not place it again. -/
def place (run : Run) (eid : Event) (tick : UInt64) : Event → Nat :=
  if run.engine.isEventExist eid = some (max tick run.engine.simTick) then
    run.placed
  else
    fun other => if other = eid then run.calls else run.placed other

def enter (run : Run) : Option Entry × Engine → Run
  | (none, engine) => { run with engine := engine }
  | (some now, engine) =>
      { run with
        engine := engine
        running := now.first :: run.running
        entered := run.entered ++ [⟨now, run.placed now.first⟩] }

def leave (run : Run) : Run :=
  match run.running with
  | [] => run
  | _ :: running =>
      { run with engine := run.engine.eventReturned, running := running }

def make (run : Run) : Call → Except Panic Run
  | .allocateEvent => do
      let engine ← run.engine.allocateEvent
      pure { run with engine := engine }
  | .scheduleEvent eid tick => do
      let engine ← run.engine.scheduleEvent eid tick
      pure { run with engine := engine, placed := run.place eid tick }
  | .descheduleEvent eid => do
      let engine ← run.engine.descheduleEvent eid
      pure { run with engine := engine }
  | .deallocateEvent eid => do
      let engine ← run.engine.deallocateEvent eid
      pure { run with engine := engine }
  | .stopEngine => pure { run with engine := run.engine.stopEngine }
  | .doNextEvent => do
      let next ← run.engine.doNextEvent
      pure (run.enter next)
  | .eventReturned => pure run.leave

def counted (run : Run) : Run :=
  { run with calls := run.calls + 1 }

def perform (run : Run) (call : Call) : Except Panic Run :=
  (run.make call).map counted

def performAll (run : Run) (calls : List Call) : Except Panic Run :=
  calls.foldlM perform run

end Run

/-- The order of the queue: the tick, and among equal ticks the call that
placed the entry. -/
def Before (placed : Event → Nat) (first second : Entry) : Prop :=
  first.second < second.second ∨
    first.second = second.second ∧ placed first.first < placed second.first

def Entered.Before (first second : Entered) : Prop :=
  first.entry.second < second.entry.second ∨
    first.entry.second = second.entry.second ∧ first.placed < second.placed

/-- The queue and the history are in the one order, and so is the history
before the queue. -/
structure Run.InOrder (run : Run) : Prop where
  ordered : run.engine.Ordered
  queue : run.engine.eventQueue.Pairwise (Before run.placed)
  placed : ∀ entry ∈ run.engine.eventQueue,
    run.placed entry.first < run.calls
  entered : run.entered.Pairwise Entered.Before
  past : ∀ old ∈ run.entered,
    old.entry.second ≤ run.engine.simTick ∧ old.placed < run.calls
  ahead : ∀ old ∈ run.entered, ∀ entry ∈ run.engine.eventQueue,
    old.Before ⟨entry, run.placed entry.first⟩

namespace Run

variable {run next : Run}

theorem start_inOrder : start.InOrder where
  ordered := Engine.make_ordered
  queue := List.Pairwise.nil
  placed := by simp [start, Engine.make]
  entered := List.Pairwise.nil
  past := by simp [start]
  ahead := by simp [start]

/-- A call that places nothing: entries may go, the rest stays. -/
theorem InOrder.sublist (horder : run.InOrder)
    (hordered : next.engine.Ordered)
    (hqueue : next.engine.eventQueue.Sublist run.engine.eventQueue)
    (htick : next.engine.simTick = run.engine.simTick)
    (hplaced : next.placed = run.placed) (hcalls : run.calls ≤ next.calls)
    (hentered : next.entered = run.entered) : next.InOrder where
  ordered := hordered
  queue := by
    rw [hplaced]
    exact horder.queue.sublist hqueue
  placed := by
    intro entry hentry
    rw [hplaced]
    exact Nat.lt_of_lt_of_le (horder.placed entry (hqueue.subset hentry)) hcalls
  entered := by
    rw [hentered]
    exact horder.entered
  past := by
    intro old hold
    rw [hentered] at hold
    rw [htick]
    exact ⟨(horder.past old hold).1,
      Nat.lt_of_lt_of_le (horder.past old hold).2 hcalls⟩
  ahead := by
    intro old hold entry hentry
    rw [hentered] at hold
    rw [hplaced]
    exact horder.ahead old hold entry (hqueue.subset hentry)

/-- The run after a call of `scheduleEvent` has found the entry at its place
or put it at a new one. -/
theorem place_eq (horder : run.InOrder) (eid : Event) (tick : UInt64) :
    run.place eid tick =
      if ⟨eid, max tick run.engine.simTick⟩ ∈ run.engine.eventQueue then
        run.placed
      else
        fun other => if other = eid then run.calls else run.placed other := by
  unfold place
  exact if_congr (horder.ordered.isEventExist_iff _ _) rfl rfl

theorem InOrder.scheduleEvent {engine : Engine} {eid : Event} {tick : UInt64}
    (horder : run.InOrder)
    (h : run.engine.scheduleEvent eid tick = .ok engine) :
    InOrder
      { run with
        engine := engine
        placed := run.place eid tick
        calls := run.calls + 1 } := by
  have hordered := horder.ordered.scheduleEvent h
  rw [place_eq horder]
  obtain ⟨hmem, rfl⟩ | ⟨before, after, hsplit, hmem, rfl, hbefore, hafter⟩ :=
    horder.ordered.scheduled h
  · rw [if_pos hmem]
    exact horder.sublist hordered (List.Sublist.refl _) rfl rfl
      (Nat.le_succ _) rfl
  rw [if_neg hmem]
  have hold : ∀ other ∈ before ++ after,
      other ∈ run.engine.eventQueue ∧ other.first ≠ eid :=
    fun other hother => Engine.Ordered.mem_others hsplit hother
  have hsub : (before ++ after).Sublist run.engine.eventQueue := by
    rw [← hsplit]
    exact List.filter_sublist
  have hqueue := horder.queue.sublist hsub
  rw [List.pairwise_append] at hqueue
  have hkept : ∀ other ∈ before ++ after,
      (if other.first = eid then run.calls else run.placed other.first) =
        run.placed other.first :=
    fun other hother => if_neg (hold other hother).2
  refine ⟨hordered, ?_, ?_, horder.entered, ?_, ?_⟩
  · -- the new entry has the last call's number: it follows what is due with it
    refine List.pairwise_append.mpr ⟨?_, List.pairwise_cons.mpr ⟨?_, ?_⟩, ?_⟩
    · refine hqueue.1.imp_of_mem ?_
      intro first second hfirst hsecond hlt
      simpa [Before, hkept first (List.mem_append_left _ hfirst),
        hkept second (List.mem_append_left _ hsecond)] using hlt
    · intro other hother
      exact .inl (hafter other hother)
    · refine hqueue.2.1.imp_of_mem ?_
      intro first second hfirst hsecond hlt
      simpa [Before, hkept first (List.mem_append_right _ hfirst),
        hkept second (List.mem_append_right _ hsecond)] using hlt
    · intro first hfirst second hsecond
      have hfirst' := List.mem_append_left after hfirst
      rcases List.mem_cons.mp hsecond with rfl | hsecond
      · have hlt := horder.placed first (hold first hfirst').1
        rcases UInt64.lt_or_eq_of_le (hbefore first hfirst) with hle | heq
        · exact .inl hle
        · exact .inr ⟨heq, by simpa [(hold first hfirst').2] using hlt⟩
      · simpa [Before, hkept first hfirst',
          hkept second (List.mem_append_right _ hsecond)] using
            hqueue.2.2 first hfirst second hsecond
  · intro entry hentry
    dsimp only
    split
    · exact Nat.lt_succ_self _
    · rename_i hne
      have hin : entry ∈ before ++ after := by
        rcases List.mem_append.mp hentry with hl | hr
        · exact List.mem_append_left _ hl
        · rcases List.mem_cons.mp hr with rfl | hr
          · exact absurd rfl hne
          · exact List.mem_append_right _ hr
      exact Nat.lt_succ_of_lt (horder.placed entry (hold entry hin).1)
  · intro old hin
    exact ⟨(horder.past old hin).1, Nat.lt_succ_of_lt (horder.past old hin).2⟩
  · intro old hin entry hentry
    rcases List.mem_cons.mp (List.perm_middle.mem_iff.mp hentry) with
      rfl | hentry
    · have hpast := horder.past old hin
      have hle : old.entry.second ≤ max tick run.engine.simTick :=
        UInt64.le_trans hpast.1 (by rw [UInt64.max_def]; grind)
      rcases UInt64.lt_or_eq_of_le hle with hlt | heq
      · exact .inl hlt
      · exact .inr ⟨heq, by simpa using hpast.2⟩
    · simpa [hkept entry hentry] using
        horder.ahead old hin entry (hold entry hentry).1

theorem InOrder.taken {now : Entry} {rest : List Entry}
    (horder : run.InOrder) (hqueue : run.engine.eventQueue = now :: rest) :
    InOrder
      { run.enter (some now,
          { run.engine with simTick := now.second, eventQueue := rest }) with
        calls := run.calls + 1 } := by
  have hnow : now ∈ run.engine.eventQueue := by
    rw [hqueue]
    exact List.mem_cons_self
  have hrest : ∀ entry ∈ rest, entry ∈ run.engine.eventQueue := by
    intro entry hentry
    rw [hqueue]
    exact List.mem_cons_of_mem _ hentry
  have hsorted := horder.queue
  rw [hqueue, List.pairwise_cons] at hsorted
  refine ⟨horder.ordered.taken hqueue, hsorted.2, ?_, ?_, ?_, ?_⟩
  · intro entry hentry
    exact Nat.lt_succ_of_lt (horder.placed entry (hrest entry hentry))
  · refine List.pairwise_append.mpr
      ⟨horder.entered, List.pairwise_singleton _ _, ?_⟩
    intro old hold new hnew
    rw [List.mem_singleton.mp hnew]
    exact horder.ahead old hold now hnow
  · intro old hold
    rcases List.mem_append.mp hold with hold | hold
    · exact ⟨UInt64.le_trans (horder.past old hold).1
          (horder.ordered.due now hnow),
        Nat.lt_succ_of_lt (horder.past old hold).2⟩
    · rw [List.mem_singleton.mp hold]
      exact ⟨UInt64.le_refl _, Nat.lt_succ_of_lt (horder.placed now hnow)⟩
  · intro old hold entry hentry
    rcases List.mem_append.mp hold with hold | hold
    · exact horder.ahead old hold entry (hrest entry hentry)
    · rw [List.mem_singleton.mp hold]
      exact hsorted.1 entry hentry

theorem perform_ok {call : Call} (h : run.perform call = .ok next) :
    ∃ made, run.make call = .ok made ∧ next = made.counted := by
  unfold perform at h
  cases hmake : run.make call with
  | error panic =>
      rw [hmake] at h
      cases h
  | ok made =>
      rw [hmake] at h
      exact ⟨made, rfl, (Except.ok.inj h).symm⟩

theorem InOrder.perform {call : Call} (horder : run.InOrder)
    (h : run.perform call = .ok next) :
    next.InOrder ∧ run.engine.simTick ≤ next.engine.simTick := by
  obtain ⟨made, hmake, rfl⟩ := perform_ok h
  cases call with
  | allocateEvent =>
      obtain ⟨engine, hengine, hmade⟩ := Data.bind_ok hmake
      obtain rfl := Except.ok.inj hmade
      have hordered := horder.ordered.allocateEvent hengine
      obtain ⟨-, rfl⟩ := Engine.allocateEvent_ok hengine
      exact ⟨horder.sublist hordered (List.Sublist.refl _) rfl rfl
        (Nat.le_succ _) rfl, UInt64.le_refl _⟩
  | scheduleEvent eid tick =>
      obtain ⟨engine, hengine, hmade⟩ := Data.bind_ok hmake
      obtain rfl := Except.ok.inj hmade
      have horder' := horder.scheduleEvent hengine
      obtain ⟨-, rfl⟩ := Engine.scheduleEvent_ok hengine
      exact ⟨horder', UInt64.le_refl _⟩
  | descheduleEvent eid =>
      obtain ⟨engine, hengine, hmade⟩ := Data.bind_ok hmake
      obtain rfl := Except.ok.inj hmade
      have hordered := horder.ordered.descheduleEvent hengine
      obtain rfl := Engine.descheduleEvent_ok hengine
      exact ⟨horder.sublist hordered List.eraseP_sublist rfl rfl
        (Nat.le_succ _) rfl, UInt64.le_refl _⟩
  | deallocateEvent eid =>
      obtain ⟨engine, hengine, hmade⟩ := Data.bind_ok hmake
      obtain rfl := Except.ok.inj hmade
      have hordered := horder.ordered.deallocateEvent hengine
      obtain rfl := Engine.deallocateEvent_ok hengine
      exact ⟨horder.sublist hordered List.eraseP_sublist rfl rfl
        (Nat.le_succ _) rfl, UInt64.le_refl _⟩
  | stopEngine =>
      obtain rfl := Except.ok.inj hmake
      exact ⟨horder.sublist { horder.ordered with } (List.Sublist.refl _) rfl
        rfl (Nat.le_succ _) rfl, UInt64.le_refl _⟩
  | doNextEvent =>
      obtain ⟨result, hresult, hmade⟩ := Data.bind_ok hmake
      obtain rfl := Except.ok.inj hmade
      obtain hnone | ⟨now, rest, -, hqueue, hsome⟩ :=
        horder.ordered.doNextEvent_eq
      · rw [hnone] at hresult
        obtain rfl := Except.ok.inj hresult
        exact ⟨horder.sublist horder.ordered (List.Sublist.refl _) rfl rfl
          (Nat.le_succ _) rfl, UInt64.le_refl _⟩
      · rw [hsome] at hresult
        obtain rfl := Except.ok.inj hresult
        exact ⟨horder.taken hqueue, horder.ordered.due now
          (by rw [hqueue]; exact List.mem_cons_self)⟩
  | eventReturned =>
      obtain rfl := Except.ok.inj hmake
      unfold leave
      split
      · exact ⟨horder.sublist horder.ordered (List.Sublist.refl _) rfl rfl
          (Nat.le_succ _) rfl, UInt64.le_refl _⟩
      · exact ⟨horder.sublist { horder.ordered with } (List.Sublist.refl _)
          rfl rfl (Nat.le_succ _) rfl, UInt64.le_refl _⟩

theorem InOrder.performAll {calls : List Call} (horder : run.InOrder)
    (h : run.performAll calls = .ok next) : next.InOrder := by
  induction calls generalizing run with
  | nil =>
      obtain rfl := Except.ok.inj h
      exact horder
  | cons call calls ih =>
      obtain ⟨middle, hcall, hcalls⟩ := Data.bind_ok h
      exact ih (horder.perform hcall).1 hcalls

theorem InOrder.schedules {eid : Event} {tick : UInt64} (horder : run.InOrder)
    (h : run.perform (.scheduleEvent eid tick) = .ok next) :
    next.engine.eventQueue.filter (·.first = eid) =
        [⟨eid, max tick run.engine.simTick⟩] ∧
      others eid next.engine.eventQueue = others eid run.engine.eventQueue ∧
      (⟨eid, max tick run.engine.simTick⟩ ∈ run.engine.eventQueue →
        next.engine.eventQueue = run.engine.eventQueue ∧
          next.placed = run.placed) ∧
      (⟨eid, max tick run.engine.simTick⟩ ∉ run.engine.eventQueue →
        next.placed eid = run.calls) := by
  obtain ⟨made, hmake, rfl⟩ := perform_ok h
  obtain ⟨engine, hengine, hmade⟩ := Data.bind_ok hmake
  obtain rfl := Except.ok.inj hmade
  dsimp only [counted]
  rw [place_eq horder]
  obtain ⟨hmem, rfl⟩ | ⟨before, after, hsplit, hmem, rfl, hbefore, hafter⟩ :=
    horder.ordered.scheduled hengine
  · refine ⟨?_, rfl, fun _ => ⟨rfl, if_pos hmem⟩, fun hout => absurd hmem hout⟩
    obtain ⟨before, after, hqueue⟩ := List.append_of_mem hmem
    have hunique := horder.ordered.unique
    rw [hqueue] at hunique ⊢
    exact (filter_middle (keys_split hunique)).1
  · have hmiddle := @filter_middle before after
      ⟨eid, max tick run.engine.simTick⟩
      (fun other hother => (Engine.Ordered.mem_others hsplit hother).2)
    refine ⟨hmiddle.1, hmiddle.2.trans hsplit.symm, fun hin => absurd hin hmem,
      fun _ => ?_⟩
    rw [if_neg hmem]
    simp

theorem mem_others {eid event : Event} {queue : List Entry} {tick : UInt64}
    (hforeign : eid ≠ event) :
    ⟨event, tick⟩ ∈ others eid queue ↔ ⟨event, tick⟩ ∈ queue := by
  simp [others, Ne.symm hforeign]

theorem InOrder.foreign {call : Call} {event : Event} (horder : run.InOrder)
    (hforeign : call.Foreign event) (h : run.perform call = .ok next) :
    next.engine.simTick = run.engine.simTick ∧
      ∀ tick, ⟨event, tick⟩ ∈ next.engine.eventQueue ↔
        ⟨event, tick⟩ ∈ run.engine.eventQueue := by
  obtain ⟨made, hmake, rfl⟩ := perform_ok h
  cases call with
  | allocateEvent =>
      obtain ⟨engine, hengine, hmade⟩ := Data.bind_ok hmake
      obtain rfl := Except.ok.inj hmade
      obtain ⟨-, rfl⟩ := Engine.allocateEvent_ok hengine
      exact ⟨rfl, fun tick => Iff.rfl⟩
  | scheduleEvent eid tick =>
      have hothers := (horder.schedules h).2.1
      obtain ⟨engine, hengine, hmade⟩ := Data.bind_ok hmake
      obtain rfl := Except.ok.inj hmade
      obtain ⟨-, rfl⟩ := Engine.scheduleEvent_ok hengine
      refine ⟨rfl, fun tick => ?_⟩
      rw [← mem_others hforeign, hothers, mem_others hforeign]
  | descheduleEvent eid =>
      obtain ⟨engine, hengine, hmade⟩ := Data.bind_ok hmake
      obtain rfl := Except.ok.inj hmade
      obtain rfl := Engine.descheduleEvent_ok hengine
      refine ⟨rfl, fun tick => ?_⟩
      dsimp only [counted]
      rw [Engine.removeEvent_eq horder.ordered.unique, mem_others hforeign]
  | deallocateEvent eid =>
      obtain ⟨engine, hengine, hmade⟩ := Data.bind_ok hmake
      obtain rfl := Except.ok.inj hmade
      obtain rfl := Engine.deallocateEvent_ok hengine
      refine ⟨rfl, fun tick => ?_⟩
      dsimp only [counted]
      rw [Engine.removeEvent_eq horder.ordered.unique, mem_others hforeign]
  | stopEngine =>
      obtain rfl := Except.ok.inj hmake
      exact ⟨rfl, fun tick => Iff.rfl⟩
  | doNextEvent => exact hforeign.elim
  | eventReturned =>
      obtain rfl := Except.ok.inj hmake
      unfold leave
      split
      · exact ⟨rfl, fun tick => Iff.rfl⟩
      · exact ⟨rfl, fun tick => Iff.rfl⟩

theorem InOrder.own {event : Event} {tick : UInt64} (horder : run.InOrder)
    (h : run.perform (.scheduleEvent event tick) = .ok next) :
    next.engine.simTick = run.engine.simTick ∧
      ∀ due, ⟨event, due⟩ ∈ next.engine.eventQueue ↔
        due = max tick run.engine.simTick := by
  have hone := (horder.schedules h).1
  obtain ⟨made, hmake, rfl⟩ := perform_ok h
  obtain ⟨engine, hengine, hmade⟩ := Data.bind_ok hmake
  obtain rfl := Except.ok.inj hmade
  obtain ⟨-, rfl⟩ := Engine.scheduleEvent_ok hengine
  refine ⟨rfl, fun due => ?_⟩
  have hfilter : ⟨event, due⟩ ∈ [(⟨event, max tick run.engine.simTick⟩ : Entry)]
      ↔ due = max tick run.engine.simTick := by simp
  rw [← hfilter, ← hone, List.mem_filter]
  simp

theorem InOrder.takes (horder : run.InOrder)
    (h : run.perform .doNextEvent = .ok next) :
    next.running = run.running ∧ next.engine = run.engine ∨
      ∃ now, next.running = now.first :: run.running ∧
        run.engine.eventQueue = now :: next.engine.eventQueue ∧
        next.engine.simTick = now.second := by
  obtain ⟨made, hmake, rfl⟩ := perform_ok h
  obtain ⟨result, hresult, hmade⟩ := Data.bind_ok hmake
  obtain rfl := Except.ok.inj hmade
  obtain hnone | ⟨now, rest, -, hqueue, hsome⟩ := horder.ordered.doNextEvent_eq
  · rw [hnone] at hresult
    obtain rfl := Except.ok.inj hresult
    exact .inl ⟨rfl, rfl⟩
  · rw [hsome] at hresult
    obtain rfl := Except.ok.inj hresult
    exact .inr ⟨now, rfl, hqueue, rfl⟩

end Run

/-- In every state that calls reach, also within event functions, the queue is
in order; the clock never goes back; `scheduleEvent` leaves one entry for the
event and the others as they were; and event functions are entered in the
order of their ticks and, within a tick, of their last placement. -/
theorem event_order (calls : List Call) (run : Run)
    (hrun : Run.start.performAll calls = .ok run) :
    run.engine.Ordered ∧
      (∀ call next, run.perform call = .ok next →
        run.engine.simTick ≤ next.engine.simTick) ∧
      (∀ eid tick next, run.perform (.scheduleEvent eid tick) = .ok next →
        next.engine.eventQueue.filter (·.first = eid) =
            [⟨eid, max tick run.engine.simTick⟩] ∧
          others eid next.engine.eventQueue =
            others eid run.engine.eventQueue ∧
          (⟨eid, max tick run.engine.simTick⟩ ∈ run.engine.eventQueue →
            next.engine.eventQueue = run.engine.eventQueue ∧
              next.placed = run.placed) ∧
          (⟨eid, max tick run.engine.simTick⟩ ∉ run.engine.eventQueue →
            next.placed eid = run.calls)) ∧
      run.engine.eventQueue.Pairwise (Before run.placed) ∧
      run.entered.Pairwise Entered.Before ∧
      (∀ now rest, run.engine.forceStop = false →
        run.engine.eventQueue = now :: rest →
        ∃ next, run.perform .doNextEvent = .ok next ∧
          next.engine.simTick = now.second ∧
          next.engine.eventQueue = rest ∧
          next.entered =
            run.entered ++ [⟨now, run.placed now.first⟩]) := by
  have horder := Run.start_inOrder.performAll hrun
  refine ⟨horder.ordered, fun call next h => (horder.perform h).2,
    fun eid tick next h => horder.schedules h, horder.queue, horder.entered,
    ?_⟩
  intro now rest hgo hqueue
  have hnext : run.engine.doNextEvent = .ok (some now,
      { run.engine with simTick := now.second, eventQueue := rest }) := by
    obtain hnone | ⟨front, back, -, hcons, hsome⟩ :=
      horder.ordered.doNextEvent_eq
    · simp [Engine.doNextEvent, hgo, hqueue, horder.ordered.allocated now
        (by rw [hqueue]; exact List.mem_cons_self)] at hnone
      cases hnone
    · rw [hqueue] at hcons
      obtain ⟨rfl, rfl⟩ := List.cons.inj hcons
      exact hsome
  refine ⟨(run.enter (some now,
    { run.engine with simTick := now.second, eventQueue := rest })).counted,
    ?_, rfl, rfl, rfl⟩
  simp only [Run.perform, Run.make, hnext]
  rfl

def twoEvents : List Call :=
  [.allocateEvent, .allocateEvent, .scheduleEvent 2 5, .scheduleEvent 1 5,
    .scheduleEvent 2 5, .doNextEvent, .scheduleEvent 1 3, .scheduleEvent 2 9]

def twoEventsRun : Run :=
  (Run.start.performAll twoEvents).toOption.getD .start

theorem event_order_two_events :
    Run.start.performAll twoEvents = .ok twoEventsRun ∧
      twoEventsRun.engine.eventQueue = [⟨1, 5⟩, ⟨2, 9⟩] ∧
      twoEventsRun.engine.Ordered := by
  have hrun : Run.start.performAll twoEvents = .ok twoEventsRun := rfl
  exact ⟨hrun, by decide +kernel, (event_order twoEvents twoEventsRun hrun).1⟩

end SimpleSSD.Sim
