import SimpleSSD.HIL.CompletionQueue

namespace SimpleSSD.HIL

/-- The request does not arrive, with nothing waiting, to be finished at the
tick that `lastScheduled` still holds. -/
def Step.Timely (hil : HostInterface) : Step → Prop
  | .arrive _ finishedAt =>
      ¬(hil.phase = .idle ∧ hil.completionQueue = [] ∧
        finishedAt = hil.lastScheduled)
  | _ => True

namespace HostInterface

def Timely (hil : HostInterface) : List Step → Prop
  | [] => True
  | step :: steps =>
      step.Timely hil ∧
        ∀ next, hil.perform step = some next → next.Timely steps

instance : (step : Step) → (hil : HostInterface) → Decidable (step.Timely hil)
  | .arrive _ finishedAt, hil =>
      inferInstanceAs (Decidable (¬(hil.phase = .idle ∧
        hil.completionQueue = [] ∧ finishedAt = hil.lastScheduled)))
  | .others _, _ | .doNextEvent, _ | .call _, _ | .pop, _ | .leave, _ =>
      inferInstanceAs (Decidable True)

instance decidableTimely :
    (steps : List Step) → (hil : HostInterface) → Decidable (hil.Timely steps)
  | [], _ => inferInstanceAs (Decidable True)
  | step :: steps, hil =>
      match h : hil.perform step with
      | none =>
          decidable_of_iff (step.Timely hil)
            (by simp [Timely, h])
      | some next =>
          have := decidableTimely steps next
          decidable_of_iff (step.Timely hil ∧ next.Timely steps)
            (by simp [Timely, h])

def waiting (hil : HostInterface) : List Request :=
  match hil.phase with
  | .calling request => hil.completionQueue.erase request
  | _ => hil.completionQueue

/-- The event of the HIL is in the queue of the engine. -/
def Scheduled (hil : HostInterface) (tick : UInt64) : Prop :=
  ⟨hil.completionEvent, tick⟩ ∈ hil.sim.engine.eventQueue

/-- When `completionEvent` fires, and what `lastScheduled` is good for. -/
structure Punctual (hil : HostInterface) : Prop where
  order : hil.sim.InOrder
  remembered : ∀ tick, hil.Scheduled tick → hil.lastScheduled ≤ tick
  awaited : hil.phase = .idle → hil.completionQueue ≠ [] →
    hil.topFinishedAt = some hil.lastScheduled ∧
      hil.Scheduled hil.lastScheduled
  entered : hil.phase ≠ .idle → hil.lastScheduled ≤ hil.tick
  calling : ∀ request, hil.phase = .calling request →
    request ∈ hil.completionQueue ∧ request.finishedAt ≤ hil.tick
  onTime : ∀ request ∈ hil.completionQueue, hil.tick ≤ request.finishedAt

structure Recorded (hil : HostInterface) : Prop where
  all : hil.arrived.Perm (hil.called.map Called.request ++ hil.waiting)
  numbers : hil.arrived.map Request.number = List.range hil.arrived.length
  late : ∀ call ∈ hil.called,
    call.request.finishedAt ≤ call.tick ∧ call.tick ≤ hil.tick
  sorted : (hil.called.map Called.request).Pairwise
    (fun first second => first.finishedAt ≤ second.finishedAt)
  next : ∀ call ∈ hil.called, ∀ request ∈ hil.waiting,
    call.request.finishedAt ≤ request.finishedAt

variable {hil next : HostInterface}

theorem topFinishedAt_spec (hil : HostInterface) :
    (hil.completionQueue = [] ∧ hil.topFinishedAt = none) ∨
      ∃ finishedAt, hil.topFinishedAt = some finishedAt ∧
        (∃ request ∈ hil.completionQueue,
          request.finishedAt = finishedAt) ∧
        ∀ request ∈ hil.completionQueue,
          finishedAt ≤ request.finishedAt := by
  unfold topFinishedAt
  cases htop : (hil.completionQueue.map Request.finishedAt).min? with
  | none =>
      refine .inl ⟨?_, rfl⟩
      simpa using List.min?_eq_none_iff.mp htop
  | some finishedAt =>
      obtain ⟨hmem, hle⟩ := List.min?_eq_some_iff.mp htop
      obtain ⟨request, hrequest, heq⟩ := List.mem_map.mp hmem
      exact .inr ⟨finishedAt, rfl, ⟨request, hrequest, heq⟩,
        fun other hother => hle _ (List.mem_map_of_mem hother)⟩

theorem updateCompletion_cases (horder : hil.sim.InOrder)
    (h : hil.updateCompletion = some next) :
    (next = hil ∧ (hil.completionQueue = [] ∨
        hil.topFinishedAt = some hil.lastScheduled)) ∨
      ∃ finishedAt sim, hil.topFinishedAt = some finishedAt ∧
        hil.lastScheduled ≠ finishedAt ∧
        next = { hil with sim := sim, lastScheduled := finishedAt } ∧
        sim.InOrder ∧ sim.engine.simTick = hil.sim.engine.simTick ∧
        ∀ tick, ⟨hil.completionEvent, tick⟩ ∈ sim.engine.eventQueue ↔
          tick = max finishedAt hil.sim.engine.simTick := by
  unfold updateCompletion at h
  obtain ⟨hempty, htop⟩ | ⟨finishedAt, htop, -, -⟩ := topFinishedAt_spec hil
  · rw [htop] at h
    exact .inl ⟨(Option.some.inj h).symm, .inl hempty⟩
  · rw [htop] at h
    dsimp only at h
    by_cases hsame : hil.lastScheduled = finishedAt
    · rw [if_neg (not_not.mpr hsame)] at h
      exact .inl ⟨(Option.some.inj h).symm, .inr (hsame ▸ htop)⟩
    · rw [if_pos hsame] at h
      obtain ⟨sim, hsim, hnext⟩ := Option.bind_eq_some_iff.mp h
      have hperform : hil.sim.perform
          (.scheduleEvent hil.completionEvent finishedAt) = .ok sim :=
        Data.toOption_ok hsim
      obtain ⟨htick, hdue⟩ := horder.own hperform
      exact .inr ⟨finishedAt, sim, htop, hsame, (Option.some.inj hnext).symm,
        (horder.perform hperform).1, htick, hdue⟩

theorem max_of_le {first second : UInt64} (h : second ≤ first) :
    max first second = first := by
  rw [UInt64.max_def]
  grind

/-- The part of `Punctual` that a round of the loop needs when it calls
`updateCompletion`. -/
theorem Punctual.update (horder : hil.sim.InOrder)
    (hremembered : ∀ tick, hil.Scheduled tick → hil.lastScheduled ≤ tick)
    (honTime : ∀ request ∈ hil.completionQueue,
      hil.tick ≤ request.finishedAt)
    (h : hil.updateCompletion = some next) :
    next = { hil with sim := next.sim, lastScheduled := next.lastScheduled } ∧
      next.sim.InOrder ∧
      (∀ tick, next.Scheduled tick → next.lastScheduled ≤ tick) ∧
      next.tick = hil.tick ∧
      (next.lastScheduled = hil.lastScheduled ∧ next.sim = hil.sim ∧
          (hil.completionQueue = [] ∨
            hil.topFinishedAt = some hil.lastScheduled) ∨
        hil.topFinishedAt = some next.lastScheduled ∧
          next.Scheduled next.lastScheduled) := by
  obtain ⟨rfl, hcause⟩ | ⟨finishedAt, sim, htop, -, rfl, hsim, htick, hdue⟩ :=
    updateCompletion_cases horder h
  · exact ⟨rfl, horder, hremembered, rfl, .inl ⟨rfl, rfl, hcause⟩⟩
  have hmax : max finishedAt hil.sim.engine.simTick = finishedAt := by
    obtain ⟨-, hnone⟩ | ⟨top, htop', ⟨request, hmem, rfl⟩, -⟩ :=
      topFinishedAt_spec hil
    · rw [htop] at hnone
      cases hnone
    · rw [htop] at htop'
      rw [Option.some.inj htop']
      exact max_of_le (honTime request hmem)
  rw [hmax] at hdue
  refine ⟨rfl, hsim, ?_, htick, .inr ⟨htop, (hdue finishedAt).mpr rfl⟩⟩
  intro tick hscheduled
  rw [(hdue tick).mp hscheduled]
  exact UInt64.le_refl _

/-- The state in which `arrive` calls `updateCompletion`. -/
def received (hil : HostInterface) (operation : Operation)
    (request : Request) : HostInterface :=
  { hil with
    reqCount := hil.nextID operation
    completionQueue := hil.completionQueue ++ [request]
    arrived := hil.arrived ++ [request] }

theorem Punctual.arrive {operation : Operation} {finishedAt : UInt64}
    (hpunctual : hil.Punctual)
    (htimely : (Step.arrive operation finishedAt).Timely hil)
    (harrives : hil.tick ≤ finishedAt) (hloop : hil.phase ≠ .looping)
    (h : hil.arrive operation finishedAt = some next) : next.Punctual := by
  unfold HostInterface.arrive at h
  dsimp only at h
  generalize hrequest : (⟨hil.arrived.length, hil.givenID operation,
    finishedAt⟩ : Request) = request at h
  have hfinished : request.finishedAt = finishedAt := by rw [← hrequest]
  have honTime : ∀ other ∈ hil.completionQueue ++ [request],
      hil.tick ≤ other.finishedAt := by
    intro other hother
    rcases List.mem_append.mp hother with hother | hother
    · exact hpunctual.onTime other hother
    · rw [List.mem_singleton.mp hother, hfinished]
      exact harrives
  obtain ⟨hframe, horder, hremembered, htick, hcases⟩ := @Punctual.update
    (hil.received operation request) next hpunctual.order
    hpunctual.remembered honTime h
  have hqueue : next.completionQueue = hil.completionQueue ++ [request] := by
    rw [hframe]
    rfl
  have hphase : next.phase = hil.phase := by
    rw [hframe]
    rfl
  have hevent : next.completionEvent = hil.completionEvent := by
    rw [hframe]
    rfl
  have htick' : next.tick = hil.tick := htick
  have htop : next.topFinishedAt =
      (hil.received operation request).topFinishedAt := by
    rw [hframe]
    rfl
  refine ⟨horder, hremembered, ?_, ?_, ?_, ?_⟩
  · intro hidle _
    rw [hphase] at hidle
    rw [htop]
    obtain ⟨hlast, hsim, hempty | hsame⟩ | ⟨hmin, hscheduled⟩ := hcases
    · exact absurd hempty (by simp [received])
    · -- the event is at its tick already: the queue was not empty
      have hne : hil.completionQueue ≠ [] := by
        intro hnil
        refine htimely ⟨hidle, hnil, ?_⟩
        obtain ⟨-, hnone⟩ | ⟨top, htop', ⟨other, hmem, rfl⟩, -⟩ :=
          topFinishedAt_spec (hil.received operation request)
        · rw [hsame] at hnone
          cases hnone
        · have hother : other = request := by
            simpa [received, hnil] using hmem
          rw [hsame] at htop'
          have hlast' := Option.some.inj htop'
          rw [hother, hfinished] at hlast'
          exact hlast'.symm
      rw [hlast]
      refine ⟨hsame, ?_⟩
      have hscheduled := (hpunctual.awaited hidle hne).2
      unfold Scheduled at hscheduled ⊢
      rw [hsim, hevent]
      exact hscheduled
    · exact ⟨hmin, hscheduled⟩
  · intro hbusy
    rw [hphase] at hbusy
    rw [htick']
    have hentered := hpunctual.entered hbusy
    obtain ⟨hlast, -, -⟩ | ⟨hmin, -⟩ := hcases
    · rw [hlast]
      exact hentered
    · cases hcalling : hil.phase with
      | idle => exact absurd hcalling hbusy
      | looping => exact absurd hcalling hloop
      | calling current =>
          -- the request in the call is still in the queue and is due
          obtain ⟨hmem, hdue⟩ := hpunctual.calling current hcalling
          obtain ⟨-, hnone⟩ | ⟨top, htop', -, hle⟩ :=
            topFinishedAt_spec (hil.received operation request)
          · rw [hmin] at hnone
            cases hnone
          · rw [hmin] at htop'
            rw [Option.some.inj htop']
            exact UInt64.le_trans
              (hle current (List.mem_append_left _ hmem)) hdue
  · intro current hcalling
    rw [hphase] at hcalling
    rw [hqueue, htick']
    obtain ⟨hmem, hdue⟩ := hpunctual.calling current hcalling
    exact ⟨List.mem_append_left _ hmem, hdue⟩
  · rw [hqueue, htick']
    exact honTime

theorem Punctual.others {sim : Sim.Run} {call : Sim.Call}
    (hpunctual : hil.Punctual) (hforeign : call.Foreign hil.completionEvent)
    (h : hil.sim.perform call = .ok sim) :
    Punctual { hil with sim := sim } := by
  obtain ⟨htick, hentry⟩ := hpunctual.order.foreign hforeign h
  have hsame : ∀ tick, Scheduled { hil with sim := sim } tick ↔
      hil.Scheduled tick := hentry
  have htick' : tick { hil with sim := sim } = hil.tick := htick
  refine ⟨(hpunctual.order.perform h).1, ?_, ?_, ?_, ?_, ?_⟩
  · intro tick hscheduled
    exact hpunctual.remembered tick ((hsame tick).mp hscheduled)
  · intro hidle hne
    obtain ⟨htop, hscheduled⟩ := hpunctual.awaited hidle hne
    exact ⟨htop, (hsame _).mpr hscheduled⟩
  · intro hbusy
    rw [htick']
    exact hpunctual.entered hbusy
  · intro request hcalling
    rw [htick']
    exact hpunctual.calling request hcalling
  · intro request hrequest
    rw [htick']
    exact hpunctual.onTime request hrequest

theorem Punctual.doNextEvent {sim : Sim.Run} (hpunctual : hil.Punctual)
    (hidle : hil.phase = .idle)
    (h : hil.sim.perform .doNextEvent = .ok sim) :
    Punctual
        { hil with
          sim := sim
          phase :=
            if sim.running = hil.completionEvent :: hil.sim.running then
              .looping
            else
              .idle } ∧
      hil.tick ≤ sim.engine.simTick := by
  obtain ⟨horder, hclock⟩ := hpunctual.order.perform h
  refine ⟨?_, hclock⟩
  obtain ⟨hrunning, hengine⟩ | ⟨now, hrunning, hqueue, htick⟩ :=
    hpunctual.order.takes h
  · have hstays : sim.running ≠ hil.completionEvent :: hil.sim.running := by
      rw [hrunning]
      exact (List.cons_ne_self _ _).symm
    rw [if_neg hstays]
    have hsame : ∀ tick, ⟨hil.completionEvent, tick⟩ ∈ sim.engine.eventQueue ↔
        hil.Scheduled tick := by
      intro tick
      rw [hengine]
      rfl
    refine ⟨horder, ?_, ?_, fun hbusy => absurd rfl hbusy, nofun, ?_⟩
    · intro tick hscheduled
      exact hpunctual.remembered tick ((hsame tick).mp hscheduled)
    · intro _ hne
      obtain ⟨htop, hscheduled⟩ := hpunctual.awaited hidle hne
      exact ⟨htop, (hsame _).mpr hscheduled⟩
    · intro request hrequest
      unfold tick
      rw [hengine]
      exact hpunctual.onTime request hrequest
  have hentries : ∀ tick, hil.Scheduled tick ↔
      ⟨hil.completionEvent, tick⟩ ∈ now :: sim.engine.eventQueue := by
    intro tick
    rw [← hqueue]
    rfl
  have hsorted := hpunctual.order.ordered.sorted
  rw [hqueue] at hsorted
  have hfirst : ∀ tick, hil.Scheduled tick → now.second ≤ tick := by
    intro tick hscheduled
    rcases List.mem_cons.mp ((hentries tick).mp hscheduled) with rfl | hrest
    · exact UInt64.le_refl _
    · exact (List.pairwise_cons.mp hsorted).1 _ hrest
  have honTime : ∀ request ∈ hil.completionQueue,
      sim.engine.simTick ≤ request.finishedAt := by
    intro request hrequest
    obtain ⟨htop, hscheduled⟩ :=
      hpunctual.awaited hidle (List.ne_nil_of_mem hrequest)
    obtain ⟨-, hnone⟩ | ⟨top, htop', -, hle⟩ := topFinishedAt_spec hil
    · rw [htop] at hnone
      cases hnone
    · rw [htop] at htop'
      rw [htick]
      refine UInt64.le_trans (hfirst _ hscheduled) ?_
      rw [Option.some.inj htop']
      exact hle request hrequest
  have hremembered : ∀ tick,
      ⟨hil.completionEvent, tick⟩ ∈ sim.engine.eventQueue →
        hil.lastScheduled ≤ tick := fun tick hmem =>
    hpunctual.remembered tick ((hentries tick).mpr (List.mem_cons_of_mem _ hmem))
  by_cases hown : now.first = hil.completionEvent
  · rw [if_pos (by rw [hrunning, hown])]
    refine ⟨horder, hremembered, nofun, ?_, nofun, honTime⟩
    intro _
    unfold tick
    rw [htick]
    refine hpunctual.remembered now.second ((hentries _).mpr ?_)
    rw [← hown]
    exact List.mem_cons_self
  · have hother : sim.running ≠ hil.completionEvent :: hil.sim.running := by
      rw [hrunning]
      intro heq
      exact hown (List.cons.inj heq).1
    rw [if_neg hother]
    refine ⟨horder, hremembered, ?_, fun hbusy => absurd rfl hbusy, nofun,
      honTime⟩
    intro _ hne
    obtain ⟨htop, hscheduled⟩ := hpunctual.awaited hidle hne
    refine ⟨htop, ?_⟩
    rcases List.mem_cons.mp ((hentries _).mp hscheduled) with heq | hrest
    · exact absurd (congrArg Sim.Entry.first heq).symm hown
    · exact hrest

theorem Punctual.call {request : Request} (hpunctual : hil.Punctual)
    (hphase : hil.phase = .looping) (htop : hil.IsTop request)
    (hdue : request.finishedAt ≤ hil.tick) :
    Punctual
      { hil with
        phase := .calling request
        called := hil.called ++ [⟨request, hil.tick⟩] } := by
  refine ⟨hpunctual.order, hpunctual.remembered, nofun, ?_, ?_,
    hpunctual.onTime⟩
  · intro _
    exact hpunctual.entered (by rw [hphase]; nofun)
  · intro current hcurrent
    obtain rfl := Phase.calling.inj hcurrent
    exact ⟨htop.1, hdue⟩

theorem Punctual.pop {request : Request} (hpunctual : hil.Punctual)
    (hphase : hil.phase = .calling request) :
    Punctual
      { hil with
        phase := .looping
        completionQueue := hil.completionQueue.erase request } := by
  refine ⟨hpunctual.order, hpunctual.remembered, nofun, ?_, nofun, ?_⟩
  · intro _
    exact hpunctual.entered (by rw [hphase]; nofun)
  · intro other hother
    exact hpunctual.onTime other (List.mem_of_mem_erase hother)

theorem Punctual.leave {sim : Sim.Run} (hpunctual : hil.Punctual)
    (hphase : hil.phase = .looping)
    (hlater : ∀ request ∈ hil.completionQueue,
      hil.tick < request.finishedAt)
    (hupdate : hil.updateCompletion = some next)
    (hreturned : next.sim.perform .eventReturned = .ok sim) :
    Punctual { next with sim := sim, phase := .idle } := by
  obtain ⟨hframe, horder, hremembered, htick, hcases⟩ := Punctual.update
    hpunctual.order hpunctual.remembered hpunctual.onTime hupdate
  have hforeign : Sim.Call.Foreign next.completionEvent .eventReturned :=
    trivial
  obtain ⟨htick', hentry⟩ := horder.foreign hforeign hreturned
  have hqueue : next.completionQueue = hil.completionQueue := by rw [hframe]
  refine ⟨(horder.perform hreturned).1, ?_, ?_, fun hbusy => absurd rfl hbusy,
    nofun, ?_⟩
  · intro due hscheduled
    exact hremembered due ((hentry due).mp hscheduled)
  · intro _ hne
    have hne' : hil.completionQueue ≠ [] := hqueue ▸ hne
    have htop : next.topFinishedAt = hil.topFinishedAt := by rw [hframe]; rfl
    obtain ⟨-, -, hempty | hsame⟩ | ⟨hmin, hscheduled⟩ := hcases
    · exact absurd hempty hne'
    · -- `lastScheduled` is past, the top is not
      exfalso
      obtain ⟨-, hnone⟩ | ⟨top, htop', ⟨request, hmem, rfl⟩, -⟩ :=
        topFinishedAt_spec hil
      · rw [hsame] at hnone
        cases hnone
      · rw [hsame] at htop'
        have hlt := hlater request hmem
        rw [← Option.some.inj htop'] at hlt
        exact UInt64.not_lt.mpr
          (hpunctual.entered (by rw [hphase]; nofun)) hlt
    · exact ⟨htop.trans hmin, (hentry _).mpr hscheduled⟩
  · intro request hrequest
    have hon := hpunctual.onTime request (hqueue ▸ hrequest)
    have hclock : sim.engine.simTick = hil.tick := htick'.trans htick
    unfold tick
    rw [hclock]
    exact hon

theorem Recorded.of_same (hrecorded : hil.Recorded)
    (harrived : next.arrived = hil.arrived)
    (hcalled : next.called = hil.called)
    (hwaiting : next.waiting = hil.waiting) (htick : hil.tick ≤ next.tick) :
    next.Recorded where
  all := by
    rw [harrived, hcalled, hwaiting]
    exact hrecorded.all
  numbers := by
    rw [harrived]
    exact hrecorded.numbers
  late := by
    intro call hcall
    rw [hcalled] at hcall
    obtain ⟨hlate, hpast⟩ := hrecorded.late call hcall
    exact ⟨hlate, UInt64.le_trans hpast htick⟩
  sorted := by
    rw [hcalled]
    exact hrecorded.sorted
  next := by
    rw [hcalled, hwaiting]
    exact hrecorded.next

theorem waiting_received (hpunctual : hil.Punctual) (operation : Operation)
    (request : Request) :
    (hil.received operation request).waiting = hil.waiting ++ [request] := by
  unfold waiting received
  cases hphase : hil.phase with
  | idle => rfl
  | looping => rfl
  | calling current =>
      exact List.erase_append_left _ (hpunctual.calling current hphase).1

theorem Recorded.received {request : Request} (hpunctual : hil.Punctual)
    (hrecorded : hil.Recorded) (operation : Operation)
    (hnumber : request.number = hil.arrived.length)
    (harrives : hil.tick ≤ request.finishedAt) :
    (hil.received operation request).Recorded where
  all := by
    rw [waiting_received hpunctual, ← List.append_assoc]
    exact hrecorded.all.append_right [request]
  numbers := by
    have hold := hrecorded.numbers
    simp only [HostInterface.received, List.map_append, List.map_cons,
      List.map_nil, List.length_append, List.length_cons, List.length_nil]
    rw [hold, hnumber, List.range_succ]
  late := hrecorded.late
  sorted := hrecorded.sorted
  next := by
    rw [waiting_received hpunctual]
    intro call hcall other hother
    rcases List.mem_append.mp hother with hother | hother
    · exact hrecorded.next call hcall other hother
    · rw [List.mem_singleton.mp hother]
      obtain ⟨hlate, hpast⟩ := hrecorded.late call hcall
      exact UInt64.le_trans hlate (UInt64.le_trans hpast harrives)

theorem Recorded.call {request : Request} (hrecorded : hil.Recorded)
    (hphase : hil.phase = .looping) (htop : hil.IsTop request)
    (hdue : request.finishedAt ≤ hil.tick) :
    Recorded
      { hil with
        phase := .calling request
        called := hil.called ++ [⟨request, hil.tick⟩] } := by
  have hwaiting : hil.waiting = hil.completionQueue := by
    simp only [waiting, hphase]
  refine ⟨?_, hrecorded.numbers, ?_, ?_, ?_⟩
  · have hperm := hrecorded.all
    rw [hwaiting] at hperm
    refine hperm.trans ?_
    simp only [List.map_append, List.map_cons, List.map_nil,
      List.append_assoc]
    exact (List.perm_cons_erase htop.1).append_left _
  · intro call hcall
    rcases List.mem_append.mp hcall with hcall | hcall
    · exact hrecorded.late call hcall
    · rw [List.mem_singleton.mp hcall]
      exact ⟨hdue, UInt64.le_refl _⟩
  · simp only [List.map_append, List.map_cons, List.map_nil]
    refine List.pairwise_append.mpr
      ⟨hrecorded.sorted, List.pairwise_singleton _ _, ?_⟩
    intro first hfirst second hsecond
    obtain ⟨call, hcall, rfl⟩ := List.mem_map.mp hfirst
    rw [List.mem_singleton.mp hsecond]
    exact hrecorded.next call hcall request (by rw [hwaiting]; exact htop.1)
  · intro call hcall other hother
    have hother' : other ∈ hil.completionQueue := List.mem_of_mem_erase hother
    rcases List.mem_append.mp hcall with hcall | hcall
    · exact hrecorded.next call hcall other (by rw [hwaiting]; exact hother')
    · rw [List.mem_singleton.mp hcall]
      exact htop.2 other hother'

theorem Recorded.perform {step : Step} (hpunctual : hil.Punctual)
    (hrecorded : hil.Recorded) (htimely : step.Timely hil)
    (h : hil.perform step = some next) : next.Punctual ∧ next.Recorded := by
  cases step with
  | others call =>
      unfold HostInterface.perform at h
      dsimp only at h
      split at h
      · rename_i hallowed
        obtain ⟨sim, hsim, hnext⟩ := Option.bind_eq_some_iff.mp h
        obtain rfl := Option.some.inj hnext
        have hcall := Data.toOption_ok hsim
        refine ⟨hpunctual.others hallowed.1 hcall,
          hrecorded.of_same rfl rfl rfl ?_⟩
        exact (hpunctual.order.perform hcall).2
      · cases h
  | doNextEvent =>
      unfold HostInterface.perform at h
      dsimp only at h
      split at h
      · rename_i hidle
        obtain ⟨sim, hsim, hnext⟩ := Option.bind_eq_some_iff.mp h
        obtain rfl := Option.some.inj hnext
        obtain ⟨hpunctual', hclock⟩ := hpunctual.doNextEvent hidle
          (Data.toOption_ok hsim)
        refine ⟨hpunctual', hrecorded.of_same rfl rfl ?_ hclock⟩
        unfold waiting
        rw [hidle]
        dsimp only
        split
        · rename_i hcalling
          split at hcalling <;> cases hcalling
        · rfl
      · cases h
  | arrive operation finishedAt =>
      unfold HostInterface.perform at h
      dsimp only at h
      split at h
      · rename_i hallowed
        refine ⟨hpunctual.arrive htimely hallowed.2 hallowed.1 h, ?_⟩
        have hreceived := @Recorded.received hil
          ⟨hil.arrived.length, hil.givenID operation, finishedAt⟩ hpunctual
          hrecorded operation rfl hallowed.2
        obtain ⟨rfl, -⟩ | ⟨tick, sim, -, -, rfl, -, htick, -⟩ :=
          updateCompletion_cases (by exact hpunctual.order) h
        · exact hreceived
        · exact hreceived.of_same rfl rfl rfl
            (UInt64.le_of_eq htick.symm)
      · cases h
  | call request =>
      unfold HostInterface.perform at h
      dsimp only at h
      split at h
      · rename_i hallowed
        obtain rfl := Option.some.inj h
        exact ⟨hpunctual.call hallowed.1 hallowed.2.1 hallowed.2.2,
          hrecorded.call hallowed.1 hallowed.2.1 hallowed.2.2⟩
      · cases h
  | pop =>
      unfold HostInterface.perform at h
      dsimp only at h
      split at h
      · rename_i request hphase
        obtain rfl := Option.some.inj h
        refine ⟨hpunctual.pop hphase,
          hrecorded.of_same rfl rfl ?_ (UInt64.le_refl _)⟩
        simp only [waiting, hphase]
      · cases h
  | leave =>
      unfold HostInterface.perform at h
      dsimp only at h
      split at h
      · rename_i hallowed
        obtain ⟨middle, hupdate, hrest⟩ := Option.bind_eq_some_iff.mp h
        obtain ⟨sim, hsim, hnext⟩ := Option.bind_eq_some_iff.mp hrest
        obtain rfl := Option.some.inj hnext
        have hreturned := Data.toOption_ok hsim
        obtain ⟨hframe, horder, -, htick, -⟩ := Punctual.update
          hpunctual.order hpunctual.remembered hpunctual.onTime hupdate
        refine ⟨hpunctual.leave hallowed.1 hallowed.2 hupdate hreturned, ?_⟩
        refine hrecorded.of_same (by rw [hframe]) (by rw [hframe]) ?_ ?_
        · simp only [waiting, hallowed.1]
          rw [hframe]
        · rw [← htick]
          exact (horder.perform hreturned).2
      · cases h

theorem Recorded.performAll {steps : List Step} (hpunctual : hil.Punctual)
    (hrecorded : hil.Recorded) (htimely : hil.Timely steps)
    (h : hil.performAll steps = some next) :
    next.Punctual ∧ next.Recorded := by
  induction steps generalizing hil with
  | nil =>
      obtain rfl := Option.some.inj h
      exact ⟨hpunctual, hrecorded⟩
  | cons step steps ih =>
      obtain ⟨middle, hstep, hsteps⟩ := Option.bind_eq_some_iff.mp h
      obtain ⟨hpunctual', hrecorded'⟩ :=
        hrecorded.perform hpunctual htimely.1 hstep
      exact ih hpunctual' hrecorded' (htimely.2 middle hstep) hsteps

theorem make_sound {sim : Sim.Run} (horder : sim.InOrder)
    (h : make sim = some hil) : hil.Punctual ∧ hil.Recorded := by
  obtain ⟨allocated, hallocated, hhil⟩ := Option.bind_eq_some_iff.mp h
  obtain rfl := Option.some.inj hhil
  have horder' := (horder.perform (Data.toOption_ok hallocated)).1
  constructor
  · refine ⟨horder', ?_, fun _ hne => absurd rfl hne,
      fun hbusy => absurd rfl hbusy, nofun, nofun⟩
    intro tick _
    exact UInt64.zero_le
  · exact ⟨.nil, rfl, nofun, .nil, nofun⟩

end HostInterface

/-- In a timely run the event of the HIL is scheduled not later than the first
request that waits; every request is called once, not before it is finished
and in the order of the ticks they finish at; none is late once its tick is
over, and none waits when the event is not scheduled. -/
theorem completion_delivery (calls : List Sim.Call) (sim : Sim.Run)
    (hil final : HostInterface) (steps : List Step)
    (hsim : Sim.Run.start.performAll calls = .ok sim)
    (hmake : HostInterface.make sim = some hil)
    (hrun : hil.performAll steps = some final)
    (htimely : hil.Timely steps) :
    (final.phase = .idle → ∀ request ∈ final.completionQueue,
        ∃ tick, final.Scheduled tick ∧ tick ≤ request.finishedAt) ∧
      final.arrived.map Request.number = List.range final.arrived.length ∧
      final.arrived.Perm
        (final.called.map Called.request ++ final.waiting) ∧
      (∀ call ∈ final.called, call.request.finishedAt ≤ call.tick) ∧
      (final.called.map Called.request).Pairwise
        (fun first second => first.finishedAt ≤ second.finishedAt) ∧
      (∀ request ∈ final.arrived, request.finishedAt < final.tick →
        request ∈ final.called.map Called.request) ∧
      (final.phase = .idle → (∀ tick, ¬final.Scheduled tick) →
        final.arrived.Perm (final.called.map Called.request)) := by
  have horder := Sim.Run.start_inOrder.performAll hsim
  obtain ⟨hpunctual, hrecorded⟩ := HostInterface.make_sound horder hmake
  obtain ⟨hpunctual', hrecorded'⟩ :=
    hrecorded.performAll hpunctual htimely hrun
  have hscheduled : final.phase = .idle →
      ∀ request ∈ final.completionQueue,
        ∃ tick, final.Scheduled tick ∧ tick ≤ request.finishedAt := by
    intro hidle request hrequest
    obtain ⟨htop, hscheduled⟩ :=
      hpunctual'.awaited hidle (List.ne_nil_of_mem hrequest)
    refine ⟨_, hscheduled, ?_⟩
    obtain ⟨-, hnone⟩ | ⟨top, htop', -, hle⟩ :=
      HostInterface.topFinishedAt_spec final
    · rw [htop] at hnone
      cases hnone
    · rw [htop] at htop'
      rw [Option.some.inj htop']
      exact hle request hrequest
  refine ⟨hscheduled, hrecorded'.numbers, hrecorded'.all,
    fun call hcall => (hrecorded'.late call hcall).1, hrecorded'.sorted,
    ?_, ?_⟩
  · intro request hrequest hpast
    rcases List.mem_append.mp (hrecorded'.all.mem_iff.mp hrequest) with
      hcalled | hwaits
    · exact hcalled
    · have hmem : request ∈ final.completionQueue := by
        unfold HostInterface.waiting at hwaits
        split at hwaits
        · exact List.mem_of_mem_erase hwaits
        · exact hwaits
      exact absurd hpast (UInt64.not_lt.mpr (hpunctual'.onTime request hmem))
  · intro hidle hnone
    have hempty : final.waiting = [] := by
      have hwaiting : final.waiting = final.completionQueue := by
        simp only [HostInterface.waiting, hidle]
      rw [hwaiting, List.eq_nil_iff_forall_not_mem]
      intro request hrequest
      obtain ⟨tick, htick, -⟩ := hscheduled hidle request hrequest
      exact hnone tick htick
    simpa [hempty] using hrecorded'.all

def freshInterface : HostInterface :=
  (HostInterface.make .start).getD
    { sim := .start
      completionEvent := 0
      reqCount := 0
      lastScheduled := 0
      completionQueue := []
      phase := .idle
      arrived := []
      called := [] }

def oneRequest : List Step :=
  [.others .allocateEvent, .others (.scheduleEvent 2 5), .doNextEvent,
    .arrive .write 7, .doNextEvent, .call ⟨0, 1, 7⟩, .pop, .leave]

def afterRequest : HostInterface :=
  (freshInterface.performAll oneRequest).getD freshInterface

theorem completion_delivery_one_request :
    freshInterface.Timely oneRequest ∧
      afterRequest.called = [⟨⟨0, 1, 7⟩, 7⟩] ∧
      afterRequest.arrived.Perm
        (afterRequest.called.map Called.request) := by
  have htimely : freshInterface.Timely oneRequest := by decide +kernel
  have hdelivery := completion_delivery [] .start freshInterface afterRequest
    oneRequest rfl rfl rfl htimely
  refine ⟨htimely, by decide +kernel, hdelivery.2.2.2.2.2.2 (by decide +kernel) ?_⟩
  intro tick hscheduled
  have hnone : afterRequest.sim.engine.eventQueue = [] := by decide +kernel
  rw [HostInterface.Scheduled, hnone] at hscheduled
  cases hscheduled

def sameTick : HostInterface :=
  (freshInterface.performAll (oneRequest ++ [.arrive .flush 7])).getD
    freshInterface

theorem finished_request_stranded :
    ¬∀ (steps : List Step) (final : HostInterface),
        freshInterface.performAll steps = some final →
        final.phase = .idle → ∀ request ∈ final.completionQueue,
          ∃ tick, final.Scheduled tick := by
  intro hall
  have hidle : sameTick.phase = .idle := by decide +kernel
  have hwaits : ⟨1, 2, 7⟩ ∈ sameTick.completionQueue := by decide +kernel
  obtain ⟨tick, hscheduled⟩ := hall (oneRequest ++ [.arrive .flush 7])
    sameTick rfl hidle _ hwaits
  have hnone : sameTick.sim.engine.eventQueue = [] := by decide +kernel
  rw [HostInterface.Scheduled, hnone] at hscheduled
  cases hscheduled

end SimpleSSD.HIL
