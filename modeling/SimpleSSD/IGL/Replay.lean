import SimpleSSD.IGL.TraceReplayer

namespace SimpleSSD.IGL

/-! When the I/Os of a trace are submitted in `MODE_STRICT`. -/

def Config.time (config : Config) (lines : List (Option Match))
    (index : Nat) : UInt64 :=
  ((lines.filterMap id)[index]?.bind config.mergeTime).getD 0

/-- The ticks at which the I/Os are submitted: each one at the time of the line
before it, or with the I/O of that line if the clock is past this. -/
def Config.planned (config : Config) (lines : List (Option Match))
    (initTime : UInt64) : Nat → UInt64
  | 0 => initTime
  | index + 1 =>
      max (config.time lines index - config.time lines 0 + initTime)
        (config.planned lines initTime index)

def Config.Rising (config : Config) (lines : List (Option Match)) : Prop :=
  ∀ second < (lines.filterMap id).length, ∀ first ≤ second,
    config.time lines first ≤ config.time lines second

instance (config : Config) (lines : List (Option Match)) :
    Decidable (config.Rising lines) :=
  inferInstanceAs (Decidable (∀ second < _, ∀ first ≤ second, _))

theorem nextMatch_none {lines : List (Option Match)}
    (h : nextMatch lines = none) : lines.filterMap id = [] := by
  induction lines with
  | nil => rfl
  | cons line lines ih =>
      cases line with
      | none => exact ih h
      | some groups => cases h

theorem nextMatch_some {lines rest : List (Option Match)} {groups : Match}
    (h : nextMatch lines = some (groups, rest)) :
    lines.filterMap id = groups :: rest.filterMap id := by
  induction lines with
  | nil => cases h
  | cons line lines ih =>
      cases line with
      | none => exact ih h
      | some first =>
          cases h
          rfl

namespace TraceReplayer

/-- Fewer I/Os than the queue depth were on the way whenever one was
submitted. -/
def Shallow (config : Config) (replayer : TraceReplayer) : Prop :=
  ∀ io ∈ replayer.submitted, io.depth < config.maxQueueDepth.toUInt64

instance (config : Config) (replayer : TraceReplayer) :
    Decidable (replayer.Shallow config) :=
  inferInstanceAs (Decidable (∀ io ∈ replayer.submitted, _))

/-- The I/Os so far, and the next tick of `submitEvent`. -/
structure Paced (config : Config) (lines : List (Option Match))
    (replayer : TraceReplayer) : Prop where
  order : replayer.sim.InOrder
  ready : replayer.begun = false → replayer.submitted = []
  noBackup : replayer.pBackup = none
  noSync : replayer.nextIOIsSync = false
  read : lines.filterMap id =
    replayer.submitted.map Submitted.line ++ replayer.lines.filterMap id
  first : replayer.firstTick =
    if replayer.submitted = [] then 0xFFFFFFFFFFFFFFFF
    else config.time lines 0
  ticks : ∀ index io, replayer.submitted[index]? = some io →
    io.tick = config.planned lines replayer.initTime index
  due : ∀ tick,
    ⟨replayer.submitEvent, tick⟩ ∈ replayer.sim.engine.eventQueue →
      replayer.submitted ≠ [] ∧
        tick = config.planned lines replayer.initTime
          replayer.submitted.length

variable {config : Config} {lines : List (Option Match)}
  {replayer next : TraceReplayer}

theorem mapError_ok {action : Except Sim.Panic α} {value : α}
    (h : action.mapError Panic.engine = .ok value) : action = .ok value := by
  cases action with
  | error raised => cases h
  | ok result =>
      obtain rfl := Except.ok.inj h
      rfl

theorem scheduleEvent_ok {event : Sim.Event} {tick : UInt64}
    (h : replayer.scheduleEvent event tick = .ok next) :
    ∃ sim, replayer.sim.perform (.scheduleEvent event tick) = .ok sim ∧
      next = { replayer with sim := sim } := by
  obtain ⟨sim, hsim, hnext⟩ := Data.bind_ok h
  exact ⟨sim, mapError_ok hsim, (Except.ok.inj hnext).symm⟩

theorem handleNextLine_cases (hmode : config.mode = .strict)
    (h : replayer.handleNextLine config = .ok next) :
    (next = replayer ∨ nextMatch replayer.lines = none ∧
        ∃ ended, next =
          { replayer with
            lines := [], reserveTermination := true, ended := ended }) ∨
      ∃ groups rest tick planned,
        nextMatch replayer.lines = some (groups, rest) ∧
        config.mergeTime groups = some tick ∧
        (replayer.take config groups rest tick).plan config tick =
          .ok planned ∧
        next = planned.submit groups (replayer.fill config groups) := by
  unfold handleNextLine at h
  split at h
  · exact .inl (.inl (Except.ok.inj h).symm)
  cases hmatch : nextMatch replayer.lines with
  | none =>
      rw [hmatch] at h
      obtain rfl := Except.ok.inj h
      refine .inl (.inr ⟨rfl, ?_⟩)
      unfold finish
      split
      · exact ⟨_, rfl⟩
      · exact ⟨_, rfl⟩
  | some found =>
      obtain ⟨groups, rest⟩ := found
      rw [hmatch] at h
      dsimp only at h
      cases htime : config.mergeTime groups with
      | none =>
          rw [htime] at h
          cases h
      | some tick =>
          rw [htime] at h
          dsimp only at h
          obtain ⟨planned, hplanned, hnext⟩ := Data.bind_ok h
          exact .inr ⟨groups, rest, tick, planned, rfl, htime, hplanned,
            (Except.ok.inj hnext).symm⟩

theorem plan_ok {tick : UInt64} {planned : TraceReplayer}
    (hdepth : replayer.ioDepth < config.maxQueueDepth.toUInt64)
    (h : replayer.plan config tick = .ok planned) :
    ∃ sim, replayer.sim.perform (.scheduleEvent replayer.submitEvent
        (tick - replayer.firstTick + replayer.initTime)) = .ok sim ∧
      planned = { replayer with sim := sim } := by
  unfold plan at h
  dsimp only at h
  rw [if_neg (UInt64.ne_of_lt hdepth),
    if_neg (UInt64.not_lt.mpr (UInt64.le_of_lt hdepth))] at h
  exact scheduleEvent_ok h

theorem plan_depth {tick : UInt64} {planned : TraceReplayer}
    (h : replayer.plan config tick = .ok planned) :
    planned.ioDepth = replayer.ioDepth ∧
      planned.submitted = replayer.submitted := by
  unfold plan at h
  dsimp only at h
  split at h
  · split at h
    · obtain rfl := Except.ok.inj h
      exact ⟨rfl, rfl⟩
    · cases h
  split at h
  · cases h
  · obtain ⟨sim, -, rfl⟩ := scheduleEvent_ok h
    exact ⟨rfl, rfl⟩

theorem Shallow.of_append {ios : List Submitted}
    (h : next.Shallow config) (heq : next.submitted = replayer.submitted ++ ios) :
    replayer.Shallow config := by
  intro io hio
  apply h
  rw [heq]
  exact List.mem_append_left ios hio

theorem time_of_read {before : List Submitted} {groups : Match}
    {rest : List Match} {tick : UInt64}
    (hread : lines.filterMap id =
      before.map Submitted.line ++ groups :: rest)
    (htime : config.mergeTime groups = some tick) :
    config.time lines before.length = tick := by
  have hlength : before.length = (before.map Submitted.line).length :=
    (List.length_map _).symm
  unfold Config.time
  rw [hread, hlength, List.getElem?_append_right (Nat.le_refl _), Nat.sub_self,
    List.getElem?_cons_zero, Option.bind_some, htime, Option.getD_some]

theorem getElem?_concat {entries : List α} {last entry : α} {index : Nat}
    (h : (entries ++ [last])[index]? = some entry) :
    entries[index]? = some entry ∨ index = entries.length ∧ last = entry := by
  rw [List.getElem?_append] at h
  split at h
  · exact .inl h
  · obtain ⟨hindex, hentry⟩ := List.getElem?_eq_some_iff.mp h
    rw [List.length_singleton] at hindex
    simp only [List.getElem_singleton] at hentry
    exact .inr ⟨by omega, hentry⟩

/-- The time of the first line is remembered also where it is the mark for "no
line yet": then all lines have this time. -/
theorem Paced.firstTick (hpaced : replayer.Paced config lines)
    (hmode : config.mode = .strict) (hrising : config.Rising lines)
    {groups : Match} {rest : List (Option Match)} {tick : UInt64}
    (hmatch : nextMatch replayer.lines = some (groups, rest))
    (htime : config.mergeTime groups = some tick) :
    (replayer.take config groups rest tick).firstTick =
      config.time lines 0 := by
  have hread := hpaced.read
  rw [nextMatch_some hmatch] at hread
  have htimed := time_of_read hread htime
  unfold take
  dsimp only
  rw [if_pos hmode]
  split
  next hmark =>
    by_cases hempty : replayer.submitted = []
    · rw [hempty] at htimed
      exact htimed.symm
    · have hfirst := hpaced.first
      rw [if_neg hempty, hmark] at hfirst
      have hle := hrising replayer.submitted.length (by
        rw [hread]
        simp) 0 (Nat.zero_le _)
      rw [htimed, ← hfirst] at hle
      rw [← hfirst]
      exact UInt64.le_antisymm (UInt64.le_iff_toNat_le.mpr
        (Nat.le_of_lt_succ tick.toNat_lt)) hle
  next hmark =>
    have hfirst := hpaced.first
    split at hfirst
    · exact absurd hfirst hmark
    · exact hfirst

/-- The step of the replay: with the clock where the plan has it, one more line
is read, its I/O is submitted and the next tick is planned from its time. -/
theorem Paced.handleNextLine (hpaced : replayer.Paced config lines)
    (hmode : config.mode = .strict) (hrising : config.Rising lines)
    (hclock : replayer.tick =
      config.planned lines replayer.initTime replayer.submitted.length)
    (hbegun : replayer.begun = true)
    (hfired : ∀ tick,
      ⟨replayer.submitEvent, tick⟩ ∉ replayer.sim.engine.eventQueue)
    (h : replayer.handleNextLine config = .ok next)
    (hshallow : next.Shallow config) : next.Paced config lines := by
  obtain (rfl | ⟨hmatch, ended, rfl⟩) | ⟨groups, rest, tick, planned, hmatch,
    htime, hplan, rfl⟩ := handleNextLine_cases hmode h
  · exact hpaced
  · refine { hpaced with read := ?_ }
    rw [hpaced.read, nextMatch_none hmatch]
    rfl
  · have hread := hpaced.read
    rw [nextMatch_some hmatch] at hread
    have htimed := time_of_read hread htime
    obtain ⟨hdepth, hsubmitted⟩ := plan_depth hplan
    have hbelow : (replayer.take config groups rest tick).ioDepth <
        config.maxQueueDepth.toUInt64 := by
      rw [← hdepth]
      exact hshallow ⟨groups, replayer.fill config groups, planned.tick,
        planned.ioDepth⟩ (List.mem_append_right _ (.head _))
    obtain ⟨sim, hsim, rfl⟩ := plan_ok hbelow hplan
    rw [hpaced.firstTick hmode hrising hmatch htime] at hsim
    obtain ⟨hclock', hdue⟩ := hpaced.order.own hsim
    have hnext : max (tick - config.time lines 0 + replayer.initTime)
          replayer.tick =
        config.planned lines replayer.initTime
          (replayer.submitted.length + 1) := by
      rw [Config.planned, htimed, hclock]
    constructor
    · exact (hpaced.order.perform hsim).1
    · intro hnot
      exact absurd (hbegun.symm.trans hnot) (by decide)
    · exact hpaced.noBackup
    · exact hpaced.noSync
    · rw [hread]
      simp [submit, take]
    · rw [if_neg (by simp [submit])]
      exact hpaced.firstTick hmode hrising hmatch htime
    · intro index io hio
      change (replayer.submitted ++ [_])[index]? = some io at hio
      obtain hold | ⟨hlast, rfl⟩ := getElem?_concat hio
      · exact hpaced.ticks index io hold
      · rw [hlast]
        exact hclock'.trans hclock
    · intro due hin
      refine ⟨by simp [submit], ?_⟩
      rw [(hdue due).mp hin]
      simp only [submit, List.length_append, List.length_singleton]
      exact hnext

theorem handleNextLine_submitted (hmode : config.mode = .strict)
    (h : replayer.handleNextLine config = .ok next) :
    ∃ ios, next.submitted = replayer.submitted ++ ios := by
  obtain (rfl | ⟨-, ended, rfl⟩) | ⟨groups, rest, tick, planned, -, -, hplan,
    rfl⟩ := handleNextLine_cases hmode h
  · exact ⟨[], (List.append_nil _).symm⟩
  · exact ⟨[], (List.append_nil _).symm⟩
  · refine ⟨[⟨groups, replayer.fill config groups, planned.tick,
      planned.ioDepth⟩], ?_⟩
    unfold submit
    dsimp only
    rw [(plan_depth hplan).2]
    rfl

theorem submitIO_strict (hmode : config.mode = .strict)
    (h : replayer.submitIO config = .ok next) :
    replayer.handleNextLine config = .ok next := by
  obtain ⟨middle, hmiddle, hnext⟩ := Data.bind_ok h
  rw [if_neg (by rw [hmode]; decide)] at hnext
  rw [hmiddle]
  exact hnext

theorem finished_eq (replayer : TraceReplayer) (ioDepth : UInt64) :
    ∃ ended, (if replayer.reserveTermination then
        finish { replayer with ioDepth := ioDepth }
      else { replayer with ioDepth := ioDepth }) =
        { replayer with ioDepth := ioDepth, ended := ended } := by
  split
  · unfold finish
    split
    · exact ⟨_, rfl⟩
    · exact ⟨_, rfl⟩
  · exact ⟨_, rfl⟩

theorem rescheduleSubmit_strict {breakTime : UInt64}
    (hmode : config.mode = .strict)
    (h : replayer.rescheduleSubmit config breakTime = .ok next) :
    next = replayer := by
  unfold rescheduleSubmit at h
  rw [if_neg (by rw [hmode]; simp), if_pos hmode] at h
  exact (Except.ok.inj h).symm

/-- In `MODE_STRICT` a completion may schedule the submission that waits for
the queue to drain, and no other. -/
theorem iocallback_cases (hmode : config.mode = .strict)
    (h : replayer.iocallback config = .ok next) :
    ∃ ioDepth ended sim backup nextIOIsSync, next =
      { replayer with
        ioDepth := ioDepth, ended := ended, sim := sim, pBackup := backup
        nextIOIsSync := nextIOIsSync } ∧
      (replayer.pBackup = none → sim = replayer.sim ∧ backup = none) ∧
      (replayer.nextIOIsSync = false → nextIOIsSync = false) := by
  obtain ⟨ended, hfinished⟩ := finished_eq replayer (replayer.ioDepth - 1)
  unfold iocallback at h
  dsimp only at h
  rw [hfinished] at h
  obtain ⟨middle, hmiddle, hnext⟩ := Data.bind_ok h
  have hreached : ∃ sim backup, middle =
      { replayer with
        ioDepth := replayer.ioDepth - 1, ended := ended, sim := sim
        pBackup := backup } ∧
      (replayer.pBackup = none → sim = replayer.sim ∧ backup = none) := by
    unfold restore at hmiddle
    dsimp only at hmiddle
    split at hmiddle
    · rename_i waiting hwaiting
      split at hmiddle
      · obtain ⟨sim, -, rfl⟩ := scheduleEvent_ok hmiddle
        exact ⟨sim, none, rfl, fun hnone => by rw [hwaiting] at hnone; cases hnone⟩
      · obtain rfl := Except.ok.inj hmiddle
        exact ⟨replayer.sim, replayer.pBackup, rfl, fun hnone => ⟨rfl, hnone⟩⟩
    · obtain rfl := Except.ok.inj hmiddle
      exact ⟨replayer.sim, replayer.pBackup, rfl, fun hnone => ⟨rfl, hnone⟩⟩
  obtain ⟨sim, backup, rfl, hkept⟩ := hreached
  split at hnext
  · obtain rfl := rescheduleSubmit_strict hmode hnext
    exact ⟨_, _, sim, backup, false, rfl, hkept, fun _ => rfl⟩
  · obtain rfl := Except.ok.inj hnext
    exact ⟨_, _, sim, backup, replayer.nextIOIsSync, rfl, hkept, id⟩

theorem perform_submitted {step : Step} (hmode : config.mode = .strict)
    (h : replayer.perform config step = some next) :
    ∃ ios, next.submitted = replayer.submitted ++ ios := by
  have hnone : ∃ ios, replayer.submitted = replayer.submitted ++ ios :=
    ⟨[], (List.append_nil _).symm⟩
  cases step with
  | others call =>
      unfold perform at h
      dsimp only at h
      split at h
      · obtain ⟨sim, -, hnext⟩ := Option.bind_eq_some_iff.mp h
        obtain rfl := Option.some.inj hnext
        exact hnone
      · cases h
  | doNextEvent =>
      obtain ⟨sim, -, hnext⟩ := Option.bind_eq_some_iff.mp h
      dsimp only at hnext
      split at hnext
      · have hsubmit := submitIO_strict hmode (Data.toOption_ok hnext)
        have hgrown := handleNextLine_submitted hmode hsubmit
        exact hgrown
      · obtain rfl := Option.some.inj hnext
        exact hnone
  | start =>
      unfold perform at h
      dsimp only at h
      split at h
      · cases h
      · have hsubmit := submitIO_strict hmode (Data.toOption_ok h)
        have hgrown := handleNextLine_submitted hmode hsubmit
        exact hgrown
  | complete =>
      unfold perform at h
      dsimp only at h
      split at h
      · cases h
      · obtain ⟨ioDepth, ended, sim, backup, nextIOIsSync, rfl, -⟩ :=
          iocallback_cases hmode (Data.toOption_ok h)
        exact hnone

theorem Paced.perform {step : Step} (hmode : config.mode = .strict)
    (hrising : config.Rising lines) (hpaced : replayer.Paced config lines)
    (h : replayer.perform config step = some next)
    (hshallow : next.Shallow config) : next.Paced config lines := by
  cases step with
  | others call =>
      unfold TraceReplayer.perform at h
      dsimp only at h
      split at h
      · rename_i hforeign
        obtain ⟨sim, hsim, hnext⟩ := Option.bind_eq_some_iff.mp h
        obtain rfl := Option.some.inj hnext
        have hperform := Data.toOption_ok hsim
        obtain ⟨-, hqueue⟩ := hpaced.order.foreign hforeign hperform
        exact { hpaced with
          order := (hpaced.order.perform hperform).1
          due := fun tick hin => hpaced.due tick ((hqueue tick).mp hin) }
      · cases h
  | doNextEvent =>
      obtain ⟨sim, hsim, hnext⟩ := Option.bind_eq_some_iff.mp h
      have hperform := Data.toOption_ok hsim
      have horder := (hpaced.order.perform hperform).1
      dsimp only at hnext
      obtain ⟨hrunning, hengine⟩ | ⟨now, hrunning, hqueue, hclock⟩ :=
        hpaced.order.takes hperform
      · rw [if_neg (by rw [hrunning]; simp)] at hnext
        obtain rfl := Option.some.inj hnext
        exact { hpaced with
          order := horder
          due := by rw [hengine]; exact hpaced.due }
      · have hrest : ∀ tick,
            ⟨replayer.submitEvent, tick⟩ ∈ sim.engine.eventQueue →
              ⟨replayer.submitEvent, tick⟩ ∈ replayer.sim.engine.eventQueue := by
          intro tick hin
          rw [hqueue]
          exact List.mem_cons_of_mem now hin
        have hentered : ({ replayer with sim := sim } : TraceReplayer).Paced
            config lines :=
          { hpaced with
            order := horder
            due := fun tick hin => hpaced.due tick (hrest tick hin) }
        split at hnext
        · rename_i hours
          rw [hrunning, List.cons.injEq] at hours
          obtain ⟨hours, -⟩ := hours
          obtain ⟨hsome, hsecond⟩ := hpaced.due now.second (by
            rw [hqueue, ← hours]
            exact .head _)
          apply hentered.handleNextLine hmode hrising (hclock.trans hsecond)
          · exact Bool.eq_true_of_not_eq_false
              fun hready => hsome (hpaced.ready hready)
          · intro tick hin
            have hunique := hpaced.order.ordered.unique
            rw [hqueue, List.map_cons, List.nodup_cons, hours] at hunique
            exact hunique.1 (List.mem_map_of_mem hin)
          · exact submitIO_strict hmode (Data.toOption_ok hnext)
          · exact hshallow
        · obtain rfl := Option.some.inj hnext
          exact hentered
  | start =>
      unfold TraceReplayer.perform at h
      dsimp only at h
      split at h
      · cases h
      · rename_i hbegun
        have hsubmit := submitIO_strict hmode (Data.toOption_ok h)
        have hempty := hpaced.ready (Bool.eq_false_iff.mpr hbegun)
        have hidle : ∀ tick, ⟨replayer.submitEvent, tick⟩ ∉
            replayer.sim.engine.eventQueue :=
          fun tick hin => (hpaced.due tick hin).1 hempty
        have hready : ({ replayer with
            begun := true
            initTime := replayer.tick } : TraceReplayer).Paced config lines :=
          { hpaced with
            ready := fun _ => hempty
            ticks := fun index io hio => by
              dsimp only at hio
              rw [hempty] at hio
              cases hio
            due := fun tick hin => absurd hin (hidle tick) }
        apply hready.handleNextLine hmode hrising ?_ rfl hidle hsubmit hshallow
        dsimp only
        rw [hempty]
        rfl
  | complete =>
      unfold TraceReplayer.perform at h
      dsimp only at h
      split at h
      · cases h
      · obtain ⟨ioDepth, ended, sim, backup, nextIOIsSync, rfl, hkept, hsync⟩ :=
          iocallback_cases hmode (Data.toOption_ok h)
        obtain ⟨rfl, rfl⟩ := hkept hpaced.noBackup
        exact { hpaced with
          noBackup := rfl
          noSync := hsync hpaced.noSync }

theorem Paced.performAll {steps : List Step} (hmode : config.mode = .strict)
    (hrising : config.Rising lines)
    (hpaced : replayer.Shallow config → replayer.Paced config lines)
    (h : replayer.performAll config steps = some next)
    (hshallow : next.Shallow config) : next.Paced config lines := by
  induction steps generalizing replayer with
  | nil =>
      obtain rfl := Option.some.inj h
      exact hpaced hshallow
  | cons step steps ih =>
      unfold TraceReplayer.performAll at h ih
      rw [List.foldlM_cons] at h
      obtain ⟨middle, hstep, hsteps⟩ := Option.bind_eq_some_iff.mp h
      refine ih (fun hmiddle => ?_) hsteps
      obtain ⟨ios, hios⟩ := perform_submitted hmode hstep
      exact (hpaced (hmiddle.of_append hios)).perform hmode hrising hstep hmiddle

theorem make_paced {sim : Sim.Run} (horder : sim.InOrder)
    (h : make config lines sim = .ok replayer) :
    replayer.Paced config lines := by
  obtain ⟨-, -, hmade⟩ := Data.bind_ok h
  obtain ⟨allocated, hallocated, hreplayer⟩ := Data.bind_ok hmade
  obtain rfl := Except.ok.inj hreplayer
  have hperform := mapError_ok hallocated
  constructor
  · exact (horder.perform hperform).1
  · intro _
    rfl
  · rfl
  · rfl
  · rfl
  · rfl
  · intro index io hio
    cases hio
  · intro tick hin
    obtain ⟨made, hmake, rfl⟩ := Sim.Run.perform_ok hperform
    obtain ⟨engine, hengine, hmade⟩ := Data.bind_ok hmake
    obtain rfl := Except.ok.inj hmade
    obtain ⟨hnew, rfl⟩ := Sim.Engine.allocateEvent_ok hengine
    exact absurd (horder.ordered.allocated _ hin) hnew

end TraceReplayer

theorem Config.planned_eq {config : Config} {lines : List (Option Match)}
    {initTime : UInt64} {count : Nat}
    (hsame : ∀ index < count, config.time lines index = config.time lines 0)
    {index : Nat} (hindex : index < count) :
    config.planned lines initTime index = initTime := by
  induction index with
  | zero => rfl
  | succ index ih =>
      have hbefore : index < count := by omega
      unfold planned
      rw [ih hbefore, hsame index hbefore, UInt64.sub_self, UInt64.zero_add,
        UInt64.max_def, ite_self]

/-- The plan agrees with the times of the lines only where these are all the
same. -/
theorem Config.planned_exact {config : Config} {lines : List (Option Match)}
    {initTime : UInt64} {count : Nat} (hrising : config.Rising lines)
    (hcount : count ≤ (lines.filterMap id).length) :
    (∀ index < count, (config.planned lines initTime index).toNat =
        initTime.toNat + ((config.time lines index).toNat -
          (config.time lines 0).toNat)) ↔
      ∀ index < count, config.time lines index = config.time lines 0 := by
  constructor
  · intro hexact index hindex
    induction index with
    | zero => rfl
    | succ index ih =>
        have hsame := ih (by omega)
        have hnow := hexact index (by omega)
        have hnext := hexact (index + 1) hindex
        have hle := hrising (index + 1) (by omega) 0 (Nat.zero_le _)
        rw [hsame, Nat.sub_self, Nat.add_zero] at hnow
        unfold planned at hnext
        rw [hsame, UInt64.sub_self, UInt64.zero_add, UInt64.toNat_inj.mp hnow,
          UInt64.max_def, ite_self] at hnext
        rw [UInt64.le_iff_toNat_le] at hle
        apply UInt64.toNat_inj.mp
        omega
  · intro hsame index hindex
    rw [planned_eq hsame hindex, hsame index hindex, Nat.sub_self, Nat.add_zero]

/-- In `MODE_STRICT` and below the queue depth, the I/Os submitted so far come
from the lines in order, and come at the times of their lines exactly when
these lines all have the same time. -/
theorem strict_submission_times (calls : List Sim.Call) (sim : Sim.Run)
    (config : Config) (lines : List (Option Match)) (steps : List Step)
    (replayer final : TraceReplayer)
    (hsim : Sim.Run.start.performAll calls = .ok sim)
    (hmake : TraceReplayer.make config lines sim = .ok replayer)
    (hrun : replayer.performAll config steps = some final)
    (hmode : config.mode = .strict) (hrising : config.Rising lines)
    (hshallow : final.Shallow config) :
    (∀ index io, final.submitted[index]? = some io →
        (lines.filterMap id)[index]? = some io.line ∧
          io.tick.toNat = final.initTime.toNat +
            ((config.time lines index).toNat -
              (config.time lines 0).toNat)) ↔
      ∀ index < final.submitted.length,
        config.time lines index = config.time lines 0 := by
  have horder := Sim.Run.start_inOrder.performAll hsim
  have hpaced := TraceReplayer.Paced.performAll hmode hrising
    (fun _ => TraceReplayer.make_paced horder hmake) hrun hshallow
  have hcount : final.submitted.length ≤ (lines.filterMap id).length := by
    rw [hpaced.read, List.length_append, List.length_map]
    omega
  rw [← @Config.planned_exact config lines final.initTime _ hrising hcount]
  constructor
  · intro hexact index hindex
    have hio := List.getElem?_eq_getElem hindex
    rw [← hpaced.ticks index _ hio]
    exact (hexact index _ hio).2
  · intro hexact index io hio
    have hindex := (List.getElem?_eq_some_iff.mp hio).1
    refine ⟨?_, ?_⟩
    · rw [hpaced.read, List.getElem?_append_left (by simpa using hindex),
        List.getElem?_map, hio]
      rfl
    · rw [hpaced.ticks index io hio]
      exact hexact index hindex

/-- Lines of an operation, an offset, a length and a time in picoseconds. -/
def strictConfig : Config where
  mode := .strict
  submissionLatency := 0
  completionLatency := 0
  maxQueueDepth := 32
  maxIO := 0
  groupID
    | .operation => 1
    | .byteOffset => 2
    | .byteLength => 3
    | .timePs => 4
    | _ => 0
  useHex := false
  lbaSize := 512
  ssdSize := 1048576

def readAt (time : List Char) : Option Match :=
  some [[], ['r'], ['0'], ['5', '1', '2'], time]

def freshReplayer (lines : List (Option Match)) : TraceReplayer :=
  ((TraceReplayer.make strictConfig lines .start).toOption).getD
    { sim := .start, submitEvent := 0, begun := false, lines := [], initTime := 0
      firstTick := 0, nextIOIsSync := false, reserveTermination := false
      pBackup := none, ioSubmitted := 0, ioCount := 0, readCount := 0
      writeCount := 0, ioDepth := 0, ended := 0, submitted := [] }

def replayed (lines : List (Option Match)) (steps : List Step) :
    TraceReplayer :=
  ((freshReplayer lines).performAll strictConfig steps).getD
    (freshReplayer lines)

/-- Two reads of one time are submitted one after the other. -/
theorem strict_submission_times_same :
    let lines := [readAt ['7'], none, readAt ['7']]
    let final := replayed lines [.start, .doNextEvent]
    ∀ index io, final.submitted[index]? = some io →
      (lines.filterMap id)[index]? = some io.line ∧
        io.tick.toNat = final.initTime.toNat +
          ((strictConfig.time lines index).toNat -
            (strictConfig.time lines 0).toNat) := by
  intro lines final
  exact (strict_submission_times [] .start strictConfig lines
    [.start, .doNextEvent] (freshReplayer lines) final rfl rfl rfl rfl
    (by decide +kernel) (by decide +kernel)).mpr (by decide +kernel)

/-- The second read comes nine ticks too early, with the first. -/
theorem strict_submission_early :
    let lines := [readAt ['0'], readAt ['9']]
    let final := replayed lines [.start, .doNextEvent]
    TraceReplayer.make strictConfig lines .start = .ok (freshReplayer lines) ∧
      (freshReplayer lines).performAll strictConfig [.start, .doNextEvent] =
        some final ∧
      strictConfig.Rising lines ∧ final.Shallow strictConfig ∧
      ¬ ∀ index io, final.submitted[index]? = some io →
        io.tick.toNat = final.initTime.toNat +
          ((strictConfig.time lines index).toNat -
            (strictConfig.time lines 0).toNat) := by
  intro lines final
  refine ⟨rfl, rfl, by decide +kernel, by decide +kernel, fun hexact => ?_⟩
  have hticks : (final.submitted[1]?.map Submitted.tick) = some 0 := by
    decide +kernel
  obtain ⟨io, hio, htick⟩ := Option.map_eq_some_iff.mp hticks
  have hlate := hexact 1 io hio
  rw [htick] at hlate
  exact absurd hlate (by decide +kernel)

end SimpleSSD.IGL
