import SimpleSSD.Data.Result
import SimpleSSD.HIL.NVMe.Controller

namespace SimpleSSD.HIL.NVMe

/-! The commands of a submission queue that is deleted. -/

namespace Controller

def abortCompletion (command : SQEntryWrapper) : CQEntryWrapper where
  cqID := command.cqID
  entry := { commandID := command.commandID, status := abortedBySQDelete }

/-- Every queued command of the queue is completed once, none is left, and the
others stay in their order. -/
def AbortsAll (controller : Controller) (sqid : Nat) : Prop :=
  ∃ final, controller.deleteSQueue sqid = .ok (0, final) ∧
    final.lCQFIFO = controller.lCQFIFO ++
      (controller.lSQFIFO.filter fun command => command.sqID = sqid).map
        abortCompletion ∧
    final.lSQFIFO =
      controller.lSQFIFO.filter fun command => command.sqID ≠ sqid

def Separated (sqid : Nat) : List SQEntryWrapper → Prop
  | [] => True
  | command :: rest =>
      (command.sqID = sqid →
        ∃ following ∈ rest.head?, following.sqID ≠ sqid) ∧
      Separated sqid rest

instance (sqid : Nat) : (commands : List SQEntryWrapper) →
    Decidable (Separated sqid commands)
  | [] => isTrue trivial
  | _ :: rest =>
      have := instDecidableSeparated sqid rest
      inferInstanceAs (Decidable (_ ∧ _))

def Answers (controller : Controller) (sqid : Nat)
    (commands : List SQEntryWrapper) : Prop :=
  ∀ command ∈ commands, command.sqID = sqid →
    (controller.ppCQueue[command.cqID]?.join).isSome = true

instance (controller : Controller) (sqid : Nat)
    (commands : List SQEntryWrapper) :
    Decidable (controller.Answers sqid commands) := by
  unfold Answers
  infer_instance

variable {controller final : Controller} {sqid : Nat}
  {commands kept : List SQEntryWrapper}

theorem submit_ok_iff {wrapper : CQEntryWrapper} :
    controller.submit wrapper = .ok final ↔
      (controller.ppCQueue[wrapper.cqID]?.join).isSome = true ∧
        final = { controller with lCQFIFO := controller.lCQFIFO ++ [wrapper] } := by
  unfold submit cqueueAt
  cases there : controller.ppCQueue[wrapper.cqID]? with
  | none => simp [bind, Except.bind]
  | some entry =>
      cases entry with
      | none => simp [bind, Except.bind]
      | some queue => simp [bind, Except.bind, pure, Except.pure, eq_comm]

def complete (controller : Controller) (wrappers : List CQEntryWrapper) :
    Controller :=
  { controller with lCQFIFO := controller.lCQFIFO ++ wrappers }

/-- Where no command of the queue is passed over, the loop completes them and
keeps the others. -/
theorem abortCommands_separated (separated : Separated sqid commands)
    (answers : controller.Answers sqid commands) :
    abortCommands sqid commands controller =
      .ok (commands.filter fun command => command.sqID ≠ sqid,
        controller.complete
          ((commands.filter fun command => command.sqID = sqid).map
            abortCompletion)) := by
  fun_induction abortCommands sqid commands controller with
  | case1 controller =>
      have same : controller.complete [] = controller := by
        unfold complete
        rw [List.append_nil]
      exact congrArg (fun after => Except.ok ([], after)) same.symm
  | case2 command controller own =>
      obtain ⟨following, nothing, _⟩ := separated.1 own
      cases nothing
  | case3 command controller other =>
      have same : controller.complete [] = controller := by
        unfold complete
        rw [List.append_nil]
      simp [other, same, pure, Except.pure]
  | case4 command following rest controller own induction =>
      obtain ⟨next, first, apart⟩ := separated.1 own
      cases first
      have submitted : controller.submit (abortCompletion command) =
          .ok (controller.complete [abortCompletion command]) :=
        submit_ok_iff.mpr ⟨answers command (.head _) own, rfl⟩
      have later := induction (controller.complete [abortCompletion command])
        separated.2.2 fun other member => answers other (.tail _ (.tail _ member))
      unfold abortCompletion at submitted later
      rw [submitted]
      change (abortCommands sqid rest _ >>= _) = _
      rw [later]
      simp [own, apart, complete, abortCompletion, bind, Except.bind, pure,
        Except.pure]
  | case5 command following rest controller other induction =>
      have later := induction separated.2
        fun next member => answers next (.tail _ member)
      rw [later]
      simp [other, bind, Except.bind, pure, Except.pure]

theorem separated_of_abortCommands
    (result : abortCommands sqid commands controller = .ok (kept, final))
    (none : ∀ command ∈ kept, command.sqID ≠ sqid) :
    Separated sqid commands ∧ controller.Answers sqid commands := by
  fun_induction abortCommands sqid commands controller generalizing kept with
  | case1 controller => exact ⟨trivial, fun _ member => nomatch member⟩
  | case2 command controller own =>
      obtain ⟨_, _, stopped⟩ := Data.bind_ok result
      cases stopped
  | case3 command controller other =>
      refine ⟨⟨fun own => absurd own other, trivial⟩, ?_⟩
      intro next member own
      rw [List.mem_singleton.mp member] at own
      exact absurd own other
  | case4 command following rest controller own induction =>
      obtain ⟨submitted, first, looped⟩ := Data.bind_ok result
      obtain ⟨⟨others, after⟩, later, returned⟩ := Data.bind_ok looped
      cases returned
      obtain ⟨answered, rfl⟩ := submit_ok_iff.mp first
      obtain ⟨separated, answers⟩ := induction _ later
        fun next member => none next (.tail _ member)
      have apart := none following (.head _)
      refine ⟨⟨fun _ => ⟨following, rfl, apart⟩,
        fun same => absurd same apart, separated⟩, ?_⟩
      intro next member same
      rcases List.mem_cons.mp member with rfl | member
      · exact answered
      rcases List.mem_cons.mp member with rfl | member
      · exact absurd same apart
      · exact answers next member same
  | case5 command following rest controller other induction =>
      obtain ⟨⟨others, after⟩, later, returned⟩ := Data.bind_ok result
      cases returned
      obtain ⟨separated, answers⟩ := induction later
        fun next member => none next (.tail _ member)
      refine ⟨⟨fun own => absurd own other, separated⟩, ?_⟩
      intro next member same
      rcases List.mem_cons.mp member with rfl | member
      · exact absurd same other
      · exact answers next member same

theorem deleteSQueue_existing {queue : SQueue}
    (existing : controller.squeueAt sqid = .ok (some queue)) (io : sqid ≠ 0) :
    controller.deleteSQueue sqid =
      (abortCommands sqid controller.lSQFIFO controller).map fun result =>
        (0, { result.2 with lSQFIFO := result.1 }.setSQueue sqid none) := by
  unfold deleteSQueue
  rw [existing]
  change (if sqid = 0 then _ else _) = _
  rw [if_neg io]
  cases abortCommands sqid controller.lSQFIFO controller <;> rfl

end Controller

/-- Exactly when the deletion of an I/O queue aborts all its queued commands. -/
theorem queue_deletion_aborts {controller : Controller} {sqid : Nat}
    {queue : SQueue}
    (existing : controller.squeueAt sqid = .ok (some queue)) (io : sqid ≠ 0) :
    controller.AbortsAll sqid ↔
      Controller.Separated sqid controller.lSQFIFO ∧
        controller.Answers sqid controller.lSQFIFO := by
  have deleted := Controller.deleteSQueue_existing existing io
  constructor
  · intro ⟨final, result, _, left⟩
    rw [deleted] at result
    cases looped : Controller.abortCommands sqid controller.lSQFIFO
        controller with
    | error raised =>
        rw [looped] at result
        cases result
    | ok outcome =>
        rw [looped] at result
        cases result
        refine Controller.separated_of_abortCommands looped ?_
        intro command member
        have kept : command ∈ controller.lSQFIFO.filter
            fun command => command.sqID ≠ sqid := left ▸ member
        exact of_decide_eq_true (List.mem_filter.mp kept).2
  · intro ⟨separated, answers⟩
    have looped := Controller.abortCommands_separated separated answers
    rw [looped] at deleted
    exact ⟨_, deleted, rfl, rfl⟩

def Controller.queued (commands : List SQEntryWrapper) : Controller where
  ready := true
  arbitration := .roundRobin
  wrrHigh := 2
  wrrMedium := 2
  ppCQueue := [some (CQueue.make 0 true 0 64), some (CQueue.make 1 true 1 64)]
  ppSQueue := [some (SQueue.make 0 .urgent 0 64),
    some (SQueue.make 1 .low 1 64)]
  lSQFIFO := commands
  lCQFIFO := []
  aggregationMap := ∅
  issued := []

theorem queue_deletion_aborts_separated :
    (Controller.queued [⟨1, 1, 5⟩, ⟨0, 0, 6⟩, ⟨1, 1, 7⟩, ⟨0, 0, 8⟩]).AbortsAll 1 :=
  (@queue_deletion_aborts (Controller.queued _) 1 (SQueue.make 1 .low 1 64) rfl
    Nat.one_ne_zero).mpr (by decide)

/-- The second of two adjacent commands stays behind, for a queue that is gone. -/
theorem queue_deletion_leaves_command : ∃ final,
    (Controller.queued [⟨1, 1, 5⟩, ⟨1, 1, 6⟩, ⟨0, 0, 7⟩]).deleteSQueue 1 =
      .ok (0, final) ∧
    final.lSQFIFO = [⟨1, 1, 6⟩, ⟨0, 0, 7⟩] ∧ final.lCQFIFO.length = 1 ∧
    ¬(Controller.queued [⟨1, 1, 5⟩, ⟨1, 1, 6⟩, ⟨0, 0, 7⟩]).AbortsAll 1 := by
  refine ⟨_, rfl, rfl, rfl, ?_⟩
  intro ⟨final, result, _, left⟩
  cases result
  cases left

end SimpleSSD.HIL.NVMe
