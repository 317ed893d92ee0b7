import Mathlib.Data.List.Perm.Basic
import Mathlib.Data.List.Sort
import SimpleSSD.Data.Result

namespace SimpleSSD.HIL.NVMe

/-! Interrupts of the completion queues.  The interrupt of a completion can be
held back until there are more of them, or for some time. -/

namespace Coalescing

inductive Fault where
  /-- The panic of `submit`. -/
  | completionQueueNotCreated (cqid : Nat)
  /-- `completion` uses a completion queue that does not exist. -/
  | nullCompletionQueue
  deriving DecidableEq, Repr

def Fault.message : Fault → String
  | .completionQueueNotCreated _ =>
      "nvme_ctrl: Completion Queue not created! CQID %d"
  | .nullCompletionQueue => ""

structure CQueue where
  iv : UInt16
  ien : Bool
  deriving DecidableEq, Repr

structure Settings where
  ppCQueue : Nat → Option CQueue
  aggregationTime : UInt64
  aggregationThreshold : UInt32

structure CQEntryWrapper where
  cqID : Nat
  submitAt : UInt64
  deriving DecidableEq, Repr

structure AggregationInfo where
  nextTime : UInt64
  requestCount : UInt32
  valid : Bool
  pending : Bool
  deriving DecidableEq, Repr

/-- `DMAContext` of the writes of one `completion`, and the `CompletionContext`
it points to. -/
structure CompletionContext where
  counter : Nat
  ivToPost : List UInt16
  deriving DecidableEq, Repr

inductive Notice where
  | withheld (iv : UInt16)
  /-- `pending` is cleared. -/
  | cleared (iv : UInt16)
  /-- `updateInterrupt` with `true`. -/
  | posted (iv : UInt16)
  deriving DecidableEq, Repr

end Coalescing

/-- The members of `Controller` that `submit` and `completion` use, the writes
of completion entries that are under way, the calls of `send` that `execute`
will make, and what has happened, the latest first. -/
structure Coalescing where
  now : UInt64
  lCQFIFO : List Coalescing.CQEntryWrapper
  /-- In the order of the iteration; a vector is in it once. -/
  aggregationMap : List (UInt16 × Coalescing.AggregationInfo)
  completionEvent : Option UInt64
  contexts : List Coalescing.CompletionContext
  sends : List (List UInt16)
  history : List Coalescing.Notice
  deriving DecidableEq, Repr

namespace Coalescing

open Data (Returns Along)

/-- `schedule`: the engine moves the event, and ticks of the past to the
present one. -/
def schedule (controller : Coalescing) (tick : UInt64) : Coalescing :=
  { controller with
    completionEvent :=
      some (if tick < controller.now then controller.now else tick) }

/-- A round of the loop of `reserveCompletion`. -/
def earlier (tick : Option UInt64) (entry : UInt16 × AggregationInfo) :
    Option UInt64 :=
  if entry.2.valid && entry.2.pending then
    match tick with
    | none => some entry.2.nextTime
    | some tick =>
        some (if entry.2.nextTime < tick then entry.2.nextTime else tick)
  else tick

def reserveCompletion (controller : Coalescing) : Coalescing :=
  match controller.aggregationMap.foldl earlier
      (controller.lCQFIFO.head?.map CQEntryWrapper.submitAt) with
  | some tick => controller.schedule tick
  | none => controller

section

variable (settings : Settings)

def submit (controller : Coalescing) (cqID : Nat) : Except Fault Coalescing :=
  match settings.ppCQueue cqID with
  | none => .error (.completionQueueNotCreated cqID)
  | some _ =>
      let before (entry : CQEntryWrapper) : Bool :=
        entry.submitAt ≤ controller.now
      .ok { controller with
        lCQFIFO := controller.lCQFIFO.takeWhile before ++
          CQEntryWrapper.mk cqID controller.now ::
            controller.lCQFIFO.dropWhile before
        }.reserveCompletion

def AggregationInfo.withhold (info : AggregationInfo) : AggregationInfo :=
  { info with requestCount := info.requestCount + 1, pending := true }

def AggregationInfo.restart (nextTime : UInt64) (info : AggregationInfo) :
    AggregationInfo :=
  { info with nextTime := nextTime, requestCount := 0 }

/-- The variables of the loops of `completion`. -/
structure Posting where
  aggregationMap : List (UInt16 × AggregationInfo)
  ivToPost : List UInt16
  history : List Notice

def Posting.find (posting : Posting) (iv : UInt16) : Option AggregationInfo :=
  (posting.aggregationMap.find? fun entry => entry.1 = iv).map Prod.snd

def Posting.update (posting : Posting) (iv : UInt16)
    (change : AggregationInfo → AggregationInfo) : Posting :=
  { posting with
    aggregationMap := posting.aggregationMap.map fun entry =>
      if entry.1 = iv then (entry.1, change entry.2) else entry }

def Posting.post (posting : Posting) (iv : UInt16) : Posting :=
  { posting with ivToPost := posting.ivToPost ++ [iv] }

def Posting.withhold (posting : Posting) (iv : UInt16) : Posting :=
  { posting.update iv AggregationInfo.withhold with
    history := .withheld iv :: posting.history }

/-- The interrupt of one completion entry.  `tick` is that of the event. -/
def collect (tick : UInt64) (posting : Posting) (entry : CQEntryWrapper) :
    Except Fault Posting :=
  match settings.ppCQueue entry.cqID with
  | none => .error .nullCompletionQueue
  | some queue =>
      if ¬queue.ien then .ok posting
      else
        -- interrupt coalescing is not applied to the admin queue
        match if 0 < entry.cqID then posting.find queue.iv else none with
        | none => .ok (posting.post queue.iv)
        | some info =>
            if ¬info.valid then .ok (posting.post queue.iv)
            else if entry.submitAt < info.nextTime ∧
                info.requestCount + 1 ≤ settings.aggregationThreshold then
              .ok (posting.withhold queue.iv)
            else
              .ok ((posting.update queue.iv
                (.restart (tick + settings.aggregationTime))).post queue.iv)

def AggregationInfo.expired (tick : UInt64) (info : AggregationInfo) : Bool :=
  info.valid && info.nextTime ≤ tick && info.pending

/-- The last loop of `completion`. -/
def expire (tick : UInt64) (posting : Posting) : Posting :=
  let expired := (posting.aggregationMap.filter fun entry =>
    entry.2.expired tick).map Prod.fst
  { aggregationMap := posting.aggregationMap.map fun entry =>
      if entry.2.expired tick then
        (entry.1, { entry.2.restart (tick + settings.aggregationTime) with
          pending := false })
      else entry
    ivToPost := posting.ivToPost ++ expired
    history := (expired.map Notice.cleared).reverse ++ posting.history }

def completion (controller : Coalescing) : Except Fault Coalescing := do
  let due (entry : CQEntryWrapper) : Bool := entry.submitAt ≤ controller.now
  let entryToPost := controller.lCQFIFO.filter due
  let collected ← entryToPost.foldlM (collect settings controller.now)
    ⟨controller.aggregationMap, [], controller.history⟩
  let posting := expire settings controller.now collected
  return { controller with
    lCQFIFO := controller.lCQFIFO.filter fun entry => !due entry
    aggregationMap := posting.aggregationMap
    contexts := if entryToPost.length = 0 then controller.contexts
      else controller.contexts ++ [⟨entryToPost.length, posting.ivToPost⟩]
    history := posting.history }

end

def doSubmit (controller : Coalescing) (index : Nat) : Coalescing :=
  match controller.contexts[index]? with
  | none => controller
  | some context =>
      if context.counter - 1 = 0 then
        { controller with
          contexts := controller.contexts.eraseIdx index
          sends := controller.sends ++ [context.ivToPost] }
      else
        { controller with
          contexts := controller.contexts.set index
            { context with counter := context.counter - 1 } }

def unique : List UInt16 → List UInt16
  | first :: second :: rest =>
      if first = second then unique (second :: rest)
      else first :: unique (second :: rest)
  | vectors => vectors

def send (controller : Coalescing) (index : Nat) : Coalescing :=
  match controller.sends[index]? with
  | none => controller
  | some ivToPost =>
      let vectors := unique (ivToPost.insertionSort (· ≤ ·))
      { controller with
        sends := controller.sends.eraseIdx index
        history := (vectors.map Notice.posted).reverse ++ controller.history
        }.reserveCompletion

/-! Runs -/

inductive Action where
  | submit (cqID : Nat)
  | completion
  | doSubmit (index : Nat)
  | send (index : Nat)
  deriving DecidableEq, Repr

def perform (settings : Settings) (controller : Coalescing) :
    Action → Except Fault Coalescing
  | .submit cqID => submit settings controller cqID
  | .completion =>
      completion settings { controller with completionEvent := none }
  | .doSubmit index => .ok (controller.doSubmit index)
  | .send index => .ok (controller.send index)

/-- The action can happen at the tick: the event comes when it is due, and
nothing comes later than it. -/
structure Enabled (controller : Coalescing) (tick : UInt64) (action : Action) :
    Prop where
  later : controller.now ≤ tick
  due : ∀ other ∈ controller.completionEvent, tick ≤ other
  called : action = .completion → controller.completionEvent = some tick

structure Idle (controller : Coalescing) : Prop where
  lCQFIFO : controller.lCQFIFO = []
  completionEvent : controller.completionEvent = none
  contexts : controller.contexts = []
  sends : controller.sends = []
  history : controller.history = []
  pending : ∀ entry ∈ controller.aggregationMap, entry.2.pending = false

instance (controller : Coalescing) (tick : UInt64) (action : Action) :
    Decidable (controller.Enabled tick action) :=
  decidable_of_iff (controller.now ≤ tick ∧
      controller.completionEvent.all (fun other => tick ≤ other) = true ∧
      (action = .completion → controller.completionEvent = some tick)) <| by
    rw [Option.all_eq_true]
    refine ⟨fun ⟨later, due, called⟩ => ⟨later, fun other member => ?_, called⟩,
      fun enabled => ⟨enabled.later, fun other member => ?_, enabled.called⟩⟩
    · exact of_decide_eq_true (due other member)
    · exact decide_eq_true (enabled.due other member)

inductive Reaches (settings : Settings) : Coalescing → Prop
  | idle {controller : Coalescing} (idle : controller.Idle) :
      Reaches settings controller
  | step {controller after : Coalescing} {tick : UInt64} {action : Action}
      (before : Reaches settings controller)
      (enabled : controller.Enabled tick action)
      (performed : perform settings { controller with now := tick } action =
        .ok after) : Reaches settings after

/-! What is owed to a vector. -/

/-- The notice was given, and the interrupt of the vector was not posted
since. -/
def Unanswered (notice : Notice) (iv : UInt16) : List Notice → Prop
  | [] => False
  | latest :: history => latest = notice ∨
      latest ≠ .posted iv ∧ Unanswered notice iv history

/-- Writes of completion entries are under way, or their `send`. -/
def Busy (controller : Coalescing) : Prop :=
  controller.contexts ≠ [] ∨ controller.sends ≠ []

def Promised (controller : Coalescing) (iv : UInt16) : Prop :=
  (∃ context ∈ controller.contexts, iv ∈ context.ivToPost) ∨
    ∃ ivToPost ∈ controller.sends, iv ∈ ivToPost

/-- The completion event comes at the tick, or at once if that has passed. -/
def ScheduledFor (controller : Coalescing) (tick : UInt64) : Prop :=
  ∃ due ∈ controller.completionEvent, due ≤ tick ∨ due ≤ controller.now

def Pends (aggregationMap : List (UInt16 × AggregationInfo)) (iv : UInt16) :
    Prop :=
  ∃ info, (iv, info) ∈ aggregationMap ∧ info.valid = true ∧
    info.pending = true

/-- No interrupt is lost: where one was held back and not posted since, it will
be, or `pending` is set and the event is scheduled, if not now then at the end
of the writes that are under way; and one that is no longer pending will be. -/
structure Delivers (controller : Coalescing) : Prop where
  withheld : ∀ iv, Unanswered (.withheld iv) iv controller.history →
    controller.Promised iv ∨ ∃ info, (iv, info) ∈ controller.aggregationMap ∧
      info.valid = true ∧ info.pending = true ∧
      (controller.ScheduledFor info.nextTime ∨ controller.Busy)
  cleared : ∀ iv, Unanswered (.cleared iv) iv controller.history →
    controller.Promised iv

def Finds (controller : Coalescing) (action : Action) : Prop :=
  action = .completion → controller.lCQFIFO ≠ [] ∨
    ∀ iv, ¬Pends controller.aggregationMap iv

inductive ReachesFinding (settings : Settings) : Coalescing → Prop
  | idle {controller : Coalescing} (idle : controller.Idle) :
      ReachesFinding settings controller
  | step {controller after : Coalescing} {tick : UInt64} {action : Action}
      (before : ReachesFinding settings controller)
      (enabled : controller.Enabled tick action)
      (finds : controller.Finds action)
      (performed : perform settings { controller with now := tick } action =
        .ok after) : ReachesFinding settings after

theorem unanswered_append {notice : Notice} {iv : UInt16}
    {more history : List Notice}
    (unanswered : Unanswered notice iv (more ++ history)) :
    notice ∈ more ∨ .posted iv ∉ more ∧ Unanswered notice iv history := by
  induction more with
  | nil => exact .inr ⟨List.not_mem_nil, unanswered⟩
  | cons latest more induction =>
      rcases unanswered with rfl | ⟨other, earlier⟩
      · exact .inl (.head _)
      · rcases induction earlier with member | ⟨unposted, before⟩
        · exact .inl (.tail _ member)
        · refine .inr ⟨?_, before⟩
          rw [List.mem_cons, not_or]
          exact ⟨other.symm, unposted⟩

theorem mem_unique {iv : UInt16} (vectors : List UInt16) :
    iv ∈ unique vectors ↔ iv ∈ vectors := by
  fun_induction unique vectors with
  | case1 first rest induction =>
      rw [induction, List.mem_cons, List.mem_cons, List.mem_cons]
      tauto
  | case2 first second rest different induction =>
      rw [List.mem_cons, induction, List.mem_cons (b := first)]
  | case3 vectors short => rfl

/-! The event -/

/-- A round does not move the tick to a later one. -/
theorem earlier_le (tick : UInt64) (entry : UInt16 × AggregationInfo) :
    ∃ due, earlier (some tick) entry = some due ∧ due ≤ tick := by
  unfold earlier
  split
  · dsimp only
    split
    · next less => exact ⟨_, rfl, UInt64.le_of_lt less⟩
    · exact ⟨_, rfl, UInt64.le_refl _⟩
  · exact ⟨_, rfl, UInt64.le_refl _⟩

theorem earlier_entry (tick : Option UInt64) {iv : UInt16}
    {info : AggregationInfo} (valid : info.valid = true)
    (pending : info.pending = true) :
    ∃ due, earlier tick (iv, info) = some due ∧ due ≤ info.nextTime := by
  unfold earlier
  rw [valid, pending, Bool.and_self, if_pos rfl]
  cases tick with
  | none => exact ⟨_, rfl, UInt64.le_refl _⟩
  | some tick =>
      dsimp only
      split
      · exact ⟨_, rfl, UInt64.le_refl _⟩
      · next more => exact ⟨_, rfl, UInt64.not_lt.mp more⟩

theorem foldl_earlier (aggregationMap : List (UInt16 × AggregationInfo))
    (tick : UInt64) :
    ∃ due, aggregationMap.foldl earlier (some tick) = some due ∧
      due ≤ tick := by
  induction aggregationMap generalizing tick with
  | nil => exact ⟨tick, rfl, UInt64.le_refl _⟩
  | cons entry rest induction =>
      obtain ⟨first, round, below⟩ := earlier_le tick entry
      obtain ⟨due, result, before⟩ := induction first
      refine ⟨due, ?_, UInt64.le_trans before below⟩
      rw [List.foldl_cons, round]
      exact result

theorem foldl_earlier_entry {aggregationMap : List (UInt16 × AggregationInfo)}
    (tick : Option UInt64) {iv : UInt16} {info : AggregationInfo}
    (member : (iv, info) ∈ aggregationMap) (valid : info.valid = true)
    (pending : info.pending = true) :
    ∃ due, aggregationMap.foldl earlier tick = some due ∧
      due ≤ info.nextTime := by
  induction aggregationMap generalizing tick with
  | nil => cases member
  | cons entry rest induction =>
      rw [List.foldl_cons]
      rcases List.mem_cons.mp member with rfl | later
      · obtain ⟨first, round, below⟩ := earlier_entry tick valid pending
        obtain ⟨due, result, before⟩ := foldl_earlier rest first
        rw [round]
        exact ⟨due, result, UInt64.le_trans before below⟩
      · exact induction _ later

theorem reserveCompletion_scheduled (controller : Coalescing) {iv : UInt16}
    {info : AggregationInfo} (member : (iv, info) ∈ controller.aggregationMap)
    (valid : info.valid = true) (pending : info.pending = true) :
    controller.reserveCompletion.ScheduledFor info.nextTime := by
  obtain ⟨due, result, below⟩ := foldl_earlier_entry
    (controller.lCQFIFO.head?.map CQEntryWrapper.submitAt) member valid pending
  unfold reserveCompletion
  rw [result]
  refine ⟨_, rfl, ?_⟩
  split
  · exact .inr (UInt64.le_refl _)
  · exact .inl below

theorem reserveCompletion_eq (controller : Coalescing) :
    ∃ event, controller.reserveCompletion =
      { controller with completionEvent := event } := by
  unfold reserveCompletion
  split
  · exact ⟨_, rfl⟩
  · exact ⟨_, rfl⟩

/-! The loops of `completion` -/

variable {settings : Settings} {tick : UInt64} {promised : UInt16 → Prop}
  {posting : Posting} {controller : Coalescing} {iv : UInt16}

theorem Posting.find_mem {info : AggregationInfo}
    (found : posting.find iv = some info) :
    (iv, info) ∈ posting.aggregationMap := by
  obtain ⟨entry, result, rfl⟩ := Option.map_eq_some_iff.mp found
  have same := List.find?_some result
  rw [decide_eq_true_eq] at same
  subst same
  exact List.mem_of_find?_eq_some result

theorem Posting.mem_update {change : AggregationInfo → AggregationInfo}
    {vector : UInt16} {info : AggregationInfo}
    (member : (vector, info) ∈ posting.aggregationMap) :
    (vector, if vector = iv then change info else info) ∈
      (posting.update iv change).aggregationMap := by
  refine List.mem_map.mpr ⟨(vector, info), member, ?_⟩
  dsimp only
  split <;> rfl

theorem Pends.update {change : AggregationInfo → AggregationInfo}
    (valid : ∀ info, (change info).valid = info.valid)
    (kept : ∀ info, info.pending = true → (change info).pending = true)
    {vector : UInt16} (pends : Pends posting.aggregationMap vector) :
    Pends (posting.update iv change).aggregationMap vector := by
  obtain ⟨info, member, isValid, isPending⟩ := pends
  refine ⟨_, Posting.mem_update member, ?_, ?_⟩
  · split
    · rw [valid, isValid]
    · exact isValid
  · split
    · exact kept info isPending
    · exact isPending

/-- What holds of the variables of the loops; other interrupts are promised. -/
structure Kept (promised : UInt16 → Prop) (posting : Posting) : Prop where
  withheld : ∀ iv, Unanswered (.withheld iv) iv posting.history →
    promised iv ∨ iv ∈ posting.ivToPost ∨ Pends posting.aggregationMap iv
  cleared : ∀ iv, Unanswered (.cleared iv) iv posting.history →
    promised iv ∨ iv ∈ posting.ivToPost

namespace Kept

theorem post (kept : Kept promised posting) (iv : UInt16) :
    Kept promised (posting.post iv) := by
  refine ⟨fun vector unanswered => ?_, fun vector unanswered => ?_⟩
  · refine (kept.withheld vector unanswered).imp_right ?_
    exact Or.imp_left (List.mem_append_left _)
  · exact (kept.cleared vector unanswered).imp_right (List.mem_append_left _)

theorem update (kept : Kept promised posting) (iv : UInt16)
    {change : AggregationInfo → AggregationInfo}
    (valid : ∀ info, (change info).valid = info.valid)
    (stays : ∀ info, info.pending = true → (change info).pending = true) :
    Kept promised (posting.update iv change) :=
  ⟨fun vector unanswered =>
    (kept.withheld vector unanswered).imp_right
      (Or.imp_right (Pends.update valid stays)), kept.cleared⟩

theorem withhold (kept : Kept promised posting) {info : AggregationInfo}
    (found : posting.find iv = some info) (valid : info.valid = true) :
    Kept promised (posting.withhold iv) := by
  refine ⟨?_, ?_⟩
  · rintro vector (new | ⟨_, before⟩)
    · cases new
      have member := @Posting.mem_update posting iv .withhold _ _
        (Posting.find_mem found)
      rw [if_pos rfl] at member
      exact .inr (.inr ⟨_, member, valid, rfl⟩)
    · exact (kept.withheld vector before).imp_right (Or.imp_right
        (@Pends.update posting iv .withhold (fun _ => rfl) (fun _ _ => rfl) _))
  · rintro vector (new | ⟨_, before⟩)
    · cases new
    · exact kept.cleared vector before

theorem collect (kept : Kept promised posting) (entry : CQEntryWrapper) :
    Returns (Kept promised) (fun _ => True)
      (Coalescing.collect settings tick posting entry) := by
  unfold Coalescing.collect
  split
  · trivial
  · next queue _ =>
      split
      · exact kept
      · split
        · exact kept.post _
        · next info found =>
            split
            · exact kept.post _
            · next valid =>
                split
                · refine @withhold _ _ _ kept info ?_ (not_not.mp valid)
                  split at found
                  · exact found
                  · cases found
                · exact (@update promised posting kept queue.iv (.restart _)
                    (fun _ => rfl) fun _ => id).post _

theorem expire (kept : Kept promised posting) :
    Kept promised (Coalescing.expire settings tick posting) := by
  refine ⟨fun vector unanswered => ?_, fun vector unanswered => ?_⟩
  · rcases unanswered_append unanswered with new | ⟨_, before⟩
    · rw [List.mem_reverse, List.mem_map] at new
      obtain ⟨_, _, wrong⟩ := new
      cases wrong
    · refine (kept.withheld vector before).imp_right fun owed => ?_
      rcases owed with pushed | ⟨info, member, valid, pending⟩
      · exact .inl (List.mem_append_left _ pushed)
      · by_cases expired : info.expired tick = true
        · refine .inl (List.mem_append_right _ (List.mem_map.mpr ?_))
          exact ⟨_, List.mem_filter.mpr ⟨member, expired⟩, rfl⟩
        · refine .inr ⟨info, List.mem_map.mpr ⟨_, member, ?_⟩, valid, pending⟩
          rw [if_neg expired]
  · rcases unanswered_append unanswered with new | ⟨_, before⟩
    · rw [List.mem_reverse, List.mem_map] at new
      obtain ⟨_, member, same⟩ := new
      cases same
      exact .inr (List.mem_append_right _ member)
    · exact (kept.cleared vector before).imp_right (List.mem_append_left _)

end Kept

theorem expire_none
    (none : ∀ iv, ¬Pends posting.aggregationMap iv) :
    expire settings tick posting = posting := by
  have still : ∀ entry ∈ posting.aggregationMap,
      ¬entry.2.expired tick = true := by
    intro entry member expired
    unfold AggregationInfo.expired at expired
    rw [Bool.and_eq_true, Bool.and_eq_true] at expired
    exact none entry.1 ⟨entry.2, member, expired.1.1, expired.2⟩
  have nothing : posting.aggregationMap.filter
      (fun entry => entry.2.expired tick) = [] :=
    List.filter_eq_nil_iff.mpr still
  unfold expire
  rw [nothing, List.map_congr_left fun entry member =>
    if_neg (still entry member)]
  simp

/-! Steps -/

structure Invariant (controller : Coalescing) : Prop where
  submitted : ∀ entry ∈ controller.lCQFIFO, entry.submitAt ≤ controller.now
  withheld : ∀ iv, Unanswered (.withheld iv) iv controller.history →
    controller.Promised iv ∨ Pends controller.aggregationMap iv
  cleared : ∀ iv, Unanswered (.cleared iv) iv controller.history →
    controller.Promised iv
  scheduled : ∀ iv info, (iv, info) ∈ controller.aggregationMap →
    info.valid = true → info.pending = true →
      controller.ScheduledFor info.nextTime ∨ controller.Busy

namespace Invariant

theorem delivers (inv : controller.Invariant) : controller.Delivers := by
  refine ⟨fun iv unanswered => ?_, inv.cleared⟩
  refine (inv.withheld iv unanswered).imp_right ?_
  rintro ⟨info, member, valid, pending⟩
  exact ⟨info, member, valid, pending,
    inv.scheduled iv info member valid pending⟩

theorem idle (idle : controller.Idle) : controller.Invariant := by
  refine ⟨?_, ?_, ?_, ?_⟩
  · rw [idle.lCQFIFO]
    exact nofun
  · rw [idle.history]
    exact nofun
  · rw [idle.history]
    exact nofun
  · intro iv info member _ pending
    rw [idle.pending _ member] at pending
    cases pending

theorem elapse (inv : controller.Invariant) (later : controller.now ≤ tick) :
    Invariant { controller with now := tick } := by
  refine ⟨fun entry member => ?_, inv.withheld, inv.cleared, ?_⟩
  · exact UInt64.le_trans (inv.submitted entry member) later
  · intro iv info member valid pending
    refine (inv.scheduled iv info member valid pending).imp_left ?_
    rintro ⟨due, event, before⟩
    exact ⟨due, event, before.imp_right fun passed =>
      UInt64.le_trans passed later⟩

theorem reserveCompletion
    (submitted : ∀ entry ∈ controller.lCQFIFO,
      entry.submitAt ≤ controller.now)
    (withheld : ∀ iv, Unanswered (.withheld iv) iv controller.history →
      controller.Promised iv ∨ Pends controller.aggregationMap iv)
    (cleared : ∀ iv, Unanswered (.cleared iv) iv controller.history →
      controller.Promised iv) : controller.reserveCompletion.Invariant := by
  have scheduled := fun iv info =>
    @reserveCompletion_scheduled controller iv info
  obtain ⟨event, same⟩ := reserveCompletion_eq controller
  rw [same] at scheduled ⊢
  exact ⟨submitted, withheld, cleared, fun iv info member valid pending =>
    .inl (scheduled iv info member valid pending)⟩

theorem submit (inv : controller.Invariant) (cqID : Nat) :
    Returns Invariant (fun _ => True)
      (Coalescing.submit settings controller cqID) := by
  unfold Coalescing.submit
  split
  · trivial
  · refine reserveCompletion ?_ inv.withheld inv.cleared
    intro entry member
    rcases List.mem_append.mp member with before | behind
    · exact inv.submitted entry ((List.takeWhile_sublist _).subset before)
    · rcases List.mem_cons.mp behind with rfl | after
      · exact UInt64.le_refl _
      · exact inv.submitted entry ((List.dropWhile_sublist _).subset after)

theorem completion (inv : controller.Invariant)
    (finds : controller.lCQFIFO ≠ [] ∨
      ∀ iv, ¬Pends controller.aggregationMap iv) :
    Returns Invariant (fun _ => True) (Coalescing.completion settings
      { controller with completionEvent := none }) := by
  have due : controller.lCQFIFO.filter
      (fun entry => entry.submitAt ≤ controller.now) = controller.lCQFIFO :=
    List.filter_eq_self.mpr fun entry member =>
      decide_eq_true (inv.submitted entry member)
  unfold Coalescing.completion
  dsimp only
  rw [due]
  have start : Kept controller.Promised
      ⟨controller.aggregationMap, [], controller.history⟩ :=
    ⟨fun iv unanswered => (inv.withheld iv unanswered).imp_right .inr,
      fun iv unanswered => .inl (inv.cleared iv unanswered)⟩
  by_cases empty : controller.lCQFIFO = []
  · -- nothing is pending, so nothing is deleted either
    have none := finds.resolve_left (not_not.mpr empty)
    rw [empty]
    change Invariant { controller with
      completionEvent := _, lCQFIFO := _, aggregationMap := _
      contexts := _, history := _ }
    rw [expire_none none]
    refine ⟨nofun, inv.withheld, inv.cleared, ?_⟩
    intro iv info member valid pending
    exact absurd ⟨info, member, valid, pending⟩ (none iv)
  · have loop : Returns (Kept controller.Promised) (fun _ => True)
        (controller.lCQFIFO.foldlM (Coalescing.collect settings controller.now)
          ⟨controller.aggregationMap, [], controller.history⟩) :=
      Along.returns (fun _ entry kept _ => kept.collect entry) start
        (Along.always _ _ _)
    refine loop.bind fun collected kept => ?_
    have posted := @Kept.expire settings controller.now _ _ kept
    have some : ¬controller.lCQFIFO.length = 0 := fun zero =>
      empty (List.length_eq_zero_iff.mp zero)
    rw [if_neg some]
    refine ⟨fun entry member => ?_, fun iv unanswered => ?_,
      fun iv unanswered => ?_, fun iv info _ _ _ => .inr (.inl ?_)⟩
    · exact inv.submitted entry (List.mem_filter.mp member).1
    · rcases posted.withheld iv unanswered with before | pushed | pends
      · exact .inl (before.imp_left fun ⟨context, member, listed⟩ =>
          ⟨context, List.mem_append_left _ member, listed⟩)
      · exact .inl (.inl ⟨_, List.mem_append_right _ (.head _), pushed⟩)
      · exact .inr pends
    · rcases posted.cleared iv unanswered with before | pushed
      · exact before.imp_left fun ⟨context, member, listed⟩ =>
          ⟨context, List.mem_append_left _ member, listed⟩
      · exact .inl ⟨_, List.mem_append_right _ (.head _), pushed⟩
    · exact List.append_ne_nil_of_right_ne_nil _ (List.cons_ne_nil _ _)

theorem frame {contexts : List CompletionContext} {sends : List (List UInt16)}
    (inv : controller.Invariant)
    (promised : ∀ iv, controller.Promised iv →
      Promised { controller with contexts := contexts, sends := sends } iv)
    (busy : Busy { controller with contexts := contexts, sends := sends }) :
    Invariant { controller with contexts := contexts, sends := sends } :=
  ⟨inv.submitted,
    fun iv unanswered => (inv.withheld iv unanswered).imp_left (promised iv),
    fun iv unanswered => promised iv (inv.cleared iv unanswered),
    fun _ _ _ _ _ => .inr busy⟩

theorem doSubmit (inv : controller.Invariant) (index : Nat) :
    (controller.doSubmit index).Invariant := by
  unfold Coalescing.doSubmit
  split
  · exact inv
  · next context found =>
      obtain ⟨inside, same⟩ := List.getElem?_eq_some_iff.mp found
      split
      · -- the last write: the context goes on to `send`
        refine inv.frame ?_ (.inr ?_)
        · rintro iv (⟨other, member, listed⟩ | ⟨ivToPost, member, listed⟩)
          · have members :=
              (List.getElem_cons_eraseIdx_perm inside).mem_iff.mpr member
            rcases List.mem_cons.mp members with rfl | later
            · rw [same] at listed
              exact .inr ⟨_, List.mem_append_right _ (.head _), listed⟩
            · exact .inl ⟨other, later, listed⟩
          · exact .inr ⟨ivToPost, List.mem_append_left _ member, listed⟩
        · exact List.append_ne_nil_of_right_ne_nil _ (List.cons_ne_nil _ _)
      · refine inv.frame ?_ (.inl ?_)
        · rintro iv (⟨other, member, listed⟩ | sending)
          · obtain ⟨place, below, rfl⟩ := List.mem_iff_getElem.mp member
            by_cases here : place = index
            · subst here
              rw [same] at listed
              exact .inl ⟨_, List.mem_set below _, listed⟩
            · have other : (controller.contexts.set index
                    { context with counter := context.counter - 1 })[place]? =
                  some controller.contexts[place] := by
                rw [List.getElem?_set_ne (Ne.symm here)]
                exact List.getElem?_eq_getElem below
              exact .inl ⟨_, List.mem_of_getElem? other, listed⟩
          · exact .inr sending
        · rw [← List.length_pos_iff, List.length_set]
          exact Nat.zero_lt_of_lt inside

theorem send (inv : controller.Invariant) (index : Nat) :
    (controller.send index).Invariant := by
  unfold Coalescing.send
  split
  · exact inv
  · next ivToPost found =>
      obtain ⟨inside, same⟩ := List.getElem?_eq_some_iff.mp found
      -- a vector that is not answered was not among those that are posted
      have others : ∀ iv, (Notice.posted iv ∉ ((unique
            (ivToPost.insertionSort (· ≤ ·))).map Notice.posted).reverse) →
          controller.Promised iv →
          Promised { controller with sends := controller.sends.eraseIdx index }
            iv := by
        intro iv unposted promised
        refine promised.imp_right ?_
        rintro ⟨vectors, member, listed⟩
        have members :=
          (List.getElem_cons_eraseIdx_perm inside).mem_iff.mpr member
        rcases List.mem_cons.mp members with rfl | later
        · rw [same] at listed
          refine absurd ?_ unposted
          rw [List.mem_reverse]
          refine List.mem_map_of_mem ((mem_unique _).mpr ?_)
          exact (List.mem_insertionSort _).mpr listed
        · exact ⟨vectors, later, listed⟩
      refine reserveCompletion inv.submitted ?_ ?_
      · intro iv unanswered
        rcases unanswered_append unanswered with new | ⟨unposted, before⟩
        · rw [List.mem_reverse, List.mem_map] at new
          obtain ⟨_, _, wrong⟩ := new
          cases wrong
        · exact (inv.withheld iv before).imp_left (others iv unposted)
      · intro iv unanswered
        rcases unanswered_append unanswered with new | ⟨unposted, before⟩
        · rw [List.mem_reverse, List.mem_map] at new
          obtain ⟨_, _, wrong⟩ := new
          cases wrong
        · exact others iv unposted (inv.cleared iv before)

theorem perform {action : Action} (inv : controller.Invariant)
    (finds : controller.Finds action) :
    Returns Invariant (fun _ => True)
      (Coalescing.perform settings controller action) := by
  cases action with
  | submit cqID => exact inv.submit cqID
  | completion => exact inv.completion (finds rfl)
  | doSubmit index => exact inv.doSubmit index
  | send index => exact inv.send index

end Invariant

/-- Interrupts are not lost as long as every completion event finds a
completion, or nothing is pending. -/
theorem ReachesFinding.interrupts_delivered
    (reaches : ReachesFinding settings controller) : controller.Delivers := by
  refine Invariant.delivers ?_
  induction reaches with
  | idle idle => exact .idle idle
  | step _ enabled finds performed induction =>
      exact ((induction.elapse enabled.later).perform finds).of_ok performed

/-! Concrete runs -/

def attempt (settings : Settings) (controller : Coalescing)
    (step : UInt64 × Action) : Except Fault Coalescing :=
  perform settings { controller with now := step.1 } step.2

theorem Reaches.run (reaches : Reaches settings controller)
    {steps : List (UInt64 × Action)}
    (enabled : Along (attempt settings)
      (fun controller step => controller.Enabled step.1 step.2) controller
      steps) :
    Returns (Reaches settings) (fun _ => True)
      (steps.foldlM (attempt settings) controller) := by
  refine Along.returns (fun state step before allowed => ?_) reaches enabled
  cases performed : attempt settings state step with
  | error fault => trivial
  | ok after => exact .step before allowed performed

theorem ReachesFinding.run (reaches : ReachesFinding settings controller)
    {steps : List (UInt64 × Action)}
    (enabled : Along (attempt settings)
      (fun controller step => controller.Enabled step.1 step.2 ∧
        (step.2 = .completion → controller.lCQFIFO ≠ [])) controller steps) :
    Returns (ReachesFinding settings) (fun _ => True)
      (steps.foldlM (attempt settings) controller) := by
  refine Along.returns (fun state step before allowed => ?_) reaches enabled
  cases performed : attempt settings state step with
  | error fault => trivial
  | ok after =>
      exact .step before allowed.1 (fun called => .inl (allowed.2 called))
        performed

def oneVector : Settings where
  ppCQueue cqid := if cqid = 1 then some ⟨1, true⟩ else none
  aggregationTime := 100
  aggregationThreshold := 10

def nothingCompleted : Coalescing where
  now := 0
  lCQFIFO := []
  aggregationMap := [(1, ⟨0, 0, true, false⟩)]
  completionEvent := none
  contexts := []
  sends := []
  history := []

theorem nothingCompleted_idle : nothingCompleted.Idle :=
  ⟨rfl, rfl, rfl, rfl, rfl, by decide⟩

/-- A command that completes at a tick, with the calls that follow. -/
def completeAt (tick : UInt64) : List (UInt64 × Action) :=
  [(tick, .submit 1), (tick, .completion), (tick + 1, .doSubmit 0),
    (tick + 2, .send 0)]

/-- The interrupt of the second command is held back until the timer. -/
theorem interrupts_delivered_second :
    ∃ controller, (completeAt 0 ++ completeAt 10).foldlM (attempt oneVector)
        nothingCompleted = .ok controller ∧
      controller.history = [.withheld 1, .posted 1] ∧
      controller.completionEvent = some 100 ∧ controller.Delivers := by
  have reaches := @ReachesFinding.run oneVector nothingCompleted
    (.idle nothingCompleted_idle) (completeAt 0 ++ completeAt 10)
    (by decide +kernel)
  exact ⟨_, rfl, rfl, rfl, (reaches.of_ok rfl).interrupts_delivered⟩

/-- Then the timer clears `pending`, and no interrupt is posted. -/
theorem timer_loses_interrupt :
    ∃ controller, Reaches oneVector controller ∧ ¬controller.Delivers := by
  have reaches := @Reaches.run oneVector nothingCompleted
    (.idle nothingCompleted_idle)
    (completeAt 0 ++ completeAt 10 ++ [(100, .completion)])
    (by decide +kernel)
  refine ⟨_, reaches.of_ok rfl, fun delivers => ?_⟩
  rcases delivers.withheld 1 (.inr ⟨nofun, .inl rfl⟩) with
    (⟨_, member, _⟩ | ⟨_, member, _⟩) | ⟨info, member, _, pending, _⟩
  · cases member
  · cases member
  · cases List.mem_singleton.mp member
    cases pending

end Coalescing

end SimpleSSD.HIL.NVMe
