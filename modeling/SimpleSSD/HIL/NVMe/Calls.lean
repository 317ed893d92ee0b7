import SimpleSSD.HIL.NVMe.Handling

namespace SimpleSSD.HIL.NVMe

namespace Subsystem

/-! The calls that are answered. -/

def SingleRange (this : Namespace) (subsystem : Subsystem) (req : Command) :
    Prop :=
  ¬ subsystem.tick < this.formatFinishedAt → req.sqID ≠ 0 →
    Namespace.NVMOpcode.decode req.opcode = .datasetManagement →
    this.attached = true → Namespace.deallocates req = true →
      Namespace.rangesOf req = 1

def dataSize (this : Namespace) (subsystem : Subsystem) (req : Command) :
    Option Nat :=
  if subsystem.tick < this.formatFinishedAt then none
  else if req.sqID = 0 then
    if req.opcode = Namespace.getLogPageOpcode ∧
        Namespace.lidOf req = Namespace.smartHealthInformation ∧
        req.namespaceID = this.nsid then
      some (Namespace.logSizeOf req).toNat
    else none
  else
    match Namespace.NVMOpcode.decode req.opcode with
    | .write | .read | .compare =>
        if this.attached && Namespace.nlbOf req != 0 then
          some (this.transferSize req).toNat
        else none
    | .datasetManagement =>
        if this.attached && Namespace.deallocates req then
          some (Namespace.rangesOf req * 0x10)
        else none
    | .flush | .other => none

/-- The namespace answers the command: the set-up of its data, where there is
data, calls back. -/
def Serviceable (cfg : ConfigData) (this : Namespace) (subsystem : Subsystem)
    (req : Command) : Prop :=
  (∀ size ∈ dataSize this subsystem req, req.setsUp cfg size = .ok true) ∧
    SingleRange this subsystem req

/-- The queue and the namespace that a call works on have not been deleted, a
namespace is left for a command to all of them, and what the host has sent
fits its buffer. -/
def Callable (cfg : ConfigData) (subsystem : Subsystem) (arrival : Arrival) :
    Callback → Prop
  | .cpuHandler (.doQueue _ resp) => resp.func ∉ subsystem.freedLists
  | .managementDone _ _ => (arrival.buffer 26).toNat < lbaSizes.length
  | .attachmentDone _ _ _ => controllerAt arrival 0 < 2048
  | .doSubmit ns req _ => ∃ this, subsystem.namespaceAt ns = .ok this ∧
      Serviceable cfg this subsystem req
  | .submitFront req _ => ∃ this rest, subsystem.lNamespaces = this :: rest ∧
      Serviceable cfg this subsystem req
  | .flushBegin ns _ | .doFlush ns _ | .transfer _ ns _ _ | .trimRead ns _ _
  | .eachTrimDone ns _ _ => ∃ this, subsystem.namespaceAt ns = .ok this
  | .transferDone kind ns context _ =>
      ∃ this, subsystem.namespaceAt ns = .ok this ∧
        (kind = .write → ∀ found : IOContext,
          subsystem.contexts[context]? = some (some found) →
            found.buffer = true → this.pDisk = true)
  | _ => True

section Calls

variable {cfg : ConfigData} {subsystem : Subsystem} {arrival : Arrival}
  {func bound : Nat}

theorem transfer_stage {kind : Transfer} {this : Namespace} {req : Command}
    (room : 5 < bound)
    (ready : (this.attached && Namespace.nlbOf req != 0) = true →
      req.setsUp cfg (this.transferSize req).toNat = .ok true) :
    ∃ after, Namespace.transfer cfg kind this req func subsystem = .ok after ∧
      Stage cfg func bound subsystem after := by
  unfold Namespace.transfer
  dsimp only
  split
  · next taken =>
      rw [setUp_ok (ready taken)]
      refine ⟨_, rfl, .prepared (.cpuHandler (.transfer kind this.address
        subsystem.contexts.length func)) _ ⟨rfl, ?_⟩ rfl trivial room rfl rfl
        rfl rfl, fun placed => placed.of_ranges rfl, rfl⟩
      split <;> rfl
  · refine ⟨_, rfl, .reply rfl ?_ rfl rfl rfl rfl rfl⟩
    split <;> rfl

theorem namespaceCommand_stage {this : Namespace} {req : Command}
    (room : 5 < bound) (serviceable : Serviceable cfg this subsystem req) :
    ∃ after, this.submitCommand cfg req func subsystem = .ok after ∧
      Stage cfg func bound subsystem after := by
  obtain ⟨ready, single⟩ := serviceable
  have two : 2 < bound := by omega
  unfold dataSize at ready
  unfold Namespace.submitCommand
  dsimp only
  split
  · exact ⟨_, rfl, .reply rfl rfl rfl rfl rfl rfl rfl⟩
  · next formatted =>
      rw [if_neg formatted] at ready
      by_cases admin : req.sqID = 0
      · rw [if_pos admin] at ready ⊢
        split
        · next logs =>
            unfold Namespace.getLogPage
            dsimp only
            split
            · next health =>
                split
                · next own =>
                    rw [if_pos ⟨logs, health, own⟩] at ready
                    rw [setUp_ok (ready _ rfl)]
                    exact ⟨_, rfl,
                      .schedule rfl rfl rfl rfl rfl rfl rfl rfl trivial two⟩
                · exact ⟨_, rfl, .reply rfl rfl rfl rfl rfl rfl rfl⟩
            · exact ⟨_, rfl, .reply rfl rfl rfl rfl rfl rfl rfl⟩
        · exact ⟨_, rfl, .reply rfl rfl rfl rfl rfl rfl rfl⟩
      · rw [if_neg admin] at ready ⊢
        have transferred : ∀ kind : Transfer,
            (∀ size ∈ if this.attached && Namespace.nlbOf req != 0 then
                some (this.transferSize req).toNat else none,
              req.setsUp cfg size = .ok true) →
            ∃ after, Namespace.transfer cfg kind this req func subsystem =
                .ok after ∧ Stage cfg func bound subsystem after := by
          intro kind ready
          refine transfer_stage room fun taken => ready _ ?_
          rw [if_pos taken]
          rfl
        cases opcode : Namespace.NVMOpcode.decode req.opcode with
        | flush =>
            dsimp only
            unfold Namespace.flush
            dsimp only
            split
            · exact ⟨_, rfl,
                .schedule rfl rfl rfl rfl rfl rfl rfl rfl trivial two⟩
            · exact ⟨_, rfl, .reply rfl rfl rfl rfl rfl rfl rfl⟩
        | write =>
            rw [opcode] at ready
            exact transferred .write ready
        | read =>
            rw [opcode] at ready
            exact transferred .read ready
        | compare =>
            rw [opcode] at ready
            exact transferred .compare ready
        | datasetManagement =>
            rw [opcode] at ready
            dsimp only at ready ⊢
            unfold Namespace.datasetManagement
            dsimp only
            split
            · next taken =>
                obtain ⟨attached, deallocates⟩ := Bool.and_eq_true_iff.mp taken
                have one := single formatted admin opcode attached deallocates
                rw [if_pos taken] at ready
                rw [setUp_ok (ready _ rfl)]
                refine ⟨_, rfl,
                  .schedule rfl rfl rfl rfl rfl rfl ?_ rfl one room⟩
                rw [if_pos attached]
                rfl
            · refine ⟨_, rfl, .reply rfl ?_ rfl rfl rfl rfl rfl⟩
              split <;> rfl
        | other => exact ⟨_, rfl, .reply rfl rfl rfl rfl rfl rfl rfl⟩

theorem managementDone_stage {nsid : UInt32} {resp : Response}
    (placed : Placed cfg subsystem)
    (known : (arrival.buffer 26).toNat < lbaSizes.length) :
    ∃ after, managementDone cfg nsid resp arrival subsystem = .ok after ∧
      Stage cfg resp.func bound subsystem after := by
  have size : lbaSize (arrival.buffer 26) =
      .ok (lbaSizes.get ⟨(arrival.buffer 26).toNat, known⟩) := by
    unfold lbaSize
    rw [List.getElem?_eq_getElem known]
    rfl
  obtain ⟨ret, created, result, kept, same⟩ := @createNamespace_ok cfg subsystem
    placed nsid { informationOf arrival with
      lbaSize := lbaSizes.get ⟨(arrival.buffer 26).toNat, known⟩ } known rfl
  unfold managementDone
  dsimp only [informationOf] at result ⊢
  rw [if_neg (Nat.not_le.mpr known), size]
  dsimp only [bind, Except.bind]
  rw [result]
  dsimp only
  have ends : ∀ answer : Response, answer.func = resp.func →
      Stage cfg resp.func bound subsystem (created.reply answer) := by
    intro answer own
    refine ⟨.replied answer own same.pending ?_ same.contexts same.trims,
      fun _ => kept.of_ranges rfl, same.submitted⟩
    unfold Subsystem.reply
    rw [same.responses]
  cases ret with
  | true =>
      refine ⟨_, rfl, ends _ ?_⟩
      dsimp only
      split <;> rfl
  | false =>
      refine ⟨_, rfl, ends _ ?_⟩
      rw [Response.makeStatus_func]
      split <;> rfl

theorem attach_ranges {sel nsid : UInt32} {resp : Response} :
    ((attach subsystem sel nsid resp).2.map fun ns => ns.info.range) =
      subsystem.ranges := by
  have same : ∀ attached : Bool, ((subsystem.lNamespaces.map fun ns =>
      if ns.nsid = nsid then { ns with attached := attached } else ns).map
        fun ns => ns.info.range) = subsystem.ranges := by
    intro attached
    rw [List.map_map]
    refine List.map_congr_left ?_
    intro ns _
    dsimp only [Function.comp]
    split <;> rfl
  unfold attach
  split
  · exact same true
  · split
    · exact same false
    · rfl

theorem attach_func {sel nsid : UInt32} {resp : Response} :
    (attach subsystem sel nsid resp).1.func = resp.func := by
  unfold attach
  split
  · dsimp only
    split <;> (try rw [Response.makeStatus_func]) <;> split <;> rfl
  · split
    · dsimp only
      split <;> rfl
    · rfl

theorem attachmentDone_stage {sel nsid : UInt32} {resp : Response}
    (fits : controllerAt arrival 0 < 2048) :
    ∃ after, attachmentDone sel nsid resp arrival subsystem = .ok after ∧
      Stage cfg resp.func bound subsystem after := by
  unfold attachmentDone
  dsimp only
  rw [if_neg (Nat.not_le.mpr fits)]
  split
  · exact ⟨_, rfl, .reply rfl rfl rfl rfl rfl rfl rfl⟩
  · split
    · exact ⟨_, rfl, .reply rfl rfl rfl rfl rfl rfl rfl⟩
    · exact ⟨_, rfl, .reply rfl attach_func rfl rfl rfl rfl attach_ranges⟩

theorem run_cpuHandler {next : Callback}
    (callable : Callable cfg subsystem arrival (.cpuHandler next)) :
    subsystem.run cfg arrival (.cpuHandler next) =
      .ok (subsystem.schedule next) := by
  cases next with
  | doQueue queue resp =>
      unfold Callable at callable
      unfold run
      dsimp only
      rw [if_neg callable]
  | _ => rfl

theorem run_stage {callback : Callback} (placed : Placed cfg subsystem)
    (share : callback.share = .alone) (single : callback.Single)
    (callable : Callable cfg subsystem arrival callback) :
    ∃ after, subsystem.run cfg arrival callback = .ok after ∧
      Stage cfg callback.func callback.rank subsystem after := by
  have relay : ∀ next : Callback, next.share = .alone → next.Single →
      Stage cfg next.func (next.rank + 1) subsystem
        (subsystem.schedule next) := fun next alone one =>
    .schedule rfl rfl rfl rfl rfl rfl rfl alone one (Nat.lt_succ_self _)
  have two : 1 < 2 := by decide
  cases callback with
  | cpuHandler next =>
      exact ⟨_, run_cpuHandler callable, relay next share single⟩
  | request operation request next =>
      exact ⟨_, rfl, relay next share single⟩
  | doQueue queue resp => exact ⟨_, rfl, .reply rfl rfl rfl rfl rfl rfl rfl⟩
  | logDone resp => exact ⟨_, rfl, .reply rfl rfl rfl rfl rfl rfl rfl⟩
  | identifyDone resp => exact ⟨_, rfl, .reply rfl rfl rfl rfl rfl rfl rfl⟩
  | doFormat resp => exact ⟨_, rfl, .reply rfl rfl rfl rfl rfl rfl rfl⟩
  | smartInfo offset resp =>
      exact ⟨_, rfl, .schedule rfl rfl rfl rfl rfl rfl rfl rfl trivial two⟩
  | identifyWrite data resp =>
      exact ⟨_, rfl, .schedule rfl rfl rfl rfl rfl rfl rfl rfl trivial two⟩
  | managementRead nsid resp =>
      exact ⟨_, rfl, .schedule rfl rfl rfl rfl rfl rfl rfl rfl trivial two⟩
  | attachmentRead sel nsid resp =>
      exact ⟨_, rfl, .schedule rfl rfl rfl rfl rfl rfl rfl rfl trivial two⟩
  | managementDone nsid resp => exact managementDone_stage placed callable
  | attachmentDone sel nsid resp => exact attachmentDone_stage callable
  | doSubmit ns req func =>
      obtain ⟨this, here, serviceable⟩ := callable
      obtain ⟨after, result, stage⟩ := @namespaceCommand_stage cfg subsystem
        func 6 this req (Nat.lt_succ_self 5) serviceable
      refine ⟨after, ?_, stage⟩
      unfold run
      dsimp only
      rw [here]
      exact result
  | submitFront req func =>
      obtain ⟨this, rest, here, serviceable⟩ := callable
      obtain ⟨after, result, stage⟩ := @namespaceCommand_stage cfg subsystem
        func 6 this req (Nat.lt_succ_self 5) serviceable
      refine ⟨after, ?_, stage⟩
      unfold run
      dsimp only
      rw [here]
      exact result
  | flushBegin ns resp =>
      obtain ⟨this, here⟩ := callable
      refine ⟨subsystem.schedule (.doFlush ns resp), ?_,
        .schedule rfl rfl rfl rfl rfl rfl rfl rfl trivial two⟩
      unfold run
      dsimp only
      rw [here]
      rfl
  | doFlush ns resp =>
      obtain ⟨this, here⟩ := callable
      refine ⟨subsystem.reply resp, ?_, .reply rfl rfl rfl rfl rfl rfl rfl⟩
      unfold run
      dsimp only
      rw [here]
      rfl
  | doTrim ns ranges resp =>
      exact ⟨_, rfl, .schedule rfl rfl rfl rfl rfl rfl rfl rfl single
        (Nat.lt_succ_self 3)⟩
  | trimRead ns ranges resp =>
      obtain ⟨this, here⟩ := callable
      unfold Callback.Single at single
      subst single
      have begun : ∃ after,
          this.beginTrims cfg 1 resp arrival subsystem = .ok after ∧
            Stage cfg resp.func 3 subsystem after :=
        ⟨_, rfl, ⟨.trimming (.request .trim _ (.eachTrimDone this.address
          subsystem.trims.length resp.func)) _ ⟨rfl, rfl⟩ rfl rfl trivial
          (Nat.lt_succ_self 2) rfl rfl rfl rfl,
          fun placed => placed.of_ranges rfl, rfl⟩⟩
      obtain ⟨after, result, stage⟩ := begun
      refine ⟨after, ?_, stage⟩
      unfold run
      dsimp only
      rw [here]
      exact result
  | transfer kind ns context func => cases share
  | transferDone kind ns context func => cases share
  | eachTrimDone ns context func => cases share

structure Progress (cfg : ConfigData) (func : Nat)
    (before after : Subsystem) : Prop where
  moves : Moves func before after
  accounted : Accounted after func
  single : ∀ callback ∈ after.pending, callback.Single
  placed : Placed cfg after
  submitted : after.submitted = before.submitted
  load : after.load func < before.load func

section Shared

variable {index : Nat} {callback : Callback}

theorem called_single (every : ∀ callback ∈ subsystem.pending,
      callback.Single) :
    ∀ callback ∈ (subsystem.called index).pending, callback.Single :=
  fun callback member => every callback (List.mem_of_mem_eraseIdx member)

theorem load_one (due : subsystem.pendingOf func = [callback]) :
    subsystem.load func = callback.rank := by
  unfold load
  rw [due]
  simp

theorem load_two {first second : Callback}
    (due : subsystem.pendingOf func = [first, second]) :
    subsystem.load func = first.rank + second.rank := by
  unfold load
  rw [due]
  simp

theorem progress_alone (here : subsystem.pending[index]? = some callback)
    (placed : Placed cfg subsystem)
    (every : ∀ callback ∈ subsystem.pending, callback.Single)
    (callable : Callable cfg subsystem arrival callback)
    (due : subsystem.pendingOf callback.func = [callback])
    (share : callback.share = .alone)
    (unanswered : subsystem.repliesTo callback.func = []) :
    ∃ after, (subsystem.called index).run cfg arrival callback = .ok after ∧
      Progress cfg callback.func subsystem after := by
  have single := every callback (List.mem_of_getElem? here)
  obtain ⟨_, idle⟩ := pendingOf_last here rfl due
  have handled : Handled (subsystem.called index) callback.func :=
    ⟨idle, unanswered⟩
  obtain ⟨after, result, stage⟩ := @run_stage cfg (subsystem.called index)
    arrival callback (placed.of_ranges rfl) share single (by
      cases callback <;> exact callable)
  refine ⟨after, result, ?_⟩
  refine ⟨(called_moves here).trans stage.outcome.moves,
    stage.outcome.accounted handled,
    stage.outcome.single (called_single every),
    stage.placed (placed.of_ranges rfl), stage.submitted, ?_⟩
  rw [load_one due]
  exact stage.outcome.load_lt handled callback.rank_pos

inductive Relays : Callback → Callback → Prop where
  | cpuHandler (next : Callback) : Relays (.cpuHandler next) next
  | request (operation : HILOperation) (request : Request) (next : Callback) :
      Relays (.request operation request next) next

theorem Relays.run {next : Callback} (relays : Relays callback next)
    (callable : Callable cfg subsystem arrival callback) :
    (subsystem.called index).run cfg arrival callback =
      .ok ((subsystem.called index).schedule next) := by
  cases relays with
  | cpuHandler =>
      refine run_cpuHandler ?_
      cases next <;> exact callable
  | request operation request => rfl

theorem Relays.sameFunc {next : Callback} (relays : Relays callback next) :
    next.func = callback.func := by
  cases relays <;> rfl

theorem Relays.share {next : Callback} (relays : Relays callback next) :
    next.share = callback.share := by
  cases relays <;> rfl

theorem Relays.rank {next : Callback} (relays : Relays callback next) :
    next.rank + 1 = callback.rank := by
  cases relays <;> rfl

theorem Relays.single {next : Callback} (relays : Relays callback next)
    (single : callback.Single) : next.Single := by
  cases relays <;> exact single

theorem schedule_moves {next : Callback} (own : next.func = func) :
    Moves func subsystem (subsystem.schedule next) := by
  refine ⟨?_, fun _ _ => rfl, fun _ _ held _ => held, fun _ _ held _ => held⟩
  intro other different
  rw [@pendingOf_append subsystem (subsystem.schedule next) other next rfl,
    if_neg (by rw [own]; exact different.symm), List.append_nil]

theorem schedule_single {next : Callback} (single : next.Single)
    (every : ∀ callback ∈ subsystem.pending, callback.Single) :
    ∀ callback ∈ (subsystem.schedule next).pending, callback.Single := by
  intro callback member
  rcases List.mem_append.mp member with old | new
  · exact every callback old
  · rw [List.mem_singleton.mp new]
    exact single

/-- A function that passes on the next one, among those of its command. -/
theorem progress_relay {next : Callback} (relays : Relays callback next)
    (here : subsystem.pending[index]? = some callback)
    (placed : Placed cfg subsystem)
    (every : ∀ callback ∈ subsystem.pending, callback.Single)
    (callable : Callable cfg subsystem arrival callback) {others : List Callback}
    (rest : (subsystem.called index).pendingOf callback.func = others)
    (load : subsystem.load callback.func =
      callback.rank + (others.map Callback.rank).sum)
    (accounted : ∀ after : Subsystem,
      after.pendingOf callback.func = others ++ [next] →
      after.contexts = subsystem.contexts → after.trims = subsystem.trims →
      after.responses = subsystem.responses →
        Accounted after callback.func) :
    ∃ after, (subsystem.called index).run cfg arrival callback = .ok after ∧
      Progress cfg callback.func subsystem after := by
  have single := every callback (List.mem_of_getElem? here)
  have due : ((subsystem.called index).schedule next).pendingOf
      callback.func = others ++ [next] := by
    rw [@pendingOf_append (subsystem.called index)
      ((subsystem.called index).schedule next) callback.func next rfl, rest,
      if_pos relays.sameFunc]
  refine ⟨_, relays.run callable,
    (called_moves here).trans (schedule_moves relays.sameFunc),
    accounted _ due rfl rfl rfl,
    schedule_single (relays.single single) (called_single every),
    placed.of_ranges rfl, rfl, ?_⟩
  rw [load]
  unfold Subsystem.load
  rw [due, List.map_append, List.sum_append, ← relays.rank]
  simp only [List.map_cons, List.map_nil, List.sum_cons, List.sum_nil]
  omega

/-! The calls that work on a shared context. -/

theorem contextAt_ok {context : Nat} {found : IOContext}
    (held : subsystem.contexts[context]? = some (some found)) :
    subsystem.contextAt context = .ok found := by
  unfold contextAt
  rw [held]

theorem trimAt_ok {context : Nat} {found : DMAContext}
    (held : subsystem.trims[context]? = some (some found)) :
    subsystem.trimAt context = .ok found := by
  unfold trimAt
  rw [held]

/-- A place of the heap changes for its owner only. -/
theorem getElem?_set_other {owner : α → Nat} {items : List (Option α)}
    {place index : Nat} {found other : α} {updated : Option α}
    (held : items[place]? = some (some found)) (own : owner found = func)
    (kept : items[index]? = some (some other)) (different : owner other ≠ func) :
    (items.set place updated)[index]? = some (some other) := by
  have apart : place ≠ index := by
    intro same
    rw [same, kept] at held
    cases held
    exact different own
  rw [List.getElem?_set_ne apart]
  exact kept

theorem setContext_moves {context : Nat} {found : IOContext}
    {updated : Option IOContext}
    (held : subsystem.contexts[context]? = some (some found))
    (own : found.resp.func = func) :
    Moves func subsystem (subsystem.setContext context updated) :=
  ⟨fun _ _ => rfl, fun _ _ => rfl,
    fun _ _ kept different =>
      @getElem?_set_other func _ (fun found => found.resp.func) _ _ _ _ _ _
        held own kept different,
    fun _ _ kept _ => kept⟩

theorem setTrim_moves {context : Nat} {found : DMAContext}
    {updated : Option DMAContext}
    (held : subsystem.trims[context]? = some (some found))
    (own : found.resp.func = func) :
    Moves func subsystem (subsystem.setTrim context updated) :=
  ⟨fun _ _ => rfl, fun _ _ => rfl, fun _ _ kept _ => kept,
    fun _ _ kept different =>
      @getElem?_set_other func _ (fun found => found.resp.func) _ _ _ _ _ _
        held own kept different⟩

theorem reply_moves {resp : Response} (own : resp.func = func) :
    Moves func subsystem (subsystem.reply resp) := by
  refine ⟨fun _ _ => rfl, ?_, fun _ _ held _ => held, fun _ _ held _ => held⟩
  intro other different
  rw [@repliesTo_append subsystem (subsystem.reply resp) other resp rfl,
    if_neg (by rw [own]; exact different.symm), List.append_nil]

theorem reply_replies {resp : Response} (own : resp.func = func)
    (unanswered : subsystem.repliesTo func = []) :
    (subsystem.reply resp).repliesTo func = [resp] := by
  rw [@repliesTo_append subsystem (subsystem.reply resp) func resp rfl,
    unanswered, if_pos own]
  rfl

theorem getElem?_set_here {items : List (Option α)} {place : Nat} {found : α}
    {updated : Option α} (held : items[place]? = some (some found)) :
    (items.set place updated)[place]? = some updated := by
  obtain ⟨inside, _⟩ := List.getElem?_eq_some_iff.mp held
  exact List.getElem?_set_self inside

theorem progress_transfer {kind : Transfer} {ns context : Nat}
    {found : IOContext}
    (here : subsystem.pending[index]? =
      some (.transfer kind ns context func))
    (placed : Placed cfg subsystem)
    (every : ∀ callback ∈ subsystem.pending, callback.Single)
    (callable : Callable cfg subsystem arrival (.transfer kind ns context func))
    (due : subsystem.pendingOf func = [.transfer kind ns context func])
    (held : subsystem.contexts[context]? = some (some found))
    (own : found.resp.func = func)
    (unanswered : subsystem.repliesTo func = []) :
    ∃ after, (subsystem.called index).run cfg arrival
        (.transfer kind ns context func) = .ok after ∧
      Progress cfg func subsystem after := by
  obtain ⟨this, located⟩ := callable
  have idle : (subsystem.called index).pendingOf func = [] :=
    (pendingOf_last here rfl due).2
  -- the two parts, in the order in which they are issued
  have begun : ∃ first second updated,
      this.beginTransfer cfg kind context found (subsystem.called index) =
        (((subsystem.called index).setContext context (some updated)).schedule
          first).schedule second ∧
      (first.share = .part context ∧ second.share = .part context) ∧
      (first.func = func ∧ second.func = func) ∧
      (first.Single ∧ second.Single) ∧ first.rank + second.rank = 3 ∧
      updated.resp = found.resp ∧ updated.beginAt = 0 := by
    subst own
    cases kind with
    | write => exact ⟨_, _, _, rfl, ⟨rfl, rfl⟩, ⟨rfl, rfl⟩, ⟨trivial, trivial⟩,
        rfl, rfl, rfl⟩
    | read => exact ⟨_, _, _, rfl, ⟨rfl, rfl⟩, ⟨rfl, rfl⟩, ⟨trivial, trivial⟩,
        rfl, rfl, rfl⟩
    | compare => exact ⟨_, _, _, rfl, ⟨rfl, rfl⟩, ⟨rfl, rfl⟩,
        ⟨trivial, trivial⟩, rfl, rfl, rfl⟩
  obtain ⟨first, second, updated, result, shares, owns, singles, ranks, same,
    fresh⟩ := begun
  have dues : ((((subsystem.called index).setContext context
      (some updated)).schedule first).schedule second).pendingOf func =
        [first, second] := by
    rw [@pendingOf_append _ (Subsystem.schedule _ second) func second rfl,
      @pendingOf_append _ (Subsystem.schedule _ first) func first rfl,
      if_pos owns.1, if_pos owns.2]
    change (subsystem.called index).pendingOf func ++ [first] ++ [second] = _
    rw [idle]
    rfl
  refine ⟨_, ?_, ((called_moves here).trans (setContext_moves held own)).trans
    ((schedule_moves owns.1).trans (schedule_moves owns.2)),
    .both first second context updated dues shares
      (getElem?_set_here held) (by rw [same]; exact own) fresh unanswered,
    schedule_single singles.2 (schedule_single singles.1
      (called_single every)), placed.of_ranges rfl, rfl, ?_⟩
  · unfold run
    dsimp only
    rw [show (subsystem.called index).namespaceAt ns = .ok this from located,
      @contextAt_ok (subsystem.called index) context found held, ← result]
    rfl
  · rw [load_two dues, load_one due, ranks]
    exact Nat.lt_succ_self 3

theorem progress_first {kind : Transfer} {ns context : Nat}
    {other : Callback} {found : IOContext}
    (here : subsystem.pending[index]? =
      some (.transferDone kind ns context func))
    (placed : Placed cfg subsystem)
    (every : ∀ callback ∈ subsystem.pending, callback.Single)
    (rest : (subsystem.called index).pendingOf func = [other])
    (load : subsystem.load func = other.rank + 1)
    (share : other.share = .part context)
    (held : subsystem.contexts[context]? = some (some found))
    (own : found.resp.func = func) (fresh : found.beginAt = 0)
    (unanswered : subsystem.repliesTo func = []) :
    ∃ after, (subsystem.called index).run cfg arrival
        (.transferDone kind ns context func) = .ok after ∧
      Progress cfg func subsystem after := by
  refine ⟨(subsystem.called index).setContext context
      (some { found with beginAt := found.beginAt + 1 }), ?_,
    (called_moves here).trans (setContext_moves held own),
    .half other context { found with beginAt := found.beginAt + 1 } rest share
      (getElem?_set_here held) own (by dsimp only; rw [fresh]) unanswered,
    called_single every, placed.of_ranges rfl, rfl, ?_⟩
  · change Namespace.transferDone kind ns context arrival
      (subsystem.called index) = _
    unfold Namespace.transferDone
    rw [@contextAt_ok (subsystem.called index) context found held]
    dsimp only [bind, Except.bind]
    rw [fresh]
    rfl
  · rw [load]
    change (subsystem.called index).load func < _
    rw [load_one rest]
    exact Nat.lt_succ_self _

/-- The second part of a transfer sends the response. -/
theorem progress_second {kind : Transfer} {ns context : Nat}
    {found : IOContext}
    (here : subsystem.pending[index]? =
      some (.transferDone kind ns context func))
    (placed : Placed cfg subsystem)
    (every : ∀ callback ∈ subsystem.pending, callback.Single)
    (callable : Callable cfg subsystem arrival
      (.transferDone kind ns context func))
    (due : subsystem.pendingOf func = [.transferDone kind ns context func])
    (held : subsystem.contexts[context]? = some (some found))
    (own : found.resp.func = func) (begun : found.beginAt = 1)
    (unanswered : subsystem.repliesTo func = []) :
    ∃ after, (subsystem.called index).run cfg arrival
        (.transferDone kind ns context func) = .ok after ∧
      Progress cfg func subsystem after := by
  obtain ⟨this, located, disk⟩ := callable
  have idle : (subsystem.called index).pendingOf func = [] :=
    (pendingOf_last here rfl due).2
  have present : (decide (kind = .write) && found.buffer && !this.pDisk) =
      false := by
    by_cases writes : kind = .write
    · cases buffer : found.buffer with
      | false => simp
      | true => simp [disk writes found held buffer]
    · simp [writes]
  have ends : ∀ resp : Response, resp.func = func → Progress cfg func subsystem
      (((subsystem.called index).reply resp).setContext context none) := by
    intro resp same
    refine ⟨(called_moves here).trans ((reply_moves same).trans
        (setContext_moves held own)),
      .answered resp idle (reply_replies same unanswered),
      called_single every, placed.of_ranges rfl, rfl, ?_⟩
    rw [load_one due]
    change (subsystem.called index).load func < _
    unfold Subsystem.load
    rw [idle]
    exact Nat.one_pos
  refine ⟨_, ?_, ends (if kind = .compare && this.pDisk && arrival.differs then
    found.resp.makeStatus false false .mediaAndDataIntegrityError
      .compareFailure else found.resp) ?_⟩
  · change Namespace.transferDone kind ns context arrival
      (subsystem.called index) = _
    unfold Namespace.transferDone
    rw [@contextAt_ok (subsystem.called index) context found held]
    dsimp only [bind, Except.bind]
    rw [begun, if_pos rfl,
      show (subsystem.called index).namespaceAt ns = .ok this from located]
    dsimp only
    rw [present]
    rfl
  · split
    · exact own
    · exact own

theorem progress_trim {ns context : Nat} {found : DMAContext}
    (here : subsystem.pending[index]? = some (.eachTrimDone ns context func))
    (placed : Placed cfg subsystem)
    (every : ∀ callback ∈ subsystem.pending, callback.Single)
    (callable : Callable cfg subsystem arrival (.eachTrimDone ns context func))
    (due : subsystem.pendingOf func = [.eachTrimDone ns context func])
    (held : subsystem.trims[context]? = some (some found))
    (own : found.resp.func = func) (single : found.counter = 1)
    (unanswered : subsystem.repliesTo func = []) :
    ∃ after, (subsystem.called index).run cfg arrival
        (.eachTrimDone ns context func) = .ok after ∧
      Progress cfg func subsystem after := by
  obtain ⟨this, located⟩ := callable
  have idle : (subsystem.called index).pendingOf func = [] :=
    (pendingOf_last here rfl due).2
  refine ⟨((subsystem.called index).reply found.resp).setTrim context none, ?_,
    (called_moves here).trans ((reply_moves own).trans
      (setTrim_moves held own)),
    .answered found.resp idle (reply_replies own unanswered),
    called_single every, placed.of_ranges rfl, rfl, ?_⟩
  · change Namespace.eachTrimDone ns context (subsystem.called index) = _
    unfold Namespace.eachTrimDone
    rw [@trimAt_ok (subsystem.called index) context found held]
    dsimp only [bind, Except.bind]
    rw [single, if_pos rfl,
      show (subsystem.called index).namespaceAt ns = .ok this from located]
    rfl
  · rw [load_one due]
    change (subsystem.called index).load func < _
    unfold Subsystem.load
    rw [idle]
    exact Nat.one_pos

/-- Every call brings the command of its function forward. -/
theorem call_progress (here : subsystem.pending[index]? = some callback)
    (placed : Placed cfg subsystem)
    (every : ∀ callback ∈ subsystem.pending, callback.Single)
    (callable : Callable cfg subsystem arrival callback)
    (accounted : Accounted subsystem callback.func) :
    ∃ after, (subsystem.called index).run cfg arrival callback = .ok after ∧
      Progress cfg callback.func subsystem after := by
  cases accounted with
  | waits due only share unanswered =>
      obtain ⟨rfl, _⟩ := pendingOf_last here rfl only
      exact progress_alone here placed every callable only share unanswered
  | reads due context found only share held own unanswered =>
      obtain ⟨rfl, idle⟩ := pendingOf_last here rfl only
      have relayed : ∀ next, Relays due next →
          ∃ after, (subsystem.called index).run cfg arrival due = .ok after ∧
            Progress cfg due.func subsystem after := by
        intro next relays
        refine progress_relay relays here placed every callable idle
          (load_one only) ?_
        intro after last contexts trims responses
        exact .reads next context found last (relays.share.trans share)
          (by rw [contexts]; exact held) own
          ((repliesTo_same responses).trans unanswered)
      cases due with
      | cpuHandler next => exact relayed next (.cpuHandler next)
      | request operation request next =>
          exact relayed next (.request operation request next)
      | transfer kind ns place func =>
          cases share
          exact progress_transfer here placed every callable only held own
            unanswered
      | _ => cases share
  | both first second context found two shares held own fresh unanswered =>
      have between : ∃ other : Callback,
          callback.share = .part context ∧ other.share = .part context ∧
          (subsystem.called index).pendingOf callback.func = [other] ∧
          subsystem.load callback.func = callback.rank + other.rank := by
        rcases pendingOf_other here rfl two with ⟨rfl, rest⟩ | ⟨rfl, rest⟩
        · exact ⟨second, shares.1, shares.2, rest, load_two two⟩
        · exact ⟨first, shares.2, shares.1, rest,
            (load_two two).trans (Nat.add_comm _ _)⟩
      obtain ⟨other, share, others, rest, load⟩ := between
      have relayed : ∀ next, Relays callback next →
          ∃ after, (subsystem.called index).run cfg arrival callback =
              .ok after ∧
            Progress cfg callback.func subsystem after := by
        intro next relays
        refine progress_relay relays here placed every callable rest
          (by simpa using load) ?_
        intro after last contexts trims responses
        exact .both other next context found last
          ⟨others, relays.share.trans share⟩ (by rw [contexts]; exact held)
          own fresh ((repliesTo_same responses).trans unanswered)
      cases callback with
      | cpuHandler next => exact relayed next (.cpuHandler next)
      | request operation request next =>
          exact relayed next (.request operation request next)
      | transferDone kind ns place func =>
          cases share
          exact progress_first here placed every rest
            (load.trans (Nat.add_comm _ _)) others held own fresh unanswered
      | _ => cases share
  | half due context found only share held own begun unanswered =>
      obtain ⟨rfl, idle⟩ := pendingOf_last here rfl only
      have relayed : ∀ next, Relays due next →
          ∃ after, (subsystem.called index).run cfg arrival due = .ok after ∧
            Progress cfg due.func subsystem after := by
        intro next relays
        refine progress_relay relays here placed every callable idle
          (load_one only) ?_
        intro after last contexts trims responses
        exact .half next context found last (relays.share.trans share)
          (by rw [contexts]; exact held) own begun
          ((repliesTo_same responses).trans unanswered)
      cases due with
      | cpuHandler next => exact relayed next (.cpuHandler next)
      | request operation request next =>
          exact relayed next (.request operation request next)
      | transferDone kind ns place func =>
          cases share
          exact progress_second here placed every callable only held own begun
            unanswered
      | _ => cases share
  | trims due context found only share held own single unanswered =>
      obtain ⟨rfl, idle⟩ := pendingOf_last here rfl only
      have relayed : ∀ next, Relays due next →
          ∃ after, (subsystem.called index).run cfg arrival due = .ok after ∧
            Progress cfg due.func subsystem after := by
        intro next relays
        refine progress_relay relays here placed every callable idle
          (load_one only) ?_
        intro after last contexts trims responses
        exact .trims next context found last (relays.share.trans share)
          (by rw [trims]; exact held) own single
          ((repliesTo_same responses).trans unanswered)
      cases due with
      | cpuHandler next => exact relayed next (.cpuHandler next)
      | request operation request next =>
          exact relayed next (.request operation request next)
      | eachTrimDone ns place func =>
          cases share
          exact progress_trim here placed every callable only held own single
            unanswered
      | _ => cases share
  | answered resp idle replied =>
      obtain ⟨left, right, whole, _⟩ :=
        @pendingOf_called subsystem callback.func index callback here
      rw [idle, if_pos rfl] at whole
      exact absurd (congrArg List.length whole) (by simp)

end Shared

end Calls

end Subsystem

end SimpleSSD.HIL.NVMe
