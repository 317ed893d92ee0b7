import SimpleSSD.HIL.NVMe.Completion
import SimpleSSD.HIL.NVMe.Effects

namespace SimpleSSD.HIL.NVMe

open Data (Along Returns)

/-! The counter that the ranges of a trim share. -/

/-- The set-up for the ranges of a trim does not stay silent, and calls back
for one range only. -/
def Command.SetsUpOneRange (cfg : ConfigData) (req : Command) : Prop :=
  ∀ calls, req.setsUp cfg (Namespace.rangesOf req * 0x10) = .ok calls →
    calls = true ∧ Namespace.rangesOf req = 1

/-- The callbacks that lead from a trim of one range to the end of the range. -/
def Callback.Deallocates (cfg : ConfigData) (req : Command) : Callback → Prop
  | .cpuHandler next | .request _ _ next => next.Deallocates cfg req
  | .doSubmit _ other _ | .submitFront other _ =>
      other = req ∧ req.SetsUpOneRange cfg
  | .doTrim _ ranges _ | .trimRead _ ranges _ => ranges = 1
  | .eachTrimDone _ _ _ => True
  | _ => False

namespace Subsystem

def Released (subsystem : Subsystem) (func : Nat) : Prop :=
  ∀ (context : Nat) (found : DMAContext),
    subsystem.trims[context]? = some (some found) → trimOwner found ≠ func

/-- A trim command is either before its trims; or it has one counter, which
all ranges that are left share and which counts them; or no range is left, the
counter is released and the command has one response. -/
inductive Trimming (subsystem : Subsystem) (func : Nat) : Prop where
  | begins (callback : Callback)
      (due : subsystem.pendingOf func = [callback])
      (share : callback.share = .alone)
      (released : subsystem.Released func)
      (unanswered : subsystem.repliesTo func = [])
  | counts (context : Nat) (found : DMAContext)
      (held : subsystem.trims[context]? = some (some found))
      (own : trimOwner found = func)
      (only : ∀ (other : Nat) (next : DMAContext),
        subsystem.trims[other]? = some (some next) → trimOwner next = func →
          other = context)
      (due : ∀ callback ∈ subsystem.pendingOf func,
        callback.share = .trim context)
      (counter : found.counter = (subsystem.pendingOf func).length)
      (left : 0 < found.counter)
      (unanswered : subsystem.repliesTo func = [])
  | ends (resp : Response)
      (idle : subsystem.pendingOf func = [])
      (released : subsystem.Released func)
      (replied : subsystem.repliesTo func = [resp])

section

variable {cfg : ConfigData} {subsystem before after : Subsystem}
  {func index context : Nat} {callback : Callback} {req : Command}
  {arrival : Arrival}

theorem Released.apart (released : before.Released func)
    (apart : Apart func before after) : after.Released func :=
  fun context found held own =>
    released context found ((apart.trims context found own).mp held) own

theorem Trimming.apart (trimming : Trimming before func)
    (apart : Apart func before after) : Trimming after func := by
  have pending := apart.pending
  have responses := apart.responses
  cases trimming with
  | begins callback due share released unanswered =>
      exact .begins callback (pending.trans due) share (released.apart apart)
        (responses.trans unanswered)
  | counts context found held own only due counter left unanswered =>
      refine .counts context found ((apart.trims context found own).mpr held)
        own ?_ ?_ ?_ left (responses.trans unanswered)
      · intro other next stands mine
        exact only other next ((apart.trims other next mine).mp stands) mine
      · rw [pending]
        exact due
      · rw [pending]
        exact counter
  | ends resp idle released replied =>
      exact .ends resp (pending.trans idle) (released.apart apart)
        (responses.trans replied)

/-- At most one callback is due for the command, and it leads to its trim. -/
structure OneRange (cfg : ConfigData) (req : Command) (func : Nat)
    (subsystem : Subsystem) : Prop where
  trimming : Trimming subsystem func
  due : ∀ callback ∈ subsystem.pendingOf func, callback.Deallocates cfg req
  most : (subsystem.pendingOf func).length ≤ 1

theorem OneRange.apart (one : OneRange cfg req func before)
    (apart : Apart func before after) : OneRange cfg req func after := by
  refine ⟨one.trimming.apart apart, ?_, ?_⟩
  · rw [apart.pending]
    exact one.due
  · rw [apart.pending]
    exact one.most

theorem schedule_last (idle : subsystem.pendingOf func = [])
    (own : callback.func = func) :
    (subsystem.schedule callback).pendingOf func = [callback] := by
  rw [@pendingOf_append subsystem _ func callback rfl, idle, if_pos own]
  rfl

structure Between (func : Nat) (subsystem : Subsystem) : Prop where
  idle : subsystem.pendingOf func = []
  released : subsystem.Released func
  unanswered : subsystem.repliesTo func = []

theorem Between.schedule (between : Between func subsystem)
    (own : callback.func = func) (share : callback.share = .alone)
    (deallocates : callback.Deallocates cfg req) :
    OneRange cfg req func (subsystem.schedule callback) := by
  have last := schedule_last between.idle own
  refine ⟨.begins callback last share between.released between.unanswered,
    ?_, ?_⟩
  · intro due member
    rw [last] at member
    rw [List.mem_singleton.mp member]
    exact deallocates
  · rw [last]
    exact Nat.le_refl 1

theorem Between.reply (between : Between func subsystem) {resp : Response}
    (own : resp.func = func) : OneRange cfg req func (subsystem.reply resp) := by
  have idle : (subsystem.reply resp).pendingOf func = [] := between.idle
  refine ⟨.ends resp idle between.released
    (reply_replies own between.unanswered), ?_, ?_⟩
  · intro due member
    rw [idle] at member
    cases member
  · rw [idle]
    exact Nat.zero_le 1

theorem namespaceCommand_trims (ns : Namespace) (io : req.sqID ≠ 0)
    (opcode : Namespace.NVMOpcode.decode req.opcode = .datasetManagement) :
    (∃ resp : Response, resp.func = func ∧
        ns.submitCommand cfg req func subsystem =
          .ok (subsystem.reply resp)) ∨
      ∃ resp : Response, resp.func = func ∧
        ns.submitCommand cfg req func subsystem =
          subsystem.setUp cfg req (Namespace.rangesOf req * 0x10)
            (.cpuHandler (.doTrim ns.address (Namespace.rangesOf req) resp)) := by
  unfold Namespace.submitCommand
  dsimp only
  by_cases formats : subsystem.tick < ns.formatFinishedAt
  · rw [if_pos formats]
    exact .inl ⟨_, rfl, rfl⟩
  rw [if_neg formats, if_neg io, opcode]
  unfold Namespace.datasetManagement
  dsimp only
  split
  · refine .inr ⟨_, ?_, rfl⟩
    split <;> rfl
  · refine .inl ⟨_, ?_, rfl⟩
    split <;> rfl

theorem Between.submitCommand (between : Between func subsystem)
    (ns : Namespace) (io : req.sqID ≠ 0)
    (opcode : Namespace.NVMOpcode.decode req.opcode = .datasetManagement)
    (sets : req.SetsUpOneRange cfg) :
    Returns (OneRange cfg req func) (fun _ => True)
      (ns.submitCommand cfg req func subsystem) := by
  rcases @namespaceCommand_trims cfg subsystem func req ns io opcode with
    ⟨resp, own, result⟩ | ⟨resp, own, result⟩
  · rw [result]
    exact between.reply own
  rw [result]
  cases ready : req.setsUp cfg (Namespace.rangesOf req * 0x10) with
  | error raised =>
      unfold setUp
      rw [ready]
      trivial
  | ok calls =>
      obtain ⟨rfl, one⟩ := sets calls ready
      rw [setUp_ok ready, one]
      exact between.schedule own rfl rfl

theorem Between.beginTrims (between : Between func subsystem) (ns : Namespace)
    {resp : Response} (own : resp.func = func)
    (result : ns.beginTrims cfg 1 resp arrival subsystem = .ok after) :
    OneRange cfg req func after := by
  cases result
  let created : DMAContext := { counter := 1, resp := resp }
  let done : Callback := .eachTrimDone ns.address subsystem.trims.length resp.func
  let request : Callback := .request .trim (convertUnit cfg ns
    (Namespace.rangeWord arrival 0 8 8) (Namespace.rangeWord arrival 0 4 4)) done
  have last : (Subsystem.schedule { subsystem with
      trims := subsystem.trims ++ [some created] } request).pendingOf func =
      [request] := schedule_last between.idle own
  refine ⟨.counts subsystem.trims.length created
    List.getElem?_concat_length own ?_ ?_ ?_ Nat.one_pos
    between.unanswered, ?_, ?_⟩
  · intro other next stands mine
    rcases Nat.lt_or_ge other subsystem.trims.length with inside | past
    · have old : subsystem.trims[other]? = some (some next) := by
        rw [← stands]
        exact (List.getElem?_append_left inside).symm
      exact absurd mine (between.released other next old)
    · have bound := (List.getElem?_eq_some_iff.mp stands).1
      have length : (subsystem.trims ++ [some created]).length =
          subsystem.trims.length + 1 := List.length_append
      change other < (subsystem.trims ++ [some created]).length at bound
      omega
  · intro due member
    rw [List.mem_singleton.mp (last ▸ member : due ∈ [request])]
    rfl
  · exact (congrArg List.length last).symm
  · intro due member
    rw [List.mem_singleton.mp (last ▸ member : due ∈ [request])]
    trivial
  · exact Nat.le_of_eq (congrArg List.length last)

theorem OneRange.only (one : OneRange cfg req func subsystem)
    (here : subsystem.pending[index]? = some callback)
    (own : callback.func = func) :
    subsystem.pendingOf func = [callback] ∧
      (subsystem.called index).pendingOf func = [] := by
  obtain ⟨left, right, whole, rest⟩ :=
    @pendingOf_called subsystem func index callback here
  rw [if_pos own] at whole
  have most := one.most
  rw [whole] at most
  simp only [List.length_append, List.length_singleton] at most
  obtain rfl : left = [] := List.eq_nil_of_length_eq_zero (by omega)
  obtain rfl : right = [] := List.eq_nil_of_length_eq_zero (by omega)
  exact ⟨whole, rest⟩

/-- A call passes on to the next callback, with the counter as it is. -/
theorem OneRange.relay (one : OneRange cfg req func subsystem)
    (here : subsystem.pending[index]? = some callback)
    (own : callback.func = func) {next : Callback} (same : next.func = func)
    (share : next.share = callback.share) (deallocates : next.Deallocates cfg req) :
    OneRange cfg req func ((subsystem.called index).schedule next) := by
  obtain ⟨only, idle⟩ := one.only here own
  have last := schedule_last idle same
  refine ⟨?_, ?_, ?_⟩
  · cases one.trimming with
    | begins other due alone released unanswered =>
        cases due.symm.trans only
        exact .begins next last (share.trans alone) released unanswered
    | counts context found held mine single due counter left unanswered =>
        refine .counts context found held mine single ?_ ?_ left unanswered
        · intro other member
          rw [last] at member
          rw [List.mem_singleton.mp member, share]
          exact due callback (only ▸ List.mem_singleton_self callback)
        · rw [counter, only, last]
          rfl
    | ends resp none =>
        rw [only] at none
        cases none
  · intro other member
    rw [last] at member
    rw [List.mem_singleton.mp member]
    exact deallocates
  · rw [last]
    exact Nat.le_refl 1

theorem OneRange.eachTrimDone (one : OneRange cfg req func subsystem) {ns : Nat}
    (here : subsystem.pending[index]? = some (.eachTrimDone ns context func))
    (result : Namespace.eachTrimDone ns context (subsystem.called index) =
      .ok after) : OneRange cfg req func after := by
  obtain ⟨only, idle⟩ := one.only here rfl
  cases one.trimming with
  | begins other due alone =>
      cases due.symm.trans only
      cases alone
  | ends resp none =>
      rw [only] at none
      cases none
  | counts place found held mine single due counter left unanswered =>
      have share := due (.eachTrimDone ns context func)
        (only ▸ List.mem_singleton_self _)
      cases share
      have last : found.counter = 1 := by
        rw [counter, only]
        rfl
      unfold Namespace.eachTrimDone at result
      rw [@trimAt_ok (subsystem.called index) context found held] at result
      obtain ⟨this, _, returned⟩ := Data.bind_ok
        (show (subsystem.called index).namespaceAt ns >>= _ = .ok after by
          rw [← result]
          change _ = if found.counter - 1 = 0 then _ else _
          rw [if_pos (by rw [last])])
      cases returned
      have gone : ∀ (other : Nat) (next : DMAContext),
          (subsystem.trims.set context none)[other]? = some (some next) →
            trimOwner next ≠ func := by
        intro other next stands own
        have old := (held_set stands).resolve_right nofun
        cases single other next old own
        rw [getElem?_set_here held] at stands
        cases stands
      refine ⟨.ends found.resp idle gone (reply_replies mine unanswered), ?_, ?_⟩
      · intro other member
        have none : other ∈ (subsystem.called index).pendingOf func := member
        rw [idle] at none
        cases none
      · exact (congrArg List.length idle).le.trans (Nat.zero_le 1)

/-- A call for the command keeps to the order of a trim. -/
theorem OneRange.call (one : OneRange cfg req func subsystem)
    (io : req.sqID ≠ 0)
    (opcode : Namespace.NVMOpcode.decode req.opcode = .datasetManagement)
    (here : subsystem.pending[index]? = some callback)
    (own : callback.func = func)
    (result : (subsystem.called index).run cfg arrival callback = .ok after) :
    OneRange cfg req func after := by
  obtain ⟨only, idle⟩ := one.only here own
  have deallocates := one.due callback (only ▸ List.mem_singleton_self callback)
  have between : callback.share = .alone →
      Between func (subsystem.called index) := by
    intro alone
    cases one.trimming with
    | begins other due share released unanswered =>
        exact ⟨idle, released, unanswered⟩
    | counts context found held mine single due =>
        rw [due callback (only ▸ List.mem_singleton_self callback)] at alone
        cases alone
    | ends resp none =>
        rw [only] at none
        cases none
  cases callback with
  | cpuHandler next =>
      have relayed : OneRange cfg req func
          ((subsystem.called index).schedule next) :=
        one.relay here own own rfl deallocates
      cases next with
      | doQueue queue resp => cases deallocates
      | _ =>
          cases result
          exact relayed
  | request operation request next =>
      cases result
      exact one.relay here own own rfl deallocates
  | doSubmit ns other func =>
      obtain ⟨rfl, sets⟩ := deallocates
      cases own
      obtain ⟨this, _, returned⟩ := Data.bind_ok result
      exact ((between rfl).submitCommand this io opcode sets).of_ok returned
  | submitFront other func =>
      obtain ⟨rfl, sets⟩ := deallocates
      cases own
      unfold run at result
      dsimp only at result
      split at result
      · cases result
      · exact ((between rfl).submitCommand _ io opcode sets).of_ok result
  | doTrim ns ranges resp =>
      cases result
      exact (between rfl).schedule own rfl deallocates
  | trimRead ns ranges resp =>
      obtain ⟨this, _, returned⟩ := Data.bind_ok result
      rw [show ranges = 1 from deallocates] at returned
      exact (between rfl).beginTrims this own returned
  | eachTrimDone ns context other =>
      cases own
      exact one.eachTrimDone here result
  | _ => cases deallocates

/-! Runs. -/

structure Sorted (subsystem : Subsystem) : Prop where
  owned : subsystem.Owned
  numbered : Numbered subsystem.submitted subsystem

theorem Effects.sorted (effects : Effects func before after)
    (below : func < before.submitted) (sorted : before.Sorted) :
    after.Sorted := by
  refine ⟨effects.owned sorted.owned, ?_⟩
  rw [effects.submitted]
  exact effects.numbered below sorted.numbered

theorem Sorted.between (sorted : subsystem.Sorted) :
    Between subsystem.submitted
      { subsystem with submitted := subsystem.submitted + 1 } := by
  refine ⟨?_, ?_, ?_⟩
  · refine List.filter_eq_nil_iff.mpr fun callback member => ?_
    simpa using (sorted.numbered.pending callback member).ne
  · exact fun context found held =>
      (sorted.numbered.trims context found held).ne
  · refine List.filter_eq_nil_iff.mpr fun resp member => ?_
    simpa using (sorted.numbered.responses resp member).ne

def Named (subsystem : Subsystem) (req : Command) : Prop :=
  if req.namespaceID < nsidAll then
    ∃ ns ∈ subsystem.lNamespaces, ns.nsid = req.namespaceID
  else subsystem.lNamespaces ≠ []

/-- The state when all the ranges of a trim have been handed to the HIL. -/
def trimming (subsystem : Subsystem) (created : DMAContext)
    (requests : List Callback) : Subsystem :=
  { subsystem with
    trims := subsystem.trims ++ [some created]
    pending := subsystem.pending ++ requests }

/-- The namespace takes the command of `before` up, in a state in which the
calls of that command alone are missing. -/
structure Taking (before base : Subsystem) (this : Namespace) : Prop where
  pending : base.pending = before.pending
  trims : base.trims = before.trims
  replies : base.repliesTo before.submitted = before.repliesTo before.submitted
  addressed : base.namespaceAt this.address = .ok this
  attached : this.attached = true
  formatted : this.formatFinishedAt ≤ base.tick

def counted (before : Subsystem) : Subsystem :=
  { before with submitted := before.submitted + 1 }

theorem Taking.submitCommand {base : Subsystem} {this : Namespace}
    (taking : Taking before base this) (io : req.sqID ≠ 0)
    (opcode : Namespace.NVMOpcode.decode req.opcode = .datasetManagement)
    (deallocates : Namespace.deallocates req = true) :
    this.submitCommand cfg req func base =
      base.setUp cfg req (Namespace.rangesOf req * 0x10)
        (.cpuHandler (.doTrim this.address (Namespace.rangesOf req)
          (Response.make req func))) := by
  unfold Namespace.submitCommand Namespace.datasetManagement
  dsimp only
  rw [if_neg (Nat.not_lt.mpr taking.formatted), if_neg io, opcode]
  dsimp only
  rw [taking.attached, deallocates]
  rfl

end

end Subsystem

end SimpleSSD.HIL.NVMe
