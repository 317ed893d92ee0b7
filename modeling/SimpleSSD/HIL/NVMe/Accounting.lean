import SimpleSSD.HIL.NVMe.Integrity
import SimpleSSD.HIL.NVMe.Placement

namespace SimpleSSD.HIL.NVMe

/-! A command is answered once: until then either one function that is due
works for it, or the two parts of a transfer do. -/

/-- What a callback shares with others: the context of a transfer or a trim. -/
inductive Share where
  | alone
  | reads (context : Nat)
  | part (context : Nat)
  | trim (context : Nat)
  deriving DecidableEq, Repr

def Callback.share : Callback → Share
  | .cpuHandler next | .request _ _ next => next.share
  | .transfer _ _ context _ => .reads context
  | .transferDone _ _ context _ => .part context
  | .eachTrimDone _ context _ => .trim context
  | _ => .alone

def Callback.Single : Callback → Prop
  | .cpuHandler next | .request _ _ next => next.Single
  | .doTrim _ ranges _ | .trimRead _ ranges _ => ranges = 1
  | _ => True

/-- How many calls a callback leads to at most, with its own. -/
def Callback.rank : Callback → Nat
  | .cpuHandler next | .request _ _ next => next.rank + 1
  | .smartInfo _ _ | .identifyWrite _ _ | .managementRead _ _
  | .attachmentRead _ _ _ | .flushBegin _ _ => 2
  | .trimRead _ _ _ => 3
  | .doTrim _ _ _ | .transfer _ _ _ _ => 4
  | .doSubmit _ _ _ | .submitFront _ _ => 6
  | _ => 1

theorem Callback.rank_pos (callback : Callback) : 0 < callback.rank := by
  cases callback <;> simp [Callback.rank]

namespace Subsystem

def pendingOf (subsystem : Subsystem) (func : Nat) : List Callback :=
  subsystem.pending.filter fun callback => callback.func = func

def repliesTo (subsystem : Subsystem) (func : Nat) : List Response :=
  subsystem.responses.filter fun resp => resp.func = func

def load (subsystem : Subsystem) (func : Nat) : Nat :=
  ((subsystem.pendingOf func).map Callback.rank).sum

inductive Accounted (subsystem : Subsystem) (func : Nat) : Prop where
  | waits (callback : Callback)
      (due : subsystem.pendingOf func = [callback])
      (share : callback.share = .alone)
      (unanswered : subsystem.repliesTo func = [])
  | reads (callback : Callback) (context : Nat) (found : IOContext)
      (due : subsystem.pendingOf func = [callback])
      (share : callback.share = .reads context)
      (held : subsystem.contexts[context]? = some (some found))
      (own : found.resp.func = func)
      (unanswered : subsystem.repliesTo func = [])
  | both (first second : Callback) (context : Nat) (found : IOContext)
      (due : subsystem.pendingOf func = [first, second])
      (shares : first.share = .part context ∧ second.share = .part context)
      (held : subsystem.contexts[context]? = some (some found))
      (own : found.resp.func = func) (fresh : found.beginAt = 0)
      (unanswered : subsystem.repliesTo func = [])
  | half (callback : Callback) (context : Nat) (found : IOContext)
      (due : subsystem.pendingOf func = [callback])
      (share : callback.share = .part context)
      (held : subsystem.contexts[context]? = some (some found))
      (own : found.resp.func = func) (begun : found.beginAt = 1)
      (unanswered : subsystem.repliesTo func = [])
  | trims (callback : Callback) (context : Nat) (found : DMAContext)
      (due : subsystem.pendingOf func = [callback])
      (share : callback.share = .trim context)
      (held : subsystem.trims[context]? = some (some found))
      (own : found.resp.func = func) (single : found.counter = 1)
      (unanswered : subsystem.repliesTo func = [])
  | answered (resp : Response)
      (idle : subsystem.pendingOf func = [])
      (replied : subsystem.repliesTo func = [resp])

structure Moves (func : Nat) (before after : Subsystem) : Prop where
  pending : ∀ other, other ≠ func →
    after.pendingOf other = before.pendingOf other
  responses : ∀ other, other ≠ func →
    after.repliesTo other = before.repliesTo other
  contexts : ∀ (context : Nat) (found : IOContext),
    before.contexts[context]? = some (some found) → found.resp.func ≠ func →
      after.contexts[context]? = some (some found)
  trims : ∀ (context : Nat) (found : DMAContext),
    before.trims[context]? = some (some found) → found.resp.func ≠ func →
      after.trims[context]? = some (some found)

theorem Accounted.moves {before after : Subsystem} {func other : Nat}
    (accounted : Accounted before other) (moves : Moves func before after)
    (different : other ≠ func) : Accounted after other := by
  have pending := moves.pending other different
  have responses := moves.responses other different
  cases accounted with
  | waits callback due share unanswered =>
      exact .waits callback (pending.trans due) share
        (responses.trans unanswered)
  | reads callback context found due share held own unanswered =>
      exact .reads callback context found (pending.trans due) share
        (moves.contexts context found held (by rw [own]; exact different)) own
        (responses.trans unanswered)
  | both first second context found due shares held own fresh unanswered =>
      exact .both first second context found (pending.trans due) shares
        (moves.contexts context found held (by rw [own]; exact different)) own
        fresh (responses.trans unanswered)
  | half callback context found due share held own begun unanswered =>
      exact .half callback context found (pending.trans due) share
        (moves.contexts context found held (by rw [own]; exact different)) own
        begun (responses.trans unanswered)
  | trims callback context found due share held own single unanswered =>
      exact .trims callback context found (pending.trans due) share
        (moves.trims context found held (by rw [own]; exact different)) own
        single (responses.trans unanswered)
  | answered resp idle replied =>
      exact .answered resp (pending.trans idle) (responses.trans replied)

/-! One function that works alone for a command ends with a response or with
one function that is due next. -/

inductive Outcome (func bound : Nat) (before after : Subsystem) : Prop where
  | replied (resp : Response) (own : resp.func = func)
      (pending : after.pending = before.pending)
      (responses : after.responses = before.responses ++ [resp])
      (contexts : after.contexts = before.contexts)
      (trims : after.trims = before.trims)
  | scheduled (callback : Callback) (own : callback.func = func)
      (share : callback.share = .alone) (single : callback.Single)
      (below : callback.rank < bound)
      (pending : after.pending = before.pending ++ [callback])
      (responses : after.responses = before.responses)
      (contexts : after.contexts = before.contexts)
      (trims : after.trims = before.trims)
  | prepared (callback : Callback) (found : IOContext)
      (own : callback.func = func ∧ found.resp.func = func)
      (share : callback.share = .reads before.contexts.length)
      (single : callback.Single) (below : callback.rank < bound)
      (pending : after.pending = before.pending ++ [callback])
      (responses : after.responses = before.responses)
      (contexts : after.contexts = before.contexts ++ [some found])
      (trims : after.trims = before.trims)
  | trimming (callback : Callback) (found : DMAContext)
      (own : callback.func = func ∧ found.resp.func = func)
      (share : callback.share = .trim before.trims.length)
      (counter : found.counter = 1)
      (single : callback.Single) (below : callback.rank < bound)
      (pending : after.pending = before.pending ++ [callback])
      (responses : after.responses = before.responses)
      (contexts : after.contexts = before.contexts)
      (trims : after.trims = before.trims ++ [some found])

/-- One stage of a command, with what it keeps of the subsystem. -/
structure Stage (cfg : ConfigData) (func bound : Nat)
    (before after : Subsystem) : Prop where
  outcome : Outcome func bound before after
  placed : Placed cfg before → Placed cfg after
  submitted : after.submitted = before.submitted

section Lists

variable {subsystem before after : Subsystem} {func other index : Nat}
  {callback : Callback} {resp : Response}

theorem pendingOf_append (pending : after.pending =
      before.pending ++ [callback]) :
    after.pendingOf other = before.pendingOf other ++
      (if callback.func = other then [callback] else []) := by
  unfold pendingOf
  rw [pending, List.filter_append]
  by_cases own : callback.func = other <;> simp [own]

theorem repliesTo_append (responses : after.responses =
      before.responses ++ [resp]) :
    after.repliesTo other = before.repliesTo other ++
      (if resp.func = other then [resp] else []) := by
  unfold repliesTo
  rw [responses, List.filter_append]
  by_cases own : resp.func = other <;> simp [own]

theorem pendingOf_same (pending : after.pending = before.pending) :
    after.pendingOf other = before.pendingOf other := by
  unfold pendingOf
  rw [pending]

theorem repliesTo_same (responses : after.responses = before.responses) :
    after.repliesTo other = before.repliesTo other := by
  unfold repliesTo
  rw [responses]

def called (subsystem : Subsystem) (index : Nat) : Subsystem :=
  { subsystem with pending := subsystem.pending.eraseIdx index }

theorem pendingOf_called (here : subsystem.pending[index]? = some callback) :
    ∃ left right, subsystem.pendingOf other =
        left ++ (if callback.func = other then [callback] else []) ++ right ∧
      (subsystem.called index).pendingOf other = left ++ right := by
  obtain ⟨inside, value⟩ := List.getElem?_eq_some_iff.mp here
  refine ⟨(subsystem.pending.take index).filter fun callback =>
      callback.func = other,
    (subsystem.pending.drop (index + 1)).filter fun callback =>
      callback.func = other, ?_, ?_⟩
  · have whole : subsystem.pending = subsystem.pending.take index ++
        callback :: subsystem.pending.drop (index + 1) := by
      rw [← value, List.getElem_cons_drop, List.take_append_drop]
    unfold pendingOf
    conv_lhs => rw [whole, List.filter_append, List.filter_cons]
    by_cases own : callback.func = other <;> simp [own]
  · unfold pendingOf called
    rw [List.eraseIdx_eq_take_drop_succ, List.filter_append]

/-- The call of a command's only function leaves none. -/
theorem pendingOf_last (here : subsystem.pending[index]? = some callback)
    (own : callback.func = func) {due : Callback}
    (only : subsystem.pendingOf func = [due]) :
    due = callback ∧ (subsystem.called index).pendingOf func = [] := by
  obtain ⟨left, right, whole, rest⟩ :=
    @pendingOf_called subsystem func index callback here
  rw [only, if_pos own] at whole
  have lengths := congrArg List.length whole
  simp only [List.length_append, List.length_singleton] at lengths
  obtain rfl : left = [] := List.eq_nil_of_length_eq_zero (by omega)
  obtain rfl : right = [] := List.eq_nil_of_length_eq_zero (by omega)
  exact ⟨List.head_eq_of_cons_eq whole, rest⟩

theorem pendingOf_other (here : subsystem.pending[index]? = some callback)
    (own : callback.func = func) {first second : Callback}
    (two : subsystem.pendingOf func = [first, second]) :
    (first = callback ∧ (subsystem.called index).pendingOf func = [second]) ∨
      (second = callback ∧
        (subsystem.called index).pendingOf func = [first]) := by
  obtain ⟨left, right, whole, rest⟩ :=
    @pendingOf_called subsystem func index callback here
  rw [two, if_pos own] at whole
  cases left with
  | nil =>
      obtain ⟨head, tail⟩ := List.cons.inj whole
      exact .inl ⟨head, rest.trans tail.symm⟩
  | cons item more =>
      obtain ⟨head, tail⟩ := List.cons.inj whole
      change [second] = more ++ [callback] ++ right at tail
      have lengths := congrArg List.length tail
      simp only [List.length_append, List.length_singleton] at lengths
      obtain rfl : more = [] := List.eq_nil_of_length_eq_zero (by omega)
      obtain rfl : right = [] := List.eq_nil_of_length_eq_zero (by omega)
      refine .inr ⟨List.head_eq_of_cons_eq tail, ?_⟩
      rw [rest, head]
      rfl

theorem called_moves (here : subsystem.pending[index]? = some callback) :
    Moves callback.func subsystem (subsystem.called index) := by
  refine ⟨?_, fun _ _ => rfl, fun _ _ held _ => held, fun _ _ held _ => held⟩
  intro other different
  obtain ⟨left, right, whole, rest⟩ :=
    @pendingOf_called subsystem other index callback here
  rw [if_neg (Ne.symm different), List.append_nil] at whole
  exact rest.trans whole.symm

theorem load_same {func : Nat}
    (same : after.pendingOf func = before.pendingOf func) :
    after.load func = before.load func := by
  unfold load
  rw [same]

theorem Moves.trans {middle : Subsystem} (first : Moves func before middle)
    (second : Moves func middle after) : Moves func before after where
  pending other different := (second.pending other different).trans
    (first.pending other different)
  responses other different := (second.responses other different).trans
    (first.responses other different)
  contexts context found held other :=
    second.contexts context found (first.contexts context found held other)
      other
  trims context found held other :=
    second.trims context found (first.trims context found held other) other

end Lists

section Stages

variable {cfg : ConfigData} {before after : Subsystem} {func bound : Nat}

theorem getElem?_grown {items : List (Option α)} {last : Option α}
    {index : Nat} {found : α} (held : items[index]? = some (some found)) :
    (items ++ [last])[index]? = some (some found) := by
  obtain ⟨inside, _⟩ := List.getElem?_eq_some_iff.mp held
  rw [List.getElem?_append_left inside]
  exact held

theorem Outcome.moves (outcome : Outcome func bound before after) :
    Moves func before after := by
  cases outcome with
  | replied resp own pending responses contexts trims =>
      refine ⟨fun other _ => pendingOf_same pending, ?_, ?_, ?_⟩
      · intro other different
        rw [repliesTo_append responses, if_neg (by rw [own]; exact different.symm),
          List.append_nil]
      · intro context found held _
        rw [contexts]
        exact held
      · intro context found held _
        rw [trims]
        exact held
  | scheduled callback own share single below pending responses contexts
      trims =>
      refine ⟨?_, fun other _ => repliesTo_same responses, ?_, ?_⟩
      · intro other different
        rw [pendingOf_append pending, if_neg (by rw [own]; exact different.symm),
          List.append_nil]
      · intro context found held _
        rw [contexts]
        exact held
      · intro context found held _
        rw [trims]
        exact held
  | prepared callback created own share single below pending responses contexts
      trims =>
      refine ⟨?_, fun other _ => repliesTo_same responses, ?_, ?_⟩
      · intro other different
        rw [pendingOf_append pending,
          if_neg (by rw [own.1]; exact different.symm), List.append_nil]
      · intro context found held _
        rw [contexts]
        exact getElem?_grown held
      · intro context found held _
        rw [trims]
        exact held
  | trimming callback created own share counter single below pending responses
      contexts trims =>
      refine ⟨?_, fun other _ => repliesTo_same responses, ?_, ?_⟩
      · intro other different
        rw [pendingOf_append pending,
          if_neg (by rw [own.1]; exact different.symm), List.append_nil]
      · intro context found held _
        rw [contexts]
        exact held
      · intro context found held _
        rw [trims]
        exact getElem?_grown held

/-- No function is due for a command that is not answered: it is being
handled. -/
structure Handled (subsystem : Subsystem) (func : Nat) : Prop where
  idle : subsystem.pendingOf func = []
  unanswered : subsystem.repliesTo func = []

theorem Outcome.accounted (outcome : Outcome func bound before after)
    (handled : Handled before func) : Accounted after func := by
  cases outcome with
  | replied resp own pending responses contexts trims =>
      refine .answered resp ((pendingOf_same pending).trans handled.idle) ?_
      rw [repliesTo_append responses, handled.unanswered, if_pos own]
      rfl
  | scheduled callback own share single below pending responses contexts
      trims =>
      refine .waits callback ?_ share
        ((repliesTo_same responses).trans handled.unanswered)
      rw [pendingOf_append pending, handled.idle, if_pos own]
      rfl
  | prepared callback created own share single below pending responses contexts
      trims =>
      refine .reads callback _ created ?_ share ?_ own.2
        ((repliesTo_same responses).trans handled.unanswered)
      · rw [pendingOf_append pending, handled.idle, if_pos own.1]
        rfl
      · rw [contexts, List.getElem?_concat_length]
  | trimming callback created own share counter single below pending responses
      contexts trims =>
      refine .trims callback _ created ?_ share ?_ own.2 counter
        ((repliesTo_same responses).trans handled.unanswered)
      · rw [pendingOf_append pending, handled.idle, if_pos own.1]
        rfl
      · rw [trims, List.getElem?_concat_length]

theorem Outcome.single (outcome : Outcome func bound before after)
    (every : ∀ callback ∈ before.pending, callback.Single) :
    ∀ callback ∈ after.pending, callback.Single := by
  have grown : ∀ added : Callback, added.Single →
      ∀ callback ∈ before.pending ++ [added], callback.Single := by
    intro added single callback member
    rcases List.mem_append.mp member with old | new
    · exact every callback old
    · rw [List.mem_singleton.mp new]
      exact single
  cases outcome with
  | replied resp own pending => rw [pending]; exact every
  | scheduled callback own share single below pending =>
      rw [pending]
      exact grown callback single
  | prepared callback created own share single below pending =>
      rw [pending]
      exact grown callback single
  | trimming callback created own share counter single below pending =>
      rw [pending]
      exact grown callback single

theorem Outcome.load_lt (outcome : Outcome func bound before after)
    (handled : Handled before func) (positive : 0 < bound) :
    after.load func < bound := by
  have one : ∀ callback : Callback, callback.func = func →
      callback.rank < bound → after.pending = before.pending ++ [callback] →
        after.load func < bound := by
    intro callback own below pending
    unfold load
    rw [pendingOf_append pending, handled.idle, if_pos own]
    simpa using below
  cases outcome with
  | replied resp own pending =>
      unfold load
      rw [pendingOf_same pending, handled.idle]
      exact positive
  | scheduled callback own share single below pending =>
      exact one callback own below pending
  | prepared callback created own share single below pending =>
      exact one callback own.1 below pending
  | trimming callback created own share counter single below pending =>
      exact one callback own.1 below pending

end Stages

end Subsystem

end SimpleSSD.HIL.NVMe
