import Mathlib.Data.List.Perm.Basic
import SimpleSSD.Data.Circuit
import SimpleSSD.Data.Flags
import SimpleSSD.HIL.UFS.Host

namespace SimpleSSD.HIL.UFS

open Data

/-! The slots of the host, on their way round. -/

def Station.next : Station → Station
  | .idle => .queued
  | .queued => .fetching
  | .fetching => .reading
  | .reading => .processing
  | .processing => .responding
  | .responding => .writing
  | .writing => .completing
  | .completing => .idle

def Stage.station : Stage → Station
  | .fetching => .fetching
  | .reading _ _ => .reading
  | .processing _ _ => .processing
  | .responding => .responding
  | .writing => .writing

def Command.entry (command : Command) : UInt32 × Station :=
  (command.bitMask, command.stage.station)

def Completion.entry (iter : Completion) : UInt32 × Station :=
  (iter.bitmask, .completing)

def Happening.move : Happening → Option (UInt32 × Station)
  | .moved bitMask left => some (bitMask, left)
  | _ => none

def moves (log : List Happening) : List (UInt32 × Station) :=
  log.filterMap Happening.move

@[simp] theorem moves_append (log happenings : List Happening) :
    moves (log ++ happenings) = moves log ++ moves happenings :=
  List.filterMap_append

namespace Host

/-- The slots that are not idle, in the lists they are in. -/
def held (host : Host) : List (UInt32 × Station) :=
  host.lRequestQueue.map (fun index => (bit index, .queued)) ++
    (host.commands.map Command.entry ++
      host.lResponseQueue.map Completion.entry)

def place (host : Host) (slot : Nat) : Station :=
  placeOf .idle host.held (Flags.flag slot)

/-- A slot is on its way exactly when its doorbell is rung. -/
structure Kept (host : Host) (log : List Happening) : Prop where
  ledger : Ledger Station.next .idle (moves log) host.held
  slots : ∀ bitMask ∈ host.held.map Prod.fst,
    ∃ slot < 32, bitMask = Flags.flag slot
  doorbell : ∀ slot < 32, Flags.Has host.register_table.utrldbr slot ↔
    Flags.flag slot ∈ host.held.map Prod.fst
  pending : ∀ slot < 32, Flags.Has host.pendingInterrupt slot ↔
    Flags.flag slot ∈ host.held.map Prod.fst

variable {host next : Host} {log happenings : List Happening}
  {bitMask : UInt32} {station : Station} {rest : List (UInt32 × Station)}

structure Still (host next : Host) : Prop where
  held : next.held = host.held
  doorbell : next.register_table.utrldbr = host.register_table.utrldbr
  pending : next.pendingInterrupt = host.pendingInterrupt

theorem Still.refl (host : Host) : Still host host := ⟨rfl, rfl, rfl⟩

theorem Still.trans {middle : Host} (first : Still host middle)
    (second : Still middle next) : Still host next :=
  ⟨second.held.trans first.held, second.doorbell.trans first.doorbell,
    second.pending.trans first.pending⟩

theorem Kept.still (kept : host.Kept log) (still : Still host next)
    (quiet : moves happenings = []) : next.Kept (log ++ happenings) := by
  constructor
  · rw [moves_append, quiet, List.append_nil, still.held]
    exact kept.ledger
  · rw [still.held]
    exact kept.slots
  · rw [still.held, still.doorbell]
    exact kept.doorbell
  · rw [still.held, still.pending]
    exact kept.pending

theorem Kept.advance (kept : host.Kept log)
    (before : host.held.Perm ((bitMask, station) :: rest))
    (after : next.held.Perm ((bitMask, station.next) :: rest))
    (doorbell : next.register_table.utrldbr = host.register_table.utrldbr)
    (pending : next.pendingInterrupt = host.pendingInterrupt)
    (moved : moves happenings = [(bitMask, station)]) :
    next.Kept (log ++ happenings) := by
  have keys (key : UInt32) : key ∈ next.held.map Prod.fst ↔
      key ∈ host.held.map Prod.fst := by
    rw [(after.map Prod.fst).mem_iff, (before.map Prod.fst).mem_iff]
    simp
  constructor
  · rw [moves_append, moved]
    exact kept.ledger.advance before after
  · intro key member
    exact kept.slots key ((keys key).mp member)
  · intro slot small
    rw [doorbell, keys]
    exact kept.doorbell slot small
  · intro slot small
    rw [pending, keys]
    exact kept.pending slot small

theorem setCommand_held {place : Nat} {command : Command}
    (found : host.commands[place]? = some command) :
    ∃ rest, host.held.Perm (command.entry :: rest) ∧
      ∀ changed, (host.setCommand place changed).held.Perm
        (changed.entry :: rest) := by
  obtain ⟨inside, rfl⟩ := List.getElem?_eq_some_iff.mp found
  refine ⟨host.lRequestQueue.map (fun index => (bit index, .queued)) ++
    ((host.commands.eraseIdx place).map Command.entry ++
      host.lResponseQueue.map Completion.entry), ?_, ?_⟩
  · apply (List.Perm.append_left _ ?_).trans List.perm_middle
    exact ((List.getElem_cons_eraseIdx_perm inside).symm.map
      Command.entry).append_right _
  · intro changed
    apply (List.Perm.append_left _ ?_).trans List.perm_middle
    exact ((List.set_perm_cons_eraseIdx inside changed).map
      Command.entry).append_right _

theorem Kept.setCommand {place : Nat} {command changed : Command}
    (kept : host.Kept log) (found : host.commands[place]? = some command)
    (same : changed.index = command.index)
    (further : changed.stage.station = command.stage.station.next)
    (moved : moves happenings = [command.entry]) :
    (host.setCommand place changed).Kept (log ++ happenings) := by
  obtain ⟨rest, before, after⟩ := setCommand_held found
  refine kept.advance before ?_ rfl rfl moved
  have entry : changed.entry =
      (command.bitMask, command.stage.station.next) := by
    rw [Command.entry, Command.bitMask, same, further, Command.bitMask]
  rw [← entry]
  exact after changed

theorem setCommand_setCommand (place : Nat) (first second : Command) :
    (host.setCommand place first).setCommand place second =
      host.setCommand place second := by
  simp [Host.setCommand]

theorem Kept.keepCommand {place : Nat} {command changed : Command}
    (kept : host.Kept log) (found : host.commands[place]? = some command)
    (same : changed.entry = command.entry) :
    (host.setCommand place changed).Kept log := by
  have held : (host.setCommand place changed).held = host.held := by
    obtain ⟨inside, rfl⟩ := List.getElem?_eq_some_iff.mp found
    simp only [Host.held, Host.setCommand, List.map_set, same]
    rw [← List.getElem_map Command.entry (h := by simpa using inside),
      List.set_getElem_self]
  have still : Still host (host.setCommand place changed) := ⟨held, rfl, rfl⟩
  have kept := kept.still still (show moves [] = [] from rfl)
  rwa [List.append_nil] at kept

theorem schedule_still {event : Sim.Event} {tick : UInt64}
    (done : host.schedule event tick = .ok next) : Still host next := by
  obtain ⟨sim, _, done⟩ := bind_ok done
  cases done
  exact ⟨rfl, rfl, rfl⟩

theorem switchUIC_still {opcode : UInt32}
    (done : host.switchUIC opcode = .ok next) : Still host next := by
  simp only [switchUIC] at done
  split at done
  · have still := schedule_still done
    exact ⟨still.held, still.doorbell, still.pending⟩
  · split at done
    · cases done
      exact ⟨rfl, rfl, rfl⟩
    · cases done
      exact ⟨rfl, rfl, rfl⟩

theorem processUIC_still
    (done : host.processUIC = .ok (next, happenings)) :
    Still host next ∧ moves happenings = [] := by
  obtain ⟨middle, started, done⟩ := bind_ok done
  cases done
  have still := switchUIC_still started
  refine ⟨⟨still.held, still.doorbell, still.pending⟩, ?_⟩
  split <;> rfl

/-- The loop of `processUTPTransfer` after some slots: what rings among them
is collected, and nothing is that does not ring. -/
structure Collecting (host next : Host) (happenings : List Happening)
    (log : List Happening) (count : Nat) : Prop where
  ledger : Ledger Station.next .idle (moves (log ++ happenings)) next.held
  slots : ∀ bitMask ∈ next.held.map Prod.fst,
    ∃ slot < 32, bitMask = Flags.flag slot
  doorbell : next.register_table.utrldbr = host.register_table.utrldbr
  pending : ∀ slot < 32, Flags.Has next.pendingInterrupt slot ↔
    Flags.flag slot ∈ next.held.map Prod.fst
  rings : ∀ slot < 32, Flags.Has next.pendingInterrupt slot →
    Flags.Has host.register_table.utrldbr slot
  collected : ∀ slot < count, Flags.Has host.register_table.utrldbr slot →
    Flags.Has next.pendingInterrupt slot

theorem Collecting.collect {slot : Nat}
    (collecting : Collecting host next happenings log slot)
    (small : slot < 32) :
    Collecting host (next.collect slot).1
      (happenings ++ (next.collect slot).2) log (slot + 1) := by
  simp only [Host.collect]
  have rings : next.register_table.utrldbr &&& bit (UInt32.ofNat slot) ≠ 0 ↔
      Flags.Has next.register_table.utrldbr slot :=
    Flags.and_flag_ne_zero small
  have waits : next.pendingInterrupt &&& bit (UInt32.ofNat slot) ≠ 0 ↔
      Flags.Has next.pendingInterrupt slot :=
    Flags.and_flag_ne_zero small
  split
  · next new =>
      have rung := rings.mp new.1
      have free : ¬Flags.Has next.pendingInterrupt slot :=
        fun has => absurd new.2 (waits.mpr has)
      have absent := (not_congr (collecting.pending slot small)).mp free
      have held : ({ next with
          pendingInterrupt :=
            next.pendingInterrupt ||| bit (UInt32.ofNat slot)
          lRequestQueue := next.lRequestQueue ++ [UInt32.ofNat slot] } :
          Host).held.Perm ((Flags.flag slot, .queued) :: next.held) := by
        simp only [Host.held, List.map_append, List.map_cons, List.map_nil,
          List.append_assoc]
        exact List.perm_middle
      constructor
      · rw [← List.append_assoc, moves_append]
        exact collecting.ledger.enter absent held
      · intro key member
        rw [(held.map Prod.fst).mem_iff, List.map_cons, List.mem_cons]
          at member
        rcases member with rfl | member
        · exact ⟨slot, small, rfl⟩
        · exact collecting.slots key member
      · exact collecting.doorbell
      · intro other fits
        rw [(held.map Prod.fst).mem_iff, List.map_cons, List.mem_cons,
          Flags.has_or, collecting.pending other fits, or_comm]
        apply or_congr _ Iff.rfl
        rw [bit, ← Flags.flag, Flags.has_flag small]
        constructor
        · rintro rfl
          rfl
        · exact Flags.flag_inj fits small
      · intro other fits has
        rcases Flags.has_or.mp has with old | new
        · exact collecting.rings other fits old
        · rw [(Flags.has_flag small).mp new, ← collecting.doorbell]
          exact rung
      · intro other before has
        rcases Nat.lt_succ_iff_lt_or_eq.mp before with earlier | rfl
        · exact Flags.has_or.mpr (.inl (collecting.collected other earlier has))
        · exact Flags.has_or.mpr (.inr ((Flags.has_flag small).mpr rfl))
  · next old =>
      rw [List.append_nil]
      refine { collecting with collected := ?_ }
      intro other before has
      rcases Nat.lt_succ_iff_lt_or_eq.mp before with earlier | rfl
      · exact collecting.collected other earlier has
      · by_contra free
        apply old
        rw [← collecting.doorbell] at has
        exact ⟨rings.mpr has, not_ne_iff.mp (mt waits.mp free)⟩

theorem Collecting.run (host next : Host) (happenings log : List Happening)
    (start : Collecting host next happenings log 0) (count : Nat)
    (fits : count ≤ 32) :
    let found := (List.range count).foldl
      (fun (found : Host × List Happening) i =>
        ((found.1.collect i).1, found.2 ++ (found.1.collect i).2))
      (next, happenings)
    Collecting host found.1 found.2 log count := by
  induction count with
  | zero => exact start
  | succ count induction =>
      rw [List.range_succ, List.foldl_append]
      exact (induction (Nat.le_of_succ_le fits)).collect fits

theorem Kept.processUTPTransfer {rung : Host} {data : UInt32}
    (kept : host.Kept log) (held : rung.held = host.held)
    (pending : rung.pendingInterrupt = host.pendingInterrupt)
    (doorbell : rung.register_table.utrldbr =
      host.register_table.utrldbr ||| data) :
    rung.processUTPTransfer.1.Kept (log ++ rung.processUTPTransfer.2) := by
  have start : Collecting rung rung [] log 0 := by
    constructor
    · rw [List.append_nil, held]
      exact kept.ledger
    · rw [held]
      exact kept.slots
    · rfl
    · rw [held, pending]
      exact kept.pending
    · intro slot small has
      rw [pending, kept.pending slot small, ← kept.doorbell slot small] at has
      rw [doorbell]
      exact Flags.has_or.mpr (.inl has)
    · exact fun slot below => absurd below (Nat.not_lt_zero slot)
  have done : Collecting rung rung.processUTPTransfer.1
      rung.processUTPTransfer.2 log 32 :=
    Collecting.run rung rung [] log start 32 (Nat.le_refl 32)
  refine ⟨done.ledger, done.slots, ?_, done.pending⟩
  intro slot small
  rw [← done.pending slot small]
  refine ⟨fun has => done.collected slot small ?_, fun has => ?_⟩
  · rw [← done.doorbell]
    exact has
  · have rings := done.rings slot small has
    rw [← done.doorbell] at rings
    exact rings

theorem write_utrldbr (table : Registers) (offset data : UInt32) :
    (table.write offset data).utrldbr = table.utrldbr := by
  simp only [Registers.write, apply_ite Registers.utrldbr, ite_self]

theorem Kept.writeRegister {offset data : UInt32} (kept : host.Kept log)
    (done : host.writeRegister offset data = .ok (next, happenings)) :
    next.Kept (log ++ happenings) := by
  simp only [Host.writeRegister] at done
  split at done
  · have same := Except.ok.inj done
    generalize ringing : ({ host with
      register_table.utrldbr := host.register_table.utrldbr ||| data } :
        Host) = rung at same
    have kept := kept.processUTPTransfer (show rung.held = host.held by
      rw [← ringing]; rfl) (by rw [← ringing])
      (show rung.register_table.utrldbr =
        host.register_table.utrldbr ||| data by rw [← ringing])
    rw [same] at kept
    exact kept
  · split at done
    · cases done
    · split at done
      · obtain ⟨still, quiet⟩ := processUIC_still done
        exact kept.still ⟨still.held, still.doorbell, still.pending⟩ quiet
      · cases done
        refine kept.still ⟨rfl, ?_, rfl⟩ ?_
        · exact write_utrldbr host.register_table offset data
        · split <;> rfl

theorem Kept.fetch (kept : host.Kept log) :
    host.fetch.1.Kept (log ++ host.fetch.2) := by
  cases waiting : host.lRequestQueue with
  | nil =>
      simp only [Host.fetch, waiting, List.append_nil]
      exact kept
  | cons index queue =>
      simp only [Host.fetch, waiting]
      have before : host.held = (bit index, .queued) ::
          (queue.map (fun index => (bit index, Station.queued)) ++
            (host.commands.map Command.entry ++
              host.lResponseQueue.map Completion.entry)) := by
        rw [Host.held, waiting]
        rfl
      refine kept.advance (.of_eq before) ?_ rfl rfl rfl
      simp only [Host.held, List.map_append, List.map_cons, List.map_nil,
        List.append_assoc]
      exact (List.perm_middle.append_left _).trans List.perm_middle

theorem scheduleNext_still {tick : UInt64}
    (done : host.scheduleNext tick = .ok next) : Still host next := by
  simp only [scheduleNext] at done
  split at done <;> exact schedule_still done

theorem scheduleTop_still (done : host.scheduleTop = .ok next) :
    Still host next := by
  simp only [scheduleTop] at done
  split at done
  · cases done
    exact .refl host
  · exact schedule_still done

theorem Kept.handleRequest (kept : host.Kept log)
    (done : host.handleRequest = .ok (next, happenings)) :
    next.Kept (log ++ happenings) := by
  simp only [Host.handleRequest] at done
  obtain ⟨middle, scheduled, done⟩ := bind_ok done
  cases done
  have kept := kept.fetch.still (scheduleNext_still scheduled)
    (show moves [] = [] from rfl)
  rwa [List.append_nil] at kept

theorem Kept.work (kept : host.Kept log)
    (done : host.work = .ok (next, happenings)) :
    next.Kept (log ++ happenings) := by
  apply Kept.handleRequest _ done
  have kept := kept.still (show Still host
    { host with lastWorkAt := host.getTick } from ⟨rfl, rfl, rfl⟩)
    (show moves [] = [] from rfl)
  rwa [List.append_nil] at kept

theorem popFinished_append (tick : UInt64) (popped queue : List Completion) :
    (popFinished tick popped queue).1 ++ (popFinished tick popped queue).2 =
      popped ++ queue := by
  induction queue generalizing popped with
  | nil => rfl
  | cons iter rest induction =>
      simp only [popFinished]
      split
      · rw [induction, List.append_assoc]
        rfl
      · rfl

theorem Kept.clear {iter : Completion} {rest : List Completion}
    (kept : host.Kept log) (queue : host.lResponseQueue = iter :: rest) :
    ({ host with lResponseQueue := rest }.clear iter).Kept
      (log ++ [Happening.moved iter.bitmask .completing]) := by
  have before : host.held.Perm (iter.entry ::
      ({ host with lResponseQueue := rest } : Host).held) := by
    simp only [Host.held, queue, List.map_cons]
    rw [← List.append_assoc, ← List.append_assoc]
    exact List.perm_middle
  have once := (before.map Prod.fst).nodup_iff.mp kept.ledger.once
  rw [List.map_cons, List.nodup_cons] at once
  have keys (key : UInt32) : key ∈ host.held.map Prod.fst ↔
      key = iter.bitmask ∨ key ∈
        ({ host with lResponseQueue := rest } : Host).held.map Prod.fst := by
    rw [(before.map Prod.fst).mem_iff, List.map_cons, List.mem_cons]
    rfl
  obtain ⟨slot, small, mask⟩ := kept.slots iter.bitmask
    ((keys _).mpr (.inl rfl))
  have cleared {word : UInt32}
      (rung : ∀ slot < 32, Flags.Has word slot ↔
        Flags.flag slot ∈ host.held.map Prod.fst) :
      ∀ other < 32, Flags.Has (word &&& ~~~iter.bitmask) other ↔
        Flags.flag other ∈
          ({ host with lResponseQueue := rest } : Host).held.map Prod.fst := by
    intro other fits
    rw [Flags.has_clear fits, rung other fits, keys, mask,
      Flags.has_flag small]
    constructor
    · rintro ⟨same | inside, different⟩
      · exact absurd (Flags.flag_inj fits small same) different
      · exact inside
    · intro inside
      refine ⟨.inr inside, ?_⟩
      rintro rfl
      rw [← mask] at inside
      exact once.1 inside
  constructor
  · rw [moves_append]
    exact kept.ledger.leave before rfl (List.Perm.refl _)
  · intro key member
    exact kept.slots key ((keys key).mpr (.inr member))
  · exact cleared kept.doorbell
  · exact cleared kept.pending

theorem Kept.clearAll {popped rest : List Completion}
    (kept : host.Kept log) (queue : host.lResponseQueue = popped ++ rest) :
    (popped.foldl Host.clear { host with lResponseQueue := rest }).Kept
      (log ++ popped.map fun iter => .moved iter.bitmask .completing) := by
  induction popped generalizing host log with
  | nil =>
      rw [List.map_nil, List.append_nil, List.foldl_nil]
      rw [List.nil_append] at queue
      rw [← queue]
      exact kept
  | cons iter popped induction =>
      have cleared := induction (kept.clear queue) rfl
      rw [List.append_assoc] at cleared
      exact cleared

theorem post_still (host : Host) (count : Nat) :
    Still host (host.post count).1 ∧ moves (host.post count).2 = [] := by
  simp only [post]
  split
  · exact ⟨⟨rfl, rfl, rfl⟩, rfl⟩
  · exact ⟨.refl host, rfl⟩

theorem Kept.completion (kept : host.Kept log)
    (done : host.completion = .ok (next, happenings)) :
    next.Kept (log ++ happenings) := by
  simp only [Host.completion] at done
  obtain ⟨middle, scheduled, done⟩ := bind_ok done
  cases done
  have queue := popFinished_append host.getTick [] host.lResponseQueue
  rw [List.nil_append] at queue
  have posted := post_still ((popFinished host.getTick []
    host.lResponseQueue).1.foldl Host.clear { host with
      lResponseQueue := (popFinished host.getTick [] host.lResponseQueue).2 })
    (popFinished host.getTick [] host.lResponseQueue).1.length
  rw [← List.append_assoc]
  exact (kept.clearAll queue.symm).still
    (posted.1.trans (scheduleTop_still scheduled)) posted.2

/-! The calls that return. -/

theorem Kept.descriptorRead {place : Nat} {desc : TransferReqDesc}
    (kept : host.Kept log)
    (done : host.descriptorRead place desc = .ok (next, happenings)) :
    next.Kept (log ++ happenings) := by
  simp only [Host.descriptorRead] at done
  split at done
  · next command found =>
      split at done
      · next fetching =>
          split at done
          · cases done
            refine kept.setCommand found rfl ?_ ?_
            · rw [fetching]
              rfl
            · rw [moves_append, Command.entry, fetching]
              split <;> rfl
          · cases done
      · cases done
  · cases done

theorem respond_ok {place : Nat} {command : Command}
    {request response : UPIU}
    (done : host.respond place command request response =
      .ok (next, happenings)) :
    next = host.setCommand place { command with stage := .responding } ∧
      ∃ address row, happenings =
        [.moved command.bitMask .processing, .writeResponse address row] := by
  obtain ⟨⟨sent, row, whole⟩, _, done⟩ := bind_ok done
  cases done
  exact ⟨rfl, _, _, rfl⟩

theorem Kept.setCommand_twice {place : Nat} {command middle changed : Command}
    (kept : host.Kept log) (found : host.commands[place]? = some command)
    (first : middle.index = command.index)
    (second : changed.index = command.index)
    (between : middle.stage.station = command.stage.station.next)
    (further : changed.stage.station = middle.stage.station.next)
    (moved : moves happenings = [command.entry, middle.entry]) :
    (host.setCommand place changed).Kept (log ++ happenings) := by
  have there : (host.setCommand place middle).commands[place]? =
      some middle := by
    have inside := (List.getElem?_eq_some_iff.mp found).1
    simp [Host.setCommand, inside]
  have step := kept.setCommand found first between
    (show moves [.moved command.bitMask command.stage.station] =
      [command.entry] from rfl)
  have step := step.setCommand there (second.trans first.symm) further
    (show moves [.moved middle.bitMask middle.stage.station] =
      [middle.entry] from rfl)
  rw [setCommand_setCommand] at step
  refine ⟨?_, step.slots, step.doorbell, step.pending⟩
  have ledger := step.ledger
  simp only [moves_append, moved] at ledger ⊢
  rw [List.append_assoc] at ledger
  exact ledger

theorem startQuery_ok {place : Nat} {command : Command} {request : UPIU}
    {memory : Query}
    (done : host.startQuery place command request memory =
      .ok (next, happenings)) :
    ∃ response, next = host.setCommand place { command with
        stage := .processing request response } ∧
      happenings = [.moved command.bitMask .reading] := by
  simp only [startQuery] at done
  split at done
  · obtain ⟨response, _, done⟩ := bind_ok done
    cases done
    exact ⟨response, rfl, rfl⟩
  · cases done

theorem startCommand_ok {place : Nat} {command : Command} {request : UPIU}
    {memory : Query}
    (done : host.startCommand place command request memory =
      .ok (next, happenings)) :
    ∃ response, next = host.setCommand place { command with
        stage := .processing request response } ∧
      happenings = [.moved command.bitMask .reading] := by
  simp only [startCommand] at done
  split at done
  · cases done
    exact ⟨_, rfl, rfl⟩
  · cases done

/-- The device is asked, or the response is written at once. -/
theorem doRequest_ok {place : Nat} {command : Command} {buffer : Buffer}
    {memory : Query}
    (done : host.doRequest place command buffer memory =
      .ok (next, happenings)) :
    (∃ request response, next = host.setCommand place { command with
        stage := .processing request response } ∧
      happenings = [.moved command.bitMask .reading]) ∨
    (next = host.setCommand place { command with stage := .responding } ∧
      ∃ address row, happenings =
        [.moved command.bitMask .reading, .moved command.bitMask .processing,
          .writeResponse address row]) := by
  simp only [Host.doRequest] at done
  split at done
  · cases done
  · obtain ⟨⟨request, _⟩, _, done⟩ := bind_ok done
    split at done
    · obtain ⟨⟨middle, earlier⟩, responded, done⟩ := bind_ok done
      cases done
      obtain ⟨rfl, address, row, rfl⟩ := respond_ok responded
      right
      exact ⟨rfl, address, row, rfl⟩
    · split at done
      · left
        exact ⟨request, startQuery_ok done⟩
      · split at done
        · left
          exact ⟨request, startCommand_ok done⟩
        · cases done

theorem Kept.doRequest {place : Nat} {command : Command} {buffer : Buffer}
    {memory : Query} (kept : host.Kept log)
    (found : host.commands[place]? = some command)
    (reading : command.stage.station = .reading)
    (done : host.doRequest place command buffer memory =
      .ok (next, happenings)) : next.Kept (log ++ happenings) := by
  have entry : command.entry = (command.bitMask, .reading) := by
    rw [Command.entry, reading]
  rcases doRequest_ok done with
    ⟨request, response, rfl, rfl⟩ | ⟨rfl, address, row, rfl⟩
  · refine kept.setCommand found rfl ?_ ?_
    · rw [reading]
      rfl
    · rw [entry]
      rfl
  · let middle := { command with
      stage := .processing ⟨.zero, .plain⟩ ⟨.zero, .plain⟩ }
    refine kept.setCommand_twice found
      (show middle.index = command.index from rfl) rfl ?_ rfl ?_
    · rw [reading]
      rfl
    · rw [entry]
      rfl

theorem Kept.requestRead {place : Nat} {buffer : Buffer} {memory : Query}
    (kept : host.Kept log)
    (done : host.requestRead place buffer memory = .ok (next, happenings)) :
    next.Kept (log ++ happenings) := by
  simp only [Host.requestRead] at done
  split at done
  · next command found =>
      split at done
      · next reading =>
          split at done
          · exact kept.doRequest found (by rw [reading]; rfl) done
          · cases done
            rw [List.append_nil]
            apply kept.keepCommand found
            simp [Command.entry, Command.bitMask, reading, Stage.station]
      · cases done
  · cases done

theorem Kept.prdtRead {place : Nat} {memory : Query} (kept : host.Kept log)
    (done : host.prdtRead place memory = .ok (next, happenings)) :
    next.Kept (log ++ happenings) := by
  simp only [Host.prdtRead] at done
  split at done
  · next command found =>
      split at done
      · next reading =>
          split at done
          · exact kept.doRequest found (by rw [reading]; rfl) done
          · cases done
            rw [List.append_nil]
            apply kept.keepCommand found
            simp [Command.entry, Command.bitMask, reading, Stage.station]
      · cases done
  · cases done

theorem Kept.respond {place : Nat} {command : Command}
    {request response : UPIU} (kept : host.Kept log)
    (found : host.commands[place]? = some command)
    (processing : command.stage.station = .processing)
    (done : host.respond place command request response =
      .ok (next, happenings)) : next.Kept (log ++ happenings) := by
  obtain ⟨rfl, address, row, rfl⟩ := respond_ok done
  refine kept.setCommand found rfl ?_ ?_
  · rw [processing]
    rfl
  · rw [Command.entry, processing]
    rfl

theorem Kept.processed {place : Nat} (kept : host.Kept log)
    (done : host.processed place = .ok (next, happenings)) :
    next.Kept (log ++ happenings) := by
  simp only [Host.processed] at done
  split at done
  · next command found =>
      split at done
      · next processing =>
          have station : command.stage.station = .processing := by
            rw [processing]
            rfl
          split at done
          · split at done
            · exact kept.respond found station done
            · cases done
          · exact kept.respond found station done
      · cases done
  · cases done

theorem Kept.responseWritten {place : Nat} (kept : host.Kept log)
    (done : host.responseWritten place = .ok (next, happenings)) :
    next.Kept (log ++ happenings) := by
  simp only [Host.responseWritten] at done
  split at done
  · next command found =>
      split at done
      · next responding =>
          cases done
          refine kept.setCommand found rfl ?_ ?_
          · rw [responding]
            rfl
          · rw [Command.entry, responding]
            rfl
      · cases done
  · cases done

theorem insertCompletion_perm (entry : Completion) (queue : List Completion) :
    (insertCompletion entry queue).Perm (entry :: queue) := by
  induction queue with
  | nil => exact .refl _
  | cons iter rest induction =>
      simp only [insertCompletion]
      split
      · exact (induction.cons iter).trans (.swap entry iter rest)
      · exact .refl _

/-- A request that is written back waits for its completion. -/
theorem Kept.pushed {place : Nat} {command : Command} {entry : Completion}
    (kept : host.Kept log) (found : host.commands[place]? = some command)
    (writing : command.stage.station = .writing)
    (same : entry.bitmask = command.bitMask)
    (still : Still { host with
      commands := host.commands.eraseIdx place
      lResponseQueue := insertCompletion entry host.lResponseQueue } next)
    (moved : moves happenings = [(command.bitMask, .writing)]) :
    next.Kept (log ++ happenings) := by
  obtain ⟨inside, rfl⟩ := List.getElem?_eq_some_iff.mp found
  have before : host.held.Perm
      ((host.commands[place].bitMask, host.commands[place].stage.station) ::
        (host.lRequestQueue.map (fun index => (bit index, .queued)) ++
          ((host.commands.eraseIdx place).map Command.entry ++
            host.lResponseQueue.map Completion.entry))) := by
    apply (List.Perm.append_left _ ?_).trans List.perm_middle
    exact ((List.getElem_cons_eraseIdx_perm inside).symm.map
      Command.entry).append_right _
  rw [writing] at before
  refine kept.advance before ?_ still.doorbell still.pending moved
  · rw [still.held]
    apply (List.Perm.append_left _ ?_).trans List.perm_middle
    apply (List.Perm.append_left _ ?_).trans List.perm_middle
    rw [← same]
    exact (insertCompletion_perm entry host.lResponseQueue).map Completion.entry

theorem Kept.descriptorWritten {place : Nat} {now : UInt64}
    (kept : host.Kept log)
    (done : host.descriptorWritten place now = .ok (next, happenings)) :
    next.Kept (log ++ happenings) := by
  simp only [Host.descriptorWritten] at done
  split at done
  · next command found =>
      split at done
      · next writing =>
          obtain ⟨middle, scheduled, done⟩ := bind_ok done
          cases done
          have still := scheduleTop_still scheduled
          refine kept.pushed found ?_ ?_
            ⟨still.held, still.doorbell, still.pending⟩ rfl
          · rw [writing]
            rfl
          · rfl
      · cases done
  · cases done

theorem Kept.onEngine (kept : host.Kept log) (sim : Sim.Run) :
    Kept { host with sim := sim } log := by
  have kept := kept.still (show Still host { host with sim := sim } from
    ⟨rfl, rfl, rfl⟩) (show moves [] = [] from rfl)
  rwa [List.append_nil] at kept

theorem Kept.handle {event : Sim.Event} (kept : host.Kept log)
    (done : host.handle event = .ok (next, happenings)) :
    next.Kept (log ++ happenings) := by
  simp only [Host.handle] at done
  split at done
  · exact kept.work done
  · split at done
    · exact kept.handleRequest done
    · exact kept.completion done

theorem Kept.doNextEvent (kept : host.Kept log)
    (done : host.doNextEvent = .ok (next, happenings)) :
    next.Kept (log ++ happenings) := by
  simp only [Host.doNextEvent] at done
  obtain ⟨sim, _, done⟩ := bind_ok done
  split at done
  · cases done
    rw [List.append_nil]
    exact kept.onEngine sim
  · split at done
    · obtain ⟨⟨middle, happened⟩, handled, done⟩ := bind_ok done
      obtain ⟨returned, _, done⟩ := bind_ok done
      cases done
      exact ((kept.onEngine sim).handle handled).onEngine returned
    · cases done
      rw [List.append_nil]
      exact kept.onEngine sim

theorem Kept.perform {step : Step} (kept : host.Kept log)
    (done : host.perform step = .ok (next, happenings)) :
    next.Kept (log ++ happenings) := by
  cases step with
  | call call =>
      obtain ⟨sim, _, done⟩ := bind_ok done
      cases done
      rw [List.append_nil]
      exact kept.onEngine sim
  | writeRegister offset data => exact kept.writeRegister done
  | descriptorRead place desc => exact kept.descriptorRead done
  | requestRead place buffer memory => exact kept.requestRead done
  | prdtRead place memory => exact kept.prdtRead done
  | processed place => exact kept.processed done
  | responseWritten place => exact kept.responseWritten done
  | descriptorWritten place now => exact kept.descriptorWritten done
  | doNextEvent => exact kept.doNextEvent done

theorem make_kept {device : Device} {maxRequest workInterval : UInt64}
    {sim : Sim.Run} (made : make device maxRequest workInterval sim = .ok host) :
    host.Kept [] := by
  obtain ⟨first, _, made⟩ := bind_ok made
  obtain ⟨second, _, made⟩ := bind_ok made
  obtain ⟨third, _, made⟩ := bind_ok made
  cases made
  constructor
  · exact .start Station.next .idle
  · simp [held]
  · intro slot _
    simp [held, Registers.make, Flags.not_has_zero]
  · intro slot _
    simp [held, Flags.not_has_zero]

theorem Reaches.kept {device : Device} {maxRequest workInterval : UInt64}
    {sim : Sim.Run} (made : make device maxRequest workInterval sim = .ok host)
    (reaches : Reaches host log next) : next.Kept log := by
  induction reaches with
  | start => exact make_kept made
  | step earlier suits performed induction => exact induction.perform performed

theorem held_moving {key : UInt32} (found : (key, station) ∈ host.held) :
    station ≠ .idle := by
  rcases List.mem_append.mp found with queued | later
  · obtain ⟨index, _, same⟩ := List.mem_map.mp queued
    cases same
    simp
  · rcases List.mem_append.mp later with running | finished
    · obtain ⟨command, _, same⟩ := List.mem_map.mp running
      cases same
      cases command.stage <;> simp [Stage.station]
    · obtain ⟨iter, _, same⟩ := List.mem_map.mp finished
      cases same
      simp

theorem place_idle_iff (kept : host.Kept log) (slot : Nat) :
    host.place slot ≠ .idle ↔ Flags.flag slot ∈ host.held.map Prod.fst := by
  constructor
  · intro moving
    by_contra absent
    exact moving (placeOf_none Station.idle absent)
  · intro member
    obtain ⟨⟨key, station⟩, found, rfl⟩ := List.mem_map.mp member
    rw [place, placeOf_mem .idle kept.ledger.once found]
    exact held_moving found

/-- In every run each slot goes round: it is rung, queued, fetched, read,
processed, answered, written back and completed, in this order and time after
time, whatever the other slots do; and the doorbell of a slot is set exactly
while it is on its way. -/
theorem slots_in_turn {device : Device} {maxRequest workInterval : UInt64}
    {sim : Sim.Run} (made : make device maxRequest workInterval sim = .ok host)
    (reaches : Reaches host log next) (slot : Nat) (small : slot < 32) :
    let stations := Circuit.left (Flags.flag slot) (moves log)
    stations = (List.range stations.length).map (Station.next^[·] .idle) ∧
      next.place slot = Station.next^[stations.length] .idle ∧
      (Flags.Has next.register_table.utrldbr slot ↔
        next.place slot ≠ .idle) := by
  have kept := reaches.kept made
  have turn := kept.ledger.circuit.in_turn (Flags.flag slot)
  exact ⟨turn.1, turn.2, (kept.doorbell slot small).trans
    (place_idle_iff kept slot).symm⟩

def plainDevice : Device where
  totalLogicalPages := 0
  logicalPageSize := 0
  size := .zero
  strings := .make ⟨.replicate 252 0, .replicate 252 0, .replicate 252 0,
    .replicate 252 0, .replicate 252 0⟩

def allocated : Sim.Run :=
  (Sim.Run.start.performAll [.allocateEvent, .allocateEvent,
    .allocateEvent]).toOption.getD .start

def fresh : Host where
  sim := allocated
  device := plainDevice
  workEvent := 1
  requestEvent := 2
  completionEvent := 3
  workInterval := 8
  requestInterval := 4
  maxRequest := 2
  requestCounter := 0
  lastWorkAt := 0
  register_table := .make
  pendingInterrupt := 0
  lRequestQueue := []
  commands := []
  lResponseQueue := []
  uicCommand := 0
  utpCommand := 0

theorem make_fresh : make plainDevice 2 8 .start = .ok fresh := rfl

instance (host : Host) : (step : Step) → Decidable (host.Suits step)
  | .call _ => inferInstanceAs (Decidable (_ ∧ _ ∧ _ ∧ _))
  | .doNextEvent => inferInstanceAs (Decidable (_ = _))
  | .writeRegister _ _ | .descriptorRead _ _ | .requestRead _ _ _
  | .prdtRead _ _ | .processed _ | .responseWritten _
  | .descriptorWritten _ _ => inferInstanceAs (Decidable True)

def proceed (reached : Host × List Happening) (step : Step) :
    Except Panic (Host × List Happening) := do
  let (after, happenings) ← reached.1.perform step
  pure (after, reached.2 ++ happenings)

def SuitsAll (start : Host) (steps : List Step) : Prop :=
  Along proceed (fun reached step => reached.1.Suits step) (start, []) steps

instance (start : Host) (steps : List Step) :
    Decidable (start.SuitsAll steps) :=
  inferInstanceAs (Decidable (Along _ _ _ _))

theorem reaches_proceed {start : Host} {steps : List Step}
    {reached : Host × List Happening} (suits : start.SuitsAll steps)
    (run : steps.foldlM proceed (start, []) = .ok reached) :
    Reaches start reached.2 reached.1 := by
  have returns : Returns (fun reached => Reaches start reached.2 reached.1)
      (fun _ => True) (steps.foldlM proceed (start, [])) := by
    refine Along.returns ?_ .start suits
    intro before step earlier suits
    unfold proceed
    cases performed : before.1.perform step with
    | error panic => trivial
    | ok result => exact earlier.step suits performed
  exact returns.of_ok run

def testDesc : TransferReqDesc :=
  { TransferReqDesc.zero with respUPIULength := 8, respUPIUOffset := 8 }

def testUnit : Buffer := fun i => if i = 0 then OPCODE_COMMAND else 0

def noQuery : Query := ⟨0, 0, 0, 0, 0, 0, 0, none⟩

def roundTrip : List Step :=
  [.writeRegister 0x90 0x16, .writeRegister 0x58 1, .doNextEvent,
    .descriptorRead 0 testDesc, .requestRead 0 testUnit noQuery, .processed 0,
    .responseWritten 0, .descriptorWritten 0 10, .doNextEvent]

theorem slots_in_turn_roundTrip :
    ∃ (log : List Happening) (next : Host), Reaches fresh log next ∧
      Circuit.left (Flags.flag 0) (moves log) =
        [.idle, .queued, .fetching, .reading, .processing, .responding,
          .writing, .completing] ∧
      next.place 0 = .idle ∧ ¬ Flags.Has next.register_table.utrldbr 0 := by
  have suits : fresh.SuitsAll roundTrip := by decide +kernel
  have round : (roundTrip.foldlM proceed (fresh, [])).toOption.any
      (fun reached => (Circuit.left (Flags.flag 0) (moves reached.2)).length =
        8) = true := by
    decide +kernel
  obtain ⟨⟨next, log⟩, run, eight⟩ := (Option.any_eq_true _ _).mp round
  have reaches : Reaches fresh log next :=
    reaches_proceed suits (toOption_ok run)
  have turn := slots_in_turn make_fresh reaches 0 (by decide)
  dsimp only at turn
  rw [of_decide_eq_true eight] at turn
  obtain ⟨stations, place, doorbell⟩ := turn
  have here : next.place 0 = .idle := place.trans (by decide)
  exact ⟨log, next, reaches, stations, here,
    fun rung => doorbell.mp rung here⟩

end Host

end SimpleSSD.HIL.UFS
