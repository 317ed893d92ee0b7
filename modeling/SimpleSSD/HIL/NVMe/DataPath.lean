import Mathlib.Algebra.Ring.Nat
import SimpleSSD.Data.Linearization
import SimpleSSD.HIL.NVMe.Namespace
import SimpleSSD.Util.Storage

namespace SimpleSSD.HIL.NVMe.DataPath

open Data Util

/-! The bytes of the reads, writes and compares of a namespace. -/

/-- `IOContext` and `CompareContext`; `dma` and `hil` are the calls of
`dmaDone` that are still due. -/
structure Context where
  kind : Transfer
  slba : UInt64
  nlb : UInt16
  started : Bool
  dma : Bool
  hil : Bool
  beginAt : Nat
  buffer : Option (List UInt8)
  hostContent : List UInt8

/-- Both calls of `dmaDone` become due. -/
def Context.begin (context : Context) (buffer : Option (List UInt8)) :
    Context :=
  { context with
    started := true, dma := true, hil := true, beginAt := 0
    buffer := buffer }

structure Traffic where
  pDisk : Option Image
  /-- `info.lbaSize`. -/
  lbaSize : UInt32
  contexts : List (Option Context)

inductive Result where
  | read (bytes : List UInt8)
  | written (bytes : Option (List UInt8))
  | compared (host : List UInt8) (success : Bool)
  | formatted
  deriving DecidableEq, Repr

def load (pDisk : Option Image) (lbaSize : UInt32) (slba : UInt64)
    (nlb : UInt16) : Option (List UInt8) :=
  match pDisk with
  | some image => (image.read slba nlb).map Prod.fst
  | none => some (List.replicate (nlb.toNat * lbaSize.toNat) 0)

namespace Traffic

def submit (kind : Transfer) (slba : UInt64) (nlb : UInt16)
    (traffic : Traffic) : Traffic :=
  { traffic with
    contexts := traffic.contexts ++ [some {
      kind := kind, slba := slba, nlb := nlb, started := false
      dma := false, hil := false, beginAt := 0, buffer := none
      hostContent := [] }] }

def find (traffic : Traffic) (index : Nat) (due : Context → Bool) :
    Option Context :=
  match traffic.contexts[index]? with
  | some (some context) => if due context then some context else none
  | _ => none

def store (traffic : Traffic) (index : Nat) (context : Option Context) :
    Traffic :=
  { traffic with contexts := traffic.contexts.set index context }

/-- The buffer that `doRead` makes: a write has none without a disk. -/
def bufferOf (context : Context) (traffic : Traffic) :
    Option (Option (List UInt8)) :=
  match context.kind with
  | .write => some (traffic.pDisk.map fun _ =>
      List.replicate (context.nlb.toNat * traffic.lbaSize.toNat) 0)
  | .read | .compare =>
      (load traffic.pDisk traffic.lbaSize context.slba context.nlb).map some

def doRead (index : Nat) (traffic : Traffic) : Option Traffic := do
  let context ← traffic.find index fun context => !context.started
  let buffer ← traffic.bufferOf context
  return traffic.store index (some (context.begin buffer))

def dmaDone (index : Nat) (context : Context) (traffic : Traffic) :
    Option (Traffic × Option Result) :=
  if context.beginAt + 1 = 2 then
    let deleted := traffic.store index none
    match context.kind with
    | .read => some (deleted, some (.read (context.buffer.getD [])))
    | .compare =>
        let success :=
          match traffic.pDisk with
          | some _ => context.buffer == some context.hostContent
          | none => true
        some (deleted, some (.compared context.hostContent success))
    | .write =>
        match context.buffer, traffic.pDisk with
        | some bytes, some image =>
            (image.write context.slba context.nlb bytes).map fun (after, _) =>
              ({ deleted with pDisk := some after },
                some (.written (some bytes)))
        | some _, none => none
        | none, _ => some (deleted, some (.written none))
  else
    some (traffic.store index (some { context with
      beginAt := context.beginAt + 1 }), none)

/-- The DMA is done, having moved `bytes` from the host where it reads. -/
def dmaArrives (index : Nat) (bytes : List UInt8) (traffic : Traffic) :
    Option (Traffic × Option Result) :=
  (traffic.find index Context.dma).bind fun context =>
    let context := { context with dma := false }
    match context.kind with
    | .read => traffic.dmaDone index context
    | .write => traffic.dmaDone index
        { context with buffer := context.buffer.map fun _ => bytes }
    | .compare => traffic.dmaDone index { context with hostContent := bytes }

def hilArrives (index : Nat) (traffic : Traffic) :
    Option (Traffic × Option Result) :=
  (traffic.find index Context.hil).bind fun context =>
    traffic.dmaDone index { context with hil := false }

/-- `format` deletes the disk.  It takes a number as the commands do. -/
def format (lbaSize : UInt32) (traffic : Traffic) : Traffic where
  pDisk := none
  lbaSize := lbaSize
  contexts := traffic.contexts ++ [none]

end Traffic

inductive Call where
  | transfer (kind : Transfer) (slba : UInt64) (nlb : UInt16)
  | format (lbaSize : UInt32)
  deriving DecidableEq, Repr

def Context.call (context : Context) : Call :=
  .transfer context.kind context.slba context.nlb

inductive Arrival where
  | dma (bytes : List UInt8)
  | hil

def Traffic.arrive (index : Nat) (traffic : Traffic) :
    Arrival → Option (Traffic × Option Result)
  | .dma bytes => traffic.dmaArrives index bytes
  | .hil => traffic.hilArrives index

inductive Occurrence where
  | submit (kind : Transfer) (slba : UInt64) (nlb : UInt16)
  | doRead (index : Nat)
  | arrive (index : Nat) (arrival : Arrival)
  | format (lbaSize : UInt32)

abbrev Trace := List (Event Nat Call Result)

def Traffic.perform (traffic : Traffic) : Occurrence → Option (Trace × Traffic)
  | .submit kind slba nlb =>
      some ([.call traffic.contexts.length (.transfer kind slba nlb)],
        traffic.submit kind slba nlb)
  | .doRead index => (traffic.doRead index).map fun after => ([], after)
  | .arrive index arrival =>
      (traffic.arrive index arrival).map fun (after, result) =>
        (result.toList.map (.answer index), after)
  | .format lbaSize =>
      some ([.call traffic.contexts.length (.format lbaSize),
        .answer traffic.contexts.length .formatted], traffic.format lbaSize)

def Traffic.Due (traffic : Traffic) : Occurrence → Prop
  | .submit _ _ _ | .format _ => True
  | .doRead index =>
      (traffic.find index fun context => !context.started).isSome
  | .arrive index (.dma _) => (traffic.find index Context.dma).isSome
  | .arrive index .hil => (traffic.find index Context.hil).isSome

/-- No format comes while a write that has a buffer is under way, and the bytes
of a command have places on the disk. -/
def Traffic.Permits (traffic : Traffic) : Occurrence → Prop
  | .submit _ slba nlb =>
      ∀ image, traffic.pDisk = some image →
        Fits image.sectorSize slba nlb.toNat
  | .format _ => ∀ context, some context ∈ traffic.contexts →
      context.kind = .write → context.buffer = none
  | .doRead _ | .arrive _ _ => True

inductive Reaches (start : Traffic) : Trace → Traffic → Prop
  | start : Reaches start [] start
  | step {trace before events after} (earlier : Reaches start trace before)
      (occurrence : Occurrence) (permits : before.Permits occurrence)
      (performed : before.perform occurrence = some (events, after)) :
      Reaches start (trace ++ events) after

inductive Applies : Option Image × UInt32 → Call → Option (List UInt8) →
    Option Image × UInt32 → Prop
  | read {pDisk lbaSize slba nlb bytes}
      (loaded : load pDisk lbaSize slba nlb = some bytes) :
      Applies (pDisk, lbaSize) (.transfer .read slba nlb) (some bytes)
        (pDisk, lbaSize)
  | compare {image lbaSize slba nlb bytes}
      (loaded : load (some image) lbaSize slba nlb = some bytes) :
      Applies (some image, lbaSize) (.transfer .compare slba nlb) (some bytes)
        (some image, lbaSize)
  | compareNothing {lbaSize slba nlb} :
      Applies (none, lbaSize) (.transfer .compare slba nlb) none
        (none, lbaSize)
  | write {image after lbaSize slba nlb bytes count}
      (written : image.write slba nlb bytes = some (after, count)) :
      Applies (some image, lbaSize) (.transfer .write slba nlb) (some bytes)
        (some after, lbaSize)
  | writeNothing {lbaSize slba nlb} :
      Applies (none, lbaSize) (.transfer .write slba nlb) none (none, lbaSize)
  | format {pDisk old lbaSize} :
      Applies (pDisk, old) (.format lbaSize) none (none, lbaSize)

inductive Answers : Call → Option (List UInt8) → Result → Prop
  | read {slba nlb bytes} :
      Answers (.transfer .read slba nlb) (some bytes) (.read bytes)
  | write {slba nlb data} :
      Answers (.transfer .write slba nlb) data (.written data)
  | compare {slba nlb data host success}
      (verdict : success = data.all (· = host)) :
      Answers (.transfer .compare slba nlb) data (.compared host success)
  | format {lbaSize data} : Answers (.format lbaSize) data .formatted

theorem Applies.compare_pure {before after : Option Image × UInt32}
    {slba : UInt64} {nlb : UInt16} {data : Option (List UInt8)}
    (applies : Applies before (.transfer .compare slba nlb) data after) :
    after = before := by
  cases applies with
  | compare => rfl
  | compareNothing => rfl

abbrev Order := List (Effect Nat Call (Option (List UInt8)))

/-- A command that is not done: what it has looked at took effect then, and a
write has had none. -/
structure Tracked (pDisk : Option Image) (trace : Trace) (order : Order)
    (index : Nat) (context : Context) : Prop where
  called : .call index context.call ∈ trace
  silent : ∀ result, .answer index result ∉ trace
  due : context.dma = true ∨ context.hil = true → context.started = true
  waiting : context.started = false ∨ context.kind = .write →
    ∀ effect ∈ order, effect.id ≠ index
  looked : context.started = true → context.kind ≠ .write →
    ∃ data bytes, ⟨index, context.call, data⟩ ∈ order ∧
      context.buffer = some bytes ∧
      (context.kind = .compare → pDisk = none ∨ data = some bytes) ∧
      (context.kind = .read → data = some bytes)
  filled : context.started = true → context.kind = .write →
    context.buffer = none → pDisk = none

theorem Tracked.frame {pDisk pDisk' : Option Image} {trace trace' : Trace}
    {order order' : Order} {index : Nat} {context : Context}
    (tracked : Tracked pDisk trace order index context)
    (longer : ∀ event ∈ trace, event ∈ trace')
    (silent : ∀ result, .answer index result ∈ trace' →
      .answer index result ∈ trace)
    (same : ∀ effect, effect.id = index → (effect ∈ order' ↔ effect ∈ order))
    (gone : pDisk = none → pDisk' = none) :
    Tracked pDisk' trace' order' index context where
  called := longer _ tracked.called
  silent := fun result member => tracked.silent result (silent result member)
  due := tracked.due
  waiting := by
    intro condition effect member here
    exact tracked.waiting condition effect ((same effect here).mp member) here
  looked := by
    intro started kind
    obtain ⟨data, bytes, member, held, compared, read⟩ :=
      tracked.looked started kind
    refine ⟨data, bytes, (same _ rfl).mpr member, held, ?_, read⟩
    intro compares
    exact (compared compares).imp_left gone
  filled := fun started kind empty => gone (tracked.filled started kind empty)

structure Explained (start : Traffic) (trace : Trace) (order : Order)
    (traffic : Traffic) : Prop where
  linear : Linearization Applies (start.pDisk, start.lbaSize) Answers trace
    order (traffic.pDisk, traffic.lbaSize)
  numbered : ∀ id op, .call id op ∈ trace → id < traffic.contexts.length
  tracked : ∀ index context, traffic.contexts[index]? = some (some context) →
    Tracked traffic.pDisk trace order index context

variable {start traffic : Traffic} {trace : Trace} {order : Order}
  {index : Nat}

theorem Explained.ordered_lt (explained : Explained start trace order traffic)
    {effect : Effect Nat Call (Option (List UInt8))} (member : effect ∈ order) :
    effect.id < traffic.contexts.length :=
  explained.numbered _ _ (explained.linear.called effect member)

theorem Explained.answered_lt (explained : Explained start trace order traffic)
    {id : Nat} {result : Result} (member : .answer id result ∈ trace) :
    id < traffic.contexts.length := by
  obtain ⟨effect, inside, same, _⟩ :=
    explained.linear.answered id result member
  exact same ▸ explained.ordered_lt inside

theorem Explained.submit (explained : Explained start trace order traffic)
    (kind : Transfer) (slba : UInt64) (nlb : UInt16) :
    Explained start
      (trace ++ [.call traffic.contexts.length (.transfer kind slba nlb)])
      order (traffic.submit kind slba nlb) where
  linear := by
    apply explained.linear.call
    intro other member
    exact Nat.lt_irrefl _ (explained.numbered _ _ member)
  numbered := by
    intro id op member
    simp only [Traffic.submit, List.length_append, List.length_singleton]
    rcases List.mem_append.mp member with old | new
    · exact Nat.lt_succ_of_lt (explained.numbered id op old)
    · cases List.mem_singleton.mp new
      exact Nat.lt_succ_self _
  tracked := by
    intro index context found
    simp only [Traffic.submit] at found
    rcases Nat.lt_or_ge index traffic.contexts.length with old | new
    · rw [List.getElem?_append_left old] at found
      apply (explained.tracked index context found).frame
      · exact fun event member => List.mem_append_left _ member
      · intro result member
        rcases List.mem_append.mp member with before | at_end
        · exact before
        · cases List.mem_singleton.mp at_end
      · exact fun effect _ => Iff.rfl
      · exact id
    · rw [List.getElem?_append_right new] at found
      obtain ⟨at_end, _⟩ := List.getElem?_eq_some_iff.mp found
      rw [List.length_singleton] at at_end
      have last : index = traffic.contexts.length := by omega
      subst last
      rw [Nat.sub_self] at found
      cases found
      constructor
      · exact List.mem_append_right _ (List.mem_singleton_self _)
      · intro result member
        rcases List.mem_append.mp member with before | at_end
        · exact Nat.lt_irrefl _ (explained.answered_lt before)
        · cases List.mem_singleton.mp at_end
      · intro due
        rcases due with due | due <;> cases due
      · intro _ effect member same
        exact Nat.lt_irrefl _ (same ▸ explained.ordered_lt member)
      · intro started
        cases started
      · intro started
        cases started

theorem find_some {due : Context → Bool} {context : Context}
    (found : traffic.find index due = some context) :
    traffic.contexts[index]? = some (some context) ∧ due context = true := by
  simp only [Traffic.find] at found
  split at found
  · next listed =>
      split at found
      · next holds =>
          cases found
          exact ⟨listed, holds⟩
      · cases found
  · cases found

/-- Another state of the command at `index`, and what it did to the order and
to the disk. -/
theorem Explained.store (explained : Explained start trace order traffic)
    (context : Option Context) (pDisk : Option Image) (events : Trace)
    {order' : Order} (listed : index < traffic.contexts.length)
    (linear : Linearization Applies (start.pDisk, start.lbaSize) Answers
      (trace ++ events) order' (pDisk, traffic.lbaSize))
    (here : ∀ event ∈ events, ∃ result, event = .answer index result)
    (same : ∀ effect, effect.id ≠ index → (effect ∈ order' ↔ effect ∈ order))
    (gone : traffic.pDisk = none → pDisk = none)
    (tracked : ∀ found, context = some found →
      Tracked pDisk (trace ++ events) order' index found) :
    Explained start (trace ++ events) order'
      { traffic.store index context with pDisk := pDisk } where
  linear := linear
  numbered := by
    intro id op member
    simp only [Traffic.store, List.length_set]
    rcases List.mem_append.mp member with old | new
    · exact explained.numbered id op old
    · obtain ⟨result, answers⟩ := here _ new
      cases answers
  tracked := by
    intro other found held
    simp only [Traffic.store] at held
    by_cases equal : other = index
    · subst equal
      rw [List.getElem?_set_self listed] at held
      exact tracked found (Option.some.inj held)
    · rw [List.getElem?_set_ne (Ne.symm equal)] at held
      apply (explained.tracked other found held).frame
      · exact fun event member => List.mem_append_left _ member
      · intro result member
        rcases List.mem_append.mp member with old | new
        · exact old
        · obtain ⟨_, answers⟩ := here _ new
          cases answers
          exact absurd rfl equal
      · intro effect position
        exact same effect (position ▸ equal)
      · exact gone

theorem Explained.change (explained : Explained start trace order traffic)
    (context : Context) {order' : Order}
    (listed : index < traffic.contexts.length)
    (linear : Linearization Applies (start.pDisk, start.lbaSize) Answers trace
      order' (traffic.pDisk, traffic.lbaSize))
    (same : ∀ effect, effect.id ≠ index → (effect ∈ order' ↔ effect ∈ order))
    (tracked : Tracked traffic.pDisk trace order' index context) :
    Explained start trace order' (traffic.store index (some context)) := by
  have stored := explained.store (some context) traffic.pDisk [] listed
    (by rw [List.append_nil]; exact linear) (fun _ member => nomatch member)
    same id
  rw [List.append_nil] at stored
  apply stored
  intro found equal
  cases equal
  exact tracked

theorem mem_concat_iff {op : Call} {data : Option (List UInt8)}
    (effect : Effect Nat Call (Option (List UInt8)))
    (other : effect.id ≠ index) :
    effect ∈ order ++ [⟨index, op, data⟩] ↔ effect ∈ order := by
  rw [List.mem_append, List.mem_singleton]
  constructor
  · intro member
    rcases member with old | same
    · exact old
    · exact absurd (congrArg Effect.id same) other
  · exact .inl

/-- A command that starts takes effect, unless it writes. -/
theorem Explained.begin (explained : Explained start trace order traffic)
    {context : Context} {data : Option (List UInt8)} {bytes : List UInt8}
    (listed : traffic.contexts[index]? = some (some context))
    (fresh : context.started = false) (looks : context.kind ≠ .write)
    (applies : Applies (traffic.pDisk, traffic.lbaSize) context.call data
      (traffic.pDisk, traffic.lbaSize))
    (compared : context.kind = .compare →
      traffic.pDisk = none ∨ data = some bytes)
    (read : context.kind = .read → data = some bytes) :
    ∃ order', Explained start trace order'
      (traffic.store index (some (context.begin (some bytes)))) := by
  have tracked := explained.tracked index context listed
  have linear := explained.linear.effect tracked.called
    (tracked.waiting (.inl fresh)) applies
  refine ⟨_, explained.change _ (List.getElem?_eq_some_iff.mp listed).1 linear
    mem_concat_iff ?_⟩
  constructor
  · exact tracked.called
  · exact tracked.silent
  · exact fun _ => rfl
  · intro condition
    rcases condition with waits | writes
    · cases waits
    · exact absurd writes looks
  · intro _ _
    exact ⟨data, bytes, List.mem_append_right _ (List.mem_singleton_self _),
      rfl, compared, read⟩
  · intro _ writes
    exact absurd writes looks

theorem Explained.doRead (explained : Explained start trace order traffic)
    {after : Traffic} (begun : traffic.doRead index = some after) :
    ∃ order', Explained start trace order' after := by
  simp only [Traffic.doRead, Option.bind_eq_bind, Option.bind_eq_some_iff,
    Option.pure_def, Option.some.injEq] at begun
  obtain ⟨context, found, buffer, made, rfl⟩ := begun
  obtain ⟨listed, due⟩ := find_some found
  have fresh : context.started = false := by simpa using due
  have tracked := explained.tracked index context listed
  cases kind : context.kind with
  | read =>
      simp only [Traffic.bufferOf, kind, Option.map_eq_some_iff] at made
      obtain ⟨bytes, loaded, rfl⟩ := made
      apply explained.begin listed fresh (by simp [kind])
      · simp only [Context.call, kind]
        exact .read loaded
      · simp [kind]
      · exact fun _ => rfl
  | compare =>
      simp only [Traffic.bufferOf, kind, Option.map_eq_some_iff] at made
      obtain ⟨bytes, loaded, rfl⟩ := made
      cases disk : traffic.pDisk with
      | some image =>
          rw [disk] at loaded
          apply explained.begin listed fresh (by simp [kind])
          · simp only [Context.call, kind, disk]
            exact .compare loaded
          · exact fun _ => .inr rfl
          · simp [kind]
      | none =>
          apply explained.begin listed fresh (by simp [kind])
          · simp only [Context.call, kind, disk]
            exact .compareNothing
          · exact fun _ => .inl disk
          · simp [kind]
  | write =>
      refine ⟨order, explained.change _ (List.getElem?_eq_some_iff.mp listed).1
        explained.linear (fun _ _ => Iff.rfl) ?_⟩
      constructor
      · exact tracked.called
      · exact tracked.silent
      · exact fun _ => rfl
      · exact fun _ => tracked.waiting (.inl fresh)
      · exact fun _ looks => absurd kind looks
      · intro _ _ empty
        simp only [Traffic.bufferOf, kind, Option.some.injEq] at made
        rw [← made] at empty
        exact Option.map_eq_none_iff.mp empty

def Arrival.meets (context : Context) : Arrival → Context
  | .hil => { context with hil := false }
  | .dma bytes =>
      match context.kind with
      | .read => { context with dma := false }
      | .write => { context with
          dma := false, buffer := context.buffer.map fun _ => bytes }
      | .compare => { context with dma := false, hostContent := bytes }

theorem arrive_some {arrival : Arrival} {outcome : Traffic × Option Result}
    (arrived : traffic.arrive index arrival = some outcome) :
    ∃ context, traffic.contexts[index]? = some (some context) ∧
      (context.dma = true ∨ context.hil = true) ∧
      traffic.dmaDone index (arrival.meets context) = some outcome := by
  cases arrival with
  | dma bytes =>
      simp only [Traffic.arrive, Traffic.dmaArrives,
        Option.bind_eq_some_iff] at arrived
      obtain ⟨context, found, done⟩ := arrived
      obtain ⟨listed, due⟩ := find_some found
      refine ⟨context, listed, .inl due, ?_⟩
      simp only [Arrival.meets]
      split at done
      · next kind => simpa only [kind] using done
      · next kind => simpa only [kind] using done
      · next kind => simpa only [kind] using done
  | hil =>
      simp only [Traffic.arrive, Traffic.hilArrives,
        Option.bind_eq_some_iff] at arrived
      obtain ⟨context, found, done⟩ := arrived
      obtain ⟨listed, due⟩ := find_some found
      exact ⟨context, listed, .inr due, done⟩

theorem Arrival.meets_same (arrival : Arrival) (context : Context) :
    (arrival.meets context).kind = context.kind ∧
      (arrival.meets context).call = context.call ∧
      (arrival.meets context).started = context.started ∧
      ((arrival.meets context).buffer = none ↔ context.buffer = none) ∧
      (context.kind ≠ .write →
        (arrival.meets context).buffer = context.buffer) := by
  cases arrival with
  | hil => simp [Arrival.meets, Context.call]
  | dma bytes => cases kind : context.kind <;> simp [Arrival.meets, Context.call, kind]

theorem Tracked.meets {pDisk : Option Image} {context : Context}
    (tracked : Tracked pDisk trace order index context)
    (due : context.dma = true ∨ context.hil = true) (arrival : Arrival) :
    Tracked pDisk trace order index (arrival.meets context) := by
  obtain ⟨kind, call, started, empty, buffer⟩ := arrival.meets_same context
  constructor
  · rw [call]
    exact tracked.called
  · exact tracked.silent
  · intro _
    rw [started]
    exact tracked.due due
  · rw [kind, started]
    exact tracked.waiting
  · rw [kind, started, call]
    intro begun looks
    rw [buffer looks]
    exact tracked.looked begun looks
  · rw [kind, started, empty]
    exact tracked.filled

/-- The second call ends the command: a write takes effect now, and a compare
whose disk is gone does so anew. -/
theorem Explained.dmaDone (explained : Explained start trace order traffic)
    {context : Context} (listed : index < traffic.contexts.length)
    (tracked : Tracked traffic.pDisk trace order index context)
    (started : context.started = true) {after : Traffic} {result : Result}
    (done : traffic.dmaDone index context = some (after, some result)) :
    ∃ order', Explained start (trace ++ [.answer index result]) order'
      after := by
  have here : ∀ event ∈ [(.answer index result : Event Nat Call Result)],
      ∃ result, event = .answer index result := by
    intro event member
    exact ⟨result, List.mem_singleton.mp member⟩
  simp only [Traffic.dmaDone] at done
  split at done
  · cases kind : context.kind with
    | read =>
        simp only [kind] at done
        cases done
        obtain ⟨data, bytes, member, held, _, read⟩ :=
          tracked.looked started (by simp [kind])
        rw [read kind] at member
        rw [held] at here ⊢
        have answers : Answers context.call (some bytes) (.read bytes) := by
          simp only [Context.call, kind]
          exact .read
        exact ⟨_, explained.store none traffic.pDisk _ listed
          (explained.linear.answer member answers) here (fun _ _ => Iff.rfl) id
          (fun _ same => nomatch same)⟩
    | compare =>
        simp only [kind] at done
        cases done
        obtain ⟨data, bytes, member, held, compared, _⟩ :=
          tracked.looked started (by simp [kind])
        cases disk : traffic.pDisk with
        | some image =>
            have same := (compared kind).resolve_left (by simp [disk])
            subst same
            have answers : Answers context.call (some bytes)
                (.compared context.hostContent
                  (context.buffer == some context.hostContent)) := by
              simp only [Context.call, kind]
              apply Answers.compare
              rw [held, Bool.eq_iff_iff]
              simp
            simp only [disk] at here ⊢
            have stored := explained.store none traffic.pDisk _ listed
              (explained.linear.answer member answers) here
              (fun _ _ => Iff.rfl) id (fun _ same => nomatch same)
            exact ⟨_, stored⟩
        | none =>
            have retracted := explained.linear.retract tracked.silent (by
              intro effect inside same before after applies
              have equal := explained.linear.unique inside member same
              rw [equal, Context.call, kind] at applies
              exact applies.compare_pure)
            have applies : Applies (traffic.pDisk, traffic.lbaSize)
                context.call none (traffic.pDisk, traffic.lbaSize) := by
              simp only [Context.call, kind, disk]
              exact .compareNothing
            have anew := retracted.effect tracked.called (by
              intro other inside
              simpa using (List.mem_filter.mp inside).2) applies
            have answers : Answers context.call none
                (.compared context.hostContent true) := by
              simp only [Context.call, kind]
              exact .compare rfl
            have answered := anew.answer
              (List.mem_append_right _ (List.mem_singleton_self _)) answers
            simp only [disk] at here ⊢
            have stored := explained.store none traffic.pDisk _ listed answered
              here (fun effect other => by
                rw [mem_concat_iff effect other, List.mem_filter]
                simp [other]) id (fun _ same => nomatch same)
            exact ⟨_, stored⟩
    | write =>
        have absent := tracked.waiting (.inr kind)
        have filled := tracked.filled started kind
        simp only [kind] at done
        split at done
        · next bytes image buffer disk =>
            simp only [Option.map_eq_some_iff] at done
            obtain ⟨⟨written, count⟩, wrote, same⟩ := done
            cases same
            have applies : Applies (traffic.pDisk, traffic.lbaSize)
                context.call (some bytes) (some written, traffic.lbaSize) := by
              simp only [Context.call, kind, disk]
              exact .write wrote
            have answers : Answers context.call (some bytes)
                (.written (some bytes)) := by
              simp only [Context.call, kind]
              exact .write
            have answered :=
              (explained.linear.effect tracked.called absent applies).answer
                (List.mem_append_right _ (List.mem_singleton_self _)) answers
            exact ⟨_, explained.store none (some written) _ listed answered
              here mem_concat_iff (by simp [disk])
              (fun _ same => nomatch same)⟩
        · cases done
        · next _ empty =>
            have disk := filled empty
            cases done
            have applies : Applies (traffic.pDisk, traffic.lbaSize)
                context.call none (traffic.pDisk, traffic.lbaSize) := by
              simp only [Context.call, kind, disk]
              exact .writeNothing
            have answers : Answers context.call none (.written none) := by
              simp only [Context.call, kind]
              exact .write
            have answered :=
              (explained.linear.effect tracked.called absent applies).answer
                (List.mem_append_right _ (List.mem_singleton_self _)) answers
            exact ⟨_, explained.store none traffic.pDisk _ listed answered
              here mem_concat_iff id (fun _ same => nomatch same)⟩
  · simp at done

theorem Explained.dmaDone_first
    (explained : Explained start trace order traffic) {context : Context}
    (listed : index < traffic.contexts.length)
    (tracked : Tracked traffic.pDisk trace order index context)
    {after : Traffic} (done : traffic.dmaDone index context = some (after, none)) :
    Explained start trace order after := by
  simp only [Traffic.dmaDone] at done
  split at done
  · split at done
    · cases done
    · cases done
    · split at done
      · simp at done
      · cases done
      · cases done
  · cases done
    apply explained.change _ listed explained.linear (fun _ _ => Iff.rfl)
    exact ⟨tracked.called, tracked.silent, tracked.due, tracked.waiting,
      tracked.looked, tracked.filled⟩

theorem Explained.format (explained : Explained start trace order traffic)
    (lbaSize : UInt32) :
    ∃ order', Explained start
      (trace ++ [.call traffic.contexts.length (.format lbaSize),
        .answer traffic.contexts.length .formatted]) order'
      (traffic.format lbaSize) := by
  rw [List.append_cons]
  have called : .call traffic.contexts.length (.format lbaSize) ∈ trace ++
      [(.call traffic.contexts.length (.format lbaSize) :
        Event Nat Call Result)] :=
    List.mem_append_right _ (List.mem_singleton_self _)
  have effected := (explained.linear.call fun other member =>
    Nat.lt_irrefl _ (explained.numbered _ other member)).effect called
      (fun other member same =>
        Nat.lt_irrefl _ (same ▸ explained.ordered_lt member)) .format
  refine ⟨_, effected.answer
    (List.mem_append_right _ (List.mem_singleton_self _)) .format, ?_, ?_⟩
  · intro id op member
    simp only [Traffic.format, List.length_append, List.length_singleton]
    rcases List.mem_append.mp member with earlier | new
    · rcases List.mem_append.mp earlier with old | last
      · exact Nat.lt_succ_of_lt (explained.numbered id op old)
      · cases List.mem_singleton.mp last
        exact Nat.lt_succ_self _
    · cases List.mem_singleton.mp new
  · intro index context found
    simp only [Traffic.format] at found
    rcases Nat.lt_or_ge index traffic.contexts.length with old | new
    · rw [List.getElem?_append_left old] at found
      apply (explained.tracked index context found).frame
      · intro event member
        exact List.mem_append_left _ (List.mem_append_left _ member)
      · intro result member
        rcases List.mem_append.mp member with earlier | last
        · rcases List.mem_append.mp earlier with before | at_end
          · exact before
          · cases List.mem_singleton.mp at_end
        · cases List.mem_singleton.mp last
          exact absurd old (Nat.lt_irrefl _)
      · intro effect here
        apply mem_concat_iff
        omega
      · exact fun _ => rfl
    · rw [List.getElem?_append_right new] at found
      obtain ⟨at_end, same⟩ := List.getElem?_eq_some_iff.mp found
      rw [List.length_singleton] at at_end
      simp [show index - traffic.contexts.length = 0 by omega] at same

theorem Explained.arrive (explained : Explained start trace order traffic)
    {arrival : Arrival} {after : Traffic} {result : Option Result}
    (arrived : traffic.arrive index arrival = some (after, result)) :
    ∃ order', Explained start
      (trace ++ result.toList.map (.answer index)) order' after := by
  obtain ⟨context, listed, due, done⟩ := arrive_some arrived
  have bound := (List.getElem?_eq_some_iff.mp listed).1
  have tracked := explained.tracked _ _ listed
  cases result with
  | none =>
      refine ⟨order, ?_⟩
      simp only [Option.toList_none, List.map_nil, List.append_nil]
      exact explained.dmaDone_first bound (tracked.meets due arrival) done
  | some result =>
      apply explained.dmaDone bound (tracked.meets due arrival) _ done
      rw [(arrival.meets_same context).2.2.1]
      exact tracked.due due

theorem Explained.perform (explained : Explained start trace order traffic)
    {occurrence : Occurrence} {events : Trace} {after : Traffic}
    (performed : traffic.perform occurrence = some (events, after)) :
    ∃ order', Explained start (trace ++ events) order' after := by
  cases occurrence with
  | submit kind slba nlb =>
      cases performed
      exact ⟨order, explained.submit kind slba nlb⟩
  | doRead index =>
      simp only [Traffic.perform, Option.map_eq_some_iff] at performed
      obtain ⟨reached, begun, same⟩ := performed
      cases same
      rw [List.append_nil]
      exact explained.doRead begun
  | arrive index arrival =>
      simp only [Traffic.perform, Option.map_eq_some_iff] at performed
      obtain ⟨⟨reached, result⟩, arrived, same⟩ := performed
      cases same
      exact explained.arrive arrived
  | format lbaSize =>
      cases performed
      exact explained.format lbaSize

/-! What keeps the next call from failing. -/

/-- The bytes of the commands under way have places on the disk, and a write
that has a buffer has a disk. -/
structure Serviced (traffic : Traffic) : Prop where
  fits : ∀ context, some context ∈ traffic.contexts →
    ∀ image, traffic.pDisk = some image →
      Fits image.sectorSize context.slba context.nlb.toNat
  disk : ∀ context, some context ∈ traffic.contexts →
    context.kind = .write → context.buffer ≠ none → traffic.pDisk ≠ none

theorem Serviced.store (serviced : Serviced traffic) {context : Context}
    (listed : some context ∈ traffic.contexts) {updated : Option Context}
    (same : ∀ found, updated = some found → found.call = context.call ∧
      (found.kind = .write → found.buffer ≠ none → traffic.pDisk ≠ none)) :
    Serviced (traffic.store index updated) := by
  constructor
  · intro other member
    rcases List.mem_or_eq_of_mem_set member with old | new
    · exact serviced.fits other old
    · have call := (same other new.symm).1
      unfold Context.call at call
      injection call with _ slba nlb
      rw [slba, nlb]
      exact serviced.fits context listed
  · intro other member
    rcases List.mem_or_eq_of_mem_set member with old | new
    · exact serviced.disk other old
    · exact (same other new.symm).2

theorem Serviced.doRead (serviced : Serviced traffic) {after : Traffic}
    (begun : traffic.doRead index = some after) : Serviced after := by
  simp only [Traffic.doRead, Option.bind_eq_bind, Option.bind_eq_some_iff,
    Option.pure_def, Option.some.injEq] at begun
  obtain ⟨context, found, buffer, made, rfl⟩ := begun
  have member := List.mem_of_getElem? (find_some found).1
  refine serviced.store member ?_
  intro begun same
  cases same
  refine ⟨rfl, ?_⟩
  intro writes filled none
  change context.kind = .write at writes
  simp only [Traffic.bufferOf, writes, none, Option.map_none,
    Option.some.injEq] at made
  exact filled made.symm

theorem Serviced.dmaDone (serviced : Serviced traffic) {context : Context}
    (listed : some context ∈ traffic.contexts) (arrival : Arrival)
    {after : Traffic} {result : Option Result}
    (done : traffic.dmaDone index (arrival.meets context) =
      some (after, result)) : Serviced after := by
  obtain ⟨kind, call, _, empty, _⟩ := arrival.meets_same context
  have deleted : Serviced (traffic.store index none) :=
    serviced.store listed fun _ same => nomatch same
  simp only [Traffic.dmaDone] at done
  split at done
  · split at done
    · cases done
      exact deleted
    · cases done
      exact deleted
    · split at done
      · next bytes image buffer disk =>
          simp only [Option.map_eq_some_iff] at done
          obtain ⟨⟨written, count⟩, wrote, same⟩ := done
          cases same
          refine ⟨?_, fun _ _ _ _ gone => nomatch gone⟩
          intro other member after same
          cases same
          rw [Image.write_sectorSize wrote]
          exact deleted.fits other member image disk
      · cases done
      · cases done
        exact deleted
  · cases done
    refine serviced.store listed ?_
    intro counted same
    cases same
    refine ⟨call, ?_⟩
    intro writes filled
    exact serviced.disk context listed (kind.symm.trans writes)
      fun none => filled (empty.mpr none)

theorem Serviced.perform (serviced : Serviced traffic)
    {occurrence : Occurrence} (permits : traffic.Permits occurrence)
    {events : Trace} {after : Traffic}
    (performed : traffic.perform occurrence = some (events, after)) :
    Serviced after := by
  cases occurrence with
  | submit kind slba nlb =>
      cases performed
      constructor
      · intro context member
        rcases List.mem_append.mp member with old | new
        · exact serviced.fits context old
        · cases List.mem_singleton.mp new
          exact permits
      · intro context member
        rcases List.mem_append.mp member with old | new
        · exact serviced.disk context old
        · cases List.mem_singleton.mp new
          exact fun _ filled => absurd rfl filled
  | doRead index =>
      simp only [Traffic.perform, Option.map_eq_some_iff] at performed
      obtain ⟨reached, begun, same⟩ := performed
      cases same
      exact serviced.doRead begun
  | arrive index arrival =>
      simp only [Traffic.perform, Option.map_eq_some_iff] at performed
      obtain ⟨⟨reached, result⟩, arrived, same⟩ := performed
      cases same
      obtain ⟨context, listed, _, done⟩ := arrive_some arrived
      exact serviced.dmaDone (List.mem_of_getElem? listed) arrival done
  | format lbaSize =>
      cases performed
      constructor
      · intro context member image gone
        cases gone
      · intro context member writes filled
        rcases List.mem_append.mp member with old | new
        · exact absurd (permits context old writes) filled
        · cases List.mem_singleton.mp new

theorem Serviced.load_some (serviced : Serviced traffic) {context : Context}
    (listed : some context ∈ traffic.contexts) :
    ∃ bytes, load traffic.pDisk traffic.lbaSize context.slba context.nlb =
      some bytes := by
  unfold load
  cases disk : traffic.pDisk with
  | none => exact ⟨_, rfl⟩
  | some image =>
      dsimp only
      rw [Image.read_eq (serviced.fits context listed image disk)]
      exact ⟨_, rfl⟩

theorem Serviced.dmaDone_some (serviced : Serviced traffic)
    {context : Context} (listed : some context ∈ traffic.contexts)
    (arrival : Arrival) :
    ∃ outcome, traffic.dmaDone index (arrival.meets context) =
      some outcome := by
  obtain ⟨kind, call, _, empty, _⟩ := arrival.meets_same context
  unfold Traffic.dmaDone
  split
  · dsimp only
    split
    · exact ⟨_, rfl⟩
    · exact ⟨_, rfl⟩
    · next writes =>
        rw [kind] at writes
        split
        · next bytes image buffer disk =>
            have fits := serviced.fits context listed image disk
            unfold Context.call at call
            injection call with _ slba nlb
            rw [slba, nlb]
            obtain ⟨after, count, wrote⟩ := Image.write_some fits bytes
            rw [wrote]
            exact ⟨_, rfl⟩
        · next bytes buffer disk =>
            refine absurd disk (serviced.disk context listed writes ?_)
            intro none
            rw [empty.mpr none] at buffer
            cases buffer
        · exact ⟨_, rfl⟩
  · exact ⟨_, rfl⟩

/-- A call that is due does not fail. -/
theorem Serviced.perform_some (serviced : Serviced traffic)
    {occurrence : Occurrence} (due : traffic.Due occurrence) :
    ∃ outcome, traffic.perform occurrence = some outcome := by
  cases occurrence with
  | submit kind slba nlb => exact ⟨_, rfl⟩
  | format lbaSize => exact ⟨_, rfl⟩
  | doRead index =>
      obtain ⟨context, found⟩ := Option.isSome_iff_exists.mp due
      have listed := List.mem_of_getElem? (find_some found).1
      obtain ⟨buffer, made⟩ : ∃ buffer,
          traffic.bufferOf context = some buffer := by
        obtain ⟨bytes, loaded⟩ := serviced.load_some listed
        unfold Traffic.bufferOf
        split
        · exact ⟨_, rfl⟩
        · rw [loaded]
          exact ⟨_, rfl⟩
        · rw [loaded]
          exact ⟨_, rfl⟩
      unfold Traffic.perform Traffic.doRead
      simp only [found, made, Option.bind_eq_bind, Option.bind_some]
      exact ⟨_, rfl⟩
  | arrive index arrival =>
      have arrives : ∃ outcome, traffic.arrive index arrival = some outcome := by
        cases arrival with
        | dma bytes =>
            obtain ⟨context, found⟩ := Option.isSome_iff_exists.mp due
            obtain ⟨outcome, done⟩ := serviced.dmaDone_some
              (List.mem_of_getElem? (find_some found).1) (.dma bytes)
            refine ⟨outcome, ?_⟩
            unfold Traffic.arrive Traffic.dmaArrives
            rw [found]
            cases kind : context.kind <;>
              simpa only [Option.bind_some, kind, Arrival.meets] using done
        | hil =>
            obtain ⟨context, found⟩ := Option.isSome_iff_exists.mp due
            obtain ⟨outcome, done⟩ := serviced.dmaDone_some
              (List.mem_of_getElem? (find_some found).1) .hil
            refine ⟨outcome, ?_⟩
            unfold Traffic.arrive Traffic.hilArrives
            rw [found]
            exact done
      obtain ⟨⟨after, result⟩, arrived⟩ := arrives
      unfold Traffic.perform
      simp only [arrived]
      exact ⟨_, rfl⟩

theorem reaches_serviced {start traffic : Traffic} {trace : Trace}
    (empty : start.contexts = []) (reaches : Reaches start trace traffic) :
    Serviced traffic := by
  induction reaches with
  | start =>
      constructor
      · intro context member
        rw [empty] at member
        cases member
      · intro context member
        rw [empty] at member
        cases member
  | step _ occurrence permits performed induction =>
      exact induction.perform permits performed

/-- However the calls come, the commands do what they would do one at a time,
each at a moment between its submission and its completion; and every call that
is due can come next, as long as no format comes while a write that has a
buffer is under way. -/
theorem dataPath_linearizable {start traffic : Traffic} {trace : Trace}
    (empty : start.contexts = []) (reaches : Reaches start trace traffic) :
    (∃ order, Linearization Applies (start.pDisk, start.lbaSize) Answers trace
      order (traffic.pDisk, traffic.lbaSize)) ∧
    ∀ occurrence, traffic.Due occurrence → traffic.Permits occurrence →
      ∃ events after, traffic.perform occurrence = some (events, after) ∧
        Reaches start (trace ++ events) after := by
  have explained : ∃ order, Explained start trace order traffic := by
    induction reaches with
    | start =>
        refine ⟨[], .empty, (fun _ _ member => nomatch member), ?_⟩
        intro index context found
        rw [empty] at found
        cases found
    | step _ occurrence _ performed induction =>
        obtain ⟨order, explained⟩ := induction
        exact explained.perform performed
  obtain ⟨order, explained⟩ := explained
  refine ⟨⟨order, explained.linear⟩, ?_⟩
  intro occurrence due permits
  obtain ⟨⟨events, after⟩, performed⟩ :=
    (reaches_serviced empty reaches).perform_some due
  exact ⟨events, after, performed, reaches.step occurrence permits performed⟩

theorem size_pos : 0 < (2 : UInt32).toNat := by
  decide

def fresh : Traffic where
  pDisk := some (.mem (MemDisk.open 8 2 size_pos))
  lbaSize := 2
  contexts := []

/-- A read that starts when a write is done. -/
theorem dataPath_linearizable_read :
    ∃ (traffic : Traffic) (order : Order),
      Linearization Applies (fresh.pDisk, fresh.lbaSize) Answers
        [.call 0 (.transfer .write 1 1), .call 1 (.transfer .read 1 1),
          .answer 0 (.written (some [7, 8])), .answer 1 (.read [7, 8])]
        order (traffic.pDisk, traffic.lbaSize) := by
  have started : Reaches fresh [] fresh := .start
  have placed : ∀ image, fresh.pDisk = some image →
      Fits image.sectorSize 1 (1 : UInt16).toNat := by
    intro image same
    cases same
    decide
  have submitted := started.step (.submit .write 1 1) placed rfl
  have overlapping := (submitted.step (.submit .read 1 1) placed rfl).step
    (.doRead 0) trivial rfl
  have written := (overlapping.step (.arrive 0 (.dma [7, 8])) trivial
    rfl).step (.arrive 0 .hil) trivial rfl
  have begun := written.step (.doRead 1) trivial rfl
  have read := (begun.step (.arrive 1 .hil) trivial rfl).step
    (.arrive 1 (.dma [])) trivial rfl
  obtain ⟨⟨order, linear⟩, _⟩ := dataPath_linearizable rfl read
  exact ⟨_, order, linear⟩

end SimpleSSD.HIL.NVMe.DataPath
