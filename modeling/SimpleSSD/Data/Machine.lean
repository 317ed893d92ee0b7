import SimpleSSD.Data.Program
import Mathlib.Logic.Relation

namespace SimpleSSD

/-! A program is explained by a machine whose elementary steps act on a state
together with a phase.  The phase is what a reader keeps in mind between two
elementary steps; it exists for specifications only. -/

structure Machine (ε σ φ : Type) where
  step : φ × σ → φ × σ → Prop
  /-- A configuration in which a program may stop with an error, leaving a
  state. -/
  fault : φ × σ → ε → σ → Prop
  sound : φ × σ → Prop
  sound_step : ∀ {before after}, step before after → sound before → sound after

namespace Machine

open Program

variable {ε σ φ α β : Type} {machine : Machine ε σ φ}

def Reaches (machine : Machine ε σ φ) : φ × σ → φ × σ → Prop :=
  Relation.ReflTransGen machine.step

def Invariant (machine : Machine ε σ φ) (invariant : φ × σ → Prop) : Prop :=
  ∀ before after, machine.step before after → machine.sound before →
    invariant before → invariant after

theorem Reaches.sound {before after : φ × σ}
    (reaches : machine.Reaches before after) (sound : machine.sound before) :
    machine.sound after := by
  induction reaches with
  | refl => exact sound
  | tail _ step induction => exact machine.sound_step step induction

theorem Invariant.reaches {invariant : φ × σ → Prop} {before after : φ × σ}
    (kept : machine.Invariant invariant)
    (reaches : machine.Reaches before after) (sound : machine.sound before)
    (start : invariant before) : invariant after := by
  induction reaches with
  | refl => exact start
  | tail earlier step induction =>
      exact kept _ _ step (Reaches.sound earlier sound) induction

theorem Invariant.and {left right : φ × σ → Prop}
    (leftKept : machine.Invariant left)
    (rightKept : ∀ before after, machine.step before after →
      machine.sound before → left before → right before → right after) :
    machine.Invariant fun config => left config ∧ right config := by
  intro before after step sound both
  exact ⟨leftKept before after step sound both.1,
    rightKept before after step sound both.1 both.2⟩

/-! `Tracks` compares a program that is at `current` with a machine that is
still at `origin`; `Follows` is the case where the machine has caught up. -/

def Tracks (machine : Machine ε σ φ) (program : EStateM ε σ α)
    (origin : φ × σ) (current : σ) (post : α → φ → σ → Prop) : Prop :=
  Meets program current
    (fun value final => ∃ phase, machine.Reaches origin (phase, final) ∧
      post value phase final)
    (fun error final => ∃ reached, machine.Reaches origin reached ∧
      machine.fault reached error final)

def Follows (machine : Machine ε σ φ) (program : EStateM ε σ α)
    (phase : φ) (state : σ) (post : α → φ → σ → Prop) : Prop :=
  machine.sound (phase, state) →
    machine.Tracks program (phase, state) state post

section Rules

variable {program : EStateM ε σ α} {origin : φ × σ} {phase phase' : φ}
  {state current middle : σ} {post : α → φ → σ → Prop}

theorem Tracks.bindOk {value : α} {next : α → EStateM ε σ β}
    {post : β → φ → σ → Prop} (returned : program.run current = .ok value middle)
    (rest : machine.Tracks (next value) origin middle post) :
    machine.Tracks (program >>= next) origin current post := by
  apply meets_bind.mpr
  unfold Meets
  rw [returned]
  exact rest

theorem Tracks.ok {value : α} (returned : program.run current = .ok value middle)
    (reaches : machine.Reaches origin (phase, middle))
    (holds : post value phase middle) :
    machine.Tracks program origin current post := by
  unfold Tracks Meets
  rw [returned]
  exact ⟨phase, reaches, holds⟩

theorem Tracks.bindError {error : ε} {next : α → EStateM ε σ β}
    {post : β → φ → σ → Prop}
    (failed : program.run current = .error error middle)
    (fault : machine.fault origin error middle) :
    machine.Tracks (program >>= next) origin current post := by
  apply meets_bind.mpr
  unfold Meets
  rw [failed]
  exact ⟨origin, Relation.ReflTransGen.refl, fault⟩

theorem Tracks.error {error : ε}
    (failed : program.run current = .error error middle)
    (fault : machine.fault origin error middle) :
    machine.Tracks program origin current post := by
  unfold Tracks Meets
  rw [failed]
  exact ⟨origin, Relation.ReflTransGen.refl, fault⟩

/-- The machine catches up with the program. -/
theorem Tracks.catchUp (sound : machine.sound origin)
    (reaches : machine.Reaches origin (phase, current))
    (rest : machine.Follows program phase current post) :
    machine.Tracks program origin current post := by
  refine (rest (reaches.sound sound)).mono ?_ ?_
  · rintro value final ⟨last, later, holds⟩
    exact ⟨last, reaches.trans later, holds⟩
  · rintro error final ⟨last, later, fault⟩
    exact ⟨last, reaches.trans later, fault⟩

theorem Tracks.step (sound : machine.sound origin)
    (step : machine.step origin (phase, current))
    (rest : machine.Follows program phase current post) :
    machine.Tracks program origin current post :=
  Tracks.catchUp sound (Relation.ReflTransGen.single step) rest

theorem Follows.ofSound
    (follows : machine.sound (phase, state) →
      machine.Follows program phase state post) :
    machine.Follows program phase state post :=
  fun sound => follows sound sound

/-- A step that changes the phase only. -/
theorem Follows.before
    (step : machine.step (phase, state) (phase', state))
    (rest : machine.Follows program phase' state post) :
    machine.Follows program phase state post :=
  fun sound => Tracks.step sound step rest

theorem Follows.pure {value : α} (holds : post value phase state) :
    machine.Follows (Pure.pure value) phase state post :=
  fun _ => ⟨phase, Relation.ReflTransGen.refl, holds⟩

theorem Follows.throw {error : ε}
    (fault : machine.fault (phase, state) error state) :
    machine.Follows (throw error) phase state post :=
  fun _ => ⟨(phase, state), Relation.ReflTransGen.refl, fault⟩

theorem Follows.throwBind {error : ε} {next : α → EStateM ε σ β}
    {post : β → φ → σ → Prop}
    (fault : machine.fault (phase, state) error state) :
    machine.Follows (MonadExcept.throw error >>= next) phase state post :=
  fun _ => ⟨(phase, state), Relation.ReflTransGen.refl, fault⟩

/-- What holds at the end may use what the run has kept. -/
theorem Follows.mono {post' : α → φ → σ → Prop}
    (follows : machine.Follows program phase state post)
    (weaken : ∀ value last final, machine.sound (last, final) →
      machine.Reaches (phase, state) (last, final) →
      post value last final → post' value last final) :
    machine.Follows program phase state post' := by
  intro sound
  refine (follows sound).mono ?_ fun _ _ failed => failed
  rintro value final ⟨last, reaches, holds⟩
  exact ⟨last, reaches,
    weaken value last final (reaches.sound sound) reaches holds⟩

/-- Steps at the end that change the phase only. -/
theorem Follows.after {post' : α → φ → σ → Prop}
    (follows : machine.Follows program phase state post)
    (finish : ∀ value last final, machine.sound (last, final) →
      post value last final → ∃ last', machine.Reaches (last, final)
        (last', final) ∧ post' value last' final) :
    machine.Follows program phase state post' := by
  intro sound
  refine (follows sound).mono ?_ fun _ _ failed => failed
  rintro value final ⟨last, reaches, holds⟩
  obtain ⟨last', later, finished⟩ :=
    finish value last final (reaches.sound sound) holds
  exact ⟨last', reaches.trans later, finished⟩

theorem Follows.bind {next : α → EStateM ε σ β} {between : α → φ → σ → Prop}
    {post : β → φ → σ → Prop}
    (first : machine.Follows program phase state between)
    (rest : ∀ value last final, between value last final →
      machine.Follows (next value) last final post) :
    machine.Follows (program >>= next) phase state post := by
  intro sound
  refine Meets.bind (first sound) ?_
  rintro value final ⟨last, reaches, holds⟩
  exact Tracks.catchUp sound reaches (rest value last final holds)

theorem Follows.getBind {next : σ → EStateM ε σ β}
    {post : β → φ → σ → Prop}
    (rest : machine.Follows (next state) phase state post) :
    machine.Follows (get >>= next) phase state post :=
  fun sound => Tracks.bindOk rfl (rest sound)

theorem Follows.bindOk {value : α} {next : α → EStateM ε σ β}
    {post : β → φ → σ → Prop} (returned : program.run state = .ok value state)
    (rest : machine.Follows (next value) phase state post) :
    machine.Follows (program >>= next) phase state post :=
  fun sound => Tracks.bindOk returned (rest sound)

theorem Follows.bindStep {value : α} {next : α → EStateM ε σ β}
    {post : β → φ → σ → Prop} (returned : program.run state = .ok value middle)
    (step : machine.step (phase, state) (phase', middle))
    (rest : machine.Follows (next value) phase' middle post) :
    machine.Follows (program >>= next) phase state post :=
  fun sound => Tracks.bindOk returned (Tracks.step sound step rest)

theorem Follows.endStep {value : α}
    (returned : program.run state = .ok value middle)
    (step : machine.step (phase, state) (phase', middle))
    (holds : post value phase' middle) :
    machine.Follows program phase state post :=
  fun _ => Tracks.ok returned (Relation.ReflTransGen.single step) holds

theorem Follows.bindError {error : ε} {next : α → EStateM ε σ β}
    {post : β → φ → σ → Prop}
    (failed : program.run state = .error error middle)
    (fault : machine.fault (phase, state) error middle) :
    machine.Follows (program >>= next) phase state post :=
  fun _ => Tracks.bindError failed fault

/-- The loop rule.  `during` speaks of the elements still to be visited. -/
theorem Follows.forM {items : List α} {body : α → EStateM ε σ PUnit}
    (during : List α → φ → σ → Prop) (start : during items phase state)
    (step : ∀ item rest last final, during (item :: rest) last final →
      machine.Follows (body item) last final fun _ => during rest) :
    machine.Follows (items.forM body) phase state fun _ => during [] := by
  induction items generalizing phase state with
  | nil => exact Follows.pure start
  | cons item rest induction =>
      exact (step item rest phase state start).bind
        fun _ last final kept => induction kept

theorem Follows.foldlM {items : List α} {body : β → α → EStateM ε σ β}
    {accumulator : β} (during : List α → β → φ → σ → Prop)
    (start : during items accumulator phase state)
    (step : ∀ item rest accumulator last final,
      during (item :: rest) accumulator last final →
      machine.Follows (body accumulator item) last final (during rest)) :
    machine.Follows (items.foldlM body accumulator) phase state
      (during []) := by
  induction items generalizing accumulator phase state with
  | nil => exact Follows.pure start
  | cons item rest induction =>
      exact (step item rest accumulator phase state start).bind
        fun _ last final kept => induction kept

/-- A run of a program that follows the machine keeps the invariants of the
machine, on its return and up to the fault that stops it. -/
theorem Follows.meets {invariant : φ × σ → Prop}
    (follows : machine.Follows program phase state post)
    (kept : machine.Invariant invariant) (sound : machine.sound (phase, state))
    (start : invariant (phase, state)) :
    Meets program state
      (fun value final => ∃ last, machine.sound (last, final) ∧
        invariant (last, final) ∧ post value last final)
      (fun error final => ∃ reached, machine.sound reached ∧
        invariant reached ∧ machine.fault reached error final) := by
  refine (follows sound).mono ?_ ?_
  · rintro value final ⟨last, reaches, holds⟩
    exact ⟨last, reaches.sound sound, kept.reaches reaches sound start, holds⟩
  · rintro error final ⟨reached, reaches, fault⟩
    exact ⟨reached, reaches.sound sound, kept.reaches reaches sound start,
      fault⟩

end Rules

end Machine

end SimpleSSD
