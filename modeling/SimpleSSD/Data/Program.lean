import Mathlib.Algebra.Ring.Nat
import Mathlib.Data.List.Basic

namespace SimpleSSD.Program

variable {ε σ α β : Type}

/-! Programs are state transformers that may raise an error and keep the state
they had reached.  `Meets` is the pre- and postcondition judgement for one run:
`post` speaks of a normal return and `raised` of an error. -/

def Meets (program : EStateM ε σ α) (state : σ)
    (post : α → σ → Prop) (raised : ε → σ → Prop) : Prop :=
  match program.run state with
  | .ok value final => post value final
  | .error error final => raised error final

section Rules

variable {program : EStateM ε σ α} {state final : σ}
  {post : α → σ → Prop} {raised : ε → σ → Prop}

theorem Meets.of_ok {value : α} (meets : Meets program state post raised)
    (returned : program.run state = .ok value final) : post value final := by
  unfold Meets at meets
  rw [returned] at meets
  exact meets

theorem Meets.of_error {error : ε} (meets : Meets program state post raised)
    (failed : program.run state = .error error final) : raised error final := by
  unfold Meets at meets
  rw [failed] at meets
  exact meets

theorem meets_of_cases
    (ok : ∀ value final, program.run state = .ok value final → post value final)
    (error : ∀ error final,
      program.run state = .error error final → raised error final) :
    Meets program state post raised := by
  unfold Meets
  cases outcome : program.run state with
  | ok value final => exact ok value final outcome
  | error failure final => exact error failure final outcome

theorem Meets.mono {post' : α → σ → Prop} {raised' : ε → σ → Prop}
    (meets : Meets program state post raised)
    (ok : ∀ value final, post value final → post' value final)
    (error : ∀ error final, raised error final → raised' error final) :
    Meets program state post' raised' :=
  meets_of_cases (fun _ _ returned => ok _ _ (meets.of_ok returned))
    (fun _ _ failed => error _ _ (meets.of_error failed))

theorem Meets.and {post' : α → σ → Prop} {raised' : ε → σ → Prop}
    (left : Meets program state post raised)
    (right : Meets program state post' raised') :
    Meets program state (fun value final => post value final ∧ post' value final)
      (fun error final => raised error final ∧ raised' error final) :=
  meets_of_cases
    (fun _ _ returned => ⟨left.of_ok returned, right.of_ok returned⟩)
    (fun _ _ failed => ⟨left.of_error failed, right.of_error failed⟩)

theorem meets_bind {next : α → EStateM ε σ β} {post : β → σ → Prop} :
    Meets (program >>= next) state post raised ↔
      Meets program state
        (fun value middle => Meets (next value) middle post raised) raised := by
  unfold Meets
  simp only [EStateM.run_bind]
  cases program.run state <;> rfl

theorem run_bind_ok {next : α → EStateM ε σ β} {value : β}
    (returned : (program >>= next).run state = .ok value final) :
    ∃ first middle, program.run state = .ok first middle ∧
      (next first).run middle = .ok value final := by
  rw [EStateM.run_bind] at returned
  cases outcome : program.run state with
  | ok first middle =>
      rw [outcome] at returned
      exact ⟨first, middle, rfl, returned⟩
  | error error stopped =>
      rw [outcome] at returned
      cases returned

theorem Meets.bind {next : α → EStateM ε σ β} {middle : α → σ → Prop}
    {post : β → σ → Prop} (first : Meets program state middle raised)
    (rest : ∀ value reached, middle value reached →
      Meets (next value) reached post raised) :
    Meets (program >>= next) state post raised :=
  meets_bind.mpr (first.mono rest fun _ _ failed => failed)

theorem Meets.bindOk {value : α} {next : α → EStateM ε σ β}
    {post : β → σ → Prop} (returned : program.run state = .ok value final)
    (rest : Meets (next value) final post raised) :
    Meets (program >>= next) state post raised := by
  apply meets_bind.mpr
  unfold Meets
  rw [returned]
  exact rest

theorem Meets.bindError {error : ε} {next : α → EStateM ε σ β}
    {post : β → σ → Prop} (failed : program.run state = .error error final)
    (holds : raised error final) :
    Meets (program >>= next) state post raised := by
  apply meets_bind.mpr
  unfold Meets
  rw [failed]
  exact holds

@[simp] theorem meets_pure {value : α} :
    Meets (pure value) state post raised ↔ post value state := Iff.rfl

@[simp] theorem meets_throw {error : ε} :
    Meets (throw error) state post raised ↔ raised error state := Iff.rfl

@[simp] theorem meets_get {post : σ → σ → Prop} :
    Meets (ε := ε) get state post raised ↔ post state state := Iff.rfl

@[simp] theorem meets_set {updated : σ} {post : PUnit → σ → Prop} :
    Meets (ε := ε) (set updated) state post raised ↔ post ⟨⟩ updated := Iff.rfl

@[simp] theorem meets_modify {update : σ → σ} {post : PUnit → σ → Prop} :
    Meets (ε := ε) (modify update) state post raised ↔
      post ⟨⟩ (update state) := Iff.rfl

/-- The loop rule.  `invariant` speaks of the elements still to be visited. -/
theorem Meets.forM {items : List α} {body : α → EStateM ε σ PUnit}
    {raised : ε → σ → Prop} (invariant : List α → σ → Prop)
    (start : invariant items state)
    (step : ∀ item rest reached, invariant (item :: rest) reached →
      Meets (body item) reached (fun _ => invariant rest) raised) :
    Meets (items.forM body) state (fun _ => invariant []) raised := by
  induction items generalizing state with
  | nil => exact start
  | cons item rest induction =>
      exact (step item rest state start).bind
        fun _ reached kept => induction kept

theorem Meets.foldlM {items : List α} {body : β → α → EStateM ε σ β}
    {accumulator : β} {raised : ε → σ → Prop}
    (invariant : List α → β → σ → Prop)
    (start : invariant items accumulator state)
    (step : ∀ item rest accumulator reached,
      invariant (item :: rest) accumulator reached →
      Meets (body accumulator item) reached (invariant rest) raised) :
    Meets (items.foldlM body accumulator) state (invariant []) raised := by
  induction items generalizing accumulator state with
  | nil => exact start
  | cons item rest induction =>
      exact (step item rest accumulator state start).bind
        fun _ _ kept => induction kept

end Rules

/-! The errors of a program, whatever the state it starts in. -/

def Raises (program : EStateM ε σ α) (errors : List ε) : Prop :=
  ∀ state, Meets program state (fun _ _ => True)
    fun error _ => error ∈ errors

section Raises

variable {errors : List ε} {program : EStateM ε σ α}

theorem Raises.pure (value : α) : Raises (σ := σ) (pure value) errors :=
  fun _ => trivial

theorem Raises.throw {error : ε} (member : error ∈ errors) :
    Raises (σ := σ) (α := α) (throw error) errors :=
  fun _ => member

theorem Raises.throwBind {error : ε} {next : α → EStateM ε σ β}
    (member : error ∈ errors) :
    Raises (MonadExcept.throw error >>= next) errors :=
  fun _ => member

theorem Raises.get : Raises (σ := σ) get errors :=
  fun _ => trivial

theorem Raises.set (updated : σ) : Raises (σ := σ) (set updated) errors :=
  fun _ => trivial

theorem Raises.modify (update : σ → σ) : Raises (σ := σ) (modify update) errors :=
  fun _ => trivial

theorem Raises.bind {next : α → EStateM ε σ β} (first : Raises program errors)
    (rest : ∀ value, Raises (next value) errors) :
    Raises (program >>= next) errors :=
  fun state => (first state).bind fun value reached _ => rest value reached

theorem Raises.forM {items : List α} {body : α → EStateM ε σ PUnit}
    (each : ∀ item ∈ items, Raises (body item) errors) :
    Raises (items.forM body) errors := by
  induction items with
  | nil => exact Raises.pure _
  | cons item rest induction =>
      exact (each item (.head _)).bind
        fun _ => induction fun other member => each other (.tail _ member)

end Raises

/-! What a program keeps on every return, and what is left of it when the program
fails. -/

def Keeps (invariant failed : σ → Prop) (program : EStateM ε σ α) : Prop :=
  ∀ state, invariant state →
    Meets program state (fun _ final => invariant final)
      fun _ stopped => failed stopped

section Keeps

variable {invariant failed : σ → Prop} {program : EStateM ε σ α}

theorem Keeps.pure (value : α) :
    Keeps (ε := ε) invariant failed (pure value) :=
  fun _ holds => holds

theorem Keeps.throw (fails : ∀ state, invariant state → failed state)
    (error : ε) :
    Keeps invariant failed (MonadExcept.throw error : EStateM ε σ α) :=
  fun state holds => fails state holds

theorem Keeps.throwBind (fails : ∀ state, invariant state → failed state)
    {error : ε} {next : α → EStateM ε σ β} :
    Keeps invariant failed (MonadExcept.throw error >>= next) :=
  fun state holds => fails state holds

theorem Keeps.get : Keeps (ε := ε) invariant failed get :=
  fun _ holds => holds

theorem Keeps.modify {update : σ → σ}
    (kept : ∀ state, invariant state → invariant (update state)) :
    Keeps (ε := ε) invariant failed (modify update) :=
  kept

theorem Keeps.bind {next : α → EStateM ε σ β}
    (first : Keeps invariant failed program)
    (rest : ∀ value, Keeps invariant failed (next value)) :
    Keeps invariant failed (program >>= next) :=
  fun state holds => (first state holds).bind fun value => rest value

theorem Keeps.forM {items : List α} {body : α → EStateM ε σ PUnit}
    (each : ∀ item, Keeps invariant failed (body item)) :
    Keeps invariant failed (items.forM body) :=
  fun _ holds => Meets.forM (fun _ => invariant) holds
    fun item _ => each item

theorem Keeps.foldlM {items : List α} {body : β → α → EStateM ε σ β}
    {accumulator : β}
    (each : ∀ accumulator item, Keeps invariant failed (body accumulator item)) :
    Keeps invariant failed (items.foldlM body accumulator) :=
  fun _ holds => Meets.foldlM (fun _ _ => invariant) holds
    fun item _ accumulator => each accumulator item

end Keeps

end SimpleSSD.Program
