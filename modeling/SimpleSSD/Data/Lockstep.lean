import SimpleSSD.Data.Program

namespace SimpleSSD.Program

variable {ε σ α β : Type}

/-! Two runs of programs that return the same values, raise the same errors and
keep their states related. -/

def Lockstep (related : σ → σ → Prop) (left right : EStateM ε σ α)
    (first second : σ) : Prop :=
  match left.run first, right.run second with
  | .ok value final, .ok other reached => value = other ∧ related final reached
  | .error error final, .error other reached =>
      error = other ∧ related final reached
  | _, _ => False

def Uniform (related : σ → σ → Prop) (program : EStateM ε σ α) : Prop :=
  ∀ first second, related first second →
    Lockstep related program program first second

section Lockstep

variable {related : σ → σ → Prop} {left right : EStateM ε σ α}
  {first second : σ}

theorem Lockstep.of_ok {value : α} {final : σ}
    (lockstep : Lockstep related left right first second)
    (returned : left.run first = .ok value final) :
    ∃ reached, right.run second = .ok value reached ∧
      related final reached := by
  unfold Lockstep at lockstep
  rw [returned] at lockstep
  cases ran : right.run second with
  | error error stopped =>
      rw [ran] at lockstep
      exact lockstep.elim
  | ok other reached =>
      rw [ran] at lockstep
      obtain ⟨rfl, kept⟩ := lockstep
      exact ⟨reached, rfl, kept⟩

theorem Lockstep.mono {related' : σ → σ → Prop}
    (lockstep : Lockstep related left right first second)
    (weaker : ∀ first second, related first second → related' first second) :
    Lockstep related' left right first second := by
  unfold Lockstep at lockstep ⊢
  cases ran : left.run first <;> cases ran' : right.run second <;>
    rw [ran, ran'] at lockstep
  · exact ⟨lockstep.1, weaker _ _ lockstep.2⟩
  · exact lockstep.elim
  · exact lockstep.elim
  · exact ⟨lockstep.1, weaker _ _ lockstep.2⟩

theorem Lockstep.bind {next next' : α → EStateM ε σ β}
    (begins : Lockstep related left right first second)
    (rest : ∀ value reached reached', related reached reached' →
      Lockstep related (next value) (next' value) reached reached') :
    Lockstep related (left >>= next) (right >>= next') first second := by
  unfold Lockstep at begins
  unfold Lockstep
  rw [EStateM.run_bind, EStateM.run_bind]
  cases ran : left.run first <;> cases ran' : right.run second <;>
    rw [ran, ran'] at begins
  · obtain ⟨rfl, kept⟩ := begins
    exact rest _ _ _ kept
  · exact begins.elim
  · exact begins.elim
  · exact begins

theorem Lockstep.bindOk {value value' : α} {next next' : α → EStateM ε σ β}
    {reached reached' : σ} (ran : left.run first = .ok value reached)
    (ran' : right.run second = .ok value' reached')
    (rest : Lockstep related (next value) (next' value') reached reached') :
    Lockstep related (left >>= next) (right >>= next') first second := by
  unfold Lockstep
  rw [EStateM.run_bind, EStateM.run_bind, ran, ran']
  exact rest

theorem Lockstep.bindError {error : ε} {next next' : α → EStateM ε σ β}
    {stopped stopped' : σ} (failed : left.run first = .error error stopped)
    (failed' : right.run second = .error error stopped')
    (kept : related stopped stopped') :
    Lockstep related (left >>= next) (right >>= next') first second := by
  unfold Lockstep
  rw [EStateM.run_bind, EStateM.run_bind, failed, failed']
  exact ⟨rfl, kept⟩

end Lockstep

namespace Uniform

variable {related : σ → σ → Prop} {program : EStateM ε σ α}

theorem pure (value : α) : Uniform (ε := ε) related (pure value) :=
  fun _ _ alike => ⟨rfl, alike⟩

theorem throw (error : ε) :
    Uniform related (MonadExcept.throw error : EStateM ε σ α) :=
  fun _ _ alike => ⟨rfl, alike⟩

theorem throwBind {error : ε} {next : α → EStateM ε σ β} :
    Uniform related (MonadExcept.throw error >>= next) :=
  fun _ _ alike => ⟨rfl, alike⟩

theorem modify {update : σ → σ}
    (kept : ∀ first second, related first second →
      related (update first) (update second)) :
    Uniform (ε := ε) related (modify update) :=
  fun _ _ alike => ⟨rfl, kept _ _ alike⟩

theorem bind {next : α → EStateM ε σ β} (begins : Uniform related program)
    (rest : ∀ value, Uniform related (next value)) :
    Uniform related (program >>= next) :=
  fun first second alike =>
    (begins first second alike).bind fun value => rest value

theorem map (begins : Uniform related program) (convert : α → β) :
    Uniform related (convert <$> program) := by
  rw [map_eq_pure_bind]
  exact begins.bind fun _ => Uniform.pure _

theorem getBind {next : σ → EStateM ε σ β}
    (rest : ∀ first second, related first second →
      Lockstep related (next first) (next second) first second) :
    Uniform related (get >>= next) :=
  fun first second alike => Lockstep.bindOk rfl rfl (rest first second alike)

theorem forM {items : List α} {body : α → EStateM ε σ PUnit}
    (each : ∀ item, Uniform related (body item)) :
    Uniform related (items.forM body) := by
  induction items with
  | nil => exact Uniform.pure _
  | cons item rest induction =>
      exact (each item).bind fun _ => induction

theorem foldlM {items : List α} {body : β → α → EStateM ε σ β}
    {accumulator : β}
    (each : ∀ accumulator item, Uniform related (body accumulator item)) :
    Uniform related (items.foldlM body accumulator) := by
  induction items generalizing accumulator with
  | nil => exact Uniform.pure _
  | cons item rest induction =>
      exact (each accumulator item).bind fun _ => induction

end Uniform

end SimpleSSD.Program
