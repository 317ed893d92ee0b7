namespace SimpleSSD.Data

/-! What a computation that may fail returns, and what it fails with. -/

/-- `post` speaks of the value and `raised` of the error. -/
def Returns (post : α → Prop) (raised : ε → Prop) : Except ε α → Prop
  | .ok value => post value
  | .error failure => raised failure

instance {post : α → Prop} {raised : ε → Prop} [DecidablePred post]
    [DecidablePred raised] : DecidablePred (Returns post raised)
  | .ok value => inferInstanceAs (Decidable (post value))
  | .error failure => inferInstanceAs (Decidable (raised failure))

section

variable {post : α → Prop} {raised : ε → Prop}

theorem Returns.of_ok {result : Except ε α} {value : α}
    (h : Returns post raised result) (hvalue : result = .ok value) :
    post value := by
  rw [hvalue] at h
  exact h

theorem Returns.of_error {result : Except ε α} {failure : ε}
    (h : Returns post raised result) (hfailure : result = .error failure) :
    raised failure := by
  rw [hfailure] at h
  exact h

theorem Returns.mono {post' : α → Prop} {raised' : ε → Prop}
    {result : Except ε α} (h : Returns post raised result)
    (hpost : ∀ value, post value → post' value)
    (hraised : ∀ failure, raised failure → raised' failure) :
    Returns post' raised' result := by
  cases result with
  | ok value => exact hpost value h
  | error failure => exact hraised failure h

theorem Returns.and {post' : α → Prop} {raised' : ε → Prop}
    {result : Except ε α} (h : Returns post raised result)
    (h' : Returns post' raised' result) :
    Returns (fun value => post value ∧ post' value) raised result := by
  cases result with
  | ok value => exact ⟨h, h'⟩
  | error failure => exact h

theorem Returns.pure {value : α} (h : post value) :
    Returns post raised (Pure.pure value : Except ε α) := h

theorem Returns.map {action : Except ε α} {f : α → β} {result : β → Prop}
    (h : Returns post raised action)
    (hresult : ∀ value, post value → result (f value)) :
    Returns result raised (action.map f) := by
  cases action with
  | ok value => exact hresult value h
  | error failure => exact h

theorem Returns.bind {action : Except ε α} {rest : α → Except ε β}
    {result : β → Prop} (h : Returns post raised action)
    (hrest : ∀ value, post value → Returns result raised (rest value)) :
    Returns result raised (action >>= rest) := by
  cases action with
  | ok value => exact hrest value h
  | error failure => exact h

theorem bind_ok {action : Except ε α} {rest : α → Except ε β} {result : β}
    (h : action >>= rest = .ok result) :
    ∃ value, action = .ok value ∧ rest value = .ok result := by
  cases action with
  | error failure => cases h
  | ok value => exact ⟨value, rfl, h⟩

theorem toOption_ok {action : Except ε α} {value : α}
    (h : action.toOption = some value) : action = .ok value := by
  cases action with
  | error failure => cases h
  | ok result => exact congrArg Except.ok (Option.some.inj h)

end

/-! Runs of steps that may fail. -/

section Runs

variable {perform : σ → ι → Except ε σ}

/-- Every step of a run is taken from a state that allows it. -/
def Along (perform : σ → ι → Except ε σ) (allowed : σ → ι → Prop) :
    σ → List ι → Prop
  | _, [] => True
  | state, step :: steps => allowed state step ∧
      Returns (fun after => Along perform allowed after steps) (fun _ => True)
        (perform state step)

instance Along.decidable (perform : σ → ι → Except ε σ)
    (allowed : σ → ι → Prop) [∀ state step, Decidable (allowed state step)] :
    (state : σ) → (steps : List ι) →
      Decidable (Along perform allowed state steps)
  | _, [] => inferInstanceAs (Decidable True)
  | _, _ :: steps =>
      have (after : σ) : Decidable (Along perform allowed after steps) :=
        Along.decidable perform allowed after steps
      inferInstanceAs (Decidable (_ ∧ Returns _ _ _))

/-- What the allowed steps keep holds in the state a run ends in. -/
theorem Along.returns {allowed : σ → ι → Prop} {inv : σ → Prop}
    {raised : ε → Prop} (hstep : ∀ state step, inv state →
      allowed state step → Returns inv raised (perform state step))
    {state : σ} {steps : List ι} (hinv : inv state)
    (hrun : Along perform allowed state steps) :
    Returns inv raised (steps.foldlM perform state) := by
  induction steps generalizing state with
  | nil => exact hinv
  | cons step steps ih =>
      obtain ⟨hallowed, hrest⟩ := hrun
      have hafter := hstep state step hinv hallowed
      rw [List.foldlM_cons]
      cases hperform : perform state step with
      | error failure => exact hafter.of_error hperform
      | ok after =>
          exact ih (hafter.of_ok hperform) (hrest.of_ok hperform)

/-- Where only a step that is not allowed can fail, an allowed run does not. -/
theorem Returns.foldlM {allowed : σ → ι → Prop} {inv : σ → Prop}
    (hstep : ∀ state step, inv state →
      Returns inv (fun _ => ¬ allowed state step) (perform state step))
    {state : σ} (hinv : inv state) (steps : List ι) :
    Returns inv (fun _ => ¬ Along perform allowed state steps)
      (steps.foldlM perform state) := by
  induction steps generalizing state with
  | nil => exact hinv
  | cons step steps ih =>
      have hafter := hstep state step hinv
      rw [List.foldlM_cons]
      cases hperform : perform state step with
      | error failure =>
          exact fun hrun => hafter.of_error hperform hrun.1
      | ok after =>
          refine (ih (hafter.of_ok hperform)).mono (fun _ hpost => hpost) ?_
          exact fun _ hfails hrun => hfails (hrun.2.of_ok hperform)

theorem Returns.foldlM_range {step : σ → Nat → Except ε σ}
    {inv : Nat → σ → Prop} {raised : ε → Prop} {count : Nat} {state : σ}
    (hstep : ∀ i < count, ∀ state, inv i state →
      Returns (inv (i + 1)) raised (step state i))
    (hinv : inv 0 state) :
    Returns (inv count) raised ((List.range count).foldlM step state) := by
  induction count with
  | zero => exact hinv
  | succ count ih =>
      rw [List.range_succ, List.foldlM_append]
      refine (ih fun i hi => hstep i (by omega)).bind fun reached h => ?_
      have hlast := hstep count (by omega) reached h
      rw [List.foldlM_cons]
      exact hlast.bind fun last hafter => hafter

theorem Along.always (perform : σ → ι → Except ε σ) (state : σ)
    (steps : List ι) : Along perform (fun _ _ => True) state steps := by
  induction steps generalizing state with
  | nil => trivial
  | cons step steps ih =>
      refine ⟨trivial, ?_⟩
      cases perform state step with
      | error failure => trivial
      | ok after => exact ih after

end Runs

end SimpleSSD.Data
