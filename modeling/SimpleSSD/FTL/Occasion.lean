import SimpleSSD.FTL.Lifetime

namespace SimpleSSD.FTL

open Machine Program

/-! The occasions on which the operations call a garbage collection.  Each one is
the state that a leading part of an operation ends in. -/

section Fronts

variable (cfg : Config) (env : Environment)

/-- `writeInternal` up to its collection. -/
def placePage (lpn : Nat) (flag : IOFlag) : FTLM Unit := do
  let _ ← openMapping cfg lpn flag
  let target ← getLastFreeBlock cfg flag
  let _ ← findBlock target .noSuchBlock
  programUnits cfg env true target lpn flag

/-- `sepWriteInternal` up to its collections. -/
def sepPlacePage (lpn : Nat) (flag : IOFlag) : FTLM Unit := do
  let last ← openMapping cfg lpn flag
  let curBlockType ← poolTypeOf .cold last
  let target ← if curBlockType = .cold then getLastCoolFreeBlock cfg flag
    else getLastHotFreeBlock cfg flag
  let _ ← findBlock target .noSuchBlock
  programUnits cfg env true target lpn flag

/-- `refresh_event` up to `refreshPage`. -/
def openQueue : FTLM Nat := do
  let state ← get
  if state.refresh.queueCount = 0 then
    throw .divisionByZero
  let target := (state.stat.refreshCallCount + 1) % state.refresh.queueCount
  set { state with refresh := state.refresh.swap target }
  return target

/-- `refresh_event` up to the pop of a layer: `amount` layers were popped. -/
def popLayers (amount : Nat) : FTLM Nat := do
  let target ← openQueue
  refreshGC cfg env
  refreshLayers cfg env target amount
  return target

end Fronts

variable {cfg : Config} {env : Environment} {allow : Allowance}
  {state : State} {mapped : Set (Nat × Nat)}

theorem writeInternal_eq (lpn : Nat) (flag : IOFlag) (sendToPAL : Bool) :
    writeInternal cfg env lpn flag sendToPAL = (do
      placePage cfg env lpn flag
      if ← needsGC env .plain then
        if !sendToPAL then
          throw .gcInInitialization
        plainGC cfg env false) := by
  simp only [writeInternal, placePage, bind_assoc]

theorem sepWriteInternal_eq (lpn : Nat) (flag : IOFlag) (sendToPAL : Bool) :
    sepWriteInternal cfg env lpn flag sendToPAL = (do
      sepPlacePage cfg env lpn flag
      if ← needsGC env .cold then
        if !sendToPAL then
          throw .gcInInitializationByCold
        coldGC cfg env false
      if ← needsGC env .hot then
        if !sendToPAL then
          throw .gcInInitializationByHot
        hotGC cfg env) := by
  simp only [sepWriteInternal, sepPlacePage, bind_assoc]
  refine bind_congr fun last => bind_congr fun curBlockType => ?_
  split <;> simp only [bind_assoc]

theorem refreshEvent_eq :
    refreshEvent cfg env = (do
      let _ ← popLayers cfg env cfg.refreshMaxLayerNum
      refreshGC cfg env
      count fun stat =>
        { stat with refreshCallCount := stat.refreshCallCount + 1 }) := by
  simp only [refreshEvent, popLayers, openQueue, refreshPage, bind_assoc]
  refine bind_congr fun state => ?_
  split <;> simp only [bind_assoc, pure_bind]

/-- A life that returns has returned at every point in between. -/
theorem outcome_append {first second : List Op} {final : State}
    (result : outcome cfg env (first ++ second) = .ok () final) :
    ∃ middle, outcome cfg env first = .ok () middle ∧
      (second.forM (perform cfg env)).run middle = .ok () final := by
  unfold outcome life at result ⊢
  obtain ⟨_, built, builds, performs⟩ := run_bind_ok result
  rw [List.forM_eq_forM, List.forM_append] at performs
  obtain ⟨_, middle, early, late⟩ := run_bind_ok performs
  refine ⟨middle, ?_, late⟩
  rw [EStateM.run_bind, builds]
  exact early

/-! The course of a refresh event. -/

def State.nextQueue (state : State) : Nat :=
  (state.stat.refreshCallCount + 1) % state.refresh.queueCount

def State.swapped (state : State) : State :=
  { state with refresh := state.refresh.swap state.nextQueue }

theorem openQueue_returns {target : Nat} {opened : State}
    (returned : openQueue.run state = .ok target opened) :
    target = state.nextQueue ∧ opened = state.swapped := by
  unfold openQueue at returned
  obtain ⟨_, _, read, returned⟩ := run_bind_ok returned
  cases read
  split at returned
  · cases returned
  · cases returned
    exact ⟨rfl, rfl⟩

theorem refreshLayers_nil {queueNum : Nat}
    (empty : state.refresh.checkedQueues queueNum = []) (amount : Nat) :
    (refreshLayers cfg env queueNum amount).run state = .ok () state := by
  cases amount with
  | zero => rfl
  | succ amount =>
      simp only [refreshLayers, EStateM.run_bind, EStateM.run_get, empty]
      rfl

def popTurn (cfg : Config) (env : Environment) (queueNum layerID : Nat) :
    FTLM Unit := do
  if ← popLayer queueNum layerID then
    copyLayer cfg env layerID

theorem run_refreshLayers_cons {queueNum layerID : Nat} {rest : List Nat}
    (front : state.refresh.checkedQueues queueNum = layerID :: rest)
    (amount : Nat) :
    (refreshLayers cfg env queueNum (amount + 1)).run state = (do
      popTurn cfg env queueNum layerID
      refreshLayers cfg env queueNum amount).run state := by
  simp only [refreshLayers, popTurn, bind_assoc, EStateM.run_bind,
    EStateM.run_get, front]
  cases (popLayer queueNum layerID).run state with
  | error raised stopped => rfl
  | ok taken popped => cases taken <;> rfl

/-- The pop loop may be cut anywhere. -/
theorem refreshLayers_cut {queueNum first second : Nat} {final : State}
    (returned : (refreshLayers cfg env queueNum (first + second)).run state =
      .ok () final) :
    ∃ middle, (refreshLayers cfg env queueNum first).run state =
        .ok () middle ∧
      (refreshLayers cfg env queueNum second).run middle = .ok () final := by
  induction first generalizing state with
  | zero =>
      rw [Nat.zero_add] at returned
      exact ⟨state, rfl, returned⟩
  | succ first induction =>
      rw [Nat.succ_add] at returned
      cases front : state.refresh.checkedQueues queueNum with
      | nil =>
          rw [refreshLayers_nil front] at returned
          cases returned
          exact ⟨_, refreshLayers_nil front _, refreshLayers_nil front _⟩
      | cons layerID rest =>
          rw [run_refreshLayers_cons front] at returned ⊢
          obtain ⟨_, popped, turned, returned⟩ := run_bind_ok returned
          obtain ⟨middle, early, late⟩ := induction returned
          refine ⟨middle, ?_, late⟩
          rw [EStateM.run_bind, turned]
          exact early

theorem popLayers_returns {amount target : Nat} {final : State}
    (returned : (popLayers cfg env amount).run state = .ok target final) :
    target = state.nextQueue ∧ ∃ collected,
      (refreshGC cfg env).run state.swapped = .ok () collected ∧
      (refreshLayers cfg env state.nextQueue amount).run collected =
        .ok () final := by
  unfold popLayers at returned
  obtain ⟨opened, swapped, opens, returned⟩ := run_bind_ok returned
  obtain ⟨same, rfl⟩ := openQueue_returns opens
  subst same
  obtain ⟨_, collected, collects, returned⟩ := run_bind_ok returned
  obtain ⟨_, popped, pops, returned⟩ := run_bind_ok returned
  cases returned
  exact ⟨rfl, collected, collects, pops⟩

/-- An event that pops `amount` layers and more has popped `amount` of them. -/
theorem popLayers_cut {amount more target : Nat} {final : State}
    (returned : (popLayers cfg env (amount + more)).run state =
      .ok target final) :
    ∃ middle, (popLayers cfg env amount).run state =
        .ok state.nextQueue middle ∧
      (refreshLayers cfg env state.nextQueue more).run middle =
        .ok () final := by
  obtain ⟨same, collected, collects, pops⟩ := popLayers_returns returned
  obtain ⟨middle, early, late⟩ := refreshLayers_cut pops
  refine ⟨middle, ?_, late⟩
  unfold popLayers at returned ⊢
  obtain ⟨opened, swapped, opens, _⟩ := run_bind_ok returned
  obtain ⟨rfl, rfl⟩ := openQueue_returns opens
  simp only [EStateM.run_bind, opens, collects, early]
  rfl

theorem refreshEvent_returns {final : State}
    (returned : (refreshEvent cfg env).run state = .ok () final) :
    ∃ popped collected,
      (popLayers cfg env cfg.refreshMaxLayerNum).run state =
        .ok state.nextQueue popped ∧
      (refreshGC cfg env).run popped = .ok () collected ∧
      final = collected.withStat fun stat =>
        { stat with refreshCallCount := stat.refreshCallCount + 1 } := by
  rw [refreshEvent_eq] at returned
  obtain ⟨target, popped, pops, returned⟩ := run_bind_ok returned
  obtain ⟨_, collected, collects, returned⟩ := run_bind_ok returned
  obtain ⟨rfl, _⟩ := popLayers_returns pops
  cases returned
  exact ⟨popped, collected, pops, collects, rfl⟩

/-- From a state between operations, a state between operations or one in which
an operation has come to call a collection. -/
inductive Collecting (cfg : Config) (env : Environment) (state : State) :
    State → Prop
  | between : Collecting cfg env state state
  | write (lpn : Nat) (flag : IOFlag) (plain : cfg.hotColdSeparation = false)
      (ends : (placePage cfg env lpn flag).run state = .ok () called) :
      Collecting cfg env state called
  | sepWrite (lpn : Nat) (flag : IOFlag)
      (separated : cfg.hotColdSeparation = true)
      (ends : (sepPlacePage cfg env lpn flag).run state = .ok () called) :
      Collecting cfg env state called
  | sepWriteHot (lpn : Nat) (flag : IOFlag)
      (separated : cfg.hotColdSeparation = true)
      (ends : (do
        sepPlacePage cfg env lpn flag
        coldGC cfg env false).run state = .ok () called) :
      Collecting cfg env state called
  | refresh (ends : openQueue.run state = .ok target called) :
      Collecting cfg env state called
  | refreshed
      (ends : (popLayers cfg env cfg.refreshMaxLayerNum).run state =
        .ok target called) : Collecting cfg env state called

theorem programOnly_follows (pool : ActivePool) (lpn : Nat) (flag : IOFlag)
    (used : Usable cfg allow pool) :
    (machine cfg env allow).Follows
      (do
        let target ← getLastBlock cfg pool flag
        let _ ← findBlock target .noSuchBlock
        programUnits cfg env true target lpn flag)
      (.waiting mapped (touchedUnits cfg lpn flag)) state
      fun _ last _ => last = .rest (mapped ∪ touchedUnits cfg lpn flag) := by
  have follows : (machine cfg env allow).Follows
      (do
        let target ← getLastBlock cfg pool flag
        let _ ← findBlock target .noSuchBlock
        programUnits cfg env true target lpn flag
        pure ()) (.waiting mapped (touchedUnits cfg lpn flag)) state
      fun _ last _ => last = .rest (mapped ∪ touchedUnits cfg lpn flag) :=
    programPage_follows true pool lpn flag (by simp) used
      fun _ => Follows.pure rfl
  simpa only [bind_pure_unit] using follows

theorem placePage_follows (lpn : Nat) (flag : IOFlag)
    (plain : cfg.hotColdSeparation = false) :
    (machine cfg env allow).Follows (placePage cfg env lpn flag)
      (.rest mapped) state
      fun _ last _ => last = .rest (mapped ∪ touchedUnits cfg lpn flag) := by
  unfold placePage
  refine Follows.bind (openMapping_follows lpn flag) ?_
  rintro old _ opened ⟨rfl, _⟩
  exact programOnly_follows .plain lpn flag (plain_usable (.inl plain))

theorem sepPlacePage_follows (lpn : Nat) (flag : IOFlag)
    (separated : cfg.hotColdSeparation = true) (allowed : allow.policy) :
    (machine cfg env allow).Follows (sepPlacePage cfg env lpn flag)
      (.rest mapped) state
      fun _ last _ => last = .rest (mapped ∪ touchedUnits cfg lpn flag) := by
  unfold sepPlacePage
  refine Follows.bind (openMapping_follows lpn flag) ?_
  rintro old _ opened ⟨rfl, inUse⟩
  refine Follows.bind (poolTypeOf_follows .cold allowed inUse) ?_
  rintro curBlockType _ _ ⟨rfl, rfl⟩
  dsimp only
  split
  · exact programOnly_follows .cool lpn flag
      (separated_usable separated (by simp))
  · exact programOnly_follows .hot lpn flag
      (separated_usable separated (by simp))

theorem openQueue_follows (allowed : allow.policy)
    (refreshes : allow.refreshing) :
    (machine cfg env allow).Follows openQueue (.rest mapped) state
      fun _ last _ => last = .rest mapped := by
  unfold openQueue
  apply Follows.getBind
  split
  · exact Follows.throwBind ⟨SameHistory.refl _, .refused allowed (by decide)⟩
  · exact Follows.bindStep rfl (.swap refreshes _) (Follows.pure rfl)

theorem popLayers_follows (amount : Nat) (allowed : allow.policy)
    (refreshes : allow.refreshing) :
    (machine cfg env allow).Follows (popLayers cfg env amount) (.rest mapped)
      state fun _ last _ => last = .rest mapped := by
  unfold popLayers
  refine Follows.bind (openQueue_follows allowed refreshes) ?_
  rintro target _ opened rfl
  refine Follows.bind (refreshGC_follows allowed) ?_
  rintro _ _ collected rfl
  refine Follows.bind (refreshLayers_follows target amount allowed
    refreshes) ?_
  rintro _ _ popped rfl
  exact Follows.pure rfl

/-- Where a collection is called the FTL is at rest, and the invariants of the
machine hold. -/
theorem Collecting.meets {called : State}
    (calls : Collecting cfg env state called)
    (allowed : allow.policy) (refreshes : allow.refreshing)
    {invariant : Phase × State → Prop}
    (kept : (machine cfg env allow).Invariant invariant)
    (sound : (machine cfg env allow).sound (.rest mapped, state))
    (start : invariant (.rest mapped, state)) :
    ∃ mapped', (machine cfg env allow).sound (.rest mapped', called) ∧
      invariant (.rest mapped', called) := by
  have ended : ∀ {α : Type} {program : FTLM α} {value : α}
      {mapped' : Set (Nat × Nat)},
      (machine cfg env allow).Follows program (.rest mapped) state
        (fun _ last _ => last = .rest mapped') →
      program.run state = .ok value called →
      ∃ mapped', (machine cfg env allow).sound (.rest mapped', called) ∧
        invariant (.rest mapped', called) := by
    intro α program value mapped' follows returned
    obtain ⟨last, sound', holds, same⟩ :=
      (follows.meets kept sound start).of_ok returned
    subst same
    exact ⟨mapped', sound', holds⟩
  cases calls with
  | between => exact ⟨mapped, sound, start⟩
  | write lpn flag plain ends =>
      exact ended (placePage_follows lpn flag plain) ends
  | sepWrite lpn flag separated ends =>
      exact ended (sepPlacePage_follows lpn flag separated allowed) ends
  | sepWriteHot lpn flag separated ends =>
      have follows : (machine cfg env allow).Follows
          (do
            sepPlacePage cfg env lpn flag
            coldGC cfg env false) (.rest mapped) state fun _ last _ =>
            last = .rest (mapped ∪ touchedUnits cfg lpn flag) := by
        refine Follows.bind
          (sepPlacePage_follows lpn flag separated allowed) ?_
        rintro _ _ placed rfl
        exact coldGC_follows false separated allowed
      exact ended follows ends
  | refresh ends => exact ended (openQueue_follows allowed refreshes) ends
  | refreshed ends =>
      exact ended (popLayers_follows _ allowed refreshes) ends

end SimpleSSD.FTL
