import SimpleSSD.FTL.Trimming

namespace SimpleSSD.FTL

open Program

/-! The block whose type decides the pool of a separated write. -/

/-- The iterator `block` names a block in use that held data of the page, and
its type is what both write functions go on with. -/
def ChoosesPool (cfg : Config) (lpn : Nat) (flag : IOFlag) (state : State) :
    Prop :=
  ∃ blockIndex opened block,
    (openMapping cfg lpn flag).run state =
      .ok (some (some blockIndex)) opened ∧
    opened.blocks.lookup blockIndex = some block ∧
    (∀ fresh, (poolTypeOf fresh (some (some blockIndex))).run opened =
      .ok block.blockType opened) ∧
    ∃ page unit, state.Stores blockIndex page unit lpn

def Rewrites (cfg : Config) (flag : IOFlag) (mapping : Mapping)
    (unit : Nat) : Prop :=
  touches cfg flag unit = true ∧ IsLocation cfg (mapping unit)

section Invalidation

variable {cfg : Config} {state updated : State} {mapped : Set (Nat × Nat)}
  {lpn : Nat} {flag : IOFlag} {mapping : Mapping}

theorem Cleared.inUse {units : Nat → Nat → Nat → Prop}
    (cleared : Cleared units state updated) {blockIndex : Nat}
    (used : state.InUse blockIndex) : updated.InUse blockIndex := by
  obtain ⟨block, found⟩ := used
  obtain ⟨validBits, found', _⟩ := cleared.version blockIndex block found
  exact ⟨_, found'⟩

/-- The iterator is assigned for every unit that is visited and mapped. -/
theorem invalidateOld_meets (pools : Pools cfg state)
    (maps : Maps cfg (.rest mapped) state)
    (found : state.table.lookup lpn = some mapping) :
    Meets (invalidateOld cfg mapping flag) state
      (fun last final =>
        (∀ blockIndex, last = some blockIndex → final.InUse blockIndex ∧
          (∃ page unit, state.Stores blockIndex page unit lpn) ∧
          ∃ unit < cfg.bitsetSize, Rewrites cfg flag mapping unit) ∧
        (last = none → ∀ unit < cfg.bitsetSize,
          ¬ Rewrites cfg flag mapping unit))
      fun _ _ => False := by
  unfold invalidateOld
  refine (Meets.foldlM (fun remaining last reached =>
      (∀ unit ∈ remaining, unit < cfg.bitsetSize) ∧
      (∃ units, Cleared units state reached) ∧
      (∀ blockIndex, last = some blockIndex →
        (∃ page unit, state.Stores blockIndex page unit lpn) ∧
        ∃ unit < cfg.bitsetSize, Rewrites cfg flag mapping unit) ∧
      (last = none → ∀ unit < cfg.bitsetSize, unit ∈ remaining ∨
        ¬ Rewrites cfg flag mapping unit))
    ?_ ?_).mono ?_ fun _ _ impossible => impossible
  · refine ⟨fun _ => List.mem_range.mp, ⟨_, .refl state⟩, ?_,
      fun _ unit inside => .inl (List.mem_range.mpr inside)⟩
    intro blockIndex same
    cases same
  · intro unit rest last reached kept
    obtain ⟨inside, cleared, held, missed⟩ := kept
    have later : ∀ other ∈ rest, other < cfg.bitsetSize :=
      fun other member => inside other (.tail _ member)
    have skipped : ¬ Rewrites cfg flag mapping unit → last = none →
        ∀ other < cfg.bitsetSize, other ∈ rest ∨
          ¬ Rewrites cfg flag mapping other := by
      intro left none other within
      rcases missed none other within with member | past
      · rcases List.mem_cons.mp member with here | member
        · exact .inr (here ▸ left)
        · exact .inl member
      · exact .inr past
    dsimp only
    split
    · next touched =>
        split
        · next located =>
            have bound := inside unit (.head _)
            have stores := maps.backed lpn mapping found unit bound located
              fun waits => waits
            obtain ⟨units, cleared⟩ := cleared
            obtain ⟨block, lookup, within⟩ := (cleared.reachable _).mpr
              ((reachable_iff pools maps found bound).mpr located)
            refine Meets.bindOk (run_invalidateUnit lookup within) ?_
            refine ⟨later, ⟨_, cleared.clear lookup⟩, ?_, ?_⟩
            · intro blockIndex same
              cases same
              exact ⟨⟨_, _, stores⟩, unit, bound, touched, located⟩
            · intro none
              cases none
        · next nowhere =>
            exact ⟨later, cleared, held,
              skipped fun rewrites => nowhere rewrites.2⟩
    · next untouched =>
        exact ⟨later, cleared, held,
          skipped fun rewrites => untouched rewrites.1⟩
  · intro last final kept
    obtain ⟨_, ⟨units, cleared⟩, held, missed⟩ := kept
    refine ⟨?_, ?_⟩
    · intro blockIndex same
      obtain ⟨⟨page, unit, stores⟩, rewrites⟩ := held blockIndex same
      have used : state.InUse blockIndex := stores.imp fun _ => And.left
      exact ⟨cleared.inUse used, ⟨page, unit, stores⟩, rewrites⟩
    · intro none unit inside
      exact (missed none unit inside).resolve_left List.not_mem_nil

theorem choosesPool_iff (pools : Pools cfg state)
    (maps : Maps cfg (.rest mapped) state)
    (found : state.table.lookup lpn = some mapping) :
    ChoosesPool cfg lpn flag state ↔
      ∃ unit < cfg.bitsetSize, Rewrites cfg flag mapping unit := by
  have meets : Meets (invalidateOld cfg mapping flag) state _ _ :=
    invalidateOld_meets pools maps found
  have opening : (openMapping cfg lpn flag).run state =
      (some <$> invalidateOld cfg mapping flag).run state := by
    unfold openMapping
    rw [EStateM.run_bind, EStateM.run_get]
    dsimp only
    rw [found]
  cases run : (invalidateOld cfg mapping flag).run state with
  | error raised stopped => exact (meets.of_error run).elim
  | ok last opened =>
      have result : (openMapping cfg lpn flag).run state =
          .ok (some last) opened := by
        rw [opening, map_eq_pure_bind, EStateM.run_bind, run]
        rfl
      obtain ⟨assigned, unassigned⟩ := meets.of_ok run
      cases last with
      | none =>
          refine iff_of_false ?_ ?_
          · intro chooses
            obtain ⟨blockIndex, reached, _, opens, _⟩ := chooses
            rw [result] at opens
            cases opens
          · intro rewrites
            obtain ⟨unit, inside, visited⟩ := rewrites
            exact unassigned rfl unit inside visited
      | some blockIndex =>
          obtain ⟨⟨block, lookup⟩, held, rewrites⟩ := assigned blockIndex rfl
          refine iff_of_true ⟨blockIndex, opened, block, result, lookup, ?_,
            held⟩ rewrites
          intro fresh
          unfold poolTypeOf
          dsimp only
          rw [EStateM.run_bind, run_blockAt lookup]
          rfl

end Invalidation

/-- The pool of a write to a mapped page is chosen by a block that held its data
if and only if some requested unit is mapped or requests touch whole pages. -/
theorem pool_choice (cfg : Config) (env : Environment) (ops : List Op)
    (state : State) (result : outcome cfg env ops = .ok () state)
    (lpn : Nat) (mapping : Mapping)
    (found : state.table.lookup lpn = some mapping) (flag : IOFlag) :
    ChoosesPool cfg lpn flag state ↔
      cfg.bRandomTweak = false ∨ ∃ unit < cfg.ioUnitInPage,
        flag unit = true ∧ IsLocation cfg (mapping unit) := by
  obtain ⟨pools, maps⟩ := (outcome_meets cfg env ops).of_ok result
  rw [choosesPool_iff pools maps found]
  cases tweak : cfg.bRandomTweak with
  | false =>
      have one : 0 < cfg.bitsetSize := by simp [Config.bitsetSize, tweak]
      have located := (maps.whole tweak lpn mapping found 0 one).resolve_right
        fun waits => waits
      exact iff_of_true ⟨0, one, by simp [touches, tweak], located⟩ (.inl rfl)
  | true =>
      have size : cfg.bitsetSize = cfg.ioUnitInPage := by
        simp [Config.bitsetSize, tweak]
      have same : ∀ unit, Rewrites cfg flag mapping unit ↔
          flag unit = true ∧ IsLocation cfg (mapping unit) := by
        intro unit
        simp [Rewrites, touches, tweak]
      simp only [size, same, Bool.true_eq_false, false_or]

/-! Pages of two units in separated pools. -/

def separatedTweak : Config :=
  { separatedConfig with
    ioUnitInPage := 2
    ioUnitInPage_pos := Nat.two_pos
    pageCountToMaxPerf_pos := Nat.one_pos
    hotBlocksLimit_le := Nat.le_of_ble_eq_true rfl
    bRandomTweak := true
    refreshMode := 4 }

/-- The second write requests the unit that the first one wrote. -/
theorem pool_choice_rewritten :
    ∃ state mapping, outcome separatedTweak sampleEnvironment
        [.initializeFTL, writeUnits 0 [0]] = .ok () state ∧
      state.table.lookup 0 = some mapping ∧
      ChoosesPool separatedTweak 0 (fun unit => [0].contains unit) state := by
  have evaluated : returns (outcome separatedTweak sampleEnvironment
      [.initializeFTL, writeUnits 0 [0]]) (fun state =>
        (state.table.lookup 0).any fun mapping =>
          decide (IsLocation separatedTweak (mapping 0))) = true := by
    decide +kernel
  obtain ⟨state, result, test⟩ := returns_iff.mp evaluated
  obtain ⟨mapping, found, located⟩ := (Option.any_eq_true _ _).mp test
  exact ⟨state, mapping, result, found, (pool_choice separatedTweak
    sampleEnvironment _ state result 0 mapping found _).mpr
      (.inr ⟨0, Nat.two_pos, rfl, of_decide_eq_true located⟩)⟩

/-- Whether the iterator is left uninitialised. -/
def leavesIterator (cfg : Config) (lpn : Nat) (flag : IOFlag)
    (state : State) : Bool :=
  match (openMapping cfg lpn flag).run state with
  | .ok (some none) _ => true
  | _ => false

/-- The second write requests the unit that is not mapped yet. -/
theorem pool_choice_uninitialised :
    (∃ state mapping, outcome separatedTweak sampleEnvironment
        [.initializeFTL, writeUnits 0 [0]] = .ok () state ∧
      state.table.lookup 0 = some mapping ∧
      ¬ ChoosesPool separatedTweak 0 (fun unit => [1].contains unit) state) ∧
      stops (outcome separatedTweak sampleEnvironment
        [.initializeFTL, writeUnits 0 [0], writeUnits 0 [1]]) =
          some .invalidIterator := by
  have evaluated : returns (outcome separatedTweak sampleEnvironment
      [.initializeFTL, writeUnits 0 [0]]) (fun state =>
        (state.table.lookup 0).isSome &&
          leavesIterator separatedTweak 0 (fun unit => [1].contains unit)
            state) = true := by
    decide +kernel
  refine ⟨?_, by decide +kernel⟩
  obtain ⟨state, result, test⟩ := returns_iff.mp evaluated
  obtain ⟨present, uninitialised⟩ := (Bool.and_eq_true _ _).mp test
  obtain ⟨mapping, found⟩ := Option.isSome_iff_exists.mp present
  refine ⟨state, mapping, result, found, ?_⟩
  intro chooses
  obtain ⟨blockIndex, opened, _, opens, _⟩ := chooses
  unfold leavesIterator at uninitialised
  rw [opens] at uninitialised
  cases uninitialised

end SimpleSSD.FTL
