import SimpleSSD.FTL.Consistency

namespace SimpleSSD.FTL

open Program

/-! Trimming a logical page: what a trim does when it returns, and when it
returns. -/

/-- Units of blocks in use have become invalid, and nothing else has changed. -/
structure Cleared (units : Nat → Nat → Nat → Prop) (before after : State) :
    Prop where
  rest_eq : after = { before with blocks := after.blocks }
  absent : ∀ blockIndex, before.blocks.lookup blockIndex = none →
    after.blocks.lookup blockIndex = none
  version : ∀ blockIndex block,
    before.blocks.lookup blockIndex = some block → ∃ validBits,
      after.blocks.lookup blockIndex =
        some { block with validBits := validBits } ∧
      ∀ page unit, validBits page unit = true ↔
        block.validBits page unit = true ∧ ¬ units blockIndex page unit

/-- A unit that `Block::invalidate` can be called on. -/
def State.Reachable (state : State) (location : Nat × Nat) : Prop :=
  ∃ block, state.blocks.lookup location.1 = some block ∧
    location.2 < block.pageCount

/-- The physical units that the entries of a logical page point to. -/
def Points (cfg : Config) (state : State) (lpn blockIndex page unit : Nat) :
    Prop :=
  ∃ mapping, state.table.lookup lpn = some mapping ∧ unit < cfg.bitsetSize ∧
    mapping unit = (blockIndex, page)

structure Trimmed (cfg : Config) (lpn : Nat) (before after : State) :
    Prop where
  table_eq : after.table = before.table.erase lpn
  valid : ∀ blockIndex page unit, Points cfg before lpn blockIndex page unit →
    before.Stores blockIndex page unit lpn
  cleared : Cleared (Points cfg before lpn) before
    { after with table := before.table }

section Loop

variable {cfg : Config} {state updated : State}

theorem Cleared.refl (state : State) :
    Cleared (fun _ _ _ => False) state state where
  rest_eq := rfl
  absent := fun _ absent => absent
  version := fun _ block found => ⟨block.validBits, found, by simp⟩

theorem Cleared.congr {units units' : Nat → Nat → Nat → Prop}
    (cleared : Cleared units state updated)
    (same : ∀ blockIndex page unit,
      units' blockIndex page unit ↔ units blockIndex page unit) :
    Cleared units' state updated where
  rest_eq := cleared.rest_eq
  absent := cleared.absent
  version := by
    intro blockIndex block found
    obtain ⟨validBits, found', valid⟩ := cleared.version blockIndex block found
    refine ⟨validBits, found', ?_⟩
    intro page unit
    rw [valid, same]

theorem Cleared.reachable {units : Nat → Nat → Nat → Prop}
    (cleared : Cleared units state updated) (location : Nat × Nat) :
    updated.Reachable location ↔ state.Reachable location := by
  constructor
  · intro reachable
    obtain ⟨version, found, inside⟩ := reachable
    cases lookup : state.blocks.lookup location.1 with
    | none =>
        rw [cleared.absent _ lookup] at found
        cases found
    | some block =>
        obtain ⟨_, found', _⟩ := cleared.version _ block lookup
        rw [found'] at found
        cases found
        exact ⟨block, lookup, inside⟩
  · intro reachable
    obtain ⟨block, found, inside⟩ := reachable
    obtain ⟨_, found', _⟩ := cleared.version _ block found
    exact ⟨_, found', inside⟩

theorem Cleared.clear {units : Nat → Nat → Nat → Prop}
    (cleared : Cleared units state updated) {blockIndex page unit : Nat}
    {block : Block} (found : updated.blocks.lookup blockIndex = some block) :
    Cleared (fun other page' unit' => units other page' unit' ∨
        (other = blockIndex ∧ page' = page ∧ unit' = unit)) state
      (updated.setBlock blockIndex { block with
        validBits := Block.setBit block.validBits page unit false }) where
  rest_eq := by
    rw [cleared.rest_eq]
    rfl
  absent := by
    intro other absent
    rw [State.lookup_setBlock]
    split
    · next same =>
        rw [same] at absent
        rw [cleared.absent _ absent] at found
        cases found
    · exact cleared.absent other absent
  version := by
    intro other version lookup
    obtain ⟨validBits, found', valid⟩ := cleared.version other version lookup
    rw [State.lookup_setBlock]
    split
    · next same =>
        subst same
        rw [found'] at found
        cases found
        refine ⟨_, rfl, ?_⟩
        intro page' unit'
        rw [Block.setBit_false_eq_true, valid]
        tauto
    · next different =>
        refine ⟨validBits, found', ?_⟩
        intro page' unit'
        rw [valid]
        tauto

theorem trimUnits_meets {missing : Panic} {mapping : Mapping}
    {units : List Nat} (nodup : units.Nodup) :
    Meets (units.forM (trimUnit missing mapping)) state
      (fun _ final => Cleared (fun blockIndex page unit =>
          unit ∈ units ∧ mapping unit = (blockIndex, page)) state final ∧
        ∀ unit ∈ units, state.Reachable (mapping unit))
      fun _ _ => ∃ unit ∈ units, ¬ state.Reachable (mapping unit) := by
  refine (Meets.forM (fun remaining reached => remaining.Nodup ∧
      (∀ unit ∈ remaining, unit ∈ units) ∧
      Cleared (fun blockIndex page unit => (unit ∈ units ∧ unit ∉ remaining) ∧
        mapping unit = (blockIndex, page)) state reached ∧
      ∀ unit ∈ units, unit ∈ remaining ∨ state.Reachable (mapping unit))
    ⟨nodup, fun _ member => member, (Cleared.refl state).congr ?_,
      fun _ member => .inl member⟩ ?_).mono ?_ fun _ _ failed => failed
  · intro _ _ unit
    simp
  · intro unit rest reached kept
    obtain ⟨nodup, listed, cleared, done⟩ := kept
    obtain ⟨fresh, nodup'⟩ := List.nodup_cons.mp nodup
    have member : unit ∈ units := listed unit (.head _)
    unfold trimUnit
    cases found : reached.blocks.lookup (mapping unit).1 with
    | none =>
        refine Meets.bindError (run_findBlock_none found) ⟨unit, member, ?_⟩
        intro reachable
        obtain ⟨block, lookup, _⟩ := (cleared.reachable _).mpr reachable
        rw [found] at lookup
        cases lookup
    | some block =>
        refine Meets.bindOk (run_findBlock found) ?_
        by_cases inside : (mapping unit).2 < block.pageCount
        · unfold Meets
          rw [run_invalidateUnit found inside]
          refine ⟨nodup', fun other later => listed other (.tail _ later),
            (cleared.clear found).congr ?_, ?_⟩
          · intro blockIndex page other
            constructor
            · intro pointed
              obtain ⟨⟨listed', past⟩, located⟩ := pointed
              by_cases same : other = unit
              · subst same
                rw [located]
                exact .inr ⟨rfl, rfl, rfl⟩
              · refine .inl ⟨⟨listed', ?_⟩, located⟩
                exact List.not_mem_cons_of_ne_of_not_mem same past
            · intro pointed
              rcases pointed with ⟨⟨listed', past⟩, located⟩ | ⟨rfl, rfl, rfl⟩
              · exact ⟨⟨listed', fun later => past (.tail _ later)⟩, located⟩
              · exact ⟨⟨member, fresh⟩, rfl⟩
          · intro other listed'
            rcases done other listed' with remains | reachable
            · rcases List.mem_cons.mp remains with here | later
              · refine .inr ((cleared.reachable _).mp ?_)
                exact here ▸ ⟨block, found, inside⟩
              · exact .inl later
            · exact .inr reachable
        · unfold invalidateUnit
          refine Meets.bindOk (run_blockAt found) ?_
          unfold Block.invalidate
          rw [if_pos (Nat.not_lt.mp inside)]
          refine ⟨unit, member, ?_⟩
          intro reachable
          obtain ⟨other, lookup, within⟩ := (cleared.reachable _).mpr reachable
          rw [found] at lookup
          cases lookup
          exact inside within
  · intro _ final kept
    obtain ⟨_, _, cleared, done⟩ := kept
    refine ⟨cleared.congr ?_, ?_⟩
    · intro blockIndex page unit
      simp
    · intro unit member
      exact (done unit member).resolve_left List.not_mem_nil

end Loop

/-- An entry that a trim can follow names a physical page, and conversely. -/
theorem reachable_iff {cfg : Config} {state : State}
    {mapped : Set (Nat × Nat)} {lpn unit : Nat} {mapping : Mapping}
    (pools : Pools cfg state) (maps : Maps cfg (.rest mapped) state)
    (found : state.table.lookup lpn = some mapping)
    (inside : unit < cfg.bitsetSize) :
    state.Reachable (mapping unit) ↔ IsLocation cfg (mapping unit) := by
  constructor
  · intro reachable
    obtain ⟨block, used, _⟩ := reachable
    rcases maps.entry lpn mapping found unit inside with nowhere | located
    · have below := pools.inUse_lt ⟨block, used⟩
      rw [nowhere] at below
      exact absurd below (Nat.lt_irrefl _)
    · exact located
  · intro located
    obtain ⟨block, used, _⟩ := maps.backed lpn mapping found unit inside located
      fun waits => waits
    refine ⟨block, used, ?_⟩
    rw [(pools.wellFormed _ _ used).pageCount_eq]
    exact located.2

/-- A trim of a page whose units are all mapped does its work; any other trim
of a mapped page stops. -/
theorem trim_meets {cfg : Config} {state : State} {mapped : Set (Nat × Nat)}
    (pools : Pools cfg state) (maps : Maps cfg (.rest mapped) state)
    (lpn : Nat) :
    Meets (trim cfg lpn) state
      (fun _ final => Trimmed cfg lpn state final ∧
        ∀ mapping, state.table.lookup lpn = some mapping →
          ∀ unit < cfg.bitsetSize, IsLocation cfg (mapping unit))
      fun _ _ => ∃ mapping, state.table.lookup lpn = some mapping ∧
        ∃ unit < cfg.bitsetSize, ¬ IsLocation cfg (mapping unit) := by
  unfold trim unmap
  apply meets_bind.mpr
  apply meets_get.mpr
  split
  · next absent =>
      have nothing : ∀ blockIndex page unit,
          ¬ Points cfg state lpn blockIndex page unit := by
        intro blockIndex page unit points
        obtain ⟨mapping, found, _⟩ := points
        rw [absent] at found
        cases found
      refine ⟨⟨?_, ?_, ?_⟩, ?_⟩
      · exact (AList.ext (List.kerase_of_notMem_keys
          (AList.lookup_eq_none.mp absent))).symm
      · intro blockIndex page unit points
        exact absurd points (nothing blockIndex page unit)
      · exact (Cleared.refl state).congr fun blockIndex page unit =>
          iff_of_false (nothing blockIndex page unit) id
      · intro mapping found
        rw [absent] at found
        cases found
  · next mapping found =>
      refine ((trimUnits_meets List.nodup_range).mono
        (fun _ _ post => post) ?_).bind ?_
      · intro _ _ failed
        obtain ⟨unit, member, unreachable⟩ := failed
        have inside := List.mem_range.mp member
        refine ⟨mapping, found, unit, inside, ?_⟩
        intro located
        exact unreachable ((reachable_iff pools maps found inside).mpr located)
      · intro _ reached post
        obtain ⟨cleared, reachable⟩ := post
        have located : ∀ unit < cfg.bitsetSize, IsLocation cfg (mapping unit) :=
          fun unit inside => (reachable_iff pools maps found inside).mp
            (reachable unit (List.mem_range.mpr inside))
        have table_eq : reached.table = state.table := by
          rw [cleared.rest_eq]
        refine ⟨⟨?_, ?_, ?_⟩, ?_⟩
        · exact congrArg (AList.erase lpn) table_eq
        · intro blockIndex page unit points
          obtain ⟨mapping', found', inside, pointed⟩ := points
          rw [found] at found'
          cases found'
          have stores := maps.backed lpn mapping found unit inside
            (located unit inside) fun waits => waits
          rwa [pointed] at stores
        · change Cleared _ state { reached with table := state.table }
          rw [← table_eq]
          refine cleared.congr ?_
          intro blockIndex page unit
          constructor
          · intro points
            obtain ⟨mapping', found', inside, pointed⟩ := points
            rw [found] at found'
            cases found'
            exact ⟨List.mem_range.mpr inside, pointed⟩
          · intro pointed
            exact ⟨mapping, found, List.mem_range.mp pointed.1, pointed.2⟩
        · intro mapping' found'
          rw [found] at found'
          cases found'
          exact located

/-- A logical page that is absent from the table or has all its units mapped. -/
def Whole (cfg : Config) (state : State) (lpn : Nat) : Prop :=
  ∀ mapping, state.table.lookup lpn = some mapping →
    ∀ unit < cfg.bitsetSize, IsLocation cfg (mapping unit)

/-- A trim returns and does its work if and only if the page is whole. -/
theorem trim_total (cfg : Config) (env : Environment) (ops : List Op)
    (state : State) (result : outcome cfg env ops = .ok () state)
    (lpn : Nat) :
    (∃ final, (trim cfg lpn).run state = .ok () final ∧
        Trimmed cfg lpn state final) ↔ Whole cfg state lpn := by
  obtain ⟨pools, maps⟩ := (outcome_meets cfg env ops).of_ok result
  have meets := trim_meets pools maps lpn
  constructor
  · intro trims
    obtain ⟨final, returned, _⟩ := trims
    exact (meets.of_ok returned).2
  · intro whole
    cases run : (trim cfg lpn).run state with
    | ok value final => exact ⟨final, rfl, (meets.of_ok run).1⟩
    | error raised stopped =>
        obtain ⟨mapping, found, unit, inside, nowhere⟩ := meets.of_error run
        exact absurd (whole mapping found unit inside) nowhere

/-! Pages of two units that are written one by one. -/

def tweakConfig : Config :=
  { sampleConfig with
    ioUnitInPage := 2
    ioUnitInPage_pos := Nat.two_pos
    pageCountToMaxPerf_pos := Nat.one_pos
    bRandomTweak := true
    refreshMode := 4 }

def writeUnits (lpn : Nat) (units : List Nat) : Op :=
  .write lpn fun unit => units.contains unit

def isWhole (cfg : Config) (lpn : Nat) (state : State) : Bool :=
  match state.table.lookup lpn with
  | none => true
  | some mapping => (List.range cfg.bitsetSize).all fun unit =>
      decide (IsLocation cfg (mapping unit))

theorem isWhole_iff {cfg : Config} {lpn : Nat} {state : State} :
    isWhole cfg lpn state = true ↔ Whole cfg state lpn := by
  unfold isWhole Whole
  cases state.table.lookup lpn with
  | none => simp
  | some mapping => simp

/-- Both units of the page are written, one after the other. -/
theorem trim_total_written :
    ∃ state, outcome tweakConfig sampleEnvironment
        [.initializeFTL, writeUnits 0 [0], writeUnits 0 [1]] = .ok () state ∧
      (state.table.lookup 0).isSome = true ∧
      ∃ final, (trim tweakConfig 0).run state = .ok () final ∧
        Trimmed tweakConfig 0 state final := by
  have evaluated : returns (outcome tweakConfig sampleEnvironment
      [.initializeFTL, writeUnits 0 [0], writeUnits 0 [1]]) (fun state =>
        (state.table.lookup 0).isSome && isWhole tweakConfig 0 state) =
      true := by
    decide +kernel
  obtain ⟨state, result, test⟩ := returns_iff.mp evaluated
  obtain ⟨mapped, whole⟩ := (Bool.and_eq_true _ _).mp test
  exact ⟨state, result, mapped, (trim_total tweakConfig sampleEnvironment _
    state result 0).mpr (isWhole_iff.mp whole)⟩

/-- One unit of the page is written; its other entry names no block. -/
theorem trim_stops :
    (∃ state, outcome tweakConfig sampleEnvironment
        [.initializeFTL, writeUnits 0 [0]] = .ok () state ∧
      ¬ ∃ final, (trim tweakConfig 0).run state = .ok () final) ∧
      stops (outcome tweakConfig sampleEnvironment
        [.initializeFTL, writeUnits 0 [0], .trim 0]) =
          some .trimBlockNotInUse := by
  have evaluated : returns (outcome tweakConfig sampleEnvironment
      [.initializeFTL, writeUnits 0 [0]]) (fun state =>
        (stops ((trim tweakConfig 0).run state)).isSome) = true := by
    decide +kernel
  refine ⟨?_, by decide +kernel⟩
  obtain ⟨state, result, test⟩ := returns_iff.mp evaluated
  refine ⟨state, result, ?_⟩
  intro trims
  obtain ⟨final, returned⟩ := trims
  rw [returned] at test
  cases test

end SimpleSSD.FTL
