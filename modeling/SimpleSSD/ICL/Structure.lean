import Mathlib.Data.List.ProdSigma
import SimpleSSD.ICL.GenericCache

namespace SimpleSSD.ICL

namespace GenericCache

variable {cfg : Config} {env : Environment}

section Searches

theorem scanOldest_cases (eligible : Line → Bool) (stamp : Line → Nat)
    (lines : List Line) (wayIdx retIdx min : Nat) :
    scanOldest eligible stamp lines wayIdx retIdx min = retIdx ∨
      ∃ offset line, lines[offset]? = some line ∧ eligible line = true ∧
        scanOldest eligible stamp lines wayIdx retIdx min = wayIdx + offset := by
  induction lines generalizing wayIdx retIdx min with
  | nil => exact .inl rfl
  | cons line rest induction =>
      rw [scanOldest]
      split
      · next better =>
          rcases induction (wayIdx + 1) wayIdx (stamp line) with
            same | ⟨offset, found, there, eligible, result⟩
          · exact .inr ⟨0, line, rfl, better.1, same⟩
          · exact .inr ⟨offset + 1, found, there, eligible, by omega⟩
      · rcases induction (wayIdx + 1) retIdx min with
          same | ⟨offset, found, there, eligible, result⟩
        · exact .inl same
        · exact .inr ⟨offset + 1, found, there, eligible, by omega⟩

theorem setLines_get {cache : GenericCache} {setIdx wayIdx : Nat}
    {line : Line} (there : (setLines cfg cache setIdx)[wayIdx]? = some line) :
    wayIdx < cfg.waySize ∧ cache.cacheData (setIdx, wayIdx) = line := by
  unfold setLines at there
  rw [List.getElem?_map, Option.map_eq_some_iff] at there
  obtain ⟨index, indexed, same⟩ := there
  obtain ⟨inside, equal⟩ := List.getElem?_eq_some_iff.mp indexed
  rw [List.length_range] at inside
  rw [List.getElem_range] at equal
  exact ⟨inside, equal ▸ same⟩

theorem getEmptyWay_spec {cache : GenericCache} {setIdx : Nat}
    (found : getEmptyWay cfg cache setIdx ≠ cfg.waySize) :
    getEmptyWay cfg cache setIdx < cfg.waySize ∧
      (cache.cacheData (setIdx, getEmptyWay cfg cache setIdx)).valid =
        false := by
  rcases scanOldest_cases (fun line => !line.valid) (·.insertedAt)
      (setLines cfg cache setIdx) 0 cfg.waySize maxTick with
    none | ⟨offset, line, there, invalid, result⟩
  · exact absurd none found
  · obtain ⟨inside, same⟩ := setLines_get there
    have index : getEmptyWay cfg cache setIdx = offset := by
      rw [Nat.zero_add] at result
      exact result
    rw [index, same]
    exact ⟨inside, by simpa using invalid⟩

def Inside (cfg : Config) (place : Place) : Prop :=
  place.1 < cfg.setSize ∧ place.2 < cfg.waySize

def Holds (cfg : Config) (cache : GenericCache) (place : Place) (lca : Nat) :
    Prop :=
  Inside cfg place ∧ (cache.cacheData place).valid = true ∧
    (cache.cacheData place).tag = lca

theorem setLines_length (cache : GenericCache) (setIdx : Nat) :
    (setLines cfg cache setIdx).length = cfg.waySize := by
  simp [setLines]

theorem getValidWay_hit {cache : GenericCache} {lca : Nat}
    (found : getValidWay cfg cache lca ≠ cfg.waySize) :
    Holds cfg cache (calcSetIndex cfg lca, getValidWay cfg cache lca) lca := by
  have below : getValidWay cfg cache lca < cfg.waySize := by
    refine Nat.lt_of_le_of_ne ?_ found
    rw [← setLines_length cache (calcSetIndex cfg lca)]
    exact List.findIdx_le_length
  have inside := below
  rw [← setLines_length cache (calcSetIndex cfg lca)] at inside
  have test := @List.findIdx_getElem _ (fun line : Line =>
    line.valid && line.tag == lca) (setLines cfg cache (calcSetIndex cfg lca)) inside
  obtain ⟨_, same⟩ := setLines_get (List.getElem?_eq_getElem inside)
  rw [Bool.and_eq_true, beq_iff_eq] at test
  refine ⟨⟨Nat.mod_lt _ cfg.sets, below⟩, ?_, ?_⟩
  · rw [same]
    exact test.1
  · rw [same]
    exact test.2

theorem getValidWay_miss {cache : GenericCache} {lca wayIdx : Nat}
    (missed : getValidWay cfg cache lca = cfg.waySize) :
    ¬ Holds cfg cache (calcSetIndex cfg lca, wayIdx) lca := by
  intro ⟨⟨_, inside⟩, valid, tag⟩
  have all := List.findIdx_eq_length.mp
    (missed.trans (setLines_length cache (calcSetIndex cfg lca)).symm)
  have member : cache.cacheData (calcSetIndex cfg lca, wayIdx) ∈
      setLines cfg cache (calcSetIndex cfg lca) :=
    List.mem_map.mpr ⟨wayIdx, List.mem_range.mpr inside, rfl⟩
  have test := all _ member
  rw [valid, tag] at test
  simp at test

end Searches

/-- Valid lines are in the set of their address, one for each address. -/
structure Structured (cfg : Config) (cache : GenericCache) : Prop where
  inSet : ∀ place lca, Holds cfg cache place lca →
    place.1 = calcSetIndex cfg lca
  unique : ∀ place other lca, Holds cfg cache place lca →
    Holds cfg cache other lca → place = other

namespace Structured

variable {cache changed : GenericCache}

theorem of_fewer (structured : Structured cfg cache)
    (fewer : ∀ place lca, Holds cfg changed place lca →
      Holds cfg cache place lca) : Structured cfg changed where
  inSet place lca holds := structured.inSet place lca (fewer place lca holds)
  unique place other lca holds holdsOther :=
    structured.unique place other lca (fewer place lca holds)
      (fewer other lca holdsOther)

theorem absent (structured : Structured cfg cache) {lca : Nat}
    (missed : getValidWay cfg cache lca = cfg.waySize) (place : Place) :
    ¬ Holds cfg cache place lca := by
  intro holds
  have there := structured.inSet place lca holds
  obtain ⟨setIdx, wayIdx⟩ := place
  cases there
  exact getValidWay_miss missed holds

end Structured

section Lines

variable {cache : GenericCache} {place other : Place} {line : Line}

@[simp] theorem setLine_cacheData :
    (cache.setLine place line).cacheData =
      Function.update cache.cacheData place line := rfl

@[simp] theorem setLine_evictData :
    (cache.setLine place line).evictData = cache.evictData := rfl

@[simp] theorem record_cacheData {event : Event} :
    (cache.record event).cacheData = cache.cacheData := rfl

@[simp] theorem record_evictData {event : Event} :
    (cache.record event).evictData = cache.evictData := rfl

@[simp] theorem advance_cacheData :
    cache.advance.cacheData = cache.cacheData := rfl

@[simp] theorem advance_evictData :
    cache.advance.evictData = cache.evictData := rfl

@[simp] theorem setEvict_cacheData {row col : Nat} {target : Option Place} :
    (cache.setEvict row col target).cacheData = cache.cacheData := rfl

theorem setEvict_evictData {row col : Nat} {target : Option Place}
    (otherRow otherCol : Nat) :
    (cache.setEvict row col target).evictData otherRow otherCol =
      if otherRow = row ∧ otherCol = col then target
      else cache.evictData otherRow otherCol := by
  unfold setEvict
  by_cases sameRow : otherRow = row
  · cases sameRow
    by_cases sameCol : otherCol = col
    · cases sameCol
      simp
    · simp [sameCol]
  · simp [sameRow]

/-- A line without valid data takes nothing into the cache. -/
theorem holds_of_invalidated {lca : Nat} (invalid : line.valid = false)
    (holds : Holds cfg (cache.setLine place line) other lca) :
    Holds cfg cache other lca := by
  obtain ⟨inside, valid, tag⟩ := holds
  rw [setLine_cacheData] at valid tag
  by_cases same : other = place
  · rw [same, Function.update_self, invalid] at valid
    cases valid
  · rw [Function.update_of_ne same] at valid tag
    exact ⟨inside, valid, tag⟩

/-- Time stamps do not matter. -/
theorem holds_of_same {lca : Nat}
    (valid : line.valid = (cache.cacheData place).valid)
    (tag : line.tag = (cache.cacheData place).tag) :
    Holds cfg (cache.setLine place line) other lca ↔
      Holds cfg cache other lca := by
  unfold Holds
  rw [setLine_cacheData]
  by_cases same : other = place
  · rw [same, Function.update_self, valid, tag]
  · rw [Function.update_of_ne same]

theorem storeLine_structured {lca : Nat} {dirty : Bool}
    (structured : Structured cfg cache)
    (absent : ∀ other, ¬ Holds cfg cache other lca ∨ other = place)
    (there : place.1 = calcSetIndex cfg lca) :
    Structured cfg (storeLine env cache place lca dirty) := by
  have origin : ∀ other tag,
      Holds cfg (storeLine env cache place lca dirty) other tag →
        (other = place ∧ tag = lca) ∨
          (other ≠ place ∧ Holds cfg cache other tag) := by
    intro other tag ⟨inside, valid, tagged⟩
    simp only [storeLine, advance_cacheData, setLine_cacheData] at valid tagged
    by_cases same : other = place
    · rw [same, Function.update_self] at tagged
      exact .inl ⟨same, tagged.symm⟩
    · rw [Function.update_of_ne same] at valid tagged
      exact .inr ⟨same, inside, valid, tagged⟩
  constructor
  · intro other tag holds
    rcases origin other tag holds with ⟨same, tagged⟩ | ⟨_, held⟩
    · rw [same, tagged]
      exact there
    · exact structured.inSet other tag held
  · intro first second tag holdsFirst holdsSecond
    rcases origin first tag holdsFirst with ⟨same, tagged⟩ | ⟨apart, held⟩
    · rcases origin second tag holdsSecond with ⟨again, _⟩ | ⟨apart, held⟩
      · rw [same, again]
      · rw [tagged] at held
        exact absurd ((absent second).resolve_left (fun none => none held)) apart
    · rcases origin second tag holdsSecond with ⟨_, tagged⟩ | ⟨_, heldSecond⟩
      · rw [tagged] at held
        exact absurd ((absent first).resolve_left (fun none => none held)) apart
      · exact structured.unique first second tag held heldSecond

end Lines

section Eviction

/-- What an entry of `evictData` may name: a line whose address has that row. -/
structure Proposed (cfg : Config) (cache : GenericCache)
    (row col : Nat) (place : Place) : Prop where
  position : (row, col) ∈ evictPositions cfg
  inside : Inside cfg place
  row_eq : (cache.cacheData place).tag % cfg.lineCountInSuperPage = row

def Proposes (cfg : Config) (cache : GenericCache) : Prop :=
  ∀ row col place, cache.evictData row col = some place →
    Proposed cfg cache row col place

def Idle (cache : GenericCache) : Prop :=
  ∀ row col, cache.evictData row col = none

theorem Idle.proposes {cache : GenericCache} (idle : cache.Idle) :
    Proposes cfg cache := by
  intro row col place there
  rw [idle row col] at there
  cases there

theorem calcIOPosition_mem (lca : Nat) :
    calcIOPosition cfg lca ∈ evictPositions cfg := by
  have bound : lca % cfg.lineCountInMaxIO <
      cfg.lineCountInSuperPage * cfg.parallelIO := by
    rw [Nat.mul_comm]
    exact Nat.mod_lt _ (Nat.mul_pos cfg.parallel cfg.lines)
  refine List.mem_product.mpr ⟨List.mem_range.mpr (Nat.mod_lt _ cfg.lines),
    List.mem_range.mpr ?_⟩
  exact Nat.div_lt_of_lt_mul bound

theorem calcIOPosition_row (lca : Nat) :
    (calcIOPosition cfg lca).1 = lca % cfg.lineCountInSuperPage := by
  unfold calcIOPosition Config.lineCountInMaxIO
  exact Nat.mod_mul_left_mod lca cfg.parallelIO cfg.lineCountInSuperPage

theorem calcIOPosition_proposed {cache : GenericCache} {place : Place}
    (inside : Inside cfg place) :
    Proposed cfg cache (calcIOPosition cfg (cache.cacheData place).tag).1
      (calcIOPosition cfg (cache.cacheData place).tag).2 place where
  position := calcIOPosition_mem _
  inside := inside
  row_eq := (calcIOPosition_row _).symm

theorem Proposes.setEvict {cache : GenericCache} {row col : Nat}
    {target : Option Place} (proposes : Proposes cfg cache)
    (proposed : ∀ place, target = some place →
      Proposed cfg cache row col place) :
    Proposes cfg (cache.setEvict row col target) := by
  intro otherRow otherCol place there
  rw [setEvict_evictData] at there
  split at there
  · next same =>
      rw [same.1, same.2]
      have old := proposed place there
      exact ⟨old.position, old.inside, old.row_eq⟩
  · have old := proposes otherRow otherCol place there
    exact ⟨old.position, old.inside, old.row_eq⟩

theorem Proposes.advance {cache : GenericCache}
    (proposes : Proposes cfg cache) : Proposes cfg cache.advance := by
  intro row col place there
  have old := proposes row col place there
  exact ⟨old.position, old.inside, old.row_eq⟩

variable {cache : GenericCache} {flush : Bool} {position : Nat × Nat}

theorem evictEntry_evictData (otherRow otherCol : Nat) :
    (evictEntry cfg env flush cache position).evictData otherRow otherCol =
      if otherRow = position.1 ∧ otherCol = position.2 then none
      else cache.evictData otherRow otherCol := by
  unfold evictEntry
  split
  · next nothing =>
      split
      · next same => rw [same.1, same.2, nothing]
      · rfl
  · dsimp only
    rw [advance_evictData, setEvict_evictData]
    split
    · rfl
    · split <;> rfl

theorem evictEntry_line (other : Place)
    (apart : cache.evictData position.1 position.2 ≠ some other) :
    (evictEntry cfg env flush cache position).cacheData other =
      cache.cacheData other := by
  unfold evictEntry
  split
  · rfl
  · next place there =>
      have different : other ≠ place := by
        intro same
        exact apart (same ▸ there)
      dsimp only
      rw [advance_cacheData, setEvict_cacheData, setLine_cacheData,
        Function.update_of_ne different]
      split <;> rfl

theorem evictEntry_emptied (place : Place)
    (there : cache.evictData position.1 position.2 = some place) :
    ((evictEntry cfg env true cache position).cacheData place).valid =
      false := by
  unfold evictEntry
  rw [there]
  dsimp only
  rw [advance_cacheData, setEvict_cacheData, setLine_cacheData,
    Function.update_self]
  rfl

theorem evictEntry_holds {other : Place} {lca : Nat}
    (holds : Holds cfg (evictEntry cfg env true cache position) other lca) :
    Holds cfg cache other lca := by
  by_cases gone : cache.evictData position.1 position.2 = some other
  · obtain ⟨_, valid, _⟩ := holds
    rw [evictEntry_emptied other gone] at valid
    cases valid
  · unfold Holds at holds ⊢
    rw [evictEntry_line other gone] at holds
    exact holds

theorem foldl_evictEntry_holds (positions : List (Nat × Nat)) {other : Place}
    {lca : Nat}
    (holds : Holds cfg (positions.foldl (evictEntry cfg env true) cache)
      other lca) : Holds cfg cache other lca := by
  induction positions generalizing cache with
  | nil => exact holds
  | cons position rest induction => exact evictEntry_holds (induction holds)

theorem foldl_evictEntry_line (positions : List (Nat × Nat)) (other : Place)
    (apart : ∀ row col, cache.evictData row col ≠ some other) :
    (positions.foldl (evictEntry cfg env flush) cache).cacheData other =
      cache.cacheData other := by
  induction positions generalizing cache with
  | nil => rfl
  | cons position rest induction =>
      rw [List.foldl_cons, induction, evictEntry_line other (apart _ _)]
      intro row col there
      rw [evictEntry_evictData] at there
      split at there
      · cases there
      · exact apart row col there

theorem foldl_evictEntry_evictData (positions : List (Nat × Nat))
    (row col : Nat) :
    (positions.foldl (evictEntry cfg env flush) cache).evictData row col =
      if (row, col) ∈ positions then none else cache.evictData row col := by
  induction positions generalizing cache with
  | nil => simp
  | cons position rest induction =>
      obtain ⟨posRow, posCol⟩ := position
      rw [List.foldl_cons, induction, evictEntry_evictData]
      by_cases later : (row, col) ∈ rest
      · simp [later]
      · by_cases same : row = posRow ∧ col = posCol
        · simp [same]
        · simp [later, same]

theorem evictCache_holds {other : Place} {lca : Nat}
    (holds : Holds cfg (evictCache cfg env true cache) other lca) :
    Holds cfg cache other lca :=
  foldl_evictEntry_holds _ holds

theorem evictCache_idle (proposes : Proposes cfg cache) :
    (evictCache cfg env flush cache).Idle := by
  intro row col
  unfold evictCache
  rw [foldl_evictEntry_evictData]
  split
  · rfl
  · next outside =>
      cases there : cache.evictData row col with
      | none => rfl
      | some place => exact absurd (proposes row col place there).position outside

end Eviction

section Choice

structure SameLines (cache changed : GenericCache) : Prop where
  cacheData : changed.cacheData = cache.cacheData
  log : changed.log = cache.log
  overwritten : changed.overwritten = cache.overwritten

theorem SameLines.refl (cache : GenericCache) : SameLines cache cache :=
  ⟨rfl, rfl, rfl⟩

theorem SameLines.trans {first second third : GenericCache}
    (before : SameLines first second) (after : SameLines second third) :
    SameLines first third where
  cacheData := after.cacheData.trans before.cacheData
  log := after.log.trans before.log
  overwritten := after.overwritten.trans before.overwritten

theorem setEvict_same (cache : GenericCache) (row col : Nat)
    (target : Option Place) :
    SameLines cache (cache.setEvict row col target).advance := ⟨rfl, rfl, rfl⟩

structure Chooses (cfg : Config) (cache chosen : GenericCache) : Prop where
  same : SameLines cache chosen
  proposes : Proposes cfg chosen

theorem Chooses.foldl {Position : Type} (positions : List Position)
    (step : GenericCache → Position → GenericCache)
    (chooses : ∀ cache, ∀ position ∈ positions, Proposes cfg cache →
      Chooses cfg cache (step cache position)) {cache : GenericCache}
    (proposes : Proposes cfg cache) :
    Chooses cfg cache (positions.foldl step cache) := by
  induction positions generalizing cache with
  | nil => exact ⟨.refl cache, proposes⟩
  | cons position rest induction =>
      have first := chooses cache position (.head _) proposes
      have later := induction
        (fun cache position member => chooses cache position (.tail _ member))
        first.proposes
      exact ⟨first.same.trans later.same, later.proposes⟩

variable {cache : GenericCache}

theorem compareFunction_cases {first second : Option Place} {place : Place}
    (chosen : compareFunction cfg env cache first second = some place) :
    first = some place ∨ second = some place := by
  cases first with
  | none => exact .inr chosen
  | some left =>
      cases second with
      | none => exact .inl chosen
      | some right =>
          rw [compareFunction] at chosen
          split at chosen
          · exact .inl chosen
          · exact .inr chosen

theorem propose_chooses (proposes : Proposes cfg cache) {place : Place}
    (inside : Inside cfg place) :
    Chooses cfg cache (propose cfg env cache place) := by
  unfold propose
  dsimp only
  split
  · refine ⟨setEvict_same _ _ _ _, ?_⟩
    refine (Proposes.setEvict proposes ?_).advance
    intro chosen winner
    rcases compareFunction_cases winner with old | new
    · exact proposes _ _ chosen old
    · cases new
      exact calcIOPosition_proposed inside
  · exact ⟨.refl cache, proposes⟩

theorem mergeColumn_chooses (proposes : Proposes cfg cache)
    {position : Nat × Nat}
    (next : (position.1, position.2 + 1) ∈ evictPositions cfg) :
    Chooses cfg cache (mergeColumn cfg env cache position) := by
  refine ⟨⟨rfl, rfl, rfl⟩, ?_⟩
  refine (Proposes.setEvict (Proposes.setEvict proposes ?_) ?_).advance
  · intro chosen winner
    rcases compareFunction_cases winner with left | right
    · have old := proposes _ _ chosen left
      exact ⟨next, old.inside, old.row_eq⟩
    · exact proposes _ _ chosen right
  · intro chosen nothing
    cases nothing

theorem proposeOfSet_cases (setToFlush : Nat) (ways : List Nat)
    (inside : ∀ wayIdx ∈ ways, Inside cfg (setToFlush, wayIdx))
    (chosen : Option Place) (known : ∀ place, chosen = some place →
      Inside cfg place) :
    SameLines cache (ways.foldl (proposeOfSet cfg env setToFlush)
        (cache, chosen)).1 ∧
      (ways.foldl (proposeOfSet cfg env setToFlush)
        (cache, chosen)).1.evictData = cache.evictData ∧
      ∀ place, (ways.foldl (proposeOfSet cfg env setToFlush)
        (cache, chosen)).2 = some place → Inside cfg place := by
  induction ways generalizing cache chosen with
  | nil => exact ⟨.refl cache, rfl, known⟩
  | cons wayIdx rest induction =>
      have later := fun other member => inside other (.tail _ member)
      rw [List.foldl_cons, proposeOfSet]
      split
      · have good : ∀ place, compareFunction cfg env cache chosen
            (some (setToFlush, wayIdx)) = some place → Inside cfg place := by
          intro place winner
          rcases compareFunction_cases winner with old | new
          · exact known place old
          · cases new
            exact inside wayIdx (.head _)
        obtain ⟨same, entries, winners⟩ :=
          @induction cache.advance later _ good
        have first : SameLines cache cache.advance := ⟨rfl, rfl, rfl⟩
        exact ⟨first.trans same, entries, winners⟩
      · exact induction later chosen known

theorem includeSet_chooses (proposes : Proposes cfg cache) {setToFlush : Nat}
    (below : setToFlush < cfg.setSize) :
    Chooses cfg cache (includeSet cfg env cache setToFlush) := by
  unfold includeSet
  split
  · exact ⟨.refl cache, proposes⟩
  · obtain ⟨same, entries, winners⟩ :=
      @proposeOfSet_cases cfg env cache setToFlush (List.range cfg.waySize)
        (fun wayIdx member => ⟨below, List.mem_range.mp member⟩) none
        (fun place nothing => by cases nothing)
    have chosenProposes : Proposes cfg
        ((List.range cfg.waySize).foldl (proposeOfSet cfg env setToFlush)
          (cache, none)).1 := by
      intro row col place there
      rw [entries] at there
      have old := proposes row col place there
      refine ⟨old.position, old.inside, ?_⟩
      rw [same.cacheData]
      exact old.row_eq
    split
    · next chosen result =>
        rw [result] at same chosenProposes
        exact ⟨same, chosenProposes⟩
    · next chosen place result =>
        rw [result] at same chosenProposes winners
        refine ⟨same.trans ⟨rfl, rfl, rfl⟩, ?_⟩
        refine Proposes.setEvict chosenProposes ?_
        intro other equal
        cases equal
        exact calcIOPosition_proposed (winners place rfl)

theorem proposed_chooses (idle : cache.Idle) :
    Chooses cfg cache ((allPlaces cfg).foldl (propose cfg env) cache) := by
  refine Chooses.foldl _ _ ?_ idle.proposes
  intro cache place member proposes
  obtain ⟨set, way⟩ := List.mem_product.mp member
  exact propose_chooses proposes
    ⟨List.mem_range.mp set, List.mem_range.mp way⟩

theorem mergeColumns_chooses (proposes : Proposes cfg cache) :
    Chooses cfg cache (mergeColumns cfg env cache) := by
  refine Chooses.foldl _ _ ?_ proposes
  intro cache position member before
  refine mergeColumn_chooses before ?_
  obtain ⟨row, col⟩ := List.mem_product.mp member
  rw [List.mem_range] at col
  exact List.mem_product.mpr ⟨row, List.mem_range.mpr (by omega)⟩

theorem chooseEvicted_chooses (idle : cache.Idle) {setToFlush : Nat}
    (below : setToFlush < cfg.setSize) :
    Chooses cfg cache (chooseEvicted cfg env cache setToFlush) := by
  have proposed := @proposed_chooses cfg env cache idle
  have included : ∀ merged, Chooses cfg cache merged →
      Chooses cfg cache (includeSet cfg env merged setToFlush) := by
    intro merged chosen
    have included := @includeSet_chooses cfg env _ chosen.proposes _ below
    exact ⟨chosen.same.trans included.same, included.proposes⟩
  unfold chooseEvicted
  cases cfg.evictMode with
  | superPage =>
      have columns := @mergeColumns_chooses cfg env _ proposed.proposes
      exact included _ ⟨proposed.same.trans columns.same, columns.proposes⟩
  | all => exact included _ proposed

end Choice

section Claims

/-! A miss takes its lines first and renames them afterwards. -/

structure Claiming (cfg : Config) (start cache : GenericCache)
    (readList : List (Nat × Place)) : Prop where
  unclaimed : ∀ place, place ∉ readList.map Prod.snd →
    cache.cacheData place = start.cacheData place
  tags : ∀ place, (cache.cacheData place).tag = (start.cacheData place).tag
  valid : ∀ place, (start.cacheData place).valid = true →
    (cache.cacheData place).valid = true
  clean : ∀ place ∈ readList.map Prod.snd,
    (cache.cacheData place).dirty = false
  fresh : ∀ entry ∈ readList, Inside cfg entry.2 ∧
    entry.2.1 = calcSetIndex cfg entry.1 ∧
    ∀ wayIdx, ¬ Holds cfg start (calcSetIndex cfg entry.1, wayIdx) entry.1
  pointed : ∀ row col place, cache.evictData row col = some place →
    place ∈ readList.map Prod.snd ∨ start.evictData row col = some place
  log : cache.log = start.log
  history : start.overwritten <:+ cache.overwritten
  /-- Every valid dirty line that was taken is on record. -/
  losses : cache.overwritten = start.overwritten →
    ∀ place ∈ readList.map Prod.snd, (start.cacheData place).valid = true →
      (start.cacheData place).dirty = false

theorem Claiming.refl (cache : GenericCache) : Claiming cfg cache cache [] where
  unclaimed _ _ := rfl
  tags _ := rfl
  valid _ same := same
  clean _ member := nomatch member
  fresh _ member := nomatch member
  pointed _ _ _ there := .inr there
  log := rfl
  history := List.suffix_refl _
  losses _ _ member := nomatch member

theorem Claiming.trans {first second third : GenericCache}
    {entries readList : List (Nat × Place)}
    (before : Claiming cfg first second entries)
    (after : Claiming cfg second third readList) :
    Claiming cfg first third (entries ++ readList) where
  unclaimed place outside := by
    rw [List.map_append, List.mem_append, not_or] at outside
    rw [after.unclaimed place outside.2, before.unclaimed place outside.1]
  tags place := (after.tags place).trans (before.tags place)
  valid place held := after.valid place (before.valid place held)
  clean place member := by
    by_cases later : place ∈ readList.map Prod.snd
    · exact after.clean place later
    · rw [List.map_append, List.mem_append] at member
      rw [after.unclaimed place later]
      exact before.clean place (member.resolve_right later)
  fresh entry member := by
    rcases List.mem_append.mp member with early | late
    · exact before.fresh entry early
    · obtain ⟨inside, there, absent⟩ := after.fresh entry late
      refine ⟨inside, there, ?_⟩
      intro wayIdx ⟨within, held, tagged⟩
      exact absent wayIdx ⟨within, before.valid _ held,
        (before.tags _).trans tagged⟩
  pointed row col place there := by
    rw [List.map_append, List.mem_append]
    rcases after.pointed row col place there with new | old
    · exact .inl (.inr new)
    · rcases before.pointed row col place old with new | older
      · exact .inl (.inl new)
      · exact .inr older
  log := after.log.trans before.log
  history := before.history.trans after.history
  losses same place member held := by
    have middle : second.overwritten = first.overwritten := by
      have shorter := before.history
      have longer := after.history
      rw [same] at longer
      exact (longer.eq_of_length_le shorter.length_le)
    rw [List.map_append, List.mem_append] at member
    by_cases early : place ∈ entries.map Prod.snd
    · exact before.losses middle place early held
    · have later := after.losses (same.trans middle.symm) place
        (member.resolve_left early) (before.valid place held)
      rw [before.unclaimed place early] at later
      exact later

variable {cache taken claimed : GenericCache} {lca : Nat} {place : Place}

theorem takeWay_spec (result : takeWay cfg env cache lca = .ok (taken, place)) :
    SameLines cache taken ∧ Inside cfg place ∧
      place.1 = calcSetIndex cfg lca ∧
      (∀ row col other, taken.evictData row col = some other →
        other = place ∨ cache.evictData row col = some other) ∧
      (Proposes cfg cache → Proposes cfg taken) := by
  have below : calcSetIndex cfg lca < cfg.setSize := Nat.mod_lt _ cfg.sets
  unfold takeWay at result
  dsimp only at result
  split at result
  · next found =>
      cases result
      exact ⟨.refl cache, ⟨below, (getEmptyWay_spec found).1⟩, rfl,
        fun _ _ _ there => .inr there, id⟩
  split at result
  · cases result
  · next inside =>
      have within : Inside cfg (calcSetIndex cfg lca,
          cfg.policy.evictFunction (setLines cfg cache (calcSetIndex cfg lca))
            (env.draw cache.clock)) := ⟨below, Nat.not_le.mp inside⟩
      cases result
      split
      · refine ⟨setEvict_same _ _ _ _, within, rfl, ?_, ?_⟩
        · intro row col other there
          rw [advance_evictData, setEvict_evictData] at there
          split at there
          · exact .inl (Option.some.inj there).symm
          · exact .inr there
        · intro proposes
          refine (Proposes.setEvict proposes ?_).advance
          intro other equal
          cases equal
          exact calcIOPosition_proposed within
      · exact ⟨⟨rfl, rfl, rfl⟩, within, rfl, fun _ _ _ there => .inr there,
          Proposes.advance⟩

theorem claimLine_spec :
    (∀ other, other ≠ place →
      (claimLine env cache place).cacheData other = cache.cacheData other) ∧
    ((claimLine env cache place).cacheData place).tag =
      (cache.cacheData place).tag ∧
    ((claimLine env cache place).cacheData place).valid = true ∧
    ((claimLine env cache place).cacheData place).dirty = false ∧
    (claimLine env cache place).evictData = cache.evictData ∧
    (claimLine env cache place).log = cache.log ∧
    (claimLine env cache place).overwritten =
      if (cache.cacheData place).valid ∧ (cache.cacheData place).dirty then
        (cache.cacheData place).tag :: cache.overwritten
      else cache.overwritten := by
  have lost : (cache.loses place).cacheData = cache.cacheData ∧
      (cache.loses place).evictData = cache.evictData ∧
      (cache.loses place).log = cache.log ∧
      (cache.loses place).overwritten =
        if (cache.cacheData place).valid ∧ (cache.cacheData place).dirty then
          (cache.cacheData place).tag :: cache.overwritten
        else cache.overwritten := by
    unfold loses
    dsimp only
    split <;> exact ⟨rfl, rfl, rfl, rfl⟩
  obtain ⟨lines, entries, log, overwritten⟩ := lost
  unfold claimLine
  simp only [advance_cacheData, setLine_cacheData, advance_evictData,
    setLine_evictData, Function.update_self]
  refine ⟨?_, trivial, trivial, trivial, entries, log, overwritten⟩
  intro other apart
  rw [Function.update_of_ne apart, lines]

theorem claimWay_claiming {entry : List (Nat × Place)}
    (result : claimWay cfg env cache lca = .ok (claimed, entry)) :
    Claiming cfg cache claimed entry ∧
      (entry.map Prod.fst).Sublist [lca] ∧
      (Proposes cfg cache → Proposes cfg claimed) := by
  unfold claimWay at result
  split at result
  · cases result
    exact ⟨.refl cache, List.nil_sublist _, id⟩
  · next missed =>
      split at result
      · cases result
      · next taken place took =>
          obtain ⟨same, inside, there, pointed, proposes⟩ := takeWay_spec took
          obtain ⟨others, tag, valid, clean, entries, log, overwritten⟩ :=
            @claimLine_spec env taken place
          rw [same.cacheData] at others tag overwritten
          have tags : ∀ other, ((claimLine env taken place).cacheData other).tag =
              (cache.cacheData other).tag := by
            intro other
            by_cases equal : other = place
            · rw [equal, tag]
            · rw [others other equal]
          cases result
          refine ⟨?_, List.Sublist.refl _, ?_⟩
          · constructor
            case unclaimed =>
              intro other apart
              exact others other (by simpa using apart)
            case tags => exact tags
            case valid =>
              intro other held
              by_cases equal : other = place
              · rw [equal, valid]
              · rw [others other equal, held]
            case clean =>
              intro other member
              obtain rfl : other = place := by simpa using member
              exact clean
            case fresh =>
              intro entry member
              rw [List.mem_singleton.mp member]
              exact ⟨inside, there, fun wayIdx =>
                getValidWay_miss (not_not.mp missed)⟩
            case pointed =>
              intro row col other named
              rw [entries] at named
              rcases pointed row col other named with new | old
              · exact .inl (by simpa using new)
              · exact .inr old
            case log => exact log.trans same.log
            case history =>
              rw [overwritten, same.overwritten]
              split
              · exact List.suffix_cons _ _
              · exact List.suffix_refl _
            case losses =>
              intro unchanged other member held
              obtain rfl : other = place := by simpa using member
              rw [overwritten, same.overwritten] at unchanged
              split at unchanged
              · exact absurd unchanged (List.cons_ne_self _ _)
              · next kept =>
                  simpa [held] using kept
          · intro before row col other named
            rw [entries] at named
            have old := proposes before row col other named
            refine ⟨old.position, old.inside, ?_⟩
            rw [tags, ← same.cacheData]
            exact old.row_eq

theorem claimWays_claiming {lcas : List Nat} {readList : List (Nat × Place)}
    (result : claimWays cfg env lcas cache = .ok (claimed, readList)) :
    Claiming cfg cache claimed readList ∧
      (readList.map Prod.fst).Sublist lcas ∧
      (Proposes cfg cache → Proposes cfg claimed) := by
  induction lcas generalizing cache readList with
  | nil =>
      cases result
      exact ⟨.refl _, List.nil_sublist _, id⟩
  | cons lca rest induction =>
      rw [claimWays] at result
      split at result
      · cases result
      · next middle entry first =>
          split at result
          · cases result
          · next final later second =>
              cases result
              obtain ⟨before, head, proposes⟩ := claimWay_claiming first
              obtain ⟨after, tail, proposesLater⟩ := induction second
              refine ⟨before.trans after, ?_, proposesLater ∘ proposes⟩
              rw [List.map_append]
              exact head.append tail

/-- The second loop renames the lines of the list and nothing else. -/
theorem foldl_fillLine (readList : List (Nat × Place)) (cache : GenericCache) :
    (readList.foldl (fillLine cfg env) cache).evictData = cache.evictData ∧
    (readList.foldl (fillLine cfg env) cache).overwritten =
      cache.overwritten ∧
    (∀ place, ((readList.foldl (fillLine cfg env) cache).cacheData place).valid =
        (cache.cacheData place).valid ∧
      ((readList.foldl (fillLine cfg env) cache).cacheData place).dirty =
        (cache.cacheData place).dirty) ∧
    (∀ place, place ∉ readList.map Prod.snd →
      (readList.foldl (fillLine cfg env) cache).cacheData place =
        cache.cacheData place) ∧
    ∀ place ∈ readList.map Prod.snd, ∃ lca, (lca, place) ∈ readList ∧
      ((readList.foldl (fillLine cfg env) cache).cacheData place).tag = lca := by
  induction readList generalizing cache with
  | nil => exact ⟨rfl, rfl, fun _ => ⟨rfl, rfl⟩, fun _ _ => rfl, by simp⟩
  | cons entry rest induction =>
      obtain ⟨entries, overwritten, flags, others, renamed⟩ :=
        induction (fillLine cfg env cache entry)
      have lines : (fillLine cfg env cache entry).cacheData =
          Function.update cache.cacheData entry.2
            { cache.cacheData entry.2 with
              insertedAt := env.tick cache.clock
              lastAccessed := env.tick cache.clock
              tag := entry.1 } := rfl
      rw [List.foldl_cons]
      refine ⟨entries, overwritten, ?_, ?_, ?_⟩
      · intro place
        rw [(flags place).1, (flags place).2, lines]
        by_cases same : place = entry.2
        · rw [same, Function.update_self]
          exact ⟨rfl, rfl⟩
        · rw [Function.update_of_ne same]
          exact ⟨rfl, rfl⟩
      · intro place apart
        rw [List.map_cons, List.mem_cons, not_or] at apart
        rw [others place apart.2, lines, Function.update_of_ne apart.1]
      · intro place member
        by_cases later : place ∈ rest.map Prod.snd
        · obtain ⟨lca, listed, tag⟩ := renamed place later
          exact ⟨lca, .tail _ listed, tag⟩
        · obtain rfl : place = entry.2 := by
            rw [List.map_cons, List.mem_cons] at member
            exact member.resolve_right later
          refine ⟨entry.1, .head _, ?_⟩
          rw [others _ later, lines, Function.update_self]

theorem readMissing_cases {start final : GenericCache} {slpn : Nat}
    (idle : start.Idle)
    (result : readMissing cfg env start slpn = .ok final) :
    ∃ claimed readList, Claiming cfg start claimed readList ∧
      (readList.map Prod.fst).Nodup ∧ Proposes cfg claimed ∧
      final = readList.foldl (fillLine cfg env)
        (evictCache cfg env true claimed) := by
  unfold readMissing at result
  dsimp only at result
  split at result
  · cases result
  · next claimed readList claims =>
      cases result
      obtain ⟨claiming, sublist, proposes⟩ := claimWays_claiming claims
      refine ⟨claimed, readList, ?_, sublist.nodup List.nodup_range',
        ?_, rfl⟩
      · split at claiming
        · exact ⟨claiming.unclaimed, claiming.tags, claiming.valid,
            claiming.clean, claiming.fresh, claiming.pointed, claiming.log,
            claiming.history, claiming.losses⟩
        · exact claiming
      · refine proposes (Idle.proposes ?_)
        split
        · exact idle
        · exact idle

theorem readMissing_structured {start final : GenericCache} {slpn : Nat}
    (structured : Structured cfg start) (idle : start.Idle)
    (result : readMissing cfg env start slpn = .ok final) :
    Structured cfg final ∧ final.Idle := by
  obtain ⟨claimed, readList, claiming, distinct, proposes, same⟩ :=
    readMissing_cases idle result
  cases same
  obtain ⟨entries, _, flags, others, renamed⟩ := @foldl_fillLine cfg env
    readList (evictCache cfg env true claimed)
  -- A line is one that the miss has not touched, or has an address of the list.
  have origin : ∀ place lca, Holds cfg (readList.foldl (fillLine cfg env)
      (evictCache cfg env true claimed)) place lca →
        (place ∈ readList.map Prod.snd ∧ (lca, place) ∈ readList) ∨
          (place ∉ readList.map Prod.snd ∧ Holds cfg start place lca) := by
    intro place lca ⟨inside, valid, tag⟩
    by_cases member : place ∈ readList.map Prod.snd
    · obtain ⟨name, listed, named⟩ := renamed place member
      rw [named] at tag
      exact .inl ⟨member, tag ▸ listed⟩
    · refine .inr ⟨member, inside, ?_⟩
      have apart : ∀ row col, claimed.evictData row col ≠ some place := by
        intro row col there
        rcases claiming.pointed row col place there with new | old
        · exact member new
        · rw [idle row col] at old
          cases old
      rw [others place member, evictCache, foldl_evictEntry_line _ _ apart,
        claiming.unclaimed place member] at valid tag
      exact ⟨valid, tag⟩
  refine ⟨⟨?_, ?_⟩, ?_⟩
  · intro place lca holds
    rcases origin place lca holds with ⟨_, listed⟩ | ⟨_, held⟩
    · exact (claiming.fresh _ listed).2.1
    · exact structured.inSet place lca held
  · have foreign : ∀ {place other lca}, (lca, place) ∈ readList →
        ¬ Holds cfg start other lca := by
      intro place other lca listed held
      have there := structured.inSet other lca held
      obtain ⟨setIdx, wayIdx⟩ := other
      cases there
      exact (claiming.fresh _ listed).2.2 wayIdx held
    intro place other lca holds holdsOther
    rcases origin place lca holds with ⟨_, listed⟩ | ⟨_, held⟩
    · rcases origin other lca holdsOther with ⟨_, listedOther⟩ | ⟨_, heldOther⟩
      · have equal := List.inj_on_of_nodup_map distinct listed listedOther rfl
        exact congrArg Prod.snd equal
      · exact absurd heldOther (foreign listed)
    · rcases origin other lca holdsOther with ⟨_, listedOther⟩ | ⟨_, heldOther⟩
      · exact absurd held (foreign listedOther)
      · exact structured.unique place other lca held heldOther
  · intro row col
    rw [entries]
    exact evictCache_idle proposes row col

end Claims

section Calls

structure Sound (cfg : Config) (cache : GenericCache) : Prop where
  structured : Structured cfg cache
  idle : cache.Idle

variable {cache final : GenericCache}

/-- Changes that leave every line valid or not and named as it was. -/
theorem Sound.of_fewer {changed : GenericCache} (sound : Sound cfg cache)
    (entries : changed.evictData = cache.evictData)
    (fewer : ∀ place lca, Holds cfg changed place lca →
      Holds cfg cache place lca) : Sound cfg changed where
  structured := sound.structured.of_fewer fewer
  idle row col := by
    rw [entries]
    exact sound.idle row col

theorem make_sound (lastPrefetched : Nat) :
    Sound cfg (make lastPrefetched) where
  structured :=
    { inSet := fun _ _ holds => nomatch holds.2.1
      unique := fun _ _ _ holds _ => nomatch holds.2.1 }
  idle _ _ := rfl

theorem Sound.of_same {changed : GenericCache} (sound : Sound cfg cache)
    (entries : changed.evictData = cache.evictData)
    (lines : changed.cacheData = cache.cacheData) : Sound cfg changed := by
  refine sound.of_fewer entries ?_
  intro place lca held
  unfold Holds at held
  rw [lines] at held
  exact held

theorem detect_sound {req : Request} (sound : Sound cfg cache) :
    Sound cfg (detect cfg env req cache) := by
  unfold detect
  split
  · exact sound.of_same rfl rfl
  · exact sound

theorem touchLine_sound {place : Place} (sound : Sound cfg cache) :
    Sound cfg (touchLine env cache place) := by
  refine sound.of_fewer rfl ?_
  intro other lca held
  have same := @holds_of_same cfg cache place other
    { cache.cacheData place with lastAccessed := env.tick cache.clock } lca
    rfl rfl
  exact same.mp held

theorem accept_sound {req : Request} (sound : Sound cfg cache) :
    Sound cfg (accept cfg req cache) := by
  unfold accept
  split
  · exact sound.of_same rfl rfl
  · exact sound.of_same rfl rfl

theorem read_sound {req : Request} (sound : Sound cfg cache)
    (result : read cfg env req cache = .ok final) : Sound cfg final := by
  have missing : ∀ {start slpn}, Sound cfg start →
      readMissing cfg env start slpn = .ok final → Sound cfg final := by
    intro start slpn before missed
    obtain ⟨structured, idle⟩ :=
      readMissing_structured before.structured before.idle missed
    exact ⟨structured, idle⟩
  have detected := @detect_sound cfg env cache req sound
  unfold read at result
  split at result
  · dsimp only at result
    split at result
    · split at result
      · exact missing (touchLine_sound detected) result
      · cases result
        exact touchLine_sound detected
    · exact missing detected result
  · cases result
    exact sound.of_same rfl rfl

theorem storeLine_sound {lca wayIdx : Nat} {dirty : Bool}
    (sound : Sound cfg cache)
    (absent : ∀ other, ¬ Holds cfg cache other lca ∨
      other = (calcSetIndex cfg lca, wayIdx)) :
    Sound cfg (storeLine env cache (calcSetIndex cfg lca, wayIdx) lca
      dirty) where
  structured := storeLine_structured sound.structured absent rfl
  idle := sound.idle

/-- A write without a place leaves no line that was not there. -/
theorem evicted_sound (sound : Sound cfg cache) {setToFlush : Nat}
    (below : setToFlush < cfg.setSize) :
    Sound cfg (evictCache cfg env true
        (chooseEvicted cfg env cache setToFlush)) ∧
      ∀ place lca, Holds cfg (evictCache cfg env true
        (chooseEvicted cfg env cache setToFlush)) place lca →
          Holds cfg cache place lca := by
  have chosen := @chooseEvicted_chooses cfg env cache sound.idle _ below
  have fewer : ∀ place lca, Holds cfg (evictCache cfg env true
      (chooseEvicted cfg env cache setToFlush)) place lca →
        Holds cfg cache place lca := by
    intro place lca held
    have before := evictCache_holds held
    unfold Holds at before ⊢
    rw [chosen.same.cacheData] at before
    exact before
  exact ⟨⟨sound.structured.of_fewer fewer, evictCache_idle chosen.proposes⟩,
    fewer⟩

theorem write_sound {req : Request} (sound : Sound cfg cache)
    (result : write cfg env req cache = .ok final) : Sound cfg final := by
  have accepted := @accept_sound cfg cache req sound
  unfold write at result
  dsimp only at result
  split at result
  · split at result
    · next found =>
        cases result
        refine storeLine_sound accepted ?_
        intro other
        by_cases held : Holds cfg (accept cfg req cache) other req.slpn
        · exact .inr (accepted.structured.unique _ _ _ held
            (getValidWay_hit found))
        · exact .inl held
    · next missed =>
        have absent := accepted.structured.absent (not_not.mp missed)
        split at result
        · cases result
          exact storeLine_sound accepted fun other => .inl (absent other)
        · split at result
          · cases result
          · cases result
            obtain ⟨evicted, fewer⟩ := @evicted_sound cfg env _ accepted
              (calcSetIndex cfg req.slpn) (Nat.mod_lt _ cfg.sets)
            refine storeLine_sound evicted ?_
            intro other
            exact .inl fun held => absent other (fewer other _ held)
  · cases result
    split
    · exact accepted.of_same rfl rfl
    · exact accepted

theorem flushLine_sound {range : LPNRange}
    {state : GenericCache × Finset Nat} (sound : Sound cfg state.1)
    (place : Place) : Sound cfg (flushLine cfg range state place).1 := by
  unfold flushLine
  dsimp only
  split
  · refine sound.of_fewer ?_ ?_
    · split <;> rfl
    · intro other lca held
      have before := holds_of_invalidated rfl held
      split at before
      · exact before
      · exact before
  · exact sound

theorem trimLine_sound {range : LPNRange}
    {state : GenericCache × Finset Nat} (sound : Sound cfg state.1)
    (place : Place) : Sound cfg (trimLine cfg range state place).1 := by
  unfold trimLine
  dsimp only
  split
  · refine sound.of_fewer rfl ?_
    intro other lca held
    exact holds_of_invalidated rfl held
  · exact sound

theorem foldl_sound (places : List Place)
    (step : GenericCache × Finset Nat → Place → GenericCache × Finset Nat)
    (preserves : ∀ state place, Sound cfg state.1 →
      Sound cfg (step state place).1)
    {state : GenericCache × Finset Nat} (sound : Sound cfg state.1) :
    Sound cfg (places.foldl step state).1 := by
  induction places generalizing state with
  | nil => exact sound
  | cons place rest induction => exact induction (preserves state place sound)

theorem invalidateLCA_sound (sound : Sound cfg cache) (lca : Nat) :
    Sound cfg (invalidateLCA cfg cache lca) := by
  unfold invalidateLCA
  dsimp only
  split
  · refine sound.of_fewer rfl ?_
    intro other held
    exact fun holds => holds_of_invalidated rfl holds
  · exact sound

theorem format_sound {range : LPNRange} (sound : Sound cfg cache) :
    Sound cfg (format cfg range cache) := by
  have cleared : ∀ (lcas : List Nat) {cache : GenericCache}, Sound cfg cache →
      Sound cfg (lcas.foldl (invalidateLCA cfg) cache) := by
    intro lcas
    induction lcas with
    | nil => exact id
    | cons lca rest induction =>
        intro cache before
        exact induction (invalidateLCA_sound before lca)
  unfold format
  dsimp only
  split
  · have after := cleared
      ((List.range range.nlp).map fun i => (range.slpn + i) % 2 ^ 64) sound
    exact ⟨⟨after.structured.inSet, after.structured.unique⟩, after.idle⟩
  · exact ⟨⟨sound.structured.inSet, sound.structured.unique⟩, sound.idle⟩

end Calls

end GenericCache

open GenericCache

theorem Call.perform_sound {cfg : Config} {env : Environment} (call : Call)
    {cache final : GenericCache} (sound : Sound cfg cache)
    (result : call.perform cfg env cache = .ok final) : Sound cfg final := by
  cases call with
  | read req => exact read_sound sound result
  | write req => exact write_sound sound result
  | flush range =>
      cases result
      unfold GenericCache.flush
      split
      · exact foldl_sound _ _
          (fun _ place before => flushLine_sound before place) sound
      · exact sound
  | trim range =>
      cases result
      unfold GenericCache.trim
      split
      · exact foldl_sound _ _
          (fun _ place before => trimLine_sound before place) sound
      · exact sound
  | format range =>
      cases result
      exact format_sound sound

theorem Call.performAll_preserves {cfg : Config} {env : Environment}
    {P : GenericCache → Prop} {calls : List Call} {cache final : GenericCache}
    (step : ∀ call ∈ calls, ∀ {before after : GenericCache}, P before →
      call.perform cfg env before = .ok after → P after)
    (start : P cache)
    (result : Call.performAll cfg env calls cache = .ok final) : P final := by
  induction calls generalizing cache with
  | nil =>
      cases result
      exact start
  | cons call rest induction =>
      rw [Call.performAll] at result
      split at result
      · cases result
      · next performed =>
          exact induction (fun other member => step other (.tail _ member))
            (step call (.head _) start performed) result

theorem Call.performAll_sound {cfg : Config} {env : Environment}
    (calls : List Call) {cache final : GenericCache} (sound : Sound cfg cache)
    (result : Call.performAll cfg env calls cache = .ok final) :
    Sound cfg final :=
  Call.performAll_preserves (fun call _ => call.perform_sound) sound result

/-- The same for what the calls preserve in sound states. -/
theorem Call.performAll_keeps {cfg : Config} {env : Environment}
    {P : GenericCache → Prop} {calls : List Call} {cache final : GenericCache}
    (step : ∀ call ∈ calls, ∀ {before after : GenericCache},
      Sound cfg before → P before →
        call.perform cfg env before = .ok after → P after)
    (sound : Sound cfg cache) (start : P cache)
    (result : Call.performAll cfg env calls cache = .ok final) : P final := by
  have both : Sound cfg final ∧ P final := by
    refine @Call.performAll_preserves cfg env
      (fun cache => Sound cfg cache ∧ P cache) _ _ _ ?_ ⟨sound, start⟩ result
    rintro call member before after ⟨sound, holds⟩ performed
    exact ⟨call.perform_sound sound performed,
      step call member sound holds performed⟩
  exact both.2

def Policy.InRange (policy : Policy) (waySize : Nat) : Prop :=
  ∀ lines draw, lines.length = waySize →
    policy.evictFunction lines draw < waySize

section Errors

variable {cfg : Config} {env : Environment} {cache : GenericCache}
  {raised : Panic}

theorem takeWay_error {lca : Nat}
    (result : takeWay cfg env cache lca = .error raised) :
    ¬ cfg.policy.InRange cfg.waySize := by
  unfold takeWay at result
  dsimp only at result
  split at result
  · cases result
  split at result
  · next outside =>
      intro inRange
      exact absurd (inRange _ _ (setLines_length cache _))
        (Nat.not_lt.mpr outside)
  · cases result

theorem claimWays_error {lcas : List Nat}
    (result : claimWays cfg env lcas cache = .error raised) :
    ¬ cfg.policy.InRange cfg.waySize := by
  induction lcas generalizing cache with
  | nil => cases result
  | cons lca rest induction =>
      rw [claimWays] at result
      split at result
      · next stopped =>
          unfold claimWay at stopped
          split at stopped
          · cases stopped
          split at stopped
          · next failed => exact takeWay_error failed
          · cases stopped
      · split at result
        · next later =>
            cases result
            exact induction later
        · cases result

theorem readMissing_error {slpn : Nat}
    (result : readMissing cfg env cache slpn = .error raised) :
    ¬ cfg.policy.InRange cfg.waySize := by
  unfold readMissing at result
  dsimp only at result
  split at result
  · next failed => exact claimWays_error failed
  · cases result

theorem read_error {req : Request}
    (result : read cfg env req cache = .error raised) :
    ¬ cfg.policy.InRange cfg.waySize := by
  unfold GenericCache.read at result
  dsimp only at result
  split at result
  · split at result
    · split at result
      · exact readMissing_error result
      · cases result
    · exact readMissing_error result
  · cases result

theorem Call.perform_error {call : Call}
    (result : call.perform cfg env cache = .error raised) :
    raised = .cacheCorrupted ∨ ¬ cfg.policy.InRange cfg.waySize := by
  cases call with
  | read req => exact .inr (read_error result)
  | write req =>
      refine .inl ?_
      unfold Call.perform GenericCache.write at result
      dsimp only at result
      split at result
      · split at result
        · cases result
        split at result
        · cases result
        split at result
        · cases result
          rfl
        · cases result
      · cases result
  | flush range => cases result
  | trim range => cases result
  | format range => cases result

theorem Call.performAll_error {calls : List Call}
    (result : Call.performAll cfg env calls cache = .error raised) :
    raised = .cacheCorrupted ∨ ¬ cfg.policy.InRange cfg.waySize := by
  induction calls generalizing cache with
  | nil => cases result
  | cons call rest induction =>
      rw [Call.performAll] at result
      split at result
      · next failed =>
          cases result
          exact Call.perform_error failed
      · exact induction result

end Errors

/-- After any calls, every valid line is in the set of its tag, no two have the
same tag, and `getValidWay` finds the line of an address. -/
theorem cache_structure (cfg : Config) (env : Environment)
    (lastPrefetched : Nat) (calls : List Call) :
    match Call.performAll cfg env calls (make lastPrefetched) with
    | .ok final =>
        (∀ place, Inside cfg place → (final.cacheData place).valid = true →
          place.1 = (final.cacheData place).tag % cfg.setSize) ∧
        (∀ place other, Inside cfg place → Inside cfg other →
          (final.cacheData place).valid = true →
          (final.cacheData other).valid = true →
          (final.cacheData place).tag = (final.cacheData other).tag →
            place = other) ∧
        ∀ lca, (∀ place, Holds cfg final place lca →
            place = (calcSetIndex cfg lca, getValidWay cfg final lca)) ∧
          ((∀ place, ¬ Holds cfg final place lca) →
            getValidWay cfg final lca = cfg.waySize)
    | .error raised =>
        raised = .wayOutOfRange → ¬ cfg.policy.InRange cfg.waySize := by
  cases result : Call.performAll cfg env calls (make lastPrefetched) with
  | error raised =>
      intro outside
      have reason := Call.performAll_error result
      rw [outside] at reason
      exact reason.resolve_left (by decide)
  | ok final =>
      obtain ⟨structured, _⟩ :=
        Call.performAll_sound calls (make_sound lastPrefetched) result
      refine ⟨?_, ?_, ?_⟩
      · intro place inside valid
        exact structured.inSet place _ ⟨inside, valid, rfl⟩
      · intro place other inside insideOther valid validOther same
        exact structured.unique place other _ ⟨inside, valid, rfl⟩
          ⟨insideOther, validOther, same.symm⟩
      · intro lca
        constructor
        · intro place held
          by_cases missed : getValidWay cfg final lca = cfg.waySize
          · exact absurd held (structured.absent missed place)
          · exact structured.unique _ _ _ held (getValidWay_hit missed)
        · intro absent
          by_contra found
          exact absent _ (getValidWay_hit found)

end SimpleSSD.ICL
