import SimpleSSD.ICL.Structure

namespace SimpleSSD.ICL

namespace GenericCache

variable {cfg : Config} {env : Environment} {cache final : GenericCache}

/-! An empty way is found by its time stamp. -/

/-- Every line was inserted at a tick that the searches can tell from none. -/
def Stamped (cache : GenericCache) : Prop :=
  ∀ place, (cache.cacheData place).insertedAt < maxTick

namespace Stamped

theorem of_same {changed : GenericCache} (stamped : cache.Stamped)
    (lines : changed.cacheData = cache.cacheData) : changed.Stamped := by
  intro place
  rw [lines]
  exact stamped place

theorem setLine {place : Place} {line : Line} (stamped : cache.Stamped)
    (before : line.insertedAt < maxTick) :
    (cache.setLine place line).Stamped := by
  intro other
  rw [setLine_cacheData]
  by_cases same : other = place
  · rw [same, Function.update_self]
    exact before
  · rw [Function.update_of_ne same]
    exact stamped other

theorem make (lastPrefetched : Nat) :
    (GenericCache.make lastPrefetched).Stamped := by
  intro place
  have positive : 0 < maxTick := by decide
  exact positive

section Loops

theorem foldl {Item : Type} (items : List Item)
    (step : GenericCache → Item → GenericCache)
    (keeps : ∀ cache, cache.Stamped → ∀ item, (step cache item).Stamped)
    (stamped : cache.Stamped) : (items.foldl step cache).Stamped :=
  List.foldlRecOn items step stamped fun cache before item _ =>
    keeps cache before item

theorem foldl_flagged (places : List Place)
    (step : GenericCache × Finset Nat → Place → GenericCache × Finset Nat)
    (keeps : ∀ state, state.1.Stamped → ∀ place, (step state place).1.Stamped)
    {state : GenericCache × Finset Nat} (stamped : state.1.Stamped) :
    (places.foldl step state).1.Stamped :=
  @List.foldlRecOn _ _ (fun state => state.1.Stamped) places step _ stamped
    fun state before place _ => keeps state before place

end Loops

theorem chooseEvicted {setToFlush : Nat} (sound : Sound cfg cache)
    (below : setToFlush < cfg.setSize) (stamped : cache.Stamped) :
    (GenericCache.chooseEvicted cfg env cache setToFlush).Stamped :=
  stamped.of_same (chooseEvicted_chooses sound.idle below).same.cacheData

theorem accept {req : Request} (stamped : cache.Stamped) :
    (GenericCache.accept cfg req cache).Stamped := by
  unfold GenericCache.accept
  split <;> exact stamped.of_same rfl

variable (ticks : ∀ n, env.tick n < maxTick)

include ticks

theorem evictEntry {flush : Bool} {position : Nat × Nat}
    (stamped : cache.Stamped) :
    (GenericCache.evictEntry cfg env flush cache position).Stamped := by
  unfold GenericCache.evictEntry
  split
  · exact stamped
  · dsimp only
    refine of_same (setLine ?_ (ticks _)) rfl
    split
    · exact stamped.of_same rfl
    · exact stamped

theorem evictCache {flush : Bool} (stamped : cache.Stamped) :
    (GenericCache.evictCache cfg env flush cache).Stamped :=
  stamped.foldl _ _ fun _ before _ => before.evictEntry ticks

theorem claimLine {place : Place} (stamped : cache.Stamped) :
    (GenericCache.claimLine env cache place).Stamped := by
  unfold GenericCache.claimLine
  refine of_same (setLine ?_ (ticks _)) rfl
  unfold loses
  dsimp only
  split
  · exact stamped.of_same rfl
  · exact stamped

theorem claimWays {lcas : List Nat} {readList : List (Nat × Place)}
    (stamped : cache.Stamped)
    (result : GenericCache.claimWays cfg env lcas cache =
      .ok (final, readList)) : final.Stamped := by
  induction lcas generalizing cache readList with
  | nil =>
      cases result
      exact stamped
  | cons lca rest induction =>
      rw [GenericCache.claimWays] at result
      split at result
      · cases result
      · next claimed entry first =>
          have after : claimed.Stamped := by
            unfold claimWay at first
            split at first
            · cases first
              exact stamped
            · split at first
              · cases first
              · next taken place took =>
                  cases first
                  have same := (takeWay_spec took).1
                  exact (stamped.of_same same.cacheData).claimLine ticks
          split at result
          · cases result
          · next second =>
              cases result
              exact induction after second

theorem readMissing {slpn : Nat} (stamped : cache.Stamped)
    (result : GenericCache.readMissing cfg env cache slpn = .ok final) :
    final.Stamped := by
  unfold GenericCache.readMissing at result
  dsimp only at result
  split at result
  · cases result
  · next claims =>
      cases result
      have claimed := claimWays ticks (stamped.of_same (by split <;> rfl)) claims
      refine (claimed.evictCache ticks).foldl _ _ ?_
      intro cache before entry
      exact (setLine (before.of_same rfl) (ticks _)).of_same rfl

theorem read {req : Request} (stamped : cache.Stamped)
    (result : GenericCache.read cfg env req cache = .ok final) :
    final.Stamped := by
  have detected : (detect cfg env req cache).Stamped := by
    unfold detect
    split
    · exact stamped.of_same rfl
    · exact stamped
  have touched : ∀ place,
      (touchLine env (detect cfg env req cache) place).Stamped := by
    intro place
    refine of_same (setLine detected ?_) rfl
    exact detected place
  unfold GenericCache.read at result
  split at result
  · dsimp only at result
    split at result
    · split at result
      · exact (touched _).readMissing ticks result
      · cases result
        exact touched _
    · exact detected.readMissing ticks result
  · cases result
    exact stamped.of_same rfl

theorem storeLine {place : Place} {lca : Nat} {dirty : Bool}
    (stamped : cache.Stamped) :
    (GenericCache.storeLine env cache place lca dirty).Stamped :=
  (setLine stamped (ticks _)).of_same rfl

theorem write {req : Request} (sound : Sound cfg cache)
    (stamped : cache.Stamped)
    (result : GenericCache.write cfg env req cache = .ok final) :
    final.Stamped := by
  have accepted := @accept cfg cache req stamped
  unfold GenericCache.write at result
  dsimp only at result
  split at result
  · split at result
    · cases result
      exact accepted.storeLine ticks
    · split at result
      · cases result
        exact accepted.storeLine ticks
      · split at result
        · cases result
        · cases result
          refine storeLine ticks (evictCache ticks ?_)
          exact accepted.chooseEvicted (accept_sound sound)
            (Nat.mod_lt _ cfg.sets)
  · cases result
    split
    · exact accepted.of_same rfl
    · exact accepted

theorem perform (call : Call) (sound : Sound cfg cache)
    (stamped : cache.Stamped)
    (result : call.perform cfg env cache = .ok final) : final.Stamped := by
  cases call with
  | read req => exact stamped.read ticks result
  | write req => exact stamped.write ticks sound result
  | flush range =>
      cases result
      unfold flush
      split
      · refine foldl_flagged _ _ ?_ stamped
        intro state before place
        unfold flushLine
        dsimp only
        split
        · refine setLine ?_ (before place)
          split
          · exact before.of_same rfl
          · exact before
        · exact before
      · exact stamped
  | trim range =>
      cases result
      unfold trim
      split
      · refine foldl_flagged _ _ ?_ stamped
        intro state before place
        unfold trimLine
        dsimp only
        split
        · exact setLine (before.of_same rfl) (before place)
        · exact before
      · exact stamped
  | format range =>
      cases result
      unfold format
      refine of_same ?_ rfl
      split
      · refine stamped.foldl _ _ ?_
        intro cache before lca
        unfold invalidateLCA
        dsimp only
        split
        · exact setLine before (before _)
        · exact before
      · exact stamped

theorem performAll (calls : List Call) (sound : Sound cfg cache)
    (stamped : cache.Stamped)
    (result : Call.performAll cfg env calls cache = .ok final) :
    final.Stamped :=
  Call.performAll_keeps
    (fun call _ _ _ sound before => before.perform ticks call sound)
    sound stamped result

end Stamped

/-! What the choice leaves in `evictData`. -/

def NamesValid (cache : GenericCache) : Prop :=
  ∀ row col place, cache.evictData row col = some place →
    (cache.cacheData place).valid = true

def Aims (cfg : Config) (cache : GenericCache) (setIdx : Nat) : Prop :=
  ∃ position ∈ evictPositions cfg, ∃ place,
    cache.evictData position.1 position.2 = some place ∧
      Inside cfg place ∧ place.1 = setIdx

namespace NamesValid

theorem setEvict {row col : Nat} {target : Option Place}
    (names : cache.NamesValid)
    (valid : ∀ place, target = some place →
      (cache.cacheData place).valid = true) :
    (cache.setEvict row col target).advance.NamesValid := by
  intro otherRow otherCol place there
  rw [advance_evictData, setEvict_evictData] at there
  split at there
  · exact valid place there
  · exact names otherRow otherCol place there

theorem propose {place : Place} (names : cache.NamesValid) :
    (GenericCache.propose cfg env cache place).NamesValid := by
  unfold GenericCache.propose
  dsimp only
  split
  · next held =>
      refine names.setEvict ?_
      intro chosen winner
      rcases compareFunction_cases winner with old | new
      · exact names _ _ chosen old
      · cases new
        exact held
  · exact names

theorem mergeColumn {position : Nat × Nat} (names : cache.NamesValid) :
    (GenericCache.mergeColumn cfg env cache position).NamesValid := by
  have moved : (cache.setEvict position.1 (position.2 + 1)
      (compareFunction cfg env cache
        (cache.evictData position.1 position.2)
        (cache.evictData position.1 (position.2 + 1)))).advance.NamesValid := by
    refine names.setEvict ?_
    intro chosen winner
    rcases compareFunction_cases winner with left | right
    · exact names _ _ chosen left
    · exact names _ _ chosen right
  exact moved.setEvict fun place nothing => nomatch nothing

theorem foldl {Item : Type} (items : List Item)
    (step : GenericCache → Item → GenericCache)
    (keeps : ∀ cache : GenericCache, cache.NamesValid → ∀ item,
      (step cache item).NamesValid)
    (names : cache.NamesValid) : (items.foldl step cache).NamesValid :=
  List.foldlRecOn items step names fun cache before item _ =>
    keeps cache before item

end NamesValid

theorem compareFunction_some (first : Option Place) (second : Place) :
    ∃ place, compareFunction cfg env cache first (some second) =
      some place := by
  cases first with
  | none => exact ⟨second, rfl⟩
  | some left =>
      rw [compareFunction]
      split
      · exact ⟨left, rfl⟩
      · exact ⟨second, rfl⟩

/-- Where the set has a line with data, one of its lines is chosen. -/
theorem proposeOfSet_some {setToFlush : Nat} {ways : List Nat}
    {chosen : Option Place}
    (held : (∃ place, chosen = some place) ∨ ∃ wayIdx ∈ ways,
      (cache.cacheData (setToFlush, wayIdx)).valid = true)
    (known : ∀ place, chosen = some place → place.1 = setToFlush) :
    ∃ place, (ways.foldl (proposeOfSet cfg env setToFlush)
      (cache, chosen)).2 = some place ∧ place.1 = setToFlush := by
  induction ways generalizing cache chosen with
  | nil =>
      rcases held with ⟨place, there⟩ | ⟨_, member, _⟩
      · exact ⟨place, there, known place there⟩
      · cases member
  | cons wayIdx rest induction =>
      rw [List.foldl_cons, proposeOfSet]
      split
      · obtain ⟨place, winner⟩ := @compareFunction_some cfg env cache chosen
          (setToFlush, wayIdx)
        refine induction (.inl ⟨place, winner⟩) ?_
        intro other named
        rcases compareFunction_cases named with old | new
        · exact known other old
        · cases new
          rfl
      · next invalid =>
          refine induction ?_ known
          rcases held with there | ⟨other, member, valid⟩
          · exact .inl there
          · rcases List.mem_cons.mp member with rfl | later
            · exact absurd valid invalid
            · exact .inr ⟨other, later, valid⟩

theorem includeSet_aims {setToFlush : Nat} (structured : Structured cfg cache)
    (names : cache.NamesValid) (proposes : Proposes cfg cache)
    (below : setToFlush < cfg.setSize)
    (held : ∃ wayIdx, wayIdx < cfg.waySize ∧
      (cache.cacheData (setToFlush, wayIdx)).valid = true) :
    Aims cfg (includeSet cfg env cache setToFlush) setToFlush := by
  obtain ⟨wayIdx, within, valid⟩ := held
  unfold includeSet
  split
  · next going =>
      obtain ⟨position, member, named⟩ := List.any_eq_true.mp going
      split at named
      · cases named
      · next place there =>
          have inside := (proposes _ _ place there).inside
          have own := structured.inSet place _
            ⟨inside, names _ _ place there, rfl⟩
          exact ⟨position, member, place, there, inside,
            own.trans (beq_iff_eq.mp named)⟩
  · obtain ⟨place, winner, own⟩ := @proposeOfSet_some cfg env cache setToFlush
      (List.range cfg.waySize) none
      (.inr ⟨wayIdx, List.mem_range.mpr within, valid⟩)
      (fun place nothing => nomatch nothing)
    obtain ⟨_, _, insides⟩ := @proposeOfSet_cases cfg env cache setToFlush
      (List.range cfg.waySize)
      (fun wayIdx member => ⟨below, List.mem_range.mp member⟩) none
      (fun place nothing => nomatch nothing)
    have inside := insides place winner
    split
    · next chosen result =>
        rw [result] at winner
        cases winner
    · next chosen other result =>
        rw [result] at winner
        cases winner
        refine ⟨calcIOPosition cfg (chosen.cacheData place).tag,
          calcIOPosition_mem _, place, ?_, inside, own⟩
        rw [setEvict_evictData, if_pos ⟨rfl, rfl⟩]

theorem chooseEvicted_aims {setToFlush : Nat} (sound : Sound cfg cache)
    (below : setToFlush < cfg.setSize)
    (held : ∃ wayIdx, wayIdx < cfg.waySize ∧
      (cache.cacheData (setToFlush, wayIdx)).valid = true) :
    Aims cfg (chooseEvicted cfg env cache setToFlush) setToFlush := by
  have included : ∀ merged, Chooses cfg cache merged → merged.NamesValid →
      Aims cfg (includeSet cfg env merged setToFlush) setToFlush := by
    intro merged chosen names
    refine includeSet_aims ?_ names chosen.proposes below ?_
    · refine sound.structured.of_fewer ?_
      intro place lca holds
      unfold Holds at holds
      rw [chosen.same.cacheData] at holds
      exact holds
    · rw [chosen.same.cacheData]
      exact held
  have proposed := @proposed_chooses cfg env cache sound.idle
  have idle : cache.NamesValid := by
    intro row col place there
    rw [sound.idle row col] at there
    cases there
  have names : ((allPlaces cfg).foldl (propose cfg env) cache).NamesValid :=
    idle.foldl _ _ fun _ before _ => before.propose
  unfold chooseEvicted
  cases cfg.evictMode with
  | superPage =>
      have columns := @mergeColumns_chooses cfg env _ proposed.proposes
      refine included _ ⟨proposed.same.trans columns.same, columns.proposes⟩ ?_
      exact names.foldl _ _ fun _ before _ => before.mergeColumn
  | all => exact included _ proposed names

/-! What is chosen becomes an empty way that the search finds. -/

def Free (cache : GenericCache) (place : Place) : Prop :=
  (cache.cacheData place).valid = false ∧
    (cache.cacheData place).insertedAt < maxTick

theorem Free.evictEntry (ticks : ∀ n, env.tick n < maxTick)
    {position : Nat × Nat} {place : Place}
    (free : cache.Free place ∨
      cache.evictData position.1 position.2 = some place) :
    (GenericCache.evictEntry cfg env true cache position).Free place := by
  by_cases named : cache.evictData position.1 position.2 = some place
  · have stamp : ((GenericCache.evictEntry cfg env true cache
        position).cacheData place).insertedAt = env.tick cache.clock := by
      unfold GenericCache.evictEntry
      rw [named]
      dsimp only
      rw [advance_cacheData, setEvict_cacheData, setLine_cacheData,
        Function.update_self]
    refine ⟨evictEntry_emptied place named, ?_⟩
    rw [stamp]
    exact ticks _
  · unfold Free
    rw [evictEntry_line place named]
    exact free.resolve_right named

theorem foldl_evictEntry_free (ticks : ∀ n, env.tick n < maxTick)
    (positions : List (Nat × Nat)) {place : Place}
    (free : cache.Free place ∨ ∃ position ∈ positions,
      cache.evictData position.1 position.2 = some place) :
    (positions.foldl (evictEntry cfg env true) cache).Free place := by
  induction positions generalizing cache with
  | nil =>
      rcases free with free | ⟨_, member, _⟩
      · exact free
      · cases member
  | cons position rest induction =>
      rw [List.foldl_cons]
      apply induction
      by_cases now : cache.Free place ∨
          cache.evictData position.1 position.2 = some place
      · exact .inl (Free.evictEntry ticks now)
      · rw [not_or] at now
        obtain ⟨other, member, named⟩ := free.resolve_left now.1
        refine .inr ⟨other, ?_, ?_⟩
        · rcases List.mem_cons.mp member with rfl | later
          · exact absurd named now.2
          · exact later
        · rw [evictEntry_evictData]
          split
          · next same =>
              have equal : other = position := Prod.ext same.1 same.2
              rw [equal] at named
              exact absurd named now.2
          · exact named

theorem scanOldest_finds {eligible : Line → Bool} {stamp : Line → Nat}
    {lines : List Line} {wayIdx retIdx min : Nat}
    (there : ∃ line ∈ lines, eligible line = true ∧ stamp line < min) :
    scanOldest eligible stamp lines wayIdx retIdx min <
      wayIdx + lines.length := by
  induction lines generalizing wayIdx retIdx min with
  | nil =>
      obtain ⟨_, member, _⟩ := there
      cases member
  | cons line rest induction =>
      rw [scanOldest, List.length_cons]
      split
      · rcases scanOldest_cases eligible stamp rest (wayIdx + 1) wayIdx
          (stamp line) with same | ⟨offset, _, found, _, result⟩
        · omega
        · obtain ⟨inside, _⟩ := List.getElem?_eq_some_iff.mp found
          omega
      · next worse =>
          obtain ⟨found, member, better⟩ := there
          have later : found ∈ rest := by
            rcases List.mem_cons.mp member with rfl | later
            · exact absurd better worse
            · exact later
          have bound := @induction (wayIdx + 1) retIdx min
            ⟨found, later, better⟩
          omega

theorem getEmptyWay_free {setIdx wayIdx : Nat} (within : wayIdx < cfg.waySize)
    (free : cache.Free (setIdx, wayIdx)) :
    getEmptyWay cfg cache setIdx ≠ cfg.waySize := by
  have found : getEmptyWay cfg cache setIdx <
      0 + (setLines cfg cache setIdx).length := by
    refine scanOldest_finds ⟨_, List.mem_map.mpr
      ⟨wayIdx, List.mem_range.mpr within, rfl⟩, ?_, free.2⟩
    rw [free.1]
    rfl
  rw [setLines_length] at found
  omega

theorem valid_of_full {setIdx wayIdx : Nat} (stamped : cache.Stamped)
    (within : wayIdx < cfg.waySize)
    (full : getEmptyWay cfg cache setIdx = cfg.waySize) :
    (cache.cacheData (setIdx, wayIdx)).valid = true := by
  by_contra invalid
  rw [Bool.not_eq_true] at invalid
  exact getEmptyWay_free within ⟨invalid, stamped _⟩ full

theorem evicted_free (ticks : ∀ n, env.tick n < maxTick) {setToFlush : Nat}
    (sound : Sound cfg cache) (stamped : cache.Stamped)
    (below : setToFlush < cfg.setSize)
    (full : getEmptyWay cfg cache setToFlush = cfg.waySize) :
    getEmptyWay cfg (evictCache cfg env true
      (chooseEvicted cfg env cache setToFlush)) setToFlush ≠ cfg.waySize := by
  obtain ⟨position, member, ⟨setIdx, wayIdx⟩, named, inside, own⟩ :=
    @chooseEvicted_aims cfg env cache setToFlush sound below
      ⟨0, cfg.ways, valid_of_full stamped cfg.ways full⟩
  cases own
  exact getEmptyWay_free inside.2
    (foldl_evictEntry_free ticks _ (.inr ⟨position, member, named⟩))

theorem storeLine_holds {place : Place} {lca : Nat} {dirty : Bool}
    (inside : Inside cfg place) :
    Holds cfg (storeLine env cache place lca dirty) place lca := by
  unfold Holds storeLine
  rw [advance_cacheData, setLine_cacheData, Function.update_self]
  exact ⟨inside, rfl, rfl⟩

/-- What a cached write does between calls. -/
theorem write_holds (ticks : ∀ n, env.tick n < maxTick) (sound : Sound cfg cache)
    (stamped : cache.Stamped) (req : Request)
    (caching : cfg.useWriteCaching = true) :
    ∃ final, write cfg env req cache = .ok final ∧
      ∃ wayIdx, Holds cfg final (calcSetIndex cfg req.slpn, wayIdx)
        req.slpn := by
  have below : calcSetIndex cfg req.slpn < cfg.setSize :=
    Nat.mod_lt _ cfg.sets
  have accepted := @accept_sound cfg cache req sound
  unfold write
  dsimp only
  rw [if_pos caching]
  split
  · next found =>
      exact ⟨_, rfl, _, storeLine_holds (getValidWay_hit found).1⟩
  split
  · next found =>
      exact ⟨_, rfl, _, storeLine_holds ⟨below, (getEmptyWay_spec found).1⟩⟩
  · next full =>
      have found := evicted_free ticks accepted stamped.accept below
        (not_not.mp full)
      rw [if_neg found]
      exact ⟨_, rfl, _, storeLine_holds ⟨below, (getEmptyWay_spec found).1⟩⟩

end GenericCache

/-- After any calls, a write with write caching ends, and its line is then valid
in the set of its address. -/
theorem write_finds_line (cfg : Config) (env : Environment)
    (ticks : ∀ n, env.tick n < maxTick) (lastPrefetched : Nat)
    (calls : List Call) {cache : GenericCache}
    (reached : Call.performAll cfg env calls
      (GenericCache.make lastPrefetched) = .ok cache)
    (caching : cfg.useWriteCaching = true) (req : Request) :
    ∃ final, GenericCache.write cfg env req cache = .ok final ∧
      ∃ wayIdx, wayIdx < cfg.waySize ∧
        (final.cacheData (req.slpn % cfg.setSize, wayIdx)).valid = true ∧
        (final.cacheData (req.slpn % cfg.setSize, wayIdx)).tag = req.slpn := by
  have begun := @GenericCache.make_sound cfg lastPrefetched
  have sound := Call.performAll_sound calls begun reached
  have stamped := GenericCache.Stamped.performAll ticks calls begun
    (.make lastPrefetched) reached
  obtain ⟨final, result, wayIdx, inside, valid, tag⟩ :=
    GenericCache.write_holds ticks sound stamped req caching
  exact ⟨final, result, wayIdx, inside.2, valid, tag⟩

def foldedConfig : Config where
  superPageSize := 8
  parallelIO := 2
  lineCountInSuperPage := 2
  lineSize := 4
  setSize := 1
  waySize := 2
  prefetchIOCount := 1
  useReadCaching := true
  useWriteCaching := true
  useReadPrefetch := false
  bSuperPage := true
  prefetchMode := .all
  evictMode := .superPage
  policy := .fifo
  parallel := Nat.two_pos
  lines := Nat.two_pos
  sets := Nat.one_pos
  ways := Nat.two_pos

def steadyEnvironment : Environment where
  tick _ := 1
  draw _ := 0
  prefetchDue _ := false

def shortWrite (lca : Nat) : Request where
  reqID := lca + 2
  slpn := lca
  nlp := 1
  offset := 0
  length := 1

/-- A third line needs a place in a set of two. -/
theorem write_finds_line_folded :
    ∃ cache, Call.performAll foldedConfig steadyEnvironment
        [.write (shortWrite 0), .write (shortWrite 2)]
        (GenericCache.make 0) = .ok cache ∧
      ∃ final, GenericCache.write foldedConfig steadyEnvironment
          (shortWrite 4) cache = .ok final ∧
        ∃ wayIdx, wayIdx < 2 ∧
          (final.cacheData (0, wayIdx)).valid = true ∧
          (final.cacheData (0, wayIdx)).tag = 4 := by
  have reached : Call.performAll foldedConfig steadyEnvironment
      [.write (shortWrite 0), .write (shortWrite 2)]
      (GenericCache.make 0) = .ok _ := rfl
  have ticks : ∀ n, steadyEnvironment.tick n < maxTick := by
    intro n
    have early : 1 < maxTick := by decide
    exact early
  exact ⟨_, reached, write_finds_line foldedConfig steadyEnvironment ticks 0 _
    reached rfl (shortWrite 4)⟩

/-- Once the policy names ways of the set, every call ends. -/
theorem Call.performAll_ends {cfg : Config} {env : Environment}
    (ticks : ∀ n, env.tick n < maxTick)
    (inRange : cfg.policy.InRange cfg.waySize) (calls : List Call)
    {cache : GenericCache} (sound : GenericCache.Sound cfg cache)
    (stamped : cache.Stamped) :
    ∃ final, Call.performAll cfg env calls cache = .ok final := by
  induction calls generalizing cache with
  | nil => exact ⟨cache, rfl⟩
  | cons call rest induction =>
      have ends : ∃ next, call.perform cfg env cache = .ok next := by
        cases result : call.perform cfg env cache with
        | ok next => exact ⟨next, rfl⟩
        | error raised =>
            cases call with
            | read req => exact absurd inRange (read_error result)
            | write req =>
                by_cases caching : cfg.useWriteCaching = true
                · obtain ⟨final, written, _⟩ :=
                    GenericCache.write_holds ticks sound stamped req caching
                  cases result.symm.trans written
                · rw [Call.perform, GenericCache.write, if_neg caching] at result
                  cases result
            | flush range => cases result
            | trim range => cases result
            | format range => cases result
      obtain ⟨next, performed⟩ := ends
      rw [Call.performAll, performed]
      exact induction (call.perform_sound sound performed)
        (stamped.perform ticks call sound performed)

end SimpleSSD.ICL
