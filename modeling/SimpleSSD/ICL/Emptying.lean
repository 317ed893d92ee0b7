import SimpleSSD.ICL.Flushing
import SimpleSSD.ICL.Placement

namespace SimpleSSD.ICL

def Call.Below (total : Nat) : Call → Prop
  | .read req | .write req => req.slpn < total
  | .flush _ | .trim _ | .format _ => True

namespace GenericCache

variable {cfg : Config} {env : Environment} {range : LPNRange}
  {cache changed final : GenericCache}

/-! A flush can name every tag. -/

def Tagged (cache : GenericCache) : Prop :=
  ∀ place, (cache.cacheData place).tag < maxTick

namespace Tagged

theorem of_same (tagged : cache.Tagged)
    (same : ∀ place, (changed.cacheData place).tag =
      (cache.cacheData place).tag) : changed.Tagged := by
  intro place
  rw [same]
  exact tagged place

theorem setLine {place : Place} {line : Line} (tagged : cache.Tagged)
    (below : line.tag < maxTick)
    (lines : changed.cacheData =
      Function.update cache.cacheData place line) : changed.Tagged := by
  intro other
  rw [lines]
  by_cases same : other = place
  · rw [same, Function.update_self]
    exact below
  · rw [Function.update_of_ne same]
    exact tagged other

theorem make (lastPrefetched : Nat) :
    (GenericCache.make lastPrefetched).Tagged := by
  intro place
  have positive : 0 < maxTick := by decide
  exact positive

theorem evictEntry (tagged : cache.Tagged) (position : Nat × Nat) :
    (GenericCache.evictEntry cfg env true cache position).Tagged := by
  intro place
  by_cases gone : cache.evictData position.1 position.2 = some place
  · have positive : 0 < maxTick := by decide
    unfold GenericCache.evictEntry
    rw [gone]
    dsimp only
    rw [advance_cacheData, setEvict_cacheData, setLine_cacheData,
      Function.update_self]
    exact positive
  · rw [evictEntry_line place gone]
    exact tagged place

theorem evictCache (tagged : cache.Tagged) :
    (GenericCache.evictCache cfg env true cache).Tagged :=
  List.foldlRecOn _ _ tagged fun _ before position _ =>
    before.evictEntry position

theorem readMissing {slpn : Nat} (tagged : cache.Tagged)
    (result : GenericCache.readMissing cfg env cache slpn = .ok final) :
    final.Tagged := by
  unfold GenericCache.readMissing at result
  dsimp only at result
  split at result
  · cases result
  · next claimed readList claims =>
      cases result
      obtain ⟨claiming, named, _⟩ := claimWays_claiming claims
      have claimed : claimed.Tagged := by
        refine tagged.of_same fun place => (claiming.tags place).trans ?_
        split <;> rfl
      have evicted := @evictCache cfg env _ claimed
      obtain ⟨_, _, _, others, renamed⟩ := @foldl_fillLine cfg env readList
        (GenericCache.evictCache cfg env true _)
      intro place
      by_cases member : place ∈ readList.map Prod.snd
      · obtain ⟨lca, entry, tag⟩ := renamed place member
        rw [tag]
        -- the end of the loop has wrapped, so no address reaches it
        have early := named.subset (List.mem_map_of_mem entry)
        rw [List.mem_range'_1] at early
        unfold maxTick
        split at early <;> omega
      · rw [others place member]
        exact evicted place

theorem read {req : Request} (tagged : cache.Tagged)
    (result : GenericCache.read cfg env req cache = .ok final) :
    final.Tagged := by
  have detected : (detect cfg env req cache).Tagged := by
    refine tagged.of_same fun place => ?_
    unfold detect
    split <;> rfl
  have touched : ∀ place,
      (touchLine env (detect cfg env req cache) place).Tagged := by
    intro place
    refine @setLine _ _ place _ detected ?_ rfl
    exact detected place
  unfold GenericCache.read at result
  split at result
  · dsimp only at result
    split at result
    · split at result
      · exact (touched _).readMissing result
      · cases result
        exact touched _
    · exact detected.readMissing result
  · cases result
    exact tagged

theorem storeLine {place : Place} {lca : Nat} {dirty : Bool}
    (tagged : cache.Tagged) (below : lca < maxTick) :
    (GenericCache.storeLine env cache place lca dirty).Tagged :=
  setLine tagged below rfl

theorem write {req : Request} (sound : Sound cfg cache)
    (below : req.slpn < maxTick) (tagged : cache.Tagged)
    (result : GenericCache.write cfg env req cache = .ok final) :
    final.Tagged := by
  have accepted : (accept cfg req cache).Tagged :=
    tagged.of_same fun place => by rw [accept_cacheData]
  unfold GenericCache.write at result
  dsimp only at result
  split at result
  · split at result
    · cases result
      exact accepted.storeLine below
    split at result
    · cases result
      exact accepted.storeLine below
    split at result
    · cases result
    · cases result
      have chosen := @chooseEvicted_chooses cfg env (accept cfg req cache)
        (accept_sound sound).idle (calcSetIndex cfg req.slpn)
        (Nat.mod_lt _ cfg.sets)
      refine storeLine (evictCache (accepted.of_same ?_)) below
      exact fun place => congrArg Line.tag
        (congrFun chosen.same.cacheData place)
  · cases result
    split
    · exact accepted
    · exact accepted

theorem invalidate {place : Place} (tagged : cache.Tagged)
    (lines : changed.cacheData = Function.update cache.cacheData place
      { cache.cacheData place with valid := false }) : changed.Tagged := by
  refine tagged.setLine ?_ lines
  exact tagged place

theorem perform {total : Nat} {call : Call} (sound : Sound cfg cache)
    (below : call.Below total) (bounded : total < 2 ^ 64)
    (tagged : cache.Tagged)
    (result : call.perform cfg env cache = .ok final) : final.Tagged := by
  cases call with
  | read req => exact tagged.read result
  | write req =>
      refine tagged.write sound ?_ result
      unfold maxTick
      exact Nat.lt_of_lt_of_le below (Nat.le_sub_one_of_lt bounded)
  | flush range =>
      cases result
      exact tagged.of_same fun place => (flush_lines place).2
  | trim range =>
      cases result
      unfold trim
      split
      · refine @List.foldlRecOn _ _
          (fun state : GenericCache × Finset Nat => state.1.Tagged) _ _ _
          tagged ?_
        intro state before place _
        unfold trimLine
        dsimp only
        split
        · exact before.invalidate rfl
        · exact before
      · exact tagged
  | format range =>
      cases result
      unfold format
      dsimp only
      split
      · refine List.foldlRecOn _ _ tagged ?_
        intro cache before lca _
        unfold invalidateLCA
        dsimp only
        split
        · exact before.invalidate rfl
        · exact before
      · exact tagged

theorem performAll {total : Nat} {calls : List Call} (sound : Sound cfg cache)
    (below : ∀ call ∈ calls, Call.Below total call)
    (bounded : total < 2 ^ 64) (tagged : cache.Tagged)
    (result : Call.performAll cfg env calls cache = .ok final) :
    final.Tagged :=
  Call.performAll_keeps
    (fun call member _ _ sound before =>
      before.perform sound (below call member) bounded)
    sound tagged result

end Tagged

/-! What writes leave in an emptied cache. -/

def Empty (cfg : Config) (cache : GenericCache) : Prop :=
  ∀ place, Inside cfg place → (cache.cacheData place).valid = false

theorem flush_empty (tagged : cache.Tagged)
    (caching : cfg.useReadCaching ∨ cfg.useWriteCaching) :
    Empty cfg (flush cfg ⟨0, maxTick⟩ cache) := by
  intro place inside
  have member : place ∈ allPlaces cfg :=
    List.pair_mem_product.mpr
      ⟨List.mem_range.mpr inside.1, List.mem_range.mpr inside.2⟩
  have whole : (0 + maxTick) % 2 ^ 64 = maxTick := by decide
  have within : inRange ⟨0, maxTick⟩ (cache.cacheData place).tag := by
    refine ⟨Nat.zero_le _, ?_⟩
    rw [whole]
    exact tagged place
  unfold flush
  rw [if_pos caching, foldl_flushLine_line, if_pos ⟨member, within⟩]

theorem scanOldest_congr {eligible : Line → Bool} {stamp : Line → Nat}
    {lines lines' : Nat → Line} (ways : List Nat) {wayIdx retIdx min : Nat}
    (same : ∀ way ∈ ways, eligible (lines way) = eligible (lines' way) ∧
      stamp (lines way) = stamp (lines' way)) :
    scanOldest eligible stamp (ways.map lines) wayIdx retIdx min =
      scanOldest eligible stamp (ways.map lines') wayIdx retIdx min := by
  induction ways generalizing wayIdx retIdx min with
  | nil => rfl
  | cons way rest induction =>
      obtain ⟨equal, stamps⟩ := same way (.head _)
      have later := fun other member => same other (.tail _ member)
      rw [List.map_cons, List.map_cons, scanOldest, scanOldest, equal, stamps]
      split
      · exact induction later
      · exact induction later

/-- The search does not look at tags. -/
theorem getEmptyWay_congr {setIdx : Nat}
    (same : ∀ place, (cache.cacheData place).valid =
        (changed.cacheData place).valid ∧
      (cache.cacheData place).insertedAt =
        (changed.cacheData place).insertedAt) :
    getEmptyWay cfg cache setIdx = getEmptyWay cfg changed setIdx := by
  refine scanOldest_congr _ fun way _ => ⟨?_, (same _).2⟩
  rw [(same _).1]

def DirtyAt (cfg : Config) (cache : GenericCache) (place : Place) (lca : Nat) :
    Prop :=
  Inside cfg place ∧ (cache.cacheData place).dirty = true ∧
    (cache.cacheData place).tag = lca

structure Fills (cfg : Config) (lca tick : Nat) (place : Place)
    (cache final : GenericCache) : Prop where
  dirty : DirtyAt cfg final place lca
  valid : (final.cacheData place).valid = true
  tick : (final.cacheData place).insertedAt = tick
  others : ∀ other, other ≠ place →
    final.cacheData other = cache.cacheData other

theorem storeLine_fills {place : Place} {lca : Nat}
    (inside : Inside cfg place) :
    Fills cfg lca (env.tick cache.clock) place cache
      (storeLine env cache place lca true) := by
  have line : (storeLine env cache place lca true).cacheData place =
      { tag := lca, lastAccessed := env.tick cache.clock
        insertedAt := env.tick cache.clock, dirty := true, valid := true } := by
    unfold storeLine
    rw [advance_cacheData, setLine_cacheData, Function.update_self]
  refine ⟨⟨inside, ?_, ?_⟩, ?_, ?_, ?_⟩
  · rw [line]
  · rw [line]
  · rw [line]
  · rw [line]
  · intro other different
    unfold storeLine
    rw [advance_cacheData, setLine_cacheData, Function.update_of_ne different]

theorem write_fills {req : Request} (caching : cfg.useWriteCaching = true)
    (short : req.length < cfg.lineSize)
    (absent : ∀ place, ¬Holds cfg cache place req.slpn)
    (room : getEmptyWay cfg cache (calcSetIndex cfg req.slpn) ≠ cfg.waySize) :
    ∃ final, write cfg env req cache = .ok final ∧
      final.log = .hostWrite req.slpn true :: cache.log ∧
      Fills cfg req.slpn (env.tick cache.clock) (calcSetIndex cfg req.slpn,
        getEmptyWay cfg cache (calcSetIndex cfg req.slpn)) cache final := by
  have brief : isShort cfg req = true := decide_eq_true short
  have accepted : accept cfg req cache =
      cache.record (.hostWrite req.slpn true) := by
    unfold accept
    rw [if_pos brief]
  have missed : getValidWay cfg (cache.record (.hostWrite req.slpn true))
      req.slpn = cfg.waySize := by
    by_contra found
    exact absent _ (getValidWay_hit found)
  refine ⟨storeLine env (cache.record (.hostWrite req.slpn true))
    (calcSetIndex cfg req.slpn,
      getEmptyWay cfg cache (calcSetIndex cfg req.slpn)) req.slpn true,
    ?_, rfl, ?_⟩
  · unfold write
    dsimp only
    rw [accepted, if_pos caching, if_neg (not_not.mpr missed), brief]
    exact if_pos room
  · have inside : Inside cfg (calcSetIndex cfg req.slpn,
        getEmptyWay cfg cache (calcSetIndex cfg req.slpn)) :=
      ⟨Nat.mod_lt _ cfg.sets, (getEmptyWay_spec room).1⟩
    have fills := @storeLine_fills cfg env
      (cache.record (.hostWrite req.slpn true)) _ req.slpn inside
    exact ⟨fills.dirty, fills.valid, fills.tick, fills.others⟩

/-- After a first write, a set that is not that of the write, or has two ways,
still has one to take. -/
theorem Fills.room {lca tick setIdx : Nat} {place : Place}
    (fills : Fills cfg lca tick place cache final)
    (stamped : cache.Stamped) (empty : Empty cfg cache)
    (below : setIdx < cfg.setSize)
    (apart : place.1 ≠ setIdx ∨ 2 ≤ cfg.waySize) :
    getEmptyWay cfg final setIdx ≠ cfg.waySize := by
  obtain ⟨wayIdx, within, spare⟩ : ∃ wayIdx, wayIdx < cfg.waySize ∧
      (setIdx, wayIdx) ≠ place := by
    rcases apart with sets | ways
    · exact ⟨0, cfg.ways, fun same => sets (same ▸ rfl)⟩
    · by_cases zero : place.2 = 0
      · refine ⟨1, ways, fun same => ?_⟩
        rw [← same] at zero
        cases zero
      · exact ⟨0, cfg.ways, fun same => zero (same ▸ rfl)⟩
  refine getEmptyWay_free within ?_
  unfold Free
  rw [fills.others _ spare]
  exact ⟨empty _ ⟨below, within⟩, stamped _⟩

/-- The ways that two writes to these sets of an empty cache take. -/
def fillWays (cfg : Config) (env : Environment) (cache : GenericCache)
    (first second : Nat) : Nat × Nat :=
  let wayIdx := getEmptyWay cfg cache first
  (wayIdx, getEmptyWay cfg (storeLine env cache (first, wayIdx) 0 true) second)

theorem Fills.ways {lca setIdx : Nat} {place : Place}
    (fills : Fills cfg lca (env.tick cache.clock) place cache final) :
    getEmptyWay cfg final setIdx =
      getEmptyWay cfg (storeLine env cache place 0 true) setIdx := by
  have stored := @storeLine_fills cfg env cache place 0 fills.dirty.1
  refine getEmptyWay_congr fun other => ?_
  by_cases apart : other = place
  · subst apart
    exact ⟨fills.valid.trans stored.valid.symm,
      fills.tick.trans stored.tick.symm⟩
  · rw [fills.others other apart, stored.others other apart]
    exact ⟨rfl, rfl⟩

theorem writes_fill {first second : Request}
    (caching : cfg.useWriteCaching = true)
    (short : first.length < cfg.lineSize ∧ second.length < cfg.lineSize)
    (stamped : cache.Stamped) (empty : Empty cfg cache)
    (different : first.slpn ≠ second.slpn)
    (apart : calcSetIndex cfg first.slpn ≠ calcSetIndex cfg second.slpn ∨
      2 ≤ cfg.waySize) :
    ∃ final ways, ways = fillWays cfg env cache (calcSetIndex cfg first.slpn)
        (calcSetIndex cfg second.slpn) ∧
      Call.performAll cfg env [.write first, .write second] cache =
        .ok final ∧
      final.log = .hostWrite second.slpn true :: .hostWrite first.slpn true ::
        cache.log ∧
      DirtyAt cfg final (calcSetIndex cfg first.slpn, ways.1) first.slpn ∧
      DirtyAt cfg final (calcSetIndex cfg second.slpn, ways.2) second.slpn ∧
      (calcSetIndex cfg first.slpn, ways.1) ≠
        (calcSetIndex cfg second.slpn, ways.2) := by
  have room : getEmptyWay cfg cache (calcSetIndex cfg first.slpn) ≠
      cfg.waySize :=
    getEmptyWay_free cfg.ways
      ⟨empty _ ⟨Nat.mod_lt _ cfg.sets, cfg.ways⟩, stamped _⟩
  obtain ⟨middle, wrote, log, fills⟩ := @write_fills cfg env cache first caching
    short.1 (fun place holds => by simpa [holds.2.1] using empty place holds.1)
    room
  have absent : ∀ other, ¬Holds cfg middle other second.slpn := by
    rintro other ⟨inside, valid, tag⟩
    by_cases same : other = (calcSetIndex cfg first.slpn,
        getEmptyWay cfg cache (calcSetIndex cfg first.slpn))
    · rw [same, fills.dirty.2.2] at tag
      exact different tag
    · rw [fills.others other same, empty other inside] at valid
      cases valid
  have space : getEmptyWay cfg middle (calcSetIndex cfg second.slpn) ≠
      cfg.waySize := fills.room stamped empty (Nat.mod_lt _ cfg.sets) apart
  obtain ⟨final, wrote', log', fills'⟩ :=
    @write_fills cfg env middle second caching short.2 absent space
  have taken := (getEmptyWay_spec space).2
  have own : (calcSetIndex cfg first.slpn,
      getEmptyWay cfg cache (calcSetIndex cfg first.slpn)) ≠
        (calcSetIndex cfg second.slpn,
          getEmptyWay cfg middle (calcSetIndex cfg second.slpn)) := by
    intro same
    have valid := fills.valid
    rw [same, taken] at valid
    cases valid
  have stays := fills.dirty
  unfold DirtyAt at stays
  rw [← fills'.others _ own] at stays
  refine ⟨final, (_, _), ?_, ?_, log'.trans (congrArg _ log), stays,
    fills'.dirty, own⟩
  · exact Prod.ext rfl fills.ways
  · unfold Call.performAll Call.performAll Call.performAll Call.perform
    dsimp only
    rw [wrote]
    dsimp only
    rw [wrote']

end GenericCache

end SimpleSSD.ICL
