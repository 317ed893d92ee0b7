import SimpleSSD.ICL.WriteBack

namespace SimpleSSD.ICL

/-! A flush against the lines that it has to write.  It neither clears dirty bits
nor the bits of its request, and it does not look at valid bits. -/

def LPNRange.Contains (range : LPNRange) (tag : Nat) : Prop :=
  range.slpn ≤ tag ∧ tag < range.slpn + range.nlp

instance (range : LPNRange) (tag : Nat) : Decidable (range.Contains tag) :=
  inferInstanceAs (Decidable (_ ∧ _))

namespace GenericCache

variable {cfg : Config} {env : Environment} {range : LPNRange}
  {cache changed final : GenericCache}

/-- Writes of the flush loop over some lines, the first one first. -/
def flushWrites (cfg : Config) (range : LPNRange) (lines : Place → Line) :
    (places : List Place) → (ioFlag : Finset Nat) → List Event
  | [], _ => []
  | place :: rest, ioFlag =>
      let line := lines place
      if inRange range line.tag ∧ line.dirty then
        let marked := insert (line.tag % cfg.lineCountInSuperPage) ioFlag
        .ftlWrite (line.tag / cfg.lineCountInSuperPage) marked ::
          flushWrites cfg range lines rest marked
      else flushWrites cfg range lines rest ioFlag

def unwritten (cfg : Config) (range : LPNRange) (cache : GenericCache) :
    List Line :=
  ((allPlaces cfg).map cache.cacheData).filter fun line =>
    line.valid ∧ line.dirty ∧ range.Contains line.tag

def lineWrite (cfg : Config) (line : Line) : Event :=
  .ftlWrite (line.tag / cfg.lineCountInSuperPage)
    {line.tag % cfg.lineCountInSuperPage}

/-- The flush issues the writes of these lines and no other event, and the next
flush of the range none, whatever calls but writes come in between. -/
structure FlushExact (cfg : Config) (range : LPNRange)
    (cache : GenericCache) : Prop where
  exact : ∃ issued, (flush cfg range cache).log = issued ++ cache.log ∧
    issued.Perm ((unwritten cfg range cache).map (lineWrite cfg))
  idempotent : ∀ env calls between, (∀ req, .write req ∉ calls) →
    Call.performAll cfg env calls (flush cfg range cache) = .ok between →
      (flush cfg range between).log = between.log

/-- Nothing has to be written, and no line that the loop looks at is dirty. -/
structure NothingToFlush (cfg : Config) (range : LPNRange)
    (cache : GenericCache) : Prop where
  written : unwritten cfg range cache = []
  clean : cfg.useReadCaching ∨ cfg.useWriteCaching → ∀ place ∈ allPlaces cfg,
    inRange range (cache.cacheData place).tag →
      (cache.cacheData place).dirty = false

/-! Flags and tags that a flush goes by. -/

def DirtyFrom (cache changed : GenericCache) : Prop :=
  ∀ place, (changed.cacheData place).dirty = true →
    (cache.cacheData place).dirty = true ∧
      (changed.cacheData place).tag = (cache.cacheData place).tag

theorem DirtyFrom.refl (cache : GenericCache) : DirtyFrom cache cache :=
  fun _ dirty => ⟨dirty, rfl⟩

theorem DirtyFrom.trans (first : DirtyFrom cache changed)
    (second : DirtyFrom changed final) : DirtyFrom cache final := by
  intro place dirty
  obtain ⟨middle, same⟩ := second place dirty
  obtain ⟨before, same'⟩ := first place middle
  exact ⟨before, same.trans same'⟩

theorem DirtyFrom.foldl {items : List α} {step : GenericCache → α → GenericCache}
    (each : ∀ cache, ∀ item ∈ items, DirtyFrom cache (step cache item)) :
    DirtyFrom cache (items.foldl step cache) := by
  induction items generalizing cache with
  | nil => exact .refl cache
  | cons item rest induction =>
      exact (each cache item (.head _)).trans
        (induction fun cache other member => each cache other (.tail _ member))

theorem DirtyFrom.setLine {place : Place} {line : Line}
    (lines : changed.cacheData = Function.update cache.cacheData place line)
    (kept : line.dirty = true → (cache.cacheData place).dirty = true ∧
      line.tag = (cache.cacheData place).tag) : DirtyFrom cache changed := by
  intro other dirty
  rw [lines] at dirty ⊢
  by_cases same : other = place
  · subst same
    rw [Function.update_self] at dirty ⊢
    exact kept dirty
  · rw [Function.update_of_ne same] at dirty ⊢
    exact ⟨dirty, rfl⟩

theorem evictEntry_dirtyFrom (position : Nat × Nat) :
    DirtyFrom cache (evictEntry cfg env true cache position) := by
  intro place dirty
  refine ⟨evictEntry_clean dirty, ?_⟩
  by_cases gone : cache.evictData position.1 position.2 = some place
  · unfold evictEntry at dirty
    rw [gone] at dirty
    dsimp only at dirty
    rw [advance_cacheData, setEvict_cacheData, setLine_cacheData,
      Function.update_self] at dirty
    cases dirty
  · rw [evictEntry_line place gone]

theorem evictCache_dirtyFrom :
    DirtyFrom cache (evictCache cfg env true cache) :=
  DirtyFrom.foldl fun _ position _ => evictEntry_dirtyFrom position

theorem Claiming.dirtyFrom {readList : List (Nat × Place)}
    (claiming : Claiming cfg cache changed readList) :
    DirtyFrom cache changed := by
  intro place dirty
  by_cases member : place ∈ readList.map Prod.snd
  · rw [claiming.clean place member] at dirty
    cases dirty
  · rw [claiming.unclaimed place member] at dirty ⊢
    exact ⟨dirty, rfl⟩

theorem readMissing_dirtyFrom {slpn : Nat}
    (result : readMissing cfg env cache slpn = .ok final) :
    DirtyFrom cache final := by
  unfold readMissing at result
  dsimp only at result
  split at result
  · cases result
  · next claimed readList claims =>
      cases result
      obtain ⟨claiming, _, _⟩ := claimWays_claiming claims
      have claims : DirtyFrom cache claimed := by
        have from_start := claiming.dirtyFrom
        split at from_start
        · exact from_start
        · exact from_start
      have evicts : DirtyFrom claimed (evictCache cfg env true claimed) :=
        evictCache_dirtyFrom
      obtain ⟨_, _, flags, others, _⟩ := @foldl_fillLine cfg env readList
        (evictCache cfg env true claimed)
      intro place dirty
      rw [(flags place).2] at dirty
      obtain ⟨before, same⟩ := evicts place dirty
      have outside : place ∉ readList.map Prod.snd := by
        intro member
        rw [claiming.clean place member] at before
        cases before
      rw [others place outside, same]
      exact claims place before

theorem read_dirtyFrom {req : Request}
    (result : read cfg env req cache = .ok final) : DirtyFrom cache final := by
  have detected : (detect cfg env req cache).cacheData = cache.cacheData := by
    unfold detect
    split <;> rfl
  have start : DirtyFrom cache (detect cfg env req cache) := by
    intro place dirty
    rw [detected] at dirty ⊢
    exact ⟨dirty, rfl⟩
  unfold read at result
  dsimp only at result
  split at result
  · split at result
    · have touched : ∀ place, DirtyFrom (detect cfg env req cache)
          (touchLine env (detect cfg env req cache) place) :=
        fun place => DirtyFrom.setLine rfl fun dirty => ⟨dirty, rfl⟩
      split at result
      · exact start.trans ((touched _).trans (readMissing_dirtyFrom result))
      · cases result
        exact start.trans (touched _)
    · exact start.trans (readMissing_dirtyFrom result)
  · cases result
    exact .refl cache

/-- The loops of `flush` and `trim` change valid bits only. -/
theorem invalidating_dirtyFrom {step : GenericCache × Finset Nat → Place →
      GenericCache × Finset Nat}
    (each : ∀ state place, DirtyFrom state.1 (step state place).1)
    (places : List Place) (state : GenericCache × Finset Nat) :
    DirtyFrom state.1 (places.foldl step state).1 := by
  induction places generalizing state with
  | nil => exact .refl _
  | cons place rest induction => exact (each state place).trans (induction _)

theorem flushLine_cacheData (state : GenericCache × Finset Nat)
    (place : Place) (within : inRange range (state.1.cacheData place).tag) :
    (flushLine cfg range state place).1.cacheData =
      Function.update state.1.cacheData place
        { state.1.cacheData place with valid := false } := by
  unfold flushLine
  dsimp only
  rw [if_pos within, setLine_cacheData]
  split <;> rfl

theorem flushLine_out {state : GenericCache × Finset Nat} {place : Place}
    (outside : ¬inRange range (state.1.cacheData place).tag) :
    flushLine cfg range state place = state := by
  unfold flushLine
  dsimp only
  rw [if_neg outside]

theorem flush_dirtyFrom : DirtyFrom cache (flush cfg range cache) := by
  unfold flush
  split
  · refine invalidating_dirtyFrom ?_ _ (cache, ∅)
    intro state place
    by_cases within : inRange range (state.1.cacheData place).tag
    · exact DirtyFrom.setLine (flushLine_cacheData state place within)
        fun dirty => ⟨dirty, rfl⟩
    · rw [flushLine_out within]
      exact .refl _
  · exact .refl cache

theorem trim_dirtyFrom : DirtyFrom cache (trim cfg range cache) := by
  unfold trim
  split
  · refine invalidating_dirtyFrom ?_ _ (cache, ∅)
    intro state place
    unfold trimLine
    dsimp only
    split
    · exact DirtyFrom.setLine rfl fun dirty => ⟨dirty, rfl⟩
    · exact .refl _
  · exact .refl cache

theorem format_dirtyFrom : DirtyFrom cache (format cfg range cache) := by
  unfold format
  dsimp only
  split
  · refine DirtyFrom.foldl ?_
    intro cache lca _
    unfold invalidateLCA
    dsimp only
    split
    · exact DirtyFrom.setLine rfl fun dirty => ⟨dirty, rfl⟩
    · exact .refl _
  · exact .refl cache

theorem perform_dirtyFrom {call : Call} (calm : ∀ req, call ≠ .write req)
    (result : call.perform cfg env cache = .ok final) :
    DirtyFrom cache final := by
  cases call with
  | read req => exact read_dirtyFrom result
  | write req => exact absurd rfl (calm req)
  | flush range =>
      cases result
      exact flush_dirtyFrom
  | trim range =>
      cases result
      exact trim_dirtyFrom
  | format range =>
      cases result
      exact format_dirtyFrom

theorem performAll_dirtyFrom {calls : List Call}
    (calm : ∀ req, .write req ∉ calls)
    (result : Call.performAll cfg env calls cache = .ok final) :
    DirtyFrom cache final := by
  refine @Call.performAll_preserves cfg env (DirtyFrom cache) _ _ _ ?_
    (.refl cache) result
  intro call member before after kept performed
  refine kept.trans (perform_dirtyFrom ?_ performed)
  rintro req rfl
  exact calm req member

/-! What a flush writes. -/

theorem foldl_flushLine_log {lines : Place → Line} (places : List Place)
    (state : GenericCache × Finset Nat)
    (agree : ∀ place, (state.1.cacheData place).dirty = (lines place).dirty ∧
      (state.1.cacheData place).tag = (lines place).tag) :
    (places.foldl (flushLine cfg range) state).1.log =
      (flushWrites cfg range lines places state.2).reverse ++ state.1.log := by
  induction places generalizing state with
  | nil => rfl
  | cons place rest induction =>
      obtain ⟨dirty, tag⟩ := agree place
      rw [List.foldl_cons]
      by_cases within : inRange range (state.1.cacheData place).tag
      · -- only the valid bit changes for the lines that follow
        have next : ∀ other,
            ((flushLine cfg range state place).1.cacheData other).dirty =
              (lines other).dirty ∧
            ((flushLine cfg range state place).1.cacheData other).tag =
              (lines other).tag := by
          intro other
          rw [flushLine_cacheData state place within]
          by_cases same : other = place
          · subst same
            rw [Function.update_self]
            exact agree other
          · rw [Function.update_of_ne same]
            exact agree other
        rw [induction _ next]
        unfold flushLine
        rw [flushWrites]
        rw [tag] at within
        dsimp only
        rw [tag, dirty, if_pos within]
        cases flag : (lines place).dirty with
        | false => simp [within, GenericCache.setLine]
        | true => simp [within, GenericCache.setLine, GenericCache.record]
      · rw [flushLine_out within, induction state agree, flushWrites]
        rw [tag] at within
        dsimp only
        rw [if_neg (by simp [within])]

theorem flush_log (caching : cfg.useReadCaching ∨ cfg.useWriteCaching) :
    (flush cfg range cache).log =
      (flushWrites cfg range cache.cacheData (allPlaces cfg) ∅).reverse ++
        cache.log := by
  unfold flush
  rw [if_pos caching]
  exact foldl_flushLine_log _ (cache, ∅) fun _ => ⟨rfl, rfl⟩

theorem flushWrites_eq_nil {lines : Place → Line} {places : List Place}
    {ioFlag : Finset Nat} :
    flushWrites cfg range lines places ioFlag = [] ↔
      ∀ place ∈ places, inRange range (lines place).tag →
        (lines place).dirty = false := by
  induction places generalizing ioFlag with
  | nil => simp [flushWrites]
  | cons place rest induction =>
      rw [flushWrites]
      dsimp only
      split
      · next written =>
          constructor
          · intro impossible
            cases impossible
          · intro clean
            rw [clean place (.head _) written.1] at written
            cases written.2
      · next kept =>
          rw [induction]
          constructor
          · intro clean other member
            rcases List.mem_cons.mp member with rfl | later
            · intro within
              by_contra dirty
              exact kept ⟨within, by simpa using dirty⟩
            · exact clean other later
          · exact fun clean other member => clean other (.tail _ member)

theorem flush_log_eq_iff (caching : cfg.useReadCaching ∨ cfg.useWriteCaching) :
    (flush cfg range cache).log = cache.log ↔
      ∀ place ∈ allPlaces cfg, inRange range (cache.cacheData place).tag →
        (cache.cacheData place).dirty = false := by
  rw [flush_log caching, List.append_left_eq_self, List.reverse_eq_nil_iff,
    flushWrites_eq_nil]

theorem foldl_invalidating_line {step : GenericCache × Finset Nat → Place →
      GenericCache × Finset Nat}
    (found : ∀ state place, inRange range (state.1.cacheData place).tag →
      (step state place).1.cacheData = Function.update state.1.cacheData place
        { state.1.cacheData place with valid := false })
    (passed : ∀ state place, ¬inRange range (state.1.cacheData place).tag →
      step state place = state)
    (places : List Place) (state : GenericCache × Finset Nat) (place : Place) :
    (places.foldl step state).1.cacheData place =
      if place ∈ places ∧ inRange range (state.1.cacheData place).tag then
        { state.1.cacheData place with valid := false }
      else state.1.cacheData place := by
  induction places generalizing state with
  | nil => simp
  | cons other rest induction =>
      rw [List.foldl_cons, induction]
      by_cases within : inRange range (state.1.cacheData other).tag
      · rw [found state other within]
        by_cases same : place = other
        · subst same
          simp [within]
        · simp [same]
      · rw [passed state other within]
        by_cases same : place = other
        · subst same
          simp [within]
        · simp [same]

theorem foldl_flushLine_line (places : List Place)
    (state : GenericCache × Finset Nat) (place : Place) :
    (places.foldl (flushLine cfg range) state).1.cacheData place =
      if place ∈ places ∧ inRange range (state.1.cacheData place).tag then
        { state.1.cacheData place with valid := false }
      else state.1.cacheData place :=
  foldl_invalidating_line flushLine_cacheData (fun _ _ => flushLine_out)
    places state place

theorem flush_lines (place : Place) :
    ((flush cfg range cache).cacheData place).dirty =
        (cache.cacheData place).dirty ∧
      ((flush cfg range cache).cacheData place).tag =
        (cache.cacheData place).tag := by
  unfold flush
  split
  · rw [foldl_flushLine_line]
    split <;> exact ⟨rfl, rfl⟩
  · exact ⟨rfl, rfl⟩

/-- A flush is exact and idempotent just when there is nothing to flush. -/
theorem flush_exact (cfg : Config) (range : LPNRange) (cache : GenericCache) :
    FlushExact cfg range cache ↔ NothingToFlush cfg range cache := by
  by_cases caching : cfg.useReadCaching ∨ cfg.useWriteCaching
  · constructor
    · intro flushes
      have clean : ∀ place ∈ allPlaces cfg,
          inRange range (cache.cacheData place).tag →
            (cache.cacheData place).dirty = false := by
        have again := flushes.idempotent
          { tick := id, draw := id, prefetchDue := fun _ => false } []
          (flush cfg range cache) (by simp) rfl
        rw [flush_log_eq_iff caching] at again
        intro place member
        have kept := again place member
        rwa [(flush_lines place).1, (flush_lines place).2] at kept
      refine ⟨?_, fun _ => clean⟩
      obtain ⟨issued, log, perm⟩ := flushes.exact
      rw [(flush_log_eq_iff caching).mpr clean] at log
      rw [List.self_eq_append_left.mp log] at perm
      exact List.map_eq_nil_iff.mp perm.nil_eq.symm
    · intro nothing
      have clean := nothing.clean caching
      refine ⟨⟨[], ?_, ?_⟩, ?_⟩
      · exact (flush_log_eq_iff caching).mpr clean
      · rw [nothing.written]
        exact List.Perm.refl _
      · intro env calls between calm result
        refine (flush_log_eq_iff caching).mpr ?_
        intro place member within
        by_contra dirty
        have dirty : (between.cacheData place).dirty = true := by
          simpa using dirty
        obtain ⟨before, same⟩ := performAll_dirtyFrom calm result place dirty
        rw [(flush_lines place).1] at before
        rw [same, (flush_lines place).2] at within
        rw [clean place member within] at before
        cases before
  · have idle : ∀ cache, flush cfg range cache = cache := by
      intro cache
      unfold flush
      rw [if_neg caching]
    constructor
    · intro flushes
      refine ⟨?_, fun on => absurd on caching⟩
      obtain ⟨issued, log, perm⟩ := flushes.exact
      rw [idle] at log
      rw [List.self_eq_append_left.mp log] at perm
      exact List.map_eq_nil_iff.mp perm.nil_eq.symm
    · intro nothing
      refine ⟨⟨[], by rw [idle]; rfl, ?_⟩, ?_⟩
      · rw [nothing.written]
        exact List.Perm.refl _
      · intro _ _ between _ _
        rw [idle]

/-- One dirty line is written by every flush. -/
theorem flush_repeats :
    ∃ cache, Call.performAll singleLine countingEnvironment
        [.write (shortRequest 0)] (make 0) = .ok cache ∧
      ¬ FlushExact singleLine ⟨0, 1⟩ cache := by
  obtain ⟨cache, result, once, twice⟩ : ∃ cache,
      Call.performAll singleLine countingEnvironment
        [.write (shortRequest 0)] (make 0) = .ok cache ∧
      (flush singleLine ⟨0, 1⟩ cache).log.length = 2 ∧
      (flush singleLine ⟨0, 1⟩ (flush singleLine ⟨0, 1⟩ cache)).log.length =
        3 := ⟨_, rfl, rfl, rfl⟩
  refine ⟨cache, result, ?_⟩
  intro flushes
  have same := flushes.idempotent countingEnvironment [] _ (by simp) rfl
  rw [same, once] at twice
  cases twice

end GenericCache

end SimpleSSD.ICL
