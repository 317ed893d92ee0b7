import SimpleSSD.ICL.Flushing
import SimpleSSD.FTL.Trimming
import SimpleSSD.FTL.Insertion

namespace SimpleSSD.ICL

open Program

/-! A trim of the cache, down to the flash translation layer. -/

namespace GenericCache

/-- What the flash translation layer does for an event of the cache. -/
def serve (cfg : FTL.Config) (env : FTL.Environment) : Event → FTL.FTLM Unit
  | .hostWrite _ _ => pure ()
  | .ftlRead lpn ioFlag => FTL.read cfg lpn fun unit => decide (unit ∈ ioFlag)
  | .ftlWrite lpn ioFlag =>
      FTL.write cfg env lpn fun unit => decide (unit ∈ ioFlag)
  | .ftlTrim lpn _ => FTL.trim cfg lpn
  | .ftlFormat slpn nlp => FTL.format cfg env slpn nlp

/-- The events between two states of the cache, the first one first. -/
def issued (cache changed : GenericCache) : List Event :=
  (changed.log.take (changed.log.length - cache.log.length)).reverse

def trimThrough (ftl : FTL.Config) (env : FTL.Environment) (cfg : Config)
    (range : LPNRange) (cache : GenericCache) : FTL.FTLM GenericCache := do
  let trimmed := trim cfg range cache
  (issued cache trimmed).forM (serve ftl env)
  pure trimmed

def Cached (cfg : Config) (cache : GenericCache) (lca : Nat) : Prop :=
  (cfg.useReadCaching ∨ cfg.useWriteCaching) ∧
    ∃ place ∈ allPlaces cfg, (cache.cacheData place).valid = true ∧
      (cache.cacheData place).tag = lca

/-- A logical page of the FTL whose lines are in a range. -/
def OfRange (cfg : Config) (range : LPNRange) (lpn : Nat) : Prop :=
  range.Contains (lpn * cfg.lineCountInSuperPage)

/-- Lines and logical pages of the range are gone, the others are there. -/
structure Removed (cfg : Config) (range : LPNRange)
    (cache trimmed : GenericCache) (state final : FTL.State) : Prop where
  uncached : ∀ lca, range.Contains lca → ¬ Cached cfg trimmed lca
  unmapped : ∀ lpn, OfRange cfg range lpn → final.table.lookup lpn = none
  lines : ∀ place ∈ allPlaces cfg,
    ¬ range.Contains (cache.cacheData place).tag →
      trimmed.cacheData place = cache.cacheData place
  pages : ∀ lpn, ¬ OfRange cfg range lpn →
    final.table.lookup lpn = state.table.lookup lpn ∧
      ∀ blockIndex page unit, final.Stores blockIndex page unit lpn ↔
        state.Stores blockIndex page unit lpn

/-- A line of the logical page is among those that the loop of a trim finds,
valid or stale. -/
def Found (cfg : Config) (range : LPNRange) (cache : GenericCache)
    (lpn : Nat) : Prop :=
  (cfg.useReadCaching ∨ cfg.useWriteCaching) ∧
    ∃ place ∈ allPlaces cfg, inRange range (cache.cacheData place).tag ∧
      (cache.cacheData place).tag / cfg.lineCountInSuperPage = lpn

/-- The loop finds every valid line of the range and a line of each of its
mapped pages, and these can be trimmed. -/
structure Removable (ftl : FTL.Config) (cfg : Config) (range : LPNRange)
    (cache : GenericCache) (state : FTL.State) : Prop where
  lines : ∀ lca, range.Contains lca → Cached cfg cache lca → inRange range lca
  pages : ∀ lpn, OfRange cfg range lpn → state.table.lookup lpn ≠ none →
    Found cfg range cache lpn ∧ FTL.Whole ftl state lpn

section Pages

variable {cfg : FTL.Config} {env : FTL.Environment}
  {state middle final : FTL.State} {mapped : Set (Nat × Nat)}

structure Unmapped (lpns : List Nat) (state final : FTL.State) : Prop where
  gone : ∀ lpn ∈ lpns, final.table.lookup lpn = none
  table : ∀ lpn ∉ lpns, final.table.lookup lpn = state.table.lookup lpn
  stores : ∀ lpn ∉ lpns, ∀ blockIndex page unit,
    final.Stores blockIndex page unit lpn ↔
      state.Stores blockIndex page unit lpn

theorem Unmapped.nil (state : FTL.State) : Unmapped [] state state where
  gone := nofun
  table := fun _ _ => rfl
  stores := fun _ _ _ _ _ => Iff.rfl

theorem Unmapped.cons {lpn : Nat} {lpns : List Nat}
    (trimmed : FTL.Trimmed cfg lpn state middle)
    (rest : Unmapped lpns middle final) :
    Unmapped (lpn :: lpns) state final where
  gone := by
    intro other member
    by_cases later : other ∈ lpns
    · exact rest.gone other later
    · have same : other = lpn := (List.mem_cons.mp member).resolve_right later
      rw [rest.table other later, trimmed.table_eq, same]
      exact AList.lookup_erase lpn _
  table := by
    intro other outside
    obtain ⟨different, later⟩ := List.ne_and_not_mem_of_not_mem_cons outside
    rw [rest.table other later, trimmed.table_eq]
    exact AList.lookup_erase_ne different
  stores := by
    intro other outside blockIndex page unit
    obtain ⟨different, later⟩ := List.ne_and_not_mem_of_not_mem_cons outside
    rw [rest.stores other later]
    constructor
    · intro stores
      obtain ⟨version, found, valid, written⟩ := stores
      cases before : state.blocks.lookup blockIndex with
      | none =>
          have absent : middle.blocks.lookup blockIndex = none :=
            trimmed.cleared.absent blockIndex before
          rw [absent] at found
          cases found
      | some block =>
          obtain ⟨bits, found', cleared⟩ :=
            trimmed.cleared.version blockIndex block before
          have same := Option.some.inj (found.symm.trans found')
          subst same
          exact ⟨block, before, ((cleared page unit).mp valid).1, written⟩
    · intro stores
      obtain ⟨block, before, valid, written⟩ := id stores
      obtain ⟨bits, found, cleared⟩ :=
        trimmed.cleared.version blockIndex block before
      refine ⟨_, found, (cleared page unit).mpr ⟨valid, ?_⟩, written⟩
      intro points
      obtain ⟨block', before', _, written'⟩ :=
        trimmed.valid blockIndex page unit points
      have same := Option.some.inj (before.symm.trans before')
      subst same
      exact different (written.symm.trans written')

/-- Trims of some logical pages: they do their work if the pages are whole. -/
theorem trims_meet (lpns : List Nat)
    (sound : (FTL.machine cfg env .all).sound (.rest mapped, state)) :
    Meets (lpns.forM (FTL.trim cfg)) state
      (fun _ final => Unmapped lpns state final ∧
        ∀ lpn ∈ lpns, FTL.Whole cfg state lpn)
      fun _ _ => ∃ lpn ∈ lpns, ¬ FTL.Whole cfg state lpn := by
  induction lpns generalizing state mapped with
  | nil =>
      exact ⟨.nil state, nofun⟩
  | cons lpn rest induction =>
      unfold List.forM
      have meets := FTL.trim_meets sound.1 sound.2 lpn
      cases run : (FTL.trim cfg lpn).run state with
      | error raised stopped =>
          obtain ⟨mapping, found, unit, inside, nowhere⟩ := meets.of_error run
          refine Meets.bindError run ⟨lpn, .head _, ?_⟩
          exact fun whole => nowhere (whole mapping found unit inside)
      | ok value middle =>
          obtain ⟨trimmed, whole⟩ := meets.of_ok run
          have sound' := FTL.rest_sound (FTL.trim_follows lpn) sound run
          have same : ∀ other ≠ lpn,
              FTL.Whole cfg middle other ↔ FTL.Whole cfg state other := by
            intro other different
            unfold FTL.Whole
            rw [trimmed.table_eq, AList.lookup_erase_ne different]
          refine Meets.bindOk run ((induction sound').mono ?_ ?_)
          · intro _ final post
            refine ⟨.cons trimmed post.1, ?_⟩
            intro other member
            by_cases here : other = lpn
            · exact here ▸ whole
            · exact (same other here).mp
                (post.2 other ((List.mem_cons.mp member).resolve_left here))
          · intro _ _ failed
            obtain ⟨other, later, torn⟩ := failed
            refine ⟨other, .tail _ later, ?_⟩
            by_cases here : other = lpn
            · refine absurd ?_ torn
              intro mapping found
              rw [here, trimmed.table_eq, AList.lookup_erase] at found
              cases found
            · exact fun intact => torn ((same other here).mpr intact)

end Pages

section Lines

variable {cfg : Config} {range : LPNRange} {cache : GenericCache}

/-- Events of the trim loop over some lines, the first one first. -/
def trimCalls (cfg : Config) (range : LPNRange) (lines : Place → Line) :
    (places : List Place) → (ioFlag : Finset Nat) → List Event
  | [], _ => []
  | place :: rest, ioFlag =>
      let line := lines place
      if inRange range line.tag then
        let marked := insert (line.tag % cfg.lineCountInSuperPage) ioFlag
        .ftlTrim (line.tag / cfg.lineCountInSuperPage) marked ::
          trimCalls cfg range lines rest marked
      else trimCalls cfg range lines rest ioFlag

def trimmedPages (cfg : Config) (range : LPNRange) (lines : Place → Line)
    (places : List Place) : List Nat :=
  (places.filter fun place => inRange range (lines place).tag).map
    fun place => (lines place).tag / cfg.lineCountInSuperPage

theorem serve_trimCalls {ftl : FTL.Config} {env : FTL.Environment}
    {lines : Place → Line} (places : List Place) (ioFlag : Finset Nat) :
    (trimCalls cfg range lines places ioFlag).forM (serve ftl env) =
      (trimmedPages cfg range lines places).forM (FTL.trim ftl) := by
  induction places generalizing ioFlag with
  | nil => rfl
  | cons place rest induction =>
      rw [trimCalls, trimmedPages]
      dsimp only
      by_cases within : inRange range (lines place).tag
      · rw [if_pos within, List.filter_cons_of_pos (by simpa using within),
          List.map_cons]
        exact congrArg (fun after : FTL.FTLM Unit => FTL.trim ftl _ >>=
          fun _ => after) (induction _)
      · rw [if_neg within, List.filter_cons_of_neg (by simpa using within),
          induction]
        rfl

theorem trimLine_out {state : GenericCache × Finset Nat} {place : Place}
    (outside : ¬ inRange range (state.1.cacheData place).tag) :
    trimLine cfg range state place = state := by
  unfold trimLine
  dsimp only
  rw [if_neg outside]

theorem trimLine_cacheData {state : GenericCache × Finset Nat} {place : Place}
    (within : inRange range (state.1.cacheData place).tag) :
    (trimLine cfg range state place).1.cacheData =
      Function.update state.1.cacheData place
        { state.1.cacheData place with valid := false } := by
  unfold trimLine
  dsimp only
  rw [if_pos within, setLine_cacheData]
  rfl

theorem trimLine_tag (state : GenericCache × Finset Nat)
    (place other : Place) :
    ((trimLine cfg range state place).1.cacheData other).tag =
      (state.1.cacheData other).tag := by
  by_cases within : inRange range (state.1.cacheData place).tag
  · rw [trimLine_cacheData within]
    by_cases same : other = place
    · subst same
      rw [Function.update_self]
    · rw [Function.update_of_ne same]
  · rw [trimLine_out within]

theorem foldl_trimLine_log {lines : Place → Line} (places : List Place)
    (state : GenericCache × Finset Nat)
    (agree : ∀ place, (state.1.cacheData place).tag = (lines place).tag) :
    (places.foldl (trimLine cfg range) state).1.log =
      (trimCalls cfg range lines places state.2).reverse ++ state.1.log := by
  induction places generalizing state with
  | nil => rfl
  | cons place rest induction =>
      rw [List.foldl_cons, induction _ fun other =>
        (trimLine_tag state place other).trans (agree other), trimCalls]
      dsimp only
      rw [← agree place]
      by_cases within : inRange range (state.1.cacheData place).tag
      · rw [if_pos within]
        unfold trimLine
        dsimp only
        rw [if_pos within]
        simp [GenericCache.setLine, GenericCache.record]
      · rw [if_neg within, trimLine_out within]

theorem foldl_trimLine_line (places : List Place)
    (state : GenericCache × Finset Nat) (place : Place) :
    (places.foldl (trimLine cfg range) state).1.cacheData place =
      if place ∈ places ∧ inRange range (state.1.cacheData place).tag then
        { state.1.cacheData place with valid := false }
      else state.1.cacheData place :=
  foldl_invalidating_line (fun _ _ => trimLine_cacheData)
    (fun _ _ => trimLine_out) places state place

theorem trim_log (caching : cfg.useReadCaching ∨ cfg.useWriteCaching) :
    (trim cfg range cache).log =
      (trimCalls cfg range cache.cacheData (allPlaces cfg) ∅).reverse ++
        cache.log := by
  unfold trim
  rw [if_pos caching]
  exact foldl_trimLine_log _ (cache, ∅) fun _ => rfl

theorem trim_line (caching : cfg.useReadCaching ∨ cfg.useWriteCaching)
    {place : Place} (member : place ∈ allPlaces cfg) :
    (trim cfg range cache).cacheData place =
      if inRange range (cache.cacheData place).tag then
        { cache.cacheData place with valid := false }
      else cache.cacheData place := by
  unfold trim
  rw [if_pos caching, foldl_trimLine_line]
  simp [member]

theorem inRange_contains {tag : Nat} (within : inRange range tag) :
    range.Contains tag :=
  ⟨within.1, within.2.trans_le (Nat.mod_le _ _)⟩

/-- A line of an aligned range is a line of a logical page of the range. -/
theorem ofRange_iff (first : cfg.lineCountInSuperPage ∣ range.slpn)
    (pages : cfg.lineCountInSuperPage ∣ range.nlp) (tag : Nat) :
    OfRange cfg range (tag / cfg.lineCountInSuperPage) ↔
      range.Contains tag := by
  obtain ⟨start, start_eq⟩ := first
  obtain ⟨count, count_eq⟩ := pages
  have whole := Nat.div_add_mod tag cfg.lineCountInSuperPage
  have digit := Nat.mod_lt tag cfg.lines
  unfold OfRange LPNRange.Contains
  rw [start_eq, count_eq, ← Nat.mul_add, Nat.mul_comm (tag / _)]
  constructor
  · intro bounds
    have upper := Nat.mul_le_mul_left cfg.lineCountInSuperPage
      (Nat.lt_of_mul_lt_mul_left bounds.2)
    rw [Nat.mul_succ] at upper
    omega
  · intro bounds
    have lower : start ≤ tag / cfg.lineCountInSuperPage :=
      (Nat.le_div_iff_mul_le cfg.lines).mpr (by
        rw [Nat.mul_comm]
        exact bounds.1)
    exact ⟨Nat.mul_le_mul_left _ lower, by omega⟩

theorem found_iff (caching : cfg.useReadCaching ∨ cfg.useWriteCaching)
    {lpn : Nat} :
    Found cfg range cache lpn ↔
      lpn ∈ trimmedPages cfg range cache.cacheData (allPlaces cfg) := by
  simp [Found, trimmedPages, and_assoc, caching]

end Lines

theorem trimThrough_run {ftl : FTL.Config} {env : FTL.Environment}
    {cfg : Config} {range : LPNRange} {cache : GenericCache}
    (caching : cfg.useReadCaching ∨ cfg.useWriteCaching) :
    trimThrough ftl env cfg range cache =
      (trimmedPages cfg range cache.cacheData (allPlaces cfg)).forM
        (FTL.trim ftl) >>= fun _ => pure (trim cfg range cache) := by
  have events : issued cache (trim cfg range cache) =
      trimCalls cfg range cache.cacheData (allPlaces cfg) ∅ := by
    unfold issued
    rw [trim_log caching, List.length_append, Nat.add_sub_cancel,
      List.take_left, List.reverse_reverse]
  unfold trimThrough
  dsimp only
  rw [events, serve_trimCalls]

section Range

variable {ftl : FTL.Config} {env : FTL.Environment} {cfg : Config}
  {range : LPNRange} {cache : GenericCache} {state final : FTL.State}

theorem Removed.removable
    (caching : cfg.useReadCaching ∨ cfg.useWriteCaching)
    (unmapped : Unmapped (trimmedPages cfg range cache.cacheData
      (allPlaces cfg)) state final)
    (whole : ∀ lpn ∈ trimmedPages cfg range cache.cacheData (allPlaces cfg),
      FTL.Whole ftl state lpn)
    (removed : Removed cfg range cache (trim cfg range cache) state final) :
    Removable ftl cfg range cache state where
  lines := by
    intro lca contained cached
    obtain ⟨place, member, valid, tag⟩ := cached.2
    by_contra outside
    rw [← tag] at outside
    refine removed.uncached lca contained ⟨caching, place, member, ?_⟩
    rw [trim_line caching member, if_neg outside]
    exact ⟨valid, tag⟩
  pages := by
    intro lpn ofRange mapped
    have member : lpn ∈
        trimmedPages cfg range cache.cacheData (allPlaces cfg) := by
      by_contra missed
      have kept := unmapped.table lpn missed
      rw [removed.unmapped lpn ofRange] at kept
      exact mapped kept.symm
    exact ⟨(found_iff caching).mpr member, whole lpn member⟩

/-- Every page that the loop finds can be trimmed. -/
theorem Removable.whole (removable : Removable ftl cfg range cache state)
    (caching : cfg.useReadCaching ∨ cfg.useWriteCaching)
    (inside : ∀ place, inRange range (cache.cacheData place).tag →
      OfRange cfg range
        ((cache.cacheData place).tag / cfg.lineCountInSuperPage))
    {lpn : Nat} (member : lpn ∈
      trimmedPages cfg range cache.cacheData (allPlaces cfg)) :
    FTL.Whole ftl state lpn := by
  obtain ⟨_, place, listed, within, page⟩ := (found_iff caching).mpr member
  intro mapping found
  refine (removable.pages lpn (page ▸ inside place within) ?_).2 mapping found
  rw [found]
  nofun

theorem Removable.removed (removable : Removable ftl cfg range cache state)
    (caching : cfg.useReadCaching ∨ cfg.useWriteCaching)
    (inside : ∀ place, inRange range (cache.cacheData place).tag →
      OfRange cfg range
        ((cache.cacheData place).tag / cfg.lineCountInSuperPage))
    (unmapped : Unmapped (trimmedPages cfg range cache.cacheData
      (allPlaces cfg)) state final) :
    Removed cfg range cache (trim cfg range cache) state final where
  uncached := by
    intro lca contained cached
    obtain ⟨place, member, valid, tag⟩ := cached.2
    rw [trim_line caching member] at valid tag
    split at valid
    · cases valid
    · next outside =>
        rw [if_neg outside] at tag
        refine outside (tag ▸ removable.lines lca contained ?_)
        exact ⟨caching, place, member, valid, tag⟩
  unmapped := by
    intro lpn ofRange
    by_cases member : lpn ∈
        trimmedPages cfg range cache.cacheData (allPlaces cfg)
    · exact unmapped.gone lpn member
    · rw [unmapped.table lpn member]
      by_contra mapped
      exact member ((found_iff caching).mp
        (removable.pages lpn ofRange mapped).1)
  lines := by
    intro place member outside
    rw [trim_line caching member,
      if_neg fun within => outside (inRange_contains within)]
  pages := by
    intro lpn outside
    have missed : lpn ∉
        trimmedPages cfg range cache.cacheData (allPlaces cfg) := by
      intro member
      obtain ⟨_, place, _, within, page⟩ := (found_iff caching).mpr member
      exact outside (page ▸ inside place within)
    exact ⟨unmapped.table lpn missed, unmapped.stores lpn missed⟩

theorem trimThrough_idle
    (idle : ¬ (cfg.useReadCaching ∨ cfg.useWriteCaching)) :
    (trimThrough ftl env cfg range cache).run state = .ok cache state := by
  have same : trim cfg range cache = cache := by
    unfold trim
    rw [if_neg idle]
  unfold trimThrough
  dsimp only
  rw [same]
  unfold issued
  rw [Nat.sub_self]
  rfl

theorem removed_iff_idle
    (idle : ¬ (cfg.useReadCaching ∨ cfg.useWriteCaching)) :
    Removed cfg range cache cache state state ↔
      Removable ftl cfg range cache state := by
  constructor
  · intro removed
    refine ⟨fun _ _ cached => absurd cached.1 idle, ?_⟩
    intro lpn ofRange mapped
    exact absurd (removed.unmapped lpn ofRange) mapped
  · intro removable
    refine ⟨?_, ?_, fun _ _ _ => rfl, ?_⟩
    · exact fun _ _ cached => idle cached.1
    · intro lpn ofRange
      by_contra mapped
      exact idle (removable.pages lpn ofRange mapped).1.1
    · exact fun _ _ => ⟨rfl, fun _ _ _ => Iff.rfl⟩

end Range

/-- A trim removes the range, and it only, just when the range is removable. -/
theorem trim_range (ftl : FTL.Config) (env : FTL.Environment) (cfg : Config)
    (ops : List FTL.Op) (state : FTL.State)
    (result : FTL.outcome ftl env ops = .ok () state) (range : LPNRange)
    (first : cfg.lineCountInSuperPage ∣ range.slpn)
    (pages : cfg.lineCountInSuperPage ∣ range.nlp) (cache : GenericCache) :
    (∃ trimmed final,
        (trimThrough ftl env cfg range cache).run state = .ok trimmed final ∧
          Removed cfg range cache trimmed state final) ↔
      Removable ftl cfg range cache state := by
  by_cases caching : cfg.useReadCaching ∨ cfg.useWriteCaching
  · have inside : ∀ place, inRange range (cache.cacheData place).tag →
        OfRange cfg range
          ((cache.cacheData place).tag / cfg.lineCountInSuperPage) :=
      fun _ within =>
        (ofRange_iff first pages _).mpr (inRange_contains within)
    have sound : (FTL.machine ftl env .all).sound (.rest _, state) :=
      (FTL.outcome_meets ftl env ops).of_ok result
    have meets := trims_meet
      (trimmedPages cfg range cache.cacheData (allPlaces cfg)) sound
    rw [trimThrough_run caching]
    constructor
    · intro removes
      obtain ⟨trimmed, final, returned, removed⟩ := removes
      obtain ⟨_, middle, trims, rest⟩ := run_bind_ok returned
      cases rest
      obtain ⟨unmapped, whole⟩ := meets.of_ok trims
      exact removed.removable caching unmapped whole
    · intro removable
      cases run : ((trimmedPages cfg range cache.cacheData
          (allPlaces cfg)).forM (FTL.trim ftl)).run state with
      | error raised stopped =>
          obtain ⟨lpn, member, torn⟩ := meets.of_error run
          exact absurd (removable.whole caching inside member) torn
      | ok value final =>
          refine ⟨trim cfg range cache, final, ?_,
            removable.removed caching inside (meets.of_ok run).1⟩
          rw [EStateM.run_bind, run]
          rfl
  · rw [← removed_iff_idle caching]
    constructor
    · intro removes
      obtain ⟨trimmed, final, returned, removed⟩ := removes
      rw [trimThrough_idle caching] at returned
      cases returned
      exact removed
    · exact fun removed => ⟨cache, state, trimThrough_idle caching, removed⟩

/-- The page is cached and written, and then trimmed. -/
theorem trim_range_cached :
    ∃ state cache, FTL.outcome FTL.sampleConfig FTL.sampleEnvironment
        [.initializeFTL, FTL.writePage 1] = .ok () state ∧
      (state.table.lookup 1).isSome = true ∧
      Call.performAll singleLine countingEnvironment
        [.write (shortRequest 1)] (make 0) = .ok cache ∧
      ∃ trimmed final, (trimThrough FTL.sampleConfig FTL.sampleEnvironment
          singleLine ⟨1, 1⟩ cache).run state = .ok trimmed final ∧
        Removed singleLine ⟨1, 1⟩ cache trimmed state final := by
  have evaluated : FTL.returns (FTL.outcome FTL.sampleConfig
      FTL.sampleEnvironment [.initializeFTL, FTL.writePage 1]) (fun state =>
        (state.table.lookup 1).isSome &&
          FTL.isWhole FTL.sampleConfig 1 state) = true := by
    decide +kernel
  obtain ⟨state, result, test⟩ := FTL.returns_iff.mp evaluated
  obtain ⟨mapped, whole⟩ := (Bool.and_eq_true _ _).mp test
  obtain ⟨cache, cached, tag⟩ : ∃ cache,
      Call.performAll singleLine countingEnvironment
        [.write (shortRequest 1)] (make 0) = .ok cache ∧
      (cache.cacheData (0, 0)).tag = 1 := ⟨_, rfl, rfl⟩
  refine ⟨state, cache, result, mapped, cached, ?_⟩
  refine (trim_range FTL.sampleConfig FTL.sampleEnvironment singleLine _ state
    result ⟨1, 1⟩ (Nat.one_dvd _) (Nat.one_dvd _) cache).mpr ⟨?_, ?_⟩
  · intro lca contained _
    obtain ⟨lower, upper⟩ := contained
    obtain rfl : lca = 1 := Nat.le_antisymm (Nat.le_of_lt_succ upper) lower
    decide
  · intro lpn ofRange _
    obtain ⟨lower, upper⟩ := ofRange
    obtain rfl : lpn = 1 := by
      have one : lpn * singleLine.lineCountInSuperPage = lpn := Nat.mul_one lpn
      rw [one] at lower upper
      exact Nat.le_antisymm (Nat.le_of_lt_succ upper) lower
    refine ⟨⟨.inl rfl, (0, 0), by decide, ?_, ?_⟩, FTL.isWhole_iff.mp whole⟩
    · rw [tag]
      decide
    · rw [tag]
      rfl

/-- The page is written but not cached, and stays where it is. -/
theorem trim_range_uncached :
    ∃ state, FTL.outcome FTL.sampleConfig FTL.sampleEnvironment
        [.initializeFTL, FTL.writePage 1] = .ok () state ∧
      ¬ ∃ trimmed final, (trimThrough FTL.sampleConfig FTL.sampleEnvironment
          singleLine ⟨1, 1⟩ (make 0)).run state = .ok trimmed final ∧
        Removed singleLine ⟨1, 1⟩ (make 0) trimmed state final := by
  have evaluated : FTL.returns (FTL.outcome FTL.sampleConfig
      FTL.sampleEnvironment [.initializeFTL, FTL.writePage 1])
      (fun state => (state.table.lookup 1).isSome) = true := by
    decide +kernel
  obtain ⟨state, result, mapped⟩ := FTL.returns_iff.mp evaluated
  refine ⟨state, result, ?_⟩
  intro removes
  obtain ⟨trimmed, final, returned, removed⟩ := removes
  cases returned
  rw [removed.unmapped 1 (And.intro (Nat.le_refl 1) (Nat.lt_succ_self 1))]
    at mapped
  cases mapped

end GenericCache

end SimpleSSD.ICL
