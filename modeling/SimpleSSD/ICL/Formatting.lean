import SimpleSSD.ICL.Emptying
import SimpleSSD.ICL.Issuing

namespace SimpleSSD.ICL

/-! A format of a range of lines: the pages it names, and the lines of the range
that later calls still write. -/

/-- A flush, or a read or a write of a line of the device that is not in the
range. -/
def Call.Elsewhere (total : Nat) (range : LPNRange) : Call → Prop
  | .flush _ => True
  | .read req | .write req => req.slpn < total ∧ ¬range.Contains req.slpn
  | .trim _ | .format _ => False

theorem Call.Elsewhere.below {total : Nat} {range : LPNRange} {call : Call}
    (elsewhere : call.Elsewhere total range) : call.Below total := by
  cases call with
  | read req | write req => exact elsewhere.1
  | flush | trim | format => trivial

namespace GenericCache

variable {cfg : Config} {env : Environment} {range : LPNRange}
  {cache changed final : GenericCache} {total : Nat}

/-- The cache has data of the address in the range, or has had them in a line
that no other has taken since. -/
def CachedBefore (cfg : Config) (range : LPNRange) (cache : GenericCache)
    (lca : Nat) : Prop :=
  range.Contains lca ∧ ∃ place ∈ allPlaces cfg,
    (cache.cacheData place).tag = lca ∧
      ((cache.cacheData place).valid = true ∨
        (cache.cacheData place).dirty = true)

/-- The FTL formats the pages of the range, and no later write carries a line of
the range that was cached. -/
structure FormatExact (cfg : Config) (total : Nat) (range : LPNRange)
    (cache : GenericCache) : Prop where
  passed : ∃ slpn nlp,
    (format cfg range cache).log = .ftlFormat slpn nlp :: cache.log ∧
    ∀ lpn, (slpn ≤ lpn ∧ lpn < slpn + nlp) ↔
      ∃ lca, range.Contains lca ∧ lca / cfg.lineCountInSuperPage = lpn
  finished : ∀ env later final,
    (∀ call ∈ later, Call.Elsewhere total range call) →
    Call.performAll cfg env later (format cfg range cache) = .ok final →
      ∃ issued, final.log = issued ++ (format cfg range cache).log ∧
        ∀ event ∈ issued, ∀ lca, CachedBefore cfg range cache lca →
          ¬event.Covers cfg lca

/-- Two lines outside the range, one of the same page and one that has the same
unit of its page; a flush can come to the second before the first. -/
def Mixes (cfg : Config) (total : Nat) (range : LPNRange) (lca : Nat) :
    Prop :=
  ∃ paged aligned, (paged < total ∧ ¬range.Contains paged) ∧
    (aligned < total ∧ ¬range.Contains aligned) ∧
    paged / cfg.lineCountInSuperPage = lca / cfg.lineCountInSuperPage ∧
    aligned % cfg.lineCountInSuperPage = lca % cfg.lineCountInSuperPage ∧
    (calcSetIndex cfg aligned < calcSetIndex cfg paged ∨
      (calcSetIndex cfg aligned = calcSetIndex cfg paged ∧ 2 ≤ cfg.waySize))

/-- The first line of the range is early enough in its page, no line of the
range has the dirty flag, and none that is cached can be mixed. -/
structure FormatSafe (cfg : Config) (total : Nat) (range : LPNRange)
    (cache : GenericCache) : Prop where
  covered : (range.slpn % cfg.lineCountInSuperPage + (range.nlp - 1)) /
    cfg.lineCountInSuperPage = (range.nlp - 1) / cfg.lineCountInSuperPage
  clean : ∀ place ∈ allPlaces cfg, (cache.cacheData place).dirty = true →
    ¬range.Contains (cache.cacheData place).tag
  separate : cfg.useWriteCaching = true → ∀ place ∈ allPlaces cfg,
    (cache.cacheData place).valid = true →
      range.Contains (cache.cacheData place).tag →
        ¬Mixes cfg total range (cache.cacheData place).tag

/-! Which lines have the dirty flag. -/

/-- Only writes that are cached set the flag, in the set of their line. -/
def Lodged (cfg : Config) (total : Nat) (cache : GenericCache) : Prop :=
  ∀ place, (cache.cacheData place).dirty = true →
    cfg.useWriteCaching = true ∧ Inside cfg place ∧
      place.1 = calcSetIndex cfg (cache.cacheData place).tag ∧
      (cache.cacheData place).tag < total

theorem DirtyFrom.lodged (kept : DirtyFrom cache changed)
    (lodged : Lodged cfg total cache) : Lodged cfg total changed := by
  intro place dirty
  obtain ⟨before, same⟩ := kept place dirty
  rw [same]
  exact lodged place before

theorem Dirties.lodged {req : Request} (dirties : Dirties cfg req cache final)
    (below : req.slpn < total) (lodged : Lodged cfg total cache) :
    Lodged cfg total final := by
  intro place dirty
  rcases dirties.flags place dirty with ⟨before, same⟩ |
    ⟨caching, inside, own, tag⟩
  · rw [same]
    exact lodged place before
  · rw [tag]
    exact ⟨caching, inside, own, below⟩

theorem perform_lodged {call : Call} (sound : Sound cfg cache)
    (below : call.Below total) (lodged : Lodged cfg total cache)
    (result : call.perform cfg env cache = .ok final) :
    Lodged cfg total final := by
  cases call with
  | write req => exact (write_dirties sound result).lodged below lodged
  | read req => exact (read_dirtyFrom result).lodged lodged
  | flush range =>
      cases result
      exact flush_dirtyFrom.lodged lodged
  | trim range =>
      cases result
      exact trim_dirtyFrom.lodged lodged
  | format range =>
      cases result
      exact format_dirtyFrom.lodged lodged

theorem performAll_lodged {calls : List Call} (sound : Sound cfg cache)
    (below : ∀ call ∈ calls, Call.Below total call)
    (lodged : Lodged cfg total cache)
    (result : Call.performAll cfg env calls cache = .ok final) :
    Lodged cfg total final :=
  Call.performAll_keeps
    (fun call member _ _ sound => perform_lodged sound (below call member))
    sound lodged result

/-! What later calls write, if the format is safe. -/

def CleanIn (range : LPNRange) (cache : GenericCache) : Prop :=
  ∀ lca, cache.Dirty lca → ¬range.Contains lca

theorem flush_safe {flushed : LPNRange} {state : GenericCache}
    (safe : FormatSafe cfg total range cache)
    (lodged : Lodged cfg total state) (clean : CleanIn range state) :
    Issues cfg (fun lca => ¬CachedBefore cfg range cache lca) state
      (flush cfg flushed state) := by
  by_cases caching : cfg.useReadCaching ∨ cfg.useWriteCaching
  · obtain ⟨issued, log, events⟩ := @flush_issues cfg flushed state caching
    refine ⟨issued, log, ?_⟩
    intro event member lca covers cached
    obtain ⟨place, inside, ⟨_, dirty⟩, marked, rfl, units⟩ :=
      events.lines event member
    obtain ⟨page, unit⟩ := covers
    obtain ⟨within, origin, known, tag, held⟩ := cached
    have outside := clean _ ⟨place, dirty, rfl⟩
    rcases (units _).mp unit with own | ⟨other, _, precedes, ⟨_, flag⟩, same⟩
    · have equal := eq_of_unit page own.symm
      exact outside (equal ▸ within)
    · obtain ⟨writing, _, own, below⟩ := lodged place dirty
      obtain ⟨_, ⟨_, _⟩, set, belowOther⟩ := lodged other flag
      rcases held with valid | stale
      · refine safe.separate writing origin known valid (tag ▸ within)
          ⟨_, _, ⟨below, outside⟩,
            ⟨belowOther, clean _ ⟨other, flag, rfl⟩⟩, ?_, ?_, ?_⟩
        · rw [tag]
          exact page
        · rw [tag]
          exact same
        · rw [← own, ← set]
          rcases precedes with less | ⟨equal, less⟩
          · exact .inl less
          · have bound := inside.2
            exact .inr ⟨equal, by omega⟩
      · exact safe.clean origin known stale (tag ▸ within)
  · refine .of_log ?_
    unfold flush
    rw [if_neg caching]

theorem perform_safe {call : Call} {state : GenericCache}
    (safe : FormatSafe cfg total range cache)
    (elsewhere : call.Elsewhere total range) (sound : Sound cfg state)
    (lodged : Lodged cfg total state) (clean : CleanIn range state)
    (result : call.perform cfg env state = .ok final) :
    CleanIn range final ∧
      Issues cfg (fun lca => ¬CachedBefore cfg range cache lca) state final := by
  have harmless : ∀ lca, state.Dirty lca → ¬CachedBefore cfg range cache lca :=
    fun lca dirty cached => clean lca dirty cached.1
  cases call with
  | flush flushed =>
      cases result
      exact ⟨fun lca dirty => clean lca (flush_dirtyFrom.dirty dirty),
        flush_safe safe lodged clean⟩
  | read req =>
      exact ⟨fun lca dirty => clean lca ((read_dirtyFrom result).dirty dirty),
        (read_issues sound result).mono harmless⟩
  | write req =>
      obtain ⟨flags, issues⟩ := write_dirties sound result
      refine ⟨?_, issues.mono ?_⟩
      · rintro lca ⟨place, dirty, rfl⟩
        rcases flags place dirty with ⟨before, same⟩ | ⟨_, _, _, tag⟩
        · rw [same]
          exact clean _ ⟨place, before, rfl⟩
        · rw [tag]
          exact elsewhere.2
      · rintro lca (rfl | dirty)
        · exact fun cached => elsewhere.2 cached.1
        · exact harmless lca dirty
  | trim trimmed => exact elsewhere.elim
  | format formatted => exact elsewhere.elim

theorem performAll_safe {calls : List Call} {state : GenericCache}
    (safe : FormatSafe cfg total range cache)
    (elsewhere : ∀ call ∈ calls, Call.Elsewhere total range call)
    (sound : Sound cfg state) (lodged : Lodged cfg total state)
    (clean : CleanIn range state)
    (result : Call.performAll cfg env calls state = .ok final) :
    Issues cfg (fun lca => ¬CachedBefore cfg range cache lca) state final := by
  have kept : Lodged cfg total final ∧ CleanIn range final ∧
      Issues cfg (fun lca => ¬CachedBefore cfg range cache lca) state final := by
    refine @Call.performAll_keeps cfg env (fun reached =>
      Lodged cfg total reached ∧ CleanIn range reached ∧
        Issues cfg (fun lca => ¬CachedBefore cfg range cache lca) state reached)
      _ _ _ ?_ sound ⟨lodged, clean, .of_log rfl⟩ result
    rintro call member before after sound ⟨lodged, clean, issues⟩ performed
    obtain ⟨cleaned, more⟩ :=
      perform_safe safe (elsewhere call member) sound lodged clean performed
    exact ⟨perform_lodged sound (elsewhere call member).below lodged performed,
      cleaned, issues.trans more⟩
  exact kept.2.2

/-! What a format passes on. -/

theorem format_log (nonempty : 0 < range.nlp) (bounded : range.nlp < 2 ^ 64) :
    (format cfg range cache).log =
      .ftlFormat (range.slpn / cfg.lineCountInSuperPage)
        ((range.nlp - 1) / cfg.lineCountInSuperPage + 1) :: cache.log := by
  have less : (range.nlp + (2 ^ 64 - 1)) % 2 ^ 64 = range.nlp - 1 := by omega
  have quotient : (range.nlp - 1) / cfg.lineCountInSuperPage ≤ range.nlp - 1 :=
    Nat.div_le_self _ _
  have cleared : ∀ (lcas : List Nat) (cache : GenericCache),
      (lcas.foldl (invalidateLCA cfg) cache).log = cache.log := by
    intro lcas
    induction lcas with
    | nil => exact fun _ => rfl
    | cons lca rest induction =>
        intro cache
        rw [List.foldl_cons, induction]
        unfold invalidateLCA
        dsimp only
        split <;> rfl
  unfold format record
  dsimp only
  rw [less, Nat.mod_eq_of_lt (by omega)]
  split
  · rw [cleared]
  · rfl

/-- The pages of a range are those from its first line to its last. -/
theorem page_of_range (nonempty : 0 < range.nlp) (lpn : Nat) :
    (∃ lca, range.Contains lca ∧ lca / cfg.lineCountInSuperPage = lpn) ↔
      range.slpn / cfg.lineCountInSuperPage ≤ lpn ∧
        lpn ≤ (range.slpn + (range.nlp - 1)) / cfg.lineCountInSuperPage := by
  constructor
  · rintro ⟨lca, ⟨first, last⟩, rfl⟩
    exact ⟨Nat.div_le_div_right first, Nat.div_le_div_right (by omega)⟩
  · rintro ⟨first, last⟩
    rw [Nat.le_div_iff_mul_le cfg.lines] at last
    rcases Nat.eq_or_lt_of_le first with same | later
    · exact ⟨range.slpn, ⟨Nat.le_refl _, by omega⟩, same⟩
    · rw [Nat.div_lt_iff_lt_mul cfg.lines] at later
      exact ⟨lpn * cfg.lineCountInSuperPage, ⟨by omega, by omega⟩,
        Nat.mul_div_cancel _ cfg.lines⟩

theorem last_page :
    (range.slpn + (range.nlp - 1)) / cfg.lineCountInSuperPage =
      range.slpn / cfg.lineCountInSuperPage +
        (range.slpn % cfg.lineCountInSuperPage + (range.nlp - 1)) /
          cfg.lineCountInSuperPage := by
  have split := Nat.div_add_mod range.slpn cfg.lineCountInSuperPage
  have parts : range.slpn + (range.nlp - 1) =
      range.slpn % cfg.lineCountInSuperPage + (range.nlp - 1) +
        cfg.lineCountInSuperPage *
          (range.slpn / cfg.lineCountInSuperPage) := by omega
  rw [parts, Nat.add_mul_div_left _ _ cfg.lines, Nat.add_comm]

/-- The FTL is given the pages of the range just when the quotients agree. -/
theorem passed_iff (nonempty : 0 < range.nlp) (bounded : range.nlp < 2 ^ 64) :
    (∃ slpn nlp,
      (format cfg range cache).log = .ftlFormat slpn nlp :: cache.log ∧
      ∀ lpn, (slpn ≤ lpn ∧ lpn < slpn + nlp) ↔
        ∃ lca, range.Contains lca ∧ lca / cfg.lineCountInSuperPage = lpn) ↔
    (range.slpn % cfg.lineCountInSuperPage + (range.nlp - 1)) /
      cfg.lineCountInSuperPage = (range.nlp - 1) / cfg.lineCountInSuperPage := by
  have log := @format_log cfg range cache nonempty bounded
  constructor
  · rintro ⟨slpn, nlp, passed, pages⟩
    rw [log] at passed
    cases passed
    have last := (pages ((range.slpn + (range.nlp - 1)) /
      cfg.lineCountInSuperPage)).mpr
        ((page_of_range nonempty _).mpr
          ⟨Nat.div_le_div_right (Nat.le_add_right _ _), Nat.le_refl _⟩)
    have end' := ((page_of_range nonempty _).mp ((pages
      (range.slpn / cfg.lineCountInSuperPage +
        (range.nlp - 1) / cfg.lineCountInSuperPage)).mp ⟨by omega, by omega⟩)).2
    rw [last_page] at last end'
    omega
  · intro quotients
    refine ⟨_, _, log, ?_⟩
    intro lpn
    rw [page_of_range nonempty, last_page, quotients]
    omega

theorem invalidateLCA_lines (lca : Nat) (place : Place) :
    ((invalidateLCA cfg cache lca).cacheData place).dirty =
        (cache.cacheData place).dirty ∧
      ((invalidateLCA cfg cache lca).cacheData place).tag =
        (cache.cacheData place).tag := by
  unfold invalidateLCA
  dsimp only
  split
  · rw [setLine_cacheData]
    by_cases same : place = (calcSetIndex cfg lca, getValidWay cfg cache lca)
    · rw [same, Function.update_self]
      exact ⟨rfl, rfl⟩
    · rw [Function.update_of_ne same]
      exact ⟨rfl, rfl⟩
  · exact ⟨rfl, rfl⟩

theorem format_lines (place : Place) :
    ((format cfg range cache).cacheData place).dirty =
        (cache.cacheData place).dirty ∧
      ((format cfg range cache).cacheData place).tag =
        (cache.cacheData place).tag := by
  have lines : ∀ (lcas : List Nat) (cache : GenericCache),
      ((lcas.foldl (invalidateLCA cfg) cache).cacheData place).dirty =
          (cache.cacheData place).dirty ∧
        ((lcas.foldl (invalidateLCA cfg) cache).cacheData place).tag =
          (cache.cacheData place).tag := by
    intro lcas
    induction lcas with
    | nil => exact fun _ => ⟨rfl, rfl⟩
    | cons lca rest induction =>
        intro cache
        obtain ⟨dirty, tag⟩ := @invalidateLCA_lines cfg cache lca place
        rw [List.foldl_cons, (induction _).1, (induction _).2]
        exact ⟨dirty, tag⟩
  unfold format
  dsimp only
  split
  · exact lines _ _
  · exact ⟨rfl, rfl⟩

/-! What later calls write, if the format is not safe. -/

theorem FormatExact.away {calls : List Call} {issued : List Event}
    {event : Event} {lca : Nat} (holds : FormatExact cfg total range cache)
    (elsewhere : ∀ call ∈ calls, Call.Elsewhere total range call)
    (result : Call.performAll cfg env calls (format cfg range cache) =
      .ok final)
    (log : final.log = issued ++ (format cfg range cache).log)
    (member : event ∈ issued) (cached : CachedBefore cfg range cache lca) :
    ¬event.Covers cfg lca := by
  obtain ⟨issued', log', carries⟩ := holds.finished env calls final elsewhere
    result
  have same := List.append_cancel_right (log'.symm.trans log)
  exact carries event (same ▸ member) lca cached

theorem clean_of_exact (bounded : total < 2 ^ 64)
    (lodged : Lodged cfg total cache)
    (holds : FormatExact cfg total range cache) (place : Place)
    (member : place ∈ allPlaces cfg)
    (dirty : (cache.cacheData place).dirty = true) :
    ¬range.Contains (cache.cacheData place).tag := by
  intro within
  obtain ⟨caching, inside, _, below⟩ := lodged place dirty
  obtain ⟨flag, tag⟩ := @format_lines cfg range cache place
  -- the flush of this line alone finds it by its tag and its flag
  have flushed : Flushed ⟨(cache.cacheData place).tag, 1⟩
      ((format cfg range cache).cacheData place) := by
    refine ⟨?_, flag.trans dirty⟩
    unfold inRange
    dsimp only
    rw [tag, Nat.mod_eq_of_lt (by omega)]
    omega
  obtain ⟨issued, log, events⟩ := @flush_issues cfg
    ⟨(cache.cacheData place).tag, 1⟩ (format cfg range cache) (.inr caching)
  obtain ⟨marked, written, units⟩ := events.writes place inside flushed
  have own := (units _).mpr (.inl rfl)
  rw [tag] at written own
  have elsewhere : ∀ call ∈ [Call.flush ⟨(cache.cacheData place).tag, 1⟩],
      Call.Elsewhere total range call := by
    intro call there
    rw [List.mem_singleton.mp there]
    trivial
  exact @FormatExact.away cfg steadyEnvironment range cache _ total _ _ _ _
    holds elsewhere rfl log written ⟨within, place, member, rfl, .inr dirty⟩
    ⟨rfl, own⟩

theorem writes_in_order {paged aligned : Nat} (sized : 0 < cfg.lineSize)
    (caching : cfg.useWriteCaching = true) (stamped : cache.Stamped)
    (empty : Empty cfg cache) (different : aligned ≠ paged)
    (order : calcSetIndex cfg aligned < calcSetIndex cfg paged ∨
      (calcSetIndex cfg aligned = calcSetIndex cfg paged ∧ 2 ≤ cfg.waySize)) :
    ∃ calls final earlier later, (∀ call ∈ calls, ∃ req, call = .write req ∧
        (req.slpn = paged ∨ req.slpn = aligned)) ∧
      Call.performAll cfg steadyEnvironment calls cache = .ok final ∧
      (∃ issued, final.log = issued ++ cache.log) ∧
      DirtyAt cfg final earlier aligned ∧ DirtyAt cfg final later paged ∧
      Precedes earlier later := by
  have fill := fun first second apart => @writes_fill cfg steadyEnvironment cache
    ⟨2, first, 1, 0, 0⟩ ⟨2, second, 1, 0, 0⟩ caching ⟨sized, sized⟩ stamped
    empty apart
  have calls : ∀ first second, (first = paged ∨ first = aligned) →
      (second = paged ∨ second = aligned) →
      ∀ call ∈ [Call.write ⟨2, first, 1, 0, 0⟩, .write ⟨2, second, 1, 0, 0⟩],
        ∃ req, call = .write req ∧ (req.slpn = paged ∨ req.slpn = aligned) := by
    intro first second own own' call member
    rcases List.mem_cons.mp member with rfl | member
    · exact ⟨_, rfl, own⟩
    · exact ⟨_, List.mem_singleton.mp member, own'⟩
  rcases order with less | ⟨equal, two⟩
  · obtain ⟨final, ways, _, result, log, front, back, _⟩ :=
      fill aligned paged different (.inl (Nat.ne_of_lt less))
    exact ⟨_, final, _, _, calls _ _ (.inr rfl) (.inl rfl), result, ⟨[_, _], log⟩,
      front, back, .inl less⟩
  · -- the ways do not depend on the lines, so one of the two orders will do
    obtain ⟨final, ways, taken, result, log, front, back, own⟩ :=
      fill aligned paged different (.inr two)
    obtain ⟨final', ways', taken', result', log', front', back', _⟩ :=
      fill paged aligned different.symm (.inr two)
    dsimp only at taken taken' own front back front' back'
    rw [equal] at taken taken' own front back'
    rw [← taken] at taken'
    rw [taken'] at front' back'
    have unequal : ways.1 ≠ ways.2 := fun same => own (same ▸ rfl)
    rcases Nat.lt_or_gt_of_ne unequal with less | more
    · exact ⟨_, final, _, _, calls _ _ (.inr rfl) (.inl rfl), result,
        ⟨[_, _], log⟩, front, back, .inr ⟨rfl, less⟩⟩
    · exact ⟨_, final', _, _, calls _ _ (.inl rfl) (.inr rfl), result',
        ⟨[_, _], log'⟩, back', front', .inr ⟨rfl, more⟩⟩

theorem performAll_append {calls calls' : List Call}
    (first : Call.performAll cfg env calls cache = .ok changed)
    (second : Call.performAll cfg env calls' changed = .ok final) :
    Call.performAll cfg env (calls ++ calls') cache = .ok final := by
  induction calls generalizing cache with
  | nil =>
      cases first
      exact second
  | cons call rest induction =>
      rw [Call.performAll] at first
      rw [List.cons_append, Call.performAll]
      split at first
      · cases first
      · exact induction first

theorem steady_ticks (n : Nat) : steadyEnvironment.tick n < maxTick := by
  have early : 1 < maxTick := by decide
  exact early

/-- After a flush of every line and writes of two, another flush writes one
with the bit of the other. -/
theorem mixed_run {paged aligned : Nat} (sized : 0 < cfg.lineSize)
    (caching : cfg.useWriteCaching = true) (sound : Sound cfg cache)
    (stamped : cache.Stamped) (tagged : cache.Tagged)
    (below : paged < maxTick ∧ aligned < maxTick) (different : aligned ≠ paged)
    (order : calcSetIndex cfg aligned < calcSetIndex cfg paged ∨
      (calcSetIndex cfg aligned = calcSetIndex cfg paged ∧ 2 ≤ cfg.waySize)) :
    ∃ calls final issued marked, (∀ call ∈ calls, (∃ range, call = .flush range) ∨
        ∃ req, call = .write req ∧ (req.slpn = paged ∨ req.slpn = aligned)) ∧
      Call.performAll cfg steadyEnvironment calls cache = .ok final ∧
      final.log = issued ++ cache.log ∧
      .ftlWrite (paged / cfg.lineCountInSuperPage) marked ∈ issued ∧
      aligned % cfg.lineCountInSuperPage ∈ marked := by
  have emptied : (flush cfg ⟨0, maxTick⟩ cache).Stamped :=
    stamped.perform steady_ticks (.flush ⟨0, maxTick⟩) sound rfl
  obtain ⟨first, log, _⟩ := @flush_issues cfg ⟨0, maxTick⟩ cache (.inr caching)
  obtain ⟨calls, filled, earlier, later, writes, result, ⟨second, log'⟩, front,
    back, precedes⟩ := writes_in_order sized caching emptied
      (flush_empty tagged (.inr caching)) different order
  obtain ⟨third, log'', events⟩ := @flush_issues cfg ⟨0, maxTick⟩ filled
    (.inr caching)
  have reach : ∀ place lca, DirtyAt cfg filled place lca → lca < maxTick →
      Flushed ⟨0, maxTick⟩ (filled.cacheData place) := by
    intro place lca dirty less
    have whole : (0 + maxTick) % 2 ^ 64 = maxTick := by decide
    refine ⟨⟨Nat.zero_le _, ?_⟩, dirty.2.1⟩
    rw [whole, dirty.2.2]
    exact less
  obtain ⟨marked, written, units⟩ :=
    events.writes later back.1 (reach later paged back below.1)
  rw [back.2.2] at written
  refine ⟨[.flush ⟨0, maxTick⟩] ++ (calls ++ [.flush ⟨0, maxTick⟩]),
    flush cfg ⟨0, maxTick⟩ filled, third ++ (second ++ first), marked,
    ?_, ?_, ?_, List.mem_append_left _ written, ?_⟩
  · intro call there
    rcases List.mem_append.mp there with there | there
    · exact .inl ⟨_, List.mem_singleton.mp there⟩
    rcases List.mem_append.mp there with there | there
    · exact .inr (writes call there)
    · exact .inl ⟨_, List.mem_singleton.mp there⟩
  · exact performAll_append rfl (performAll_append result rfl)
  · rw [log'', log', log, List.append_assoc, List.append_assoc]
  · refine (units _).mpr (.inr ⟨earlier, front.1, precedes,
      reach earlier aligned front below.2, ?_⟩)
    rw [front.2.2]

theorem separate_of_exact (bounded : total < 2 ^ 64) (sized : 0 < cfg.lineSize)
    (sound : Sound cfg cache) (stamped : cache.Stamped) (tagged : cache.Tagged)
    (holds : FormatExact cfg total range cache)
    (caching : cfg.useWriteCaching = true) (place : Place)
    (member : place ∈ allPlaces cfg)
    (valid : (cache.cacheData place).valid = true)
    (within : range.Contains (cache.cacheData place).tag) :
    ¬Mixes cfg total range (cache.cacheData place).tag := by
  rintro ⟨paged, aligned, away, away', page, unit, order⟩
  have different : aligned ≠ paged := by
    rintro rfl
    exact away.2 (eq_of_unit page unit ▸ within)
  have limit : total ≤ maxTick := Nat.le_sub_one_of_lt bounded
  obtain ⟨calls, final, issued, marked, others, result, log, written, bit⟩ :=
    mixed_run sized caching
      (@Call.perform_sound cfg steadyEnvironment (.format range) _ _ sound rfl)
      (stamped.perform steady_ticks (.format range) sound rfl)
      (tagged.of_same fun other => (format_lines other).2)
      ⟨Nat.lt_of_lt_of_le away.1 limit, Nat.lt_of_lt_of_le away'.1 limit⟩
      different order
  have elsewhere : ∀ call ∈ calls, Call.Elsewhere total range call := by
    intro call there
    rcases others call there with ⟨_, rfl⟩ | ⟨req, rfl, own⟩
    · trivial
    · have target : req.slpn < total ∧ ¬range.Contains req.slpn := by
        rcases own with own | own
        · rw [own]
          exact away
        · rw [own]
          exact away'
      exact target
  exact holds.away elsewhere result log written
    ⟨within, place, member, rfl, .inl valid⟩ ⟨page, unit ▸ bit⟩

theorem make_lodged (lastPrefetched : Nat) :
    Lodged cfg total (make lastPrefetched) :=
  fun _ dirty => nomatch dirty

/-- A format of a range covers it and is final if it is safe, and only then if
the ticks of the earlier calls can be told from none. -/
theorem format_covers_finally (cfg : Config) (env : Environment)
    (total lastPrefetched : Nat) (earlier : List Call) (range : LPNRange)
    (cache : GenericCache)
    (reached : Call.performAll cfg env earlier (make lastPrefetched) = .ok cache)
    (below : ∀ call ∈ earlier, Call.Below total call)
    (bounded : total < 2 ^ 64) (nonempty : 0 < range.nlp)
    (length : range.nlp < 2 ^ 64) :
    (FormatSafe cfg total range cache → FormatExact cfg total range cache) ∧
      ((∀ n, env.tick n < maxTick) → 0 < cfg.lineSize →
        FormatExact cfg total range cache →
          FormatSafe cfg total range cache) := by
  have sound := Call.performAll_sound earlier (make_sound lastPrefetched) reached
  have lodged := performAll_lodged (make_sound lastPrefetched) below
    (make_lodged lastPrefetched) reached
  have tagged := Tagged.performAll (make_sound lastPrefetched) below bounded
    (.make lastPrefetched) reached
  constructor
  · intro safe
    refine ⟨(passed_iff nonempty length).mpr safe.covered, ?_⟩
    intro env later final elsewhere result
    have clean : CleanIn range (format cfg range cache) := by
      rintro lca ⟨place, dirty, rfl⟩
      obtain ⟨flag, tag⟩ := @format_lines cfg range cache place
      rw [flag] at dirty
      rw [tag]
      exact safe.clean place (mem_allPlaces.mpr (lodged place dirty).2.1) dirty
    obtain ⟨issued, log, carries⟩ := performAll_safe safe elsewhere
      (@Call.perform_sound cfg env (.format range) _ _ sound rfl)
      (format_dirtyFrom.lodged lodged) clean result
    exact ⟨issued, log, fun event member lca cached covers =>
      carries event member lca covers cached⟩
  · intro ticks sized holds
    have stamped := Stamped.performAll ticks earlier
      (make_sound lastPrefetched) (.make lastPrefetched) reached
    exact ⟨(passed_iff nonempty length).mp holds.passed,
      clean_of_exact bounded lodged holds,
      separate_of_exact bounded sized sound stamped tagged holds⟩

/-- With a dirty line of another page, the first page can be formatted. -/
theorem format_covers_finally_page :
    ∃ cache, Call.performAll foldedConfig steadyEnvironment
        [.write (shortWrite 4)] (make 0) = .ok cache ∧
      FormatExact foldedConfig 8 ⟨0, 2⟩ cache := by
  obtain ⟨cache, reached, clean, away⟩ : ∃ cache,
      Call.performAll foldedConfig steadyEnvironment
        [.write (shortWrite 4)] (make 0) = .ok cache ∧
      (∀ place ∈ allPlaces foldedConfig,
        (cache.cacheData place).dirty = true →
          ¬LPNRange.Contains ⟨0, 2⟩ (cache.cacheData place).tag) ∧
      ∀ place ∈ allPlaces foldedConfig,
        (cache.cacheData place).valid = true →
          ¬LPNRange.Contains ⟨0, 2⟩ (cache.cacheData place).tag :=
    ⟨_, rfl, by decide, by decide⟩
  have below : ∀ call ∈ [Call.write (shortWrite 4)], Call.Below 8 call := by
    intro call member
    rw [List.mem_singleton.mp member]
    have inside : 4 < 8 := by decide
    exact inside
  exact ⟨cache, reached, (format_covers_finally foldedConfig steadyEnvironment
    8 0 _ ⟨0, 2⟩ cache reached below (by decide) (by decide) (by decide)).1
    ⟨by decide, clean, fun _ place member valid within =>
      absurd within (away place member valid)⟩⟩

/-- Two lines across a page border are formatted as one page, and a dirty line
is written by a flush after its format. -/
theorem format_leaves_line :
    ¬FormatExact foldedConfig 8 ⟨1, 2⟩ (make 0) ∧
      ∃ cache, Call.performAll foldedConfig steadyEnvironment
          [.write (shortWrite 0)] (make 0) = .ok cache ∧
        ¬FormatExact foldedConfig 8 ⟨0, 2⟩ cache := by
  constructor
  · intro holds
    have quotients := (passed_iff (by decide) (by decide)).mp holds.passed
    revert quotients
    decide
  · refine ⟨_, rfl, fun holds => ?_⟩
    have elsewhere : ∀ call ∈ [Call.flush ⟨0, 8⟩],
        Call.Elsewhere 8 ⟨0, 2⟩ call := by
      intro call there
      rw [List.mem_singleton.mp there]
      trivial
    exact @FormatExact.away _ steadyEnvironment _ _ _ _ _ [.ftlWrite 0 {0}] _ 0
      holds elsewhere rfl rfl (.head _)
      ⟨by decide, (0, 0), by decide, rfl, .inl rfl⟩ ⟨rfl, by decide⟩

end GenericCache

end SimpleSSD.ICL
