import Mathlib.Data.Finset.Lattice.Lemmas
import Mathlib.Data.List.ProdSigma
import SimpleSSD.ICL.Flushing
import SimpleSSD.ICL.Placement

namespace SimpleSSD.ICL

namespace GenericCache

variable {cfg : Config} {env : Environment} {range : LPNRange}
  {cache changed final : GenericCache} {lca total : Nat}
  {carried carried' : Nat → Prop}

/-! The writes that calls issue, and the lines that they carry. -/

/-- A line has the dirty flag and the tag, whether it is valid or not. -/
def Dirty (cache : GenericCache) (lca : Nat) : Prop :=
  ∃ place, (cache.cacheData place).dirty = true ∧
    (cache.cacheData place).tag = lca

theorem DirtyFrom.dirty (kept : DirtyFrom cache changed)
    (dirty : changed.Dirty lca) : cache.Dirty lca := by
  obtain ⟨place, flag, tag⟩ := dirty
  obtain ⟨before, same⟩ := kept place flag
  exact ⟨place, before, same.symm.trans tag⟩

def Issues (cfg : Config) (carried : Nat → Prop)
    (cache final : GenericCache) : Prop :=
  ∃ issued, final.log = issued ++ cache.log ∧
    ∀ event ∈ issued, ∀ lca, event.Covers cfg lca → carried lca

namespace Issues

theorem of_log (same : final.log = cache.log) : Issues cfg carried cache final :=
  ⟨[], same, nofun⟩

theorem trans (first : Issues cfg carried cache changed)
    (second : Issues cfg carried changed final) :
    Issues cfg carried cache final := by
  obtain ⟨early, log, carries⟩ := first
  obtain ⟨late, logs, carries'⟩ := second
  refine ⟨late ++ early, ?_, ?_⟩
  · rw [logs, log, List.append_assoc]
  · intro event member
    rcases List.mem_append.mp member with new | old
    · exact carries' event new
    · exact carries event old

theorem mono (issues : Issues cfg carried cache final)
    (more : ∀ lca, carried lca → carried' lca) :
    Issues cfg carried' cache final := by
  obtain ⟨issued, log, carries⟩ := issues
  exact ⟨issued, log, fun event member lca covers =>
    more lca (carries event member lca covers)⟩

theorem record {event : Event}
    (carries : ∀ lca, event.Covers cfg lca → carried lca) :
    Issues cfg carried cache (cache.record event) := by
  refine ⟨[event], rfl, ?_⟩
  intro other member
  rw [List.mem_singleton.mp member]
  exact carries

end Issues

theorem eq_of_unit {tag : Nat} (page : tag / cfg.lineCountInSuperPage =
      lca / cfg.lineCountInSuperPage)
    (unit : tag % cfg.lineCountInSuperPage = lca % cfg.lineCountInSuperPage) :
    tag = lca := by
  rw [← Nat.div_add_mod tag cfg.lineCountInSuperPage, page, unit,
    Nat.div_add_mod]

/-! Evictions. -/

theorem evictEntry_issues {position : Nat × Nat} (rowed : Rowed cfg cache) :
    Issues cfg cache.Dirty cache (evictEntry cfg env true cache position) := by
  cases there : cache.evictData position.1 position.2 with
  | none =>
      refine .of_log ?_
      unfold evictEntry
      rw [there]
  | some place =>
      have log := @evictEntry_log cfg env cache position place there
      split at log
      · next written =>
          refine ⟨[_], log, ?_⟩
          intro event member lca covers
          rw [List.mem_singleton.mp member] at covers
          obtain ⟨page, unit⟩ := covers
          have row := rowed _ _ place there written.1
          rw [← row, Finset.mem_singleton] at unit
          exact ⟨place, written.2, eq_of_unit page unit.symm⟩
      · exact .of_log log

theorem evictCache_issues (rowed : Rowed cfg cache) :
    Issues cfg cache.Dirty cache (evictCache cfg env true cache) := by
  unfold evictCache
  induction evictPositions cfg generalizing cache with
  | nil => exact .of_log rfl
  | cons position rest induction =>
      have first := @evictEntry_issues cfg env cache position rowed
      have second := @induction (evictEntry cfg env true cache position)
        (evictEntry_rowed rowed)
      exact first.trans (second.mono fun _ dirty =>
        (evictEntry_dirtyFrom position).dirty dirty)

/-! Reads. -/

theorem foldl_fillLine_issues (readList : List (Nat × Place))
    (cache : GenericCache) :
    Issues cfg carried cache (readList.foldl (fillLine cfg env) cache) := by
  induction readList generalizing cache with
  | nil => exact .of_log rfl
  | cons entry rest induction =>
      have first : Issues cfg carried cache (fillLine cfg env cache entry) :=
        ⟨[_], rfl, fun event member lca covers => by
          rw [List.mem_singleton.mp member] at covers
          exact covers.elim⟩
      exact first.trans (induction _)

theorem readMissing_issues {slpn : Nat} (idle : cache.Idle)
    (result : readMissing cfg env cache slpn = .ok final) :
    Issues cfg cache.Dirty cache final := by
  obtain ⟨claimed, readList, claiming, _, proposes, rfl⟩ :=
    readMissing_cases idle result
  have evicted := (@evictCache_issues cfg env claimed proposes.rowed).mono
    fun _ dirty => claiming.dirtyFrom.dirty dirty
  exact (Issues.of_log claiming.log).trans
    (evicted.trans (foldl_fillLine_issues readList _))

theorem read_issues {req : Request} (sound : Sound cfg cache)
    (result : read cfg env req cache = .ok final) :
    Issues cfg cache.Dirty cache final := by
  have detected := @detect_sound cfg env cache req sound
  have lines : (detect cfg env req cache).cacheData = cache.cacheData := by
    unfold detect
    split <;> rfl
  have start : Issues cfg cache.Dirty cache (detect cfg env req cache) := by
    refine .of_log ?_
    unfold detect
    split <;> rfl
  have same : ∀ lca, (detect cfg env req cache).Dirty lca →
      cache.Dirty lca := by
    intro lca dirty
    unfold Dirty at dirty
    rw [lines] at dirty
    exact dirty
  have touched : ∀ place lca,
      (touchLine env (detect cfg env req cache) place).Dirty lca →
        cache.Dirty lca := by
    intro place lca dirty
    have kept : DirtyFrom (detect cfg env req cache)
        (touchLine env (detect cfg env req cache) place) :=
      DirtyFrom.setLine rfl fun dirty => ⟨dirty, rfl⟩
    exact same lca (kept.dirty dirty)
  unfold read at result
  dsimp only at result
  split at result
  · split at result
    · split at result
      · have missed := readMissing_issues (touchLine_sound detected).idle result
        exact start.trans ((Issues.of_log rfl).trans (missed.mono (touched _)))
      · cases result
        exact start.trans (.of_log rfl)
    · exact start.trans ((readMissing_issues detected.idle result).mono same)
  · cases result
    exact .record fun _ covers => covers.elim

/-! Writes. -/

theorem directWrite_covers {req : Request}
    (covers : (directWrite cfg req).Covers cfg lca) : lca = req.slpn := by
  obtain ⟨page, unit⟩ := covers
  exact (eq_of_unit page (Finset.mem_singleton.mp unit).symm).symm

theorem accept_issues (req : Request) :
    Issues cfg (· = req.slpn) cache (accept cfg req cache) := by
  unfold accept
  split
  · exact .record fun _ covers => covers.elim
  · refine (Issues.record fun _ covers => ?_).trans
      (.record fun _ => directWrite_covers)
    exact covers.elim

structure Dirties (cfg : Config) (req : Request) (cache final : GenericCache) :
    Prop where
  flags : ∀ place, (final.cacheData place).dirty = true →
    ((cache.cacheData place).dirty = true ∧
      (final.cacheData place).tag = (cache.cacheData place).tag) ∨
    (cfg.useWriteCaching = true ∧ Inside cfg place ∧
      place.1 = calcSetIndex cfg req.slpn ∧
      (final.cacheData place).tag = req.slpn)
  issues : Issues cfg (fun lca => lca = req.slpn ∨ cache.Dirty lca) cache final

theorem storeLine_dirties {req : Request} {wayIdx : Nat} {dirty : Bool}
    (caching : cfg.useWriteCaching = true) (within : wayIdx < cfg.waySize)
    (kept : DirtyFrom cache changed)
    (issues : Issues cfg (fun lca => lca = req.slpn ∨ cache.Dirty lca) cache
      changed) :
    Dirties cfg req cache (storeLine env changed
      (calcSetIndex cfg req.slpn, wayIdx) req.slpn dirty) := by
  refine ⟨?_, issues.trans (.of_log rfl)⟩
  intro place flag
  unfold storeLine at flag ⊢
  rw [advance_cacheData, setLine_cacheData] at flag ⊢
  by_cases same : place = (calcSetIndex cfg req.slpn, wayIdx)
  · subst same
    rw [Function.update_self]
    exact .inr ⟨caching, ⟨Nat.mod_lt _ cfg.sets, within⟩, rfl, rfl⟩
  · rw [Function.update_of_ne same] at flag ⊢
    exact .inl (kept place flag)

theorem write_dirties {req : Request} (sound : Sound cfg cache)
    (result : write cfg env req cache = .ok final) :
    Dirties cfg req cache final := by
  have accepted := @accept_sound cfg cache req sound
  have lines : (accept cfg req cache).cacheData = cache.cacheData :=
    accept_cacheData
  have kept : DirtyFrom cache (accept cfg req cache) := by
    intro place dirty
    rw [lines] at dirty ⊢
    exact ⟨dirty, rfl⟩
  have issues : Issues cfg (fun lca => lca = req.slpn ∨ cache.Dirty lca) cache
      (accept cfg req cache) :=
    (accept_issues req).mono fun _ => .inl
  unfold write at result
  dsimp only at result
  split at result
  · next caching =>
      split at result
      · next found =>
          cases result
          exact storeLine_dirties caching (getValidWay_hit found).1.2 kept issues
      split at result
      · next found =>
          cases result
          exact storeLine_dirties caching (getEmptyWay_spec found).1 kept issues
      split at result
      · cases result
      · next found =>
          cases result
          have chosen := @chooseEvicted_chooses cfg env (accept cfg req cache)
            accepted.idle (calcSetIndex cfg req.slpn) (Nat.mod_lt _ cfg.sets)
          have choice : DirtyFrom (accept cfg req cache)
              (chooseEvicted cfg env (accept cfg req cache)
                (calcSetIndex cfg req.slpn)) := by
            intro place dirty
            rw [chosen.same.cacheData] at dirty ⊢
            exact ⟨dirty, rfl⟩
          have reaches := kept.trans (choice.trans
            (@evictCache_dirtyFrom cfg env _))
          refine storeLine_dirties caching (getEmptyWay_spec found).1 reaches ?_
          refine issues.trans ((Issues.of_log chosen.same.log).trans ?_)
          exact (evictCache_issues chosen.proposes.rowed).mono fun _ dirty =>
            .inr ((kept.trans choice).dirty dirty)
  · cases result
    split
    · refine ⟨fun place dirty => .inl (kept place dirty), ?_⟩
      exact issues.trans (.record fun _ covers => .inl (directWrite_covers covers))
    · exact ⟨fun place dirty => .inl (kept place dirty), issues⟩

/-! Flushes.  The bits that a write of a flush carries come from its line and
from the dirty lines before it. -/

def Flushed (range : LPNRange) (line : Line) : Prop :=
  inRange range line.tag ∧ line.dirty = true

instance (range : LPNRange) (line : Line) : Decidable (Flushed range line) :=
  inferInstanceAs (Decidable (_ ∧ _))

def marks (cfg : Config) (range : LPNRange) (lines : Place → Line) :
    List Place → Finset Nat
  | [] => ∅
  | place :: rest =>
      if Flushed range (lines place) then
        insert ((lines place).tag % cfg.lineCountInSuperPage)
          (marks cfg range lines rest)
      else marks cfg range lines rest

theorem mem_marks {lines : Place → Line} {places : List Place} {unit : Nat} :
    unit ∈ marks cfg range lines places ↔ ∃ place ∈ places,
      Flushed range (lines place) ∧
        (lines place).tag % cfg.lineCountInSuperPage = unit := by
  induction places with
  | nil => simp [marks]
  | cons place rest induction =>
      simp only [List.mem_cons, exists_eq_or_imp]
      rw [marks]
      split
      · next flushed =>
          rw [Finset.mem_insert, induction]
          exact or_congr ⟨fun same => ⟨flushed, same.symm⟩,
            fun h => h.2.symm⟩ Iff.rfl
      · next kept =>
          rw [induction]
          exact ⟨.inr, fun h => h.resolve_left fun h => kept h.1⟩

theorem exists_split_cons {P : List α → α → Prop} {head : α} {tail : List α} :
    (∃ before item rest, head :: tail = before ++ item :: rest ∧
        P before item) ↔
      P [] head ∨ ∃ before item rest, tail = before ++ item :: rest ∧
        P (head :: before) item := by
  constructor
  · rintro ⟨before, item, rest, split, holds⟩
    cases before with
    | nil =>
        cases split
        exact .inl holds
    | cons first before =>
        cases split
        exact .inr ⟨before, item, rest, rfl, holds⟩
  · rintro (holds | ⟨before, item, rest, rfl, holds⟩)
    · exact ⟨[], head, tail, rfl, holds⟩
    · exact ⟨head :: before, item, rest, rfl, holds⟩

theorem mem_flushWrites {lines : Place → Line} {places : List Place}
    {ioFlag : Finset Nat} {event : Event} :
    event ∈ flushWrites cfg range lines places ioFlag ↔
      ∃ before place rest, places = before ++ place :: rest ∧
        Flushed range (lines place) ∧
        event = .ftlWrite ((lines place).tag / cfg.lineCountInSuperPage)
          (insert ((lines place).tag % cfg.lineCountInSuperPage)
            (ioFlag ∪ marks cfg range lines before)) := by
  induction places generalizing ioFlag with
  | nil => simp [flushWrites]
  | cons place rest induction =>
      rw [exists_split_cons, flushWrites]
      dsimp only
      split
      · next written =>
          have flushed : Flushed range (lines place) := written
          rw [List.mem_cons, induction]
          refine or_congr ?_ ?_
          · rw [marks, Finset.union_empty]
            exact ⟨fun same => ⟨flushed, same⟩, And.right⟩
          · simp only [marks, if_pos flushed, Finset.insert_union,
              Finset.union_insert]
      · next skipped =>
          have kept : ¬Flushed range (lines place) := skipped
          rw [induction]
          simp only [marks, if_neg kept]
          exact (or_iff_right fun h => kept h.1).symm

def Precedes (first second : Place) : Prop :=
  first.1 < second.1 ∨ (first.1 = second.1 ∧ first.2 < second.2)

theorem mem_allPlaces {place : Place} :
    place ∈ allPlaces cfg ↔ Inside cfg place := by
  obtain ⟨setIdx, wayIdx⟩ := place
  unfold allPlaces Inside
  rw [List.pair_mem_product, List.mem_range, List.mem_range]

theorem allPlaces_pairwise : (allPlaces cfg).Pairwise Precedes := by
  unfold allPlaces List.product
  rw [List.pairwise_flatMap]
  constructor
  · intro setIdx _
    rw [List.pairwise_map]
    exact List.pairwise_lt_range.imp fun less => .inr ⟨rfl, less⟩
  · refine List.pairwise_lt_range.imp fun less place member other named => ?_
    obtain ⟨_, _, rfl⟩ := List.mem_map.mp member
    obtain ⟨_, _, rfl⟩ := List.mem_map.mp named
    exact .inl less

theorem mem_before {before rest : List Place} {place other : Place}
    (split : allPlaces cfg = before ++ place :: rest) :
    other ∈ before ↔ Inside cfg other ∧ Precedes other place := by
  have sorted := @allPlaces_pairwise cfg
  rw [split, List.pairwise_append, List.pairwise_cons] at sorted
  obtain ⟨_, ⟨later, _⟩, earlier⟩ := sorted
  rw [← mem_allPlaces, split]
  constructor
  · intro member
    exact ⟨List.mem_append_left _ member,
      earlier other member place (.head _)⟩
  · rintro ⟨member, precedes⟩
    rcases List.mem_append.mp member with old | new
    · exact old
    · exfalso
      unfold Precedes at precedes later
      rcases List.mem_cons.mp new with rfl | new
      · omega
      · have after := later other new
        omega

/-- The bits of the write of a line: its own and those of dirty lines of the
range that come before it. -/
def Marked (cfg : Config) (range : LPNRange) (cache : GenericCache)
    (place : Place) (marked : Finset Nat) : Prop :=
  ∀ unit, unit ∈ marked ↔
    unit = (cache.cacheData place).tag % cfg.lineCountInSuperPage ∨
    ∃ other, Inside cfg other ∧ Precedes other place ∧
      Flushed range (cache.cacheData other) ∧
      (cache.cacheData other).tag % cfg.lineCountInSuperPage = unit

/-- The writes of a flush are those of the dirty lines of the range. -/
structure FlushIssues (cfg : Config) (range : LPNRange) (cache : GenericCache)
    (issued : List Event) : Prop where
  lines : ∀ event ∈ issued, ∃ place, Inside cfg place ∧
    Flushed range (cache.cacheData place) ∧ ∃ marked,
      event = .ftlWrite
        ((cache.cacheData place).tag / cfg.lineCountInSuperPage) marked ∧
      Marked cfg range cache place marked
  writes : ∀ place, Inside cfg place →
    Flushed range (cache.cacheData place) → ∃ marked,
      .ftlWrite ((cache.cacheData place).tag / cfg.lineCountInSuperPage)
        marked ∈ issued ∧
      Marked cfg range cache place marked

theorem marked_of_split {before rest : List Place} {place : Place}
    (split : allPlaces cfg = before ++ place :: rest) :
    Marked cfg range cache place
      (insert ((cache.cacheData place).tag % cfg.lineCountInSuperPage)
        (∅ ∪ marks cfg range cache.cacheData before)) := by
  intro unit
  rw [Finset.mem_insert, Finset.empty_union, mem_marks]
  simp only [mem_before split, and_assoc]

theorem flush_issues (caching : cfg.useReadCaching ∨ cfg.useWriteCaching) :
    ∃ issued, (flush cfg range cache).log = issued ++ cache.log ∧
      FlushIssues cfg range cache issued := by
  refine ⟨_, flush_log caching, ?_, ?_⟩
  · intro event member
    rw [List.mem_reverse, mem_flushWrites] at member
    obtain ⟨before, place, rest, split, flushed, rfl⟩ := member
    have inside : Inside cfg place := by
      rw [← mem_allPlaces, split]
      exact List.mem_append_right _ (.head _)
    exact ⟨place, inside, flushed, _, rfl, marked_of_split split⟩
  · intro place inside flushed
    obtain ⟨before, rest, split⟩ :=
      List.append_of_mem (mem_allPlaces.mpr inside)
    refine ⟨_, ?_, marked_of_split split⟩
    rw [List.mem_reverse, mem_flushWrites]
    exact ⟨before, place, rest, split, flushed, rfl⟩

end GenericCache

end SimpleSSD.ICL
