import SimpleSSD.ICL.Structure

namespace SimpleSSD.ICL

/-! What becomes of data that only the cache has. -/

def Event.Covers (cfg : Config) (lca : Nat) : Event → Prop
  | .ftlWrite lpn ioFlag => lpn = lca / cfg.lineCountInSuperPage ∧
      lca % cfg.lineCountInSuperPage ∈ ioFlag
  | _ => False

/-- The last write to the address was short and no FTL write has covered it
since. -/
def Owed (cfg : Config) (lca : Nat) : (log : List Event) → Prop
  | [] => False
  | .hostWrite other short :: rest =>
      if other = lca then short = true else Owed cfg lca rest
  | event :: rest => ¬ event.Covers cfg lca ∧ Owed cfg lca rest

theorem owed_of_split {cfg : Config} {lca : Nat} {later earlier : List Event}
    (last : ∀ short, .hostWrite lca short ∉ later)
    (uncovered : ∀ event ∈ later, ¬ event.Covers cfg lca) :
    Owed cfg lca (later ++ .hostWrite lca true :: earlier) := by
  induction later with
  | nil => simp [Owed]
  | cons event rest induction =>
      have before := induction
        (fun short member => last short (.tail _ member))
        (fun other member => uncovered other (.tail _ member))
      cases event with
      | hostWrite other short =>
          have apart : other ≠ lca := by
            intro same
            exact last short (same ▸ .head _)
          rw [List.cons_append, Owed, if_neg apart]
          exact before
      | ftlRead lpn ioFlag => exact ⟨id, before⟩
      | ftlWrite lpn ioFlag => exact ⟨uncovered _ (.head _), before⟩
      | ftlTrim lpn ioFlag => exact ⟨id, before⟩
      | ftlFormat slpn nlp => exact ⟨id, before⟩

namespace GenericCache

variable {cfg : Config} {env : Environment} {cache final : GenericCache}
  {lca : Nat}

def Stored (cfg : Config) (cache : GenericCache) (lca : Nat) : Prop :=
  ∃ place, Holds cfg cache place lca ∧ (cache.cacheData place).dirty = true

def Kept (cfg : Config) (cache : GenericCache) (lca : Nat) : Prop :=
  Owed cfg lca cache.log → Stored cfg cache lca

theorem Kept.of_line {changed : GenericCache} {place : Place}
    (kept : Kept cfg cache lca)
    (others : ∀ other, other ≠ place →
      changed.cacheData other = cache.cacheData other)
    (owed : Owed cfg lca changed.log → Owed cfg lca cache.log ∧
      ¬ (Holds cfg cache place lca ∧
        (cache.cacheData place).dirty = true)) : Kept cfg changed lca := by
  intro after
  obtain ⟨before, gone⟩ := owed after
  obtain ⟨other, held, dirty⟩ := kept before
  have apart : other ≠ place := by
    intro same
    exact gone (same ▸ ⟨held, dirty⟩)
  refine ⟨other, ?_, ?_⟩
  · unfold Holds
    rw [others other apart]
    exact held
  · rw [others other apart]
    exact dirty

section Eviction

/-- Entries of `evictData` that still name a valid line are in its row. -/
def Rowed (cfg : Config) (cache : GenericCache) : Prop :=
  ∀ row col place, cache.evictData row col = some place →
    (cache.cacheData place).valid = true →
      (cache.cacheData place).tag % cfg.lineCountInSuperPage = row

variable {position : Nat × Nat}

theorem evictEntry_rowed (rowed : Rowed cfg cache) :
    Rowed cfg (evictEntry cfg env true cache position) := by
  intro row col place there valid
  rw [evictEntry_evictData] at there
  split at there
  · cases there
  · by_cases gone : cache.evictData position.1 position.2 = some place
    · rw [evictEntry_emptied place gone] at valid
      cases valid
    · rw [evictEntry_line place gone] at valid ⊢
      exact rowed row col place there valid

theorem evictEntry_log {place : Place}
    (there : cache.evictData position.1 position.2 = some place) :
    (evictEntry cfg env true cache position).log =
      if (cache.cacheData place).valid ∧ (cache.cacheData place).dirty then
        .ftlWrite ((cache.cacheData place).tag / cfg.lineCountInSuperPage)
          {position.1} :: cache.log
      else cache.log := by
  unfold evictEntry
  rw [there]
  dsimp only
  split <;> rfl

theorem evictEntry_kept (rowed : Rowed cfg cache) (kept : Kept cfg cache lca) :
    Kept cfg (evictEntry cfg env true cache position) lca := by
  cases there : cache.evictData position.1 position.2 with
  | none =>
      have same : evictEntry cfg env true cache position = cache := by
        unfold evictEntry
        rw [there]
      rw [same]
      exact kept
  | some place =>
      refine @Kept.of_line _ _ _ _ place kept ?_ ?_
      · intro other apart
        refine evictEntry_line other ?_
        rw [there]
        exact fun same => apart (Option.some.inj same).symm
      · rw [evictEntry_log there]
        split
        · next written =>
            intro ⟨uncovered, owed⟩
            refine ⟨owed, ?_⟩
            intro ⟨⟨_, valid, tag⟩, _⟩
            have row := rowed _ _ place there valid
            rw [tag] at row
            refine uncovered ⟨by rw [tag], ?_⟩
            rw [row]
            exact Finset.mem_singleton_self _
        · next unwritten =>
            intro owed
            refine ⟨owed, ?_⟩
            intro ⟨⟨_, valid, _⟩, dirty⟩
            exact unwritten ⟨valid, dirty⟩

theorem evictEntry_clean {place : Place}
    (dirty : ((evictEntry cfg env true cache position).cacheData place).dirty =
      true) : (cache.cacheData place).dirty = true := by
  by_cases gone : cache.evictData position.1 position.2 = some place
  · unfold evictEntry at dirty
    rw [gone] at dirty
    dsimp only at dirty
    rw [advance_cacheData, setEvict_cacheData, setLine_cacheData,
      Function.update_self] at dirty
    cases dirty
  · rw [evictEntry_line place gone] at dirty
    exact dirty

theorem evictEntry_overwritten :
    (evictEntry cfg env true cache position).overwritten =
      cache.overwritten := by
  unfold evictEntry
  split
  · rfl
  · dsimp only
    split <;> rfl

theorem evictCache_kept (rowed : Rowed cfg cache) (kept : Kept cfg cache lca) :
    Kept cfg (evictCache cfg env true cache) lca := by
  unfold evictCache
  induction evictPositions cfg generalizing cache with
  | nil => exact kept
  | cons position rest induction =>
      exact induction (evictEntry_rowed rowed) (evictEntry_kept rowed kept)

theorem evictCache_clean {place : Place}
    (dirty : ((evictCache cfg env true cache).cacheData place).dirty = true) :
    (cache.cacheData place).dirty = true := by
  unfold evictCache at dirty
  generalize evictPositions cfg = positions at dirty
  induction positions generalizing cache with
  | nil => exact dirty
  | cons position rest induction => exact evictEntry_clean (induction dirty)

theorem evictCache_overwritten :
    (evictCache cfg env true cache).overwritten = cache.overwritten := by
  unfold evictCache
  induction evictPositions cfg generalizing cache with
  | nil => rfl
  | cons position rest induction =>
      rw [List.foldl_cons, induction, evictEntry_overwritten]

theorem Proposes.rowed (proposes : Proposes cfg cache) : Rowed cfg cache :=
  fun row col place there _ => (proposes row col place there).row_eq

end Eviction

section Reads

theorem foldl_fillLine_owed (readList : List (Nat × Place))
    (cache : GenericCache) :
    Owed cfg lca (readList.foldl (fillLine cfg env) cache).log →
      Owed cfg lca cache.log := by
  induction readList generalizing cache with
  | nil => exact id
  | cons entry rest induction =>
      intro owed
      exact (induction (fillLine cfg env cache entry) owed).2

theorem readMissing_kept {slpn : Nat} (idle : cache.Idle)
    (result : readMissing cfg env cache slpn = .ok final) :
    cache.overwritten <:+ final.overwritten ∧
      (final.overwritten = cache.overwritten →
        Kept cfg cache lca → Kept cfg final lca) := by
  obtain ⟨claimed, readList, claiming, _, proposes, same⟩ :=
    readMissing_cases idle result
  cases same
  obtain ⟨_, overwritten, flags, others, _⟩ := @foldl_fillLine cfg env
    readList (evictCache cfg env true claimed)
  rw [evictCache_overwritten] at overwritten
  rw [overwritten]
  refine ⟨claiming.history, ?_⟩
  intro nothing kept
  have claimedKept : Kept cfg claimed lca := by
    intro owed
    rw [claiming.log] at owed
    obtain ⟨place, held, dirty⟩ := kept owed
    have unclaimed : place ∉ readList.map Prod.snd := by
      intro member
      have lost := claiming.losses nothing place member held.2.1
      rw [dirty] at lost
      cases lost
    refine ⟨place, ?_, ?_⟩
    · unfold Holds
      rw [claiming.unclaimed place unclaimed]
      exact held
    · rw [claiming.unclaimed place unclaimed]
      exact dirty
  have evictedKept := @evictCache_kept cfg env claimed lca proposes.rowed
    claimedKept
  intro owed
  obtain ⟨place, held, dirty⟩ := evictedKept (foldl_fillLine_owed _ _ owed)
  have unclaimed : place ∉ readList.map Prod.snd := by
    intro member
    have clean := claiming.clean place member
    rw [evictCache_clean dirty] at clean
    cases clean
  refine ⟨place, ?_, ?_⟩
  · unfold Holds
    rw [others place unclaimed]
    exact held
  · rw [others place unclaimed]
    exact dirty

theorem Kept.of_same {changed : GenericCache} (kept : Kept cfg cache lca)
    (log : changed.log = cache.log)
    (lines : ∀ place,
      (changed.cacheData place).valid = (cache.cacheData place).valid ∧
      (changed.cacheData place).dirty = (cache.cacheData place).dirty ∧
      (changed.cacheData place).tag = (cache.cacheData place).tag) :
    Kept cfg changed lca := by
  intro owed
  rw [log] at owed
  obtain ⟨place, ⟨inside, valid, tag⟩, dirty⟩ := kept owed
  obtain ⟨sameValid, sameDirty, sameTag⟩ := lines place
  exact ⟨place, ⟨inside, sameValid.trans valid, sameTag.trans tag⟩,
    sameDirty.trans dirty⟩

theorem detect_kept {req : Request} (kept : Kept cfg cache lca) :
    Kept cfg (detect cfg env req cache) lca := by
  unfold detect
  split
  · exact kept.of_same rfl fun _ => ⟨rfl, rfl, rfl⟩
  · exact kept

theorem touchLine_kept {place : Place} (kept : Kept cfg cache lca) :
    Kept cfg (touchLine env cache place) lca := by
  refine kept.of_same rfl ?_
  intro other
  have lines : (touchLine env cache place).cacheData =
      Function.update cache.cacheData place
        { cache.cacheData place with
          lastAccessed := env.tick cache.clock } := rfl
  rw [lines]
  by_cases same : other = place
  · rw [same, Function.update_self]
    exact ⟨rfl, rfl, rfl⟩
  · rw [Function.update_of_ne same]
    exact ⟨rfl, rfl, rfl⟩

@[simp] theorem detect_overwritten {req : Request} :
    (detect cfg env req cache).overwritten = cache.overwritten := by
  unfold detect
  split <;> rfl

theorem read_kept {req : Request} (sound : Sound cfg cache)
    (result : read cfg env req cache = .ok final) :
    cache.overwritten <:+ final.overwritten ∧
      (final.overwritten = cache.overwritten →
        Kept cfg cache lca → Kept cfg final lca) := by
  have detected := @detect_sound cfg env cache req sound
  unfold read at result
  split at result
  · dsimp only at result
    split at result
    · split at result
      · obtain ⟨history, kept⟩ := @readMissing_kept cfg env _ _ lca _
          (touchLine_sound detected).idle result
        have same : (touchLine env (detect cfg env req cache)
            (calcSetIndex cfg req.slpn, getValidWay cfg
              (detect cfg env req cache) req.slpn)).overwritten =
            cache.overwritten := detect_overwritten
        rw [same] at history kept
        exact ⟨history, fun nothing before =>
          kept nothing (touchLine_kept (detect_kept before))⟩
      · cases result
        refine ⟨?_, fun _ before => touchLine_kept (detect_kept before)⟩
        have same := @detect_overwritten cfg env cache req
        exact same ▸ List.suffix_refl _
    · obtain ⟨history, kept⟩ := @readMissing_kept cfg env _ _ lca _
        detected.idle result
      rw [detect_overwritten] at history kept
      exact ⟨history, fun nothing before => kept nothing (detect_kept before)⟩
  · cases result
    exact ⟨List.suffix_refl _, fun _ before owed => before owed.2⟩

end Reads

section Writes

theorem storeLine_kept {place : Place} {tag : Nat} {dirty : Bool}
    (inside : Inside cfg place)
    (free : (cache.cacheData place).valid = true →
      (cache.cacheData place).tag = tag)
    (own : lca = tag → Owed cfg lca cache.log → dirty = true)
    (kept : lca ≠ tag → Kept cfg cache lca) :
    Kept cfg (storeLine env cache place tag dirty) lca := by
  have lines : (storeLine env cache place tag dirty).cacheData =
      Function.update cache.cacheData place
        { tag := tag, lastAccessed := env.tick cache.clock
          insertedAt := env.tick cache.clock
          dirty := dirty, valid := true } := rfl
  by_cases same : lca = tag
  · intro owed
    refine ⟨place, ⟨inside, ?_, ?_⟩, ?_⟩
    · rw [lines, Function.update_self]
    · rw [lines, Function.update_self]
      exact same.symm
    · rw [lines, Function.update_self]
      exact own same owed
  · refine @Kept.of_line _ _ _ _ place (kept same) ?_ ?_
    · intro other apart
      rw [lines, Function.update_of_ne apart]
    · intro owed
      refine ⟨owed, ?_⟩
      intro ⟨⟨_, valid, tagged⟩, _⟩
      exact same (tagged.symm.trans (free valid))

theorem accept_log {req : Request} :
    (accept cfg req cache).log =
      if isShort cfg req then .hostWrite req.slpn true :: cache.log
      else directWrite cfg req :: .hostWrite req.slpn false :: cache.log := by
  unfold accept
  split <;> rfl

theorem accept_cacheData {req : Request} :
    (accept cfg req cache).cacheData = cache.cacheData := by
  unfold accept
  split <;> rfl

theorem accept_overwritten {req : Request} :
    (accept cfg req cache).overwritten = cache.overwritten := by
  unfold accept
  split <;> rfl

/-- A whole line is never owed. -/
theorem accept_own {req : Request}
    (owed : Owed cfg req.slpn (accept cfg req cache).log) :
    isShort cfg req = true := by
  rw [accept_log] at owed
  split at owed
  · assumption
  · exact absurd ⟨rfl, Finset.mem_singleton_self _⟩ owed.1

theorem accept_kept {req : Request} (other : lca ≠ req.slpn)
    (kept : Kept cfg cache lca) : Kept cfg (accept cfg req cache) lca := by
  have unnamed : req.slpn ≠ lca := fun same => other same.symm
  intro owed
  have before : Owed cfg lca cache.log := by
    rw [accept_log] at owed
    split at owed
    · rw [Owed, if_neg unnamed] at owed
      exact owed
    · have rest := owed.2
      rw [Owed, if_neg unnamed] at rest
      exact rest
  unfold Stored Holds
  rw [accept_cacheData]
  exact kept before

theorem write_kept {req : Request} (sound : Sound cfg cache)
    (result : write cfg env req cache = .ok final) :
    final.overwritten = cache.overwritten ∧
      (Kept cfg cache lca → Kept cfg final lca) := by
  have accepted := @accept_sound cfg cache req sound
  have below : calcSetIndex cfg req.slpn < cfg.setSize := Nat.mod_lt _ cfg.sets
  have own : lca = req.slpn → Owed cfg lca (accept cfg req cache).log →
      isShort cfg req = true := by
    intro same owed
    rw [same] at owed
    exact accept_own owed
  unfold write at result
  dsimp only at result
  split at result
  · split at result
    · next found =>
        cases result
        refine ⟨accept_overwritten, ?_⟩
        intro kept
        have hit := getValidWay_hit found
        exact storeLine_kept hit.1 (fun _ => hit.2.2) own
          fun other => accept_kept other kept
    · split at result
      · next found =>
          cases result
          refine ⟨accept_overwritten, ?_⟩
          intro kept
          obtain ⟨inside, invalid⟩ := getEmptyWay_spec found
          refine storeLine_kept ⟨below, inside⟩ ?_ own
            fun other => accept_kept other kept
          intro valid
          rw [invalid] at valid
          cases valid
      · split at result
        · cases result
        · next found =>
            cases result
            have chosen := @chooseEvicted_chooses cfg env _ accepted.idle _
              below
            refine ⟨?_, ?_⟩
            · exact evictCache_overwritten.trans
                (chosen.same.overwritten.trans accept_overwritten)
            · intro kept
              obtain ⟨inside, invalid⟩ := getEmptyWay_spec found
              refine storeLine_kept ⟨below, inside⟩ ?_ (fun _ _ => rfl) ?_
              · intro valid
                rw [invalid] at valid
                cases valid
              · intro other
                refine evictCache_kept chosen.proposes.rowed ?_
                refine (accept_kept other kept).of_same chosen.same.log ?_
                intro place
                rw [chosen.same.cacheData]
                exact ⟨rfl, rfl, rfl⟩
  · cases result
    split
    · refine ⟨accept_overwritten, ?_⟩
      intro kept owed
      by_cases same : lca = req.slpn
      · rw [same] at owed
        exact absurd ⟨rfl, Finset.mem_singleton_self _⟩ owed.1
      · exact accept_kept same kept owed.2
    · next whole =>
        refine ⟨accept_overwritten, ?_⟩
        intro kept owed
        by_cases same : lca = req.slpn
        · exact absurd (own same owed) whole
        · exact accept_kept same kept owed

theorem flushLine_kept {range : LPNRange}
    {state : GenericCache × Finset Nat} (place : Place)
    (kept : Kept cfg state.1 lca) :
    Kept cfg (flushLine cfg range state place).1 lca := by
  unfold flushLine
  dsimp only
  split
  · refine @Kept.of_line _ _ _ _ place kept ?_ ?_
    · intro other apart
      rw [setLine_cacheData, Function.update_of_ne apart]
      split <;> rfl
    · split
      · intro ⟨uncovered, owed⟩
        refine ⟨owed, ?_⟩
        intro ⟨⟨_, _, tag⟩, _⟩
        refine uncovered ⟨by rw [tag], ?_⟩
        rw [tag]
        exact Finset.mem_insert_self _ _
      · next clean =>
          intro owed
          exact ⟨owed, fun held => clean held.2⟩
  · exact kept

theorem flush_kept {range : LPNRange} (kept : Kept cfg cache lca) :
    Kept cfg (flush cfg range cache) lca := by
  have lines : ∀ (places : List Place) {state : GenericCache × Finset Nat},
      Kept cfg state.1 lca →
        Kept cfg (places.foldl (flushLine cfg range) state).1 lca := by
    intro places
    induction places with
    | nil => exact id
    | cons place rest induction =>
        intro state before
        exact induction (flushLine_kept place before)
  unfold flush
  split
  · exact lines _ kept
  · exact kept

theorem flush_overwritten {range : LPNRange} :
    (flush cfg range cache).overwritten = cache.overwritten := by
  have lines : ∀ (places : List Place) (state : GenericCache × Finset Nat),
      (places.foldl (flushLine cfg range) state).1.overwritten =
        state.1.overwritten := by
    intro places
    induction places with
    | nil => exact fun _ => rfl
    | cons place rest induction =>
        intro state
        rw [List.foldl_cons, induction]
        unfold flushLine
        dsimp only
        split
        · split <;> rfl
        · rfl
  unfold flush
  split
  · exact lines _ _
  · rfl

end Writes

end GenericCache

open GenericCache

def Call.Keeping : Call → Prop
  | .read _ => True
  | .write _ => True
  | .flush _ => True
  | .trim _ => False
  | .format _ => False

section Runs

variable {cfg : Config} {env : Environment} {cache final : GenericCache}
  {lca : Nat}

theorem Call.perform_kept {call : Call} (keeping : call.Keeping)
    (sound : Sound cfg cache)
    (result : call.perform cfg env cache = .ok final) :
    cache.overwritten <:+ final.overwritten ∧
      (final.overwritten = cache.overwritten →
        Kept cfg cache lca → Kept cfg final lca) := by
  cases call with
  | read req => exact read_kept sound result
  | write req =>
      obtain ⟨same, kept⟩ := @write_kept _ _ _ _ lca _ sound result
      exact ⟨same ▸ List.suffix_refl _, fun _ => kept⟩
  | flush range =>
      cases result
      exact ⟨flush_overwritten ▸ List.suffix_refl _, fun _ => flush_kept⟩
  | trim range => exact keeping.elim
  | format range => exact keeping.elim

theorem Call.performAll_kept (calls : List Call)
    (keeping : ∀ call ∈ calls, call.Keeping) (sound : Sound cfg cache)
    (result : Call.performAll cfg env calls cache = .ok final) :
    cache.overwritten <:+ final.overwritten ∧
      (final.overwritten = cache.overwritten →
        Kept cfg cache lca → Kept cfg final lca) := by
  refine @Call.performAll_keeps cfg env (fun state =>
    cache.overwritten <:+ state.overwritten ∧
      (state.overwritten = cache.overwritten →
        Kept cfg cache lca → Kept cfg state lca)) _ _ _ ?_ sound
    ⟨List.suffix_refl _, fun _ => id⟩ result
  rintro call member middle after sound ⟨first, keeps⟩ performed
  obtain ⟨later, keepsLater⟩ := @Call.perform_kept _ _ _ _ lca _
    (keeping call member) sound performed
  refine ⟨first.trans later, ?_⟩
  intro same kept
  have middleSame : middle.overwritten = cache.overwritten := by
    rw [same] at later
    exact later.eq_of_length_le first.length_le
  exact keepsLater (same.trans middleSame.symm) (keeps middleSame kept)

end Runs

/-- What was last written by a short write is in a valid dirty line, or an FTL
write has covered it since. -/
def NoneLost (cfg : Config) (cache : GenericCache) : Prop :=
  ∀ lca later earlier, cache.log = later ++ .hostWrite lca true :: earlier →
    (∀ short, .hostWrite lca short ∉ later) →
      (∃ place, Inside cfg place ∧ (cache.cacheData place).valid = true ∧
        (cache.cacheData place).dirty = true ∧
        (cache.cacheData place).tag = lca) ∨
      ∃ event ∈ later, event.Covers cfg lca

theorem no_dirty_line_lost (cfg : Config) (env : Environment)
    (lastPrefetched : Nat) (calls : List Call)
    (keeping : ∀ call ∈ calls, call.Keeping) :
    match Call.performAll cfg env calls (make lastPrefetched) with
    | .ok final => final.overwritten = [] → NoneLost cfg final
    | .error _ => True := by
  cases result : Call.performAll cfg env calls (make lastPrefetched) with
  | error raised => trivial
  | ok final =>
      intro nothing lca later earlier log last
      obtain ⟨_, keeps⟩ := @Call.performAll_kept _ _ _ _ lca calls keeping
        (make_sound lastPrefetched) result
      have kept := keeps nothing fun owed => owed.elim
      by_cases covered : ∃ event ∈ later, event.Covers cfg lca
      · exact .inr covered
      · refine .inl ?_
        have owed : Owed cfg lca final.log := by
          rw [log]
          exact owed_of_split last fun event member covers =>
            covered ⟨event, member, covers⟩
        obtain ⟨place, ⟨inside, valid, tag⟩, dirty⟩ := kept owed
        exact ⟨place, inside, valid, dirty, tag⟩

def singleLine : Config where
  superPageSize := 4096
  parallelIO := 1
  lineCountInSuperPage := 1
  lineSize := 4096
  setSize := 1
  waySize := 1
  prefetchIOCount := 1
  useReadCaching := true
  useWriteCaching := true
  useReadPrefetch := false
  bSuperPage := false
  prefetchMode := .all
  evictMode := .all
  policy := .fifo
  parallel := Nat.one_pos
  lines := Nat.one_pos
  sets := Nat.one_pos
  ways := Nat.one_pos

def countingEnvironment : Environment where
  tick := id
  draw _ := 0
  prefetchDue _ := false

def shortRequest (lca : Nat) : Request where
  reqID := lca
  slpn := lca
  nlp := 1
  offset := 0
  length := 512

theorem no_dirty_line_lost_sample :
    ∃ final, Call.performAll singleLine countingEnvironment
        [.write (shortRequest 0), .write (shortRequest 1)] (make 0) =
          .ok final ∧ NoneLost singleLine final := by
  have kept := no_dirty_line_lost singleLine countingEnvironment 0
    [.write (shortRequest 0), .write (shortRequest 1)]
    (by simp [Call.Keeping])
  obtain ⟨final, result, nothing⟩ : ∃ final,
      Call.performAll singleLine countingEnvironment
        [.write (shortRequest 0), .write (shortRequest 1)] (make 0) =
          .ok final ∧ final.overwritten = [] := ⟨_, rfl, rfl⟩
  rw [result] at kept
  exact ⟨final, result, kept nothing⟩

/-- The read takes the only line before its data are written. -/
theorem dirty_line_lost :
    ∃ final, Call.performAll singleLine countingEnvironment
        [.write (shortRequest 0), .read (shortRequest 1)] (make 0) =
          .ok final ∧ ¬ NoneLost singleLine final := by
  obtain ⟨final, result, log, line⟩ : ∃ final,
      Call.performAll singleLine countingEnvironment
        [.write (shortRequest 0), .read (shortRequest 1)] (make 0) =
          .ok final ∧
      final.log = [.ftlRead 1 {0}] ++ .hostWrite 0 true :: [] ∧
      (final.cacheData (0, 0)).dirty = false := ⟨_, rfl, rfl, rfl⟩
  refine ⟨final, result, ?_⟩
  intro kept
  rcases kept 0 _ _ log (by simp) with
    ⟨⟨setIdx, wayIdx⟩, ⟨set, way⟩, _, dirty, _⟩ | ⟨event, member, covers⟩
  · obtain rfl : setIdx = 0 := Nat.lt_one_iff.mp set
    obtain rfl : wayIdx = 0 := Nat.lt_one_iff.mp way
    rw [line] at dirty
    cases dirty
  · rw [List.mem_singleton.mp member] at covers
    exact covers

end SimpleSSD.ICL
