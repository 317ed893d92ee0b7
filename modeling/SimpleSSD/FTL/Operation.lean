import SimpleSSD.FTL.Refreshing

namespace SimpleSSD.FTL

open Machine

/-! Host requests, construction and filling as runs of the machine. -/

variable {cfg : Config} {env : Environment} {allow : Allowance}
  {phase : Phase} {state : State} {mapped : Set (Nat × Nat)}

def touchedUnits (cfg : Config) (lpn : Nat) (flag : IOFlag) :
    Set (Nat × Nat) :=
  { unit | unit.1 = lpn ∧ unit.2 < cfg.bitsetSize ∧
    touches cfg flag unit.2 = true }

/-- Units still pending while the old units of a page are invalidated. -/
def opening (cfg : Config) (lpn : Nat) (flag : IOFlag) (mapping : Mapping)
    (remaining : List Nat) : Set (Nat × Nat) :=
  { unit | unit ∈ touchedUnits cfg lpn flag ∧
    (¬ IsLocation cfg (mapping unit.2) ∨ unit.2 ∉ remaining) }

theorem opening_cons {lpn idx : Nat} {flag : IOFlag} {mapping : Mapping}
    {rest : List Nat} (fresh : idx ∉ rest) (inside : idx < cfg.bitsetSize)
    (touched : touches cfg flag idx = true) :
    opening cfg lpn flag mapping rest =
      insert (lpn, idx) (opening cfg lpn flag mapping (idx :: rest)) := by
  ext ⟨other, unit⟩
  simp only [opening, touchedUnits, Set.mem_ofPred_eq, Set.mem_insert_iff,
    Prod.mk.injEq, List.mem_cons, not_or]
  constructor
  · rintro ⟨⟨rfl, bound, flagged⟩, past⟩
    by_cases same : unit = idx
    · exact .inl ⟨rfl, same⟩
    · exact .inr ⟨⟨rfl, bound, flagged⟩, past.imp_right fun gone =>
        ⟨same, gone⟩⟩
  · rintro (⟨rfl, rfl⟩ | ⟨touches, past⟩)
    · exact ⟨⟨rfl, inside, touched⟩, .inr fresh⟩
    · exact ⟨touches, past.imp_right And.right⟩

theorem opening_skip {lpn idx : Nat} {flag : IOFlag} {mapping : Mapping}
    {rest : List Nat}
    (skipped : touches cfg flag idx = true →
      ¬ IsLocation cfg (mapping idx)) :
    opening cfg lpn flag mapping (idx :: rest) =
      opening cfg lpn flag mapping rest := by
  ext ⟨other, unit⟩
  simp only [opening, touchedUnits, Set.mem_ofPred_eq, List.mem_cons, not_or]
  constructor
  · rintro ⟨touched, past⟩
    exact ⟨touched, past.imp_right And.right⟩
  · rintro ⟨touched, past⟩
    refine ⟨touched, ?_⟩
    by_cases same : unit = idx
    · subst same
      exact .inl (skipped touched.2.2)
    · exact past.imp_right fun gone => ⟨same, gone⟩

theorem opening_range (lpn : Nat) (flag : IOFlag) (mapping : Mapping) :
    opening cfg lpn flag mapping (List.range cfg.bitsetSize) =
      ∅ ∪ { unit | unit.1 = lpn ∧ unit.2 ∈ { idx | idx < cfg.bitsetSize ∧
        touches cfg flag idx = true ∧ ¬ IsLocation cfg (mapping idx) } } := by
  ext ⟨other, unit⟩
  simp only [opening, touchedUnits, Set.mem_ofPred_eq, Set.mem_union,
    Set.mem_empty_iff_false, false_or, List.mem_range]
  constructor
  · rintro ⟨⟨rfl, bound, touched⟩, past⟩
    exact ⟨rfl, bound, touched, past.resolve_right (absurd bound)⟩
  · rintro ⟨rfl, bound, touched, nowhere⟩
    exact ⟨⟨rfl, bound, touched⟩, .inl nowhere⟩

theorem opening_nil (lpn : Nat) (flag : IOFlag) (mapping : Mapping) :
    opening cfg lpn flag mapping [] = touchedUnits cfg lpn flag := by
  ext unit
  simp [opening]

/-- The phase of a request whose units wait for their new entries. -/
def Phase.waiting (mapped pending : Set (Nat × Nat)) : Phase :=
  { Phase.rest mapped with pending := pending }

theorem invalidateOld_follows {lpn : Nat} {flag : IOFlag} {mapping : Mapping}
    (found : state.table.lookup lpn = some mapping) :
    (machine cfg env allow).Follows (invalidateOld cfg mapping flag)
      (.rest mapped) state fun old last final =>
        last = .waiting mapped (touchedUnits cfg lpn flag) ∧
        ∀ blockIndex, old = some blockIndex → final.InUse blockIndex := by
  unfold invalidateOld
  have begin : (machine cfg env allow).step (.rest mapped, state)
      (.waiting mapped (opening cfg lpn flag mapping
        (List.range cfg.bitsetSize)), state) := by
    rw [opening_range]
    exact .await _ found fun idx inside => ⟨inside.1, inside.2.2⟩
  refine Follows.before begin ?_
  refine Follows.mono (Follows.foldlM (fun remaining old last final =>
      last = .waiting mapped (opening cfg lpn flag mapping remaining) ∧
      final.table.lookup lpn = some mapping ∧ remaining.Nodup ∧
      (∀ idx ∈ remaining, idx < cfg.bitsetSize) ∧
      ∀ blockIndex, old = some blockIndex → final.InUse blockIndex)
    ⟨rfl, found, List.nodup_range, fun _ => List.mem_range.mp,
      fun _ none => by cases none⟩ ?_) ?_
  · rintro idx rest old _ current ⟨rfl, found, nodup, inside, used⟩
    have fresh := (List.nodup_cons.mp nodup).1
    have later : ∀ other ∈ rest, other < cfg.bitsetSize := fun other member =>
      inside other (.tail _ member)
    apply Follows.ofSound
    rintro ⟨pools, maps⟩
    dsimp only
    split
    · next touched =>
        split
        · next located =>
            obtain ⟨block, holder, valid, stores⟩ := maps.backed lpn mapping
              found idx (inside idx (.head _)) located (by
                rintro ⟨_, nowhere | gone⟩
                · exact nowhere located
                · exact gone (.head _))
            have wellFormed := pools.wellFormed _ _ holder
            refine Follows.bindStep (run_invalidateUnit holder ?_)
              (.invalidate found (inside idx (.head _)) rfl holder valid
                stores) ?_
            · rw [wellFormed.pageCount_eq]
              exact located.2
            refine Follows.pure ⟨?_, found, (List.nodup_cons.mp nodup).2,
              later, ?_⟩
            · rw [opening_cons fresh (inside idx (.head _)) touched]
              rfl
            · rintro _ ⟨⟩
              exact State.inUse_setBlock.mpr (.inl rfl)
        · next nowhere =>
            refine Follows.pure ⟨?_, found, (List.nodup_cons.mp nodup).2,
              later, used⟩
            rw [opening_skip fun _ => nowhere]
    · next untouched =>
        refine Follows.pure ⟨?_, found, (List.nodup_cons.mp nodup).2, later,
          used⟩
        rw [opening_skip fun touched => absurd touched untouched]
  · rintro old _ final _ _ ⟨rfl, _, _, _, used⟩
    exact ⟨by rw [opening_nil], used⟩

theorem openMapping_follows (lpn : Nat) (flag : IOFlag) :
    (machine cfg env allow).Follows (openMapping cfg lpn flag) (.rest mapped)
      state fun old last final =>
        last = .waiting mapped (touchedUnits cfg lpn flag) ∧
        ∀ blockIndex, old = some (some blockIndex) →
          final.InUse blockIndex := by
  unfold openMapping
  apply Follows.getBind
  split
  · next mapping found =>
      rw [map_eq_pure_bind]
      refine Follows.bind (invalidateOld_follows found) ?_
      rintro old _ final ⟨rfl, used⟩
      refine Follows.pure ⟨rfl, ?_⟩
      rintro blockIndex ⟨⟩
      exact used blockIndex rfl
  · next absent =>
      refine Follows.bindStep rfl (.create { idx | idx < cfg.bitsetSize ∧
        touches cfg flag idx = true } absent (fun _ => And.left) ?_) ?_
      · intro plain idx bound
        exact ⟨bound, by simp [touches, plain]⟩
      · refine Follows.pure ⟨?_, fun _ none => by cases none⟩
        simp only [Phase.waiting, Phase.rest, Set.empty_union]
        rfl

theorem programUnit_follows (schedule : Bool) {target lpn idx : Nat}
    {block : Block} (allowed : schedule = false → allow.hotFill)
    (aimed : phase.target = some target)
    (found : state.blocks.lookup target = some block)
    (room : cfg.pagesInBlock = 0 ∨ block.nextWritePage idx < cfg.pagesInBlock)
    (inside : idx < cfg.bitsetSize) (waits : (lpn, idx) ∈ phase.pending) :
    (machine cfg env allow).Follows
      (programUnit cfg env schedule target lpn idx) phase state
      fun _ last final =>
        last = { phase with
          pending := phase.pending \ {(lpn, idx)}
          mapped := insert (lpn, idx) phase.mapped } ∧
        KeepsOff idx state final := by
  intro sound
  obtain ⟨pools, maps⟩ := sound
  obtain ⟨mapping, mapped⟩ := (maps.waits lpn idx waits).2
  have unitInside := Nat.lt_of_lt_of_le inside (bitsetSize_le cfg)
  have wellFormed := pools.wellFormed _ _ found
  unfold programUnit
  refine Tracks.bindOk (run_blockAt found) ?_
  rcases room with zero | room
  · have failed : block.write (block.nextWritePage idx) lpn idx =
        .error .programOutOfRange := by
      unfold Block.write
      rw [if_neg (by rw [wellFormed.ioUnitInPage_eq]; omega),
        if_pos (by rw [wellFormed.pageCount_eq]; omega)]
    exact Tracks.bindError (run_writeUnit_error found failed)
      ⟨SameHistory.refl _, .noPages zero⟩
  obtain ⟨version, written⟩ := wellFormed.write_next unitInside room lpn
  refine Tracks.bindOk (run_writeUnit found written) ?_
  refine Tracks.bindOk (run_remapUnit (by exact mapped)) ?_
  cases schedule with
  | false =>
      refine Tracks.ok rfl (Relation.ReflTransGen.single
        (.programHot (allowed rfl) aimed found inside waits mapped written)) ?_
      exact ⟨rfl, KeepsOff.written found written rfl⟩
  | true =>
      simp only [if_true]
      cases scheduled : state.refresh.setRefreshPeriod cfg env
          state.stat.refreshCallCount block.eraseCount target
          (block.nextWritePage idx % 64) with
      | error raised =>
          refine Tracks.error
            (run_setRefreshPeriod_error (by exact scheduled)) ?_
          exact ⟨⟨rfl, rfl, rfl, .inr ⟨target, block, idx, lpn, version, found,
              inside, written, rfl⟩⟩,
            .unscheduled (pools.inUse_lt ⟨block, found⟩) scheduled room⟩
      | ok refresh =>
          refine Tracks.ok (run_setRefreshPeriod (by exact scheduled))
            (Relation.ReflTransGen.single
              (.program aimed found inside waits mapped written scheduled)) ?_
          exact ⟨rfl, KeepsOff.written found written rfl⟩

def Phase.programming (cfg : Config) (mapped : Set (Nat × Nat))
    (lpn : Nat) (flag : IOFlag) (target : Nat) (remaining : List Nat) :
    Phase :=
  { Phase.rest (mapped ∪ { unit | unit ∈ touchedUnits cfg lpn flag ∧
      unit.2 ∉ remaining }) with
    pending := { unit | unit ∈ touchedUnits cfg lpn flag ∧
      unit.2 ∈ remaining }
    target := some target }

theorem Phase.programming_range (cfg : Config) (mapped : Set (Nat × Nat))
    (lpn : Nat) (flag : IOFlag) (target : Nat) :
    Phase.programming cfg mapped lpn flag target (List.range cfg.bitsetSize) =
      { Phase.waiting mapped (touchedUnits cfg lpn flag) with
        target := some target } := by
  have all : ∀ unit ∈ touchedUnits cfg lpn flag,
      unit.2 ∈ List.range cfg.bitsetSize := fun unit touched =>
    List.mem_range.mpr touched.2.1
  have none : mapped ∪ { unit | unit ∈ touchedUnits cfg lpn flag ∧
      unit.2 ∉ List.range cfg.bitsetSize } = mapped := by
    ext unit
    constructor
    · rintro (old | ⟨touched, gone⟩)
      · exact old
      · exact absurd (all unit touched) gone
    · exact .inl
  have whole : { unit | unit ∈ touchedUnits cfg lpn flag ∧
      unit.2 ∈ List.range cfg.bitsetSize } = touchedUnits cfg lpn flag := by
    ext unit
    exact ⟨And.left, fun touched => ⟨touched, all unit touched⟩⟩
  unfold Phase.programming Phase.waiting
  rw [none, whole]

theorem Phase.programming_nil (cfg : Config) (mapped : Set (Nat × Nat))
    (lpn : Nat) (flag : IOFlag) (target : Nat) :
    Phase.programming cfg mapped lpn flag target [] =
      { Phase.rest (mapped ∪ touchedUnits cfg lpn flag) with
        target := some target } := by
  simp only [Phase.programming, List.not_mem_nil, not_false_eq_true, and_true,
    and_false, Set.ofPred_mem_eq, Phase.rest]
  rfl

theorem Phase.programming_cons {lpn target idx : Nat} {flag : IOFlag}
    {rest : List Nat} (fresh : idx ∉ rest) (inside : idx < cfg.bitsetSize)
    (touched : touches cfg flag idx = true) :
    Phase.programming cfg mapped lpn flag target rest =
      { Phase.programming cfg mapped lpn flag target (idx :: rest) with
        pending := (Phase.programming cfg mapped lpn flag target
          (idx :: rest)).pending \ {(lpn, idx)}
        mapped := insert (lpn, idx) (Phase.programming cfg mapped lpn flag
          target (idx :: rest)).mapped } := by
  have pending : { unit | unit ∈ touchedUnits cfg lpn flag ∧ unit.2 ∈ rest } =
      { unit | unit ∈ touchedUnits cfg lpn flag ∧ unit.2 ∈ idx :: rest } \
        {(lpn, idx)} := by
    ext ⟨other, unit⟩
    constructor
    · rintro ⟨flagged, member⟩
      refine ⟨⟨flagged, .tail _ member⟩, ?_⟩
      rintro ⟨⟩
      exact fresh member
    · rintro ⟨⟨flagged, member⟩, different⟩
      refine ⟨flagged, ?_⟩
      rcases List.mem_cons.mp member with rfl | member
      · exact absurd (by rw [← flagged.1]; rfl) different
      · exact member
  have done : mapped ∪ { unit | unit ∈ touchedUnits cfg lpn flag ∧
        unit.2 ∉ rest } =
      insert (lpn, idx) (mapped ∪ { unit | unit ∈ touchedUnits cfg lpn flag ∧
        unit.2 ∉ idx :: rest }) := by
    ext ⟨other, unit⟩
    constructor
    · rintro (old | ⟨flagged, gone⟩)
      · exact .inr (.inl old)
      · by_cases same : unit = idx
        · exact .inl (by rw [same, ← flagged.1])
        · refine .inr (.inr ⟨flagged, ?_⟩)
          rintro (_ | ⟨_, member⟩)
          · exact same rfl
          · exact gone member
    · rintro (same | old | ⟨flagged, gone⟩)
      · cases same
        exact .inr ⟨⟨rfl, inside, touched⟩, fresh⟩
      · exact .inl old
      · exact .inr ⟨flagged, fun member => gone (.tail _ member)⟩
  unfold Phase.programming
  rw [pending, done]
  rfl

theorem Phase.programming_skip {lpn target idx : Nat} {flag : IOFlag}
    {rest : List Nat} (untouched : touches cfg flag idx ≠ true) :
    Phase.programming cfg mapped lpn flag target (idx :: rest) =
      Phase.programming cfg mapped lpn flag target rest := by
  have same : ∀ unit ∈ touchedUnits cfg lpn flag,
      (unit.2 ∈ idx :: rest ↔ unit.2 ∈ rest) := by
    rintro ⟨other, unit⟩ ⟨_, _, flagged⟩
    refine ⟨fun member => ?_, .tail _⟩
    rcases List.mem_cons.mp member with rfl | member
    · exact absurd flagged untouched
    · exact member
  have pending : { unit | unit ∈ touchedUnits cfg lpn flag ∧
        unit.2 ∈ idx :: rest } =
      { unit | unit ∈ touchedUnits cfg lpn flag ∧ unit.2 ∈ rest } := by
    ext unit
    exact and_congr_right fun flagged => same unit flagged
  have done : { unit | unit ∈ touchedUnits cfg lpn flag ∧
        unit.2 ∉ idx :: rest } =
      { unit | unit ∈ touchedUnits cfg lpn flag ∧ unit.2 ∉ rest } := by
    ext unit
    exact and_congr_right fun flagged => not_congr (same unit flagged)
  unfold Phase.programming
  rw [pending, done]

theorem programUnits_follows (schedule : Bool) {target lpn : Nat}
    {flag : IOFlag} (allowed : schedule = false → allow.hotFill)
    (room : HasRoom cfg state target) :
    (machine cfg env allow).Follows
      (programUnits cfg env schedule target lpn flag)
      { Phase.waiting mapped (touchedUnits cfg lpn flag) with
        target := some target } state
      fun _ last _ => last = .rest (mapped ∪ touchedUnits cfg lpn flag) := by
  rw [← Phase.programming_range]
  unfold programUnits
  obtain ⟨receiver, found, pages⟩ := room
  refine Follows.after (Follows.forM (fun remaining last final =>
      last = .programming cfg mapped lpn flag target remaining ∧
      remaining.Nodup ∧ (∀ idx ∈ remaining, idx < cfg.bitsetSize) ∧
      ∃ receiver, final.blocks.lookup target = some receiver ∧
        ∀ idx ∈ remaining, cfg.pagesInBlock = 0 ∨
          receiver.nextWritePage idx < cfg.pagesInBlock)
    ⟨rfl, List.nodup_range, fun _ => List.mem_range.mp, receiver, found, ?_⟩
    ?_) ?_
  · intro idx member
    exact pages.imp_right fun room => room idx (Nat.lt_of_lt_of_le
      (List.mem_range.mp member) (bitsetSize_le cfg))
  · rintro idx rest _ current ⟨rfl, nodup, inside, receiver, found, pages⟩
    obtain ⟨fresh, nodup⟩ := List.nodup_cons.mp nodup
    have later : ∀ other ∈ rest, other < cfg.bitsetSize := fun other member =>
      inside other (.tail _ member)
    split
    · next touched =>
        refine Follows.mono (programUnit_follows schedule allowed rfl found
          (pages idx (.head _)) (inside idx (.head _))
          ⟨⟨rfl, inside idx (.head _), touched⟩, .head _⟩) ?_
        rintro _ _ final _ _ ⟨rfl, kept⟩
        obtain ⟨version, found', _, next⟩ := kept target receiver found
        refine ⟨(Phase.programming_cons fresh (inside idx (.head _))
          touched).symm, nodup, later, version, found', ?_⟩
        intro other member
        have different : other ≠ idx := by
          rintro rfl
          exact fresh member
        rw [next other different]
        exact pages other (.tail _ member)
    · next untouched =>
        refine Follows.pure ⟨Phase.programming_skip untouched, nodup, later,
          receiver, found, fun other member => pages other (.tail _ member)⟩
  · rintro _ _ final _ ⟨rfl, _⟩
    rw [Phase.programming_nil]
    exact ⟨_, Relation.ReflTransGen.single .settle, rfl⟩

theorem plain_usable (used : cfg.hotColdSeparation = false ∨
    (allow.policy ∧ allow.plainFill)) : Usable cfg allow .plain := by
  rcases used with plain | allowed
  · exact .inl (by simp [activePools, plain])
  · exact .inr ⟨rfl, allowed⟩

theorem separated_usable (separated : cfg.hotColdSeparation = true)
    {pool : ActivePool} (different : pool ≠ .plain) :
    Usable cfg allow pool := by
  left
  unfold activePools
  rw [if_pos separated]
  cases pool with
  | plain => exact absurd rfl different
  | hot => simp
  | cool => simp
  | cold => simp

theorem programPage_follows (schedule : Bool) (pool : ActivePool) (lpn : Nat)
    (flag : IOFlag) (allowed : schedule = false → allow.hotFill)
    (used : Usable cfg allow pool) {next : FTLM Unit}
    {post : Unit → Phase → State → Prop}
    (rest : ∀ final, (machine cfg env allow).Follows next
      (.rest (mapped ∪ touchedUnits cfg lpn flag)) final post) :
    (machine cfg env allow).Follows
      (do
        let target ← getLastBlock cfg pool flag
        let _ ← findBlock target .noSuchBlock
        programUnits cfg env schedule target lpn flag
        next) (.waiting mapped (touchedUnits cfg lpn flag)) state post := by
  refine Follows.bind (getLastBlock_follows pool flag used rfl
    fun collecting => absurd rfl collecting) ?_
  rintro target _ aimed ⟨rfl, _, block, found, room⟩
  refine Follows.bindOk (run_findBlock found) ?_
  refine Follows.bind (programUnits_follows schedule allowed
    ⟨block, found, room⟩) ?_
  rintro _ _ programmed rfl
  exact rest programmed

theorem writeInternal_follows (lpn : Nat) (flag : IOFlag) (sendToPAL : Bool)
    (allowed : allow.policy)
    (used : cfg.hotColdSeparation = false ∨
      (allow.plainFill ∧ sendToPAL = false)) :
    (machine cfg env allow).Follows
      (writeInternal cfg env lpn flag sendToPAL) (.rest mapped) state
      fun _ last _ => last = .rest (mapped ∪ touchedUnits cfg lpn flag) := by
  unfold writeInternal
  refine Follows.bind (openMapping_follows lpn flag) ?_
  rintro old _ opened ⟨rfl, _⟩
  refine programPage_follows true .plain lpn flag (by simp) (plain_usable
    (used.imp_right fun fills => ⟨allowed, fills.1⟩)) ?_
  intro programmed
  refine Follows.bindOk rfl ?_
  split
  · split
    · exact Follows.throwBind ⟨SameHistory.refl _, .refused allowed (by decide)⟩
    · next sent =>
        rcases used with plain | ⟨_, silent⟩
        · exact plainGC_follows false plain allowed
        · simp [silent] at sent
  · exact Follows.pure rfl

theorem poolTypeOf_follows (fresh : BlockPoolType) {old : Option (Option Nat)}
    (allowed : allow.policy)
    (inUse : ∀ blockIndex, old = some (some blockIndex) →
      state.InUse blockIndex) :
    (machine cfg env allow).Follows (poolTypeOf fresh old) phase state
      fun _ last final => last = phase ∧ final = state := by
  unfold poolTypeOf
  split
  · exact Follows.pure ⟨rfl, rfl⟩
  · exact Follows.throw ⟨SameHistory.refl _, .refused allowed (by decide)⟩
  · next blockIndex =>
      obtain ⟨block, found⟩ := inUse blockIndex rfl
      refine Follows.bindOk (run_blockAt found) ?_
      exact Follows.pure ⟨rfl, rfl⟩

theorem sepCollect_follows (sendToPAL : Bool)
    (separated : cfg.hotColdSeparation = true) (allowed : allow.policy) :
    (machine cfg env allow).Follows
      (do
        if ← needsGC env .cold then
          if !sendToPAL then
            throw .gcInInitializationByCold
          coldGC cfg env false
        if ← needsGC env .hot then
          if !sendToPAL then
            throw .gcInInitializationByHot
          hotGC cfg env) (.rest mapped) state
      fun _ last _ => last = .rest mapped := by
  have hot : ∀ state, (machine cfg env allow).Follows
      (do
        if ← needsGC env .hot then
          if !sendToPAL then
            throw .gcInInitializationByHot
          hotGC cfg env) (.rest mapped) state
      fun _ last _ => last = .rest mapped := by
    intro state
    refine Follows.bindOk rfl ?_
    split
    · split
      · exact Follows.throwBind
          ⟨SameHistory.refl _, .refused allowed (by decide)⟩
      · exact hotGC_follows separated allowed
    · exact Follows.pure rfl
  refine Follows.bindOk rfl ?_
  dsimp only
  by_cases below : env.belowGCThreshold .cold (state.free .cold).count = true
  · rw [if_pos below]
    by_cases silent : (!sendToPAL) = true
    · rw [if_pos silent]
      exact Follows.throwBind ⟨SameHistory.refl _, .refused allowed (by decide)⟩
    · rw [if_neg silent]
      refine Follows.bind (coldGC_follows false separated allowed) ?_
      rintro _ _ collected rfl
      exact hot collected
  · rw [if_neg below]
    exact hot state

theorem sepWriteInternal_follows (lpn : Nat) (flag : IOFlag)
    (sendToPAL : Bool) (separated : cfg.hotColdSeparation = true)
    (allowed : allow.policy) :
    (machine cfg env allow).Follows
      (sepWriteInternal cfg env lpn flag sendToPAL) (.rest mapped) state
      fun _ last _ => last = .rest (mapped ∪ touchedUnits cfg lpn flag) := by
  unfold sepWriteInternal
  refine Follows.bind (openMapping_follows lpn flag) ?_
  rintro old _ opened ⟨rfl, inUse⟩
  refine Follows.bind (poolTypeOf_follows .cold allowed inUse) ?_
  rintro curBlockType _ _ ⟨rfl, rfl⟩
  dsimp only
  by_cases cold : curBlockType = .cold
  · rw [if_pos cold]
    exact programPage_follows true .cool lpn flag (by simp)
      (separated_usable separated (by simp))
      fun _ => sepCollect_follows sendToPAL separated allowed
  · rw [if_neg cold]
    exact programPage_follows true .hot lpn flag (by simp)
      (separated_usable separated (by simp))
      fun _ => sepCollect_follows sendToPAL separated allowed

theorem sepHotWriteInternal_follows (lpn : Nat) (flag : IOFlag)
    (separated : cfg.hotColdSeparation = true) (allowed : allow.policy)
    (fills : allow.hotFill) :
    (machine cfg env allow).Follows (sepHotWriteInternal cfg env lpn flag)
      (.rest mapped) state
      fun _ last _ => last = .rest (mapped ∪ touchedUnits cfg lpn flag) := by
  unfold sepHotWriteInternal
  refine Follows.bind (openMapping_follows lpn flag) ?_
  rintro old _ opened ⟨rfl, inUse⟩
  refine Follows.bind (poolTypeOf_follows .hot allowed inUse) ?_
  rintro curBlockType _ _ ⟨rfl, rfl⟩
  dsimp only
  split
  · exact Follows.throwBind ⟨SameHistory.refl _, .refused allowed (by decide)⟩
  refine programPage_follows false .hot lpn flag (fun _ => fills)
    (separated_usable separated (by simp)) ?_
  intro programmed
  refine Follows.bindOk rfl ?_
  split
  · exact Follows.throwBind ⟨SameHistory.refl _, .refused allowed (by decide)⟩
  refine Follows.bindOk rfl ?_
  split
  · exact Follows.throw ⟨SameHistory.refl _, .refused allowed (by decide)⟩
  · exact Follows.pure rfl

theorem write_follows (lpn : Nat) (flag : IOFlag) (allowed : allow.policy) :
    (machine cfg env allow).Follows (write cfg env lpn flag) (.rest mapped)
      state fun _ last _ => last = .rest
        (if 0 < flag.count cfg.ioUnitInPage then
          mapped ∪ touchedUnits cfg lpn flag else mapped) := by
  unfold write
  split
  · split
    · next separated =>
        exact sepWriteInternal_follows lpn flag true separated allowed
    · next plain =>
        exact writeInternal_follows lpn flag true allowed
          (.inl (by simpa using plain))
  · exact Follows.pure rfl

theorem read_follows (lpn : Nat) (flag : IOFlag) :
    (machine cfg env allow).Follows (read cfg lpn flag) (.rest mapped) state
      fun _ last _ => last = .rest mapped := by
  apply Follows.ofSound
  rintro ⟨pools, maps⟩
  unfold read
  split
  · unfold readInternal
    apply Follows.getBind
    split
    · exact Follows.pure rfl
    · next mapping found =>
        refine Follows.mono (Follows.forM (fun remaining last final =>
            last = .rest mapped ∧ final = state ∧
            ∀ idx ∈ remaining, idx < cfg.bitsetSize)
          ⟨rfl, rfl, fun _ => List.mem_range.mp⟩ ?_)
          fun _ _ _ _ _ post => post.1
        rintro idx rest _ _ ⟨rfl, rfl, inside⟩
        have later : ∀ other ∈ rest, other < cfg.bitsetSize :=
          fun other member => inside other (.tail _ member)
        split
        · split
          · next located =>
              obtain ⟨block, holder, _⟩ := maps.backed lpn mapping found idx
                (inside idx (.head _)) located (fun waits => waits.elim)
              exact Follows.bindOk (run_findBlock holder)
                (Follows.pure ⟨rfl, rfl, later⟩)
          · exact Follows.pure ⟨rfl, rfl, later⟩
        · exact Follows.pure ⟨rfl, rfl, later⟩
  · exact Follows.pure rfl

structure SameShape (before after : State) : Prop where
  inUse_eq : after.InUse = before.InUse
  hotWindow_eq : after.hotWindow = before.hotWindow
  coolDownWindow_eq : after.coolDownWindow = before.coolDownWindow
  active_eq : after.active = before.active
  version : ∀ blockIndex block, before.blocks.lookup blockIndex = some block →
    ∃ later, after.blocks.lookup blockIndex = some later ∧
      later.getNextWritePageIndex = block.getNextWritePageIndex

theorem SameShape.refl (state : State) : SameShape state state :=
  ⟨rfl, rfl, rfl, rfl, fun _ block found => ⟨block, found, rfl⟩⟩

theorem SameShape.trans {first second third : State}
    (left : SameShape first second) (right : SameShape second third) :
    SameShape first third :=
  ⟨right.inUse_eq.trans left.inUse_eq,
    right.hotWindow_eq.trans left.hotWindow_eq,
    right.coolDownWindow_eq.trans left.coolDownWindow_eq,
    right.active_eq.trans left.active_eq, by
      intro blockIndex block found
      obtain ⟨middle, found', same⟩ := left.version blockIndex block found
      obtain ⟨later, found'', same'⟩ := right.version blockIndex middle found'
      exact ⟨later, found'', same'.trans same⟩⟩

def dropping (cfg : Config) (lpn : Nat) (remaining : List Nat) :
    Set (Nat × Nat) :=
  { unit | unit.1 = lpn ∧ unit.2 < cfg.bitsetSize ∧ unit.2 ∉ remaining }

theorem dropping_range (lpn : Nat) :
    dropping cfg lpn (List.range cfg.bitsetSize) = ∅ := by
  ext unit
  simp only [dropping, Set.mem_ofPred_eq, List.mem_range,
    Set.mem_empty_iff_false, iff_false]
  omega

theorem dropping_cons {lpn idx : Nat} {rest : List Nat} (fresh : idx ∉ rest)
    (inside : idx < cfg.bitsetSize) :
    dropping cfg lpn rest =
      insert (lpn, idx) (dropping cfg lpn (idx :: rest)) := by
  ext ⟨other, unit⟩
  simp only [dropping, Set.mem_ofPred_eq, Set.mem_insert_iff, Prod.mk.injEq,
    List.mem_cons, not_or]
  constructor
  · rintro ⟨rfl, bound, gone⟩
    by_cases same : unit = idx
    · exact .inl ⟨rfl, same⟩
    · exact .inr ⟨rfl, bound, same, gone⟩
  · rintro (⟨rfl, rfl⟩ | ⟨rfl, bound, _, gone⟩)
    · exact ⟨rfl, inside, fresh⟩
    · exact ⟨rfl, bound, gone⟩

theorem trimUnit_follows {missing : Panic} {lpn idx : Nat}
    {mapping : Mapping} {pending : Set (Nat × Nat)}
    (text : missing = .trimBlockNotInUse ∨ missing = .formatBlockNotInUse)
    (found : state.table.lookup lpn = some mapping)
    (inside : idx < cfg.bitsetSize) (settled : (lpn, idx) ∉ pending) :
    (machine cfg env allow).Follows (trimUnit missing mapping idx)
      (.waiting mapped pending) state fun _ last final =>
        last = .waiting mapped (insert (lpn, idx) pending) ∧
        final.table.lookup lpn = some mapping ∧ SameShape state final := by
  apply Follows.ofSound
  rintro ⟨pools, maps⟩
  have backed : IsLocation cfg (mapping idx) →
      state.Stores (mapping idx).1 (mapping idx).2 idx lpn := fun located =>
    maps.backed lpn mapping found idx inside located settled
  unfold trimUnit
  cases holder : state.blocks.lookup (mapping idx).1 with
  | none =>
      refine Follows.bindError (run_findBlock_none holder)
        ⟨SameHistory.refl _, .unmapped found inside ?_ settled text⟩
      intro located
      obtain ⟨block, holder', _⟩ := backed located
      rw [holder] at holder'
      cases holder'
  | some block =>
      refine Follows.bindOk (run_findBlock holder) ?_
      have located : IsLocation cfg (mapping idx) := by
        have bound := pools.inUse_lt ⟨block, holder⟩
        rcases maps.entry lpn mapping found idx inside with blank | located
        · rw [blank] at bound
          exact absurd bound (Nat.lt_irrefl _)
        · exact located
      obtain ⟨block', holder', valid, stores⟩ := backed located
      rw [holder] at holder'
      cases holder'
      refine Follows.endStep (run_invalidateUnit holder ?_)
        (.invalidate found inside rfl holder valid stores)
        ⟨rfl, found, State.inUse_setBlock_same ⟨block, holder⟩, rfl, rfl, rfl,
          ?_⟩
      · rw [(pools.wellFormed _ _ holder).pageCount_eq]
        exact located.2
      · intro blockIndex version found'
        rw [State.lookup_setBlock]
        split
        · next same =>
            rw [same, holder] at found'
            cases found'
            exact ⟨_, rfl, rfl⟩
        · exact ⟨version, found', rfl⟩

theorem unmap_follows {missing : Panic} (lpn : Nat)
    (text : missing = .trimBlockNotInUse ∨ missing = .formatBlockNotInUse) :
    (machine cfg env allow).Follows (unmap cfg missing lpn) (.rest mapped)
      state fun _ last final =>
        last = .rest (mapped \ { unit | unit.1 = lpn }) ∧
        SameShape state final := by
  apply Follows.ofSound
  rintro ⟨_, maps⟩
  unfold unmap
  apply Follows.getBind
  split
  · next absent =>
      refine Follows.pure ⟨?_, SameShape.refl state⟩
      congr 1
      ext ⟨other, idx⟩
      refine ⟨fun member => ⟨member, ?_⟩, And.left⟩
      rintro rfl
      obtain ⟨_, mapping, found, _⟩ := (maps.mapped_iff _ _).mp member
      rw [absent] at found
      cases found
  · next mapping found =>
      have start : Phase.rest mapped =
          .waiting mapped (dropping cfg lpn (List.range cfg.bitsetSize)) := by
        rw [dropping_range]
        rfl
      rw [start]
      refine Follows.bind (Follows.forM (fun remaining last final =>
          last = .waiting mapped (dropping cfg lpn remaining) ∧
          final.table.lookup lpn = some mapping ∧ SameShape state final ∧
          remaining.Nodup ∧ ∀ idx ∈ remaining, idx < cfg.bitsetSize)
        ⟨rfl, found, SameShape.refl state, List.nodup_range,
          fun _ => List.mem_range.mp⟩ ?_) ?_
      · rintro idx rest _ current ⟨rfl, found, shape, nodup, inside⟩
        obtain ⟨fresh, nodup⟩ := List.nodup_cons.mp nodup
        refine Follows.mono (trimUnit_follows text found (inside idx (.head _))
          fun waits => waits.2.2 (.head _)) ?_
        rintro _ _ final _ _ ⟨rfl, found', shape'⟩
        refine ⟨by rw [dropping_cons fresh (inside idx (.head _))], found',
          shape.trans shape', nodup, ?_⟩
        exact fun other member => inside other (.tail _ member)
      · rintro _ _ final ⟨rfl, _, shape, _⟩
        refine Follows.endStep rfl (.unmap ?_)
          ⟨?_, shape.trans ⟨rfl, rfl, rfl, rfl,
            fun _ block found => ⟨block, found, rfl⟩⟩⟩
        · intro idx bound
          exact ⟨rfl, bound, by simp⟩
        · have nothing : dropping cfg lpn [] \ { unit | unit.1 = lpn } = ∅ := by
            ext unit
            simp only [dropping, Set.mem_sdiff, Set.mem_ofPred_eq,
              Set.mem_empty_iff_false, iff_false]
            tauto
          simp only [Phase.waiting, Phase.rest, nothing]

theorem trim_follows (lpn : Nat) :
    (machine cfg env allow).Follows (trim cfg lpn) (.rest mapped) state
      fun _ last _ => last = .rest (mapped \ { unit | unit.1 = lpn }) :=
  (unmap_follows lpn (.inl rfl)).mono fun _ _ _ _ _ post => post.1

theorem SafeVictims.of_sameShape {after : State} {victims : List Nat}
    (safe : SafeVictims cfg state victims) (shape : SameShape state after) :
    SafeVictims cfg after victims where
  nodup := safe.nodup
  inUse := by
    rw [shape.inUse_eq]
    exact safe.inUse
  notHot := by
    rw [shape.hotWindow_eq]
    exact safe.notHot
  notCool := by
    rw [shape.coolDownWindow_eq]
    exact safe.notCool
  closed := by
    rw [shape.active_eq]
    intro victim member named
    obtain ⟨block, found, full⟩ := safe.closed victim member named
    obtain ⟨later, found', same⟩ := shape.version victim block found
    exact ⟨later, found', same.trans full⟩

theorem collectGiven_follows {victims : List Nat}
    (allowed : allow.policy ∨ allow.wiping)
    (safe : allow.foreign ∨ SafeVictims cfg state victims) :
    (machine cfg env allow).Follows
      (if cfg.hotColdSeparation then
        sepDoGarbageCollection cfg env false .cold victims
      else doGarbageCollection cfg env false victims) (.rest mapped) state
      fun _ last final => last = .rest mapped ∧
        ∀ victim ∈ victims, Vacant cfg final victim := by
  refine Follows.before (.collect
    (Phase.rest_settled mapped) rfl victims safe) ?_
  split
  · next separated =>
      exact sepDoGarbageCollection_follows false .cold separated allowed
        (Phase.settled_collecting mapped victims) rfl
  · next plain =>
      exact doGarbageCollection_follows false (by simpa using plain) allowed
        (Phase.settled_collecting mapped victims) rfl

theorem format_follows (slpn nlp : Nat)
    (allowed : allow.policy ∨ allow.wiping)
    (safe : allow.foreign ∨ SafeVictims cfg state (formattedBlocks cfg state
      (state.table.keys.filter (inRange slpn nlp)))) :
    (machine cfg env allow).Follows (format cfg env slpn nlp) (.rest mapped)
      state fun _ last _ =>
        last = .rest (mapped \ { unit | inRange slpn nlp unit.1 = true }) := by
  apply Follows.ofSound
  rintro ⟨_, maps⟩
  unfold format
  apply Follows.getBind
  dsimp only
  refine Follows.bind (Follows.forM (fun remaining last final =>
      ∃ done, state.table.keys.filter (inRange slpn nlp) = done ++ remaining ∧
        last = .rest (mapped \ { unit | unit.1 ∈ done }) ∧
        SameShape state final)
    ⟨[], rfl, by simp, SameShape.refl state⟩ ?_) ?_
  · rintro lpn rest _ current ⟨done, split, rfl, shape⟩
    refine Follows.mono (unmap_follows lpn (.inr rfl)) ?_
    rintro _ _ final _ _ ⟨rfl, shape'⟩
    refine ⟨done ++ [lpn], by simp [split], ?_, shape.trans shape'⟩
    congr 1
    ext unit
    simp only [Set.mem_sdiff, Set.mem_ofPred_eq, List.mem_append,
      List.mem_singleton, not_or, and_assoc]
  · rintro _ _ final ⟨done, split, rfl, shape⟩
    rw [List.append_nil] at split
    refine Follows.mono (collectGiven_follows allowed
      (safe.imp_right fun safe => safe.of_sameShape shape)) ?_
    rintro _ _ last _ _ ⟨rfl, _⟩
    congr 1
    ext ⟨lpn, idx⟩
    simp only [Set.mem_sdiff, Set.mem_ofPred_eq, ← split, List.mem_filter]
    refine and_congr_right fun member => not_congr (and_iff_right ?_)
    obtain ⟨_, mapping, found, _⟩ := (maps.mapped_iff lpn idx).mp member
    rw [← AList.mem_keys, ← AList.lookup_isSome, found]
    rfl

def FillWrite.Allowed (cfg : Config) (allow : Allowance) : FillWrite → Prop
  | .plain _ => cfg.hotColdSeparation = false ∨ allow.plainFill
  | .cool _ => cfg.hotColdSeparation = true
  | .hot _ => cfg.hotColdSeparation = true ∧ allow.hotFill

theorem fill_follows (filling : FillWrite) (policy : allow.policy)
    (allowed : filling.Allowed cfg allow) :
    (machine cfg env allow).Follows (fill cfg env filling) (.rest mapped)
      state fun _ last _ => last = .rest
        (mapped ∪ touchedUnits cfg filling.lpn IOFlag.all) := by
  cases filling with
  | plain lpn =>
      exact writeInternal_follows lpn IOFlag.all false policy
        (allowed.imp_right fun fills => ⟨fills, rfl⟩)
  | cool lpn =>
      exact sepWriteInternal_follows lpn IOFlag.all false allowed policy
  | hot lpn =>
      exact sepHotWriteInternal_follows lpn IOFlag.all allowed.1 policy
        allowed.2

/-- The writes of `initialize`. -/
def fills (cfg : Config) (env : Environment) : List FillWrite :=
  fillingWrites cfg env ++ invalidatingWrites cfg env

def filledUnits (cfg : Config) (writes : List FillWrite) :
    Set (Nat × Nat) :=
  { unit | ∃ filling ∈ writes,
    unit ∈ touchedUnits cfg filling.lpn IOFlag.all }

theorem fills_follow {writes : List FillWrite} (policy : allow.policy)
    (allowed : ∀ filling ∈ writes, filling.Allowed cfg allow) :
    (machine cfg env allow).Follows (writes.forM (fill cfg env))
      (.rest mapped) state
      fun _ last _ => last = .rest (mapped ∪ filledUnits cfg writes) := by
  refine Follows.mono (Follows.forM (fun remaining last _ =>
      ∃ done, writes = done ++ remaining ∧
        last = .rest (mapped ∪ filledUnits cfg done))
    ⟨[], rfl, by simp [filledUnits]⟩ ?_) ?_
  · rintro filling rest _ current ⟨done, split, rfl⟩
    refine Follows.mono (fill_follows filling policy
      (allowed filling (by simp [split]))) ?_
    rintro _ _ final _ _ rfl
    refine ⟨done ++ [filling], by simp [split], ?_⟩
    congr 1
    rw [Set.union_assoc]
    congr 1
    ext unit
    simp only [filledUnits, Set.mem_union, Set.mem_ofPred_eq, List.mem_append,
      List.mem_singleton, or_and_right, exists_or, exists_eq_left]
  · rintro _ _ final _ _ ⟨done, split, rfl⟩
    rw [List.append_nil] at split
    rw [split]

theorem setupRefresh_follows (allowed : allow.setup) :
    (machine cfg env allow).Follows (setupRefresh cfg) phase state
      fun _ last _ => last = phase :=
  Follows.endStep rfl (.setup allowed) rfl

theorem initializeFTL_follows (policy : allow.policy) (setup : allow.setup)
    (allowed : ∀ filling ∈ fills cfg env, filling.Allowed cfg allow) :
    (machine cfg env allow).Follows (initializeFTL cfg env) (.rest mapped)
      state fun _ last _ =>
        last = .rest (mapped ∪ filledUnits cfg (fills cfg env)) := by
  unfold initializeFTL
  refine Follows.bind (setupRefresh_follows setup) ?_
  rintro _ _ final rfl
  exact fills_follow policy allowed

/-- Every slot of the arrays in use names a block in use. -/
def AllPlaced (cfg : Config) (state : State) : Prop :=
  ∀ idx < cfg.pageCountToMaxPerf, ∀ pool ∈ activePools cfg,
    Placed cfg state pool idx

theorem construct_follows :
    (machine cfg env allow).Follows (construct cfg) (.rest mapped) state
      fun _ last final => last = .rest mapped ∧ final.books = state.books ∧
        AllPlaced cfg final := by
  unfold construct
  refine Follows.mono (Follows.forM (fun remaining last final =>
      last = .rest mapped ∧ final.books = state.books ∧ ∃ done,
        List.range cfg.pageCountToMaxPerf = done ++ remaining ∧
        ∀ idx ∈ done, ∀ pool ∈ activePools cfg, Placed cfg final pool idx)
    ⟨rfl, rfl, [], rfl, by simp⟩ ?_) ?_
  · intro idx rest _ current ⟨same, books, done, split, placed⟩
    subst same
    have inside : idx < cfg.pageCountToMaxPerf := by
      rw [← List.mem_range, split]
      simp
    refine Follows.mono (Follows.forM (fun remaining last final =>
        last = .rest mapped ∧ final.books = state.books ∧
        (∀ index ∈ done, ∀ pool ∈ activePools cfg,
          Placed cfg final pool index) ∧
        ∃ seated, activePools cfg = seated ++ remaining ∧
          ∀ pool ∈ seated, Placed cfg final pool idx)
      ⟨rfl, books, placed, [], rfl, by simp⟩ ?_) ?_
    · intro pool others _ current ⟨same, books, placed, seated, used, here⟩
      subst same
      apply Follows.ofSound
      intro ⟨pools, _⟩
      refine (seatSlot_follows pool rfl inside (.inl (by simp [used]))).mono ?_
      intro _ _ final _ _ ⟨same, slot⟩
      refine ⟨same, slot.books.trans books, ?_, seated ++ [pool],
        by simp [used], ?_⟩
      · intro index member other listed
        exact slot.keeps (placed index member other listed)
      · intro other member
        rcases List.mem_append.mp member with earlier | last
        · exact slot.keeps (here other earlier)
        · rw [List.mem_singleton.mp last]
          exact slot.placed (by rw [pools.slots]; exact inside)
    · intro _ _ final _ _ ⟨same, books, placed, seated, used, here⟩
      rw [List.append_nil] at used
      refine ⟨same, books, done ++ [idx], by simp [split], ?_⟩
      intro index member
      rcases List.mem_append.mp member with earlier | last
      · exact placed index earlier
      · rw [List.mem_singleton.mp last, used]
        exact here
  · intro _ _ final _ _ ⟨same, books, done, split, placed⟩
    rw [List.append_nil] at split
    refine ⟨same, books, ?_⟩
    intro idx inside
    exact placed idx (split ▸ List.mem_range.mpr inside)

end SimpleSSD.FTL
