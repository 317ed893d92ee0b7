import SimpleSSD.FTL.Sampling
import Mathlib.Data.Rat.Floor

namespace SimpleSSD.FTL

open Machine Program

/-! The page counts of `initialize` against the threshold of the garbage
collection, with the ratios of the configuration as rationals. -/

structure Ratios where
  overProvision : Rat
  fill : Rat
  invalidPage : Rat
  gcThreshold : Rat
  overProvision_mem : 0 ≤ overProvision ∧ overProvision ≤ 1
  fill_mem : 0 ≤ fill ∧ fill ≤ 1
  invalidPage_mem : 0 ≤ invalidPage ∧ invalidPage ≤ 1
  gcThreshold_mem : 0 ≤ gcThreshold ∧ gcThreshold ≤ 1

namespace Ratios

variable (ratios : Ratios) (cfg : Config)

def totalLogicalBlocks : Nat :=
  ⌊(cfg.totalPhysicalBlocks : Rat) * (1 - ratios.overProvision)⌋₊

def nTotalLogicalPages : Nat :=
  ratios.totalLogicalBlocks cfg * cfg.pagesInBlock

def nPagesToWarmup : Nat :=
  ⌊(ratios.nTotalLogicalPages cfg : Rat) * ratios.fill⌋₊

/-- Before the adjustment. -/
def nPagesToInvalidate : Nat :=
  ⌊(ratios.nTotalLogicalPages cfg : Rat) * ratios.invalidPage⌋₊

/-- A negative number of a page or more has no value as a `uint64_t`. -/
def maxPagesBeforeGC : Option Nat :=
  let pages := (cfg.pagesInBlock : Rat) *
    (cfg.totalPhysicalBlocks * (1 - ratios.gcThreshold) -
      cfg.pageCountToMaxPerf)
  if -1 < pages then some ⌊pages⌋₊ else none

/-- `nPagesToInvalidate` after the adjustment, on `uint64_t`. -/
def adjusted (maxPages : Nat) : Nat :=
  if maxPages <
      (ratios.nPagesToWarmup cfg + ratios.nPagesToInvalidate cfg) % 2 ^ 64 then
    (maxPages + 2 ^ 64 - ratios.nPagesToWarmup cfg) % 2 ^ 64
  else ratios.nPagesToInvalidate cfg

/-- What `initialize` goes by. -/
def config (maxPages : Nat) : Config :=
  { cfg with
    nPagesToWarmup := ratios.nPagesToWarmup cfg
    nPagesToInvalidate := ratios.adjusted cfg maxPages }

/-- `freeBlockRatio() < gcThreshold`. -/
def below (freeBlocks : Nat) : Prop :=
  (freeBlocks : Rat) / cfg.totalPhysicalBlocks < ratios.gcThreshold

instance (freeBlocks : Nat) : Decidable (ratios.below cfg freeBlocks) :=
  inferInstanceAs (Decidable (_ < _))

def environment (env : Environment) : Environment :=
  { env with
    belowGCThreshold := fun pool freeBlocks =>
      match pool with
      | .plain => ratios.below cfg freeBlocks
      | other => env.belowGCThreshold other freeBlocks }

structure Accepted : Prop where
  blocks : cfg.totalPhysicalBlocks < 2 ^ 32
  pages : cfg.pagesInBlock < 2 ^ 32
  provision : ratios.totalLogicalBlocks cfg + cfg.pageCountToMaxPerf <
    cfg.totalPhysicalBlocks

def writePages (cfg : Config) (env : Environment) (lpns : List Nat) :
    FTLM Unit := do
  construct cfg
  setupRefresh cfg
  lpns.forM fun lpn => placePage cfg env lpn IOFlag.all

/-- The adjusted counts stay below the maximum, and as many writes keep enough
free blocks, so that `initialize` does not stop for a collection. -/
structure NeverCollects (env : Environment) (maxPages : Nat) : Prop where
  pages_le : ratios.nPagesToWarmup cfg + ratios.adjusted cfg maxPages ≤ maxPages
  ratio : ∀ lpns, lpns ≠ [] →
    lpns.length ≤ ratios.nPagesToWarmup cfg + ratios.adjusted cfg maxPages →
      ∀ final, (writePages (ratios.config cfg maxPages)
          (ratios.environment cfg env) lpns).run (blankState cfg) =
            .ok () final →
        ¬ ratios.below cfg (final.free .plain).count
  unreached : ∀ stopped, outcome (ratios.config cfg maxPages)
    (ratios.environment cfg env) [.initializeFTL] ≠
      .error .gcInInitialization stopped

end Ratios

section Counts

variable {ratios : Ratios} {cfg : Config} {maxPages : Nat}

theorem maxPages_le (defined : ratios.maxPagesBeforeGC cfg = some maxPages)
    (positive : 0 < maxPages) :
    (maxPages : Rat) ≤ (cfg.pagesInBlock : Rat) *
      (cfg.totalPhysicalBlocks * (1 - ratios.gcThreshold) -
        cfg.pageCountToMaxPerf) := by
  unfold Ratios.maxPagesBeforeGC at defined
  dsimp only at defined
  split at defined
  · cases defined
    refine Nat.floor_le ?_
    by_contra negative
    rw [Nat.floor_of_nonpos (le_of_lt (not_le.mp negative))] at positive
    exact Nat.lt_irrefl _ positive
  · cases defined

theorem maxPages_lt (accepted : ratios.Accepted cfg)
    (defined : ratios.maxPagesBeforeGC cfg = some maxPages) :
    maxPages < 2 ^ 64 := by
  rcases Nat.eq_zero_or_pos maxPages with zero | positive
  · rw [zero]
    decide
  · have bound := maxPages_le defined positive
    have threshold := ratios.gcThreshold_mem.1
    have whole : (maxPages : Rat) ≤
        cfg.pagesInBlock * cfg.totalPhysicalBlocks := by
      refine bound.trans (mul_le_mul_of_nonneg_left ?_ (Nat.cast_nonneg _))
      have blocks : (0 : Rat) ≤ cfg.totalPhysicalBlocks := Nat.cast_nonneg _
      have active : (0 : Rat) ≤ cfg.pageCountToMaxPerf := Nat.cast_nonneg _
      nlinarith
    have product : maxPages ≤ cfg.pagesInBlock * cfg.totalPhysicalBlocks := by
      exact_mod_cast whole
    have pages := Nat.mul_lt_mul'' accepted.pages accepted.blocks
    omega

theorem adjusted_le (accepted : ratios.Accepted cfg)
    (defined : ratios.maxPagesBeforeGC cfg = some maxPages) :
    ratios.nPagesToWarmup cfg + ratios.adjusted cfg maxPages ≤ maxPages ↔
      ratios.nPagesToWarmup cfg ≤ maxPages ∧
        (ratios.nPagesToWarmup cfg + ratios.nPagesToInvalidate cfg < 2 ^ 64 ∨
          maxPages < (ratios.nPagesToWarmup cfg +
            ratios.nPagesToInvalidate cfg) % 2 ^ 64) := by
  have bits := maxPages_lt accepted defined
  unfold Ratios.adjusted
  split <;> omega

theorem not_below (defined : ratios.maxPagesBeforeGC cfg = some maxPages)
    {written freeBlocks room : Nat} (positive : 0 < written)
    (bounded : written ≤ maxPages)
    (roomy : room ≤ cfg.pageCountToMaxPerf * cfg.pagesInBlock)
    (spare : cfg.pagesInBlock * cfg.totalPhysicalBlocks ≤
      cfg.pagesInBlock * freeBlocks + room + written) :
    ¬ ratios.below cfg freeBlocks := by
  have bound := maxPages_le defined (positive.trans_le bounded)
  have first : (1 : Rat) ≤ written := by exact_mod_cast positive
  have most : (written : Rat) ≤ maxPages := by exact_mod_cast bounded
  have slots : (room : Rat) ≤ cfg.pageCountToMaxPerf * cfg.pagesInBlock := by
    exact_mod_cast roomy
  have left : (cfg.pagesInBlock : Rat) * cfg.totalPhysicalBlocks ≤
      cfg.pagesInBlock * freeBlocks + room + written := by
    exact_mod_cast spare
  have pages : (0 : Rat) ≤ cfg.pagesInBlock := Nat.cast_nonneg _
  have active : (0 : Rat) ≤ cfg.pageCountToMaxPerf := Nat.cast_nonneg _
  have total : (0 : Rat) ≤ cfg.totalPhysicalBlocks := Nat.cast_nonneg _
  have threshold := ratios.gcThreshold_mem.1
  have product : (0 : Rat) < cfg.pagesInBlock * cfg.totalPhysicalBlocks := by
    nlinarith [mul_nonneg pages active,
      mul_nonneg (mul_nonneg pages total) threshold]
  have pages' : (0 : Rat) < cfg.pagesInBlock :=
    pos_of_mul_pos_left product total
  have blocks : (0 : Rat) < cfg.totalPhysicalBlocks :=
    pos_of_mul_pos_right product pages
  unfold Ratios.below
  rw [not_lt, le_div_iff₀ blocks]
  refine le_of_mul_le_mul_left ?_ pages'
  nlinarith

end Counts

structure Warm (cfg : Config) (total pages : Nat) (state : State) : Prop where
  stocked : Stocked .plain state
  length_eq : (state.active .plain).blocks.length = cfg.pageCountToMaxPerf
  spare_le : cfg.pagesInBlock * cfg.totalPhysicalBlocks + pages ≤
    state.spare cfg .plain + total

section Run

variable {cfg : Config} {env : Environment} {state updated : State}
  {total pages : Nat}

theorem Fresh.warm (off : cfg.hotColdSeparation = false)
    (pools : Pools cfg state) (slotted : Slotted cfg state)
    (fresh : Fresh state) (total : Nat) : Warm cfg total total state where
  stocked := by
    refine ⟨fresh.rested, ?_⟩
    exact pools.counted .plain (by simp [freePools, off])
  length_eq := pools.slots .plain
  spare_le := by
    have homes := pools.homes_perm.length_eq
    have free : (freeIndices state).length =
        (state.free .plain).blocks.length := by
      unfold freeIndices FreeList.indices
      rw [slotted.unused .hot (by decide), slotted.unused .cold (by decide)]
      simp
    have room : ∀ blockIndex ∈ state.blocks.keys,
        state.room cfg blockIndex = cfg.pagesInBlock := by
      intro blockIndex member
      obtain ⟨block, found⟩ := State.inUse_iff_mem_keys.mpr member
      have empty := (fresh.empty blockIndex block found).1
      rw [State.room_of_lookup found]
      rcases block.getNextWritePageIndex_eq with zero | ⟨unit, _, same⟩
      · rw [zero, Nat.sub_zero]
      · rw [same, empty.nextWritePage_eq, Nat.sub_zero]
    have used : state.blocks.keys.length * cfg.pagesInBlock ≤
        state.slotRoom cfg .plain := by
      have distinct := List.toFinset_card_of_nodup
        (AList.keys_nodup state.blocks)
      have sum : ∑ blockIndex ∈ state.blocks.keys.toFinset,
          state.room cfg blockIndex =
            state.blocks.keys.length * cfg.pagesInBlock := by
        rw [← distinct]
        exact Finset.sum_const_nat fun blockIndex member =>
          room blockIndex (List.mem_toFinset.mp member)
      rw [← sum]
      refine Finset.sum_le_sum_of_subset ?_
      intro blockIndex member
      obtain ⟨block, found⟩ := State.inUse_iff_mem_keys.mpr
        (List.mem_toFinset.mp member)
      exact List.mem_toFinset.mpr (fresh.empty blockIndex block found).2
    unfold SimpleSSD.FTL.homes at homes
    rw [List.length_append, List.length_append, free, fresh.retired_eq,
      List.length_range] at homes
    unfold State.spare
    change _ ≤ cfg.pagesInBlock * (state.free .plain).blocks.length + _ + _
    rw [← homes, List.length_nil, Nat.add_zero, Nat.mul_add,
      Nat.mul_comm _ (List.length _)]
    omega

theorem Warm.copying (warm : Warm cfg total (pages + 1) state)
    (copying : Copying cfg .plain 1 state updated) :
    Warm cfg total pages updated where
  stocked := copying.stocked
  length_eq := (copying.onward.length_eq .plain).trans warm.length_eq
  spare_le := by
    have before := warm.spare_le
    have used := copying.spare_le
    omega

/-- A whole page is programmed into one page of the active block. -/
theorem placePage_copies (positive : 0 < cfg.pagesInBlock) (lpn : Nat)
    (stocked : Stocked .plain state) :
    Meets (placePage cfg env lpn IOFlag.all) state
      (fun _ final => Copying cfg .plain 1 state final) fun _ _ => True := by
  unfold placePage
  refine ((openMapping_stays lpn IOFlag.all).mono (fun _ _ steady => steady)
    fun _ _ _ => trivial).bind ?_
  intro _ opened steady
  refine ((getLastBlock_draws IOFlag.all (steady.stocked stocked)).mono
    (fun _ _ drawn => drawn) fun _ _ _ => trivial).bind ?_
  intro target drawn draws
  have fills : Fills target ((List.range cfg.bitsetSize).filter
      (touches cfg IOFlag.all)) (do
        let _ ← findBlock target .noSuchBlock
        programUnits cfg env true target lpn IOFlag.all) drawn :=
    (findBlock_stays target (by decide)).bindFills fun _ _ _ =>
      programUnits_fills true lpn IOFlag.all
  refine Meets.mono fills ?_ fun _ _ _ => trivial
  intro _ programmed filling
  refine (steady.drawn draws).fill filling positive ?_ ⟨0, ?_⟩
  · intro unit
    exact List.nodup_iff_count_le_one.mp (List.nodup_range.filter _) unit
  · refine List.mem_filter.mpr ⟨List.mem_range.mpr ?_, rfl⟩
    unfold Config.bitsetSize
    split
    · exact cfg.ioUnitInPage_pos
    · exact Nat.one_pos

theorem placePage_calm (off : cfg.hotColdSeparation = false)
    {mapped : Set (Nat × Nat)}
    (sound : (machine cfg env .none).sound (.rest mapped, state))
    (lpn : Nat) :
    Meets (placePage cfg env lpn IOFlag.all) state
      (fun _ final => ∃ mapped,
        (machine cfg env .none).sound (.rest mapped, final))
      fun raised _ => raised ≠ .gcInInitialization := by
  refine ((placePage_follows lpn IOFlag.all off).meets
    (machine_trivial cfg env .none) sound trivial).mono ?_ ?_
  · intro _ final post
    obtain ⟨last, sound', _, same⟩ := post
    subst same
    exact ⟨_, sound'⟩
  · intro raised _ failed
    obtain ⟨_, _, _, _, cause⟩ := failed
    cases cause with
    | corrupted pool used slot absent => cases pool <;> nofun
    | unscheduled inside failed =>
        rcases RefreshQueue.setRefreshPeriod_error failed with rfl | rfl <;> nofun
    | unmapped mapped inside nowhere settled text =>
        rcases text with rfl | rfl <;> nofun
    | victimMissing member absent text =>
        rcases text with rfl | rfl | rfl | rfl <;> nofun
    | refused allowed member => exact allowed.elim
    | _ => nofun

theorem scheduled_meets (cfg : Config) (off : cfg.hotColdSeparation = false)
    (env : Environment) (total : Nat) :
    Meets (do construct cfg; setupRefresh cfg) (blankState cfg)
      (fun _ final => (machine cfg env .none).sound (.rest ∅, final) ∧
        Warm cfg total total final)
      fun raised _ => raised ≠ .gcInInitialization := by
  have kept : (machine cfg env .none).Invariant fun _ => True :=
    machine_trivial cfg env .none
  refine (((construct_meets cfg env kept trivial).and
    (construct_fresh off)).mono (fun _ _ post => post) ?_).bind ?_
  · intro raised _ failed same
    have listed := failed.1.1
    rw [same] at listed
    exact absurd listed (by decide)
  · intro _ built post
    obtain ⟨⟨constructed, _⟩, slotted, fresh⟩ := post
    have warm := fresh.warm off constructed.pools slotted total
    refine ⟨?_, ⟨warm.stocked.1, warm.stocked.2⟩, warm.length_eq,
      warm.spare_le⟩
    exact (machine cfg env .all).sound_step (.setup trivial)
      ⟨constructed.pools, constructed.maps⟩

end Run

section Warmup

variable {ratios : Ratios} {cfg : Config} {env : Environment}
  {maxPages total : Nat} {state : State}

theorem pages_pos (defined : ratios.maxPagesBeforeGC cfg = some maxPages)
    (positive : 0 < maxPages) : 0 < cfg.pagesInBlock := by
  have bound := maxPages_le defined positive
  rcases Nat.eq_zero_or_pos cfg.pagesInBlock with zero | pages
  · rw [zero, Nat.cast_zero, zero_mul] at bound
    have none : maxPages ≤ 0 := by exact_mod_cast bound
    omega
  · exact pages

theorem Warm.not_below (defined : ratios.maxPagesBeforeGC cfg = some maxPages)
    {left : Nat} (warm : Warm cfg total left state) (begun : left < total)
    (bounded : total ≤ maxPages) :
    ¬ ratios.below cfg (state.free .plain).count := by
  have rooms : state.slotRoom cfg .plain ≤ _ := state.slotRoom_le .plain
  rw [warm.length_eq] at rooms
  have spare := warm.spare_le
  have counted : (state.free .plain).count =
      (state.free .plain).blocks.length := warm.stocked.counted
  have unfolded : state.spare cfg .plain =
      cfg.pagesInBlock * (state.free .plain).blocks.length +
        state.slotRoom cfg .plain := rfl
  have written : 0 < total - left := Nat.sub_pos_of_lt begun
  have most : total - left ≤ maxPages := (Nat.sub_le _ _).trans bounded
  rw [counted]
  exact SimpleSSD.FTL.not_below defined written most rooms (by omega)

/-- The writes of `initialize` never stop for a collection. -/
theorem fills_calm {fillings : List FillWrite} {mapped : Set (Nat × Nat)}
    (off : cfg.hotColdSeparation = false)
    (defined : ratios.maxPagesBeforeGC cfg = some maxPages)
    (plain : ∀ filling ∈ fillings, ∃ lpn, filling = .plain lpn)
    (bounded : fillings.length ≤ maxPages)
    (sound : (machine cfg (ratios.environment cfg env) .none).sound
      (.rest mapped, state))
    (warm : Warm cfg fillings.length fillings.length state) :
    Meets (fillings.forM (fill cfg (ratios.environment cfg env))) state
      (fun _ _ => True) fun raised _ => raised ≠ .gcInInitialization := by
  refine (Meets.forM (fun remaining reached =>
      (∃ mapped, (machine cfg (ratios.environment cfg env) .none).sound
        (.rest mapped, reached)) ∧
      Warm cfg fillings.length remaining.length reached ∧
      remaining.length ≤ fillings.length ∧
      ∀ filling ∈ remaining, ∃ lpn, filling = .plain lpn)
    ⟨⟨mapped, sound⟩, warm, le_rfl, plain⟩ ?_).mono (fun _ _ _ => trivial)
      fun _ _ failed => failed
  intro filling rest reached kept
  obtain ⟨⟨mapped, sound⟩, warm, fewer, plain⟩ := kept
  obtain ⟨lpn, same⟩ := plain filling (.head _)
  subst same
  rw [List.length_cons] at warm fewer
  have pages := pages_pos defined (by omega)
  unfold fill
  dsimp only
  rw [writeInternal_eq]
  refine (((placePage_calm off sound lpn).and
    (placePage_copies pages lpn warm.stocked)).mono (fun _ _ post => post)
      fun _ _ failed => failed.1).bind ?_
  intro _ placed post
  obtain ⟨sound, copying⟩ := post
  have warm := warm.copying copying
  have enough := warm.not_below defined (by omega) bounded
  refine Meets.bindOk rfl ?_
  have idle : (ratios.environment cfg env).belowGCThreshold .plain
      (placed.free .plain).count = false := decide_eq_false enough
  rw [idle]
  exact ⟨sound, warm, by omega, fun other later => plain other (.tail _ later)⟩

theorem fills_length (off : cfg.hotColdSeparation = false) :
    (fills cfg env).length = cfg.nPagesToWarmup + cfg.nPagesToInvalidate := by
  unfold fills fillingWrites invalidatingWrites
  cases cfg.fillingMode <;> simp [off]

theorem fills_plain (off : cfg.hotColdSeparation = false) :
    ∀ filling ∈ fills cfg env, ∃ lpn, filling = .plain lpn := by
  intro filling member
  by_contra pooled
  have on := fills_separated member fun lpn same => pooled ⟨lpn, same⟩
  rw [off] at on
  cases on

theorem NeverCollects.of_le (off : cfg.hotColdSeparation = false)
    (defined : ratios.maxPagesBeforeGC cfg = some maxPages)
    (pages_le : ratios.nPagesToWarmup cfg + ratios.adjusted cfg maxPages ≤
      maxPages) : ratios.NeverCollects cfg env maxPages where
  pages_le := pages_le
  ratio := by
    intro lpns writes bounded final returned
    have length := List.length_pos_of_ne_nil writes
    have pages := pages_pos defined (length.trans_le (bounded.trans pages_le))
    have warms : Meets (Ratios.writePages (ratios.config cfg maxPages)
        (ratios.environment cfg env) lpns) (blankState cfg)
        (fun _ final => Warm (ratios.config cfg maxPages) lpns.length 0 final)
        fun _ _ => True := by
      unfold Ratios.writePages
      rw [← bind_assoc]
      refine ((scheduled_meets (ratios.config cfg maxPages) off
        (ratios.environment cfg env) lpns.length).mono (fun _ _ post => post.2)
          fun _ _ _ => trivial).bind ?_
      intro _ scheduled warm
      exact Meets.forM (fun remaining reached =>
        Warm (ratios.config cfg maxPages) lpns.length remaining.length reached)
        warm fun lpn rest reached warm =>
          (@placePage_copies (ratios.config cfg maxPages)
            (ratios.environment cfg env) reached pages lpn warm.stocked).mono
              (fun _ _ copying => warm.copying copying) fun _ _ _ => trivial
    have defined' : ratios.maxPagesBeforeGC (ratios.config cfg maxPages) =
        some maxPages := defined
    have enough := (warms.of_ok returned).not_below defined' length
      (bounded.trans pages_le)
    exact enough
  unreached := by
    intro stopped failed
    have lives : Meets (life (ratios.config cfg maxPages)
        (ratios.environment cfg env) [.initializeFTL]) (blankState cfg)
        (fun _ _ => True) fun raised _ => raised ≠ .gcInInitialization := by
      have same : life (ratios.config cfg maxPages)
          (ratios.environment cfg env) [.initializeFTL] = (do
            construct (ratios.config cfg maxPages)
            setupRefresh (ratios.config cfg maxPages)
            (fills (ratios.config cfg maxPages)
              (ratios.environment cfg env)).forM
                (fill (ratios.config cfg maxPages)
                  (ratios.environment cfg env))) := by
        simp only [life, List.forM_eq_forM, List.forM_cons, List.forM_nil,
          perform, initializeFTL, fills, bind_pure_unit]
      rw [same, ← bind_assoc]
      refine (scheduled_meets (ratios.config cfg maxPages) off
        (ratios.environment cfg env) (fills (ratios.config cfg maxPages)
          (ratios.environment cfg env)).length).bind ?_
      intro _ scheduled post
      have length := @fills_length (ratios.config cfg maxPages)
        (ratios.environment cfg env) off
      exact fills_calm off defined (fills_plain off) (length.le.trans pages_le)
        post.1 post.2
    exact lives.of_error failed rfl

/-- The warm-up never asks for a collection if and only if the pages to fill are
no more than the maximum. -/
theorem warmup_never_collects (ratios : Ratios) (cfg : Config)
    (env : Environment) (off : cfg.hotColdSeparation = false)
    (accepted : ratios.Accepted cfg) :
    (∃ maxPages, ratios.maxPagesBeforeGC cfg = some maxPages ∧
        ratios.NeverCollects cfg env maxPages) ↔
      ∃ maxPages, ratios.maxPagesBeforeGC cfg = some maxPages ∧
        ratios.nPagesToWarmup cfg ≤ maxPages ∧
        (ratios.nPagesToWarmup cfg + ratios.nPagesToInvalidate cfg < 2 ^ 64 ∨
          maxPages < (ratios.nPagesToWarmup cfg +
            ratios.nPagesToInvalidate cfg) % 2 ^ 64) := by
  refine exists_congr fun maxPages => and_congr_right fun defined => ?_
  rw [← adjusted_le accepted defined]
  constructor
  · exact fun never => never.pages_le
  · exact NeverCollects.of_le off defined

end Warmup

def sampleRatios : Ratios where
  overProvision := 1 / 2
  fill := 1 / 2
  invalidPage := 1 / 2
  gcThreshold := 1 / 4
  overProvision_mem := by norm_num
  fill_mem := by norm_num
  invalidPage_mem := by norm_num
  gcThreshold_mem := by norm_num

def fullRatios : Ratios where
  overProvision := 1 / 2
  fill := 1
  invalidPage := 0
  gcThreshold := 1 / 2
  overProvision_mem := by norm_num
  fill_mem := by norm_num
  invalidPage_mem := by norm_num
  gcThreshold_mem := by norm_num

theorem warmup_never_collects_sample :
    ∃ maxPages, sampleRatios.maxPagesBeforeGC twoPageConfig = some maxPages ∧
      sampleRatios.NeverCollects twoPageConfig sampleEnvironment maxPages := by
  refine (warmup_never_collects sampleRatios twoPageConfig sampleEnvironment rfl
    ⟨by decide, by decide, ?_⟩).mpr ⟨4, ?_, ?_, ?_⟩
  · decide +kernel
  · decide +kernel
  · decide +kernel
  · exact .inl (by decide +kernel)

/-- Four pages are to be filled where two are the maximum. -/
theorem warmup_collects :
    fullRatios.Accepted twoPageConfig ∧
      fullRatios.maxPagesBeforeGC twoPageConfig = some 2 ∧
      fullRatios.nPagesToWarmup twoPageConfig = 4 ∧
      ∀ maxPages, fullRatios.maxPagesBeforeGC twoPageConfig = some maxPages →
        ¬ fullRatios.NeverCollects twoPageConfig sampleEnvironment maxPages := by
  have most : fullRatios.maxPagesBeforeGC twoPageConfig = some 2 := by
    decide +kernel
  have fills : fullRatios.nPagesToWarmup twoPageConfig = 4 := by
    decide +kernel
  refine ⟨⟨by decide, by decide, by decide +kernel⟩, most, fills, ?_⟩
  intro maxPages defined never
  rw [most] at defined
  cases defined
  have within := never.pages_le
  rw [fills] at within
  omega

end SimpleSSD.FTL
