import SimpleSSD.FTL.Consistency
import SimpleSSD.ICL.Construction

namespace SimpleSSD.FTL

/-! How many logical pages are in use. -/

structure Status where
  totalLogicalPages : Nat
  mappedLogicalPages : Nat
  freePhysicalBlocks : Nat
  deriving DecidableEq, Repr

/-- The positions from `first` on whose logical page is in the table, when a
page has `unit` positions. -/
def State.mapped (state : State) (unit first amount : Nat) : Nat :=
  (List.range' first amount).countP fun position =>
    decide (position / unit ∈ state.table)

def getStatus (totalLogicalPages : Nat) (lpnBegin lpnEnd : Nat)
    (state : State) : Status where
  totalLogicalPages := totalLogicalPages
  mappedLogicalPages :=
    if lpnBegin = 0 ∧ totalLogicalPages ≤ lpnEnd then state.table.entries.length
    else state.mapped 1 lpnBegin (lpnEnd - lpnBegin)
  freePhysicalBlocks := (state.free .plain).count

def getUsedPageCount (totalLogicalPages : Nat) (lpnBegin lpnEnd : Nat)
    (state : State) : Nat :=
  (getStatus totalLogicalPages lpnBegin lpnEnd state).mappedLogicalPages

namespace State

variable {state : State}

theorem mapped_zero {unit first amount : Nat}
    (none : ∀ position, first ≤ position → position < first + amount →
      position / unit ∉ state.table) : state.mapped unit first amount = 0 := by
  refine List.countP_eq_zero.mpr ?_
  intro position member
  obtain ⟨low, high⟩ := List.mem_range'_1.mp member
  simpa using none position low high

/-- A page has all its positions or none. -/
theorem mapped_page (unit lpn : Nat) :
    state.mapped unit (unit * lpn) unit =
      if lpn ∈ state.table then unit else 0 := by
  have page : ∀ position ∈ List.range' (unit * lpn) unit,
      position / unit = lpn := by
    intro position member
    obtain ⟨low, high⟩ := List.mem_range'_1.mp member
    exact Nat.div_eq_of_lt_le (by rw [Nat.mul_comm]; exact low)
      (by rw [Nat.mul_comm, Nat.mul_succ]; exact high)
  split
  · next present =>
      have all := List.countP_eq_length (p := fun position =>
        decide (position / unit ∈ state.table)) (l := List.range' (unit * lpn) unit)
      rw [List.length_range'] at all
      refine all.mpr ?_
      intro position member
      rw [page position member]
      exact decide_eq_true present
  · next absent =>
      refine List.countP_eq_zero.mpr ?_
      intro position member
      rw [page position member]
      simpa using absent

theorem mapped_pages (unit lpn amount : Nat) :
    state.mapped unit (unit * lpn) (unit * amount) =
      unit * state.mapped 1 lpn amount := by
  induction amount with
  | zero => rfl
  | succ amount induction =>
      have lines : state.mapped unit (unit * lpn) (unit * (amount + 1)) =
          state.mapped unit (unit * lpn) (unit * amount) +
            state.mapped unit (unit * (lpn + amount)) unit := by
        unfold mapped
        rw [← List.countP_append, Nat.mul_add unit lpn, Nat.mul_succ]
        rw [← List.range'_append_1]
      have pages : state.mapped 1 lpn (amount + 1) =
          state.mapped 1 lpn amount + state.mapped 1 (1 * (lpn + amount)) 1 := by
        unfold mapped
        rw [← List.countP_append, Nat.one_mul, ← List.range'_append_1]
      rw [lines, pages, induction, mapped_page, mapped_page, Nat.mul_add]
      split <;> simp

theorem mapped_below (total : Nat) :
    state.mapped 1 0 total =
      (state.table.keys.filter fun lpn => decide (lpn < total)).length := by
  unfold mapped
  rw [List.countP_eq_length_filter]
  apply List.Perm.length_eq
  refine (List.perm_ext_iff_of_nodup (.filter _ List.nodup_range')
    (.filter _ state.table.keys_nodup)).mpr ?_
  intro lpn
  rw [List.mem_filter, List.mem_filter, List.mem_range'_1, decide_eq_true_eq,
    decide_eq_true_eq, Nat.div_one, AList.mem_keys, Nat.zero_add]
  constructor
  · intro ⟨⟨_, below⟩, present⟩
    exact ⟨present, below⟩
  · intro ⟨present, below⟩
    exact ⟨⟨Nat.zero_le lpn, below⟩, present⟩

/-- The whole table is below a bound exactly if no entry is above. -/
theorem mapped_all (total : Nat) :
    state.table.entries.length = state.mapped 1 0 total ↔
      ∀ lpn ∈ state.table, lpn < total := by
  have keys : state.table.entries.length = state.table.keys.length :=
    (List.length_map _).symm
  rw [mapped_below, keys, eq_comm, List.length_filter_eq_length_iff]
  constructor
  · intro below lpn member
    exact of_decide_eq_true (below lpn (AList.mem_keys.mp member))
  · intro below lpn member
    exact decide_eq_true (below lpn (AList.mem_keys.mpr member))

end State

end SimpleSSD.FTL

namespace SimpleSSD.ICL.Interface

variable {cfg : FTL.Config} {totalLogicalPages : Nat} {state : FTL.State}

def lineCount (cfg : FTL.Config) : Nat :=
  if cfg.bRandomTweak then cfg.ioUnitInPage else 1

/-- The constructor of the cache counts the same. -/
theorem construct_lineCount {geometry : Geometry} {settings : Settings}
    {residue : Bool} {built : Built}
    (accepted : Construction.construct geometry settings residue = .ok built)
    (units : geometry.ioUnitInPage.toNat = cfg.ioUnitInPage)
    (tweak : settings.useRandomIOTweak = cfg.bRandomTweak) :
    built.lineCountInSuperPage.toNat = lineCount cfg := by
  rw [Construction.construct_lineCountInSuperPage accepted, tweak]
  unfold lineCount
  split
  · exact units
  · rfl

/-- `totalLogicalPages` of the ICL. -/
def totalLines (cfg : FTL.Config) (totalLogicalPages : Nat) : Nat :=
  if cfg.bRandomTweak then totalLogicalPages * cfg.ioUnitInPage
  else totalLogicalPages

def getUsedPageCount (cfg : FTL.Config) (totalLogicalPages : Nat)
    (lcaBegin lcaEnd : Nat) (state : FTL.State) : Nat :=
  let ratio := cfg.ioUnitInPage
  FTL.getUsedPageCount totalLogicalPages (lcaBegin / ratio) (lcaEnd / ratio)
    state * ratio

structure Askable (cfg : FTL.Config) (totalLogicalPages : Nat)
    (lcaBegin lcaEnd : Nat) : Prop where
  ordered : lcaBegin ≤ lcaEnd
  inside : lcaEnd ≤ totalLines cfg totalLogicalPages
  aligned : cfg.bRandomTweak = true →
    cfg.ioUnitInPage ∣ lcaBegin ∧ cfg.ioUnitInPage ∣ lcaEnd

/-- The count is that of the lines whose page is in the table. -/
def UsageAgrees (cfg : FTL.Config) (totalLogicalPages : Nat)
    (state : FTL.State) : Prop :=
  ∀ lcaBegin lcaEnd, Askable cfg totalLogicalPages lcaBegin lcaEnd →
    getUsedPageCount cfg totalLogicalPages lcaBegin lcaEnd state =
      state.mapped (lineCount cfg) lcaBegin (lcaEnd - lcaBegin)

/-- Pages of one line, or of lines that reads and writes tell apart, and nothing
behind the device; else nothing in the device. -/
def UsageKnown (cfg : FTL.Config) (totalLogicalPages : Nat)
    (state : FTL.State) : Prop :=
  if cfg.bRandomTweak = true ∨ cfg.ioUnitInPage = 1 ∨ totalLogicalPages = 0 then
    ∀ lpn ∈ state.table, lpn < totalLogicalPages
  else ∀ lpn ∈ state.table, totalLogicalPages ≤ lpn

section Counts

variable {lpnBegin lpnEnd lcaBegin lcaEnd : Nat}

/-- Both ways of counting agree where nothing is mapped behind the device. -/
theorem getUsedPageCount_inside
    (below : ∀ lpn ∈ state.table, lpn < totalLogicalPages)
    (inside : lpnEnd ≤ totalLogicalPages) :
    FTL.getUsedPageCount totalLogicalPages lpnBegin lpnEnd state =
      state.mapped 1 lpnBegin (lpnEnd - lpnBegin) := by
  unfold FTL.getUsedPageCount FTL.getStatus
  dsimp only
  split
  · next whole =>
      have all : lpnEnd = totalLogicalPages :=
        Nat.le_antisymm inside whole.2
      rw [whole.1, all, Nat.sub_zero]
      exact (FTL.State.mapped_all totalLogicalPages).mpr below
  · rfl

theorem getUsedPageCount_whole
    (whole : totalLogicalPages ≤ lcaEnd / cfg.ioUnitInPage) :
    getUsedPageCount cfg totalLogicalPages 0 lcaEnd state =
      state.table.entries.length * cfg.ioUnitInPage := by
  unfold getUsedPageCount FTL.getUsedPageCount FTL.getStatus
  dsimp only
  rw [Nat.zero_div, if_pos ⟨rfl, whole⟩]

theorem Askable.zero (cfg : FTL.Config) (totalLogicalPages : Nat) :
    Askable cfg totalLogicalPages 0 (totalLines cfg totalLogicalPages) where
  ordered := Nat.zero_le _
  inside := Nat.le_refl _
  aligned tweak := by
    unfold totalLines
    rw [if_pos tweak]
    exact ⟨Nat.dvd_zero _, Nat.dvd_mul_left _ _⟩

theorem agrees_tweaked (tweak : cfg.bRandomTweak = true)
    (below : ∀ lpn ∈ state.table, lpn < totalLogicalPages) :
    UsageAgrees cfg totalLogicalPages state := by
  intro lcaBegin lcaEnd askable
  have positive := cfg.ioUnitInPage_pos
  obtain ⟨⟨lpnBegin, first⟩, ⟨lpnEnd, last⟩⟩ := askable.aligned tweak
  have inside := askable.inside
  unfold totalLines at inside
  rw [if_pos tweak, last, Nat.mul_comm] at inside
  have within := Nat.le_of_mul_le_mul_right inside positive
  unfold getUsedPageCount lineCount
  dsimp only
  rw [if_pos tweak, first, last, Nat.mul_div_cancel_left _ positive,
    Nat.mul_div_cancel_left _ positive, getUsedPageCount_inside below within,
    ← Nat.mul_sub, FTL.State.mapped_pages, Nat.mul_comm]

theorem agrees_untweaked (tweak : ¬ cfg.bRandomTweak = true)
    (single : cfg.ioUnitInPage = 1)
    (below : ∀ lpn ∈ state.table, lpn < totalLogicalPages) :
    UsageAgrees cfg totalLogicalPages state := by
  intro lcaBegin lcaEnd askable
  have inside := askable.inside
  unfold totalLines at inside
  rw [if_neg tweak] at inside
  unfold getUsedPageCount lineCount
  dsimp only
  rw [if_neg tweak, single, Nat.div_one, Nat.div_one, Nat.mul_one]
  exact getUsedPageCount_inside below inside

theorem agrees_unmapped (tweak : ¬ cfg.bRandomTweak = true)
    (several : cfg.ioUnitInPage ≠ 1)
    (known : UsageKnown cfg totalLogicalPages state) :
    UsageAgrees cfg totalLogicalPages state := by
  intro lcaBegin lcaEnd askable
  have positive := cfg.ioUnitInPage_pos
  have inside := askable.inside
  unfold totalLines at inside
  rw [if_neg tweak] at inside
  have smaller := Nat.div_le_self lcaEnd cfg.ioUnitInPage
  unfold UsageKnown at known
  unfold getUsedPageCount lineCount
  dsimp only
  rw [if_neg tweak]
  by_cases empty : totalLogicalPages = 0
  · rw [if_pos (.inr (.inr empty))] at known
    have none : lcaEnd = 0 := by omega
    rw [getUsedPageCount_inside known (by omega), none, Nat.zero_div,
      Nat.zero_sub, Nat.zero_sub]
    exact Nat.zero_mul _
  · have mixed : ¬ (cfg.bRandomTweak = true ∨ cfg.ioUnitInPage = 1 ∨
        totalLogicalPages = 0) := by
      rw [not_or, not_or]
      exact ⟨tweak, several, empty⟩
    rw [if_neg mixed] at known
    have partly : ¬ (lcaBegin / cfg.ioUnitInPage = 0 ∧
        totalLogicalPages ≤ lcaEnd / cfg.ioUnitInPage) := by
      intro whole
      have less : lcaEnd / cfg.ioUnitInPage < lcaEnd :=
        Nat.div_lt_self (by omega) (by omega)
      omega
    have nothing : ∀ first amount, first + amount ≤ totalLogicalPages →
        state.mapped 1 first amount = 0 := by
      intro first amount bound
      refine FTL.State.mapped_zero ?_
      intro position _ high present
      rw [Nat.div_one] at present
      have behind := known position present
      omega
    have ordered := askable.ordered
    have quotients : lcaBegin / cfg.ioUnitInPage ≤
        lcaEnd / cfg.ioUnitInPage := Nat.div_le_div_right ordered
    unfold FTL.getUsedPageCount FTL.getStatus
    dsimp only
    rw [if_neg partly, nothing _ _ (by omega), nothing _ _ (by omega)]
    exact Nat.zero_mul _

theorem UsageAgrees.whole (agrees : UsageAgrees cfg totalLogicalPages state)
    (regular : cfg.bRandomTweak = true ∨ cfg.ioUnitInPage = 1 ∨
      totalLogicalPages = 0) :
    state.table.entries.length = state.mapped 1 0 totalLogicalPages := by
  have positive := cfg.ioUnitInPage_pos
  have all := agrees 0 _ (.zero cfg totalLogicalPages)
  rw [Nat.sub_zero] at all
  by_cases tweak : cfg.bRandomTweak = true
  · have lines : totalLines cfg totalLogicalPages =
        cfg.ioUnitInPage * totalLogicalPages := by
      unfold totalLines
      rw [if_pos tweak, Nat.mul_comm]
    have pages := @FTL.State.mapped_pages state cfg.ioUnitInPage 0
      totalLogicalPages
    rw [Nat.mul_zero] at pages
    rw [lines, getUsedPageCount_whole
      (Nat.le_of_eq (Nat.mul_div_cancel_left _ positive).symm)] at all
    unfold lineCount at all
    rw [if_pos tweak, pages, Nat.mul_comm] at all
    exact Nat.eq_of_mul_eq_mul_left positive all
  · have lines : totalLines cfg totalLogicalPages = totalLogicalPages :=
      if_neg tweak
    have reaches : totalLogicalPages ≤
        totalLogicalPages / cfg.ioUnitInPage := by
      rcases regular.resolve_left tweak with single | empty
      · rw [single, Nat.div_one]
      · rw [empty]
        exact Nat.zero_le _
    rw [lines, getUsedPageCount_whole reaches] at all
    unfold lineCount at all
    rw [if_neg tweak] at all
    rcases regular.resolve_left tweak with single | empty
    · rw [single, Nat.mul_one] at all
      exact all
    · have none : state.mapped 1 0 totalLogicalPages = 0 := by
        rw [empty]
        rfl
      rw [none] at all ⊢
      exact (Nat.mul_eq_zero.mp all).resolve_right (Nat.ne_of_gt positive)

theorem UsageAgrees.known (agrees : UsageAgrees cfg totalLogicalPages state) :
    UsageKnown cfg totalLogicalPages state := by
  unfold UsageKnown
  split
  · next regular => exact FTL.State.mapped_all _ |>.mp (agrees.whole regular)
  · next mixed =>
      rw [not_or, not_or] at mixed
      obtain ⟨tweak, several, some⟩ := mixed
      intro lpn present
      by_contra inside
      have one := agrees lpn (lpn + 1) ⟨Nat.le_succ lpn, by
        unfold totalLines
        rw [if_neg tweak]
        omega, fun tweaked => absurd tweaked tweak⟩
      unfold getUsedPageCount lineCount at one
      dsimp only at one
      rw [if_neg tweak, Nat.add_sub_cancel_left] at one
      have page := @FTL.State.mapped_page state 1 lpn
      rw [Nat.one_mul, if_pos present] at page
      rw [page] at one
      exact several (Nat.eq_one_of_mul_eq_one_left one)

end Counts

/-- Exactly when the count of used pages is that of the lines that reads and
writes would find in the table, for all ranges of the device. -/
theorem usage_agrees (cfg : FTL.Config) (totalLogicalPages : Nat)
    (state : FTL.State) :
    UsageAgrees cfg totalLogicalPages state ↔
      UsageKnown cfg totalLogicalPages state := by
  constructor
  · exact UsageAgrees.known
  · intro known
    by_cases tweak : cfg.bRandomTweak = true
    · unfold UsageKnown at known
      rw [if_pos (.inl tweak)] at known
      exact agrees_tweaked tweak known
    · by_cases single : cfg.ioUnitInPage = 1
      · unfold UsageKnown at known
        rw [if_pos (.inr (.inl single))] at known
        exact agrees_untweaked tweak single known
      · exact agrees_unmapped tweak single known

/-- Two I/O units in a page, which reads and writes take together. -/
def pairedConfig : FTL.Config :=
  { FTL.sampleConfig with
    ioUnitInPage := 2
    ioUnitInPage_pos := Nat.two_pos
    pageCountToMaxPerf_pos := Nat.one_pos }

/-- One page is mapped, and the range that has it counts none. -/
theorem usage_disagrees :
    ∃ state, FTL.outcome pairedConfig FTL.sampleEnvironment
        [.initializeFTL, .write 1 FTL.IOFlag.all] = .ok () state ∧
      Askable pairedConfig 1024 1 2 ∧
      getUsedPageCount pairedConfig 1024 1 2 state = 0 ∧
      state.mapped (lineCount pairedConfig) 1 (2 - 1) = 1 := by
  have evaluated : FTL.returns (FTL.outcome pairedConfig
      FTL.sampleEnvironment [.initializeFTL, .write 1 FTL.IOFlag.all])
      (fun state => getUsedPageCount pairedConfig 1024 1 2 state == 0 &&
        state.mapped (lineCount pairedConfig) 1 1 == 1) = true := by
    decide +kernel
  obtain ⟨state, result, tests⟩ := FTL.returns_iff.mp evaluated
  obtain ⟨counted, meant⟩ := (Bool.and_eq_true _ _).mp tests
  have askable : Askable pairedConfig 1024 1 2 :=
    ⟨Nat.le_succ 1, Nat.le_of_ble_eq_true rfl, nofun⟩
  exact ⟨state, result, askable, beq_iff_eq.mp counted, beq_iff_eq.mp meant⟩

end SimpleSSD.ICL.Interface
