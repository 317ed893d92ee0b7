import SimpleSSD.PAL.Translation
import Mathlib.Algebra.Order.BigOperators.Group.List
import Mathlib.Algebra.Order.Ring.Nat
import Mathlib.Data.List.Perm.Subperm

namespace SimpleSSD.PAL

open Data (capacity split odometer)

def fullRequest (conf : Config) (blockIndex pageIndex : UInt32) : Request where
  blockIndex := blockIndex
  pageIndex := pageIndex
  ioFlag :=
    List.replicate (Parameter.make conf).pageInSuperPage.toNat true

/-- The address of one unit of a block, if the translation gives it one. -/
def unitAddress (conf : Config) (blockIndex pageIndex : UInt32) (unit : Nat) :
    Option CPDPBP := do
  let list ← (convertCPDPBP conf true
    (fullRequest conf blockIndex pageIndex)).toOption
  list[unit]?

structure Translates (conf : Config) : Prop where
  defined : ∀ randomTweak req,
    req.blockIndex < (Parameter.make conf).superBlock →
    req.ioFlag.length = (Parameter.make conf).pageInSuperPage.toNat →
    ∃ list, convertCPDPBP conf randomTweak req = .ok list
  inRange : ∀ blockIndex pageIndex unit,
    blockIndex < (Parameter.make conf).superBlock →
    unit < (Parameter.make conf).pageInSuperPage.toNat →
    ∃ addr, unitAddress conf blockIndex pageIndex unit = some addr ∧
      InRange conf addr ∧ addr.page = pageIndex.toNat
  injective : ∀ pageIndex firstBlock secondBlock first second addr,
    unitAddress conf firstBlock pageIndex first = some addr →
    unitAddress conf secondBlock pageIndex second = some addr →
    firstBlock = secondBlock ∧ first = second
  onto : ∀ (pageIndex : UInt32) addr, InRange conf addr →
    addr.page = pageIndex.toNat →
    ∃ blockIndex unit, blockIndex < (Parameter.make conf).superBlock ∧
      unit < (Parameter.make conf).pageInSuperPage.toNat ∧
      unitAddress conf blockIndex pageIndex unit = some addr
  flags : ∀ randomTweak req full,
    req.blockIndex < (Parameter.make conf).superBlock →
    req.ioFlag.length = (Parameter.make conf).pageInSuperPage.toNat →
    convertCPDPBP conf true
      (fullRequest conf req.blockIndex req.pageIndex) = .ok full →
    convertCPDPBP conf randomTweak req = .ok (flagged req.ioFlag full)

section

variable {conf : Config} (horder : conf.pageAllocation.Perm Index.all)
  (hpositive : conf.Positive)

include horder hpositive

theorem convert_eq (hfits : conf.superPageBytes < 2 ^ 32) (randomTweak : Bool)
    (req : Request)
    (hflag : req.ioFlag.length =
      (Parameter.make conf).pageInSuperPage.toNat) :
    convertCPDPBP conf randomTweak req =
      .ok (flagged req.ioFlag
        (addresses conf req.blockIndex.toNat req.pageIndex.toNat)) := by
  have hunits : (Parameter.make conf).pageInSuperPage.toNat = conf.units :=
    (Parameter.pageInSuperPage_le hpositive).2.mpr hfits
  have hlength : (addresses conf req.blockIndex.toNat
      req.pageIndex.toNat).length = conf.units := length_addresses horder _ _
  have hstart : (Decoding.start req).addr.get = fun _ => 0 := by
    funext index
    cases index <;> rfl
  have hsmall : req.ioFlag.length < 2 ^ 32 := by
    rw [hflag]
    exact UInt32.toNat_lt _
  have hloops := foldlM_unit hsmall
    (addresses conf req.blockIndex.toNat req.pageIndex.toNat) 0 []
    (by rw [hlength, hflag, hunits]; omega)
  have haddr : ∀ block page quotient (digits : Index → Nat) pageIndex,
      { CPDPBP.of block page digits with
        block := quotient
        page := pageIndex } = CPDPBP.of quotient pageIndex digits :=
    fun _ _ _ _ _ => rfl
  have htmp : ¬0 + conf.units ≠ (Parameter.make conf).pageInSuperPage.toNat := by
    omega
  unfold convertCPDPBP
  dsimp only
  rw [Config.indices_eq horder, Decoding.foldl_visit]
  simp only [checkedFlag, hflag, ne_eq, not_true_eq_false, if_false, haddr,
    loops_eq, CPDPBP.get_of, hstart, pure_bind]
  refine Eq.trans (congrArg (· >>= _) hloops) ?_
  rw [hlength]
  exact if_neg htmp

theorem full_eq (hfits : conf.superPageBytes < 2 ^ 32)
    (blockIndex pageIndex : UInt32) :
    convertCPDPBP conf true (fullRequest conf blockIndex pageIndex) =
      .ok (addresses conf blockIndex.toNat pageIndex.toNat) := by
  rw [convert_eq horder hpositive hfits _ _ List.length_replicate]
  have hunits : (Parameter.make conf).pageInSuperPage.toNat =
      (addresses conf blockIndex.toNat pageIndex.toNat).length := by
    rw [length_addresses horder]
    exact (Parameter.pageInSuperPage_le hpositive).2.mpr hfits
  simp only [fullRequest, hunits]
  rw [flagged_full]

theorem unitAddress_eq (hfits : conf.superPageBytes < 2 ^ 32)
    (blockIndex pageIndex : UInt32) (unit : Nat) :
    unitAddress conf blockIndex pageIndex unit =
      (addresses conf blockIndex.toNat pageIndex.toNat)[unit]? := by
  unfold unitAddress
  rw [full_eq horder hpositive hfits]
  rfl

theorem translates_of_fits (hpages : conf.superPageBytes < 2 ^ 32)
    (hblocks : conf.superBlocks < 2 ^ 32) : Translates conf := by
  have hsuper : (Parameter.make conf).superBlock.toNat = conf.superBlocks :=
    (Parameter.superBlock_le conf).2.mpr hblocks
  have hunits : (Parameter.make conf).pageInSuperPage.toNat = conf.units :=
    (Parameter.pageInSuperPage_le hpositive).2.mpr hpages
  refine ⟨?_, ?_, ?_, ?_, ?_⟩
  · intro randomTweak req _ hflag
    exact ⟨_, convert_eq horder hpositive hpages randomTweak req hflag⟩
  · intro blockIndex pageIndex unit hblock hunit
    rw [UInt32.lt_iff_toNat_lt, hsuper] at hblock
    have hlt : unit <
        (addresses conf blockIndex.toNat pageIndex.toNat).length := by
      rw [length_addresses horder, ← hunits]
      exact hunit
    refine ⟨(addresses conf blockIndex.toNat pageIndex.toNat)[unit], ?_, ?_⟩
    · rw [unitAddress_eq horder hpositive hpages]
      exact List.getElem?_eq_getElem hlt
    · exact addresses_inRange horder hpositive hblock (List.getElem_mem hlt)
  · intro pageIndex firstBlock secondBlock first second addr hfirst hsecond
    rw [unitAddress_eq horder hpositive hpages] at hfirst hsecond
    have hblock := addresses_injective horder
      (List.mem_of_getElem? hfirst) (List.mem_of_getElem? hsecond)
    have hsame : firstBlock = secondBlock := UInt32.toNat_inj.mp hblock
    subst hsame
    refine ⟨rfl, ?_⟩
    obtain ⟨hlt, hat⟩ := List.getElem?_eq_some_iff.mp hfirst
    obtain ⟨hlt', hat'⟩ := List.getElem?_eq_some_iff.mp hsecond
    exact (addresses_nodup horder _ _).getElem_inj_iff.mp (hat.trans hat'.symm)
  · intro pageIndex addr hrange hpage
    obtain ⟨blockIndex, hblock, hmem⟩ := addresses_onto horder hrange
    obtain ⟨unit, hlt, hat⟩ := List.getElem_of_mem hmem
    have hword : (UInt32.ofNat blockIndex).toNat = blockIndex :=
      UInt32.toNat_ofNat_of_lt' (Nat.lt_trans hblock hblocks)
    refine ⟨UInt32.ofNat blockIndex, unit, ?_, ?_, ?_⟩
    · rw [UInt32.lt_iff_toNat_lt, hword, hsuper]
      exact hblock
    · rw [hunits, ← length_addresses horder blockIndex addr.page]
      exact hlt
    · rw [unitAddress_eq horder hpositive hpages, hword, ← hpage]
      exact List.getElem?_eq_some_iff.mpr ⟨hlt, hat⟩
  · intro randomTweak req full _ hflag hfull
    rw [full_eq horder hpositive hpages] at hfull
    rw [convert_eq horder hpositive hpages randomTweak req hflag,
      Except.ok.inj hfull]

/-- Counting: the super blocks times the units are all addresses, so that
both counts have to be right. -/
theorem fits_of_translates (htranslates : Translates conf) :
    conf.superPageBytes < 2 ^ 32 ∧ conf.superBlocks < 2 ^ 32 := by
  have hsuper := Parameter.superBlock_le conf
  have hunits := Parameter.pageInSuperPage_le hpositive
  rw [← hsuper.2, ← hunits.2]
  -- all addresses of page 0
  let every := (List.range conf.superBlocks).flatMap
    fun blockIndex => addresses conf blockIndex 0
  have hevery : every.length = conf.superBlocks * conf.units := by
    simp [every, List.length_flatMap, length_addresses horder]
  have hnodup : every.Nodup := by
    refine List.nodup_flatMap.mpr
      ⟨fun blockIndex _ => addresses_nodup horder _ _, ?_⟩
    refine List.nodup_range.imp ?_
    intro first second hne addr hfirst hsecond
    exact hne (addresses_injective horder hfirst hsecond)
  -- the addresses the translation gives
  let given := (List.range (Parameter.make conf).superBlock.toNat).flatMap
    fun blockIndex =>
      (List.range (Parameter.make conf).pageInSuperPage.toNat).filterMap
        fun unit => unitAddress conf (UInt32.ofNat blockIndex) 0 unit
  have hgiven : given.length ≤ (Parameter.make conf).superBlock.toNat *
      (Parameter.make conf).pageInSuperPage.toNat := by
    simp only [given, List.length_flatMap]
    refine Nat.le_trans (List.sum_le_card_nsmul _
      (Parameter.make conf).pageInSuperPage.toNat ?_) ?_
    · intro count hcount
      obtain ⟨blockIndex, -, rfl⟩ := List.mem_map.mp hcount
      refine Nat.le_trans (List.length_filterMap_le _ _) ?_
      rw [List.length_range]
    · simp
  have hsubset : every ⊆ given := by
    intro addr haddr
    obtain ⟨blockIndex, hblock, hmem⟩ := List.mem_flatMap.mp haddr
    obtain ⟨hrange, hpage⟩ := addresses_inRange horder hpositive
      (List.mem_range.mp hblock) hmem
    obtain ⟨word, unit, hword, hunit, hat⟩ :=
      htranslates.onto 0 addr hrange hpage
    refine List.mem_flatMap.mpr ⟨word.toNat, ?_, ?_⟩
    · exact List.mem_range.mpr (UInt32.lt_iff_toNat_lt.mp hword)
    · refine List.mem_filterMap.mpr ⟨unit, List.mem_range.mpr hunit, ?_⟩
      rw [UInt32.ofNat_toNat]
      exact hat
  have hcount : conf.superBlocks * conf.units ≤
      (Parameter.make conf).superBlock.toNat *
        (Parameter.make conf).pageInSuperPage.toNat := by
    rw [← hevery]
    exact Nat.le_trans (List.subperm_of_subset hnodup hsubset).length_le hgiven
  have hpos : 0 < conf.superBlocks ∧ 0 < conf.units := by
    have hsize : ∀ places : List Index, 0 < capacity conf.sizes places :=
      fun places => Data.capacity_pos fun index _ =>
        UInt32.lt_iff_toNat_lt.mp (hpositive.dimension index)
    rw [superBlocks_eq horder, units_eq horder]
    exact ⟨Nat.mul_pos (hsize _) (UInt32.lt_iff_toNat_lt.mp hpositive.block),
      hsize _⟩
  constructor
  · refine Nat.le_antisymm hunits.1 ?_
    exact Nat.le_of_mul_le_mul_left (Nat.le_trans hcount
      (Nat.mul_le_mul_right _ hsuper.1)) hpos.1
  · refine Nat.le_antisymm hsuper.1 ?_
    exact Nat.le_of_mul_le_mul_right (Nat.le_trans hcount
      (Nat.mul_le_mul_left _ hunits.1)) hpos.2

end

/-- For every geometry, super block and order of the dimensions, the pairs of a
block index and a unit are numbers for all addresses exactly when the counts
that `PAL` computes fit their 32 bits. -/
theorem translation_bijective_iff (conf : Config)
    (horder : conf.pageAllocation.Perm Index.all)
    (hpositive : conf.Positive) :
    Translates conf ↔
      conf.superPageBytes < 2 ^ 32 ∧ conf.superBlocks < 2 ^ 32 := by
  constructor
  · exact fits_of_translates horder hpositive
  · intro hfits
    exact translates_of_fits horder hpositive hfits.1 hfits.2

def smallConfig : Config where
  channel := 2
  package := 3
  die := 1
  plane := 2
  block := 4
  page := 8
  pageSize := 4096
  useMultiPlaneOperation := false
  dmaWidth := 8
  superblock := 0x09
  pageAllocation := [.channel, .package, .die, .plane]
  superblockText := []
  pageAllocationText := []

theorem translation_bijective_small : Translates smallConfig :=
  (translation_bijective_iff smallConfig (List.Perm.refl _)
    ⟨fun index => by cases index <;> decide, by decide, by decide⟩).mpr
    ⟨by decide, by decide⟩

def wideConfig : Config :=
  { smallConfig with channel := 262144, pageSize := 16384, superblock := 0x01 }

theorem wide_super_page_fails :
    wideConfig.pageAllocation.Perm Index.all ∧ wideConfig.Positive ∧
      ¬Translates wideConfig := by
  have hpositive : wideConfig.Positive :=
    ⟨fun index => by cases index <;> decide, by decide, by decide⟩
  refine ⟨List.Perm.refl _, hpositive, fun htranslates => ?_⟩
  have hbytes := (fits_of_translates (List.Perm.refl _) hpositive
    htranslates).1
  exact absurd hbytes (by decide)

end SimpleSSD.PAL
