import SimpleSSD.HIL.NVMe.Namespace
import SimpleSSD.ICL.Interface

namespace SimpleSSD.HIL.NVMe

/-! From logical blocks to the lines of the cache. -/

/-- `ICL::Request(HIL::Request &)`, after the HIL has numbered the request. -/
def Request.internal (request : Request) (reqCount : UInt64) :
    ICL.Interface.Request where
  reqID := reqCount + 1
  reqSubID := 0
  offset := request.offset
  length := request.length
  slpn := request.slpn
  nlp := request.nlp

namespace Subsystem

/-- No sum or product of `convertUnit` and of the loops behind it wraps. -/
structure NoOverflow (cfg : ConfigData) (ns : Namespace)
    (slba nlblk : UInt64) : Prop where
  bytes : nlblk.toNat * ns.info.lbaSize.toNat < 2 ^ 64
  rounding : slba.toNat % (cfg.logicalPageSize.toNat /
      ns.info.lbaSize.toNat) + nlblk.toNat +
    cfg.logicalPageSize.toNat / ns.info.lbaSize.toNat ≤ 2 ^ 64
  pages : ns.info.range.slpn * cfg.logicalPageSize.toNat +
    (slba.toNat + nlblk.toNat) * ns.info.lbaSize.toNat ≤
      2 ^ 64 * cfg.logicalPageSize.toNat

instance (cfg : ConfigData) (ns : Namespace) (slba nlblk : UInt64) :
    Decidable (NoOverflow cfg ns slba nlblk) :=
  decidable_of_iff (_ ∧ _ ∧ _)
    ⟨fun h => ⟨h.1, h.2.1, h.2.2⟩, fun h => ⟨h.bytes, h.rounding, h.pages⟩⟩

/-- What the request of `convertUnit` means: its bytes begin in its first page
and need all its pages. -/
structure Converted (cfg : ConfigData) (ns : Namespace)
    (slba nlblk : UInt64) (request : Request) : Prop where
  start : request.slpn.toNat * cfg.logicalPageSize.toNat +
      request.offset.toNat =
    ns.info.range.slpn * cfg.logicalPageSize.toNat +
      slba.toNat * ns.info.lbaSize.toNat
  inPage : request.offset.toNat < cfg.logicalPageSize.toNat
  length : request.length.toNat = nlblk.toNat * ns.info.lbaSize.toNat
  enough : request.offset.toNat + request.length.toNat ≤
    request.nlp.toNat * cfg.logicalPageSize.toNat
  needed : request.nlp.toNat * cfg.logicalPageSize.toNat <
    request.offset.toNat + request.length.toNat + cfg.logicalPageSize.toNat
  pages : request.slpn.toNat + request.nlp.toNat ≤ 2 ^ 64

variable {cfg : ConfigData} {ns : Namespace} {slba nlblk : UInt64}

theorem convertUnit_large {ratio : Nat}
    (page : 0 < cfg.logicalPageSize.toNat)
    (large : cfg.logicalPageSize.toNat < ns.info.lbaSize.toNat)
    (multiple : ns.info.lbaSize.toNat = cfg.logicalPageSize.toNat * ratio)
    (some : 0 < nlblk.toNat) (fits : NoOverflow cfg ns slba nlblk) :
    Converted cfg ns slba nlblk (convertUnit cfg ns slba nlblk) := by
  have zero : cfg.logicalPageSize / ns.info.lbaSize = 0 := by
    apply UInt32.toNat_inj.mp
    rw [UInt32.toNat_div]
    exact Nat.div_eq_of_lt large
  have quotient : (ns.info.lbaSize / cfg.logicalPageSize).toUInt64.toNat =
      ratio := by
    rw [UInt32.toNat_toUInt64, UInt32.toNat_div, multiple]
    exact Nat.mul_div_cancel_left ratio page
  have blocks : ∀ count : Nat, count * ns.info.lbaSize.toNat =
      count * ratio * cfg.logicalPageSize.toNat := by
    intro count
    rw [multiple, Nat.mul_comm cfg.logicalPageSize.toNat, Nat.mul_assoc]
  have bound : ns.info.range.slpn + (slba.toNat + nlblk.toNat) * ratio ≤
      2 ^ 64 := by
    have pages := fits.pages
    rw [blocks, ← Nat.add_mul] at pages
    exact Nat.le_of_mul_le_mul_right pages page
  rw [Nat.add_mul] at bound
  have ratioPositive : 0 < ratio := by
    apply Nat.pos_of_ne_zero
    intro none
    rw [none, Nat.mul_zero] at multiple
    omega
  have more : 0 < nlblk.toNat * ratio := Nat.mul_pos some ratioPositive
  have pages : nlblk.toNat * ratio < 2 ^ 64 := by
    have bytes := fits.bytes
    rw [blocks] at bytes
    exact Nat.lt_of_le_of_lt (Nat.le_mul_of_pos_right _ page) bytes
  unfold convertUnit
  rw [if_pos zero]
  dsimp only
  have nlp : (nlblk * (ns.info.lbaSize / cfg.logicalPageSize).toUInt64).toNat =
      nlblk.toNat * ratio := by
    rw [UInt64.toNat_mul, quotient]
    exact Nat.mod_eq_of_lt pages
  have slpn : (slba * (ns.info.lbaSize / cfg.logicalPageSize).toUInt64 +
      UInt64.ofNat ns.info.range.slpn).toNat =
        slba.toNat * ratio + ns.info.range.slpn := by
    rw [UInt64.toNat_add, UInt64.toNat_mul, quotient, UInt64.toNat_ofNat']
    omega
  have length : (nlblk * ns.info.lbaSize.toUInt64).toNat =
      nlblk.toNat * ns.info.lbaSize.toNat := by
    rw [UInt64.toNat_mul, UInt32.toNat_toUInt64]
    exact Nat.mod_eq_of_lt fits.bytes
  have none : (0 : UInt64).toNat = 0 := rfl
  constructor
  case start =>
    dsimp only
    rw [slpn, none, blocks, ← Nat.add_mul, Nat.add_comm (slba.toNat * ratio)]
    rfl
  case inPage => exact page
  case length => exact length
  case enough =>
    dsimp only
    rw [nlp, length, none, blocks]
    omega
  case needed =>
    dsimp only
    rw [nlp, length, none, blocks]
    omega
  case pages =>
    dsimp only
    rw [slpn, nlp]
    omega

/-- The pages that are counted hold the blocks, and one less would not. -/
theorem pages_of_blocks {ratio : Nat} (blocks : Nat) (positive : 0 < ratio) :
    blocks ≤ (blocks + ratio - 1) / ratio * ratio ∧
      (blocks + ratio - 1) / ratio * ratio < blocks + ratio := by
  have split := Nat.div_add_mod (blocks + ratio - 1) ratio
  have rest := Nat.mod_lt (blocks + ratio - 1) positive
  rw [Nat.mul_comm] at split
  omega

theorem pages_fit {ratio slpn slba nlblk nlp page block limit : Nat}
    (positive : 0 < block) (multiple : page = block * ratio)
    (fits : slpn * page + (slba + nlblk) * block ≤ limit * page)
    (needed : nlp * ratio < nlblk + slba % ratio + ratio) :
    slba / ratio + slpn + nlp ≤ limit := by
  have blocks : slpn * ratio + (slba + nlblk) ≤ limit * ratio := by
    apply Nat.le_of_mul_le_mul_right _ positive
    rw [Nat.add_mul, Nat.mul_assoc, Nat.mul_assoc, Nat.mul_comm ratio,
      ← multiple]
    exact fits
  have split := Nat.div_add_mod slba ratio
  rw [Nat.mul_comm] at split
  apply Nat.le_of_lt_succ
  apply Nat.lt_of_mul_lt_mul_right (a := ratio)
  rw [Nat.succ_mul, Nat.add_mul, Nat.add_mul]
  omega

theorem convertUnit_small {ratio : Nat}
    (page : 0 < cfg.logicalPageSize.toNat)
    (multiple : cfg.logicalPageSize.toNat = ns.info.lbaSize.toNat * ratio)
    (some : 0 < nlblk.toNat) (fits : NoOverflow cfg ns slba nlblk) :
    Converted cfg ns slba nlblk (convertUnit cfg ns slba nlblk) := by
  have block : 0 < ns.info.lbaSize.toNat := by
    apply Nat.pos_of_ne_zero
    intro none
    rw [none, Nat.zero_mul] at multiple
    omega
  have positive : 0 < ratio := by
    apply Nat.pos_of_ne_zero
    intro none
    rw [none, Nat.mul_zero] at multiple
    omega
  have divided : cfg.logicalPageSize.toNat / ns.info.lbaSize.toNat =
      ratio := by
    rw [multiple]
    exact Nat.mul_div_cancel_left ratio block
  have quotient : (cfg.logicalPageSize / ns.info.lbaSize).toUInt64.toNat =
      ratio := by
    rw [UInt32.toNat_toUInt64, UInt32.toNat_div, divided]
  have nonzero : cfg.logicalPageSize / ns.info.lbaSize ≠ 0 := by
    intro zero
    rw [zero] at quotient
    have none : (0 : UInt32).toUInt64.toNat = 0 := rfl
    omega
  have rounding := fits.rounding
  rw [divided] at rounding
  unfold convertUnit
  rw [if_neg nonzero]
  dsimp only
  generalize (cfg.logicalPageSize / ns.info.lbaSize).toUInt64 =
    lbaratio at quotient
  have one : (1 : UInt64).toNat = 1 := rfl
  have rest : (slba % lbaratio).toNat = slba.toNat % ratio := by
    rw [UInt64.toNat_mod, quotient]
  have below : slba.toNat % ratio < ratio := Nat.mod_lt _ positive
  have sum : (nlblk + slba % lbaratio + lbaratio - 1).toNat =
      nlblk.toNat + slba.toNat % ratio + ratio - 1 := by
    rw [UInt64.toNat_sub, UInt64.toNat_add, UInt64.toNat_add, rest, quotient,
      one]
    omega
  have nlp : ((nlblk + slba % lbaratio + lbaratio - 1) / lbaratio).toNat =
      (nlblk.toNat + slba.toNat % ratio + ratio - 1) / ratio := by
    rw [UInt64.toNat_div, sum, quotient]
  obtain ⟨enough, needed⟩ := pages_of_blocks
    (nlblk.toNat + slba.toNat % ratio) positive
  rw [← nlp] at enough needed
  have pages := pages_fit block multiple fits.pages needed
  have more : 0 < ((nlblk + slba % lbaratio + lbaratio - 1) /
      lbaratio).toNat := by
    apply Nat.pos_of_ne_zero
    intro none
    rw [none, Nat.zero_mul] at enough
    omega
  have slpn : (slba / lbaratio + UInt64.ofNat ns.info.range.slpn).toNat =
      slba.toNat / ratio + ns.info.range.slpn := by
    rw [UInt64.toNat_add, UInt64.toNat_div, quotient, UInt64.toNat_ofNat']
    generalize slba.toNat / ratio = lead at pages ⊢
    omega
  have bytes : slba.toNat % ratio * ns.info.lbaSize.toNat <
      cfg.logicalPageSize.toNat := by
    rw [multiple, Nat.mul_comm]
    exact Nat.mul_lt_mul_of_pos_left below block
  have offset : (slba % lbaratio * ns.info.lbaSize.toUInt64).toNat =
      slba.toNat % ratio * ns.info.lbaSize.toNat := by
    have size := cfg.logicalPageSize.toNat_lt
    rw [UInt64.toNat_mul, rest, UInt32.toNat_toUInt64]
    omega
  have length : (nlblk * ns.info.lbaSize.toUInt64).toNat =
      nlblk.toNat * ns.info.lbaSize.toNat := by
    rw [UInt64.toNat_mul, UInt32.toNat_toUInt64]
    exact Nat.mod_eq_of_lt fits.bytes
  have pageBytes : ∀ count : Nat, count * cfg.logicalPageSize.toNat =
      count * ratio * ns.info.lbaSize.toNat := by
    intro count
    rw [multiple, Nat.mul_comm ns.info.lbaSize.toNat, Nat.mul_assoc]
  have blocks : slba.toNat % ratio * ns.info.lbaSize.toNat +
      nlblk.toNat * ns.info.lbaSize.toNat =
        (nlblk.toNat + slba.toNat % ratio) * ns.info.lbaSize.toNat := by
    rw [Nat.add_mul, Nat.add_comm]
  constructor
  case start =>
    have split := Nat.div_add_mod slba.toNat ratio
    rw [Nat.mul_comm] at split
    dsimp only
    rw [slpn, offset, Nat.add_mul, pageBytes (slba.toNat / ratio)]
    rw [Nat.add_comm _ (ns.info.range.slpn * _), Nat.add_assoc, ← Nat.add_mul,
      split]
  case inPage =>
    dsimp only
    rw [offset]
    exact bytes
  case length => exact length
  case enough =>
    dsimp only
    rw [offset, length, pageBytes, blocks]
    exact Nat.mul_le_mul_right _ enough
  case needed =>
    dsimp only
    rw [offset, length, pageBytes, blocks]
    have less := Nat.mul_lt_mul_of_pos_right needed block
    rw [Nat.add_mul _ ratio, Nat.mul_comm ratio, ← multiple] at less
    exact less
  case pages =>
    dsimp only
    rw [slpn]
    exact pages

theorem convertUnit_converted (page : cfg.logicalPageSize ≠ 0)
    (block : ns.info.lbaSize ≠ 0)
    (divides : ns.info.lbaSize.toNat ∣ cfg.logicalPageSize.toNat ∨
      cfg.logicalPageSize.toNat ∣ ns.info.lbaSize.toNat)
    (some : nlblk ≠ 0) (fits : NoOverflow cfg ns slba nlblk) :
    Converted cfg ns slba nlblk (convertUnit cfg ns slba nlblk) := by
  have positive : 0 < cfg.logicalPageSize.toNat := by
    apply Nat.pos_of_ne_zero
    intro zero
    exact page (UInt32.toNat_inj.mp zero)
  have counted : 0 < nlblk.toNat := by
    apply Nat.pos_of_ne_zero
    intro zero
    exact some (UInt64.toNat_inj.mp zero)
  rcases divides with ⟨ratio, multiple⟩ | ⟨ratio, multiple⟩
  · exact convertUnit_small positive multiple counted fits
  · rcases Nat.lt_or_ge cfg.logicalPageSize.toNat ns.info.lbaSize.toNat with
      large | small
    · exact convertUnit_large positive large multiple counted fits
    · -- Both sizes are the same.
      have blockPositive : 0 < ns.info.lbaSize.toNat := by
        apply Nat.pos_of_ne_zero
        intro zero
        exact block (UInt32.toNat_inj.mp zero)
      have least := Nat.le_of_dvd blockPositive ⟨ratio, multiple⟩
      have same : cfg.logicalPageSize.toNat = ns.info.lbaSize.toNat * 1 := by
        omega
      exact convertUnit_small positive same counted fits

end Subsystem

open ICL.Interface (BytesFrom)

/-- The reads and writes of the cache for blocks of a namespace lie one behind
the other, from the first byte of the blocks to the last, each in its page. -/
theorem blocks_tile (cfg : ConfigData) (ns : Namespace)
    (slba nlblk reqCount : UInt64) (page : cfg.logicalPageSize ≠ 0)
    (block : ns.info.lbaSize ≠ 0)
    (divides : ns.info.lbaSize.toNat ∣ cfg.logicalPageSize.toNat ∨
      cfg.logicalPageSize.toNat ∣ ns.info.lbaSize.toNat)
    (some : nlblk ≠ 0) (fits : Subsystem.NoOverflow cfg ns slba nlblk)
    (requests : List ICL.Interface.Request)
    (issued :
      let req := (Subsystem.convertUnit cfg ns slba nlblk).internal reqCount
      requests = ICL.Interface.read cfg.logicalPageSize req ∨
        requests = ICL.Interface.write cfg.logicalPageSize req) :
    let size := cfg.logicalPageSize.toNat
    let base := ns.info.range.slpn * size
    BytesFrom size (base + slba.toNat * ns.info.lbaSize.toNat) requests
        (base + (slba.toNat + nlblk.toNat) * ns.info.lbaSize.toNat) ∧
      (∀ byte, (∃ sub ∈ requests, sub.Has size byte) ↔
        base + slba.toNat * ns.info.lbaSize.toNat ≤ byte ∧
          byte < base + (slba.toNat + nlblk.toNat) * ns.info.lbaSize.toNat) ∧
      ∀ sub ∈ requests, 0 < sub.length.toNat ∧
        sub.offset.toNat + sub.length.toNat ≤ size := by
  intro size base
  have converted :=
    Subsystem.convertUnit_converted page block divides some fits
  generalize Subsystem.convertUnit cfg ns slba nlblk = request
    at converted issued
  have counted : 0 < nlblk.toNat := by
    apply Nat.pos_of_ne_zero
    intro zero
    exact some (UInt64.toNat_inj.mp zero)
  have sized : 0 < ns.info.lbaSize.toNat := by
    apply Nat.pos_of_ne_zero
    intro zero
    exact block (UInt32.toNat_inj.mp zero)
  have length : 0 < request.length.toNat := by
    rw [converted.length]
    exact Nat.mul_pos counted sized
  have loop : requests = ICL.Interface.requestsFrom cfg.logicalPageSize
      (request.internal reqCount) request.nlp.toNat 0 request.length
        request.offset := issued.elim id id
  obtain ⟨bytes, inside⟩ := @ICL.Interface.requestsFrom_bytes
    cfg.logicalPageSize (request.internal reqCount) request.nlp.toNat 0
      request.length request.offset converted.inPage length
        converted.enough converted.needed converted.pages
  rw [← loop] at bytes inside
  have finish : base + slba.toNat * ns.info.lbaSize.toNat +
      request.length.toNat =
        base + (slba.toNat + nlblk.toNat) * ns.info.lbaSize.toNat := by
    rw [converted.length, Nat.add_mul, Nat.add_assoc]
  have tiled : BytesFrom size (base + slba.toNat * ns.info.lbaSize.toNat)
      requests (base + (slba.toNat + nlblk.toNat) *
        ns.info.lbaSize.toNat) := by
    rw [← finish, ← converted.start]
    exact bytes
  refine ⟨tiled, tiled.covered, ?_⟩
  intro sub member
  exact ⟨(tiled.between member).2.1, inside sub member⟩

def pagedConfig : ConfigData where
  maxQueueEntry := 64
  totalLogicalPages := 64
  logicalPageSize := 4096
  memoryPageSize := 4096
  maxIOCQueue := 1
  maxIOSQueue := 1
  wrrHigh := 1
  wrrMedium := 1
  useWriteCache := true
  enableDiskImage := false
  pages_lt := Nat.le_of_ble_eq_true rfl

def pagedNamespace : Namespace where
  address := 0
  nsid := 1
  info :=
    { size := 128, capacity := 128, lbaFormatIndex := 2, lbaSize := 512
      range := ⟨8, 16⟩ }
  attached := true
  formatFinishedAt := 0
  pDisk := false

/-- Ten blocks that end in the second page. -/
theorem blocks_tile_two_pages :
    (ICL.Interface.read 4096 ((Subsystem.convertUnit pagedConfig pagedNamespace
        5 10).internal 0)).length = 2 ∧
      BytesFrom 4096 (8 * 4096 + 5 * 512)
        (ICL.Interface.read 4096 ((Subsystem.convertUnit pagedConfig
          pagedNamespace 5 10).internal 0)) (8 * 4096 + (5 + 10) * 512) :=
  ⟨by decide, (blocks_tile pagedConfig pagedNamespace 5 10 0 (by decide)
    (by decide) (.inl (by decide)) (by decide) (by decide) _ (.inl rfl)).1⟩

end SimpleSSD.HIL.NVMe
