import SimpleSSD.PAL.Address

namespace SimpleSSD.PAL

open Data (capacity split join odometer)

namespace Config

def sizes (conf : Config) (index : Index) : Nat :=
  (conf.size index).toNat

def inside (conf : Config) (index : Index) : Bool :=
  (decide (index = .plane) && conf.useMultiPlaneOperation) ||
    conf.inSuperblock index

/-- With multi-plane operation an address has plane 0 for all of them. -/
def extent (conf : Config) (index : Index) : Nat :=
  if index = .plane ∧ conf.useMultiPlaneOperation then
    1
  else
    conf.sizes index

def superBlocks (conf : Config) : Nat :=
  capacity conf.sizes (Index.all.filter (!conf.inside ·)) * conf.block.toNat

def superPageBytes (conf : Config) : Nat :=
  conf.pageSize.toNat * capacity conf.sizes (Index.all.filter (conf.inside ·))

/-- The pages of a super page that have an address of their own. -/
def units (conf : Config) : Nat :=
  capacity conf.extent (Index.all.filter (conf.inside ·))

structure Positive (conf : Config) : Prop where
  dimension : ∀ index, 0 < conf.size index
  block : 0 < conf.block
  pageSize : 0 < conf.pageSize

end Config

/-! The products that `PAL::PAL` computes in 32 bits. -/

namespace Parameter

@[simp] theorem scale_size (param : Parameter) (inside : Bool)
    (factor : UInt32) : (param.scale inside factor).size = param.size := by
  funext index
  cases inside <;> cases index <;> rfl

theorem size_make (conf : Config) : (make conf).size = conf.size := by
  have hstart : (start conf).size = conf.size := by
    funext index
    cases index <;> rfl
  have hmake : (make conf).size =
      (((((start conf).scale (conf.inSuperblock .channel)
        (start conf).channel).scale _ _).scale _ _).scale _ _).size := rfl
  rw [hmake]
  simp [hstart]

def scaleAll (conf : Config) (param : Parameter) : List Index → Parameter :=
  List.foldl
    (fun param index => param.scale (conf.inside index) (conf.size index)) param

theorem scaleAll_superBlock (conf : Config) (indices : List Index)
    (param : Parameter) :
    (param.scaleAll conf indices).superBlock.toNat =
      param.superBlock.toNat *
        capacity conf.sizes (indices.filter (!conf.inside ·)) % 2 ^ 32 := by
  induction indices generalizing param with
  | nil =>
      have hlt := param.superBlock.toNat_lt
      simp only [scaleAll, capacity, List.foldl_nil, List.filter_nil,
        List.map_nil, List.prod_nil, Nat.mul_one]
      omega
  | cons index indices ih =>
      have hstep : param.scaleAll conf (index :: indices) =
          (param.scale (conf.inside index) (conf.size index)).scaleAll conf
            indices := rfl
      rw [hstep, ih]
      cases hinside : conf.inside index with
      | true => simp [scale, hinside]
      | false =>
          simp only [scale, Bool.false_eq_true, if_false, UInt32.toNat_mul,
            List.filter_cons, hinside, Bool.not_false, if_true, capacity,
            List.map_cons, List.prod_cons]
          rw [Nat.mod_mul_mod, Nat.mul_assoc]
          rfl

theorem scaleAll_superPageSize (conf : Config) (indices : List Index)
    (param : Parameter) :
    (param.scaleAll conf indices).superPageSize.toNat =
      param.superPageSize.toNat *
        capacity conf.sizes (indices.filter (conf.inside ·)) % 2 ^ 32 := by
  induction indices generalizing param with
  | nil =>
      have hlt := param.superPageSize.toNat_lt
      simp only [scaleAll, capacity, List.foldl_nil, List.filter_nil,
        List.map_nil, List.prod_nil, Nat.mul_one]
      omega
  | cons index indices ih =>
      have hstep : param.scaleAll conf (index :: indices) =
          (param.scale (conf.inside index) (conf.size index)).scaleAll conf
            indices := rfl
      rw [hstep, ih]
      cases hinside : conf.inside index with
      | false => simp [scale, hinside]
      | true =>
          simp only [scale, if_true, UInt32.toNat_mul, List.filter_cons,
            hinside, capacity, List.map_cons, List.prod_cons]
          rw [Nat.mod_mul_mod, Nat.mul_assoc]
          rfl

@[simp] theorem scale_pageSize (param : Parameter) (inside : Bool)
    (factor : UInt32) :
    (param.scale inside factor).pageSize = param.pageSize := by
  cases inside <;> rfl

theorem make_eq (conf : Config) :
    make conf =
      { (start conf).scaleAll conf Index.all with
        pageInSuperPage :=
          if conf.useMultiPlaneOperation then
            ((start conf).scaleAll conf Index.all).superPageSize /
              conf.pageSize / conf.plane
          else
            ((start conf).scaleAll conf Index.all).superPageSize /
              conf.pageSize } := by
  have hsize : ∀ (param : Parameter) (inside : Bool) (factor : UInt32)
      (index : Index),
      (param.scale inside factor).size index = param.size index := by simp
  have hpackage : ∀ (param : Parameter) (inside : Bool) (factor : UInt32),
      (param.scale inside factor).package = param.package :=
    fun param inside factor => hsize param inside factor .package
  have hdie : ∀ (param : Parameter) (inside : Bool) (factor : UInt32),
      (param.scale inside factor).die = param.die :=
    fun param inside factor => hsize param inside factor .die
  have hplane : ∀ (param : Parameter) (inside : Bool) (factor : UInt32),
      (param.scale inside factor).plane = param.plane :=
    fun param inside factor => hsize param inside factor .plane
  simp only [make, scaleAll, Index.all, List.foldl_cons, List.foldl_nil,
    hpackage, hdie, hplane, scale_pageSize]
  simp [start, Config.inside, Config.size]

theorem make_superBlock (conf : Config) :
    (make conf).superBlock.toNat = conf.superBlocks % 2 ^ 32 := by
  rw [make_eq]
  dsimp only
  rw [scaleAll_superBlock, Config.superBlocks, Nat.mul_comm]
  rfl

theorem make_superPageSize (conf : Config) :
    ((start conf).scaleAll conf Index.all).superPageSize.toNat =
      conf.superPageBytes % 2 ^ 32 :=
  scaleAll_superPageSize conf Index.all (start conf)

/-- The factor that the planes of one address put on a super page. -/
def planes (conf : Config) : Nat :=
  if conf.useMultiPlaneOperation then conf.plane.toNat else 1

theorem make_pageInSuperPage (conf : Config) :
    (make conf).pageInSuperPage.toNat =
      conf.superPageBytes % 2 ^ 32 / (conf.pageSize.toNat * planes conf) := by
  rw [make_eq, planes]
  dsimp only
  split
  · rw [UInt32.toNat_div, UInt32.toNat_div, make_superPageSize,
      Nat.div_div_eq_div_mul]
  · rw [UInt32.toNat_div, make_superPageSize, Nat.mul_one]

theorem sizes_inside (conf : Config) :
    capacity conf.sizes (Index.all.filter (conf.inside ·)) =
      conf.units * planes conf := by
  unfold Config.units planes
  cases hmulti : conf.useMultiPlaneOperation with
  | false =>
      have hextent : conf.extent = conf.sizes := by
        funext index
        simp [Config.extent, hmulti]
      simp [hextent]
  | true =>
      have hplane : conf.inside .plane = true := by
        simp [Config.inside, hmulti]
      have hother : ∀ index, index ≠ .plane →
          conf.extent index = conf.sizes index := by
        intro index hne
        simp [Config.extent, hne]
      have hsame : capacity conf.extent
            ([Index.channel, .package, .die].filter (conf.inside ·)) =
          capacity conf.sizes
            ([Index.channel, .package, .die].filter (conf.inside ·)) := by
        unfold capacity
        congr 1
        apply List.map_congr_left
        intro index hindex
        have hmem := List.mem_of_mem_filter hindex
        apply hother
        rintro rfl
        simp at hmem
      have hsplit : Index.all.filter (conf.inside ·) =
          [Index.channel, .package, .die].filter (conf.inside ·) ++
            [.plane] := by
        have hall : Index.all = [Index.channel, .package, .die] ++ [.plane] :=
          rfl
        rw [hall, List.filter_append]
        simp [hplane]
      have hone : conf.extent .plane = 1 := by simp [Config.extent, hmulti]
      have hplanes : conf.sizes .plane = conf.plane.toNat := rfl
      rw [hsplit]
      unfold capacity at hsame ⊢
      simp only [List.map_append, List.prod_append, hsame, List.map_cons,
        List.map_nil, List.prod_cons, List.prod_nil, hone, hplanes,
        Nat.mul_one, if_true]

theorem bytes_eq (conf : Config) :
    conf.superPageBytes = conf.units * (conf.pageSize.toNat * planes conf) := by
  rw [Config.superPageBytes, sizes_inside, Nat.mul_left_comm]

theorem unitBytes_pos {conf : Config} (hpositive : conf.Positive) :
    0 < conf.pageSize.toNat * planes conf := by
  apply Nat.mul_pos
  · exact UInt32.lt_iff_toNat_lt.mp hpositive.pageSize
  · unfold planes
    split
    · exact UInt32.lt_iff_toNat_lt.mp (hpositive.dimension .plane)
    · exact Nat.one_pos

theorem pageInSuperPage_le {conf : Config} (hpositive : conf.Positive) :
    (make conf).pageInSuperPage.toNat ≤ conf.units ∧
      ((make conf).pageInSuperPage.toNat = conf.units ↔
        conf.superPageBytes < 2 ^ 32) := by
  have hpos := unitBytes_pos hpositive
  rw [make_pageInSuperPage]
  by_cases hfits : conf.superPageBytes < 2 ^ 32
  · rw [Nat.mod_eq_of_lt hfits, bytes_eq, Nat.mul_div_cancel _ hpos]
    exact ⟨Nat.le_refl _, iff_of_true rfl (bytes_eq conf ▸ hfits)⟩
  · have hless : conf.superPageBytes % 2 ^ 32 /
        (conf.pageSize.toNat * planes conf) < conf.units := by
      apply Nat.div_lt_of_lt_mul
      rw [Nat.mul_comm, ← bytes_eq]
      have hmod := Nat.mod_lt conf.superPageBytes (Nat.two_pow_pos 32)
      omega
    exact ⟨Nat.le_of_lt hless, iff_of_false (Nat.ne_of_lt hless) hfits⟩

theorem superBlock_le (conf : Config) :
    (make conf).superBlock.toNat ≤ conf.superBlocks ∧
      ((make conf).superBlock.toNat = conf.superBlocks ↔
        conf.superBlocks < 2 ^ 32) := by
  rw [make_superBlock]
  refine ⟨Nat.mod_le _ _, ?_⟩
  have hmod := Nat.mod_lt conf.superBlocks (Nat.two_pow_pos 32)
  constructor
  · intro heq
    omega
  · exact Nat.mod_eq_of_lt

end Parameter

/-! Addresses as digits. -/

namespace CPDPBP

def of (block page : Nat) (digits : Index → Nat) : CPDPBP where
  channel := digits .channel
  package := digits .package
  die := digits .die
  plane := digits .plane
  block := block
  page := page

theorem of_get (addr : CPDPBP) : of addr.block addr.page addr.get = addr := rfl

theorem get_of (block page : Nat) (digits : Index → Nat) :
    (of block page digits).get = digits := by
  funext index
  cases index <;> rfl

theorem set_eq (addr : CPDPBP) (index : Index) (value : Nat) :
    addr.set index value =
      of addr.block addr.page (Function.update addr.get index value) := by
  cases index <;> rfl

theorem of_injective (block page : Nat) : Function.Injective (of block page) := by
  intro first second heq
  rw [← get_of block page first, heq, get_of]

end CPDPBP

namespace Config

/-- The places of the block index, in the order of the page allocation. -/
def fixed (conf : Config) : List Index :=
  conf.pageAllocation.filter (!conf.inside ·)

def counts (conf : Config) (index : Index) : Bool :=
  conf.inSuperblock index &&
    !(decide (index = .plane) && conf.useMultiPlaneOperation)

def counted (conf : Config) : List Index :=
  conf.pageAllocation.filter (conf.counts ·)

end Config

namespace Decoding

theorem foldl_visit (conf : Config) (places : List Index)
    (decoding : Decoding) :
    places.foldl (visit conf (Parameter.make conf)) decoding =
      { addr := .of decoding.addr.block decoding.addr.page
          (split conf.sizes (places.filter (!conf.inside ·)) decoding.tmp
            decoding.addr.get).2
        tmp :=
          (split conf.sizes (places.filter (!conf.inside ·)) decoding.tmp
            decoding.addr.get).1
        slots := decoding.slots ++ places.filter (conf.counts ·) } := by
  induction places generalizing decoding with
  | nil => simp [split, CPDPBP.of_get]
  | cons place places ih =>
      rw [List.foldl_cons, ih, List.filter_cons, List.filter_cons]
      unfold visit
      by_cases hplane : place = .plane ∧ conf.useMultiPlaneOperation = true
      · have hinside : conf.inside place = true := by
          simp [Config.inside, hplane.1, hplane.2]
        have hcounts : conf.counts place = false := by
          simp [Config.counts, hplane.1, hplane.2]
        simp [if_pos hplane, hinside, hcounts]
      · rw [if_neg hplane]
        have hother : (decide (place = .plane) &&
            conf.useMultiPlaneOperation) = false := by
          simpa using hplane
        unfold take
        cases hsuper : conf.inSuperblock place with
        | true =>
            have hinside : conf.inside place = true := by
              simp [Config.inside, hsuper]
            have hcounts : conf.counts place = true := by
              simp only [Config.counts, hsuper, hother, Bool.not_false,
                Bool.and_self]
            simp [hinside, hcounts]
        | false =>
            have hinside : conf.inside place = false := by
              simp only [Config.inside, hsuper, hother, Bool.or_self]
            have hcounts : conf.counts place = false := by
              simp only [Config.counts, hsuper, Bool.false_and]
            have hsize : ((Parameter.make conf).size place).toNat =
                conf.sizes place := by
              rw [Parameter.size_make]
              rfl
            simp only [hinside, hcounts, hsize, Bool.not_false, if_true,
              Bool.false_eq_true, if_false, split, CPDPBP.set_eq,
              CPDPBP.get_of]
            rfl

end Decoding

def flagged (flag : List Bool) (list : List α) : List α :=
  ((flag.zip list).filter (·.1)).map (·.2)

theorem flagged_full (list : List α) :
    flagged (List.replicate list.length true) list = list := by
  induction list with
  | nil => rfl
  | cons value list ih =>
      simpa [flagged, List.replicate_succ] using ih

theorem foldlM_flatMap {f : σ → β → Except Panic σ} {g : α → List β}
    (list : List α) (state : σ) :
    (list.flatMap g).foldlM f state =
      list.foldlM (fun state value => (g value).foldlM f state) state := by
  induction list generalizing state with
  | nil => rfl
  | cons value list ih =>
      rw [List.flatMap_cons, List.foldlM_append, List.foldlM_cons]
      congr 1
      funext next
      exact ih next

/-- The loops visit the addresses of the odometer. -/
theorem loops_eq (conf : Config) (flag : List Bool) (slots : List Index)
    (addr : CPDPBP) (listing : Listing) :
    loops (Parameter.make conf) flag slots addr listing =
      ((odometer conf.sizes slots addr.get).map
        (.of addr.block addr.page)).foldlM
          (Listing.unit flag) listing := by
  induction slots generalizing addr listing with
  | nil =>
      simp only [loops, odometer, List.map_cons, List.map_nil,
        List.foldlM_cons, List.foldlM_nil, bind_pure, CPDPBP.of_get]
  | cons slot slots ih =>
      have hsize : ((Parameter.make conf).size slot).toNat =
          conf.sizes slot := by
        rw [Parameter.size_make]
        rfl
      simp only [loops, odometer, List.map_flatMap, foldlM_flatMap, hsize]
      congr 1
      funext listing value
      rw [ih, CPDPBP.set_eq, CPDPBP.get_of]
      rfl

theorem foldlM_unit {flag : List Bool} (hflag : flag.length < 2 ^ 32)
    (addrs : List CPDPBP) (tmp : Nat) (list : List CPDPBP)
    (hroom : tmp + addrs.length ≤ flag.length) :
    addrs.foldlM (Listing.unit flag) ⟨tmp, list⟩ =
      .ok ⟨tmp + addrs.length, list ++ flagged (flag.drop tmp) addrs⟩ := by
  induction addrs generalizing tmp list with
  | nil => simp [flagged]; rfl
  | cons addr addrs ih =>
      rw [List.length_cons] at hroom
      have htmp : tmp < flag.length := by omega
      have hunit : Listing.unit flag ⟨tmp, list⟩ addr =
          .ok ⟨tmp + 1, if flag[tmp] then list ++ [addr] else list⟩ := by
        have hmod : tmp % 2 ^ 32 = tmp := Nat.mod_eq_of_lt (by omega)
        have hnext : (tmp + 1) % 2 ^ 64 = tmp + 1 :=
          Nat.mod_eq_of_lt (by omega)
        have hbyte : tmp / 8 < (flag.length + 7) / 8 := by omega
        simp only [Listing.unit, hmod, hnext, test, if_pos hbyte,
          List.getElem?_eq_getElem htmp, Option.getD_some]
        rfl
      have hrest := ih (tmp + 1)
        (if flag[tmp] then list ++ [addr] else list) (by omega)
      rw [List.foldlM_cons, hunit]
      refine Eq.trans hrest ?_
      rw [List.drop_eq_getElem_cons htmp, List.length_cons]
      congr 2
      · omega
      · cases hbit : flag[tmp] <;> simp [flagged]

/-! The addresses of a super block. -/

def addresses (conf : Config) (blockIndex page : Nat) : List CPDPBP :=
  let decoded := split conf.sizes conf.fixed blockIndex (fun _ => 0)
  (odometer conf.sizes conf.counted.reverse decoded.2).map
    (.of decoded.1 page)

def InRange (conf : Config) (addr : CPDPBP) : Prop :=
  (∀ index, addr.get index < conf.extent index) ∧
    addr.block < conf.block.toNat

theorem capacity_perm {size : ι → Nat} {first second : List ι}
    (hperm : first.Perm second) :
    capacity size first = capacity size second :=
  (hperm.map size).prod_eq

section

variable {conf : Config} (horder : conf.pageAllocation.Perm Index.all)

include horder

theorem fixed_perm : conf.fixed.Perm (Index.all.filter (!conf.inside ·)) :=
  horder.filter _

theorem counted_perm : conf.counted.Perm (Index.all.filter (conf.counts ·)) :=
  horder.filter _

theorem mem_order (index : Index) : index ∈ conf.pageAllocation := by
  rw [horder.mem_iff]
  cases index <;> decide

theorem fixed_nodup : conf.fixed.Nodup :=
  ((fixed_perm horder).nodup_iff).mpr ((by decide : Index.all.Nodup).filter _)

theorem counted_nodup : conf.counted.Nodup :=
  ((counted_perm horder).nodup_iff).mpr ((by decide : Index.all.Nodup).filter _)

theorem mem_fixed (index : Index) :
    index ∈ conf.fixed ↔ conf.inside index = false := by
  unfold Config.fixed
  rw [List.mem_filter]
  simp [mem_order horder index]

theorem mem_counted (index : Index) :
    index ∈ conf.counted ↔ conf.counts index = true := by
  unfold Config.counted
  rw [List.mem_filter]
  simp [mem_order horder index]

theorem superBlocks_eq :
    conf.superBlocks = capacity conf.sizes conf.fixed * conf.block.toNat := by
  rw [capacity_perm (fixed_perm horder)]
  rfl

/-- A dimension belongs to the block index or to a loop, or it is the plane of
multi-plane operation. -/
theorem place_cases (index : Index) :
    (index ∈ conf.fixed ∧ index ∉ conf.counted ∧
        conf.extent index = conf.sizes index) ∨
      (index ∉ conf.fixed ∧ index ∈ conf.counted ∧
        conf.extent index = conf.sizes index) ∨
      (index ∉ conf.fixed ∧ index ∉ conf.counted ∧
        conf.extent index = 1) := by
  rw [mem_fixed horder, mem_counted horder]
  unfold Config.inside Config.counts Config.extent
  by_cases hplane : index = .plane ∧ conf.useMultiPlaneOperation = true
  · exact .inr (.inr (by simp [hplane.1, hplane.2]))
  · have hother : (decide (index = .plane) &&
        conf.useMultiPlaneOperation) = false := by
      simpa using hplane
    rw [hother, if_neg hplane]
    cases conf.inSuperblock index
    · exact .inl (by simp)
    · exact .inr (.inl (by simp))

theorem units_eq : conf.units = capacity conf.sizes conf.counted := by
  have hfilter : conf.units =
      capacity conf.extent (conf.pageAllocation.filter (conf.inside ·)) :=
    (capacity_perm (horder.filter _)).symm
  rw [hfilter]
  have hall : ∀ places : List Index,
      capacity conf.extent (places.filter (conf.inside ·)) =
        capacity conf.sizes (places.filter (conf.counts ·)) := by
    intro places
    induction places with
    | nil => rfl
    | cons place places ih =>
        have hinside := mem_fixed horder place
        have hcounts := mem_counted horder place
        unfold capacity at ih ⊢
        rw [List.filter_cons, List.filter_cons]
        obtain ⟨hf, hc, he⟩ | ⟨hf, hc, he⟩ | ⟨hf, hc, he⟩ :=
          place_cases horder place
        · have h1 : conf.inside place = false := hinside.mp hf
          have h2 : conf.counts place = false := by
            simpa using fun h => hc (hcounts.mpr h)
          simpa [h1, h2] using ih
        · have h1 : conf.inside place = true := by
            simpa using fun h => hf (hinside.mpr h)
          have h2 : conf.counts place = true := hcounts.mp hc
          simp [h1, h2, he, ih]
        · have h1 : conf.inside place = true := by
            simpa using fun h => hf (hinside.mpr h)
          have h2 : conf.counts place = false := by
            simpa using fun h => hc (hcounts.mpr h)
          simpa [h1, h2, he] using ih
  exact hall conf.pageAllocation

theorem length_addresses (blockIndex page : Nat) :
    (addresses conf blockIndex page).length = conf.units := by
  unfold addresses
  rw [List.length_map, Data.length_odometer, units_eq horder]
  exact capacity_perm (List.reverse_perm _)

theorem addresses_nodup (blockIndex page : Nat) :
    (addresses conf blockIndex page).Nodup := by
  unfold addresses
  refine (Data.odometer_nodup ?_ _).map (CPDPBP.of_injective _ _)
  exact List.nodup_reverse.mpr (counted_nodup horder)

omit horder in
theorem mem_addresses (addr : CPDPBP) (blockIndex page : Nat) :
    addr ∈ addresses conf blockIndex page ↔
      (∀ index ∈ conf.counted, addr.get index < conf.sizes index) ∧
        (∀ index, index ∉ conf.counted → addr.get index =
          (split conf.sizes conf.fixed blockIndex (fun _ => 0)).2 index) ∧
        addr.block =
          (split conf.sizes conf.fixed blockIndex (fun _ => 0)).1 ∧
        addr.page = page := by
  unfold addresses
  simp only [List.mem_map, Data.mem_odometer, List.mem_reverse]
  constructor
  · rintro ⟨digits, ⟨hcounted, hother⟩, rfl⟩
    rw [CPDPBP.get_of]
    exact ⟨hcounted, hother, rfl, rfl⟩
  · rintro ⟨hcounted, hother, hblock, hpage⟩
    refine ⟨addr.get, ⟨hcounted, hother⟩, ?_⟩
    rw [← hblock, ← hpage, CPDPBP.of_get]

theorem addresses_inRange {blockIndex page : Nat} {addr : CPDPBP}
    (hpositive : conf.Positive) (hblock : blockIndex < conf.superBlocks)
    (hmem : addr ∈ addresses conf blockIndex page) :
    InRange conf addr ∧ addr.page = page := by
  obtain ⟨hcounted, hother, hquotient, hpage⟩ :=
    (mem_addresses addr blockIndex page).mp hmem
  refine ⟨⟨fun index => ?_, ?_⟩, hpage⟩
  · obtain ⟨hf, hc, he⟩ | ⟨hf, hc, he⟩ | ⟨hf, hc, he⟩ :=
      place_cases horder index
    · rw [hother index hc, he]
      refine Data.split_digit_lt (fixed_nodup horder) ?_ _ _ index hf
      intro place _
      exact UInt32.lt_iff_toNat_lt.mp (hpositive.dimension place)
    · rw [he]
      exact hcounted index hc
    · rw [hother index hc, he, Data.split_outside hf]
      exact Nat.one_pos
  · rw [hquotient]
    rw [superBlocks_eq horder] at hblock
    exact Data.split_quotient_lt hblock _

theorem addresses_injective {first second page : Nat} {addr : CPDPBP}
    (hfirst : addr ∈ addresses conf first page)
    (hsecond : addr ∈ addresses conf second page) : first = second := by
  obtain ⟨-, hother, hblock, -⟩ := (mem_addresses addr first page).mp hfirst
  obtain ⟨-, hother', hblock', -⟩ := (mem_addresses addr second page).mp hsecond
  rw [← @Data.join_split Index _ conf.sizes conf.fixed (fixed_nodup horder)
      first (fun _ => 0),
    ← @Data.join_split Index _ conf.sizes conf.fixed (fixed_nodup horder)
      second (fun _ => 0), ← hblock, ← hblock']
  refine Data.join_congr (fun index hindex => ?_) addr.block
  have hout : index ∉ conf.counted := by
    obtain ⟨-, hc, -⟩ | ⟨hf, -, -⟩ | ⟨hf, -, -⟩ := place_cases horder index
    · exact hc
    · exact absurd hindex hf
    · exact absurd hindex hf
  rw [← hother index hout, ← hother' index hout]

theorem addresses_onto {addr : CPDPBP} (hrange : InRange conf addr) :
    ∃ blockIndex < conf.superBlocks,
      addr ∈ addresses conf blockIndex addr.page := by
  have hdigits : ∀ index ∈ conf.fixed, addr.get index < conf.sizes index := by
    intro index hindex
    have hlt := hrange.1 index
    obtain ⟨-, -, he⟩ | ⟨hf, -, -⟩ | ⟨hf, -, -⟩ := place_cases horder index
    · rwa [he] at hlt
    · exact absurd hindex hf
    · exact absurd hindex hf
  obtain ⟨hquotient, hplaces⟩ := Data.split_join (fixed_nodup horder) hdigits
    addr.block (fun _ => 0)
  refine ⟨join conf.sizes addr.get conf.fixed addr.block, ?_, ?_⟩
  · rw [superBlocks_eq horder]
    exact Data.join_lt hdigits hrange.2
  · refine (mem_addresses _ _ _).mpr
      ⟨fun index hindex => ?_, fun index hout => ?_, hquotient.symm, rfl⟩
    · have hlt := hrange.1 index
      obtain ⟨-, hc, -⟩ | ⟨-, -, he⟩ | ⟨-, hc, -⟩ := place_cases horder index
      · exact absurd hindex hc
      · rwa [he] at hlt
      · exact absurd hindex hc
    · obtain ⟨hf, -, -⟩ | ⟨-, hc, -⟩ | ⟨hf, -, he⟩ := place_cases horder index
      · exact (hplaces index hf).symm
      · exact absurd hc hout
      · have hlt := hrange.1 index
        rw [he] at hlt
        rw [Data.split_outside hf]
        omega

end

end SimpleSSD.PAL
