import SimpleSSD.HIL.NVMe.Spaces

namespace SimpleSSD.HIL.NVMe

open Data (Returns Along)

/-! `Subsystem::init` shares the device among namespaces of one size. -/

inductive InitPanic where
  | unknownSize
  | notCreated
  | fault (raised : Fault)
  deriving DecidableEq, Repr

def InitPanic.message : InitPanic → String
  | .unknownSize => "Failed to setting LBA size (512B ~ 4KB)"
  | .notCreated => "Failed to create namespace"
  | .fault raised => raised.message

namespace Subsystem

/-- The constructor, which leaves `queueAllocated` as it is. -/
def make (controller : Controller) (queueAllocated : UInt32) : Subsystem where
  controller := controller
  aggregationTime := 0
  aggregationThreshold := 0
  lNamespaces := []
  queueAllocated := queueAllocated
  allocatedLogicalPages := 0
  tick := 0
  nextAddress := 0
  contexts := []
  trims := []
  freedLists := []
  pending := []
  responses := []
  submitted := 0

/-- `lNamespaces.back()->attach(true)`. -/
def attachLast (subsystem : Subsystem) : Subsystem :=
  { subsystem with
    lNamespaces := subsystem.lNamespaces.dropLast ++
      subsystem.lNamespaces.getLast?.toList.map fun back =>
        { back with attached := true } }

/-- One round of the loop.  `info` goes from round to round with the range that
the last creation has put there. -/
def createDefault (cfg : ConfigData) (info : Information)
    (state : Subsystem × LPNRange) (i : Nat) :
    Except InitPanic (Subsystem × LPNRange) :=
  match createNamespace cfg state.1 (nsidLowest + UInt32.ofNat i)
    { info with range := state.2 } with
  | .error raised => .error (.fault raised)
  | .ok (false, _) => .error .notCreated
  | .ok (true, created) => .ok (created.attachLast,
      match created.lNamespaces.getLast? with
      | some ns => ns.info.range
      | none => state.2)

def defaultInformation (cfg : ConfigData) (nNamespaces : UInt16)
    (lba : UInt32) (index : Nat) : Information :=
  let totalSize := UInt64.ofNat cfg.totalLogicalPages *
    cfg.logicalPageSize.toUInt64 / lba.toUInt64
  { size := totalSize / nNamespaces.toUInt64
    capacity := totalSize / nNamespaces.toUInt64
    lbaFormatIndex := UInt8.ofNat index
    lbaSize := lba
    range := ⟨0, 0⟩ }

def init (cfg : ConfigData) (nNamespaces : UInt16) (lba : UInt32)
    (subsystem : Subsystem) : Except InitPanic Subsystem :=
  if nNamespaces = 0 then .ok subsystem
  else
    match lbaSizes.idxOf? lba with
    | none => .error .unknownSize
    | some index =>
        ((List.range nNamespaces.toNat).foldlM
          (createDefault cfg (defaultInformation cfg nNamespaces lba index))
          (subsystem, ⟨0, 0⟩)).map Prod.fst

def performAll (cfg : ConfigData) (subsystem : Subsystem)
    (steps : List Step) : Except Fault Subsystem :=
  steps.foldlM (fun reached step => step.perform cfg reached) subsystem

/-! The default namespaces lie one behind the other. -/

def defaultNamespace (cfg : ConfigData) (info : Information) (pages i : Nat) :
    Namespace where
  address := i
  nsid := nsidLowest + UInt32.ofNat i
  info := { info with range := ⟨i * pages, pages⟩ }
  attached := true
  formatFinishedAt := 0
  pDisk := cfg.enableDiskImage

def defaultPages (cfg : ConfigData) (info : Information) : Nat :=
  (requestedLogicalPages cfg info info.lbaSize).toNat

structure Packed (cfg : ConfigData) (info : Information) (count : Nat)
    (subsystem : Subsystem) : Prop where
  namespaces : subsystem.lNamespaces =
    (List.range count).map (defaultNamespace cfg info (defaultPages cfg info))
  allocated :
    subsystem.allocatedLogicalPages.toNat = count * defaultPages cfg info
  filled : 0 < count → 0 < defaultPages cfg info
  inside : count * defaultPages cfg info ≤ cfg.totalLogicalPages
  address : subsystem.nextAddress = count
  idle : subsystem.pending = []

/-- The pieces between ranges of one size that follow each other. -/
theorem invert_packed (pages first total : Nat) (free : List LPNRange) :
    ∀ count, (first + count) * pages ≤ total →
      invert ((List.range count).map fun i => ⟨(first + i) * pages, pages⟩)
        free ⟨first * pages, total - first * pages⟩ =
      .ok (free ++ (List.range count).map (fun i => ⟨(first + i) * pages, 0⟩) ++
        [⟨(first + count) * pages, total - (first + count) * pages⟩]) := by
  intro count
  induction count generalizing first free with
  | zero => simp [invert]
  | succ count ih =>
      intro hinside
      have hstep : (first + 1) * pages = first * pages + pages :=
        Nat.succ_mul first pages
      have hbelow : (first + 1) * pages ≤ (first + 1 + count) * pages :=
        Nat.mul_le_mul_right pages (by omega)
      rw [show first + (count + 1) = first + 1 + count by omega] at hinside ⊢
      have hrest := ih (first + 1) (free ++ [⟨first * pages, 0⟩]) hinside
      have hshift : ∀ place : Nat → LPNRange,
          (List.range (count + 1)).map (fun i => place (first + i)) =
            place first ::
              (List.range count).map fun i => place (first + 1 + i) := by
        intro place
        rw [List.range_succ_eq_map, List.map_cons, List.map_map]
        refine congrArg _ (List.map_congr_left fun i _ => ?_)
        exact congrArg place (by omega)
      rw [hshift fun i => ⟨i * pages, pages⟩, hshift fun i => ⟨i * pages, 0⟩]
      unfold invert
      rw [if_pos (by dsimp only; omega)]
      dsimp only
      rw [Nat.sub_self, ← hstep, show first * pages + (total - first * pages) -
        first * pages - pages = total - (first + 1) * pages by omega, hrest]
      simp only [List.append_assoc, List.cons_append, List.nil_append]

section Packed

variable {cfg : ConfigData} {info : Information} {count : Nat}
  {subsystem : Subsystem}

theorem Packed.ranges (h : Packed cfg info count subsystem) :
    subsystem.ranges = (List.range count).map fun i =>
      ⟨i * defaultPages cfg info, defaultPages cfg info⟩ := by
  unfold Subsystem.ranges
  rw [h.namespaces, List.map_map]
  rfl

theorem Packed.unallocated (h : Packed cfg info count subsystem) :
    unallocated cfg subsystem = .ok
      ((List.range count).map (fun i => ⟨i * defaultPages cfg info, 0⟩) ++
        [⟨count * defaultPages cfg info,
          cfg.totalLogicalPages - count * defaultPages cfg info⟩]) := by
  have hsorted : sortRanges subsystem.ranges = subsystem.ranges := by
    unfold sortRanges
    apply List.Pairwise.insertionSort_eq
    rw [h.ranges, List.pairwise_map]
    refine List.pairwise_lt_range.imp fun hlt => ?_
    exact Nat.mul_le_mul_right _ (Nat.le_of_lt hlt)
  have hinvert := invert_packed (defaultPages cfg info) 0
    cfg.totalLogicalPages [] count (by rw [Nat.zero_add]; exact h.inside)
  simp only [Nat.zero_add, Nat.zero_mul, Nat.sub_zero, List.nil_append]
    at hinvert
  unfold Subsystem.unallocated
  change invert (sortRanges subsystem.ranges) [] _ = _
  rw [hsorted, h.ranges]
  exact hinvert

theorem toNat_nsid {i : Nat} (hi : i < 65536) :
    (nsidLowest + UInt32.ofNat i).toNat = i + 1 := by
  rw [UInt32.toNat_add, UInt32.toNat_ofNat_of_lt' (by
    change i < 4294967296
    omega)]
  change (1 + i) % 4294967296 = i + 1
  omega

theorem sortNamespaces_packed (pages : Nat) (ns : Namespace)
    (hcount : count < 65536) (hns : ns.nsid = nsidLowest + UInt32.ofNat count) :
    sortNamespaces ((List.range count).map (defaultNamespace cfg info pages) ++
      [ns]) =
    (List.range count).map (defaultNamespace cfg info pages) ++ [ns] := by
  unfold sortNamespaces
  apply List.Pairwise.insertionSort_eq
  rw [List.pairwise_append]
  refine ⟨?_, List.pairwise_singleton _ _, ?_⟩
  · rw [List.pairwise_map]
    refine List.pairwise_lt_range.imp_of_mem fun {i j} hi hj hlt => ?_
    rw [List.mem_range] at hi hj
    change nsidLowest + UInt32.ofNat i ≤ nsidLowest + UInt32.ofNat j
    rw [UInt32.le_iff_toNat_le, toNat_nsid (by omega), toNat_nsid (by omega)]
    omega
  · intro left hleft right hright
    rw [List.mem_singleton] at hright
    subst hright
    obtain ⟨i, hi, rfl⟩ := List.mem_map.mp hleft
    rw [List.mem_range] at hi
    rw [hns]
    change nsidLowest + UInt32.ofNat i ≤ nsidLowest + UInt32.ofNat count
    rw [UInt32.le_iff_toNat_le, toNat_nsid (by omega), toNat_nsid (by omega)]
    omega

theorem find_packed {pages : Nat} (total : Nat) (hpages : 0 < pages)
    (hfits : pages ≤ total - count * pages) :
    List.find? (fun piece : LPNRange => pages ≤ piece.nlp)
      ((List.range count).map (fun i => ⟨i * pages, 0⟩) ++
        [⟨count * pages, total - count * pages⟩]) =
      some ⟨count * pages, total - count * pages⟩ := by
  rw [List.find?_append, List.find?_eq_none.mpr ?_, Option.none_or]
  · rw [List.find?_cons_of_pos (by simpa using hfits)]
  · intro piece hpiece
    obtain ⟨i, -, rfl⟩ := List.mem_map.mp hpiece
    simpa using Nat.ne_of_gt hpages

theorem Packed.addNamespace (h : Packed cfg info count subsystem)
    (hcount : count < 65536) (hpages : 0 < defaultPages cfg info)
    (hfits : defaultPages cfg info ≤
      cfg.totalLogicalPages - count * defaultPages cfg info)
    (range : LPNRange) :
    Packed cfg info (count + 1) (addNamespace cfg subsystem
      (nsidLowest + UInt32.ofNat count) { info with range := range }
      (requestedLogicalPages cfg info info.lbaSize)
      ⟨count * defaultPages cfg info, defaultPages cfg info⟩).attachLast := by
  have hstep : (count + 1) * defaultPages cfg info =
      count * defaultPages cfg info + defaultPages cfg info :=
    Nat.succ_mul _ _
  have hinside := h.inside
  have htotal := cfg.pages_lt
  refine ⟨?_, ?_, fun _ => hpages, by omega, ?_, h.idle⟩
  · unfold attachLast Subsystem.addNamespace
    dsimp only
    rw [h.namespaces, h.address, sortNamespaces_packed _ _ hcount rfl,
      List.dropLast_concat, List.getLast?_concat, List.range_succ,
      List.map_append]
    rfl
  · change (subsystem.allocatedLogicalPages +
      requestedLogicalPages cfg info info.lbaSize).toNat = _
    rw [UInt64.toNat_add, h.allocated, hstep]
    apply Nat.mod_eq_of_lt
    change _ + defaultPages cfg info < _
    omega
  · change subsystem.nextAddress + 1 = count + 1
    rw [h.address]

theorem createNamespace_packed (h : Packed cfg info count subsystem)
    (hsize : lbaSize info.lbaFormatIndex = .ok info.lbaSize)
    (nsid : UInt32) (range : LPNRange) :
    Returns
      (fun result => result = (false, subsystem) ∨
        0 < defaultPages cfg info ∧
        defaultPages cfg info ≤
          cfg.totalLogicalPages - count * defaultPages cfg info ∧
        result = (true, addNamespace cfg subsystem nsid
          { info with range := range }
          (requestedLogicalPages cfg info info.lbaSize)
          ⟨count * defaultPages cfg info, defaultPages cfg info⟩))
      (· ≠ .bug)
      (createNamespace cfg subsystem nsid { info with range := range }) := by
  unfold createNamespace
  dsimp only
  rw [hsize]
  dsimp only [bind, Except.bind]
  split
  · exact .inl rfl
  next hrest =>
  have hfits : defaultPages cfg info ≤
      cfg.totalLogicalPages - count * defaultPages cfg info := by
    have hinside := h.inside
    have htotal := cfg.pages_lt
    have hle := UInt64.le_iff_toNat_le.mp (UInt64.not_lt.mp hrest)
    rw [UInt64.toNat_sub_of_le _ _ (by
      rw [UInt64.le_iff_toNat_le, h.allocated, UInt64.toNat_ofNat_of_lt' htotal]
      exact hinside), UInt64.toNat_ofNat_of_lt' htotal, h.allocated] at hle
    exact hle
  rw [h.unallocated]
  dsimp only
  generalize hfound : List.find? _ _ = found
  change List.find? (fun piece : LPNRange => defaultPages cfg info ≤ piece.nlp)
    _ = found at hfound
  cases found with
  | none =>
      have hlast := List.find?_eq_none.mp hfound _
        (List.mem_append_right _ (List.mem_singleton_self _))
      exact absurd (decide_eq_true hfits) hlast
  | some piece =>
      dsimp only
      split
      · exact .inl rfl
      · next hfilled =>
          have hpages : 0 < defaultPages cfg info := Nat.pos_of_ne_zero hfilled
          rw [find_packed cfg.totalLogicalPages hpages hfits] at hfound
          cases hfound
          exact .inr ⟨hpages, hfits, rfl⟩

theorem createDefault_packed (h : Packed cfg info count subsystem)
    (hcount : count < 65536)
    (hsize : lbaSize info.lbaFormatIndex = .ok info.lbaSize)
    (range : LPNRange) :
    Returns (fun state => Packed cfg info (count + 1) state.1)
      (· ≠ .fault .bug) (createDefault cfg info (subsystem, range) count) := by
  have hcreated := createNamespace_packed h hsize
    (nsidLowest + UInt32.ofNat count) range
  unfold createDefault
  dsimp only
  cases hresult : createNamespace cfg subsystem
      (nsidLowest + UInt32.ofNat count) { info with range := range } with
  | error raised =>
      have hother := hcreated.of_error hresult
      exact fun hbug => hother (InitPanic.fault.inj hbug)
  | ok result =>
      obtain rfl | ⟨hpages, hfits, rfl⟩ := hcreated.of_ok hresult
      · exact nofun
      · exact h.addNamespace hcount hpages hfits range

end Packed

theorem lbaSize_idxOf {lba : UInt32} {index : Nat}
    (hindex : lbaSizes.idxOf? lba = some index) :
    lbaSize (UInt8.ofNat index) = .ok lba := by
  obtain ⟨hlt, hget, -⟩ := List.idxOf?_eq_some_iff.mp hindex
  change index < 4 at hlt
  unfold lbaSize
  rw [UInt8.toNat_ofNat_of_lt' (by change index < 256; omega),
    List.getElem?_eq_getElem hlt]
  exact congrArg Except.ok hget

structure Initial (cfg : ConfigData) (nNamespaces : UInt16) (lba : UInt32)
    (info : Information) (subsystem : Subsystem) : Prop where
  packed : Packed cfg info nNamespaces.toNat subsystem
  known : lbaSize info.lbaFormatIndex = .ok info.lbaSize
  shared : nNamespaces ≠ 0 →
    ∃ index, info = defaultInformation cfg nNamespaces lba index

theorem init_returns (cfg : ConfigData) (nNamespaces : UInt16) (lba : UInt32)
    (controller : Controller) (queueAllocated : UInt32) :
    Returns
      (fun start => ∃ info, Initial cfg nNamespaces lba info start)
      (· ≠ .fault .bug)
      (init cfg nNamespaces lba (make controller queueAllocated)) := by
  have hempty : ∀ info, Packed cfg info 0 (make controller queueAllocated) :=
    fun info => ⟨rfl, by rw [Nat.zero_mul]; rfl, nofun,
      by rw [Nat.zero_mul]; exact Nat.zero_le _, rfl, rfl⟩
  unfold init
  split
  · next hnone =>
      subst hnone
      exact ⟨{ defaultInformation cfg 0 lba 0 with lbaSize := 512 },
        hempty _, rfl, fun h => absurd rfl h⟩
  · cases hindex : lbaSizes.idxOf? lba with
    | none => exact nofun
    | some index =>
        have hknown : lbaSize
            (defaultInformation cfg nNamespaces lba index).lbaFormatIndex =
              .ok (defaultInformation cfg nNamespaces lba index).lbaSize :=
          lbaSize_idxOf hindex
        have hrounds := @Returns.foldlM_range _ _
          (createDefault cfg (defaultInformation cfg nNamespaces lba index))
          (fun i state => Packed cfg
            (defaultInformation cfg nNamespaces lba index) i state.1)
          (· ≠ .fault .bug) nNamespaces.toNat
          (make controller queueAllocated, ⟨0, 0⟩) (by
          intro i hi state hpacked
          have hlt := nNamespaces.toNat_lt
          exact createDefault_packed hpacked (by omega) hknown state.2)
          (hempty _)
        exact hrounds.map fun state hpacked =>
          ⟨_, hpacked, hknown, fun _ => ⟨index, rfl⟩⟩

theorem Packed.placed {cfg : ConfigData} {info : Information} {count : Nat}
    {subsystem : Subsystem} (h : Packed cfg info count subsystem) :
    Placed cfg subsystem := by
  refine ⟨?_, ?_⟩
  · intro range hrange
    rw [h.ranges] at hrange
    obtain ⟨i, hi, rfl⟩ := List.mem_map.mp hrange
    rw [List.mem_range] at hi
    refine ⟨h.filled (by omega), ?_⟩
    have hnext : (i + 1) * defaultPages cfg info ≤
        count * defaultPages cfg info := Nat.mul_le_mul_right _ hi
    rw [Nat.succ_mul] at hnext
    exact Nat.le_trans hnext h.inside
  · rw [h.ranges, List.pairwise_map]
    refine List.pairwise_lt_range.imp fun {i j} hlt => .inl ?_
    have hnext : (i + 1) * defaultPages cfg info ≤
        j * defaultPages cfg info := Nat.mul_le_mul_right _ hlt
    rw [Nat.succ_mul] at hnext
    exact hnext

theorem Placed.performAll {cfg : ConfigData} {start : Subsystem}
    (hplaced : Placed cfg start) (steps : List Step) :
    Returns (Placed cfg) (· ≠ .bug) (performAll cfg start steps) := by
  refine Along.returns ?_ hplaced (Along.always _ start steps)
  intro state step hplaced _
  exact (step.perform_changes cfg state).mono
    (fun after hchanges => hchanges.placed hplaced)
    fun fault hfault hbug => hfault hbug hplaced

/-- Whatever commands follow the initialization, the namespaces have pages of
the device that they share with no other, and the search for free pages does
not fail. -/
theorem namespace_placement (cfg : ConfigData) (nNamespaces : UInt16)
    (lba : UInt32) (controller : Controller) (queueAllocated : UInt32) :
    Returns
      (fun start => ∀ steps,
        Returns (Placed cfg) (· ≠ .bug) (performAll cfg start steps))
      (· ≠ .fault .bug)
      (init cfg nNamespaces lba (make controller queueAllocated)) := by
  refine (init_returns cfg nNamespaces lba controller queueAllocated).mono ?_
    fun _ h => h
  intro start hstart steps
  obtain ⟨info, hinitial⟩ := hstart
  exact hinitial.packed.placed.performAll steps

end Subsystem

end SimpleSSD.HIL.NVMe
