import SimpleSSD.HIL.NVMe.Capacity

namespace SimpleSSD.HIL.NVMe

open Data (Returns Along)

/-! A namespace keeps to its pages as long as they are enough for the blocks it
advertises. -/

/-- The pages that `convertUnit` spreads so many blocks over. -/
def ConfigData.blockPages (cfg : ConfigData) (lbaSize : UInt32)
    (size : UInt64) : Nat :=
  let ratio := cfg.logicalPageSize.toNat / lbaSize.toNat
  if ratio = 0 then
    size.toNat * (lbaSize.toNat / cfg.logicalPageSize.toNat)
  else (size.toNat + ratio - 1) / ratio

def Namespace.Roomy (cfg : ConfigData) (ns : Namespace) : Prop :=
  cfg.blockPages ns.info.lbaSize ns.info.size ≤ ns.info.range.nlp

structure Request.Within (request : Request) (range : LPNRange) : Prop where
  low : range.slpn ≤ request.slpn.toNat
  high : request.slpn.toNat + request.nlp.toNat ≤ range.slpn + range.nlp

instance (request : Request) (range : LPNRange) :
    Decidable (request.Within range) :=
  decidable_of_iff (range.slpn ≤ request.slpn.toNat ∧
      request.slpn.toNat + request.nlp.toNat ≤ range.slpn + range.nlp)
    ⟨fun h => ⟨h.1, h.2⟩, fun h => ⟨h.low, h.high⟩⟩

namespace Subsystem

def Isolated (cfg : ConfigData) (subsystem : Subsystem) : Prop :=
  ∀ ns ∈ subsystem.lNamespaces, ∀ slba nlblk : UInt64,
    1 ≤ nlblk.toNat → slba.toNat + nlblk.toNat ≤ ns.info.size.toNat →
      (convertUnit cfg ns slba nlblk).Within ns.info.range

/-- The sum that rounds up may pass 64 bits, which only makes it smaller. -/
theorem toNat_roundUp_le (count off ratio : UInt64) (hratio : 0 < ratio.toNat) :
    (count + off + ratio - 1).toNat ≤
      count.toNat + off.toNat + ratio.toNat - 1 := by
  rw [UInt64.toNat_sub, UInt64.toNat_add, UInt64.toNat_add]
  have hone : (1 : UInt64).toNat = 1 := rfl
  rw [hone]
  omega

/-- Blocks that share pages: the pages up to the end of an access. -/
theorem div_add_roundUp_le {slba count size ratio : Nat} (hratio : 0 < ratio)
    (hsize : slba + count ≤ size) :
    slba / ratio + (count + slba % ratio + ratio - 1) / ratio ≤
      (size + ratio - 1) / ratio := by
  have hslba := Nat.div_add_mod slba ratio
  rw [Nat.add_comm, ← Nat.add_mul_div_left _ _ hratio]
  apply Nat.div_le_div_right
  omega

theorem convertUnit_within {cfg : ConfigData} {ns : Namespace}
    (hroomy : ns.Roomy cfg)
    (hinside : ns.info.range.slpn + ns.info.range.nlp < 2 ^ 64)
    {slba nlblk : UInt64} (hblocks : 1 ≤ nlblk.toNat)
    (hsize : slba.toNat + nlblk.toNat ≤ ns.info.size.toNat) :
    (convertUnit cfg ns slba nlblk).Within ns.info.range := by
  have hfirst : (UInt64.ofNat ns.info.range.slpn).toNat =
      ns.info.range.slpn := by
    apply UInt64.toNat_ofNat_of_lt'
    change _ < 2 ^ 64
    omega
  have hzero : cfg.logicalPageSize / ns.info.lbaSize = 0 ↔
      cfg.logicalPageSize.toNat / ns.info.lbaSize.toNat = 0 := by
    rw [← UInt32.toNat_div]
    exact ⟨fun h => by rw [h]; rfl, fun h => UInt32.toNat_inj.mp h⟩
  unfold Namespace.Roomy ConfigData.blockPages at hroomy
  unfold convertUnit
  dsimp only at hroomy ⊢
  by_cases hratio : cfg.logicalPageSize / ns.info.lbaSize = 0
  · rw [if_pos (hzero.mp hratio)] at hroomy
    rw [if_pos hratio]
    have hlba : (ns.info.lbaSize / cfg.logicalPageSize).toUInt64.toNat =
        ns.info.lbaSize.toNat / cfg.logicalPageSize.toNat := by
      rw [UInt32.toNat_toUInt64, UInt32.toNat_div]
    generalize ns.info.lbaSize.toNat / cfg.logicalPageSize.toNat = ratio
      at hroomy hlba
    have hsum : (slba.toNat + nlblk.toNat) * ratio ≤ ns.info.range.nlp :=
      Nat.le_trans (Nat.mul_le_mul_right ratio hsize) hroomy
    rw [Nat.add_mul] at hsum
    have hslpn : (slba * (ns.info.lbaSize / cfg.logicalPageSize).toUInt64 +
        UInt64.ofNat ns.info.range.slpn).toNat =
          slba.toNat * ratio + ns.info.range.slpn := by
      rw [UInt64.toNat_add, UInt64.toNat_mul, hlba, hfirst,
        Nat.mod_eq_of_lt (by omega), Nat.mod_eq_of_lt (by omega)]
    have hnlp : (nlblk *
        (ns.info.lbaSize / cfg.logicalPageSize).toUInt64).toNat =
          nlblk.toNat * ratio := by
      rw [UInt64.toNat_mul, hlba, Nat.mod_eq_of_lt (by omega)]
    refine ⟨?_, ?_⟩
    · dsimp only
      omega
    · dsimp only
      omega
  · rw [if_neg fun h => hratio (hzero.mpr h)] at hroomy
    rw [if_neg hratio]
    have hlba : (cfg.logicalPageSize / ns.info.lbaSize).toUInt64.toNat =
        cfg.logicalPageSize.toNat / ns.info.lbaSize.toNat := by
      rw [UInt32.toNat_toUInt64, UInt32.toNat_div]
    have hpositive : 0 < cfg.logicalPageSize.toNat / ns.info.lbaSize.toNat :=
      Nat.pos_of_ne_zero fun h => hratio (hzero.mpr h)
    generalize cfg.logicalPageSize.toNat / ns.info.lbaSize.toNat = ratio
      at hroomy hlba hpositive
    have hend := div_add_roundUp_le hpositive hsize
    have hfilled : 1 ≤ (nlblk.toNat + slba.toNat % ratio + ratio - 1) / ratio :=
      (Nat.one_le_div_iff hpositive).mpr (by omega)
    have hslpn : (slba / (cfg.logicalPageSize / ns.info.lbaSize).toUInt64 +
        UInt64.ofNat ns.info.range.slpn).toNat =
          slba.toNat / ratio + ns.info.range.slpn := by
      rw [UInt64.toNat_add, UInt64.toNat_div, hlba, hfirst,
        Nat.mod_eq_of_lt (by omega)]
    have hnlp : ((nlblk +
        slba % (cfg.logicalPageSize / ns.info.lbaSize).toUInt64 +
        (cfg.logicalPageSize / ns.info.lbaSize).toUInt64 - 1) /
        (cfg.logicalPageSize / ns.info.lbaSize).toUInt64).toNat ≤
          (nlblk.toNat + slba.toNat % ratio + ratio - 1) / ratio := by
      rw [UInt64.toNat_div, hlba]
      apply Nat.div_le_div_right
      have hle := toNat_roundUp_le nlblk
        (slba % (cfg.logicalPageSize / ns.info.lbaSize).toUInt64)
        (cfg.logicalPageSize / ns.info.lbaSize).toUInt64 (by omega)
      rw [UInt64.toNat_mod, hlba] at hle
      exact hle
    refine ⟨?_, ?_⟩
    · dsimp only
      rw [hslpn]
      exact Nat.le_add_left _ _
    · dsimp only
      omega

/-! The conditions on the steps. -/

end Subsystem

/-- The format command that a step submits, and the namespace that it finds. -/
def Step.format (subsystem : Subsystem) (step : Step) :
    Option (Command × Namespace) :=
  (step.admin .formatNVM).bind fun req =>
    if Subsystem.refusesFormat req then none
    else (subsystem.lNamespaces.find? (·.nsid = req.namespaceID)).map (req, ·)

/-- The size of a block in the format that a command asks for. -/
def Command.blockSize (req : Command) : UInt32 :=
  Subsystem.lbaSizes.getD (req.dword10 &&& 0x0F).toUInt8.toNat 0

def ConfigData.deviceBlocks (cfg : ConfigData) (lbaSize : UInt32) : UInt64 :=
  UInt64.ofNat cfg.totalLogicalPages * cfg.logicalPageSize.toUInt64 /
    lbaSize.toUInt64

/-- A creation is granted pages for all the blocks it asks for. -/
def Information.Granted (cfg : ConfigData) (info : Information)
    (lbaSize : UInt32) : Prop :=
  cfg.blockPages lbaSize info.size ≤
    (Subsystem.requestedLogicalPages cfg info lbaSize).toNat
  deriving Decidable

/-- The same for what a creation reads, in a format that there is. -/
def Arrival.Granted (cfg : ConfigData) (arrival : Arrival) : Prop :=
  ∀ lbaSize ∈ Subsystem.lbaSizes[
    (Subsystem.informationOf arrival).lbaFormatIndex.toNat]?,
      (Subsystem.informationOf arrival).Granted cfg lbaSize

instance (cfg : ConfigData) (arrival : Arrival) :
    Decidable (arrival.Granted cfg) :=
  Option.decidableForallMem _

/-- A namespace that is created is granted enough pages, and one that is
formatted has pages for the blocks of the whole device. -/
structure Step.KeepsRoom (cfg : ConfigData) (subsystem : Subsystem)
    (step : Step) : Prop where
  creation : ∀ arrival ∈ step.creation subsystem, arrival.Granted cfg
  format : ∀ found ∈ step.format subsystem,
    cfg.blockPages found.1.blockSize (cfg.deviceBlocks found.1.blockSize) ≤
      found.2.info.range.nlp

instance (cfg : ConfigData) (subsystem : Subsystem) (step : Step) :
    Decidable (step.KeepsRoom cfg subsystem) :=
  decidable_of_iff
    ((∀ arrival ∈ step.creation subsystem, arrival.Granted cfg) ∧
      ∀ found ∈ step.format subsystem,
        cfg.blockPages found.1.blockSize
          (cfg.deviceBlocks found.1.blockSize) ≤ found.2.info.range.nlp)
    ⟨fun h => ⟨h.1, h.2⟩, fun h => ⟨h.creation, h.format⟩⟩

namespace Subsystem

section

variable {cfg : ConfigData} {subsystem after : Subsystem}

/-- No two namespaces are at one address, and none is where the next will
be. -/
structure Addressed (subsystem : Subsystem) : Prop where
  unique : (subsystem.lNamespaces.map Namespace.address).Nodup
  below : ∀ ns ∈ subsystem.lNamespaces, ns.address < subsystem.nextAddress

theorem Addressed.eq_of_address (h : Addressed subsystem)
    {left right : Namespace} (hleft : left ∈ subsystem.lNamespaces)
    (hright : right ∈ subsystem.lNamespaces)
    (hsame : left.address = right.address) : left = right :=
  List.inj_on_of_nodup_map h.unique hleft hright hsame

theorem Addressed.mapped (h : Addressed subsystem)
    {update : Namespace → Namespace}
    (hnamespaces : after.lNamespaces = subsystem.lNamespaces.map update)
    (haddress : after.nextAddress = subsystem.nextAddress)
    (hkept : ∀ ns, (update ns).address = ns.address) : Addressed after := by
  refine ⟨?_, ?_⟩
  · rw [hnamespaces, List.map_map]
    have hsame : Namespace.address ∘ update = Namespace.address := funext hkept
    rw [hsame]
    exact h.unique
  · intro ns hns
    rw [hnamespaces] at hns
    obtain ⟨before, hbefore, rfl⟩ := List.mem_map.mp hns
    rw [hkept, haddress]
    exact h.below before hbefore

theorem Addressed.same (h : Addressed subsystem)
    (hnamespaces : after.lNamespaces = subsystem.lNamespaces)
    (haddress : after.nextAddress = subsystem.nextAddress) :
    Addressed after := by
  refine ⟨?_, ?_⟩
  · rw [hnamespaces]
    exact h.unique
  · rw [hnamespaces, haddress]
    exact h.below

theorem mem_sorted {ns other : Namespace}
    (hnamespaces : after.lNamespaces =
      sortNamespaces (subsystem.lNamespaces ++ [ns])) :
    other ∈ after.lNamespaces ↔ other = ns ∨ other ∈ subsystem.lNamespaces := by
  rw [hnamespaces, (sortNamespaces_perm _ ns).mem_iff, List.mem_cons]

theorem Changes.addressed {step : Step} (h : Changes cfg step subsystem after)
    (haddressed : Addressed subsystem) : Addressed after := by
  cases h with
  | keeps hnamespaces hallocated haddress =>
      exact haddressed.same hnamespaces haddress
  | reserves req nsid hcause hselected hunnamed hfree havailable hnamespaces
      hallocated haddress =>
      exact haddressed.same hnamespaces haddress
  | attaches update hnamespaces hallocated haddress =>
      exact haddressed.mapped hnamespaces haddress fun ns => rfl
  | formats req ns hcause haccepted hfound hnamespaces hallocated haddress =>
      apply haddressed.mapped hnamespaces haddress
      intro other
      split <;> rfl
  | destroys req ns hcause hselected hfound hnamespaces hallocated haddress =>
      have hfewer : after.lNamespaces.Sublist subsystem.lNamespaces := by
        rw [hnamespaces]
        exact List.eraseP_sublist
      refine ⟨haddressed.unique.sublist (hfewer.map _), ?_⟩
      intro other hother
      rw [haddress]
      exact haddressed.below other (hfewer.subset hother)
  | creates ns arrival size info range hcause hasked htakes hinfo
      hnamespaces hallocated haddress hnew =>
      refine ⟨?_, ?_⟩
      · have hperm : (after.lNamespaces.map Namespace.address).Perm
            (ns.address :: subsystem.lNamespaces.map Namespace.address) := by
          rw [hnamespaces]
          exact (sortNamespaces_perm _ ns).map Namespace.address
        rw [hperm.nodup_iff, List.nodup_cons]
        refine ⟨?_, haddressed.unique⟩
        intro hlisted
        obtain ⟨other, hother, hsame⟩ := List.mem_map.mp hlisted
        have hbelow := haddressed.below other hother
        omega
      · intro other hother
        rcases (mem_sorted hnamespaces).mp hother with hsame | hlisted
        · subst hsame
          omega
        · have hbelow := haddressed.below other hlisted
          omega
  | refuses nsid hnamespaces hallocated haddress =>
      exact haddressed.same hnamespaces haddress

theorem Changes.roomy {step : Step} (h : Changes cfg step subsystem after)
    (hroom : step.KeepsRoom cfg subsystem)
    (haddressed : Addressed subsystem)
    (hroomy : ∀ ns ∈ subsystem.lNamespaces, ns.Roomy cfg) :
    ∀ ns ∈ after.lNamespaces, ns.Roomy cfg := by
  cases h with
  | keeps hnamespaces =>
      rw [hnamespaces]
      exact hroomy
  | reserves req nsid hcause hselected hunnamed hfree havailable hnamespaces =>
      rw [hnamespaces]
      exact hroomy
  | attaches update hnamespaces =>
      intro ns hns
      rw [hnamespaces] at hns
      obtain ⟨before, hbefore, rfl⟩ := List.mem_map.mp hns
      exact hroomy before hbefore
  | formats req ns hcause haccepted hfound hnamespaces =>
      have hformat : step.format subsystem = some (req, ns) := by
        unfold Step.format
        rw [hcause, Option.bind_some, haccepted, if_neg Bool.false_ne_true,
          hfound]
        rfl
      intro other hother
      rw [hnamespaces] at hother
      obtain ⟨before, hbefore, rfl⟩ := List.mem_map.mp hother
      split
      · next hsame =>
          have hequal := haddressed.eq_of_address hbefore
            (List.mem_of_find?_eq_some hfound) hsame
          rw [hequal]
          exact hroom.format (req, ns) hformat
      · exact hroomy before hbefore
  | destroys req ns hcause hselected hfound hnamespaces =>
      intro other hother
      rw [hnamespaces] at hother
      exact hroomy other (List.mem_of_mem_eraseP hother)
  | creates ns arrival size info range hcause hasked htakes hinfo
      hnamespaces =>
      intro other hother
      rcases (mem_sorted hnamespaces).mp hother with hsame | hlisted
      · subst hsame
        have hsize := htakes.size
        have hpages := htakes.pages
        subst hasked
        have hknown : lbaSizes[(informationOf arrival).lbaFormatIndex.toNat]? =
            some size := by
          unfold lbaSize at hsize
          dsimp only at hsize
          split at hsize
          · next found hfound =>
              cases hsize
              exact hfound
          · cases hsize
        have hgranted := hroom.creation arrival hcause size hknown
        unfold Namespace.Roomy
        rw [hinfo]
        dsimp only
        rw [hpages]
        exact hgranted
      · exact hroomy other hlisted
  | refuses nsid hnamespaces =>
      rw [hnamespaces]
      exact hroomy

theorem Packed.addressed {info : Information} {count : Nat}
    (h : Packed cfg info count subsystem) : Addressed subsystem := by
  refine ⟨?_, ?_⟩
  · rw [h.namespaces, List.map_map]
    change ((List.range count).map id).Nodup
    rw [List.map_id]
    exact List.nodup_range
  · intro ns hns
    rw [h.namespaces] at hns
    obtain ⟨i, hi, rfl⟩ := List.mem_map.mp hns
    rw [h.address]
    exact List.mem_range.mp hi

theorem Initial.roomy {nNamespaces : UInt16} {lba : UInt32}
    {info : Information} (h : Initial cfg nNamespaces lba info subsystem)
    (hgranted : (defaultInformation cfg nNamespaces lba 0).Granted cfg lba) :
    ∀ ns ∈ subsystem.lNamespaces, ns.Roomy cfg := by
  intro ns hns
  rw [h.packed.namespaces] at hns
  obtain ⟨i, hi, rfl⟩ := List.mem_map.mp hns
  rw [List.mem_range] at hi
  obtain ⟨index, hinfo⟩ := h.shared (by
    intro hnone
    rw [hnone] at hi
    exact Nat.not_lt_zero i hi)
  subst hinfo
  exact hgranted

theorem Placed.isolated (h : Placed cfg subsystem)
    (hroomy : ∀ ns ∈ subsystem.lNamespaces, ns.Roomy cfg) :
    Isolated cfg subsystem := by
  intro ns hns slba nlblk hblocks hsize
  have hinside := (h.inside ns.info.range (List.mem_map_of_mem hns)).2
  exact convertUnit_within (hroomy ns hns)
    (Nat.lt_of_le_of_lt hinside cfg.pages_lt) hblocks hsize

end

/-- In a run whose creations and formats meet the conditions every access to
the blocks of a namespace stays in its pages, in every state. -/
theorem namespace_isolation (cfg : ConfigData) (nNamespaces : UInt16)
    (lba : UInt32) (controller : Controller) (queueAllocated : UInt32)
    {start : Subsystem}
    (hstart : init cfg nNamespaces lba (make controller queueAllocated) =
      .ok start)
    (hgranted : (defaultInformation cfg nNamespaces lba 0).Granted cfg lba)
    (steps : List Step)
    (hrun : Along (fun reached step => step.perform cfg reached)
      (fun reached step => step.KeepsRoom cfg reached) start steps) :
    Returns (fun reached => Placed cfg reached ∧ Isolated cfg reached)
      (fun _ => True) (performAll cfg start steps) := by
  obtain ⟨info, hinitial⟩ := (init_returns cfg nNamespaces lba controller
    queueAllocated).of_ok hstart
  have hstep : ∀ (reached : Subsystem) (step : Step),
      (Placed cfg reached ∧ Addressed reached ∧
        ∀ ns ∈ reached.lNamespaces, ns.Roomy cfg) →
      step.KeepsRoom cfg reached →
      Returns (fun after => Placed cfg after ∧ Addressed after ∧
        ∀ ns ∈ after.lNamespaces, ns.Roomy cfg) (fun _ => True)
        (step.perform cfg reached) := by
    intro reached step hinv hroom
    obtain ⟨hplaced, haddressed, hroomy⟩ := hinv
    refine (step.perform_changes cfg reached).mono ?_ fun _ _ => trivial
    intro after hchanges
    exact ⟨hchanges.placed hplaced, hchanges.addressed haddressed,
      hchanges.roomy hroom haddressed hroomy⟩
  refine (hrun.returns hstep ⟨hinitial.packed.placed,
    hinitial.packed.addressed, hinitial.roomy hgranted⟩).mono ?_ fun _ h => h
  intro reached hinv
  exact ⟨hinv.1, hinv.1.isolated hinv.2.2⟩

/-! Two default namespaces on a device whose pages they do not share
evenly. -/

def oddConfig : ConfigData :=
  { sampleConfig with totalLogicalPages := 3000
                      pages_lt := Nat.le_of_ble_eq_true rfl }

/-- The first namespace has 12000 blocks, eight in a page, and 1024 pages; its
last block is in a page of the second. -/
theorem first_namespace_not_isolated :
    ¬Returns (Isolated oddConfig) (fun _ => True)
      (init oddConfig 2 512 (make (Controller.enabled 1 1 64) 0)) := by
  intro hisolated
  have hlast : Returns (fun start => ∀ ns ∈ start.lNamespaces.head?,
        (11999 : UInt64).toNat + (1 : UInt64).toNat ≤ ns.info.size.toNat →
          (convertUnit oddConfig ns 11999 1).Within ns.info.range)
      (fun _ => True)
      (init oddConfig 2 512 (make (Controller.enabled 1 1 64) 0)) := by
    refine hisolated.mono ?_ fun _ h => h
    intro start h ns hns hsize
    exact h ns (List.mem_of_mem_head? hns) 11999 1 (Nat.le_refl 1) hsize
  revert hlast
  decide +kernel

theorem namespace_isolation_create_format :
    Returns (fun reached => Placed sampleConfig reached ∧
        Isolated sampleConfig reached)
      (fun _ => True)
      (performAll sampleConfig (make (Controller.enabled 1 1 64) 0)
        (creationSteps 8192 0 ++ [formatOf 1 3])) :=
  namespace_isolation sampleConfig 0 512 (Controller.enabled 1 1 64) 0 rfl
    (by decide +kernel) (creationSteps 8192 0 ++ [formatOf 1 3])
    (by decide +kernel)

end Subsystem

end SimpleSSD.HIL.NVMe
