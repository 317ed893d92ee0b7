import SimpleSSD.HIL.NVMe.Completion
import SimpleSSD.HIL.NVMe.Initialization

namespace SimpleSSD.HIL.NVMe

open Data (Returns Along)

/-! `allocatedLogicalPages` counts the pages of the namespaces as long as each
namespace is deleted with the size that it was created with. -/

def Step.deletes (subsystem : Subsystem) (step : Step) : Option Namespace :=
  (step.admin .namespaceManagement).bind fun req =>
    if Subsystem.selectOf req = 0x01 then
      subsystem.lNamespaces.find? (·.nsid = req.namespaceID)
    else none

/-- The blocks of the namespace fill the pages of its range, and no more. -/
def Namespace.Whole (cfg : ConfigData) (ns : Namespace) : Prop :=
  ns.info.size.toNat * ns.info.lbaSize.toNat % 2 ^ 64 /
    cfg.logicalPageSize.toNat = ns.info.range.nlp
  deriving Decidable

def Step.DeletesWhole (cfg : ConfigData) (subsystem : Subsystem)
    (step : Step) : Prop :=
  ∀ ns ∈ step.deletes subsystem, ns.Whole cfg

instance (cfg : ConfigData) (subsystem : Subsystem) (step : Step) :
    Decidable (step.DeletesWhole cfg subsystem) :=
  Option.decidableForallMem (step.deletes subsystem)

namespace Subsystem

def usedPages (subsystem : Subsystem) : Nat :=
  (subsystem.ranges.map LPNRange.nlp).sum

def Accurate (subsystem : Subsystem) : Prop :=
  subsystem.allocatedLogicalPages.toNat = subsystem.usedPages
  deriving Decidable

section

variable {cfg : ConfigData} {subsystem after : Subsystem}

theorem sum_le_of_ordered {ranges : List LPNRange} {low high : Nat}
    (hordered : ranges.Pairwise fun left right =>
      left.slpn + left.nlp ≤ right.slpn)
    (hinside : ∀ range ∈ ranges,
      low ≤ range.slpn ∧ range.slpn + range.nlp ≤ high)
    (hle : low ≤ high) : low + (ranges.map LPNRange.nlp).sum ≤ high := by
  induction ranges generalizing low with
  | nil => simpa using hle
  | cons range rest ih =>
      obtain ⟨hfirst, hrest⟩ := List.pairwise_cons.mp hordered
      have hhere := hinside range (.head _)
      have hsum := ih hrest (fun other hother =>
        ⟨hfirst other hother, (hinside other (.tail _ hother)).2⟩) hhere.2
      rw [List.map_cons, List.sum_cons]
      omega

/-- Ranges that lie apart have together no more pages than the device. -/
theorem Placed.usedPages_le (h : Placed cfg subsystem) :
    subsystem.usedPages ≤ cfg.totalLogicalPages := by
  have hordered := sortRanges_ordered
    (fun range hrange => (h.inside range hrange).1) h.apart
  have hsum := @sum_le_of_ordered _ 0 cfg.totalLogicalPages hordered (by
    intro range hrange
    have hmember := (sortRanges_perm subsystem.ranges).mem_iff.mp hrange
    exact ⟨Nat.zero_le _, (h.inside range hmember).2⟩) (Nat.zero_le _)
  rw [Nat.zero_add] at hsum
  rw [((sortRanges_perm subsystem.ranges).map LPNRange.nlp).sum_eq] at hsum
  exact hsum

theorem Accurate.of_ranges (h : Accurate subsystem)
    (hallocated :
      after.allocatedLogicalPages = subsystem.allocatedLogicalPages)
    (hranges : after.ranges = subsystem.ranges) : Accurate after := by
  unfold Accurate usedPages
  rw [hallocated, hranges]
  exact h

theorem usedPages_eraseP {nsid : UInt32} {ns : Namespace}
    (hfound : subsystem.lNamespaces.find? (·.nsid = nsid) = some ns)
    (hnamespaces :
      after.lNamespaces = subsystem.lNamespaces.eraseP (·.nsid = nsid)) :
    subsystem.usedPages = ns.info.range.nlp + after.usedPages := by
  have hperm := ((find_perm_eraseP hfound).map fun other =>
    other.info.range.nlp).sum_eq
  unfold usedPages ranges
  rw [hnamespaces, List.map_map, List.map_map]
  exact hperm

/-- What the deletion takes from the counter. -/
theorem toNat_whole {ns : Namespace} (h : ns.Whole cfg) :
    (ns.info.size * ns.info.lbaSize.toUInt64 /
      cfg.logicalPageSize.toUInt64).toNat = ns.info.range.nlp := by
  rw [UInt64.toNat_div, UInt64.toNat_mul]
  exact h

theorem Changes.accurate {step : Step} (h : Changes cfg step subsystem after)
    (hplaced : Placed cfg subsystem) (hwhole : step.DeletesWhole cfg subsystem)
    (haccurate : Accurate subsystem) : Accurate after := by
  have htotal := cfg.pages_lt
  have hafter := (h.placed hplaced).usedPages_le
  cases h with
  | keeps hnamespaces hallocated =>
      exact haccurate.of_ranges hallocated (congrArg (List.map _) hnamespaces)
  | reserves req nsid hcause hselected hunnamed hfree havailable hnamespaces
      hallocated =>
      exact haccurate.of_ranges hallocated (congrArg (List.map _) hnamespaces)
  | attaches update hnamespaces hallocated =>
      apply haccurate.of_ranges hallocated
      unfold ranges
      rw [hnamespaces, List.map_map]
      rfl
  | formats req ns hcause haccepted hfound hnamespaces hallocated =>
      apply haccurate.of_ranges hallocated
      unfold ranges
      rw [hnamespaces, List.map_map]
      apply List.map_congr_left
      intro other _
      dsimp only [Function.comp_apply]
      split <;> rfl
  | destroys req ns hcause hselected hfound hnamespaces hallocated =>
      have hdeletes : step.deletes subsystem = some ns := by
        unfold Step.deletes
        rw [hcause, Option.bind_some, if_pos hselected]
        exact hfound
      have hpages := toNat_whole (hwhole ns hdeletes)
      have hused := usedPages_eraseP hfound hnamespaces
      unfold Accurate at haccurate ⊢
      rw [hallocated, UInt64.toNat_sub_of_le _ _ (by
        rw [UInt64.le_iff_toNat_le]
        omega)]
      omega
  | creates ns arrival size info range hcause hasked htakes hinfo
      hnamespaces hallocated =>
      have hused : after.usedPages = range.nlp + subsystem.usedPages := by
        have hperm := ((ranges_sorted hnamespaces).map LPNRange.nlp).sum_eq
        rw [hinfo] at hperm
        exact hperm
      have hpages := htakes.pages
      unfold Accurate at haccurate ⊢
      rw [hallocated, UInt64.toNat_add, Nat.mod_eq_of_lt (by omega)]
      omega
  | refuses nsid hnamespaces hallocated =>
      exact haccurate.of_ranges hallocated (congrArg (List.map _) hnamespaces)

theorem Packed.accurate {info : Information} {count : Nat}
    (h : Packed cfg info count subsystem) : Accurate subsystem := by
  unfold Accurate usedPages
  rw [h.allocated, h.ranges, List.map_map]
  change _ = (List.map (Function.const Nat (defaultPages cfg info)) _).sum
  rw [List.map_const, List.length_range, List.sum_replicate_nat]

end

/-- In a run that deletes only whole namespaces the counter is accurate in
every state. -/
theorem capacity_accounting (cfg : ConfigData) (nNamespaces : UInt16)
    (lba : UInt32) (controller : Controller) (queueAllocated : UInt32)
    {start : Subsystem}
    (hstart : init cfg nNamespaces lba (make controller queueAllocated) =
      .ok start)
    (steps : List Step)
    (hrun : Along (fun reached step => step.perform cfg reached)
      (fun reached step => step.DeletesWhole cfg reached) start steps) :
    Returns Accurate (fun _ => True) (performAll cfg start steps) := by
  obtain ⟨info, hinitial⟩ := (init_returns cfg nNamespaces lba controller
    queueAllocated).of_ok hstart
  have hstep : ∀ (reached : Subsystem) (step : Step),
      Placed cfg reached ∧ Accurate reached → step.DeletesWhole cfg reached →
      Returns (fun after => Placed cfg after ∧ Accurate after)
        (fun _ => True) (step.perform cfg reached) := by
    intro reached step hinv hwhole
    refine (step.perform_changes cfg reached).mono ?_ fun _ _ => trivial
    intro after hchanges
    exact ⟨hchanges.placed hinv.1, hchanges.accurate hinv.1 hwhole hinv.2⟩
  exact (hrun.returns hstep
    ⟨hinitial.packed.placed, hinitial.packed.accurate⟩).mono
      (fun _ h => h.2) fun _ h => h

/-! A namespace that is formatted to another block size claims the whole
device, and so much is taken from the counter when it is deleted. -/

def descriptionOf (size : UInt64) (lbaFormatIndex : UInt8) : Arrival where
  buffer k :=
    if k < 8 then (size >>> UInt64.ofNat (8 * k)).toUInt8
    else if k = 26 then lbaFormatIndex
    else 0
  differs := false

def creationSteps (size : UInt64) (lbaFormatIndex : UInt8) : List Step :=
  [.submit (adminCommandOf 0x0D 0 0x00), .call 0 noArrival,
    .call 0 (descriptionOf size lbaFormatIndex)]

def deletionOf (nsid : UInt32) : Step :=
  .submit (adminCommandOf 0x0D nsid 0x01)

def formatOf (nsid lbaFormatIndex : UInt32) : Step :=
  .submit (adminCommandOf 0x80 nsid lbaFormatIndex)

theorem format_then_delete_underflows :
    ¬Returns (fun start => Returns Accurate (fun _ => True)
        (performAll sampleConfig start
          (creationSteps 4096 0 ++ [formatOf 1 3, deletionOf 1])))
      (fun _ => True)
      (init sampleConfig 0 512 (make (Controller.enabled 1 1 64) 0)) := by
  decide +kernel

theorem capacity_accounting_create_delete :
    Returns Accurate (fun _ => True)
      (performAll sampleConfig (make (Controller.enabled 1 1 64) 0)
        (creationSteps 4096 0 ++ [deletionOf 1])) :=
  capacity_accounting sampleConfig 0 512 (Controller.enabled 1 1 64) 0 rfl
    (creationSteps 4096 0 ++ [deletionOf 1]) (by decide +kernel)

end Subsystem

end SimpleSSD.HIL.NVMe
