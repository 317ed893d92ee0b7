import SimpleSSD.HIL.NVMe.Subsystem

namespace SimpleSSD.HIL.NVMe

/-! Namespaces lie apart, so the search for free pages never meets a range that
reaches into another. -/

def LPNRange.Apart (left right : LPNRange) : Prop :=
  left.slpn + left.nlp ≤ right.slpn ∨ right.slpn + right.nlp ≤ left.slpn

theorem LPNRange.Apart.symm {left right : LPNRange}
    (apart : left.Apart right) : right.Apart left := Or.symm apart

namespace Subsystem

def ranges (subsystem : Subsystem) : List LPNRange :=
  subsystem.lNamespaces.map fun ns => ns.info.range

/-- Every namespace has pages of the device, and no two share one. -/
structure Placed (cfg : ConfigData) (subsystem : Subsystem) : Prop where
  inside : ∀ range ∈ subsystem.ranges,
    0 < range.nlp ∧ range.slpn + range.nlp ≤ cfg.totalLogicalPages
  apart : subsystem.ranges.Pairwise LPNRange.Apart

section Invert

variable {cfg : ConfigData} {subsystem : Subsystem}

/-- The pieces lie in `last`, apart from the ranges that were taken out. -/
theorem invert_ok {ranges free : List LPNRange} {last : LPNRange}
    (ordered : ranges.Pairwise fun left right =>
      left.slpn + left.nlp ≤ right.slpn)
    (inside : ∀ range ∈ ranges, last.slpn ≤ range.slpn ∧
      range.slpn + range.nlp ≤ last.slpn + last.nlp) :
    ∃ pieces, invert ranges free last = .ok (free ++ pieces) ∧
      ∀ piece ∈ pieces, last.slpn ≤ piece.slpn ∧
        piece.slpn + piece.nlp ≤ last.slpn + last.nlp ∧
        ∀ range ∈ ranges, piece.Apart range := by
  induction ranges generalizing free last with
  | nil =>
      refine ⟨[last], rfl, ?_⟩
      intro piece member
      rw [List.mem_singleton] at member
      subst member
      exact ⟨Nat.le_refl _, Nat.le_refl _, by simp⟩
  | cons range rest induction =>
      obtain ⟨before, later⟩ := List.pairwise_cons.mp ordered
      have here := inside range (.head _)
      obtain ⟨pieces, result, spread⟩ := @induction
        (free ++ [⟨last.slpn, range.slpn - last.slpn⟩])
        ⟨range.slpn + range.nlp,
          last.slpn + last.nlp - range.slpn - range.nlp⟩ later (by
          intro other member
          have bounds := inside other (.tail _ member)
          have follows := before other member
          dsimp only
          omega)
      refine ⟨⟨last.slpn, range.slpn - last.slpn⟩ :: pieces, ?_, ?_⟩
      · unfold invert
        rw [if_pos here, result, List.append_assoc]
        rfl
      · intro piece member
        rcases List.mem_cons.mp member with first | member
        · -- the piece below `range`, and so below all that follow it
          subst first
          refine ⟨Nat.le_refl _, by dsimp only; omega, ?_⟩
          intro other listed
          left
          rcases List.mem_cons.mp listed with same | listed
          · subst same
            dsimp only
            omega
          · have follows := before other listed
            dsimp only
            omega
        · obtain ⟨low, high, clear⟩ := spread piece member
          dsimp only at low high
          refine ⟨by omega, by omega, ?_⟩
          intro other listed
          rcases List.mem_cons.mp listed with same | listed
          · subst same
            exact .inr low
          · exact clear other listed

theorem sortRanges_perm (ranges : List LPNRange) :
    (sortRanges ranges).Perm ranges :=
  List.perm_insertionSort _ _

theorem sortRanges_ordered {ranges : List LPNRange}
    (filled : ∀ range ∈ ranges, 0 < range.nlp)
    (apart : ranges.Pairwise LPNRange.Apart) :
    (sortRanges ranges).Pairwise fun left right =>
      left.slpn + left.nlp ≤ right.slpn := by
  have sorted : (sortRanges ranges).Pairwise fun left right =>
      left.slpn ≤ right.slpn := by
    have : Std.Total fun left right : LPNRange => left.slpn ≤ right.slpn :=
      ⟨fun left right => Nat.le_total _ _⟩
    have : IsTrans LPNRange fun left right => left.slpn ≤ right.slpn :=
      ⟨fun _ _ _ => Nat.le_trans⟩
    exact List.pairwise_insertionSort _ _
  have clear : (sortRanges ranges).Pairwise LPNRange.Apart :=
    ((sortRanges_perm ranges).pairwise_iff LPNRange.Apart.symm).mpr apart
  refine (sorted.and clear).imp_of_mem ?_
  intro left right leftMember rightMember both
  have leftFilled := filled left ((sortRanges_perm ranges).mem_iff.mp leftMember)
  have rightFilled :=
    filled right ((sortRanges_perm ranges).mem_iff.mp rightMember)
  obtain ⟨order, disjoint | disjoint⟩ := both
  · exact disjoint
  · omega

theorem Placed.unallocated (placed : Placed cfg subsystem) :
    ∃ free, unallocated cfg subsystem = .ok free ∧
      ∀ piece ∈ free, piece.slpn + piece.nlp ≤ cfg.totalLogicalPages ∧
        ∀ range ∈ subsystem.ranges, piece.Apart range := by
  have members := fun range =>
    (sortRanges_perm subsystem.ranges).mem_iff (a := range)
  obtain ⟨pieces, result, spread⟩ := @invert_ok (sortRanges subsystem.ranges)
    [] ⟨0, cfg.totalLogicalPages⟩
    (sortRanges_ordered (fun range member => (placed.inside range member).1)
      placed.apart) (by
      intro range member
      have bounds := placed.inside range ((members range).mp member)
      dsimp only
      omega)
  refine ⟨pieces, result, ?_⟩
  intro piece member
  obtain ⟨_, high, clear⟩ := spread piece member
  dsimp only at high
  exact ⟨by omega, fun range listed =>
    clear range ((members range).mpr listed)⟩

end Invert

section Creation

variable {cfg : ConfigData} {subsystem created : Subsystem}

theorem Placed.of_ranges (placed : Placed cfg subsystem)
    (same : created.ranges = subsystem.ranges) : Placed cfg created := by
  refine ⟨?_, ?_⟩
  · rw [same]
    exact placed.inside
  · rw [same]
    exact placed.apart

theorem Placed.insert (placed : Placed cfg subsystem) {range : LPNRange}
    (listed : created.ranges.Perm (range :: subsystem.ranges))
    (filled : 0 < range.nlp)
    (inside : range.slpn + range.nlp ≤ cfg.totalLogicalPages)
    (clear : ∀ other ∈ subsystem.ranges, range.Apart other) :
    Placed cfg created := by
  refine ⟨?_, ?_⟩
  · intro other member
    rcases List.mem_cons.mp (listed.mem_iff.mp member) with same | member
    · subst same
      exact ⟨filled, inside⟩
    · exact placed.inside other member
  · rw [listed.pairwise_iff LPNRange.Apart.symm]
    exact List.pairwise_cons.mpr ⟨clear, placed.apart⟩

theorem sortNamespaces_perm (namespaces : List Namespace) (ns : Namespace) :
    (sortNamespaces (namespaces ++ [ns])).Perm (ns :: namespaces) :=
  (List.perm_insertionSort _ _).trans List.perm_append_comm

theorem ranges_sorted {ns : Namespace}
    (namespaces : created.lNamespaces =
      sortNamespaces (subsystem.lNamespaces ++ [ns])) :
    created.ranges.Perm (ns.info.range :: subsystem.ranges) := by
  unfold ranges
  rw [namespaces]
  exact (sortNamespaces_perm _ ns).map fun ns => ns.info.range

theorem Placed.addNamespace (placed : Placed cfg subsystem) {nsid : UInt32}
    {info : Information} {requested : UInt64} {range : LPNRange}
    (filled : 0 < range.nlp)
    (inside : range.slpn + range.nlp ≤ cfg.totalLogicalPages)
    (clear : ∀ other ∈ subsystem.ranges, range.Apart other) :
    Placed cfg (addNamespace cfg subsystem nsid info requested range) :=
  placed.insert (ranges_sorted rfl) filled inside clear

structure SameWork (before after : Subsystem) : Prop where
  contexts : after.contexts = before.contexts
  trims : after.trims = before.trims
  pending : after.pending = before.pending
  responses : after.responses = before.responses
  submitted : after.submitted = before.submitted

theorem createNamespace_ok (placed : Placed cfg subsystem) {nsid : UInt32}
    {info : Information}
    (known : info.lbaFormatIndex.toNat < lbaSizes.length)
    (unplaced : info.range.nlp = 0) :
    ∃ ret created, createNamespace cfg subsystem nsid info =
      .ok (ret, created) ∧ Placed cfg created ∧ SameWork subsystem created := by
  have size : lbaSize info.lbaFormatIndex =
      .ok (lbaSizes.get ⟨info.lbaFormatIndex.toNat, known⟩) := by
    unfold lbaSize
    rw [List.getElem?_eq_getElem known]
    rfl
  obtain ⟨free, searched, spread⟩ := placed.unallocated
  unfold createNamespace
  rw [size]
  dsimp only [bind, Except.bind]
  split
  · exact ⟨false, subsystem, rfl, placed, rfl, rfl, rfl, rfl, rfl⟩
  rw [searched]
  dsimp only
  cases found : free.find? _ with
  | none =>
      dsimp only
      rw [if_pos unplaced]
      exact ⟨false, subsystem, rfl, placed, rfl, rfl, rfl, rfl, rfl⟩
  | some piece =>
      have member := List.mem_of_find?_eq_some found
      have fits := List.find?_some found
      rw [decide_eq_true_eq] at fits
      obtain ⟨inside, clear⟩ := spread piece member
      dsimp only
      split
      · exact ⟨false, subsystem, rfl, placed, rfl, rfl, rfl, rfl, rfl⟩
      · next filled =>
          refine ⟨true, _, rfl, ?_, rfl, rfl, rfl, rfl, rfl⟩
          refine placed.addNamespace (Nat.pos_of_ne_zero filled) ?_ ?_
          · dsimp only
            omega
          · intro other listed
            rcases clear other listed with below | above
            · left
              dsimp only
              omega
            · exact .inr above

theorem find_perm_eraseP {α : Type} {items : List α} {select : α → Bool}
    {item : α} (found : items.find? select = some item) :
    items.Perm (item :: items.eraseP select) := by
  obtain ⟨chosen, before, behind, split, skipped⟩ :=
    List.find?_eq_some_iff_append.mp found
  have missed : ∀ other ∈ before, ¬select other = true := by
    intro other member
    simpa using skipped other member
  rw [split, List.eraseP_append_right _ missed,
    List.eraseP_cons_of_pos chosen]
  exact List.perm_middle

theorem Placed.destroyNamespace (placed : Placed cfg subsystem)
    (nsid : UInt32) :
    Placed cfg (destroyNamespace cfg subsystem nsid).2 := by
  unfold Subsystem.destroyNamespace
  split
  · exact placed
  · have fewer := (List.eraseP_sublist (p := fun ns : Namespace =>
      decide (ns.nsid = nsid)) (l := subsystem.lNamespaces)).map
        fun ns => ns.info.range
    exact ⟨fun range member => placed.inside range (fewer.subset member),
      placed.apart.sublist fewer⟩

end Creation

end Subsystem

end SimpleSSD.HIL.NVMe
