import SimpleSSD.HIL.NVMe.Capacity

namespace SimpleSSD.HIL.NVMe

open Data (Returns)

namespace Subsystem

/-! A creation adds its namespace, or leaves everything as it was. -/

/-- A namespace with so many pages can be placed: they are counted as free, and
lie somewhere between the others. -/
structure HasRoom (cfg : ConfigData) (subsystem : Subsystem)
    (requested : UInt64) : Prop where
  some : requested ≠ 0
  counted : requested ≤
    UInt64.ofNat cfg.totalLogicalPages - subsystem.allocatedLogicalPages
  gap : ∃ slpn, slpn + requested.toNat ≤ cfg.totalLogicalPages ∧
    ∀ range ∈ subsystem.ranges, LPNRange.Apart ⟨slpn, requested.toNat⟩ range

structure Requested (info : Information) (nsid : UInt32) (ns : Namespace) :
    Prop where
  nsid : ns.nsid = nsid
  size : ns.info.size = info.size
  capacity : ns.info.capacity = info.capacity
  format : ns.info.lbaFormatIndex = info.lbaFormatIndex
  lbaSize : lbaSize info.lbaFormatIndex = .ok ns.info.lbaSize

/-- One response is sent.  With success it names the one namespace that was
added, and with another status nothing has changed. -/
def AllOrNothing (info : Information) (before after : Subsystem) : Prop :=
  ∃ resp, after.responses = before.responses ++ [resp] ∧
    if resp.status = 0 then
      ∃ ns, Requested info resp.dword0 ns ∧
        after.lNamespaces.Perm (ns :: before.lNamespaces)
    else after.lNamespaces = before.lNamespaces ∧
      after.allocatedLogicalPages = before.allocatedLogicalPages

/-- The fields of the structure are those of a namespace that can be created;
otherwise no namespace can. -/
structure AllowedOrRefused (cfg : ConfigData) (arrival : Arrival)
    (subsystem : Subsystem) : Prop where
  format : (arrival.buffer 26).toNat < lbaSizes.length
  fields : arrival.buffer 30 = 0 ∧ arrival.buffer 29 = 0 ∨
    ¬HasRoom cfg subsystem (requestedLogicalPages cfg (informationOf arrival)
      (lbaSizes.getD (arrival.buffer 26).toNat 0))

section Room

variable {cfg : ConfigData} {subsystem : Subsystem}

theorem invert_keeps {ranges free pieces : List LPNRange}
    {last piece : LPNRange} (result : invert ranges free last = .ok pieces)
    (member : piece ∈ free) : piece ∈ pieces := by
  induction ranges generalizing free last with
  | nil =>
      cases result
      exact List.mem_append_left _ member
  | cons range rest induction =>
      unfold invert at result
      split at result
      · exact induction result (List.mem_append_left _ member)
      · cases result

theorem invert_covers {ranges free pieces : List LPNRange}
    {last gap : LPNRange} (result : invert ranges free last = .ok pieces)
    (ordered : ranges.Pairwise fun left right =>
      left.slpn + left.nlp ≤ right.slpn)
    (below : last.slpn ≤ gap.slpn)
    (above : gap.slpn + gap.nlp ≤ last.slpn + last.nlp)
    (apart : ∀ range ∈ ranges, gap.Apart range) :
    ∃ piece ∈ pieces, gap.nlp ≤ piece.nlp := by
  induction ranges generalizing free last with
  | nil =>
      cases result
      refine ⟨last, List.mem_append_right _ (.head _), ?_⟩
      omega
  | cons range rest induction =>
      obtain ⟨before, later⟩ := List.pairwise_cons.mp ordered
      unfold invert at result
      split at result
      · next inside =>
          rcases apart range (.head _) with left | right
          · -- below the range, in the piece that ends there
            refine ⟨⟨last.slpn, range.slpn - last.slpn⟩, ?_, ?_⟩
            · exact invert_keeps result (List.mem_append_right _ (.head _))
            · dsimp only
              omega
          · refine induction result later right ?_ fun other member =>
              apart other (.tail _ member)
            dsimp only
            omega
      · cases result

/-- The first piece that is large enough is there just when there is a gap. -/
theorem Placed.piece_iff (placed : Placed cfg subsystem)
    {free : List LPNRange}
    (searched : Subsystem.unallocated cfg subsystem = .ok free) (count : Nat) :
    (∃ piece ∈ free, count ≤ piece.nlp) ↔
      ∃ slpn, slpn + count ≤ cfg.totalLogicalPages ∧
        ∀ range ∈ subsystem.ranges, LPNRange.Apart ⟨slpn, count⟩ range := by
  constructor
  · rintro ⟨piece, member, fits⟩
    obtain ⟨pieces, result, spread⟩ := placed.unallocated
    rw [searched] at result
    cases result
    obtain ⟨inside, clear⟩ := spread piece member
    refine ⟨piece.slpn, by omega, fun range listed => ?_⟩
    rcases clear range listed with below | above
    · left
      dsimp only
      omega
    · exact .inr above
  · rintro ⟨slpn, inside, clear⟩
    have ordered := sortRanges_ordered
      (fun range member => (placed.inside range member).1) placed.apart
    have below : slpn + count ≤ 0 + cfg.totalLogicalPages := by omega
    refine @invert_covers _ _ _ _ ⟨slpn, count⟩ searched ordered
      (Nat.zero_le _) below fun range listed => ?_
    exact clear range ((sortRanges_perm subsystem.ranges).mem_iff.mp listed)

theorem createNamespace_room (placed : Placed cfg subsystem) (nsid : UInt32)
    {info : Information} (unplaced : info.range.nlp = 0)
    (size : lbaSize info.lbaFormatIndex = .ok info.lbaSize) :
    Returns
      (fun result => result.1 = true ↔ HasRoom cfg subsystem
        (requestedLogicalPages cfg info info.lbaSize))
      (fun _ => False) (createNamespace cfg subsystem nsid info) := by
  obtain ⟨free, searched, -⟩ := placed.unallocated
  unfold createNamespace
  rw [size]
  dsimp only [bind, Except.bind]
  generalize requestedLogicalPages cfg info info.lbaSize = requested
  split
  · next scarce =>
      exact iff_of_false Bool.false_ne_true fun room =>
        UInt64.not_lt.mpr room.counted scarce
  next counted =>
  rw [searched]
  dsimp only
  cases found : free.find? _ with
  | none =>
      dsimp only
      rw [if_pos unplaced]
      refine iff_of_false Bool.false_ne_true fun room => ?_
      obtain ⟨piece, member, fits⟩ :=
        (placed.piece_iff searched requested.toNat).mpr room.gap
      exact List.find?_eq_none.mp found piece member (decide_eq_true fits)
  | some piece =>
      have fits := List.find?_some found
      rw [decide_eq_true_eq] at fits
      dsimp only
      split
      · next none =>
          exact iff_of_false Bool.false_ne_true fun room =>
            room.some (UInt64.toNat_inj.mp none)
      · next some =>
          refine iff_of_true rfl ⟨?_, UInt64.not_lt.mp counted, ?_⟩
          · rintro rfl
            exact some rfl
          · exact (placed.piece_iff searched requested.toNat).mp
              ⟨piece, List.mem_of_find?_eq_some found, fits⟩

theorem createNamespace_cases (placed : Placed cfg subsystem) (nsid : UInt32)
    {info : Information} (unplaced : info.range.nlp = 0)
    (size : lbaSize info.lbaFormatIndex = .ok info.lbaSize) :
    (¬HasRoom cfg subsystem (requestedLogicalPages cfg info info.lbaSize) ∧
      createNamespace cfg subsystem nsid info = .ok (false, subsystem)) ∨
    HasRoom cfg subsystem (requestedLogicalPages cfg info info.lbaSize) ∧
      ∃ range, createNamespace cfg subsystem nsid info =
        .ok (true, addNamespace cfg subsystem nsid info
          (requestedLogicalPages cfg info info.lbaSize) range) := by
  have both := (createNamespace_returns cfg subsystem nsid unplaced size).and
    (createNamespace_room placed nsid unplaced size)
  cases result : createNamespace cfg subsystem nsid info with
  | error fault =>
      exact absurd placed (both.of_error result)
  | ok value =>
      obtain ⟨refused | ⟨range, -, added⟩, room⟩ := both.of_ok result
      · subst refused
        exact .inl ⟨fun has => Bool.false_ne_true (room.mpr has), rfl⟩
      · subst added
        exact .inr ⟨room.mp rfl, range, rfl⟩

end Room

section Done

variable {cfg : ConfigData} {subsystem : Subsystem} {arrival : Arrival}

theorem HasRoom.calling {requested : UInt64} {pending : List Callback} :
    HasRoom cfg { subsystem with pending := pending } requested ↔
      HasRoom cfg subsystem requested :=
  ⟨fun room => ⟨room.some, room.counted, room.gap⟩,
    fun room => ⟨room.some, room.counted, room.gap⟩⟩

theorem lbaSize_eq {index : UInt8} (known : index.toNat < lbaSizes.length) :
    lbaSize index = .ok (lbaSizes.getD index.toNat 0) := by
  unfold lbaSize
  rw [List.getD_eq_getElem?_getD, List.getElem?_eq_getElem known]
  rfl

theorem makeStatus_status (resp other : Response) (dnr more : Bool)
    (sct : StatusCodeType) (sc : StatusCode) :
    (resp.makeStatus dnr more sct sc).status =
      (other.makeStatus dnr more sct sc).status := rfl

/-- The status after the checks of the fields, for a known format. -/
theorem checked_status (req : Command) (func : Nat)
    (known : (arrival.buffer 26).toNat < lbaSizes.length) :
    (if lbaSizes.length ≤ (informationOf arrival).lbaFormatIndex.toNat then
        (Response.make req func).makeStatus false false .genericCommandStatus
          .abortInvalidNamespace
      else if arrival.buffer 30 ≠ 0 ∨ arrival.buffer 29 ≠ 0 then
        (Response.make req func).makeStatus false false .genericCommandStatus
          .invalidField
      else Response.make req func).status = 0 ↔
    arrival.buffer 30 = 0 ∧ arrival.buffer 29 = 0 := by
  have inside : ¬lbaSizes.length ≤ (informationOf arrival).lbaFormatIndex.toNat :=
    Nat.not_le.mpr known
  rw [if_neg inside]
  split
  · next wrong =>
      rw [makeStatus_status _ ⟨0, 0, 0, 0, 0, 0⟩]
      refine iff_of_false (by decide) ?_
      rintro ⟨sharing, protection⟩
      exact wrong.elim (· sharing) (· protection)
  · next right =>
      rw [not_or, not_not, not_not] at right
      exact iff_of_true rfl right

theorem managementDone_iff (placed : Placed cfg subsystem) (req : Command)
    (func : Nat) (nsid : UInt32) :
    Returns (AllOrNothing (informationOf arrival) subsystem)
      (· ≠ .outOfFormats)
      (managementDone cfg nsid (Response.make req func) arrival subsystem) ↔
    AllowedOrRefused cfg arrival subsystem := by
  by_cases known : (arrival.buffer 26).toNat < lbaSizes.length
  swap
  · refine iff_of_false ?_ fun allowed => known allowed.format
    unfold managementDone informationOf lbaSize
    dsimp only
    rw [List.getElem?_eq_none (Nat.not_lt.mp known)]
    exact fun other => other rfl
  have size := lbaSize_eq known
  have status := checked_status req func known
  rw [show AllowedOrRefused cfg arrival subsystem ↔ _ from
    ⟨AllowedOrRefused.fields, AllowedOrRefused.mk known⟩]
  unfold managementDone
  dsimp only
  change Returns _ _ (lbaSize (arrival.buffer 26) >>= _) ↔ _
  rw [size]
  generalize ite (lbaSizes.length ≤ _) _ _ = checked at status ⊢
  change Returns _ _ (createNamespace _ _ _ _ >>= _) ↔ _
  rcases @createNamespace_cases cfg subsystem placed nsid
    { informationOf arrival with
      lbaSize := lbaSizes.getD (arrival.buffer 26).toNat 0 } rfl size with
    ⟨refused, result⟩ | ⟨room, range, result⟩
  · rw [result]
    refine iff_of_true ?_ (.inr refused)
    refine ⟨checked.makeStatus false false .commandSpecificStatus
      .namespaceInsufficientCapacity, rfl, ?_⟩
    rw [makeStatus_status _ ⟨0, 0, 0, 0, 0, 0⟩, if_neg (by decide)]
    exact ⟨rfl, rfl⟩
  · rw [result]
    refine Iff.trans ?_ (or_iff_left (not_not.mpr room)).symm
    rw [← status]
    constructor
    · rintro ⟨resp, sent, outcome⟩
      cases List.append_cancel_left sent
      by_contra wrong
      rw [if_neg wrong] at outcome
      exact absurd (congrArg List.length outcome.1) (by simp [addNamespace,
        reply, sortNamespaces])
    · intro right
      refine ⟨{ checked with dword0 := nsid }, rfl, ?_⟩
      rw [if_pos right]
      refine ⟨_, ?_, sortNamespaces_perm _ _⟩
      exact ⟨rfl, rfl, rfl, rfl, size⟩

/-- The submission only reserves an id. -/
theorem submitCommand_creation {req : Command} (admin : req.sqID = 0)
    (management : AdminOpcode.decode req.opcode = .namespaceManagement)
    (selected : selectOf req = 0x00) :
    Returns
      (fun after => after.lNamespaces = subsystem.lNamespaces ∧
        after.allocatedLogicalPages = subsystem.allocatedLogicalPages)
      (fun raised => req.setsUp cfg 0x1000 = .error raised)
      (submitCommand cfg subsystem req) := by
  unfold submitCommand
  dsimp only
  rw [if_pos admin]
  unfold adminCommand
  rw [management]
  unfold namespaceManagement
  dsimp only
  split
  · exact ⟨rfl, rfl⟩
  · split
    · exact ⟨rfl, rfl⟩
    · have reserved := fun callback : Callback => @setUp_returns cfg
        { subsystem with submitted := subsystem.submitted + 1 }
        (fun after => after.lNamespaces = subsystem.lNamespaces ∧
          after.allocatedLogicalPages = subsystem.allocatedLogicalPages)
        req 0x1000 callback ⟨rfl, rfl⟩ ⟨rfl, rfl⟩
      rw [bind_assoc]
      exact (reserved _).bind fun _ unchanged => unchanged

/-- In every state that a run reaches, a creation is all or nothing just when
its fields are allowed or there is no room. -/
theorem creation_allOrNothing_iff (nNamespaces : UInt16) (lba : UInt32)
    (controller : Controller) (queueAllocated : UInt32) {start : Subsystem}
    (hstart : init cfg nNamespaces lba (make controller queueAllocated) =
      .ok start)
    (steps : List Step) {reached : Subsystem}
    (hreached : performAll cfg start steps = .ok reached) {req : Command}
    (hadmin : req.sqID = 0)
    (hmanagement : AdminOpcode.decode req.opcode = .namespaceManagement)
    (hselected : selectOf req = 0x00) (arrival : Arrival) :
    Returns
      (fun after => after.lNamespaces = reached.lNamespaces ∧
        after.allocatedLogicalPages = reached.allocatedLogicalPages)
      (fun raised => req.setsUp cfg 0x1000 = .error raised)
      ((Step.submit req).perform cfg reached) ∧
    ∀ index func nsid, reached.pending[index]? =
        some (.managementDone nsid (Response.make req func)) →
      (Returns (AllOrNothing (informationOf arrival) reached)
        (· ≠ .outOfFormats) ((Step.call index arrival).perform cfg reached) ↔
        AllowedOrRefused cfg arrival reached) := by
  refine ⟨submitCommand_creation hadmin hmanagement hselected, ?_⟩
  intro index func nsid hdue
  obtain ⟨info, hinitial⟩ := (init_returns cfg nNamespaces lba controller
    queueAllocated).of_ok hstart
  have hplaced : Placed cfg reached :=
    (hinitial.packed.placed.performAll steps).of_ok hreached
  unfold Step.perform
  dsimp only
  rw [hdue]
  refine (@managementDone_iff cfg
    { reached with pending := reached.pending.eraseIdx index } arrival
    (hplaced.of_ranges rfl) req func nsid).trans ⟨?_, ?_⟩
  · exact fun h => ⟨h.format, h.fields.imp_right (mt HasRoom.calling.mpr)⟩
  · exact fun h => ⟨h.format, h.fields.imp_right (mt HasRoom.calling.mp)⟩

end Done

/-- A namespace that is to be shared, which the device does not support. -/
def sharedDescription : Arrival where
  buffer k := if k = 30 then 1 else (descriptionOf 4096 0).buffer k
  differs := false

/-- The command is refused, but the namespace is there. -/
theorem refused_creation_adds :
    ∃ reached, performAll sampleConfig sampleSubsystem
        [.submit (adminCommandOf 0x0D 0 0x00), .call 0 noArrival] =
        .ok reached ∧
      ¬Returns (AllOrNothing (informationOf sharedDescription) reached)
        (· ≠ .outOfFormats)
        ((Step.call 0 sharedDescription).perform sampleConfig reached) := by
  refine ⟨_, rfl, ?_⟩
  rintro ⟨resp, sent, outcome⟩
  cases List.append_cancel_left sent
  rw [if_neg (by decide)] at outcome
  exact absurd outcome.1 (by decide)

theorem creation_allOrNothing_iff_allowed :
    ∃ reached, performAll sampleConfig sampleSubsystem
        [.submit (adminCommandOf 0x0D 0 0x00), .call 0 noArrival] =
        .ok reached ∧
      Returns (AllOrNothing (informationOf (descriptionOf 4096 0)) reached)
        (· ≠ .outOfFormats)
        ((Step.call 0 (descriptionOf 4096 0)).perform sampleConfig reached) := by
  have allowed := @creation_allOrNothing_iff sampleConfig 0 512
    (Controller.enabled 1 1 64) 0 sampleSubsystem rfl
    [.submit (adminCommandOf 0x0D 0 0x00), .call 0 noArrival] _ rfl
    (adminCommandOf 0x0D 0 0x00) rfl rfl rfl (descriptionOf 4096 0)
  refine ⟨_, rfl, ?_⟩
  exact (allowed.2 0 0 1 rfl).mpr ⟨by decide, .inl ⟨rfl, rfl⟩⟩

end Subsystem

end SimpleSSD.HIL.NVMe
