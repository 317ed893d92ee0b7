import SimpleSSD.Data.Result
import SimpleSSD.HIL.NVMe.Placement

namespace SimpleSSD.HIL.NVMe

open Data (Returns)
open Subsystem (AdminOpcode)

def Callback.creates : Callback → Option UInt32
  | .cpuHandler next | .request _ _ next => next.creates
  | .managementRead nsid _ | .managementDone nsid _ => some nsid
  | _ => none

namespace Step

def admin (opcode : AdminOpcode) : Step → Option Command
  | .submit req =>
      if req.sqID = 0 ∧ AdminOpcode.decode req.opcode = opcode then some req
      else none
  | _ => none

def creation (subsystem : Subsystem) : Step → Option Arrival
  | .call index arrival =>
      match subsystem.pending[index]? with
      | some (.managementDone _ _) => some arrival
      | _ => none
  | _ => none

theorem admin_submit {opcode : AdminOpcode} {req : Command}
    (hadmin : req.sqID = 0)
    (hdecodes : AdminOpcode.decode req.opcode = opcode) :
    (submit req).admin opcode = some req :=
  if_pos ⟨hadmin, hdecodes⟩

theorem creation_call {subsystem : Subsystem} {index : Nat} {nsid : UInt32}
    {resp : Response}
    (hdue : subsystem.pending[index]? = some (.managementDone nsid resp))
    (arrival : Arrival) :
    (call index arrival).creation subsystem = some arrival := by
  unfold creation
  dsimp only
  rw [hdue]

end Step

namespace Subsystem

def creating (subsystem : Subsystem) : List UInt32 :=
  subsystem.pending.filterMap Callback.creates

/-- The namespaces, the pages and the creations under way stay as they are. -/
structure Keeps (before after : Subsystem) : Prop where
  namespaces : after.lNamespaces = before.lNamespaces
  allocated : after.allocatedLogicalPages = before.allocatedLogicalPages
  address : after.nextAddress = before.nextAddress
  creating : after.creating = before.creating

namespace Keeps

theorem refl (subsystem : Subsystem) : Keeps subsystem subsystem :=
  ⟨rfl, rfl, rfl, rfl⟩

theorem trans {first second third : Subsystem} (h : Keeps first second)
    (h' : Keeps second third) : Keeps first third :=
  ⟨h'.namespaces.trans h.namespaces, h'.allocated.trans h.allocated,
    h'.address.trans h.address, h'.creating.trans h.creating⟩

variable {before after : Subsystem}

theorem reply (h : Keeps before after) (resp : Response) :
    Keeps before (after.reply resp) :=
  ⟨h.namespaces, h.allocated, h.address, h.creating⟩

theorem schedule (h : Keeps before after) {callback : Callback}
    (hcreates : callback.creates = none) :
    Keeps before (after.schedule callback) := by
  refine ⟨h.namespaces, h.allocated, h.address, ?_⟩
  have hcreating : (after.schedule callback).creating = after.creating := by
    simp [Subsystem.creating, Subsystem.schedule, hcreates]
  exact hcreating.trans h.creating

theorem controller (h : Keeps before after) (updated : Controller) :
    Keeps before { after with controller := updated } :=
  ⟨h.namespaces, h.allocated, h.address, h.creating⟩

theorem issue (h : Keeps before after) (cfg : ConfigData)
    (operation : HILOperation) (ns : Namespace) (slba nlblk : UInt64)
    {callback : Callback} (hcreates : callback.creates = none) :
    Keeps before (after.issue cfg operation ns slba nlblk callback) :=
  h.schedule hcreates

end Keeps

/-- A creation finds a piece of the free pages that is large enough, and takes
the pages it asks for from its start. -/
structure Takes (cfg : ConfigData) (before : Subsystem) (info : Information)
    (range : LPNRange) : Prop where
  size : lbaSize info.lbaFormatIndex = .ok info.lbaSize
  pages : range.nlp = (requestedLogicalPages cfg info info.lbaSize).toNat
  filled : 0 < range.nlp
  free : ∃ free piece, unallocated cfg before = .ok free ∧ piece ∈ free ∧
    piece.slpn = range.slpn ∧ range.nlp ≤ piece.nlp

/-- What a step does to the namespaces and to the creations under way. -/
inductive Changes (cfg : ConfigData) (step : Step)
    (before after : Subsystem) : Prop where
  | keeps (namespaces : after.lNamespaces = before.lNamespaces)
      (allocated :
        after.allocatedLogicalPages = before.allocatedLogicalPages)
      (address : after.nextAddress = before.nextAddress)
      (creating : after.creating.Perm before.creating)
  | reserves (req : Command) (nsid : UInt32)
      (cause : step.admin .namespaceManagement = some req)
      (selected : selectOf req = 0x00)
      (unnamed : req.namespaceID = nsidNone)
      (free : nsid = freeNSID before.lNamespaces nsidLowest)
      (available : nsid ≠ nsidAll)
      (namespaces : after.lNamespaces = before.lNamespaces)
      (allocated :
        after.allocatedLogicalPages = before.allocatedLogicalPages)
      (address : after.nextAddress = before.nextAddress)
      (creating : after.creating.Perm (nsid :: before.creating))
  | attaches (update : Namespace → Bool)
      (namespaces : after.lNamespaces = before.lNamespaces.map fun ns =>
        { ns with attached := update ns })
      (allocated :
        after.allocatedLogicalPages = before.allocatedLogicalPages)
      (address : after.nextAddress = before.nextAddress)
      (creating : after.creating.Perm before.creating)
  | formats (req : Command) (ns : Namespace)
      (cause : step.admin .formatNVM = some req)
      (accepted : refusesFormat req = false)
      (found : before.lNamespaces.find? (·.nsid = req.namespaceID) = some ns)
      (namespaces : after.lNamespaces =
        before.lNamespaces.map fun other : Namespace =>
          if other.address = ns.address then
            formatted cfg before req other
          else
            other)
      (allocated :
        after.allocatedLogicalPages = before.allocatedLogicalPages)
      (address : after.nextAddress = before.nextAddress)
      (creating : after.creating.Perm before.creating)
  | destroys (req : Command) (ns : Namespace)
      (cause : step.admin .namespaceManagement = some req)
      (selected : selectOf req = 0x01)
      (found : before.lNamespaces.find? (·.nsid = req.namespaceID) = some ns)
      (namespaces : after.lNamespaces =
        before.lNamespaces.eraseP (·.nsid = req.namespaceID))
      (allocated : after.allocatedLogicalPages =
        before.allocatedLogicalPages -
          ns.info.size * ns.info.lbaSize.toUInt64 /
            cfg.logicalPageSize.toUInt64)
      (address : after.nextAddress = before.nextAddress)
      (creating : after.creating.Perm before.creating)
  | creates (ns : Namespace) (arrival : Arrival) (size : UInt32)
      (info : Information) (range : LPNRange)
      (cause : step.creation before = some arrival)
      (asked : info = { informationOf arrival with lbaSize := size })
      (takes : Takes cfg before info range)
      (placed : ns.info = { info with range := range })
      (namespaces :
        after.lNamespaces = sortNamespaces (before.lNamespaces ++ [ns]))
      (allocated : after.allocatedLogicalPages =
        before.allocatedLogicalPages +
          requestedLogicalPages cfg info info.lbaSize)
      (address : after.nextAddress = before.nextAddress + 1)
      (fresh : ns.address = before.nextAddress)
      (creating : before.creating.Perm (ns.nsid :: after.creating))
  | refuses (nsid : UInt32)
      (namespaces : after.lNamespaces = before.lNamespaces)
      (allocated :
        after.allocatedLogicalPages = before.allocatedLogicalPages)
      (address : after.nextAddress = before.nextAddress)
      (creating : before.creating.Perm (nsid :: after.creating))

theorem Keeps.changes {cfg : ConfigData} {before after : Subsystem}
    (h : Keeps before after) {step : Step} : Changes cfg step before after :=
  .keeps h.namespaces h.allocated h.address (by rw [h.creating])

variable {cfg : ConfigData} {subsystem : Subsystem}

/-- What a creation returns; a range that reaches into another one is found
only where the namespaces overlap. -/
theorem createNamespace_returns (cfg : ConfigData) (subsystem : Subsystem)
    (nsid : UInt32) {info : Information} (hunplaced : info.range.nlp = 0)
    (hsize : lbaSize info.lbaFormatIndex = .ok info.lbaSize) :
    Returns
      (fun result =>
        result = (false, subsystem) ∨
          ∃ range, Takes cfg subsystem info range ∧
            result = (true, addNamespace cfg subsystem nsid info
              (requestedLogicalPages cfg info info.lbaSize) range))
      (fun _ => ¬Placed cfg subsystem)
      (createNamespace cfg subsystem nsid info) := by
  unfold createNamespace
  rw [hsize]
  dsimp only [bind, Except.bind]
  split
  · exact .inl rfl
  cases hfree : unallocated cfg subsystem with
  | error fault =>
      intro hplaced
      obtain ⟨free, hok, -⟩ := hplaced.unallocated
      rw [hok] at hfree
      cases hfree
  | ok free =>
      dsimp only
      cases hfind : free.find? _ with
      | none =>
          dsimp only
          rw [if_pos hunplaced]
          exact .inl rfl
      | some piece =>
          dsimp only
          split
          · exact .inl rfl
          · next hfilled =>
              have hfits := List.find?_some hfind
              rw [decide_eq_true_eq] at hfits
              exact .inr ⟨⟨piece.slpn,
                (requestedLogicalPages cfg info info.lbaSize).toNat⟩,
                ⟨hsize, rfl, Nat.pos_of_ne_zero hfilled, free, piece, hfree,
                  List.mem_of_find?_eq_some hfind, rfl, hfits⟩, rfl⟩

/-! The handlers of the other commands. -/

/-- The handler leaves the namespaces alone, and does not fail with `bug`. -/
def Quiet (before : Subsystem) : Except Fault (Bool × Subsystem) → Prop :=
  Returns (fun result => Keeps before result.2) (· ≠ .bug)

theorem setsUp_ne_bug (req : Command) (size : Nat) :
    req.setsUp cfg size ≠ .error .bug := by
  unfold Command.setsUp
  split
  · split
    · split <;> exact nofun
    · split <;> exact nofun
    · exact nofun
    · exact nofun
    · exact nofun
    · exact nofun
  · split <;> exact nofun

theorem setUp_returns {post : Subsystem → Prop} {req : Command} {size : Nat}
    {callback : Callback} (silent : post subsystem)
    (scheduled : post (subsystem.schedule callback)) :
    Returns post (fun raised => req.setsUp cfg size = .error raised)
      (setUp cfg subsystem req size callback) := by
  unfold setUp
  cases ready : req.setsUp cfg size with
  | ok calls =>
      cases calls with
      | true => exact Returns.pure scheduled
      | false => exact Returns.pure silent
  | error raised => exact rfl

theorem setUp_keeps {req : Command} {size : Nat} {callback : Callback}
    {before : Subsystem} (h : Keeps before subsystem)
    (hcreates : callback.creates = none) :
    Returns (Keeps before) (· ≠ .bug)
      (setUp cfg subsystem req size callback) := by
  refine (setUp_returns h (h.schedule hcreates)).mono (fun _ h => h) ?_
  rintro _ hraised rfl
  exact setsUp_ne_bug req size hraised

theorem call_returns (result : Except Panic α) :
    Returns (fun _ => True) (· ≠ .bug) (call result) := by
  cases result with
  | ok value => trivial
  | error raised => exact nofun

theorem deleteSQueue_quiet (req : Command) (func : Nat) :
    Quiet subsystem (deleteSQueue subsystem req func) := by
  unfold deleteSQueue
  refine (call_returns _).bind fun result _ => ?_
  dsimp only
  split
  · exact ⟨rfl, rfl, rfl, rfl⟩
  · exact ⟨rfl, rfl, rfl, rfl⟩

theorem createSQueue_quiet (req : Command) (func : Nat) :
    Quiet subsystem (createSQueue cfg subsystem req func) := by
  unfold createSQueue
  dsimp only
  split
  · exact (Keeps.refl subsystem).reply _
  refine (call_returns _).bind fun result _ => ?_
  split
  · exact Returns.pure (((Keeps.refl subsystem).controller _).schedule rfl)
  · exact Returns.pure ((Keeps.refl subsystem).controller _)

theorem deleteCQueue_quiet (req : Command) (func : Nat) :
    Quiet subsystem (deleteCQueue subsystem req func) := by
  unfold deleteCQueue
  refine (call_returns _).bind fun result _ => ?_
  dsimp only
  split
  · exact ⟨rfl, rfl, rfl, rfl⟩
  · split
    · exact ⟨rfl, rfl, rfl, rfl⟩
    · exact ⟨rfl, rfl, rfl, rfl⟩

theorem createCQueue_quiet (req : Command) (func : Nat) :
    Quiet subsystem (createCQueue cfg subsystem req func) := by
  unfold createCQueue
  dsimp only
  split
  · exact (Keeps.refl subsystem).reply _
  refine (call_returns _).bind fun result _ => ?_
  split
  · exact Returns.pure (((Keeps.refl subsystem).controller _).schedule rfl)
  · exact Returns.pure ((Keeps.refl subsystem).controller _)

theorem listNamespaces_returns (req : Command) (select : Namespace → Bool) :
    Returns (fun _ => True) (· ≠ .bug)
      (listNamespaces subsystem req select) := by
  unfold listNamespaces
  dsimp only
  split
  · exact nofun
  · trivial

theorem identify_quiet (req : Command) (func : Nat) :
    Quiet subsystem (identify cfg subsystem req func) := by
  have hdata : Returns (fun _ => True) (· ≠ .bug)
      (identifyData subsystem req) := by
    unfold identifyData
    dsimp only
    split
    · split <;> trivial
    · trivial
    · split
      · trivial
      · exact (listNamespaces_returns req _).map fun _ _ => trivial
    · split
      · trivial
      · exact (listNamespaces_returns req _).map fun _ _ => trivial
    · trivial
    · trivial
    · trivial
    · trivial
  unfold identify
  refine hdata.bind fun data _ => ?_
  cases data with
  | none => exact (Keeps.refl subsystem).reply _
  | some data =>
      exact (setUp_keeps (Keeps.refl subsystem) rfl).bind fun _ h =>
        Returns.pure h

theorem abort_quiet (req : Command) (func : Nat) :
    Quiet subsystem (abort subsystem req func) := by
  unfold abort
  refine (call_returns _).bind fun result _ => ?_
  exact ⟨rfl, rfl, rfl, rfl⟩

theorem getLogPage_quiet (req : Command) (func : Nat) :
    Quiet subsystem (getLogPage cfg subsystem req func) := by
  unfold getLogPage
  dsimp only
  split
  · exact Returns.pure ((Keeps.refl subsystem).reply _)
  · exact Returns.pure ((Keeps.refl subsystem).reply _)
  · split
    · exact (setUp_keeps (Keeps.refl subsystem) rfl).bind fun _ h =>
        Returns.pure h
    · exact Returns.pure ((Keeps.refl subsystem).reply _)
  · exact Returns.pure ((Keeps.refl subsystem).reply _)

theorem setCoalescingParameter_keeps (time thres : UInt8) :
    Keeps subsystem (subsystem.setCoalescingParameter time thres) := by
  obtain ⟨ticks, set⟩ := subsystem.setCoalescingParameter_eq time thres
  rw [set]
  exact ⟨rfl, rfl, rfl, rfl⟩

theorem setFeatures_keeps (req : Command) (func : Nat) :
    Keeps subsystem (setFeatures cfg subsystem req func).2 := by
  unfold setFeatures
  dsimp only
  split
  · exact (Keeps.refl subsystem).reply _
  · split
    · split
      · exact (Keeps.refl subsystem).reply _
      · exact ⟨rfl, rfl, rfl, rfl⟩
    · exact (setCoalescingParameter_keeps _ _).reply _
    · exact ⟨rfl, rfl, rfl, rfl⟩
    · exact (Keeps.refl subsystem).reply _
    · exact (Keeps.refl subsystem).reply _
    · exact (Keeps.refl subsystem).reply _

theorem getFeatures_keeps (req : Command) (func : Nat) :
    Keeps subsystem (getFeatures cfg subsystem req func).2 := by
  unfold getFeatures
  dsimp only
  split
  · exact (Keeps.refl subsystem).reply _
  · exact (Keeps.refl subsystem).reply _

theorem namespaceManagement_changes {step : Step} {req : Command}
    (hcause : step.admin .namespaceManagement = some req) (func : Nat) :
    Returns (fun result => Changes cfg step subsystem result.2) (· ≠ .bug)
      (namespaceManagement cfg subsystem req func) := by
  unfold namespaceManagement
  dsimp only
  split
  · exact Returns.pure (Keeps.refl subsystem).changes
  next hfields =>
  split
  · next hselected =>
      split
      · exact Returns.pure ((Keeps.refl subsystem).reply _).changes
      · next havailable =>
          have hunnamed : req.namespaceID = nsidNone :=
            Decidable.byContradiction fun hnamed =>
              hfields (.inl ⟨hselected, hnamed⟩)
          have hreserves : Changes cfg step subsystem (subsystem.schedule
              (.managementRead (freeNSID subsystem.lNamespaces nsidLowest)
                (Response.make req func))) := by
            refine .reserves req _ hcause hselected hunnamed rfl havailable rfl
              rfl rfl ?_
            simp only [creating, schedule, List.filterMap_append,
              List.filterMap_cons, Callback.creates, List.filterMap_nil]
            exact List.perm_append_comm
          refine Returns.bind (Returns.mono (setUp_returns
            (Keeps.refl subsystem).changes hreserves) (fun _ h => h) ?_)
            fun _ h => Returns.pure h
          rintro _ hraised rfl
          exact setsUp_ne_bug req 0x1000 hraised
  · next hother =>
      have hselected : selectOf req = 0x01 := by
        have hle : ¬0x01 < selectOf req := fun h => hfields (.inr h)
        rw [UInt32.lt_iff_toNat_lt] at hle
        have hne : (selectOf req).toNat ≠ 0 := fun h =>
          hother (UInt32.toNat_inj.mp h)
        apply UInt32.toNat_inj.mp
        change _ = 1
        change ¬1 < _ at hle
        omega
      unfold destroyNamespace
      cases hfound : subsystem.lNamespaces.find? (·.nsid = req.namespaceID) with
      | none => exact Returns.pure ((Keeps.refl subsystem).reply _).changes
      | some ns =>
          exact Returns.pure (.destroys req ns hcause hselected hfound rfl rfl
            rfl (List.Perm.refl _))

theorem formatNVM_changes {step : Step} {req : Command}
    (hcause : step.admin .formatNVM = some req) (func : Nat) :
    Changes cfg step subsystem (formatNVM cfg subsystem req func).2 := by
  unfold formatNVM
  dsimp only
  split
  · exact ((Keeps.refl subsystem).reply _).changes
  · next haccepted =>
      cases hfound : subsystem.lNamespaces.find? (·.nsid = req.namespaceID) with
      | none => exact ((Keeps.refl subsystem).reply _).changes
      | some ns =>
          refine .formats req ns hcause (by simpa using haccepted) hfound
            rfl rfl rfl ?_
          have hcreating : ∀ other : Subsystem, ∀ callback : Callback,
              callback.creates = none →
              (other.schedule callback).creating = other.creating := by
            intro other callback hcreates
            simp [creating, schedule, hcreates]
          rw [hcreating _ _ rfl]
          exact List.Perm.refl _

theorem adminCommand_changes {req : Command} (hadmin : req.sqID = 0)
    (func : Nat) :
    Returns (fun result => Changes cfg (.submit req) subsystem result.2)
      (· ≠ .bug) (adminCommand cfg subsystem req func) := by
  have hquiet : ∀ result, Quiet subsystem result →
      Returns (fun result => Changes cfg (.submit req) subsystem result.2)
        (· ≠ .bug) result :=
    fun result h => h.mono (fun _ hkeeps => hkeeps.changes) fun _ hother => hother
  unfold adminCommand
  cases hdecodes : AdminOpcode.decode req.opcode with
  | deleteIOSQueue => exact hquiet _ (deleteSQueue_quiet req func)
  | createIOSQueue => exact hquiet _ (createSQueue_quiet req func)
  | getLogPage => exact hquiet _ (getLogPage_quiet req func)
  | deleteIOCQueue => exact hquiet _ (deleteCQueue_quiet req func)
  | createIOCQueue => exact hquiet _ (createCQueue_quiet req func)
  | identify => exact hquiet _ (identify_quiet req func)
  | abort => exact hquiet _ (abort_quiet req func)
  | setFeatures => exact (setFeatures_keeps req func).changes
  | getFeatures => exact (getFeatures_keeps req func).changes
  | namespaceManagement =>
      exact namespaceManagement_changes (Step.admin_submit hadmin hdecodes)
        func
  | namespaceAttachment =>
      exact hquiet _ ((setUp_keeps (Keeps.refl subsystem) rfl).bind fun _ h =>
        Returns.pure h)
  | formatNVM =>
      exact formatNVM_changes (Step.admin_submit hadmin hdecodes) func
  | asyncEventReq => exact (Keeps.refl subsystem).changes
  | other => exact (Keeps.refl subsystem).changes

theorem toNamespace_keeps (req : Command) (func : Nat) :
    Keeps subsystem (toNamespace subsystem req func) := by
  unfold toNamespace
  dsimp only
  split
  · split
    · exact (Keeps.refl subsystem).schedule rfl
    · exact (Keeps.refl subsystem).reply _
  · split
    · exact (Keeps.refl subsystem).reply _
    · exact (Keeps.refl subsystem).schedule rfl

theorem Changes.then {step : Step} {before middle after : Subsystem}
    (h : Changes cfg step before middle) (h' : Keeps middle after) :
    Changes cfg step before after := by
  have hcreating : after.creating.Perm middle.creating := by
    rw [h'.creating]
  cases h with
  | keeps hnamespaces hallocated haddress hperm =>
      exact .keeps (h'.namespaces.trans hnamespaces)
        (h'.allocated.trans hallocated) (h'.address.trans haddress)
        (hcreating.trans hperm)
  | reserves req nsid hcause hselected hunnamed hfree havailable hnamespaces
      hallocated haddress hperm =>
      exact .reserves req nsid hcause hselected hunnamed hfree havailable
        (h'.namespaces.trans hnamespaces)
        (h'.allocated.trans hallocated) (h'.address.trans haddress)
        (hcreating.trans hperm)
  | attaches update hnamespaces hallocated haddress hperm =>
      exact .attaches update (h'.namespaces.trans hnamespaces)
        (h'.allocated.trans hallocated) (h'.address.trans haddress)
        (hcreating.trans hperm)
  | formats req ns hcause haccepted hfound hnamespaces hallocated haddress
      hperm =>
      exact .formats req ns hcause haccepted hfound (h'.namespaces.trans hnamespaces)
        (h'.allocated.trans hallocated) (h'.address.trans haddress)
        (hcreating.trans hperm)
  | destroys req ns hcause hselected hfound hnamespaces hallocated haddress
      hperm =>
      exact .destroys req ns hcause hselected hfound (h'.namespaces.trans hnamespaces)
        (h'.allocated.trans hallocated) (h'.address.trans haddress)
        (hcreating.trans hperm)
  | creates ns arrival size info range hcause hasked htakes hplaced
      hnamespaces hallocated haddress hfresh hperm =>
      exact .creates ns arrival size info range hcause hasked htakes hplaced
        (h'.namespaces.trans hnamespaces) (h'.allocated.trans hallocated)
        (h'.address.trans haddress) hfresh
        (hperm.trans (hcreating.symm.cons _))
  | refuses nsid hnamespaces hallocated haddress hperm =>
      exact .refuses nsid (h'.namespaces.trans hnamespaces)
        (h'.allocated.trans hallocated) (h'.address.trans haddress)
        (hperm.trans (hcreating.symm.cons _))

theorem Changes.counted {step : Step} {after : Subsystem} {submitted : Nat}
    (h : Changes cfg step { subsystem with submitted := submitted } after) :
    Changes cfg step subsystem after := by
  cases h with
  | keeps hnamespaces hallocated haddress hperm =>
      exact .keeps hnamespaces hallocated haddress hperm
  | reserves req nsid hcause hselected hunnamed hfree havailable hnamespaces
      hallocated haddress hperm =>
      exact .reserves req nsid hcause hselected hunnamed hfree havailable hnamespaces
        hallocated haddress hperm
  | attaches update hnamespaces hallocated haddress hperm =>
      exact .attaches update hnamespaces hallocated haddress hperm
  | formats req ns hcause haccepted hfound hnamespaces hallocated haddress
      hperm =>
      exact .formats req ns hcause haccepted hfound hnamespaces hallocated
        haddress hperm
  | destroys req ns hcause hselected hfound hnamespaces hallocated haddress
      hperm =>
      exact .destroys req ns hcause hselected hfound hnamespaces hallocated
        haddress hperm
  | creates ns arrival size info range hcause hasked htakes hplaced
      hnamespaces hallocated haddress hfresh hperm =>
      exact .creates ns arrival size info range hcause hasked
        { htakes with } hplaced hnamespaces hallocated haddress hfresh hperm
  | refuses nsid hnamespaces hallocated haddress hperm =>
      exact .refuses nsid hnamespaces hallocated haddress hperm

theorem submitCommand_changes (req : Command) :
    Returns (Changes cfg (.submit req) subsystem) (· ≠ .bug)
      (submitCommand cfg subsystem req) := by
  unfold submitCommand
  dsimp only
  split
  · next hadmin =>
      refine (adminCommand_changes hadmin subsystem.submitted).bind
        fun result hchanges => ?_
      split
      · exact Returns.pure hchanges.counted
      · exact Returns.pure
          (hchanges.counted.then (toNamespace_keeps req subsystem.submitted))
  · have hcounted : Keeps subsystem
        { subsystem with submitted := subsystem.submitted + 1 } :=
      ⟨rfl, rfl, rfl, rfl⟩
    exact (hcounted.trans (toNamespace_keeps req subsystem.submitted)).changes

/-! The callbacks. -/

/-- The callback leaves the namespaces alone, and does not fail with `bug`. -/
def Silent (before : Subsystem) : Except Fault Subsystem → Prop :=
  Returns (Keeps before) (· ≠ .bug)

theorem namespaceCommand_silent (ns : Namespace) (req : Command)
    (func : Nat) :
    Silent subsystem (ns.submitCommand cfg req func subsystem) := by
  have hrefl := Keeps.refl subsystem
  have htransfer : ∀ kind,
      Silent subsystem (Namespace.transfer cfg kind ns req func subsystem) := by
    intro kind
    unfold Namespace.transfer
    dsimp only
    split
    · have hcontext : ∀ contexts,
          Keeps subsystem { subsystem with contexts := contexts } :=
        fun _ => ⟨rfl, rfl, rfl, rfl⟩
      exact setUp_keeps (hcontext _) rfl
    · exact hrefl.reply _
  unfold Namespace.submitCommand
  dsimp only
  split
  · exact hrefl.reply _
  split
  · split
    · unfold Namespace.getLogPage
      dsimp only
      split
      · split
        · exact setUp_keeps hrefl rfl
        · exact hrefl.reply _
      · exact hrefl.reply _
    · exact hrefl.reply _
  split
  · unfold Namespace.flush
    dsimp only
    split
    · exact hrefl.schedule rfl
    · exact hrefl.reply _
  · exact htransfer .write
  · exact htransfer .read
  · exact htransfer .compare
  · unfold Namespace.datasetManagement
    dsimp only
    split
    · exact setUp_keeps hrefl rfl
    · exact hrefl.reply _
  · exact hrefl.reply _

theorem namespaceAt_returns (ns : Nat) :
    Returns (fun _ => True) (· ≠ .bug) (namespaceAt subsystem ns) := by
  unfold namespaceAt
  split
  · trivial
  · exact nofun

theorem contextAt_returns (context : Nat) :
    Returns (fun _ => True) (· ≠ .bug) (contextAt subsystem context) := by
  unfold contextAt
  split
  · trivial
  · exact nofun

theorem trimAt_returns (context : Nat) :
    Returns (fun _ => True) (· ≠ .bug) (trimAt subsystem context) := by
  unfold trimAt
  split
  · trivial
  · exact nofun

theorem transferDone_silent (kind : Transfer) (ns context : Nat)
    (arrival : Arrival) :
    Silent subsystem
      (Namespace.transferDone kind ns context arrival subsystem) := by
  unfold Namespace.transferDone
  refine (contextAt_returns context).bind fun found _ => ?_
  split
  · refine (namespaceAt_returns ns).bind fun this _ => ?_
    dsimp only
    split
    · exact nofun
    · exact Returns.pure ⟨rfl, rfl, rfl, rfl⟩
  · exact Returns.pure ⟨rfl, rfl, rfl, rfl⟩

theorem beginTransfer_keeps (kind : Transfer) (ns : Namespace)
    (context : Nat) (found : IOContext) :
    Keeps subsystem (ns.beginTransfer cfg kind context found subsystem) := by
  have hcontext : ∀ updated,
      Keeps subsystem (subsystem.setContext context updated) :=
    fun _ => ⟨rfl, rfl, rfl, rfl⟩
  cases kind with
  | write => exact ((hcontext _).schedule rfl).issue cfg .write ns _ _ rfl
  | read => exact ((hcontext _).issue cfg .read ns _ _ rfl).schedule rfl
  | compare => exact ((hcontext _).issue cfg .read ns _ _ rfl).schedule rfl

theorem eachTrimDone_silent (ns context : Nat) :
    Silent subsystem (Namespace.eachTrimDone ns context subsystem) := by
  unfold Namespace.eachTrimDone
  refine (trimAt_returns context).bind fun found _ => ?_
  split
  · refine (namespaceAt_returns ns).bind fun this _ => ?_
    exact Returns.pure ⟨rfl, rfl, rfl, rfl⟩
  · exact Returns.pure ⟨rfl, rfl, rfl, rfl⟩

theorem beginTrims_silent (ns : Namespace) (ranges : Nat) (resp : Response)
    (arrival : Arrival) :
    Silent subsystem (ns.beginTrims cfg ranges resp arrival subsystem) := by
  have hissued : ∀ (counts : List Nat) (reached : Subsystem),
      Keeps subsystem reached →
      Keeps subsystem (counts.foldl
        (fun reached i => reached.issue cfg .trim ns
          (Namespace.rangeWord arrival i 8 8)
          (Namespace.rangeWord arrival i 4 4)
          (.eachTrimDone ns.address subsystem.trims.length resp.func))
        reached) := by
    intro counts
    induction counts with
    | nil => exact fun _ h => h
    | cons count counts ih =>
        intro reached h
        exact ih _ (h.issue cfg .trim ns _ _ rfl)
  have hall : ∀ created : DMAContext, Keeps subsystem _ := fun created =>
    hissued (List.range ranges)
      { subsystem with trims := subsystem.trims ++ [some created] }
      ⟨rfl, rfl, rfl, rfl⟩
  unfold Namespace.beginTrims
  dsimp only
  split
  · exact (eachTrimDone_silent _ _).mono (fun _ h => (hall _).trans h)
      fun _ h => h
  · exact hall _

theorem attachmentDone_returns (sel nsid : UInt32) (resp : Response)
    (arrival : Arrival) :
    Returns
      (fun after => ∃ (update : Namespace → Bool) (responses : List Response),
        after = { subsystem with
          lNamespaces := subsystem.lNamespaces.map fun ns =>
            { ns with attached := update ns }
          responses := responses })
      (· ≠ .bug) (attachmentDone sel nsid resp arrival subsystem) := by
  have hsame : subsystem.lNamespaces = subsystem.lNamespaces.map fun ns =>
      { ns with attached := ns.attached } := (List.map_id' _).symm
  have hreply : ∀ resp : Response,
      ∃ (update : Namespace → Bool) (responses : List Response),
        subsystem.reply resp = { subsystem with
          lNamespaces := subsystem.lNamespaces.map fun ns =>
            { ns with attached := update ns }
          responses := responses } := by
    intro resp
    refine ⟨Namespace.attached, subsystem.responses ++ [resp], ?_⟩
    rw [← hsame]
    rfl
  have hattach : ∃ update : Namespace → Bool,
      (attach subsystem sel nsid resp).2 =
        subsystem.lNamespaces.map fun ns =>
          { ns with attached := update ns } := by
    unfold attach
    split
    · refine ⟨fun ns => if ns.nsid = nsid then true else ns.attached, ?_⟩
      apply List.map_congr_left
      intro ns _
      dsimp only
      split <;> rfl
    · split
      · refine ⟨fun ns => if ns.nsid = nsid then false else ns.attached, ?_⟩
        apply List.map_congr_left
        intro ns _
        dsimp only
        split <;> rfl
      · exact ⟨Namespace.attached, hsame⟩
  unfold attachmentDone
  dsimp only
  split
  · exact nofun
  split
  · exact hreply _
  split
  · exact hreply _
  · obtain ⟨update, hupdate⟩ := hattach
    refine ⟨update, subsystem.responses ++
      [(attach subsystem sel nsid resp).1], ?_⟩
    rw [← hupdate]
    rfl

/-- Where a callback is taken from the calls that are due, the creation it
belongs to is no longer counted. -/
theorem creating_perm {index : Nat} {callback : Callback}
    (hdue : subsystem.pending[index]? = some callback) :
    subsystem.creating.Perm (callback.creates.toList ++
      { subsystem with
        pending := subsystem.pending.eraseIdx index }.creating) := by
  obtain ⟨hlt, hcallback⟩ := List.getElem?_eq_some_iff.mp hdue
  have hperm : subsystem.pending.Perm
      (callback :: subsystem.pending.eraseIdx index) := by
    rw [← hcallback]
    exact (List.getElem_cons_eraseIdx_perm hlt).symm
  refine (hperm.filterMap Callback.creates).trans ?_
  rw [List.filterMap_cons]
  cases callback.creates with
  | none => exact List.Perm.refl _
  | some nsid => exact List.Perm.refl _

theorem run_changes {index : Nat} {callback : Callback} (arrival : Arrival)
    (hdue : subsystem.pending[index]? = some callback) :
    Returns (Changes cfg (.call index arrival) subsystem)
      (fun fault => fault = .bug → ¬Placed cfg subsystem)
      ({ subsystem with
        pending := subsystem.pending.eraseIdx index }.run cfg arrival
          callback) := by
  have hcreating := creating_perm hdue
  generalize hcalled : ({ subsystem with
    pending := subsystem.pending.eraseIdx index } : Subsystem) = called
    at hcreating ⊢
  have hnamespaces : called.lNamespaces = subsystem.lNamespaces := by
    rw [← hcalled]
  have hallocated : called.allocatedLogicalPages =
      subsystem.allocatedLogicalPages := by rw [← hcalled]
  have haddress : called.nextAddress = subsystem.nextAddress := by
    rw [← hcalled]
  have hkeeps : ∀ {after}, callback.creates = none → Keeps called after →
      Changes cfg (.call index arrival) subsystem after := by
    intro after hnone h
    refine .keeps (h.namespaces.trans hnamespaces)
      (h.allocated.trans hallocated) (h.address.trans haddress) ?_
    rw [h.creating]
    rw [hnone] at hcreating
    exact hcreating.symm
  have hsilent : ∀ {result}, callback.creates = none → Silent called result →
      Returns (Changes cfg (.call index arrival) subsystem)
        (fun fault => fault = .bug → ¬Placed cfg subsystem) result :=
    fun hnone h => h.mono (fun _ => hkeeps hnone)
      fun _ hother hbug => absurd hbug hother
  have hrelays : ∀ next : Callback, next.creates = callback.creates →
      Changes cfg (.call index arrival) subsystem (called.schedule next) := by
    intro next hsame
    refine .keeps hnamespaces hallocated haddress ?_
    have hscheduled : (called.schedule next).creating =
        called.creating ++ next.creates.toList := by
      unfold creating schedule
      rw [List.filterMap_append, List.filterMap_cons]
      cases next.creates <;> rfl
    rw [hscheduled, hsame]
    exact List.perm_append_comm.trans hcreating.symm
  have hrefl := Keeps.refl called
  cases callback with
  | cpuHandler next =>
      cases next with
      | doQueue queue resp =>
          change Returns _ _ (if resp.func ∈ called.freedLists then _ else _)
          split
          · exact nofun
          · exact hrelays (.doQueue queue resp) rfl
      | _ => exact hrelays _ rfl
  | request operation request next => exact hrelays next rfl
  | doQueue queue resp => exact hkeeps rfl (hrefl.reply _)
  | logDone resp => exact hkeeps rfl (hrefl.reply _)
  | identifyDone resp => exact hkeeps rfl (hrefl.reply _)
  | doFormat resp => exact hkeeps rfl (hrefl.reply _)
  | smartInfo offset resp => exact hkeeps rfl (hrefl.schedule rfl)
  | identifyWrite data resp => exact hkeeps rfl (hrefl.schedule rfl)
  | managementRead nsid resp => exact hrelays (.managementDone nsid resp) rfl
  | managementDone nsid resp =>
      unfold run managementDone
      dsimp only
      cases hsize : lbaSize (informationOf arrival).lbaFormatIndex with
      | error fault =>
          intro hbug
          unfold lbaSize at hsize
          split at hsize
          · cases hsize
          · cases hsize
            cases hbug
      | ok size =>
          have hreturns := @createNamespace_returns cfg called nsid
            { informationOf arrival with lbaSize := size } rfl hsize
          refine (hreturns.mono (fun _ h => h) ?_).bind fun result hresult => ?_
          · intro fault h _ hplaced
            exact h (hplaced.of_ranges (congrArg (List.map _) hnamespaces))
          subst hcalled
          obtain rfl | ⟨range, htakes, rfl⟩ := hresult
          · exact .refuses nsid rfl rfl rfl hcreating
          · exact .creates
              { address := subsystem.nextAddress, nsid := nsid
                info := { informationOf arrival with
                  lbaSize := size, range := range }
                attached := false, formatFinishedAt := 0
                pDisk := cfg.enableDiskImage }
              arrival size _ range (Step.creation_call hdue arrival) rfl
              { htakes with } rfl rfl rfl rfl rfl hcreating
  | attachmentRead sel nsid resp => exact hkeeps rfl (hrefl.schedule rfl)
  | attachmentDone sel nsid resp =>
      refine (attachmentDone_returns sel nsid resp arrival).mono ?_
        fun _ hother hbug => absurd hbug hother
      rintro after ⟨update, responses, rfl⟩
      refine .attaches update ?_ hallocated haddress hcreating.symm
      rw [← hnamespaces]
  | doSubmit ns req func =>
      exact hsilent rfl ((namespaceAt_returns ns).bind fun this _ =>
        namespaceCommand_silent this req func)
  | submitFront req func =>
      apply hsilent rfl
      unfold run
      dsimp only
      split
      · exact nofun
      · exact namespaceCommand_silent _ req func
  | flushBegin ns resp =>
      refine hsilent rfl ((namespaceAt_returns ns).bind fun this _ => ?_)
      exact Returns.pure (hrefl.schedule rfl)
  | doFlush ns resp =>
      refine hsilent rfl ((namespaceAt_returns ns).bind fun this _ => ?_)
      exact Returns.pure (hrefl.reply _)
  | transfer kind ns context func =>
      refine hsilent rfl ((namespaceAt_returns ns).bind fun this _ => ?_)
      refine (contextAt_returns context).bind fun found _ => ?_
      exact Returns.pure (beginTransfer_keeps kind this context found)
  | transferDone kind ns context func =>
      exact hsilent rfl (transferDone_silent kind ns context arrival)
  | doTrim ns ranges resp => exact hkeeps rfl (hrefl.schedule rfl)
  | trimRead ns ranges resp =>
      refine hsilent rfl ((namespaceAt_returns ns).bind fun this _ => ?_)
      exact beginTrims_silent this ranges resp arrival
  | eachTrimDone ns context func =>
      exact hsilent rfl (eachTrimDone_silent ns context)

theorem Takes.placed {info : Information} {range : LPNRange}
    {after : Subsystem} (h : Takes cfg subsystem info range)
    (hplaced : Placed cfg subsystem)
    (hranges : after.ranges.Perm (range :: subsystem.ranges)) :
    Placed cfg after := by
  obtain ⟨free, piece, hfree, hmember, hslpn, hnlp⟩ := h.free
  obtain ⟨pieces, hpieces, hspread⟩ := hplaced.unallocated
  rw [hfree] at hpieces
  cases hpieces
  obtain ⟨hinside, hclear⟩ := hspread piece hmember
  refine hplaced.insert hranges h.filled (by omega) ?_
  intro other hother
  obtain hbelow | habove := hclear other hother
  · left
    omega
  · right
    omega

theorem Changes.placed {step : Step} {after : Subsystem}
    (h : Changes cfg step subsystem after) (hplaced : Placed cfg subsystem) :
    Placed cfg after := by
  have hsame : after.lNamespaces = subsystem.lNamespaces →
      Placed cfg after :=
    fun hnamespaces => hplaced.of_ranges (congrArg (List.map _) hnamespaces)
  have hmapped : ∀ {update : Namespace → Namespace},
      after.lNamespaces = subsystem.lNamespaces.map update →
      (∀ ns, (update ns).info.range = ns.info.range) → Placed cfg after := by
    intro update hnamespaces hrange
    apply hplaced.of_ranges
    unfold ranges
    rw [hnamespaces, List.map_map]
    exact List.map_congr_left fun ns _ => hrange ns
  cases h with
  | keeps hnamespaces => exact hsame hnamespaces
  | reserves req nsid hcause hselected hunnamed hfree havailable
      hnamespaces =>
      exact hsame hnamespaces
  | attaches update hnamespaces => exact hmapped hnamespaces fun ns => rfl
  | formats req ns hcause haccepted hfound hnamespaces =>
      apply hmapped hnamespaces
      intro other
      split <;> rfl
  | destroys req ns hcause hselected hfound hnamespaces =>
      have hfewer : after.ranges.Sublist subsystem.ranges := by
        unfold ranges
        rw [hnamespaces]
        exact List.eraseP_sublist.map _
      exact ⟨fun range hmember => hplaced.inside range (hfewer.subset hmember),
        hplaced.apart.sublist hfewer⟩
  | creates ns arrival size info range hcause hasked htakes hinfo
      hnamespaces =>
      apply htakes.placed hplaced
      have hranges := ranges_sorted hnamespaces
      rw [hinfo] at hranges
      exact hranges
  | refuses nsid hnamespaces => exact hsame hnamespaces

end Subsystem

theorem Step.perform_changes (cfg : ConfigData) (subsystem : Subsystem)
    (step : Step) :
    Returns (subsystem.Changes cfg step)
      (fun fault => fault = .bug → ¬subsystem.Placed cfg)
      (step.perform cfg subsystem) := by
  cases step with
  | submit req =>
      exact (Subsystem.submitCommand_changes req).mono (fun _ h => h)
        fun _ hother hbug => absurd hbug hother
  | call index arrival =>
      unfold Step.perform
      dsimp only
      split
      · next hdue => exact Subsystem.run_changes arrival hdue
      · exact (Subsystem.Keeps.refl subsystem).changes
  | elapse ticks => exact .keeps rfl rfl rfl (List.Perm.refl _)
  | work update => exact .keeps rfl rfl rfl (List.Perm.refl _)

end SimpleSSD.HIL.NVMe
