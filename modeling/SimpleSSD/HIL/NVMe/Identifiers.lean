import SimpleSSD.HIL.NVMe.Capacity

namespace SimpleSSD.HIL.NVMe

open Data (Returns Along)

/-! A creation takes its id when it is submitted, and the namespace appears when
its data is there.  The id is looked for in the list of the namespaces only. -/

def Step.chooses (subsystem : Subsystem) (step : Step) : Option UInt32 :=
  (step.admin .namespaceManagement).bind fun req =>
    if Subsystem.selectOf req = 0x00 ∧ req.namespaceID = nsidNone then
      some (Subsystem.freeNSID subsystem.lNamespaces nsidLowest)
    else none

def Step.ChoosesFresh (subsystem : Subsystem) (step : Step) : Prop :=
  ∀ nsid ∈ step.chooses subsystem, nsid ∉ subsystem.creating

instance (subsystem : Subsystem) (step : Step) :
    Decidable (step.ChoosesFresh subsystem) :=
  Option.decidableForallMem (step.chooses subsystem)

namespace Subsystem

def ids (subsystem : Subsystem) : List UInt32 :=
  subsystem.lNamespaces.map Namespace.nsid

def UniqueIDs (subsystem : Subsystem) : Prop := subsystem.ids.Nodup

instance (subsystem : Subsystem) : Decidable subsystem.UniqueIDs :=
  inferInstanceAs (Decidable subsystem.ids.Nodup)

/-- The ids of the namespaces and of the creations under way are different
ones. -/
structure Identified (subsystem : Subsystem) : Prop where
  unique : (subsystem.ids ++ subsystem.creating).Nodup
  bounded : ∀ nsid ∈ subsystem.ids ++ subsystem.creating,
    1 ≤ nsid.toNat ∧ nsid.toNat < 4294967295
  sorted : subsystem.ids.Pairwise (· ≤ ·)

/-- The search stops at an id that no namespace has. -/
theorem freeNSID_not_mem {namespaces : List Namespace} {nsid : UInt32}
    (hsorted : (namespaces.map Namespace.nsid).Pairwise (· < ·))
    (hbounded : ∀ ns ∈ namespaces,
      nsid.toNat ≤ ns.nsid.toNat ∧ ns.nsid.toNat < 4294967295) :
    freeNSID namespaces nsid ∉ namespaces.map Namespace.nsid ∧
      nsid.toNat ≤ (freeNSID namespaces nsid).toNat := by
  induction namespaces generalizing nsid with
  | nil => exact ⟨List.not_mem_nil, Nat.le_refl _⟩
  | cons ns rest ih =>
      rw [List.map_cons, List.pairwise_cons] at hsorted
      obtain ⟨hfirst, hrest⟩ := hsorted
      have hhere := hbounded ns (.head _)
      have hlater : ∀ other ∈ rest, ns.nsid.toNat < other.nsid.toNat :=
        fun other hother => UInt32.lt_iff_toNat_lt.mp
          (hfirst _ (List.mem_map_of_mem hother))
      unfold freeNSID
      split
      · next hsame =>
          have hnext : (nsid + 1).toNat = nsid.toNat + 1 := by
            rw [UInt32.toNat_add]
            apply Nat.mod_eq_of_lt
            change nsid.toNat + 1 < 4294967296
            omega
          obtain ⟨hfree, hle⟩ := @ih (nsid + 1) hrest (by
            intro other hother
            have habove := hlater other hother
            have hbelow := (hbounded other (.tail _ hother)).2
            rw [hsame] at habove
            omega)
          refine ⟨?_, by omega⟩
          rw [List.map_cons, List.mem_cons]
          rintro (hequal | hlisted)
          · rw [hequal, hsame] at hle
            omega
          · exact hfree hlisted
      · next hother =>
          refine ⟨?_, Nat.le_refl _⟩
          rw [List.map_cons, List.mem_cons]
          rintro (hequal | hlisted)
          · exact hother hequal.symm
          · obtain ⟨other, hmember, rfl⟩ := List.mem_map.mp hlisted
            have habove := hlater other hmember
            omega

section

variable {cfg : ConfigData} {subsystem after : Subsystem}

theorem Identified.of_perm (h : Identified subsystem) (gone : List UInt32)
    (hperm : (gone ++ (after.ids ++ after.creating)).Perm
      (subsystem.ids ++ subsystem.creating))
    (hsorted : after.ids.Pairwise (· ≤ ·)) : Identified after := by
  have hunique := hperm.nodup_iff.mpr h.unique
  refine ⟨(List.nodup_append.mp hunique).2.1, ?_, hsorted⟩
  intro nsid hnsid
  exact h.bounded nsid
    (hperm.mem_iff.mp (List.mem_append_right gone hnsid))

theorem Identified.same (h : Identified subsystem)
    (hids : after.ids = subsystem.ids)
    (hcreating : after.creating.Perm subsystem.creating) :
    Identified after := by
  refine h.of_perm [] ?_ (by rw [hids]; exact h.sorted)
  rw [List.nil_append, hids]
  exact hcreating.append_left _

theorem sortNamespaces_sorted (namespaces : List Namespace) :
    ((sortNamespaces namespaces).map Namespace.nsid).Pairwise (· ≤ ·) := by
  have : Std.Total fun left right : Namespace => left.nsid ≤ right.nsid :=
    ⟨fun left right => UInt32.le_total _ _⟩
  have : IsTrans Namespace fun left right => left.nsid ≤ right.nsid :=
    ⟨fun _ _ _ => UInt32.le_trans⟩
  rw [List.pairwise_map]
  exact List.pairwise_insertionSort _ _

theorem Identified.strictly (h : Identified subsystem) :
    subsystem.ids.Pairwise (· < ·) := by
  have hunique := (List.nodup_append.mp h.unique).1
  refine (h.sorted.and hunique).imp fun {left right} hboth => ?_
  exact UInt32.lt_of_le_of_ne hboth.1 hboth.2

/-- The id of a creation is one that neither a namespace nor, by the condition,
a creation under way has. -/
theorem Identified.reserve (h : Identified subsystem) {nsid : UInt32}
    (hfree : nsid = freeNSID subsystem.lNamespaces nsidLowest)
    (havailable : nsid ≠ nsidAll) (hfresh : nsid ∉ subsystem.creating)
    (hids : after.ids = subsystem.ids)
    (hcreating : after.creating.Perm (nsid :: subsystem.creating)) :
    Identified after := by
  obtain ⟨hunlisted, hle⟩ := @freeNSID_not_mem _ nsidLowest h.strictly (by
    intro ns hns
    exact h.bounded ns.nsid (List.mem_append_left _ (List.mem_map_of_mem hns)))
  rw [← hfree] at hunlisted hle
  have hperm : (after.ids ++ after.creating).Perm
      (nsid :: (subsystem.ids ++ subsystem.creating)) := by
    rw [hids]
    exact (hcreating.append_left _).trans List.perm_middle
  refine ⟨?_, ?_, by rw [hids]; exact h.sorted⟩
  · rw [hperm.nodup_iff, List.nodup_cons, List.mem_append]
    exact ⟨fun hlisted => hlisted.elim hunlisted hfresh, h.unique⟩
  · intro other hother
    rcases List.mem_cons.mp (hperm.mem_iff.mp hother) with hsame | hlisted
    · subst hsame
      have hlt := other.toNat_lt
      have hne : other.toNat ≠ 4294967295 := fun hall =>
        havailable (UInt32.toNat_inj.mp hall)
      change 1 ≤ other.toNat at hle
      omega
    · exact h.bounded other hlisted

theorem Changes.identified {step : Step}
    (h : Changes cfg step subsystem after)
    (hfresh : step.ChoosesFresh subsystem) (hids : Identified subsystem) :
    Identified after := by
  cases h with
  | keeps hnamespaces hallocated haddress hcreating =>
      exact hids.same (congrArg (List.map _) hnamespaces) hcreating
  | reserves req nsid hcause hselected hunnamed hfree havailable hnamespaces
      hallocated haddress hcreating =>
      have hchooses : step.chooses subsystem = some nsid := by
        unfold Step.chooses
        rw [hcause, Option.bind_some, if_pos ⟨hselected, hunnamed⟩, hfree]
      exact hids.reserve hfree havailable (hfresh nsid hchooses)
        (congrArg (List.map _) hnamespaces) hcreating
  | attaches update hnamespaces hallocated haddress hcreating =>
      apply hids.same _ hcreating
      unfold ids
      rw [hnamespaces, List.map_map]
      rfl
  | formats req ns hcause haccepted hfound hnamespaces hallocated haddress
      hcreating =>
      apply hids.same _ hcreating
      unfold ids
      rw [hnamespaces, List.map_map]
      apply List.map_congr_left
      intro other _
      dsimp only [Function.comp_apply]
      split <;> rfl
  | destroys req ns hcause hselected hfound hnamespaces hallocated haddress
      hcreating =>
      have hperm : (ns.nsid :: after.ids).Perm subsystem.ids := by
        unfold ids
        rw [hnamespaces]
        exact ((find_perm_eraseP hfound).map Namespace.nsid).symm
      have hfewer : after.ids.Sublist subsystem.ids := by
        unfold ids
        rw [hnamespaces]
        exact List.eraseP_sublist.map _
      exact hids.of_perm [ns.nsid] (hperm.append hcreating)
        (hids.sorted.sublist hfewer)
  | creates ns arrival size info range hcause hasked htakes hinfo
      hnamespaces hallocated haddress hnew hcreating =>
      have hperm : after.ids.Perm (ns.nsid :: subsystem.ids) := by
        unfold ids
        rw [hnamespaces]
        exact (sortNamespaces_perm _ ns).map Namespace.nsid
      refine hids.of_perm [] ?_ ?_
      · exact (hperm.append_right _).trans
          (List.perm_middle.symm.trans (hcreating.symm.append_left _))
      · unfold ids
        rw [hnamespaces]
        exact sortNamespaces_sorted _
  | refuses nsid hnamespaces hallocated haddress hcreating =>
      have hsame : after.ids = subsystem.ids :=
        congrArg (List.map _) hnamespaces
      refine hids.of_perm [nsid] ?_ (by rw [hsame]; exact hids.sorted)
      rw [hsame, List.singleton_append]
      exact List.perm_middle.symm.trans (hcreating.symm.append_left _)

theorem Packed.identified {info : Information} {count : Nat}
    (h : Packed cfg info count subsystem) (hcount : count < 65536) :
    Identified subsystem := by
  have hids : subsystem.ids = (List.range count).map fun i =>
      nsidLowest + UInt32.ofNat i := by
    unfold ids
    rw [h.namespaces, List.map_map]
    rfl
  have hcreating : subsystem.creating = [] := by
    unfold creating
    rw [h.idle]
    rfl
  have hordered : subsystem.ids.Pairwise (· < ·) := by
    rw [hids, List.pairwise_map]
    refine List.pairwise_lt_range.imp_of_mem fun {i j} hi hj hlt => ?_
    rw [List.mem_range] at hi hj
    rw [UInt32.lt_iff_toNat_lt, toNat_nsid (by omega), toNat_nsid (by omega)]
    omega
  refine ⟨?_, ?_, hordered.imp UInt32.le_of_lt⟩
  · rw [hcreating, List.append_nil]
    exact hordered.imp UInt32.ne_of_lt
  · intro nsid hnsid
    rw [hcreating, List.append_nil, hids] at hnsid
    obtain ⟨i, hi, rfl⟩ := List.mem_map.mp hnsid
    rw [List.mem_range] at hi
    rw [toNat_nsid (by omega)]
    omega

end

/-- In a run in which no creation takes the id of one that is under way the
ids of the namespaces are different ones in every state. -/
theorem unique_namespace_ids (cfg : ConfigData) (nNamespaces : UInt16)
    (lba : UInt32) (controller : Controller) (queueAllocated : UInt32)
    {start : Subsystem}
    (hstart : init cfg nNamespaces lba (make controller queueAllocated) =
      .ok start)
    (steps : List Step)
    (hrun : Along (fun reached step => step.perform cfg reached)
      (fun reached step => step.ChoosesFresh reached) start steps) :
    Returns UniqueIDs (fun _ => True) (performAll cfg start steps) := by
  obtain ⟨info, hinitial⟩ := (init_returns cfg nNamespaces lba controller
    queueAllocated).of_ok hstart
  have hstep : ∀ (reached : Subsystem) (step : Step), Identified reached →
      step.ChoosesFresh reached →
      Returns Identified (fun _ => True) (step.perform cfg reached) := by
    intro reached step hids hfresh
    refine (step.perform_changes cfg reached).mono ?_ fun _ _ => trivial
    exact fun after hchanges => hchanges.identified hfresh hids
  exact (hrun.returns hstep
    (hinitial.packed.identified nNamespaces.toNat_lt)).mono
      (fun _ h => (List.nodup_append.mp h.unique).1) fun _ h => h

/-- Two creations that are under way at the same time have one id. -/
theorem two_creations_share_id :
    ¬Returns (fun start => Returns UniqueIDs (fun _ => True)
        (performAll sampleConfig start
          [.submit (adminCommandOf 0x0D 0 0x00),
            .submit (adminCommandOf 0x0D 0 0x00), .call 0 noArrival,
            .call 0 noArrival, .call 0 (descriptionOf 4096 0),
            .call 0 (descriptionOf 4096 0)]))
      (fun _ => True)
      (init sampleConfig 0 512 (make (Controller.enabled 1 1 64) 0)) := by
  decide +kernel

theorem unique_namespace_ids_one_by_one :
    Returns UniqueIDs (fun _ => True)
      (performAll sampleConfig (make (Controller.enabled 1 1 64) 0)
        (creationSteps 4096 0 ++ creationSteps 4096 0)) :=
  unique_namespace_ids sampleConfig 0 512 (Controller.enabled 1 1 64) 0 rfl
    (creationSteps 4096 0 ++ creationSteps 4096 0) (by decide +kernel)

end Subsystem

end SimpleSSD.HIL.NVMe
