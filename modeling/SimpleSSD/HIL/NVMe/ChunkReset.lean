import SimpleSSD.HIL.NVMe.ChunkOrder

namespace SimpleSSD.HIL.NVMe.OpenChannel.OpenChannelSSD20

open Data PAL

variable {device : OpenChannelSSD20}

/-! What a reset does that is not clean. -/

def Freed (pDescriptor : List ChunkDescriptor) (index : Nat) : Prop :=
  ∃ desc, pDescriptor[index]? = some desc ∧ desc.chunkState = .free

section

variable {chunks : List ChunkUpdateEntry} {iter : ChunkUpdateEntry}
  {pDescriptor after : List ChunkDescriptor} {err failed : Bool}
  {idx : UInt64} {reply replied : Reply} {index : Nat}

theorem eraseCheck_free (err : Bool) {desc : ChunkDescriptor}
    (freed : desc.chunkState = .free) (pageIdx : UInt32) :
    (eraseCheck err desc pageIdx).2.2.chunkState = .free := by
  simp only [eraseCheck, freed]

theorem Freed.set {iter : Nat} {err : Bool} {desc : ChunkDescriptor}
    {pageIdx : UInt32} (freed : Freed pDescriptor index)
    (found : pDescriptor[iter]? = some desc) :
    Freed (pDescriptor.set iter (eraseCheck err desc pageIdx).2.2) index := by
  obtain ⟨held, listed, state⟩ := freed
  by_cases same : iter = index
  · subst same
    rw [found] at listed
    cases listed
    exact ⟨_, List.getElem?_set_self (List.getElem?_eq_some_iff.mp found).1,
      eraseCheck_free err state pageIdx⟩
  · exact ⟨held, (List.getElem?_set_ne same).trans listed, state⟩

theorem Freed.updateChunks (freed : Freed pDescriptor index)
    (updated : updateChunks eraseCheck chunks pDescriptor err idx reply =
      some (after, failed, replied)) : Freed after index := by
  induction chunks generalizing pDescriptor err idx reply with
  | nil =>
      cases updated
      exact freed
  | cons iter rest induction =>
      simp only [OpenChannelSSD20.updateChunks,
        Option.bind_eq_some_iff] at updated
      obtain ⟨desc, found, updated⟩ := updated
      exact induction (freed.set found) updated

/-- Whatever is wrong, a closed chunk that is listed is free afterwards. -/
theorem freed_of_closed {desc : ChunkDescriptor} (member : iter ∈ chunks)
    (found : pDescriptor[iter.pDesc]? = some desc)
    (closed : desc.chunkState = .closed)
    (updated : updateChunks eraseCheck chunks pDescriptor err idx reply =
      some (after, failed, replied)) : Freed after iter.pDesc := by
  induction chunks generalizing pDescriptor err idx reply desc with
  | nil => cases member
  | cons head rest induction =>
      simp only [OpenChannelSSD20.updateChunks,
        Option.bind_eq_some_iff] at updated
      obtain ⟨first, listed, updated⟩ := updated
      by_cases same : head.pDesc = iter.pDesc
      · rw [same] at listed updated
        rw [found] at listed
        cases listed
        apply Freed.updateChunks _ updated
        refine ⟨_, List.getElem?_set_self
          (List.getElem?_eq_some_iff.mp found).1, ?_⟩
        simp only [eraseCheck, closed]
      · rcases List.mem_cons.mp member with equal | inside
        · exact absurd (congrArg ChunkUpdateEntry.pDesc equal).symm same
        · exact induction inside
            ((List.getElem?_set_ne same).trans found) closed updated

theorem updateChunks_total
    (inside : ∀ iter ∈ chunks, iter.pDesc < pDescriptor.length) :
    ∃ result, updateChunks eraseCheck chunks pDescriptor err idx reply =
      some result := by
  induction chunks generalizing pDescriptor err idx reply with
  | nil => exact ⟨_, rfl⟩
  | cons iter rest induction =>
      have here := inside iter List.mem_cons_self
      simp only [OpenChannelSSD20.updateChunks,
        List.getElem?_eq_getElem here, Option.bind_some]
      apply induction
      intro other member
      rw [List.length_set]
      exact inside other (List.mem_cons_of_mem _ member)

end

theorem Proper.inside {iter : ChunkUpdateEntry} {place : Place}
    {pDescriptor : List ChunkDescriptor} {next : CPDPBP → Nat}
    (proper : device.Proper iter place)
    (reflects : device.Reflects pDescriptor next) :
    iter.pDesc < pDescriptor.length := by
  obtain ⟨_, found, _⟩ := reflects place proper.holds
  rw [proper.pDesc]
  exact (List.getElem?_eq_some_iff.mp found).1

theorem Sound.erase_unclean (sound : device.Sound)
    {chunks : List ChunkUpdateEntry}
    (proper : ∀ iter ∈ chunks, ∃ place, device.Proper iter place)
    {pDescriptor : List ChunkDescriptor} {next : CPDPBP → Nat}
    (reflects : device.Reflects pDescriptor next) (idx : UInt64) (reply : Reply)
    (unclean : clean chunks pDescriptor = false) :
    ∃ after failed replied next',
      updateChunks eraseCheck chunks pDescriptor false idx reply =
          some (after, failed, replied) ∧
        PageOp.applyAll next
          ((kept chunks (errors eraseCheck chunks pDescriptor false)).map
            eraseOf) = some next' ∧
        ¬ device.Reflects after next' := by
  induction chunks generalizing pDescriptor idx reply next with
  | nil => cases unclean
  | cons iter rest induction =>
      obtain ⟨place, here⟩ := proper iter List.mem_cons_self
      have others : ∀ iter ∈ rest, ∃ place, device.Proper iter place :=
        fun iter member => proper iter (List.mem_cons_of_mem _ member)
      obtain ⟨desc, found, shown⟩ := reflects place here.holds
      rw [← here.pDesc] at found
      simp only [clean, found] at unclean
      split at unclean
      · next closed =>
          have checked : eraseCheck false desc iter.pageIdx = (false, none,
              { desc with writePointer := 0, chunkState := .free }) := by
            simp only [eraseCheck, closed]
          have shows_free : device.Shows
              { desc with writePointer := 0, chunkState := .free } 0 :=
            ⟨by simp, Nat.zero_le _, rfl⟩
          have set := sound.reflects_set reflects here.holds shows_free
          rw [← here.pDesc] at set
          obtain ⟨after, failed, replied, next', updated, applied, apart⟩ :=
            induction others set (idx <<< 1)
              (mark false idx { reply with code := none.or reply.code }) unclean
          refine ⟨after, failed, replied, next', ?_, ?_, apart⟩
          · simp only [updateChunks, found, Option.bind_some, checked, updated]
          · simp only [errors, found, checked, kept, Bool.false_eq_true,
              if_false, List.map_cons, PageOp.applyAll, eraseOf, PageOp.apply,
              here.block, Option.bind_some]
            exact applied
      · next opened =>
          have refused : eraseCheck false desc iter.pageIdx =
              (true, some 0xC1, desc) := eraseCheck_refused shown opened
          obtain ⟨other, member, listed⟩ := List.all_eq_false.mp unclean
          obtain ⟨place', there⟩ := others other member
          obtain ⟨desc', found', shown'⟩ := reflects place' there.holds
          rw [← there.pDesc] at found'
          rw [found'] at listed
          have closed : desc'.chunkState = .closed := by simpa using listed
          obtain ⟨⟨after, failed, replied⟩, updated⟩ :
              ∃ result, updateChunks eraseCheck (iter :: rest) pDescriptor
                false idx reply = some result := by
            apply updateChunks_total
            intro iter member
            obtain ⟨place, here⟩ := proper iter member
            exact here.inside reflects
          obtain ⟨freed, held, state⟩ := freed_of_closed
            (List.mem_cons_of_mem _ member) found' closed updated
          refine ⟨after, failed, replied, next, updated, ?_, ?_⟩
          · simp only [updateChunks, found, Option.bind_some,
              refused] at updated
            have nothing := (eraseCheck_sticky.failed updated).2
            simp only [errors, found, refused, kept, if_true, nothing,
              List.map_nil, PageOp.applyAll]
          · intro reflected
            obtain ⟨desc'', found'', shown''⟩ := reflected place' there.holds
            rw [← there.pDesc, held] at found''
            cases found''
            rw [shown''.chunkState, ← shown'.chunkState, closed] at state
            cases state

/-- A reset leaves the descriptors in step with the flash if and only if it is
clean. -/
theorem reset_in_step_iff {param : Parameter} {useMP : Bool}
    {told : List (PageOp CPDPBP)} {lbaList : List UInt64} {mode : Bool}
    (fitting : Fitting param useMP)
    (serves : Serves (init param useMP) told device)
    (listed : device.Listed lbaList true mode) :
    ∃ after ops, device.perform (.erase lbaList mode) = some (after, ops) ∧
      ((∃ next, PageOp.applyAll (fun _ => 0) (told ++ ops) = some next ∧
          after.Reflects after.pDescriptor next) ↔
        clean (device.convertUnit lbaList true mode) device.pDescriptor =
          true) := by
  obtain ⟨sound, next, applied, reflects⟩ :=
    serves.reflects fitting.sound fitting.reflects
  cases cleanly : clean (device.convertUnit lbaList true mode)
      device.pDescriptor with
  | true =>
      obtain ⟨after, ops, next', done, more, shown⟩ :=
        sound.perform reflects
          (show device.Suits (.erase lbaList mode) from ⟨listed, cleanly⟩)
      refine ⟨_, ops, done, fun _ => rfl, fun _ => ⟨next', ?_, shown.change⟩⟩
      rw [PageOp.applyAll_append, applied, Option.bind_some, more]
  | false =>
      obtain ⟨after, failed, replied, next', updated, more, apart⟩ :=
        sound.erase_unclean (sound.listed_proper listed) reflects 1 Reply.fresh
          cleanly
      obtain ⟨reply, done⟩ := internal_eq eraseCheck_sticky listed.2 updated
      have zeroed : { Reply.fresh with dword0 := 0, reserved := 0 } =
          Reply.fresh := rfl
      refine ⟨{ device with pDescriptor := after },
        (kept (device.convertUnit lbaList true mode)
          (errors eraseCheck (device.convertUnit lbaList true mode)
            device.pDescriptor false)).map eraseOf, ?_, ?_⟩
      · simp only [perform, eraseInternal]
        rw [zeroed, done, Option.map_some]
      · constructor
        · intro step
          obtain ⟨last, reached, shown⟩ := step
          rw [PageOp.applyAll_append, applied, Option.bind_some, more] at reached
          cases reached
          exact absurd shown.change apart
        · intro never
          cases never

def twoChunks : Parameter where
  channel := 1
  package := 1
  die := 1
  plane := 1
  block := 2
  page := 1
  pageSize := 8192
  superBlock := 2
  superPageSize := 8192
  pageInSuperPage := 1

theorem twoChunks_fitting : Fitting twoChunks false where
  die := by decide
  plane := by decide
  whole := by decide
  some := by decide
  chunk := by decide
  table := by decide

/-- The first chunk is free and the second one is not. -/
theorem reset_in_step_iff_free_first :
    ∃ told device, Serves (init twoChunks false) told device ∧
      ∃ after ops, device.perform (.erase [0, 2] true) = some (after, ops) ∧
        ¬ ∃ next, PageOp.applyAll (fun _ => 0) (told ++ ops) = some next ∧
          after.Reflects after.pDescriptor next := by
  have found : (serve [.write [2] true] ([], init twoChunks false)).any
      (fun reached => reached.2.Listed [0, 2] true true ∧
        clean (reached.2.convertUnit [0, 2] true true) reached.2.pDescriptor =
          false) = true := by
    decide +kernel
  obtain ⟨reached, served, suits⟩ := (Option.any_eq_true _ _).mp found
  obtain ⟨listed, unclean⟩ := of_decide_eq_true suits
  have serves := serve_serves .start served
  obtain ⟨after, ops, done, iff⟩ :=
    reset_in_step_iff twoChunks_fitting serves listed
  refine ⟨reached.1, reached.2, serves, after, ops, done, ?_⟩
  rw [iff, unclean]
  exact Bool.false_ne_true

end SimpleSSD.HIL.NVMe.OpenChannel.OpenChannelSSD20
