import SimpleSSD.HIL.NVMe.ChunkMask

namespace SimpleSSD.HIL.NVMe.OpenChannel.OpenChannelSSD20

open Data PAL

/-! The descriptors tell which pages of the flash may be programmed. -/

/-- Digits below the size of their place are determined by the number. -/
theorem mul_add_inj {size high low high' low' : Nat} (below : low < size)
    (below' : low' < size) (same : high * size + low = high' * size + low') :
    high = high' ∧ low = low' := by
  have positive : 0 < size := by omega
  have low_same : low = low' := by
    calc low = (high * size + low) % size := by
          rw [Nat.mul_comm, Nat.mul_add_mod, Nat.mod_eq_of_lt below]
      _ = (high' * size + low') % size := by rw [same]
      _ = low' := by
          rw [Nat.mul_comm, Nat.mul_add_mod, Nat.mod_eq_of_lt below']
  refine ⟨Nat.eq_of_mul_eq_mul_right positive ?_, low_same⟩
  omega

structure Place where
  g : UInt32
  p : UInt32
  c : UInt32
  deriving DecidableEq, Repr

structure Holds (device : OpenChannelSSD20) (place : Place) : Prop where
  g : place.g.toNat < device.geometry.group.toNat
  p : place.p.toNat < device.geometry.parallelUnit.toNat
  c : place.c.toNat < device.geometry.chunk.toNat

variable {device : OpenChannelSSD20}

def indexOf (device : OpenChannelSSD20) (place : Place) : Nat :=
  (device.geometry.descriptorIndex place.g place.p place.c).toNat

def blockOf (device : OpenChannelSSD20) (place : Place) : CPDPBP where
  channel := place.g.toNat
  package := (place.p / device.param.die).toNat
  die := (place.p % device.param.die).toNat
  plane := if device.useMP then 0 else (place.c % device.param.plane).toNat
  block :=
    if device.useMP then place.c.toNat
    else (place.c / device.param.plane).toNat
  page := 0

/-- The dimensions are not zero, a chunk has whole pages, and the descriptors
have numbers of 32 bits. -/
structure Sound (device : OpenChannelSSD20) : Prop where
  die : 0 < device.param.die.toNat
  plane : 0 < device.param.plane.toNat
  writeSize : 0 < device.geometry.writeSize.toNat
  pages : device.geometry.chunkSize.toNat =
    device.param.page.toNat * device.geometry.writeSize.toNat
  table : device.geometry.group.toNat * device.geometry.parallelUnit.toNat *
    device.geometry.chunk.toNat < 2 ^ 32

theorem Holds.position_lt {place : Place} (holds : device.Holds place) :
    (place.g.toNat * device.geometry.parallelUnit.toNat + place.p.toNat) *
        device.geometry.chunk.toNat + place.c.toNat <
      device.geometry.group.toNat * device.geometry.parallelUnit.toNat *
        device.geometry.chunk.toNat := by
  have unit : place.g.toNat * device.geometry.parallelUnit.toNat +
      place.p.toNat < device.geometry.group.toNat *
        device.geometry.parallelUnit.toNat := by
    have next := Nat.mul_le_mul_right device.geometry.parallelUnit.toNat
      (Nat.succ_le_of_lt holds.g)
    rw [Nat.succ_mul] at next
    have inside := holds.p
    omega
  have next := Nat.mul_le_mul_right device.geometry.chunk.toNat
    (Nat.succ_le_of_lt unit)
  rw [Nat.succ_mul] at next
  have inside := holds.c
  omega

theorem Sound.indexOf_eq (sound : device.Sound) {place : Place}
    (holds : device.Holds place) :
    device.indexOf place =
      (place.g.toNat * device.geometry.parallelUnit.toNat + place.p.toNat) *
        device.geometry.chunk.toNat + place.c.toNat := by
  have below := Nat.lt_trans holds.position_lt sound.table
  rw [Nat.add_mul] at below ⊢
  simp only [indexOf, Geometry.descriptorIndex, UInt32.toNat_add,
    UInt32.toNat_mul, Nat.mod_mul_mod, Nat.add_mod_mod, Nat.mod_add_mod]
  exact Nat.mod_eq_of_lt below

theorem Sound.indexOf_inj (sound : device.Sound) {place other : Place}
    (holds : device.Holds place) (holds' : device.Holds other)
    (same : device.indexOf place = device.indexOf other) : place = other := by
  rw [sound.indexOf_eq holds, sound.indexOf_eq holds'] at same
  obtain ⟨unit, c⟩ := mul_add_inj holds.c holds'.c same
  obtain ⟨g, p⟩ := mul_add_inj holds.p holds'.p unit
  cases place
  cases other
  cases UInt32.toNat_inj.mp g
  cases UInt32.toNat_inj.mp p
  cases UInt32.toNat_inj.mp c
  rfl

theorem eq_of_div_mod {number other size : UInt32}
    (quotient : (number / size).toNat = (other / size).toNat)
    (remainder : (number % size).toNat = (other % size).toNat) :
    number = other := by
  rw [UInt32.toNat_div, UInt32.toNat_div] at quotient
  rw [UInt32.toNat_mod, UInt32.toNat_mod] at remainder
  apply UInt32.toNat_inj.mp
  rw [← Nat.div_add_mod number.toNat size.toNat, quotient, remainder,
    Nat.div_add_mod]

theorem blockOf_inj {place other : Place}
    (same : device.blockOf place = device.blockOf other) : place = other := by
  simp only [blockOf, CPDPBP.mk.injEq] at same
  obtain ⟨g, package, die, plane, block, _⟩ := same
  have p := eq_of_div_mod package die
  have c : place.c = other.c := by
    cases mp : device.useMP with
    | true =>
        simp only [mp, if_true] at block
        exact UInt32.toNat_inj.mp block
    | false =>
        simp only [mp, Bool.false_eq_true, if_false] at plane block
        exact eq_of_div_mod block plane
  cases place
  cases other
  cases UInt32.toNat_inj.mp g
  cases p
  cases c
  rfl

structure Proper (device : OpenChannelSSD20) (iter : ChunkUpdateEntry)
    (place : Place) : Prop where
  holds : device.Holds place
  pDesc : iter.pDesc = device.indexOf place
  block : { iter.cell with page := 0 } = device.blockOf place
  page : iter.cell.page = iter.pageIdx.toNat
  below : iter.pageIdx.toNat < device.param.page.toNat

theorem Sound.entryOf_proper (sound : device.Sound) {lba : UInt64}
    (inside : device.geometry.Inside (device.ppaMask.parseLBA lba)) :
    device.Proper (device.entryOf lba)
      ⟨(device.ppaMask.parseLBA lba).g, (device.ppaMask.parseLBA lba).p,
        (device.ppaMask.parseLBA lba).c⟩ where
  holds := {
    g := UInt32.lt_iff_toNat_lt.mp inside.g
    p := UInt32.lt_iff_toNat_lt.mp inside.p
    c := UInt32.lt_iff_toNat_lt.mp inside.c }
  pDesc := rfl
  block := rfl
  page := rfl
  below := by
    have sector := UInt32.lt_iff_toNat_lt.mp inside.l
    rw [sound.pages, Nat.mul_comm] at sector
    simp only [entryOf, UInt32.toNat_div]
    exact Nat.div_lt_of_lt_mul sector

theorem mem_convert {block : Bool} {list : List ChunkUpdateEntry}
    {lba : UInt64} {iter : ChunkUpdateEntry}
    (member : iter ∈ device.convert block list lba) :
    iter ∈ list ∨ iter = device.entryOf lba := by
  simp only [convert] at member
  split at member
  · split at member
    · exact .inl member
    · rcases List.mem_append.mp member with old | new
      · exact .inl old
      · exact .inr (List.mem_singleton.mp new)
  · exact .inr (List.mem_singleton.mp member)

theorem mem_convertUnit {lbaList : List UInt64} {block mode : Bool}
    {iter : ChunkUpdateEntry}
    (member : iter ∈ device.convertUnit lbaList block mode) :
    ∃ lba ∈ blocksOf lbaList mode, iter = device.entryOf lba := by
  have every : ∀ (blocks : List UInt64) (list : List ChunkUpdateEntry),
      iter ∈ blocks.foldl (device.convert block) list →
        iter ∈ list ∨ ∃ lba ∈ blocks, iter = device.entryOf lba := by
    intro blocks
    induction blocks with
    | nil => exact fun list inside => .inl inside
    | cons lba rest induction =>
        intro list inside
        rcases induction _ inside with converted | ⟨other, listed, same⟩
        · rcases mem_convert converted with old | same
          · exact .inl old
          · exact .inr ⟨lba, List.mem_cons_self, same⟩
        · exact .inr ⟨other, List.mem_cons_of_mem _ listed, same⟩
  rcases every _ _ member with none_listed | found
  · cases none_listed
  · exact found

/-- A descriptor shows how many pages the flash takes to be used. -/
structure Shows (device : OpenChannelSSD20) (desc : ChunkDescriptor)
    (used : Nat) : Prop where
  writePointer : desc.writePointer.toNat =
    used * device.geometry.writeSize.toNat
  le : used ≤ device.param.page.toNat
  chunkState : desc.chunkState =
    if used = 0 then .free
    else if used = device.param.page.toNat then .closed
    else .opened

def Reflects (device : OpenChannelSSD20) (pDescriptor : List ChunkDescriptor)
    (next : CPDPBP → Nat) : Prop :=
  ∀ place, device.Holds place → ∃ desc,
    pDescriptor[device.indexOf place]? = some desc ∧
      device.Shows desc (next (device.blockOf place))

theorem Reflects.change {pDescriptor after : List ChunkDescriptor}
    {next : CPDPBP → Nat} (reflects : device.Reflects pDescriptor next) :
    Reflects { device with pDescriptor := after } pDescriptor next := by
  intro place holds
  obtain ⟨desc, found, shown⟩ :=
    reflects place ⟨holds.g, holds.p, holds.c⟩
  exact ⟨desc, found, shown.writePointer, shown.le, shown.chunkState⟩

theorem Sound.reflects_set (sound : device.Sound)
    {pDescriptor : List ChunkDescriptor} {next : CPDPBP → Nat}
    {place : Place} {desc : ChunkDescriptor} {used : Nat}
    (reflects : device.Reflects pDescriptor next) (holds : device.Holds place)
    (shows_used : device.Shows desc used) :
    device.Reflects (pDescriptor.set (device.indexOf place) desc)
      (Function.update next (device.blockOf place) used) := by
  intro other holds'
  obtain ⟨old, found, shown⟩ := reflects other holds'
  by_cases same : other = place
  · subst same
    refine ⟨desc, ?_, ?_⟩
    · exact List.getElem?_set_self (List.getElem?_eq_some_iff.mp found).1
    · rw [Function.update_self]
      exact shows_used
  · refine ⟨old, ?_, ?_⟩
    · rw [List.getElem?_set_ne]
      · exact found
      · intro equal
        exact same (sound.indexOf_inj holds holds' equal).symm
    · rw [Function.update_of_ne]
      · exact shown
      · intro equal
        exact same (blockOf_inj equal)

/-- A write is refused if its page was passed, or after another error. -/
theorem Sound.writeCheck_refused {desc : ChunkDescriptor} {used : Nat}
    {pageIdx : UInt32} {err : Bool} (sound : device.Sound)
    (shown : device.Shows desc used)
    (refused : err = true ∨ pageIdx.toNat < used) :
    device.writeCheck err desc pageIdx = (true, some 0xF2, desc) := by
  simp only [writeCheck]
  split
  · rfl
  · rfl
  · next opened =>
      have size : device.geometry.writeSize.toUInt64.toNat =
          device.geometry.writeSize.toNat := UInt32.toNat_toUInt64 _
      have passed : (desc.writePointer /
          device.geometry.writeSize.toUInt64).toNat = used := by
        rw [UInt64.toNat_div, shown.writePointer, size,
          Nat.mul_div_cancel _ sound.writeSize]
      split
      · rfl
      · next within =>
          have within := UInt64.le_iff_toNat_le.mp (UInt64.not_lt.mp within)
          rw [passed, UInt32.toNat_toUInt64] at within
          rw [refused.resolve_right (by omega)]
          rfl
  · next free =>
      have state := shown.chunkState
      rw [free] at state
      split at state
      · rw [refused.resolve_right (by omega)]
        rfl
      · split at state <;> cases state

theorem Sound.writeCheck_accepted {desc : ChunkDescriptor} {used : Nat}
    {pageIdx : UInt32} (sound : device.Sound)
    (shown : device.Shows desc used)
    (below : pageIdx.toNat < device.param.page.toNat)
    (allowed : used ≤ pageIdx.toNat) :
    ∃ after, device.writeCheck false desc pageIdx = (false, none, after) ∧
      device.Shows after (pageIdx.toNat + 1) := by
  have page_small := device.param.page.toNat_lt
  have succ : (pageIdx + 1).toNat = pageIdx.toNat + 1 := by
    rw [UInt32.toNat_add]
    exact Nat.mod_eq_of_lt (by simp only [UInt32.toNat_one]; omega)
  have product : (pageIdx.toNat + 1) * device.geometry.writeSize.toNat <
      2 ^ 32 := by
    apply Nat.lt_of_le_of_lt _ device.geometry.chunkSize.toNat_lt
    rw [sound.pages]
    exact Nat.mul_le_mul_right _ below
  have pointer : ((pageIdx + 1) *
      device.geometry.writeSize).toUInt64.toNat =
        (pageIdx.toNat + 1) * device.geometry.writeSize.toNat := by
    rw [UInt32.toNat_toUInt64, UInt32.toNat_mul, succ]
    exact Nat.mod_eq_of_lt product
  have last : pageIdx = device.param.page - 1 ↔
      pageIdx.toNat + 1 = device.param.page.toNat := by
    have one : (1 : UInt32) ≤ device.param.page :=
      UInt32.le_iff_toNat_le.mpr (by simp only [UInt32.toNat_one]; omega)
    rw [← UInt32.toNat_inj, UInt32.toNat_sub_of_le _ _ one,
      UInt32.toNat_one]
    omega
  have accepted : device.writeCheck false desc pageIdx = (false, none,
      { desc with
        writePointer := ((pageIdx + 1) * device.geometry.writeSize).toUInt64
        chunkState :=
          if pageIdx = device.param.page - 1 then .closed else .opened }) := by
    have state := shown.chunkState
    simp only [writeCheck]
    split
    · next offline =>
        rw [offline] at state
        split at state
        · cases state
        · split at state <;> cases state
    · next closed =>
        rw [closed] at state
        split at state
        · cases state
        · split at state
          · omega
          · cases state
    · next opened =>
        have passed : (desc.writePointer /
            device.geometry.writeSize.toUInt64).toNat = used := by
          rw [UInt64.toNat_div, shown.writePointer, UInt32.toNat_toUInt64,
            Nat.mul_div_cancel _ sound.writeSize]
        have within : ¬ desc.writePointer /
            device.geometry.writeSize.toUInt64 > pageIdx.toUInt64 := by
          apply UInt64.not_lt.mpr
          rw [UInt64.le_iff_toNat_le, passed, UInt32.toNat_toUInt64]
          exact allowed
        rw [if_neg within]
        rfl
    · rfl
  refine ⟨_, accepted, pointer, by omega, ?_⟩
  dsimp only
  rw [if_neg (Nat.succ_ne_zero _)]
  simp only [last]

theorem eraseCheck_refused {desc : ChunkDescriptor} {used : Nat} {err : Bool}
    (shown : device.Shows desc used) (opened : desc.chunkState ≠ .closed) :
    eraseCheck err desc pageIdx = (true, some 0xC1, desc) := by
  have state := shown.chunkState
  simp only [eraseCheck]
  split
  · next offline =>
      rw [offline] at state
      split at state
      · cases state
      · split at state <;> cases state
  · rfl
  · rfl
  · next closed => exact absurd closed opened

/-! The loops over the descriptors. -/

def programOf (iter : ChunkUpdateEntry) : PageOp CPDPBP :=
  .program { iter.cell with page := 0 } iter.cell.page

def eraseOf (iter : ChunkUpdateEntry) : PageOp CPDPBP :=
  .erase { iter.cell with page := 0 }

/-- What a loop leaves: the descriptors reflect the flash once the operations
that are kept were done. -/
structure Leaves (device : OpenChannelSSD20) (check : Check)
    (op : ChunkUpdateEntry → PageOp CPDPBP) (chunks : List ChunkUpdateEntry)
    (pDescriptor : List ChunkDescriptor) (err : Bool) (idx : UInt64)
    (reply : Reply) (next : CPDPBP → Nat) : Prop where
  ends : ∃ after failed replied next',
    updateChunks check chunks pDescriptor err idx reply =
        some (after, failed, replied) ∧
      PageOp.applyAll next
        ((kept chunks (errors check chunks pDescriptor err)).map op) =
          some next' ∧
      device.Reflects after next'

section

variable {check : Check} {op : ChunkUpdateEntry → PageOp CPDPBP}
  {iter : ChunkUpdateEntry} {rest : List ChunkUpdateEntry}
  {pDescriptor : List ChunkDescriptor} {err : Bool} {idx : UInt64}
  {reply : Reply} {next : CPDPBP → Nat} {desc after : ChunkDescriptor}
  {code : Option UInt8}

theorem Leaves.refused (found : pDescriptor[iter.pDesc]? = some desc)
    (checked : check err desc iter.pageIdx = (true, code, desc))
    (remaining : ∀ reply, device.Leaves check op rest pDescriptor true
      (idx <<< 1) reply next) :
    device.Leaves check op (iter :: rest) pDescriptor err idx reply next := by
  have same : pDescriptor.set iter.pDesc desc = pDescriptor := by
    obtain ⟨bound, here⟩ := List.getElem?_eq_some_iff.mp found
    rw [← here]
    exact List.set_getElem_self bound
  obtain ⟨after, failed, replied, next', updated, applied, reflects⟩ :=
    (remaining (mark true idx { reply with code := code.or reply.code })).ends
  refine ⟨after, failed, replied, next', ?_, ?_, reflects⟩
  · simp only [updateChunks, found, Option.bind_some, checked, same, updated]
  · simpa only [errors, found, checked, same, kept, if_true] using applied

theorem Leaves.accepted {middle : CPDPBP → Nat}
    (found : pDescriptor[iter.pDesc]? = some desc)
    (checked : check false desc iter.pageIdx = (false, code, after))
    (applies : (op iter).apply next = some middle)
    (remaining : ∀ reply, device.Leaves check op rest
      (pDescriptor.set iter.pDesc after) false (idx <<< 1) reply middle) :
    device.Leaves check op (iter :: rest) pDescriptor false idx reply
      next := by
  obtain ⟨last, failed, replied, next', updated, applied, reflects⟩ :=
    (remaining (mark false idx { reply with code := code.or reply.code })).ends
  refine ⟨last, failed, replied, next', ?_, ?_, reflects⟩
  · simp only [updateChunks, found, Option.bind_some, checked, updated]
  · simp only [errors, found, checked, kept, Bool.false_eq_true, if_false,
      List.map_cons, PageOp.applyAll, applies, Option.bind_some, applied]

end

/-- A page that is accepted is the next one of its block or a later one. -/
theorem Sound.write_leaves (sound : device.Sound)
    {chunks : List ChunkUpdateEntry}
    (proper : ∀ iter ∈ chunks, ∃ place, device.Proper iter place)
    {pDescriptor : List ChunkDescriptor} {err : Bool} {idx : UInt64}
    {reply : Reply} {next : CPDPBP → Nat}
    (reflects : device.Reflects pDescriptor next) :
    device.Leaves device.writeCheck programOf chunks pDescriptor err idx reply
      next := by
  induction chunks generalizing pDescriptor err idx reply next with
  | nil => exact ⟨_, _, _, _, rfl, rfl, reflects⟩
  | cons iter rest induction =>
      obtain ⟨place, here⟩ := proper iter List.mem_cons_self
      have others : ∀ iter ∈ rest, ∃ place, device.Proper iter place :=
        fun iter member => proper iter (List.mem_cons_of_mem _ member)
      obtain ⟨desc, found, shown⟩ := reflects place here.holds
      rw [← here.pDesc] at found
      by_cases refused : err = true ∨
          iter.pageIdx.toNat < next (device.blockOf place)
      · exact Leaves.refused found (sound.writeCheck_refused shown refused)
          fun reply => induction others reflects
      · obtain ⟨no_error, allowed⟩ := not_or.mp refused
        rw [Bool.not_eq_true] at no_error
        subst no_error
        have allowed := Nat.le_of_not_lt allowed
        obtain ⟨after, checked, shows_after⟩ :=
          sound.writeCheck_accepted shown here.below allowed
        apply Leaves.accepted found checked
        · simp only [programOf, PageOp.apply, here.block, here.page]
          exact if_pos allowed
        · intro reply
          apply induction others
          rw [here.pDesc]
          exact sound.reflects_set reflects here.holds shows_after

def clean : List ChunkUpdateEntry → List ChunkDescriptor → Bool
  | [], _ => true
  | iter :: rest, pDescriptor =>
      match pDescriptor[iter.pDesc]? with
      | none => false
      | some desc =>
          if desc.chunkState = .closed then
            clean rest (pDescriptor.set iter.pDesc
              { desc with writePointer := 0, chunkState := .free })
          else
            rest.all fun other =>
              pDescriptor[other.pDesc]?.all fun desc =>
                desc.chunkState ≠ .closed

theorem erase_refused {chunks : List ChunkUpdateEntry}
    (proper : ∀ iter ∈ chunks, ∃ place, device.Proper iter place)
    {pDescriptor : List ChunkDescriptor} {err : Bool} {idx : UInt64}
    {reply : Reply} {next : CPDPBP → Nat}
    (reflects : device.Reflects pDescriptor next)
    (opened : ∀ iter ∈ chunks, ∀ desc, pDescriptor[iter.pDesc]? = some desc →
      desc.chunkState ≠ .closed) :
    device.Leaves eraseCheck eraseOf chunks pDescriptor err idx reply
      next := by
  induction chunks generalizing err idx reply with
  | nil => exact ⟨_, _, _, _, rfl, rfl, reflects⟩
  | cons iter rest induction =>
      obtain ⟨place, here⟩ := proper iter List.mem_cons_self
      obtain ⟨desc, found, shown⟩ := reflects place here.holds
      rw [← here.pDesc] at found
      apply Leaves.refused found
        (eraseCheck_refused shown (opened iter List.mem_cons_self desc found))
      intro reply
      apply induction
      · exact fun iter member => proper iter (List.mem_cons_of_mem _ member)
      · exact fun iter member => opened iter (List.mem_cons_of_mem _ member)

theorem Sound.erase_leaves (sound : device.Sound)
    {chunks : List ChunkUpdateEntry}
    (proper : ∀ iter ∈ chunks, ∃ place, device.Proper iter place)
    {pDescriptor : List ChunkDescriptor} {idx : UInt64} {reply : Reply}
    {next : CPDPBP → Nat} (reflects : device.Reflects pDescriptor next)
    (cleanly : clean chunks pDescriptor = true) :
    device.Leaves eraseCheck eraseOf chunks pDescriptor false idx reply
      next := by
  induction chunks generalizing pDescriptor idx reply next with
  | nil => exact ⟨_, _, _, _, rfl, rfl, reflects⟩
  | cons iter rest induction =>
      obtain ⟨place, here⟩ := proper iter List.mem_cons_self
      have others : ∀ iter ∈ rest, ∃ place, device.Proper iter place :=
        fun iter member => proper iter (List.mem_cons_of_mem _ member)
      obtain ⟨desc, found, shown⟩ := reflects place here.holds
      rw [← here.pDesc] at found
      simp only [clean, found] at cleanly
      split at cleanly
      · next closed =>
          have checked : eraseCheck false desc iter.pageIdx = (false, none,
              { desc with writePointer := 0, chunkState := .free }) := by
            simp only [eraseCheck, closed]
          apply Leaves.accepted found checked rfl
          intro reply
          apply induction others _ cleanly
          rw [here.pDesc, here.block]
          exact sound.reflects_set reflects here.holds
            ⟨by simp, Nat.zero_le _, rfl⟩
      · next opened =>
          apply Leaves.refused found (eraseCheck_refused shown opened)
          intro reply
          apply erase_refused others reflects
          intro other member desc listed
          have refused := List.all_eq_true.mp cleanly other member
          rw [listed] at refused
          simpa using refused

def Sticky (check : Check) : Prop :=
  ∀ desc pageIdx, (check true desc pageIdx).1 = true

theorem errors_sized {check : Check} {chunks : List ChunkUpdateEntry}
    {pDescriptor after : List ChunkDescriptor} {err failed : Bool}
    {idx : UInt64} {reply replied : Reply}
    (updated : updateChunks check chunks pDescriptor err idx reply =
      some (after, failed, replied)) :
    (errors check chunks pDescriptor err).length = chunks.length := by
  induction chunks generalizing pDescriptor err idx reply with
  | nil => rfl
  | cons iter rest induction =>
      simp only [updateChunks, Option.bind_eq_some_iff] at updated
      obtain ⟨desc, found, updated⟩ := updated
      simp only [errors, found, List.length_cons, induction updated]

theorem Sticky.failed {check : Check} (sticky : Sticky check)
    {chunks : List ChunkUpdateEntry}
    {pDescriptor after : List ChunkDescriptor} {failed : Bool} {idx : UInt64}
    {reply replied : Reply}
    (updated : updateChunks check chunks pDescriptor true idx reply =
      some (after, failed, replied)) :
    failed = true ∧ kept chunks (errors check chunks pDescriptor true) = [] := by
  induction chunks generalizing pDescriptor idx reply with
  | nil =>
      cases updated
      exact ⟨rfl, rfl⟩
  | cons iter rest induction =>
      simp only [updateChunks, Option.bind_eq_some_iff] at updated
      obtain ⟨desc, found, updated⟩ := updated
      have still := sticky desc iter.pageIdx
      cases checked : check true desc iter.pageIdx with
      | mk err result =>
          rw [checked] at still updated
          cases still
          obtain ⟨all, none_kept⟩ := induction updated
          refine ⟨all, ?_⟩
          simp only [errors, found, checked, kept, if_true, none_kept]

theorem Sticky.kept_all {check : Check} (sticky : Sticky check)
    {chunks : List ChunkUpdateEntry}
    {pDescriptor after : List ChunkDescriptor} {idx : UInt64}
    {reply replied : Reply}
    (updated : updateChunks check chunks pDescriptor false idx reply =
      some (after, false, replied)) :
    kept chunks (errors check chunks pDescriptor false) = chunks := by
  induction chunks generalizing pDescriptor idx reply with
  | nil => rfl
  | cons iter rest induction =>
      simp only [updateChunks, Option.bind_eq_some_iff] at updated
      obtain ⟨desc, found, updated⟩ := updated
      cases checked : check false desc iter.pageIdx with
      | mk err result =>
          rw [checked] at updated
          cases err with
          | true => cases (sticky.failed updated).1
          | false =>
              simp only [errors, found, checked, kept, Bool.false_eq_true,
                if_false, induction updated]

def Reply.fresh : Reply := ⟨none, 0, 0⟩

/-- What the flash is left with is what the loop keeps. -/
theorem internal_eq {check : Check} (sticky : Sticky check)
    {block : Bool} {lbaList : List UInt64} {mode : Bool}
    (few : (device.convertUnit lbaList block mode).length ≤ 64)
    {after : List ChunkDescriptor} {failed : Bool} {replied : Reply}
    (updated : updateChunks check (device.convertUnit lbaList block mode)
      device.pDescriptor false 1 Reply.fresh = some (after, failed, replied)) :
    ∃ reply, device.internal check block lbaList mode Reply.fresh =
      some ({ device with pDescriptor := after }, reply,
        kept (device.convertUnit lbaList block mode)
          (errors check (device.convertUnit lbaList block mode)
            device.pDescriptor false)) := by
  simp only [internal, updated, Option.map_some]
  cases failed with
  | false =>
      rw [sticky.kept_all updated]
      exact ⟨_, rfl⟩
  | true =>
      refine ⟨replied, ?_⟩
      have first : (1 : UInt64) = bitAt 0 := by decide
      have inside : 0 + (device.convertUnit lbaList block mode).length ≤ 64 := by
        omega
      rw [first] at updated
      have bits := testBit_updateChunks inside updated
      have removed : removeInvalid (maskOf replied) (bitAt 0)
          (device.convertUnit lbaList block mode) =
          kept _ (errors check _ device.pDescriptor false) :=
        removeInvalid_eq inside (errors_sized updated) (by
          intro offset _
          rw [bits]
          simp [Reply.fresh, maskOf])
      rw [first]
      simp only [maskOf] at removed
      simp only [if_true, removed]

theorem writeCheck_sticky : Sticky device.writeCheck := by
  intro desc pageIdx
  simp only [writeCheck]
  cases desc.chunkState with
  | free => rfl
  | closed => rfl
  | opened => simp
  | offline => rfl

theorem eraseCheck_sticky : Sticky eraseCheck := by
  intro desc pageIdx
  simp only [eraseCheck]
  cases desc.chunkState with
  | free => rfl
  | closed => rfl
  | opened => rfl
  | offline => rfl

theorem Leaves.internal {check : Check} {op : ChunkUpdateEntry → PageOp CPDPBP}
    (sticky : Sticky check) {block : Bool} {lbaList : List UInt64} {mode : Bool}
    (few : (device.convertUnit lbaList block mode).length ≤ 64)
    {next : CPDPBP → Nat}
    (leaves : device.Leaves check op (device.convertUnit lbaList block mode)
      device.pDescriptor false 1 Reply.fresh next) :
    ∃ after reply list next',
      device.internal check block lbaList mode Reply.fresh =
          some ({ device with pDescriptor := after }, reply, list) ∧
        PageOp.applyAll next (list.map op) = some next' ∧
        device.Reflects after next' := by
  obtain ⟨after, failed, replied, next', updated, applied, reflects⟩ :=
    leaves.ends
  obtain ⟨reply, done⟩ := internal_eq sticky few updated
  exact ⟨after, reply, _, next', done, applied, reflects⟩

/-! Commands one after the other. -/

inductive Command where
  | read (lbaList : List UInt64) (mode : Bool)
  | write (lbaList : List UInt64) (mode : Bool)
  | erase (lbaList : List UInt64) (mode : Bool)
  deriving DecidableEq, Repr

def perform (device : OpenChannelSSD20) :
    Command → Option (OpenChannelSSD20 × List (PageOp CPDPBP))
  | .read lbaList mode =>
      (device.readInternal lbaList mode Reply.fresh).map fun (after, _, _) =>
        (after, [])
  | .write lbaList mode =>
      (device.writeInternal lbaList mode Reply.fresh).map
        fun (after, _, list) => (after, list.map programOf)
  | .erase lbaList mode =>
      (device.eraseInternal lbaList mode Reply.fresh).map
        fun (after, _, list) => (after, list.map eraseOf)

def Listed (device : OpenChannelSSD20) (lbaList : List UInt64) (block : Bool)
    (mode : Bool) : Prop :=
  (∀ lba ∈ blocksOf lbaList mode,
    device.geometry.Inside (device.ppaMask.parseLBA lba)) ∧
    (device.convertUnit lbaList block mode).length ≤ 64

/-- The command lists blocks that there are, of not more pages than the mask
has bits, and a reset is clean. -/
def Suits (device : OpenChannelSSD20) : Command → Prop
  | .read lbaList mode | .write lbaList mode =>
      device.Listed lbaList false mode
  | .erase lbaList mode => device.Listed lbaList true mode ∧
      clean (device.convertUnit lbaList true mode) device.pDescriptor = true

instance (device : OpenChannelSSD20) (lbaList : List UInt64)
    (block mode : Bool) : Decidable (device.Listed lbaList block mode) :=
  @instDecidableAnd _ _ (List.decidableBAll _ _) (Nat.decLe _ _)

instance (device : OpenChannelSSD20) :
    (command : Command) → Decidable (device.Suits command)
  | .read lbaList mode | .write lbaList mode =>
      inferInstanceAs (Decidable (device.Listed lbaList false mode))
  | .erase _ _ => inferInstanceAs (Decidable (_ ∧ _))

theorem Sound.listed_proper (sound : device.Sound) {lbaList : List UInt64}
    {block mode : Bool} (listed : device.Listed lbaList block mode) :
    ∀ iter ∈ device.convertUnit lbaList block mode,
      ∃ place, device.Proper iter place := by
  intro iter member
  obtain ⟨lba, named, rfl⟩ := mem_convertUnit member
  exact ⟨_, sound.entryOf_proper (listed.1 lba named)⟩

theorem readCheck_leaves {chunks : List ChunkUpdateEntry}
    (proper : ∀ iter ∈ chunks, ∃ place, device.Proper iter place)
    {pDescriptor : List ChunkDescriptor} {idx : UInt64} {reply : Reply}
    {next : CPDPBP → Nat} (reflects : device.Reflects pDescriptor next) :
    ∃ replied, updateChunks readCheck chunks pDescriptor false idx reply =
      some (pDescriptor, false, replied) := by
  induction chunks generalizing idx reply with
  | nil => exact ⟨_, rfl⟩
  | cons iter rest induction =>
      obtain ⟨place, here⟩ := proper iter List.mem_cons_self
      obtain ⟨desc, found, _⟩ := reflects place here.holds
      rw [← here.pDesc] at found
      have same : pDescriptor.set iter.pDesc desc = pDescriptor := by
        obtain ⟨bound, here⟩ := List.getElem?_eq_some_iff.mp found
        rw [← here]
        exact List.set_getElem_self bound
      simp only [updateChunks, found, Option.bind_some, readCheck, same]
      exact induction fun iter member =>
        proper iter (List.mem_cons_of_mem _ member)

theorem Sound.perform (sound : device.Sound) {next : CPDPBP → Nat}
    (reflects : device.Reflects device.pDescriptor next) {command : Command}
    (suits : device.Suits command) :
    ∃ after ops next',
      device.perform command =
          some ({ device with pDescriptor := after }, ops) ∧
        PageOp.applyAll next ops = some next' ∧
        device.Reflects after next' := by
  cases command with
  | read lbaList mode =>
      obtain ⟨replied, updated⟩ : ∃ replied, updateChunks readCheck
          (device.convertUnit lbaList false mode) device.pDescriptor false 1
          Reply.fresh = some (device.pDescriptor, false, replied) :=
        readCheck_leaves (sound.listed_proper suits) reflects
      refine ⟨device.pDescriptor, [], next, ?_, rfl, reflects⟩
      simp [OpenChannelSSD20.perform, readInternal, OpenChannelSSD20.internal,
        updated]
  | write lbaList mode =>
      obtain ⟨after, reply, list, next', done, applied, reflected⟩ :=
        (sound.write_leaves (sound.listed_proper suits) reflects).internal
          writeCheck_sticky suits.2
      refine ⟨after, _, next', ?_, applied, reflected⟩
      simp only [OpenChannelSSD20.perform, writeInternal, done,
        Option.map_some]
  | erase lbaList mode =>
      obtain ⟨listed, cleanly⟩ := suits
      obtain ⟨after, reply, list, next', done, applied, reflected⟩ :=
        (sound.erase_leaves (sound.listed_proper listed) reflects
          cleanly).internal eraseCheck_sticky listed.2
      refine ⟨after, _, next', ?_, applied, reflected⟩
      simp only [OpenChannelSSD20.perform, eraseInternal]
      have zeroed : { Reply.fresh with dword0 := 0, reserved := 0 } =
          Reply.fresh := rfl
      rw [zeroed, done, Option.map_some]

inductive Serves (start : OpenChannelSSD20) :
    List (PageOp CPDPBP) → OpenChannelSSD20 → Prop
  | start : Serves start [] start
  | perform {told before command after ops} (earlier : Serves start told before)
      (suits : before.Suits command)
      (performed : before.perform command = some (after, ops)) :
      Serves start (told ++ ops) after

/-- The dimensions are not zero, a page has whole blocks, and no product has
more than 32 bits. -/
structure Fitting (param : Parameter) (useMP : Bool) : Prop where
  die : 0 < param.die.toNat
  plane : 0 < param.plane.toNat
  whole : lbaSize.toNat ∣ (superPageSize param useMP).toNat
  some : 0 < (superPageSize param useMP).toNat
  chunk : param.page.toNat * (superPageSize param useMP).toNat < 2 ^ 32
  table : (Geometry.ofParameter param useMP).group.toNat *
    (Geometry.ofParameter param useMP).parallelUnit.toNat *
      (Geometry.ofParameter param useMP).chunk.toNat < 2 ^ 32

theorem Fitting.sound {param : Parameter} {useMP : Bool}
    (fitting : Fitting param useMP) : (init param useMP).Sound where
  die := fitting.die
  plane := fitting.plane
  writeSize := by
    simp only [init, Geometry.ofParameter, UInt32.toNat_div]
    apply Nat.div_pos _ (by decide)
    exact Nat.le_of_dvd fitting.some fitting.whole
  pages := by
    simp only [init, Geometry.ofParameter, UInt32.toNat_div, UInt32.toNat_mul]
    rw [Nat.mod_eq_of_lt fitting.chunk, Nat.mul_div_assoc _ fitting.whole]
  table := fitting.table

theorem init_free {param : Parameter} {useMP : Bool} {desc : ChunkDescriptor}
    (member : desc ∈ (init param useMP).pDescriptor) :
    desc.chunkState = .free ∧ desc.writePointer = 0 := by
  simp only [init, List.mem_flatMap, List.mem_map] at member
  obtain ⟨_, _, _, _, _, _, rfl⟩ := member
  exact ⟨rfl, rfl⟩

theorem init_length (param : Parameter) (useMP : Bool) :
    (init param useMP).pDescriptor.length =
      (init param useMP).geometry.group.toNat *
        (init param useMP).geometry.parallelUnit.toNat *
          (init param useMP).geometry.chunk.toNat := by
  simp [init, List.length_flatMap, Nat.mul_assoc]

theorem Fitting.reflects {param : Parameter} {useMP : Bool}
    (fitting : Fitting param useMP) :
    (init param useMP).Reflects (init param useMP).pDescriptor
      fun _ => 0 := by
  intro place holds
  have inside : (init param useMP).indexOf place <
      (init param useMP).pDescriptor.length := by
    rw [init_length, fitting.sound.indexOf_eq holds]
    exact holds.position_lt
  refine ⟨_, List.getElem?_eq_getElem inside, ?_⟩
  obtain ⟨free, unwritten⟩ := init_free (List.getElem_mem inside)
  constructor
  · rw [unwritten, Nat.zero_mul, UInt64.toNat_zero]
  · exact Nat.zero_le _
  · rw [free]
    rfl

theorem Serves.reflects {start : OpenChannelSSD20}
    {told : List (PageOp CPDPBP)} (sound : start.Sound)
    (reflects : start.Reflects start.pDescriptor fun _ => 0)
    (serves : Serves start told device) :
    device.Sound ∧ ∃ next, PageOp.applyAll (fun _ => 0) told = some next ∧
      device.Reflects device.pDescriptor next := by
  induction serves with
  | start => exact ⟨sound, _, rfl, reflects⟩
  | perform _ suits performed induction =>
      obtain ⟨before_sound, next, applied, reflected⟩ := induction
      obtain ⟨after, ops, next', done, more, shown⟩ :=
        before_sound.perform reflected suits
      rw [performed] at done
      cases done
      refine ⟨⟨before_sound.die, before_sound.plane, before_sound.writeSize,
        before_sound.pages, before_sound.table⟩, next', ?_, shown.change⟩
      rw [PageOp.applyAll_append, applied, Option.bind_some, more]

/-- Between two erases the pages of a block are programmed once and upwards,
and each descriptor shows how many of them are used. -/
theorem chunks_reflect_flash {param : Parameter} {useMP : Bool}
    {told : List (PageOp CPDPBP)} (fitting : Fitting param useMP)
    (serves : Serves (init param useMP) told device) :
    (∃ next, PageOp.applyAll (fun _ => 0) told = some next ∧
      device.Reflects device.pDescriptor next) ∧
      ∀ before between behind block page later,
        told = before ++ .program block page :: between ++
          .program block later :: behind →
        .erase block ∉ between → page < later := by
  obtain ⟨_, next, applied, reflects⟩ :=
    serves.reflects fitting.sound fitting.reflects
  refine ⟨⟨next, applied, reflects⟩, ?_⟩
  intro before between behind block page later parts kept
  exact PageOp.lt_of_applyAll (parts ▸ applied) kept

def smallParameter : Parameter where
  channel := 1
  package := 1
  die := 1
  plane := 1
  block := 1
  page := 2
  pageSize := 8192
  superBlock := 1
  superPageSize := 8192
  pageInSuperPage := 1

theorem smallParameter_fitting : Fitting smallParameter false where
  die := by decide
  plane := by decide
  whole := by decide
  some := by decide
  chunk := by decide
  table := by decide

def serve : List Command → List (PageOp CPDPBP) × OpenChannelSSD20 →
    Option (List (PageOp CPDPBP) × OpenChannelSSD20)
  | [], reached => some reached
  | command :: rest, (told, device) =>
      if device.Suits command then
        (device.perform command).bind fun (after, ops) =>
          serve rest (told ++ ops, after)
      else none

theorem serve_serves {commands : List Command} {start : OpenChannelSSD20}
    {before after : List (PageOp CPDPBP) × OpenChannelSSD20}
    (earlier : Serves start before.1 before.2)
    (reached : serve commands before = some after) :
    Serves start after.1 after.2 := by
  induction commands generalizing before with
  | nil =>
      cases reached
      exact earlier
  | cons command rest induction =>
      simp only [serve] at reached
      split at reached
      · next suits =>
          obtain ⟨⟨device, ops⟩, performed, reached⟩ :=
            Option.bind_eq_some_iff.mp reached
          exact induction (earlier.perform suits performed) reached
      · cases reached

theorem chunks_reflect_flash_again :
    ∃ told device, Serves (init smallParameter false) told device ∧
      told.length = 4 ∧ ∃ next,
        PageOp.applyAll (fun _ => 0) told = some next ∧
          device.Reflects device.pDescriptor next := by
  have found : (serve [.write [0, 1, 2] true, .erase [0] true,
      .write [0] true] ([], init smallParameter false)).any
      (fun reached => reached.1.length = 4) = true := by
    decide +kernel
  obtain ⟨reached, served, four⟩ := (Option.any_eq_true _ _).mp found
  have serves := serve_serves .start served
  obtain ⟨reflects, _⟩ := chunks_reflect_flash smallParameter_fitting serves
  exact ⟨reached.1, reached.2, serves, of_decide_eq_true four, reflects⟩

end SimpleSSD.HIL.NVMe.OpenChannel.OpenChannelSSD20
