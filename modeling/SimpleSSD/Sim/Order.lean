import SimpleSSD.Sim.Engine

namespace SimpleSSD.Sim

/-! What the one scan of `insertEvent` finds. -/

theorem visits_flagged (eid : Event) (tick : UInt64) (queue : List Entry)
    (index : Nat) (scan : Scan) (hflag : scan.flag = true) :
    ((queue.zipIdx index).foldl (Scan.visit eid tick) scan).insert =
      scan.insert := by
  induction queue generalizing index scan with
  | nil => rfl
  | cons entry queue ih =>
      have hvisit :
          (scan.visit eid tick (entry, index)).flag = true ∧
            (scan.visit eid tick (entry, index)).insert = scan.insert := by
        simp only [Scan.visit, Scan.noteInsert, Scan.noteOld]
        split <;> simp [hflag]
      rw [List.zipIdx_cons, List.foldl_cons, ih _ _ hvisit.1, hvisit.2]

theorem visits_insert (eid : Event) (tick : UInt64) (queue : List Entry)
    (index : Nat) (scan : Scan) (hflag : scan.flag = false)
    (hinsert : scan.insert = index + queue.length) :
    ((queue.zipIdx index).foldl (Scan.visit eid tick) scan).insert =
      index + queue.findIdx (tick < ·.second) := by
  induction queue generalizing index scan with
  | nil => simpa using hinsert
  | cons entry queue ih =>
      rw [List.zipIdx_cons, List.foldl_cons, List.findIdx_cons]
      have hold :
          (scan.noteOld eid index entry).flag = false ∧
            (scan.noteOld eid index entry).insert = scan.insert := by
        simp only [Scan.noteOld]
        split <;> simp [hflag]
      by_cases hlater : tick < entry.second
      · have hvisit :
            scan.visit eid tick (entry, index) =
              { scan.noteOld eid index entry with
                insert := index
                flag := true } := by
          simp [Scan.visit, Scan.noteInsert, hold.1, hlater]
        rw [hvisit, visits_flagged _ _ _ _ _ rfl]
        simp [hlater]
      · have hvisit :
            scan.visit eid tick (entry, index) =
              scan.noteOld eid index entry := by
          simp [Scan.visit, Scan.noteInsert, hlater]
        rw [hvisit, ih _ _ hold.1]
        · simp [hlater]
          omega
        · rw [hold.2, hinsert, List.length_cons]
          omega

def Scan.Same (scan other : Scan) : Prop :=
  scan.found = other.found ∧ scan.old = other.old ∧
    scan.oldTick = other.oldTick

theorem noteInsert_same (tick : UInt64) (index : Nat) (entry : Entry)
    (scan : Scan) : (scan.noteInsert tick index entry).Same scan := by
  unfold Scan.noteInsert
  split <;> exact ⟨rfl, rfl, rfl⟩

theorem visits_absent (eid : Event) (tick : UInt64) (queue : List Entry)
    (index : Nat) (scan : Scan)
    (habsent : ∀ entry ∈ queue, entry.first ≠ eid) :
    ((queue.zipIdx index).foldl (Scan.visit eid tick) scan).Same scan := by
  induction queue generalizing index scan with
  | nil => exact ⟨rfl, rfl, rfl⟩
  | cons entry queue ih =>
      rw [List.zipIdx_cons, List.foldl_cons]
      have hvisit : (scan.visit eid tick (entry, index)).Same scan := by
        simp only [Scan.visit, Scan.noteOld,
          if_neg (habsent entry List.mem_cons_self)]
        exact noteInsert_same tick index entry scan
      have hrest := ih (index + 1) (scan.visit eid tick (entry, index))
        (fun other hother => habsent other (List.mem_cons_of_mem _ hother))
      exact ⟨hrest.1.trans hvisit.1, hrest.2.1.trans hvisit.2.1,
        hrest.2.2.trans hvisit.2.2⟩

theorem scan_insert (eid : Event) (tick : UInt64) (queue : List Entry) :
    (Scan.run eid tick queue).insert =
      queue.findIdx (tick < ·.second) := by
  have hinsert := visits_insert eid tick queue 0 (Scan.start queue) rfl
    (by simp [Scan.start])
  simpa [Scan.run] using hinsert

theorem scan_absent {eid : Event} {queue : List Entry} (tick : UInt64)
    (habsent : ∀ entry ∈ queue, entry.first ≠ eid) :
    (Scan.run eid tick queue).found = false :=
  (visits_absent eid tick queue 0 (Scan.start queue) habsent).1

theorem scan_present (tick : UInt64) (before after : List Entry)
    (entry : Entry) (habsent : ∀ other ∈ after, other.first ≠ entry.first) :
    (Scan.run entry.first tick (before ++ entry :: after)).found = true ∧
      (Scan.run entry.first tick (before ++ entry :: after)).old =
        before.length ∧
      (Scan.run entry.first tick (before ++ entry :: after)).oldTick =
        entry.second := by
  unfold Scan.run
  rw [List.zipIdx_append, List.foldl_append, List.zipIdx_cons,
    List.foldl_cons]
  generalize List.foldl _ _ (before.zipIdx) = scan
  obtain ⟨hfound, hold, htick⟩ := visits_absent entry.first tick after
    (0 + before.length + 1)
    (scan.visit entry.first tick (entry, 0 + before.length)) habsent
  obtain ⟨hfound', hold', htick'⟩ := noteInsert_same tick (0 + before.length)
    entry (scan.noteOld entry.first (0 + before.length) entry)
  rw [hfound, hold, htick]
  simp only [Scan.visit]
  rw [hfound', hold', htick']
  simp [Scan.noteOld]

/-! The queue after an insertion. -/

def place (entry : Entry) (queue : List Entry) : List Entry :=
  queue.insertIdx (queue.findIdx (entry.second < ·.second)) entry

def others (eid : Event) (queue : List Entry) : List Entry :=
  queue.filter (·.first ≠ eid)

def Sorted (queue : List Entry) : Prop :=
  queue.Pairwise (fun first second => first.second ≤ second.second)

theorem place_split (entry : Entry) (queue : List Entry)
    (hsorted : Sorted queue) :
    ∃ before after, queue = before ++ after ∧
      place entry queue = before ++ entry :: after ∧
      (∀ other ∈ before, other.second ≤ entry.second) ∧
      ∀ other ∈ after, entry.second < other.second := by
  induction queue with
  | nil => exact ⟨[], [], rfl, rfl, by simp, by simp⟩
  | cons head queue ih =>
      obtain ⟨hhead, hqueue⟩ := List.pairwise_cons.mp hsorted
      by_cases hlater : entry.second < head.second
      · refine ⟨[], head :: queue, rfl, ?_, by simp, ?_⟩
        · simp [place, List.findIdx_cons, hlater]
        · intro other hother
          rcases List.mem_cons.mp hother with rfl | hother
          · exact hlater
          · exact UInt64.lt_of_lt_of_le hlater (hhead other hother)
      · obtain ⟨before, after, hsplit, hplace, hbefore, hafter⟩ := ih hqueue
        refine ⟨head :: before, after, by rw [hsplit]; rfl, ?_, ?_, hafter⟩
        · have hcons : place entry (head :: queue) =
              head :: place entry queue := by
            simp [place, List.findIdx_cons, hlater]
          rw [hcons, hplace]
          rfl
        · intro other hother
          rcases List.mem_cons.mp hother with rfl | hother
          · exact UInt64.not_lt.mp hlater
          · exact hbefore other hother

theorem others_of_absent {eid : Event} {queue : List Entry}
    (habsent : ∀ entry ∈ queue, entry.first ≠ eid) :
    others eid queue = queue := by
  simpa [others, List.filter_eq_self] using habsent

theorem filter_middle {before after : List Entry} {entry : Entry}
    (hkeys : ∀ other ∈ before ++ after, other.first ≠ entry.first) :
    (before ++ entry :: after).filter (·.first = entry.first) = [entry] ∧
      others entry.first (before ++ entry :: after) = before ++ after := by
  have hkept : others entry.first (before ++ after) = before ++ after :=
    others_of_absent hkeys
  have hgone : (before ++ after).filter (·.first = entry.first) = [] := by
    rw [List.filter_eq_nil_iff]
    intro other hother
    simpa using hkeys other hother
  constructor
  · rw [List.filter_append, List.append_eq_nil_iff] at hgone
    rw [List.filter_append, List.filter_cons, hgone.1, hgone.2]
    simp
  · unfold others at hkept ⊢
    rw [List.filter_append] at hkept ⊢
    rw [List.filter_cons]
    simpa using hkept

theorem keys_split {before after : List Entry} {entry : Entry}
    (hunique : ((before ++ entry :: after).map Entry.first).Nodup) :
    ∀ other ∈ before ++ after, other.first ≠ entry.first := by
  rw [List.map_append, List.map_cons, List.nodup_append] at hunique
  obtain ⟨-, hafter, hapart⟩ := hunique
  intro other hother
  rcases List.mem_append.mp hother with hother | hother
  · exact hapart _ (List.mem_map_of_mem hother) _ List.mem_cons_self
  · intro heq
    exact (List.nodup_cons.mp hafter).1 (heq ▸ List.mem_map_of_mem hother)

/-- The new entry goes in before the old one is taken out: together they are
an insertion among the others. -/
theorem insert_erase (before after : List Entry) (entry : Entry)
    (new : Entry) (hsorted : Sorted (before ++ entry :: after)) :
    ((before ++ entry :: after).insertIdx
        ((before ++ entry :: after).findIdx (new.second < ·.second))
        new).eraseIdx
      (shifted
        ((before ++ entry :: after).findIdx (new.second < ·.second))
        before.length) =
      place new (before ++ after) := by
  induction before with
  | nil =>
      by_cases hlater : new.second < entry.second
      · have hafter : place new after = new :: after := by
          cases after with
          | nil => rfl
          | cons head after =>
              have hhead : new.second < head.second :=
                UInt64.lt_of_lt_of_le hlater
                  ((List.pairwise_cons.mp hsorted).1 head List.mem_cons_self)
              simp [place, List.findIdx_cons, hhead]
        simp [List.findIdx_cons, hlater, shifted, hafter]
      · simp [List.findIdx_cons, hlater, shifted, place]
  | cons head before ih =>
      have hrest := ih (List.pairwise_cons.mp hsorted).2
      by_cases hlater : new.second < head.second
      · simp [List.findIdx_cons, hlater, shifted, place, List.eraseIdx_append]
      · have hcons : place new (head :: (before ++ after)) =
            head :: place new (before ++ after) := by
          simp [place, List.findIdx_cons, hlater]
        rw [List.cons_append, List.cons_append, hcons, ← hrest]
        simp only [List.findIdx_cons, hlater, decide_false, cond_false,
          List.insertIdx_succ_cons, List.length_cons]
        unfold shifted
        split <;> split
        · rfl
        · omega
        · omega
        · rfl

theorem insertEvent_cases (eid : Event) (tick : UInt64) (queue : List Entry)
    (hsorted : Sorted queue) (hunique : (queue.map Entry.first).Nodup) :
    (⟨eid, tick⟩ ∈ queue ∧ insertEvent eid tick queue = queue) ∨
      (⟨eid, tick⟩ ∉ queue ∧
        insertEvent eid tick queue = place ⟨eid, tick⟩ (others eid queue)) := by
  by_cases hpresent : ∃ entry ∈ queue, entry.first = eid
  · obtain ⟨entry, hmem, rfl⟩ := hpresent
    obtain ⟨before, after, rfl⟩ := List.append_of_mem hmem
    have hkeys := keys_split hunique
    have hothers := (filter_middle hkeys).2
    have hafter : ∀ other ∈ after, other.first ≠ entry.first :=
      fun other hother => hkeys other (List.mem_append_right _ hother)
    obtain ⟨hfound, hold, htick⟩ := scan_present tick before after entry hafter
    by_cases hsame : entry.second = tick
    · subst hsame
      refine .inl ⟨hmem, ?_⟩
      simp only [insertEvent, hfound, htick, and_self, if_true]
    · refine .inr ⟨?_, ?_⟩
      · intro hin
        have heq := List.inj_on_of_nodup_map hunique hmem hin rfl
        exact hsame (congrArg Entry.second heq)
      · simp only [insertEvent, hfound, htick, hsame, and_false, if_false,
          if_true, hold, scan_insert, hothers]
        exact insert_erase before after entry ⟨entry.first, tick⟩ hsorted
  · have habsent : ∀ entry ∈ queue, entry.first ≠ eid :=
      fun entry hmem heq => hpresent ⟨entry, hmem, heq⟩
    refine .inr ⟨fun hin => habsent _ hin rfl, ?_⟩
    simp [insertEvent, scan_absent tick habsent, scan_insert,
      others_of_absent habsent, place]

/-- What every call finds: a list of keys, and a queue in the order of its
ticks with at most one entry for each key. -/
structure Engine.Ordered (engine : Engine) : Prop where
  keys : engine.eventList.Nodup
  sorted : Sorted engine.eventQueue
  unique : (engine.eventQueue.map Entry.first).Nodup
  allocated : ∀ entry ∈ engine.eventQueue, entry.first ∈ engine.eventList
  due : ∀ entry ∈ engine.eventQueue, engine.simTick ≤ entry.second

namespace Engine

variable {engine next : Engine}

theorem make_ordered : make.Ordered where
  keys := List.nodup_nil
  sorted := List.Pairwise.nil
  unique := List.nodup_nil
  allocated := by simp [make]
  due := by simp [make]

theorem Ordered.sublist (hordered : engine.Ordered)
    (hqueue : next.eventQueue.Sublist engine.eventQueue)
    (hkeys : next.eventList.Nodup)
    (hallocated : ∀ entry ∈ next.eventQueue, entry.first ∈ next.eventList)
    (hdue : ∀ entry ∈ next.eventQueue, next.simTick ≤ entry.second) :
    next.Ordered where
  keys := hkeys
  sorted := hordered.sorted.sublist hqueue
  unique := hordered.unique.sublist (hqueue.map Entry.first)
  allocated := hallocated
  due := hdue

theorem removeEvent_eq {eid : Event} {queue : List Entry}
    (hunique : (queue.map Entry.first).Nodup) :
    removeEvent eid queue = others eid queue := by
  by_cases hpresent : ∃ entry ∈ queue, entry.first = eid
  · obtain ⟨entry, hmem, rfl⟩ := hpresent
    obtain ⟨before, after, rfl⟩ := List.append_of_mem hmem
    have hkeys := keys_split hunique
    rw [(filter_middle hkeys).2, removeEvent, List.eraseP_append_right]
    · simp
    · intro other hother
      simpa using hkeys other (List.mem_append_left _ hother)
  · have habsent : ∀ entry ∈ queue, entry.first ≠ eid :=
      fun entry hmem heq => hpresent ⟨entry, hmem, heq⟩
    rw [others_of_absent habsent, removeEvent,
      List.eraseP_of_forall_not (by simpa using habsent)]

theorem allocateEvent_ok (h : engine.allocateEvent = .ok next) :
    engine.counter + 1 ∉ engine.eventList ∧
      next = { engine with
        counter := engine.counter + 1
        eventList := (engine.counter + 1) :: engine.eventList } := by
  unfold allocateEvent at h
  split at h
  · cases h
  · exact ⟨‹_›, (Except.ok.inj h).symm⟩

theorem scheduleEvent_ok {eid : Event} {tick : UInt64}
    (h : engine.scheduleEvent eid tick = .ok next) :
    eid ∈ engine.eventList ∧
      next = { engine with
        eventQueue := insertEvent eid (max tick engine.simTick)
          engine.eventQueue } := by
  unfold scheduleEvent at h
  split at h
  · have hmax : (if tick < engine.simTick then engine.simTick else tick) =
        max tick engine.simTick := by
      rw [UInt64.max_def]
      grind
    rw [hmax] at h
    exact ⟨‹_›, (Except.ok.inj h).symm⟩
  · cases h

theorem descheduleEvent_ok {eid : Event}
    (h : engine.descheduleEvent eid = .ok next) :
    next = { engine with
      eventQueue := removeEvent eid engine.eventQueue } := by
  unfold descheduleEvent at h
  split at h
  · exact (Except.ok.inj h).symm
  · cases h

theorem deallocateEvent_ok {eid : Event}
    (h : engine.deallocateEvent eid = .ok next) :
    next = { engine with
      eventQueue := removeEvent eid engine.eventQueue
      eventList := engine.eventList.erase eid } := by
  unfold deallocateEvent at h
  split at h
  · exact (Except.ok.inj h).symm
  · cases h

theorem Ordered.doNextEvent_eq (hordered : engine.Ordered) :
    engine.doNextEvent = .ok (none, engine) ∨
      ∃ now rest, engine.forceStop = false ∧
        engine.eventQueue = now :: rest ∧
        engine.doNextEvent = .ok (some now,
          { engine with simTick := now.second, eventQueue := rest }) := by
  unfold doNextEvent
  cases hstop : engine.forceStop with
  | true => exact .inl (by simp; rfl)
  | false =>
      cases hqueue : engine.eventQueue with
      | nil => exact .inl (by simp; rfl)
      | cons now rest =>
          have hkey : now.first ∈ engine.eventList :=
            hordered.allocated now (by rw [hqueue]; exact List.mem_cons_self)
          exact .inr ⟨now, rest, rfl, rfl, by simp [hkey]; rfl⟩

theorem Ordered.allocateEvent (hordered : engine.Ordered)
    (h : engine.allocateEvent = .ok next) : next.Ordered := by
  obtain ⟨hnew, rfl⟩ := allocateEvent_ok h
  refine hordered.sublist (List.Sublist.refl _)
    (List.nodup_cons.mpr ⟨hnew, hordered.keys⟩) ?_ hordered.due
  intro entry hentry
  exact List.mem_cons_of_mem _ (hordered.allocated entry hentry)

theorem Ordered.descheduleEvent {eid : Event} (hordered : engine.Ordered)
    (h : engine.descheduleEvent eid = .ok next) : next.Ordered := by
  obtain rfl := descheduleEvent_ok h
  have hsub : (removeEvent eid engine.eventQueue).Sublist engine.eventQueue :=
    List.eraseP_sublist
  exact hordered.sublist hsub hordered.keys
    (fun entry hentry => hordered.allocated entry (hsub.subset hentry))
    (fun entry hentry => hordered.due entry (hsub.subset hentry))

theorem Ordered.deallocateEvent {eid : Event} (hordered : engine.Ordered)
    (h : engine.deallocateEvent eid = .ok next) : next.Ordered := by
  obtain rfl := deallocateEvent_ok h
  have hsub : (removeEvent eid engine.eventQueue).Sublist engine.eventQueue :=
    List.eraseP_sublist
  refine hordered.sublist hsub (hordered.keys.erase eid) ?_
    (fun entry hentry => hordered.due entry (hsub.subset hentry))
  intro entry hentry
  have hkey : entry.first ≠ eid := by
    dsimp only at hentry
    rw [removeEvent_eq hordered.unique] at hentry
    simpa using (List.mem_filter.mp hentry).2
  exact (List.mem_erase_of_ne hkey).mpr
    (hordered.allocated entry (hsub.subset hentry))

theorem Ordered.taken {now : Entry} {rest : List Entry}
    (hordered : engine.Ordered) (hqueue : engine.eventQueue = now :: rest) :
    Ordered { engine with simTick := now.second, eventQueue := rest } := by
  have hsub : rest.Sublist engine.eventQueue := by
    rw [hqueue]
    exact List.sublist_cons_self now rest
  have hsorted := hordered.sorted
  rw [hqueue] at hsorted
  exact hordered.sublist hsub hordered.keys
    (fun entry hentry => hordered.allocated entry (hsub.subset hentry))
    (List.pairwise_cons.mp hsorted).1

/-- A call of `scheduleEvent` finds the entry at its place already, or puts it
behind those of the others that are not due later. -/
theorem Ordered.scheduled {eid : Event} {tick : UInt64}
    (hordered : engine.Ordered)
    (h : engine.scheduleEvent eid tick = .ok next) :
    (⟨eid, max tick engine.simTick⟩ ∈ engine.eventQueue ∧ next = engine) ∨
      ∃ before after, others eid engine.eventQueue = before ++ after ∧
        ⟨eid, max tick engine.simTick⟩ ∉ engine.eventQueue ∧
        next = { engine with
          eventQueue := before ++
            ⟨eid, max tick engine.simTick⟩ :: after } ∧
        (∀ other ∈ before, other.second ≤ max tick engine.simTick) ∧
        ∀ other ∈ after, max tick engine.simTick < other.second := by
  obtain ⟨-, rfl⟩ := scheduleEvent_ok h
  obtain ⟨hmem, hinsert⟩ | ⟨hmem, hinsert⟩ := insertEvent_cases eid
    (max tick engine.simTick) engine.eventQueue hordered.sorted hordered.unique
  · exact .inl ⟨hmem, by rw [hinsert]⟩
  · obtain ⟨before, after, hsplit, hplace, hbefore, hafter⟩ :=
      place_split ⟨eid, max tick engine.simTick⟩
        (others eid engine.eventQueue)
        (hordered.sorted.sublist List.filter_sublist)
    exact .inr ⟨before, after, hsplit, hmem, by rw [hinsert, hplace],
      hbefore, hafter⟩

theorem Ordered.mem_others {eid : Event} {before after : List Entry}
    (hsplit : others eid engine.eventQueue = before ++ after) {other : Entry}
    (hother : other ∈ before ++ after) :
    other ∈ engine.eventQueue ∧ other.first ≠ eid := by
  rw [← hsplit] at hother
  obtain ⟨hmem, hkey⟩ := List.mem_filter.mp hother
  exact ⟨hmem, by simpa using hkey⟩

theorem Ordered.scheduleEvent {eid : Event} {tick : UInt64}
    (hordered : engine.Ordered)
    (h : engine.scheduleEvent eid tick = .ok next) : next.Ordered := by
  have hkey := (scheduleEvent_ok h).1
  obtain ⟨-, rfl⟩ | ⟨before, after, hsplit, -, rfl, hbefore, hafter⟩ :=
    hordered.scheduled h
  · exact hordered
  have hsub : (before ++ after).Sublist engine.eventQueue := by
    rw [← hsplit]
    exact List.filter_sublist
  have hperm : (before ++
      (⟨eid, max tick engine.simTick⟩ : Entry) :: after).Perm
        (⟨eid, max tick engine.simTick⟩ :: (before ++ after)) :=
    List.perm_middle
  refine ⟨hordered.keys, ?_, ?_, ?_, ?_⟩
  · have hsorted := hordered.sorted.sublist hsub
    rw [List.pairwise_append] at hsorted
    refine List.pairwise_append.mpr ⟨hsorted.1,
      List.pairwise_cons.mpr ⟨?_, hsorted.2.1⟩, ?_⟩
    · intro other hother
      exact UInt64.le_of_lt (hafter other hother)
    · intro first hfirst second hsecond
      rcases List.mem_cons.mp hsecond with rfl | hsecond
      · exact hbefore first hfirst
      · exact hsorted.2.2 first hfirst second hsecond
  · refine ((hperm.map Entry.first).nodup_iff).mpr ?_
    refine List.nodup_cons.mpr
      ⟨?_, hordered.unique.sublist (hsub.map Entry.first)⟩
    intro hin
    obtain ⟨other, hother, heq⟩ := List.mem_map.mp hin
    exact (mem_others hsplit hother).2 heq
  · intro entry hentry
    rcases List.mem_cons.mp (hperm.mem_iff.mp hentry) with rfl | hentry
    · exact hkey
    · exact hordered.allocated entry (hsub.subset hentry)
  · intro entry hentry
    rcases List.mem_cons.mp (hperm.mem_iff.mp hentry) with rfl | hentry
    · rw [UInt64.max_def]
      grind
    · exact hordered.due entry (hsub.subset hentry)

theorem Ordered.isEventExist_iff (hordered : engine.Ordered) (eid : Event)
    (tick : UInt64) :
    engine.isEventExist eid = some tick ↔ ⟨eid, tick⟩ ∈ engine.eventQueue := by
  unfold isEventExist
  constructor
  · intro h
    obtain ⟨entry, hfind, rfl⟩ := Option.map_eq_some_iff.mp h
    have hkey : entry.first = eid := by simpa using List.find?_some hfind
    subst hkey
    exact List.mem_of_find?_eq_some hfind
  · intro hmem
    cases hfind : engine.eventQueue.find? (·.first = eid) with
    | none =>
        have habsent := List.find?_eq_none.mp hfind _ hmem
        simp at habsent
    | some entry =>
        have hkey : entry.first = eid := by simpa using List.find?_some hfind
        have heq := List.inj_on_of_nodup_map hordered.unique
          (List.mem_of_find?_eq_some hfind) hmem hkey
        rw [heq]
        rfl

end Engine

end SimpleSSD.Sim
