import SimpleSSD.HIL.NVMe.PRPList
import SimpleSSD.SIL.NVMe.PRP

namespace SimpleSSD.SIL.NVMe

open HIL.NVMe HIL.NVMe.PRPList

/-! The device reads back what the host has described. -/

theorem getPRPSize_aligned {addr : Nat} (aligned : addr % pageSize = 0) :
    getPRPSize pageSize addr = pageSize := by
  have mask : addr &&& (2 ^ 12 - 1) = addr % 2 ^ 12 :=
    Nat.and_two_pow_sub_one_eq_mod addr 12
  unfold getPRPSize pageSize at *
  rw [show 4096 - 1 = 2 ^ 12 - 1 from rfl, mask]
  omega

def pageRegion (addr : Nat) : Region := { addr := addr, size := pageSize }

theorem readEntries_pages {totalSize : Nat} (pages rest : List Nat)
    (aligned : ∀ page ∈ pages, page % pageSize = 0)
    (nonnull : ∀ page ∈ pages, page ≠ 0) (currentSize : Nat)
    (prpList : List Region) (some : pages ≠ [])
    (short : currentSize + pageSize * (pages.length - 1) < totalSize)
    (enough : totalSize ≤ currentSize + pageSize * pages.length) :
    readEntries pageSize totalSize (pages ++ rest) currentSize prpList =
      .ok (currentSize + pageSize * pages.length,
        prpList ++ pages.map pageRegion) := by
  induction pages generalizing currentSize prpList with
  | nil => exact absurd rfl some
  | cons page later induction =>
      have size := getPRPSize_aligned (aligned page (.head _))
      rw [List.cons_append, readEntries]
      simp only [size, nonnull page (.head _), if_false]
      rw [List.length_cons] at short enough
      cases later with
      | nil =>
          rw [if_pos (by simpa using enough)]
          rfl
      | cons next others =>
          have more : ¬ totalSize ≤ currentSize + pageSize := by
            simp only [List.length_cons, Nat.add_sub_cancel] at short
            have grows : pageSize ≤ pageSize * (others.length + 1) :=
              Nat.le_mul_of_pos_right _ (Nat.succ_pos _)
            omega
          rw [if_neg more, induction
            (fun other member => aligned other (.tail _ member))
            (fun other member => nonnull other (.tail _ member)) _ _ (by simp)]
          · simp only [List.map_cons, List.append_assoc, List.length_cons,
              Except.ok.injEq, Prod.mk.injEq]
            refine ⟨?_, by simp [pageRegion]⟩
            unfold pageSize
            omega
          · simp only [List.length_cons, Nat.add_sub_cancel] at short ⊢
            unfold pageSize at short ⊢
            omega
          · simp only [List.length_cons, Nat.mul_succ] at enough ⊢
            omega

/-- Whatever aligned entries a list page holds, what it adds is whole pages, and
either all of them or just enough. -/
theorem readEntries_bound {totalSize : Nat} (words : List Nat)
    (aligned : ∀ word ∈ words, word % pageSize = 0)
    {currentSize reached : Nat} {prpList extended : List Region}
    (below : currentSize < totalSize)
    (result : readEntries pageSize totalSize words currentSize prpList =
      .ok (reached, extended)) :
    ∃ pages, extended = prpList ++ pages.map pageRegion ∧
      reached = currentSize + pageSize * pages.length ∧
      pages.length ≤ words.length ∧ (∀ page ∈ pages, page ∈ words) ∧
      ((pages = words ∧ reached < totalSize) ∨
        (totalSize ≤ reached ∧ reached < totalSize + pageSize)) := by
  induction words generalizing currentSize prpList with
  | nil =>
      cases result
      exact ⟨[], by simp, by simp, by simp, by simp, .inl ⟨rfl, below⟩⟩
  | cons word rest induction =>
      have size := getPRPSize_aligned (aligned word (.head _))
      rw [readEntries] at result
      simp only [size] at result
      split at result
      · cases result
      split at result
      · next enough =>
          cases result
          exact ⟨[word], rfl, by simp, by simp, by simp,
            .inr ⟨enough, by omega⟩⟩
      · next short =>
          obtain ⟨pages, listed, sum, few, members, ends⟩ := induction
            (fun other member => aligned other (.tail _ member)) (by omega)
            result
          refine ⟨word :: pages, ?_, ?_, Nat.succ_le_succ few, ?_, ?_⟩
          · rw [listed]
            simp [pageRegion]
          · rw [sum, List.length_cons]
            unfold pageSize
            omega
          · intro page member
            rcases List.mem_cons.mp member with same | later
            · exact same ▸ .head _
            · exact .tail _ (members page later)
          · rcases ends with ⟨all, under⟩ | beyond
            · exact .inl ⟨by rw [all], under⟩
            · exact .inr beyond

theorem listWords_length {memory : Nat → Nat} {base : Nat}
    (aligned : base % pageSize = 0) :
    (listWords pageSize memory base).length = maxEntryCount := by
  unfold listWords
  rw [getPRPSize_aligned aligned]
  simp [pageSize, maxEntryCount]

def described (regions : List Region) : Nat :=
  (regions.map (·.size)).sum

theorem described_append (regions : List Region) (pages : List Nat) :
    described (regions ++ pages.map pageRegion) =
      described regions + pageSize * pages.length := by
  unfold described
  rw [List.map_append, List.sum_append, List.map_map]
  congr 1
  induction pages with
  | nil => rfl
  | cons page rest induction =>
      rw [List.map_cons, List.sum_cons, induction, List.length_cons,
        Nat.mul_succ]
      exact Nat.add_comm _ _

theorem addresses_pageRegion (pages : List Nat) :
    (pages.map pageRegion).map (·.addr) = pages := by
  rw [List.map_map]
  exact List.map_id pages

def AlignedMemory (memory : Nat → Nat) : Prop :=
  ∀ addr, memory addr % pageSize = 0

section Device

variable {memory : Nat → Nat} {list updated final : PRPList}
  {page : ListRead}

/-- What the read of one list page adds.  A page that leads to another one
counts its pointer as described. -/
theorem doRead_bound (alignedMemory : AlignedMemory memory)
    (pagesize : list.pagesize = pageSize) (alone : list.reading = [])
    (aligned : page.base % pageSize = 0) (some : 0 < page.totalSize)
    (result : doRead memory list page = .ok updated) :
    updated.pagesize = pageSize ∧
    ((updated.reading = [] ∧ page.totalSize ≤ pageSize * maxEntryCount ∧
        described updated.prpList <
          described list.prpList + page.totalSize + pageSize) ∨
      (pageSize * maxEntryCount < page.totalSize ∧
        described updated.prpList =
          described list.prpList + pageSize * (maxEntryCount - 1) ∧
        ∃ base, base % pageSize = 0 ∧ updated.reading =
          [{ base := base
             totalSize := page.totalSize - pageSize * maxEntryCount }])) := by
  unfold doRead at result
  rw [pagesize] at result
  cases entries : readEntries pageSize page.totalSize
      (listWords pageSize memory page.base) 0 list.prpList with
  | error raised =>
      rw [entries] at result
      cases result
  | ok outcome =>
      obtain ⟨reached, extended⟩ := outcome
      rw [entries] at result
      have alignedWords : ∀ word ∈ listWords pageSize memory page.base,
          word % pageSize = 0 := by
        intro word member
        obtain ⟨entry, _, rfl⟩ := List.mem_map.mp member
        exact alignedMemory _
      obtain ⟨pages, listed, sum, few, members, ends⟩ :=
        readEntries_bound _ alignedWords some entries
      have length := @listWords_length memory page.base aligned
      rw [length] at few
      dsimp only at result
      rcases ends with ⟨all, under⟩ | ⟨beyond, near⟩
      · rw [if_pos under] at result
        have full : pages.length = maxEntryCount := by rw [all, length]
        obtain ⟨front, last, split⟩ : ∃ front last, pages = front ++ [last] := by
          have nonempty : pages ≠ [] := by
            intro empty
            rw [empty] at full
            cases full
          exact ⟨_, _, (List.dropLast_append_getLast nonempty).symm⟩
        have frontLength : front.length = maxEntryCount - 1 := by
          rw [split, List.length_append, List.length_singleton] at full
          omega
        have lastAligned : last % pageSize = 0 :=
          alignedWords last (members last (by rw [split]; simp))
        have whole : extended = (list.prpList ++ front.map pageRegion) ++
            [pageRegion last] := by
          rw [listed, split, List.map_append, ← List.append_assoc]
          rfl
        have shorter : extended.dropLast =
            list.prpList ++ front.map pageRegion := by
          rw [whole, List.dropLast_concat]
        have pointer : (extended.getLast?.map Region.addr).getD 0 = last := by
          rw [whole, List.getLast?_concat]
          rfl
        have bytes : reached = pageSize * maxEntryCount := by
          rw [sum, full, Nat.zero_add]
        cases result
        refine ⟨rfl, .inr ⟨by omega, ?_, last, lastAligned, ?_⟩⟩
        · simp only [finish, getPRPListFromPRP]
          rw [shorter, described_append, frontLength]
        · simp only [finish, getPRPListFromPRP]
          rw [pointer, bytes, alone]
          rfl
      · rw [if_neg (Nat.not_lt.mpr beyond)] at result
        cases result
        refine ⟨rfl, .inl ⟨alone, ?_, ?_⟩⟩
        · have most := Nat.mul_le_mul_left pageSize few
          omega
        · simp only [finish]
          rw [listed, described_append]
          omega

theorem serve_idle {fuel : Nat} (idle : list.reading = [])
    (result : serve memory fuel list = .ok final) :
    final.prpList = list.prpList := by
  cases fuel with
  | zero => cases result
  | succ fuel =>
      rw [serve, idle] at result
      cases result
      rfl

theorem serve_bound {fuel : Nat} (alignedMemory : AlignedMemory memory)
    (pagesize : list.pagesize = pageSize) (alone : list.reading = [page])
    (aligned : page.base % pageSize = 0) (some : 0 < page.totalSize)
    (result : serve memory fuel list = .ok final) :
    described final.prpList <
        described list.prpList + page.totalSize + pageSize ∧
      (pageSize * maxEntryCount < page.totalSize →
        described final.prpList <
          described list.prpList + page.totalSize) := by
  induction fuel generalizing list page with
  | zero => cases result
  | succ fuel induction =>
      rw [serve, alone] at result
      cases read : doRead memory { list with reading := [] } page with
      | error raised =>
          simp only [read] at result
          cases result
      | ok updated =>
          simp only [read] at result
          obtain ⟨samePagesize, ends⟩ := @doRead_bound memory
            { list with reading := [] } updated page alignedMemory pagesize
            rfl aligned some read
          dsimp only at ends
          rcases ends with ⟨idle, few, near⟩ |
            ⟨many, sum, base, nextAligned, next⟩
          · rw [serve_idle idle result]
            exact ⟨near, fun more => absurd more (Nat.not_lt.mpr few)⟩
          · obtain ⟨bound, _⟩ := induction samePagesize next nextAligned
              (by exact Nat.sub_pos_of_lt many) result
            dsimp only at bound
            have pointer : pageSize * maxEntryCount =
                pageSize * (maxEntryCount - 1) + pageSize := rfl
            constructor
            · omega
            · intro _
              omega

end Device

section Host

variable {prp filled : PRP}

theorem fillLists_aligned {lastEntryCount fuel listPtr page entry
      listCount : Nat}
    (alignedMemory : AlignedMemory prp.memory) (aligned : page % pageSize = 0)
    (result : fillLists lastEntryCount fuel listPtr page entry listCount prp =
      some filled) : AlignedMemory filled.memory := by
  have stored : ∀ {memory : Nat → Nat} (addr value : Nat),
      AlignedMemory memory → value % pageSize = 0 →
        AlignedMemory (Function.update memory addr value) := by
    intro memory addr value whole aligned other
    by_cases same : other = addr
    · rw [same, Function.update_self]
      exact aligned
    · rw [Function.update_of_ne same]
      exact whole other
  induction fuel generalizing listPtr page entry listCount prp with
  | zero => cases result
  | succ fuel induction =>
      have next : (page + pageSize) % pageSize = 0 := by
        rw [Nat.add_mod_right]
        exact aligned
      have first := stored (listPtr + 8 * entry) page alignedMemory aligned
      rw [fillLists] at result
      dsimp only at result
      split at result
      · cases result
        exact stored _ _ first rfl
      split at result
      · refine induction (stored _ _ first next) ?_ result
        rw [Nat.add_mod_right]
        exact next
      · exact induction first next result

theorem fillLists_pointers {lastEntryCount fuel listPtr page entry
      listCount : Nat}
    (result : fillLists lastEntryCount fuel listPtr page entry listCount prp =
      some filled) : filled.ptr1 = prp.ptr1 ∧ filled.ptr2 = prp.ptr2 := by
  induction fuel generalizing listPtr page entry listCount prp with
  | zero => cases result
  | succ fuel induction =>
      rw [fillLists] at result
      dsimp only at result
      split at result
      · cases result
        exact ⟨rfl, rfl⟩
      split at result
      · have same := induction result
        exact same
      · have same := induction result
        exact same

theorem fillLists_last {lastEntryCount listPtr : Nat} (fuel page entry : Nat)
    (inside : entry < lastEntryCount)
    (enough : lastEntryCount - entry ≤ fuel) (prp : PRP) :
    ∃ filled, fillLists lastEntryCount fuel listPtr page entry 1 prp =
        some filled ∧
      filled.ptr1 = prp.ptr1 ∧ filled.ptr2 = prp.ptr2 ∧
      filled.listPages = prp.listPages ∧
      filled.dataPages = prp.dataPages ++
        (List.range (lastEntryCount - entry)).map
          (fun offset => page + pageSize * offset) ∧
      (∀ other < entry, filled.memory (listPtr + 8 * other) =
        prp.memory (listPtr + 8 * other)) ∧
      ∀ offset < lastEntryCount - entry,
        filled.memory (listPtr + 8 * (entry + offset)) =
          page + pageSize * offset := by
  induction fuel generalizing page entry prp with
  | zero => omega
  | succ fuel induction =>
      rw [fillLists]
      dsimp only
      by_cases last : entry + 1 = lastEntryCount
      · rw [if_pos ⟨rfl, last⟩]
        have single : lastEntryCount - entry = 1 := by omega
        refine ⟨_, rfl, rfl, rfl, rfl, ?_, ?_, ?_⟩
        · rw [single]
          simp
        · intro other before
          dsimp only
          rw [Function.update_of_ne (by omega), Function.update_of_ne
            (by omega)]
        · intro offset below
          obtain rfl : offset = 0 := by omega
          dsimp only
          rw [Function.update_of_ne (by omega)]
          simp
      · rw [if_neg (fun both => last both.2),
          if_neg (fun both => absurd both.1 (Nat.lt_irrefl 1))]
        obtain ⟨filled, result, sameFirst, sameSecond, sameLists, pages,
          before, after⟩ := induction (page + pageSize) (entry + 1) (by omega)
            (by omega) _
        refine ⟨filled, result, sameFirst, sameSecond, sameLists, ?_, ?_, ?_⟩
        · rw [pages]
          obtain ⟨rest, remaining⟩ : ∃ rest,
              lastEntryCount - entry = rest + 1 :=
            Nat.exists_eq_add_one.mpr (by omega)
          have shorter : lastEntryCount - (entry + 1) = rest := by omega
          rw [remaining, shorter, List.range_succ_eq_map, List.map_cons,
            List.map_map, List.append_assoc]
          have moved : (List.range rest).map
              (fun offset => page + pageSize + pageSize * offset) =
                (List.range rest).map
                  ((fun offset => page + pageSize * offset) ∘ Nat.succ) := by
            refine List.map_congr_left ?_
            intro offset _
            simp only [Function.comp, Nat.mul_succ]
            omega
          rw [moved]
          simp
        · intro other earlier
          rw [before other (by omega)]
          dsimp only
          rw [Function.update_of_ne (by omega)]
        · intro offset below
          cases offset with
          | zero =>
              rw [Nat.add_zero, before entry (by omega)]
              simp
          | succ offset =>
              have there := after offset (by omega)
              rw [← Nat.add_assoc, Nat.add_right_comm, there, Nat.mul_succ]
              omega

end Host

/-- The device ends with the pages that the host has set aside for data, with
nothing missing, and starts the transfer once. -/
def Agreement (base size : Nat) : Prop :=
  ∃ hostFuel prp list deviceFuel final,
    PRP.make hostFuel base size = some prp ∧
    PRPList.make pageSize prp.ptr1 prp.ptr2 size = .ok list ∧
    serve prp.memory deviceFuel list = .ok final ∧
    final.prpList.map (·.addr) = prp.dataPages ∧
    (∀ region ∈ final.prpList, region.addr ∉ prp.listPages) ∧
    size ≤ described final.prpList ∧ final.initCalls = 1

section Agreement

variable {base size : Nat}

theorem agreement_one (aligned : base % pageSize = 0)
    (fits : size ≤ pageSize) : Agreement base size := by
  have whole := getPRPSize_aligned aligned
  refine ⟨0, _, ((empty pageSize).push base size).schedule, 1, _, if_pos fits,
    ?_, rfl, ?_⟩
  · unfold PRPList.make
    simp only [fits, if_true, whole]
  · exact ⟨rfl, by simp, by simp [described, empty, push, schedule], rfl⟩

theorem agreement_two (aligned : base % pageSize = 0)
    (more : pageSize < size) (fits : size ≤ pageSize * 2) :
    Agreement base size := by
  have whole := getPRPSize_aligned aligned
  have next : getPRPSize pageSize (base + pageSize) = pageSize :=
    getPRPSize_aligned (by rw [Nat.add_mod_right]; exact aligned)
  have several : ¬ size ≤ pageSize := Nat.not_le.mpr more
  refine ⟨0, _, ((((empty pageSize).push base pageSize).push
    (base + pageSize) pageSize).schedule), 1, _,
    (if_neg several).trans (if_pos fits), ?_, rfl, ?_⟩
  · unfold PRPList.make
    simp only [several, fits, if_false, if_true, whole, bothPointers, next]
    rw [if_neg (by omega)]
  · refine ⟨rfl, by simp, ?_, rfl⟩
    simp only [described, empty, push, schedule]
    simp
    omega

def listedPages (base entries : Nat) : List Nat :=
  (List.range entries).map fun offset => base + pageSize * 2 + pageSize * offset

/-- Entries of the list of a transfer that needs one list page. -/
def entryCount (size : Nat) : Nat := divCeil (size - pageSize) pageSize

theorem entryCount_bounds (more : pageSize * 2 < size)
    (fits : size ≤ 513 * pageSize) :
    entryCount size ≠ 0 ∧ entryCount size ≤ maxEntryCount ∧
      pageSize * (entryCount size - 1) < size - pageSize ∧
      size - pageSize ≤ pageSize * entryCount size := by
  unfold entryCount divCeil maxEntryCount pageSize at *
  omega

theorem make_list (more : pageSize * 2 < size)
    (fits : size ≤ 513 * pageSize) :
    ∃ prp, PRP.make 513 base size = some prp ∧ prp.ptr1 = base ∧
      prp.ptr2 = base + pageSize ∧ prp.listPages = [base + pageSize] ∧
      prp.dataPages = base :: listedPages base (entryCount size) ∧
      ∀ offset < entryCount size,
        prp.memory (base + pageSize + 8 * offset) =
          base + pageSize * 2 + pageSize * offset := by
  obtain ⟨some, few, _, _⟩ := entryCount_bounds more fits
  have several : ¬ size ≤ pageSize := by omega
  have listed : ¬ size ≤ pageSize * 2 := by omega
  have single : ¬ pageSize * maxEntryCount < size - pageSize := by
    unfold maxEntryCount pageSize at *
    omega
  have small : entryCount size % 2 ^ 32 = entryCount size := by
    unfold maxEntryCount pageSize at few
    omega
  have plan : planLists 513 (size - pageSize) 1 (pageSize * 2) =
      Option.some
        { listCount := 1
          lastEntryCount := entryCount size
          capacity := pageSize * 2 + pageSize * entryCount size } := by
    rw [planLists, if_neg single]
    unfold entryCount at small
    simp only [small]
    rfl
  obtain ⟨filled, result, sameFirst, sameSecond, sameLists, pages, _, after⟩ :=
    @fillLists_last (entryCount size) (base + pageSize) 513
      (base + pageSize * 2) 0 (Nat.pos_of_ne_zero some)
      (by unfold maxEntryCount pageSize at few; omega)
      { ptr1 := base, ptr2 := base + pageSize
        ptrList := [base, base + pageSize], memory := fun _ => 0
        dataPages := [base], listPages := [base + pageSize] }
  refine ⟨filled, ?_, sameFirst, sameSecond, sameLists, pages, ?_⟩
  · unfold PRP.make
    rw [if_neg several, if_neg listed, plan]
    exact result
  · intro offset below
    simpa using after offset below

theorem listWords_listed {memory : Nat → Nat} {entries : Nat}
    (aligned : base % pageSize = 0) (few : entries ≤ maxEntryCount)
    (words : ∀ offset < entries, memory (base + pageSize + 8 * offset) =
      base + pageSize * 2 + pageSize * offset) :
    ∃ rest, listWords pageSize memory (base + pageSize) =
      listedPages base entries ++ rest := by
  refine ⟨(listWords pageSize memory (base + pageSize)).drop entries, ?_⟩
  have front : (listWords pageSize memory (base + pageSize)).take entries =
      listedPages base entries := by
    unfold listWords listedPages
    rw [getPRPSize_aligned (by rw [Nat.add_mod_right]; exact aligned),
      ← List.map_take, List.take_range, Nat.min_eq_left (by exact few)]
    exact List.map_congr_left fun offset member =>
      words offset (List.mem_range.mp member)
  rw [← front, List.take_append_drop]

theorem agreement_list (aligned : base % pageSize = 0)
    (more : pageSize * 2 < size) (fits : size ≤ 513 * pageSize) :
    Agreement base size := by
  obtain ⟨prp, made, first, second, lists, pages, words⟩ :=
    @make_list base size more fits
  obtain ⟨some, few, short, enough⟩ := entryCount_bounds more fits
  obtain ⟨rest, front⟩ := listWords_listed aligned few words
  have length : (listedPages base (entryCount size)).length =
      entryCount size := by
    simp [listedPages]
  have entries : readEntries pageSize (size - pageSize)
      (listWords pageSize prp.memory (base + pageSize)) 0 [pageRegion base] =
        .ok (pageSize * entryCount size, pageRegion base ::
          (listedPages base (entryCount size)).map pageRegion) := by
    rw [front, readEntries_pages]
    · rw [length, Nat.zero_add]
      rfl
    · intro page member
      obtain ⟨offset, _, rfl⟩ := List.mem_map.mp member
      unfold pageSize at *
      omega
    · intro page member
      obtain ⟨offset, _, rfl⟩ := List.mem_map.mp member
      unfold pageSize
      omega
    · intro empty
      rw [empty] at length
      exact some length.symm
    · rw [length, Nat.zero_add]
      exact short
    · rw [length, Nat.zero_add]
      exact enough
  have device : PRPList.make pageSize prp.ptr1 prp.ptr2 size =
      .ok (((empty pageSize).push base pageSize).getPRPListFromPRP
        (base + pageSize) (size - pageSize)) := by
    unfold PRPList.make
    simp only [first, second, getPRPSize_aligned aligned]
    rw [if_neg (by omega), if_neg (by omega)]
  have read : doRead prp.memory
      { ((empty pageSize).push base pageSize).getPRPListFromPRP
          (base + pageSize) (size - pageSize) with reading := [] }
      { base := base + pageSize, totalSize := size - pageSize } =
        .ok
          { pagesize := pageSize
            prpList := pageRegion base ::
              (listedPages base (entryCount size)).map pageRegion
            callCounter := 0, reading := [], scheduled := 0
            initCalls := 1 } := by
    unfold doRead
    dsimp only [getPRPListFromPRP, push, empty, List.nil_append]
    have start : [({ addr := base, size := pageSize } : Region)] =
        [pageRegion base] := rfl
    rw [start, entries]
    dsimp only
    rw [if_neg (Nat.not_lt.mpr enough)]
    simp [finish]
  refine ⟨513, prp, _, 2,
    { pagesize := pageSize
      prpList := pageRegion base ::
        (listedPages base (entryCount size)).map pageRegion
      callCounter := 0, reading := [], scheduled := 0
      initCalls := 1 }, made, device, ?_, ?_, ?_, ?_, rfl⟩
  · rw [serve]
    dsimp only [getPRPListFromPRP, push, empty, List.nil_append] at read ⊢
    rw [read]
    simp [serve]
  · rw [pages, List.map_cons, addresses_pageRegion]
    rfl
  · intro region member listed
    rw [lists, List.mem_singleton] at listed
    rcases List.mem_cons.mp member with same | later
    · rw [same] at listed
      simp only [pageRegion] at listed
      unfold pageSize at listed
      omega
    · obtain ⟨page, among, rfl⟩ := List.mem_map.mp later
      obtain ⟨offset, _, rfl⟩ := List.mem_map.mp among
      simp only [pageRegion] at listed
      unfold pageSize at listed
      omega
  · have bytes := described_append [pageRegion base]
      (listedPages base (entryCount size))
    rw [length] at bytes
    have one : described [pageRegion base] = pageSize := by
      simp [described, pageRegion]
    rw [one] at bytes
    have same : pageRegion base ::
        (listedPages base (entryCount size)).map pageRegion =
          [pageRegion base] ++
            (listedPages base (entryCount size)).map pageRegion := rfl
    dsimp only
    rw [same, bytes]
    omega

/-- A list that is chained leaves the device short of a page. -/
theorem fits_of_agreement (aligned : base % pageSize = 0)
    (agreement : Agreement base size) : size ≤ 513 * pageSize := by
  by_contra large
  have several : ¬ size ≤ pageSize := by
    unfold pageSize at *
    omega
  have listed : ¬ size ≤ pageSize * 2 := by
    unfold pageSize at *
    omega
  obtain ⟨hostFuel, prp, list, deviceFuel, final, made, device, served, _, _,
    enough, _⟩ := agreement
  have described : prp.ptr1 = base ∧ prp.ptr2 = base + pageSize ∧
      AlignedMemory prp.memory := by
    unfold PRP.make at made
    rw [if_neg several, if_neg listed] at made
    split at made
    · cases made
    · obtain ⟨first, second⟩ := fillLists_pointers made
      exact ⟨first, second, fillLists_aligned (fun _ => rfl)
        (by rw [Nat.add_mul_mod_self_left]; exact aligned) made⟩
  obtain ⟨first, second, alignedMemory⟩ := described
  unfold PRPList.make at device
  simp only [first, second, getPRPSize_aligned aligned, several, listed,
    if_false] at device
  cases device
  obtain ⟨_, short⟩ := serve_bound alignedMemory rfl rfl
    (by rw [Nat.add_mod_right]; exact aligned) (by dsimp only; omega) served
  have one : NVMe.described
      (((empty pageSize).push base pageSize).getPRPListFromPRP
        (base + pageSize) (size - pageSize)).prpList = pageSize := by
    simp [NVMe.described, getPRPListFromPRP, push, empty]
  rw [one] at short
  dsimp only at short
  have chained : pageSize * maxEntryCount < size - pageSize := by
    unfold maxEntryCount pageSize at *
    omega
  have missing := short chained
  omega

end Agreement

theorem prp_agreement_iff (base size : Nat)
    (aligned : base % pageSize = 0) :
    Agreement base size ↔ size ≤ 513 * pageSize := by
  constructor
  · exact fits_of_agreement aligned
  · intro fits
    by_cases one : size ≤ pageSize
    · exact agreement_one aligned one
    by_cases two : size ≤ pageSize * 2
    · exact agreement_two aligned (Nat.not_le.mp one) two
    · exact agreement_list aligned (Nat.not_le.mp two) fits

theorem prp_agreement_full_list : Agreement 4096 (513 * pageSize) :=
  (prp_agreement_iff 4096 (513 * pageSize) rfl).mpr (Nat.le_refl _)

/-- One byte more than a full list page describes. -/
theorem chained_list_short : ¬ Agreement 4096 (513 * pageSize + 1) := by
  intro agreement
  have fits := @fits_of_agreement 4096 _ rfl agreement
  exact absurd fits (by decide)

end SimpleSSD.SIL.NVMe
