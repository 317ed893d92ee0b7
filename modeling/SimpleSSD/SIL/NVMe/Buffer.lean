import SimpleSSD.SIL.NVMe.PRP

namespace SimpleSSD.SIL.NVMe

/-! What the driver copies to and from the buffer of a transfer.  Memory and the
caller's buffers are bytes by address. -/

/-- `memcpy`. -/
def copyBytes (source : Nat → UInt8) (src dst len : Nat)
    (target : Nat → UInt8) : Nat → UInt8 :=
  fun addr =>
    if dst ≤ addr ∧ addr < dst + len then source (src + (addr - dst))
    else target addr

theorem copyBytes_inside {source target : Nat → UInt8}
    {src dst len position : Nat} (inside : position < len) :
    copyBytes source src dst len target (dst + position) =
      source (src + position) := by
  unfold copyBytes
  rw [if_pos ⟨Nat.le_add_right _ _, Nat.add_lt_add_left inside dst⟩,
    Nat.add_sub_cancel_left]

theorem copyBytes_outside {source target : Nat → UInt8}
    {src dst len addr : Nat} (outside : addr < dst ∨ dst + len ≤ addr) :
    copyBytes source src dst len target addr = target addr := by
  unfold copyBytes
  rw [if_neg (by omega)]

/-- `DIVCEIL(offset + size, PAGE_SIZE)` in 64 bits. -/
def pageEnd (offset size : Nat) : Nat :=
  (offset + size + (2 ^ 64 - 1)) % 2 ^ 64 / pageSize + 1

/-- The loops of `readData` and `writeData` from page `i` on; none where
`ptrList` is read past its end.  The pages lie high enough for `ptr`. -/
def copyPages {Target : Type} (prp : PRP) (offset size : Nat)
    (copy : (ptr len : Nat) → Target → Target) :
    (count i copied : Nat) → Target → Option Target
  | 0, _, _, target => some target
  | count + 1, i, copied, target =>
      match prp.ptrList[i]? with
      | none => none
      | some page =>
          let ptr := page + offset - i * pageSize
          let len := min ((i + 1) * pageSize - offset) (size - copied)
          copyPages prp offset size copy count (i + 1) (copied + len)
            (copy ptr len target)

namespace PRP

def readData (prp : PRP) (offset size : Nat) (memory buffer : Nat → UInt8) :
    Option (Nat → UInt8) :=
  copyPages prp offset size
    (fun ptr len buffer => copyBytes memory ptr 0 len buffer)
    (pageEnd offset size - offset / pageSize) (offset / pageSize) 0 buffer

def writeData (prp : PRP) (offset size : Nat) (buffer memory : Nat → UInt8) :
    Option (Nat → UInt8) :=
  copyPages prp offset size
    (fun ptr len memory => copyBytes buffer 0 ptr len memory)
    (pageEnd offset size - offset / pageSize) (offset / pageSize) 0 memory

/-- Where the order of the PRP entries puts a byte of the region. -/
def place (prp : PRP) (byte : Nat) : Option Nat :=
  (prp.dataPages[byte / pageSize]?).map (· + byte % pageSize)

end PRP

/-- What a write and a read of the same bytes do, whatever was in memory and in
the buffers before. -/
structure RoundTrip (prp : PRP) (region offset size : Nat)
    (memory buffer target : Nat → UInt8) (written read : Nat → UInt8) :
    Prop where
  wrote : prp.writeData offset size buffer memory = some written
  readBack : prp.readData offset size written target = some read
  same : ∀ position < size, read position = buffer position
  others : ∀ byte < region, byte < offset ∨ offset + size ≤ byte →
    ∀ addr, prp.place byte = some addr → written addr = memory addr
  lists : ∀ page ∈ prp.listPages, ∀ position < pageSize,
    written (page + position) = memory (page + position)
  placed : ∀ position < size, ∃ addr,
    prp.place (offset + position) = some addr ∧
      written addr = buffer position

def RoundTrips (prp : PRP) (region offset size : Nat) : Prop :=
  ∀ memory buffer target, ∃ written read,
    RoundTrip prp region offset size memory buffer target written read

/-- Nothing to copy and no page to look up that is not listed, or one page whose
index in `ptrList` is its place in the order. -/
def OnePage (prp : PRP) (region offset size : Nat) : Prop :=
  (size = 0 ∧ (offset = 0 → 2 ^ 52 ≤ prp.ptrList.length) ∧
      (offset % pageSize ≠ 0 → offset / pageSize < prp.ptrList.length)) ∨
    (0 < size ∧ offset % pageSize + size ≤ pageSize ∧
      (region ≤ pageSize * 2 ∨ offset < pageSize))

instance (prp : PRP) (region offset size : Nat) :
    Decidable (OnePage prp region offset size) :=
  inferInstanceAs (Decidable (_ ∨ _))

/-! What the constructor leaves. -/

def Apart (pages : List Nat) : Prop :=
  pages.Pairwise fun one other => one + pageSize ≤ other

/-- Where the pages are while the lists are filled; `next` is the next page. -/
structure Laid (base next : Nat) (prp : PRP) (listed : List Nat) : Prop where
  ptrList : prp.ptrList = base :: (base + pageSize) :: listed
  dataPages : prp.dataPages = base :: listed
  apart : Apart (base :: (base + pageSize) :: listed)
  below : ∀ page ∈ base :: (base + pageSize) :: listed, page + pageSize ≤ next
  listPages : ∀ page ∈ prp.listPages, base + pageSize ≤ page

namespace Laid

variable {base page : Nat} {prp changed : PRP} {listed : List Nat}

theorem push (laid : Laid base page prp listed)
    (ptrList : changed.ptrList = prp.ptrList ++ [page])
    (dataPages : changed.dataPages = prp.dataPages ++ [page])
    (listPages : changed.listPages = prp.listPages) :
    Laid base (page + pageSize) changed (listed ++ [page]) where
  ptrList := by
    rw [ptrList, laid.ptrList]
    rfl
  dataPages := by
    rw [dataPages, laid.dataPages]
    rfl
  apart := by
    have extended : Apart ((base :: (base + pageSize) :: listed) ++ [page]) := by
      refine List.pairwise_append.mpr
        ⟨laid.apart, List.pairwise_singleton _ _, ?_⟩
      intro one member other last
      rw [List.mem_singleton.mp last]
      exact laid.below one member
    exact extended
  below := by
    intro one member
    have extended : one ∈ (base :: (base + pageSize) :: listed) ++ [page] :=
      member
    rcases List.mem_append.mp extended with early | last
    · have bound := laid.below one early
      omega
    · rw [List.mem_singleton.mp last]
  listPages := by
    rw [listPages]
    exact laid.listPages

theorem skip (laid : Laid base page prp listed)
    (ptrList : changed.ptrList = prp.ptrList)
    (dataPages : changed.dataPages = prp.dataPages)
    (listPages : changed.listPages = prp.listPages ++ [page]) :
    Laid base (page + pageSize) changed listed where
  ptrList := ptrList.trans laid.ptrList
  dataPages := dataPages.trans laid.dataPages
  apart := laid.apart
  below := by
    intro one member
    have bound := laid.below one member
    omega
  listPages := by
    intro one member
    rw [listPages] at member
    rcases List.mem_append.mp member with early | last
    · exact laid.listPages one early
    · have bound := laid.below base (.head _)
      rw [List.mem_singleton.mp last]
      exact bound

end Laid

theorem fillLists_laid {base lastEntryCount fuel listPtr page entry
      listCount : Nat} {prp filled : PRP} {listed : List Nat}
    (laid : Laid base page prp listed)
    (result : fillLists lastEntryCount fuel listPtr page entry listCount prp =
      some filled) : ∃ next pages, Laid base next filled pages := by
  induction fuel generalizing listPtr page entry listCount prp listed with
  | zero => cases result
  | succ fuel induction =>
      rw [fillLists] at result
      dsimp only at result
      split at result
      · cases result
        exact ⟨page + pageSize, listed ++ [page], laid.push rfl rfl rfl⟩
      split at result
      · have pushed : Laid base (page + pageSize)
            { prp with
              ptrList := prp.ptrList ++ [page]
              dataPages := prp.dataPages ++ [page] } (listed ++ [page]) :=
          laid.push rfl rfl rfl
        refine @induction _ _ _ _ _ (listed ++ [page]) ?_ result
        exact pushed.skip rfl rfl rfl
      · refine @induction _ _ _ _ _ (listed ++ [page]) ?_ result
        exact laid.push rfl rfl rfl

/-- A region of at most two pages has no list. -/
theorem make_direct {fuel base size : Nat} {prp : PRP}
    (made : PRP.make fuel base size = some prp) (fits : size ≤ pageSize * 2) :
    prp.listPages = [] ∧ prp.ptrList = prp.dataPages ∧
      (prp.dataPages = [base] ∧ size ≤ pageSize ∨
        prp.dataPages = [base, base + pageSize]) := by
  unfold PRP.make at made
  by_cases one : size ≤ pageSize
  · rw [if_pos one] at made
    cases made
    exact ⟨rfl, rfl, .inl ⟨rfl, one⟩⟩
  · rw [if_neg one, if_pos fits] at made
    cases made
    exact ⟨rfl, rfl, .inr rfl⟩

theorem make_laid {fuel base size : Nat} {prp : PRP}
    (made : PRP.make fuel base size = some prp) (more : pageSize * 2 < size) :
    ∃ next listed, Laid base next prp listed := by
  unfold PRP.make at made
  rw [if_neg (by unfold pageSize at *; omega),
    if_neg (Nat.not_le.mpr more)] at made
  split at made
  · cases made
  · refine @fillLists_laid base _ _ _ _ _ _ _ _ [] ?_ made
    constructor
    case ptrList => rfl
    case dataPages => rfl
    case apart =>
      refine List.pairwise_cons.mpr ⟨?_, List.pairwise_singleton _ _⟩
      intro other member
      rw [List.mem_singleton.mp member]
    case below =>
      intro page member
      rcases List.mem_pair.mp member with rfl | rfl <;> omega
    case listPages =>
      intro page member
      rw [List.mem_singleton.mp member]

theorem Apart.of_lt {pages : List Nat} (apart : Apart pages)
    {i j one other : Nat} (order : i < j) (first : pages[i]? = some one)
    (second : pages[j]? = some other) : one + pageSize ≤ other := by
  obtain ⟨low, rfl⟩ := List.getElem?_eq_some_iff.mp first
  obtain ⟨high, rfl⟩ := List.getElem?_eq_some_iff.mp second
  exact List.pairwise_iff_getElem.mp apart i j low high order

theorem Apart.of_ne {pages : List Nat} (apart : Apart pages)
    {i j one other : Nat} (different : i ≠ j) (first : pages[i]? = some one)
    (second : pages[j]? = some other) :
    one + pageSize ≤ other ∨ other + pageSize ≤ one := by
  rcases Nat.lt_or_gt_of_ne different with before | after
  · exact .inl (apart.of_lt before first second)
  · exact .inr (apart.of_lt after second first)

/-- Behind the first page the table is one page behind the order, for it has the
list page. -/
theorem Laid.shifted {base next : Nat} {prp : PRP} {listed : List Nat}
    (laid : Laid base next prp listed) {index page ordered : Nat}
    (some : 0 < index) (looked : prp.ptrList[index]? = .some page)
    (meant : prp.dataPages[index]? = .some ordered) :
    page + pageSize ≤ ordered := by
  obtain ⟨before, rfl⟩ := Nat.exists_eq_add_one.mpr some
  rw [laid.ptrList, List.getElem?_cons_succ] at looked
  rw [laid.dataPages, List.getElem?_cons_succ] at meant
  have tail : Apart ((base + pageSize) :: listed) :=
    (List.pairwise_cons.mp laid.apart).2
  refine tail.of_lt (Nat.lt_succ_self before) looked ?_
  rw [List.getElem?_cons_succ]
  exact meant

section Loops

variable {Target : Type} {prp : PRP} {offset size : Nat}
  {copy : (ptr len : Nat) → Target → Target} {target final : Target}

theorem copyPages_listed {count i copied : Nat}
    (result : copyPages prp offset size copy count i copied target =
      some final) : count = 0 ∨ i + count ≤ prp.ptrList.length := by
  induction count generalizing i copied target with
  | zero => exact .inl rfl
  | succ count induction =>
      rw [copyPages] at result
      split at result
      · cases result
      · next page there =>
          obtain ⟨inside, _⟩ := List.getElem?_eq_some_iff.mp there
          rcases induction result with none | more <;> omega

theorem copyPages_nothing (idle : ∀ ptr target, copy ptr 0 target = target)
    {count i copied : Nat}
    (listed : count = 0 ∨ i + count ≤ prp.ptrList.length) :
    copyPages prp offset 0 copy count i copied target = some target := by
  induction count generalizing i copied with
  | zero => rfl
  | succ count induction =>
      have inside : i < prp.ptrList.length := by omega
      rw [copyPages, List.getElem?_eq_getElem inside]
      dsimp only
      rw [Nat.zero_sub, Nat.min_zero, idle]
      exact induction (by omega)

theorem copyPages_one {page : Nat} (some : 0 < size)
    (single : offset % pageSize + size ≤ pageSize)
    (there : prp.ptrList[offset / pageSize]? = .some page) :
    copyPages prp offset size copy 1 (offset / pageSize) 0 target =
      .some (copy (page + offset % pageSize) size target) := by
  have split := Nat.div_add_mod offset pageSize
  rw [Nat.mul_comm] at split
  have ptr : page + offset - offset / pageSize * pageSize =
      page + offset % pageSize := by omega
  have len : min ((offset / pageSize + 1) * pageSize - offset) (size - 0) =
      size := by
    rw [Nat.add_mul]
    omega
  rw [copyPages, there]
  dsimp only
  rw [ptr, len]
  rfl

end Loops

section Counts

variable {offset size : Nat}

theorem pageEnd_some (some : 0 < offset + size)
    (bound : offset + size < 2 ^ 64) :
    pageEnd offset size = (offset + size - 1) / pageSize + 1 := by
  unfold pageEnd
  have wrapped : (offset + size + (2 ^ 64 - 1)) % 2 ^ 64 =
      offset + size - 1 := by omega
  rw [wrapped]

theorem pageEnd_one (some : 0 < size) (bound : offset + size < 2 ^ 64) :
    (offset % pageSize + size ≤ pageSize →
      pageEnd offset size - offset / pageSize = 1) ∧
    (pageSize < offset % pageSize + size →
      2 ≤ pageEnd offset size - offset / pageSize) := by
  rw [pageEnd_some (by omega) bound]
  unfold pageSize
  omega

theorem pageEnd_none (bound : offset < 2 ^ 64) :
    (offset = 0 → pageEnd offset 0 = 2 ^ 52) ∧
    (offset ≠ 0 → offset % pageSize = 0 →
      pageEnd offset 0 - offset / pageSize = 0) ∧
    (offset % pageSize ≠ 0 →
      pageEnd offset 0 - offset / pageSize = 1) := by
  unfold pageEnd pageSize
  omega

end Counts

section Made

variable {fuel base region : Nat} {prp : PRP}

theorem make_apart (made : PRP.make fuel base region = some prp) :
    Apart prp.dataPages := by
  by_cases fits : region ≤ pageSize * 2
  · obtain ⟨_, _, ⟨single, _⟩ | both⟩ := make_direct made fits
    · rw [single]
      exact List.pairwise_singleton _ _
    · rw [both]
      refine List.pairwise_cons.mpr ⟨?_, List.pairwise_singleton _ _⟩
      intro other member
      rw [List.mem_singleton.mp member]
  · obtain ⟨_, listed, laid⟩ := make_laid made (Nat.not_le.mp fits)
    rw [laid.dataPages]
    have shorter : (base :: listed).Sublist
        (base :: (base + pageSize) :: listed) :=
      (List.sublist_cons_self _ _).cons_cons base
    exact laid.apart.sublist shorter

theorem make_page {offset size : Nat}
    (made : PRP.make fuel base region = some prp)
    (inside : offset + size ≤ region) (some : 0 < size)
    (early : region ≤ pageSize * 2 ∨ offset < pageSize) :
    ∃ page, prp.ptrList[offset / pageSize]? = .some page ∧
      prp.dataPages[offset / pageSize]? = .some page ∧
      ∀ list ∈ prp.listPages, page + pageSize ≤ list := by
  by_cases fits : region ≤ pageSize * 2
  · obtain ⟨lists, same, pages⟩ := make_direct made fits
    rw [lists, same]
    rcases pages with ⟨single, one⟩ | both
    · have first : offset / pageSize = 0 :=
        Nat.div_eq_of_lt (by omega)
      rw [single, first]
      exact ⟨base, rfl, rfl, fun list member => nomatch member⟩
    · have few : offset / pageSize < 2 :=
        Nat.div_lt_of_lt_mul (by omega)
      rw [both]
      rcases Nat.le_one_iff_eq_zero_or_eq_one.mp (Nat.le_of_lt_succ few) with
        first | second
      · rw [first]
        exact ⟨base, rfl, rfl, fun list member => nomatch member⟩
      · rw [second]
        exact ⟨base + pageSize, rfl, rfl, fun list member => nomatch member⟩
  · obtain ⟨_, listed, laid⟩ := make_laid made (Nat.not_le.mp fits)
    have first : offset / pageSize = 0 :=
      Nat.div_eq_of_lt (early.resolve_left fits)
    rw [laid.ptrList, laid.dataPages, first]
    exact ⟨base, rfl, rfl, laid.listPages⟩

theorem roundTrips_nothing {offset : Nat} (bound : offset < 2 ^ 64)
    (one : OnePage prp region offset 0) : RoundTrips prp region offset 0 := by
  obtain ⟨_, start, later⟩ : 0 = 0 ∧
      (offset = 0 → 2 ^ 52 ≤ prp.ptrList.length) ∧
      (offset % pageSize ≠ 0 → offset / pageSize < prp.ptrList.length) :=
    one.resolve_right fun h => absurd h.1 (Nat.lt_irrefl 0)
  obtain ⟨zero, whole, part⟩ := pageEnd_none bound
  have listed : pageEnd offset 0 - offset / pageSize = 0 ∨
      offset / pageSize + (pageEnd offset 0 - offset / pageSize) ≤
        prp.ptrList.length := by
    by_cases first : offset = 0
    · have many := start first
      rw [zero first, first, Nat.zero_div]
      exact .inr (by omega)
    · by_cases aligned : offset % pageSize = 0
      · exact .inl (whole first aligned)
      · have inside := later aligned
        rw [part aligned]
        exact .inr (by omega)
  intro memory buffer target
  refine ⟨memory, target, ?_⟩
  constructor
  case wrote =>
    refine copyPages_nothing ?_ listed
    intro ptr target
    funext addr
    exact copyBytes_outside (by omega)
  case readBack =>
    refine copyPages_nothing ?_ listed
    intro ptr target
    funext addr
    exact copyBytes_outside (by omega)
  case same => exact fun position none => absurd none (Nat.not_lt_zero _)
  case others => exact fun _ _ _ _ _ => rfl
  case lists => exact fun _ _ _ _ => rfl
  case placed => exact fun position none => absurd none (Nat.not_lt_zero _)

theorem roundTrips_one {offset size : Nat}
    (made : PRP.make fuel base region = some prp)
    (inside : offset + size ≤ region) (bound : region < 2 ^ 64)
    (some : 0 < size) (single : offset % pageSize + size ≤ pageSize)
    (early : region ≤ pageSize * 2 ∨ offset < pageSize) :
    RoundTrips prp region offset size := by
  obtain ⟨page, looked, meant, lists⟩ := make_page made inside some early
  have count := (@pageEnd_one offset size some (by omega)).1 single
  have apart := make_apart made
  intro memory buffer target
  refine ⟨copyBytes buffer 0 (page + offset % pageSize) size memory,
    copyBytes (copyBytes buffer 0 (page + offset % pageSize) size memory)
      (page + offset % pageSize) 0 size target, ?_⟩
  constructor
  case wrote =>
    unfold PRP.writeData
    rw [count]
    exact copyPages_one some single looked
  case readBack =>
    unfold PRP.readData
    rw [count]
    exact copyPages_one some single looked
  case same =>
    intro position within
    have read := @copyBytes_inside
      (copyBytes buffer 0 (page + offset % pageSize) size memory) target
      (page + offset % pageSize) 0 size position within
    rw [Nat.zero_add] at read
    rw [read, copyBytes_inside within, Nat.zero_add]
  case others =>
    intro byte _ outside addr there
    obtain ⟨other, listed, rfl⟩ := Option.map_eq_some_iff.mp there
    apply copyBytes_outside
    by_cases same : byte / pageSize = offset / pageSize
    · rw [same, meant] at listed
      cases listed
      have split := Nat.div_add_mod byte pageSize
      have splitOffset := Nat.div_add_mod offset pageSize
      rw [same] at split
      omega
    · have positive : 0 < pageSize := by decide
      have low := Nat.mod_lt byte positive
      rcases apart.of_ne same listed meant with before | after <;> omega
  case lists =>
    intro list member position within
    apply copyBytes_outside
    have behind := lists list member
    omega
  case placed =>
    intro position within
    have split := Nat.div_add_mod offset pageSize
    have there : (offset + position) / pageSize = offset / pageSize := by
      unfold pageSize at *
      omega
    have rest : (offset + position) % pageSize =
        offset % pageSize + position := by
      unfold pageSize at *
      omega
    refine ⟨page + (offset % pageSize + position), ?_, ?_⟩
    · unfold PRP.place
      rw [there, rest, meant]
      rfl
    · rw [← Nat.add_assoc, copyBytes_inside within, Nat.zero_add]

/-- The last byte of the buffer is not read once bytes were copied: each page
fills the buffer from its start. -/
theorem copyPages_last {offset size : Nat} {memory target read : Nat → UInt8}
    {count i copied : Nat} (some : 0 < copied)
    (result : copyPages prp offset size
      (fun ptr len buffer => copyBytes memory ptr 0 len buffer) count i copied
        target = .some read) : read (size - 1) = target (size - 1) := by
  induction count generalizing i copied target with
  | zero =>
      cases result
      rfl
  | succ count induction =>
      rw [copyPages] at result
      split at result
      · cases result
      · rw [induction (by omega) result]
        exact copyBytes_outside (by omega)

/-- More than one page is never read back in full. -/
theorem roundTrips_single {offset size : Nat} (some : 0 < size)
    (bound : offset + size < 2 ^ 64)
    (trips : RoundTrips prp region offset size) :
    offset % pageSize + size ≤ pageSize := by
  by_contra crosses
  have several := (@pageEnd_one offset size some bound).2
    (Nat.not_le.mp crosses)
  obtain ⟨written, read, trip⟩ := trips (fun _ => 0) (fun _ => 0) (fun _ => 1)
  have result := trip.readBack
  unfold PRP.readData at result
  obtain ⟨count, counted⟩ := Nat.exists_eq_add_of_le' several
  rw [counted, copyPages] at result
  split at result
  · cases result
  · have split := Nat.div_add_mod offset pageSize
    have below := Nat.mod_lt offset (show 0 < pageSize by decide)
    rw [Nat.mul_comm] at split
    rw [Nat.add_mul] at result
    have last := copyPages_last (by omega) result
    rw [copyBytes_outside (by omega), trip.same (size - 1) (by omega)] at last
    exact absurd last (by decide)

/-- Bytes of a region with a list are at their place in its first page only. -/
theorem roundTrips_early {offset size : Nat}
    (made : PRP.make fuel base region = some prp) (some : 0 < size)
    (bound : offset + size < 2 ^ 64)
    (single : offset % pageSize + size ≤ pageSize)
    (trips : RoundTrips prp region offset size) :
    region ≤ pageSize * 2 ∨ offset < pageSize := by
  by_contra late
  rw [not_or] at late
  obtain ⟨_, listed, laid⟩ := make_laid made (Nat.not_le.mp late.1)
  have index : 0 < offset / pageSize :=
    Nat.div_pos (Nat.not_lt.mp late.2) (by decide)
  obtain ⟨written, _, trip⟩ := trips (fun _ => 0) (fun _ => 1) (fun _ => 0)
  have result := trip.wrote
  obtain ⟨addr, there, stored⟩ := trip.placed 0 some
  obtain ⟨ordered, meant, rfl⟩ := Option.map_eq_some_iff.mp there
  rw [Nat.add_zero] at meant stored
  unfold PRP.writeData at result
  rw [(@pageEnd_one offset size some bound).1 single] at result
  cases looked : prp.ptrList[offset / pageSize]? with
  | none =>
      rw [copyPages, looked] at result
      cases result
  | some page =>
      rw [copyPages_one some single looked] at result
      cases result
      have behind := laid.shifted index looked meant
      rw [copyBytes_outside (by omega)] at stored
      exact absurd stored (by decide)

theorem roundTrips_onePage {offset size : Nat}
    (made : PRP.make fuel base region = some prp)
    (bound : offset + size < 2 ^ 64)
    (trips : RoundTrips prp region offset size) :
    OnePage prp region offset size := by
  rcases Nat.eq_zero_or_pos size with rfl | some
  · refine .inl ⟨rfl, ?_⟩
    obtain ⟨written, _, trip⟩ :=
      trips (fun _ => 0) (fun _ => 0) (fun _ => 0)
    have visited := copyPages_listed trip.wrote
    obtain ⟨zero, _, part⟩ := @pageEnd_none offset bound
    constructor
    · intro first
      rw [zero first, first, Nat.zero_div] at visited
      omega
    · intro aligned
      rw [part aligned] at visited
      omega
  · have single := roundTrips_single some bound trips
    exact .inr ⟨some, single, roundTrips_early made some bound single trips⟩

end Made

/-- Exactly when what the driver writes to a region comes back, at its place in
the order of the PRP entries and with nothing else changed. -/
theorem buffer_round_trip {fuel base region : Nat} {prp : PRP}
    (made : PRP.make fuel base region = some prp) (bound : region < 2 ^ 64)
    {offset size : Nat} (inside : offset + size ≤ region) :
    RoundTrips prp region offset size ↔ OnePage prp region offset size := by
  constructor
  · exact roundTrips_onePage made (by omega)
  · intro one
    rcases Nat.eq_zero_or_pos size with rfl | some
    · exact roundTrips_nothing (by omega) one
    · obtain ⟨_, single, early⟩ :=
        one.resolve_left fun none => absurd none.1 (Nat.ne_of_gt some)
      exact roundTrips_one made inside bound some single early

/-- The second page of two. -/
theorem buffer_round_trip_second_page :
    ∃ prp, PRP.make 0 4096 8192 = some prp ∧
      RoundTrips prp 8192 5000 100 := by
  have made : PRP.make 0 4096 8192 = some _ := rfl
  exact ⟨_, made, (buffer_round_trip made (by decide) (by decide)).mpr
    (by decide)⟩

/-- Two bytes around the border of two pages: the second page overwrites the
first byte of the buffer, and the second byte is not read. -/
theorem buffer_loses_byte :
    ∃ prp written read, PRP.make 0 4096 8192 = some prp ∧
      prp.writeData 4095 2 (fun position => if position = 0 then 1 else 2)
        (fun _ => 0) = some written ∧
      prp.readData 4095 2 written (fun _ => 0) = some read ∧
      written 8192 = 0 ∧ read 1 = 0 :=
  ⟨_, _, _, rfl, rfl, rfl, rfl, rfl⟩

end SimpleSSD.SIL.NVMe
