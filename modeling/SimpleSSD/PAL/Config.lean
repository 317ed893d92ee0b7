import SimpleSSD.Data.Radix
import Mathlib.Data.List.Permutation

namespace SimpleSSD.PAL

inductive Index where
  | channel
  | package
  | die
  | plane
  deriving DecidableEq, Repr

inductive Panic where
  | invalidWidth
  | invalidPageAllocation
  | invalidFlag
  | flagMismatch
  /-- The flag is read past its memory. -/
  | outOfFlag
  deriving DecidableEq, Repr

def Panic.message : Panic → String
  | .invalidWidth => "dmaWidth should be multiple of 8."
  | .invalidPageAllocation => "Invalid page allocation string"
  | .invalidFlag => "Invalid size of I/O flag"
  | .flagMismatch => "I/O flag size != # pages in super page"
  | .outOfFlag => ""

namespace Index

def all : List Index :=
  [.channel, .package, .die, .plane]

def code : Index → UInt8
  | .channel => 0x01
  | .package => 0x02
  | .die => 0x04
  | .plane => 0x08

/-- The cases of the `switch` over an index. -/
def ofCode (code : UInt8) : Option Index :=
  all.find? (·.code = code)

def ofChar (letter : Char) : Option Index :=
  if letter = 'C' ∨ letter = 'c' then
    some .channel
  else if letter = 'W' ∨ letter = 'w' then
    some .package
  else if letter = 'D' ∨ letter = 'd' then
    some .die
  else if letter = 'P' ∨ letter = 'p' then
    some .plane
  else
    none

end Index

/-- The part of `Config` that the layout of addresses depends on. -/
structure Config where
  channel : UInt32
  package : UInt32
  die : UInt32
  plane : UInt32
  block : UInt32
  page : UInt32
  pageSize : UInt32
  useMultiPlaneOperation : Bool
  dmaWidth : UInt32
  superblock : UInt8
  /-- The entries of `PageAllocation` that are set. -/
  pageAllocation : List Index
  /-- `_superblock` and `_pageAllocation`, the strings of the file. -/
  superblockText : List Char
  pageAllocationText : List Char
  deriving DecidableEq, Repr

namespace Config

def size (conf : Config) : Index → UInt32
  | .channel => conf.channel
  | .package => conf.package
  | .die => conf.die
  | .plane => conf.plane

/-- `superblock & idx`. -/
def inSuperblock (conf : Config) (index : Index) : Bool :=
  conf.superblock &&& index.code ≠ 0

structure Parsing where
  pageAllocation : List Index
  check : UInt8
  fail : Bool
  deriving DecidableEq, Repr

def Parsing.letter (parsing : Parsing) (letter : Char) : Parsing :=
  match Index.ofChar letter with
  | none => parsing
  | some index =>
      { pageAllocation := parsing.pageAllocation ++ [index]
        check := parsing.check ||| index.code
        fail := parsing.fail || decide (parsing.check &&& index.code ≠ 0) }

def Parsing.run : List Char → Parsing → Parsing
  | [], parsing => parsing
  | letter :: letters, parsing =>
      if (parsing.letter letter).pageAllocation.length = 4 then
        parsing.letter letter
      else
        Parsing.run letters (parsing.letter letter)

def planeFirst (pageAllocation : List Index) : List Index :=
  if .plane ∈ pageAllocation then
    .plane :: pageAllocation.erase .plane
  else
    pageAllocation

def superblockOf (letters : List Char) : UInt8 :=
  letters.foldl (fun superblock letter =>
    match Index.ofChar letter with
    | none => superblock
    | some index => superblock ||| index.code) 0

def update (conf : Config) : Except Panic Config :=
  if conf.dmaWidth &&& (0x07 : UInt32) ≠ (0 : UInt32) then
    throw .invalidWidth
  else
    let parsing := Parsing.run conf.pageAllocationText ⟨[], 0, false⟩
    let fail := parsing.fail || decide (parsing.check ≠ 0x0F)
    let order :=
      if conf.useMultiPlaneOperation then
        planeFirst parsing.pageAllocation
      else
        parsing.pageAllocation
    if fail then
      throw .invalidPageAllocation
    else
      let superblock :=
        if conf.superblockText.length > 0 then
          superblockOf conf.superblockText
        else
          conf.superblock
      pure { conf with
        pageAllocation := order
        superblock :=
          if conf.useMultiPlaneOperation then
            superblock ||| Index.plane.code
          else
            superblock }

/-- The byte `PageAllocation[i]`. -/
def allocationCode (conf : Config) (position : Nat) : UInt8 :=
  (conf.pageAllocation[position]?.map Index.code).getD 0

def getPageAllocationConfig (conf : Config) : UInt32 :=
  (conf.allocationCode 0).toUInt32 |||
    ((conf.allocationCode 1).toUInt32 <<< (8 : UInt32)) |||
    ((conf.allocationCode 2).toUInt32 <<< (16 : UInt32)) |||
    ((conf.allocationCode 3).toUInt32 <<< (24 : UInt32))

end Config

def indexAt (pageAllocation : UInt32) (position : Nat) : Option Index :=
  Index.ofCode
    ((pageAllocation >>> (UInt32.ofNat (position * 8))) &&& (0xFF : UInt32)).toUInt8

/-- The indices that the loop of `convertCPDPBP` goes through. -/
def indices (pageAllocation : UInt32) : List Index :=
  (List.range 4).filterMap (indexAt pageAllocation)

structure Parameter where
  channel : UInt32
  package : UInt32
  die : UInt32
  plane : UInt32
  block : UInt32
  page : UInt32
  pageSize : UInt32
  superBlock : UInt32
  superPageSize : UInt32
  pageInSuperPage : UInt32
  deriving DecidableEq, Repr

namespace Parameter

def size (param : Parameter) : Index → UInt32
  | .channel => param.channel
  | .package => param.package
  | .die => param.die
  | .plane => param.plane

/-- A dimension makes the super page larger or the super blocks more. -/
def scale (param : Parameter) (inside : Bool) (factor : UInt32) : Parameter :=
  if inside then
    { param with superPageSize := param.superPageSize * factor }
  else
    { param with superBlock := param.superBlock * factor }

def start (conf : Config) : Parameter where
  channel := conf.channel
  package := conf.package
  die := conf.die
  plane := conf.plane
  block := conf.block
  page := conf.page
  pageSize := conf.pageSize
  superBlock := conf.block
  superPageSize := conf.pageSize
  pageInSuperPage := 0

/-- The parameter that the constructor `PAL::PAL` computes. -/
def make (conf : Config) : Parameter :=
  let param := start conf
  let param := param.scale (conf.inSuperblock .channel) param.channel
  let param := param.scale (conf.inSuperblock .package) param.package
  let param := param.scale (conf.inSuperblock .die) param.die
  let param := param.scale
    (conf.useMultiPlaneOperation || conf.inSuperblock .plane) param.plane
  let pageInSuperPage := param.superPageSize / param.pageSize
  { param with
    pageInSuperPage :=
      if conf.useMultiPlaneOperation then
        pageInSuperPage / param.plane
      else
        pageInSuperPage }

end Parameter

/-! What the loop over the string accepts. -/

namespace Config

/-- The letters so far: without a fault, different indices, noted in `check`. -/
structure Parsing.Clean (parsing : Parsing) : Prop where
  distinct : parsing.fail = false → parsing.pageAllocation.Nodup
  noted : ∀ index,
    parsing.check &&& index.code ≠ 0 ↔ index ∈ parsing.pageAllocation

theorem code_or (check : UInt8) (first second : Index) :
    (check ||| first.code) &&& second.code ≠ 0 ↔
      check &&& second.code ≠ 0 ∨ second = first := by
  have hsplit : (check ||| first.code) &&& second.code =
      (check &&& second.code) ||| (first.code &&& second.code) :=
    UInt8.eq_of_toBitVec_eq (by simp [BitVec.and_or_distrib_right])
  rw [hsplit]
  by_cases heq : second = first
  · subst heq
    have hcode : second.code ≠ 0 := by cases second <;> decide
    simp [UInt8.or_eq_zero_iff, hcode]
  · have hcode : first.code &&& second.code = 0 := by
      cases first <;> cases second <;> first | rfl | exact absurd rfl heq
    simp [hcode, heq]

theorem Parsing.Clean.letter {parsing : Parsing} (hclean : parsing.Clean)
    (letter : Char) : (parsing.letter letter).Clean := by
  unfold Parsing.letter
  cases Index.ofChar letter with
  | none => exact hclean
  | some index =>
      constructor
      · intro hfail
        obtain ⟨hfail, hnew⟩ := Bool.or_eq_false_iff.mp hfail
        have hout : index ∉ parsing.pageAllocation := by
          rw [← hclean.noted]
          simpa using hnew
        exact List.nodup_append.mpr ⟨hclean.distinct hfail,
          List.nodup_singleton index, by
            intro first hfirst second hsecond heq
            rw [List.mem_singleton.mp hsecond] at heq
            exact hout (heq ▸ hfirst)⟩
      · intro other
        rw [code_or, hclean.noted, List.mem_append, List.mem_singleton]

theorem Parsing.Clean.run {parsing : Parsing} (hclean : parsing.Clean)
    (letters : List Char) : (Parsing.run letters parsing).Clean := by
  induction letters generalizing parsing with
  | nil => exact hclean
  | cons letter letters ih =>
      unfold Parsing.run
      split
      · exact hclean.letter letter
      · exact ih (hclean.letter letter)

theorem perm_all {order : List Index} (hnodup : order.Nodup)
    (hall : ∀ index, index ∈ order) : order.Perm Index.all := by
  rw [List.perm_ext_iff_of_nodup hnodup (by decide)]
  intro index
  refine iff_of_true (hall index) ?_
  cases index <;> decide

theorem planeFirst_perm (order : List Index) :
    (planeFirst order).Perm order := by
  unfold planeFirst
  split
  · rename_i hmem
    exact (List.perm_cons_erase hmem).symm
  · exact List.Perm.refl order

theorem update_pageAllocation {conf updated : Config}
    (h : conf.update = .ok updated) :
    updated.pageAllocation.Perm Index.all := by
  unfold update at h
  split at h
  · cases h
  dsimp only at h
  split at h
  · cases h
  · rename_i hfail
    obtain rfl := Except.ok.inj h
    have hclean : (Parsing.mk [] 0 false).Clean :=
      ⟨fun _ => List.nodup_nil, fun index => by cases index <;> decide⟩
    have hparsed := hclean.run conf.pageAllocationText
    have hfail' := Bool.or_eq_false_iff.mp (Bool.eq_false_iff.mpr hfail)
    have hcheck : (Parsing.run conf.pageAllocationText
        ⟨[], 0, false⟩).check = 0x0F := by
      simpa using hfail'.2
    have hperm := perm_all (hparsed.distinct hfail'.1) (fun index => by
      rw [← hparsed.noted, hcheck]
      cases index <;> decide)
    dsimp only
    split
    · exact (planeFirst_perm _).trans hperm
    · exact hperm

/-- Packing the page allocation into one word and taking it apart. -/
theorem indices_eq {conf : Config}
    (horder : conf.pageAllocation.Perm Index.all) :
    indices conf.getPageAllocationConfig = conf.pageAllocation := by
  have hall : ∀ order ∈ Index.all.permutations',
      indices ({ conf with pageAllocation := order } :
        Config).getPageAllocationConfig = order := by
    unfold getPageAllocationConfig allocationCode
    dsimp only
    decide +kernel
  exact hall _ (List.mem_permutations'.mpr horder)

end Config

end SimpleSSD.PAL
