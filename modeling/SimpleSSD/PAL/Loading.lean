import SimpleSSD.PAL.Config
import SimpleSSD.Util.Text

namespace SimpleSSD.PAL

open Util (strtoul)

/-! How configuration files reach the PAL: `ConfigReader::init` parses the file,
the common file it names and the file again, and `update` runs once for each of
the two. -/

def convertBool (value : List Char) : Bool :=
  decide (value.map Char.toLower = ['t', 'r', 'u', 'e']) || strtoul 10 value ≠ 0

structure Item where
  sectionName : String
  name : String
  value : List Char
  deriving DecidableEq, Repr

namespace Config

def make : Config where
  channel := 8
  package := 4
  die := 2
  plane := 1
  block := 512
  page := 512
  pageSize := 16384
  useMultiPlaneOperation := true
  dmaWidth := 8
  superblock := 0
  pageAllocation := []
  superblockText := []
  pageAllocationText := []

/-- A key of the section.  `other` stands for the keys of timing and power,
which the layout of addresses does not depend on. -/
inductive Key where
  | channel
  | package
  | die
  | plane
  | block
  | page
  | pageSize
  | useMultiPlaneOperation
  | dmaWidth
  | superblock
  | pageAllocation
  | other
  deriving DecidableEq, Repr

def names : List (String × Key) :=
  [("Channel", .channel), ("Package", .package), ("Die", .die),
    ("Plane", .plane), ("Block", .block), ("Page", .page),
    ("PageSize", .pageSize),
    ("EnableMultiPlaneOperation", .useMultiPlaneOperation),
    ("DMASpeed", .other), ("DMAWidth", .dmaWidth), ("NANDType", .other),
    ("SuperblockSize", .superblock), ("PageAllocation", .pageAllocation),
    ("LSBRead", .other), ("LSBWrite", .other), ("CSBRead", .other),
    ("CSBWrite", .other), ("MSBRead", .other), ("MSBWrite", .other),
    ("Erase", .other), ("Voltage", .other), ("ReadCurrent", .other),
    ("ProgramCurrent", .other), ("EraseCurrent", .other),
    ("IdleCurrent", .other), ("StandbyCurrent", .other)]

def set (conf : Config) (value : List Char) : Key → Config
  | .channel => { conf with channel := (strtoul 10 value).toUInt32 }
  | .package => { conf with package := (strtoul 10 value).toUInt32 }
  | .die => { conf with die := (strtoul 10 value).toUInt32 }
  | .plane => { conf with plane := (strtoul 10 value).toUInt32 }
  | .block => { conf with block := (strtoul 10 value).toUInt32 }
  | .page => { conf with page := (strtoul 10 value).toUInt32 }
  | .pageSize => { conf with pageSize := (strtoul 10 value).toUInt32 }
  | .useMultiPlaneOperation =>
      { conf with useMultiPlaneOperation := convertBool value }
  | .dmaWidth => { conf with dmaWidth := (strtoul 10 value).toUInt32 }
  | .superblock => { conf with superblockText := value }
  | .pageAllocation => { conf with pageAllocationText := value }
  | .other => conf

def setConfig (conf : Config) (name : String) (value : List Char) :
    Option Config :=
  (names.lookup name).map (conf.set value)

def withDerived (conf : Config) (superblock : UInt8)
    (pageAllocation : List Index) : Config :=
  { conf with superblock := superblock, pageAllocation := pageAllocation }

/-- A new configuration with the keys of `conf`. -/
def fresh (conf : Config) : Config :=
  conf.withDerived make.superblock make.pageAllocation

end Config

/-- `ConfigReader`, with the common path of its `globalConfig`. -/
structure ConfigReader where
  commonConfigPath : List Char
  palConfig : Config
  deriving DecidableEq, Repr

inductive InitFault where
  /-- `init` returns false. -/
  | noFile
  | panic (raised : Panic)
  /-- Files name one another for more rounds than the model was given. -/
  | outOfFuel
  deriving DecidableEq, Repr

namespace ConfigReader

def make : ConfigReader where
  commonConfigPath := []
  palConfig := Config.make

/-- `parserHandler`; a key that is not handled is only warned about. -/
def parserHandler (reader : ConfigReader) (item : Item) : ConfigReader :=
  if item.sectionName = "global" then
    if item.name = "CommonConfig" then
      { reader with commonConfigPath := item.value }
    else
      reader
  else if item.sectionName = "pal" then
    { reader with
      palConfig :=
        (reader.palConfig.setConfig item.name item.value).getD reader.palConfig }
  else
    reader

def parse (reader : ConfigReader) (items : List Item) : ConfigReader :=
  items.foldl parserHandler reader

def update (reader : ConfigReader) : Except InitFault ConfigReader :=
  match reader.palConfig.update with
  | .error raised => throw (.panic raised)
  | .ok palConfig => pure { reader with palConfig := palConfig }

def init (files : List Char → Option (List Item)) :
    (fuel : Nat) → (file : List Char) → ConfigReader →
      Except InitFault ConfigReader
  | 0, _, _ => throw .outOfFuel
  | fuel + 1, file, reader =>
      match files file with
      | none => throw .noFile
      | some items =>
          let reader := reader.parse items
          if reader.commonConfigPath ≠ [] ∧ reader.commonConfigPath ≠ file then
            match init files fuel reader.commonConfigPath reader with
            | .error fault => throw fault
            | .ok reader => (reader.parse items).update
          else
            reader.update

end ConfigReader

namespace Config

/-- The derived members are of no account to the keys. -/
theorem set_withDerived (conf : Config) (superblock : UInt8)
    (pageAllocation : List Index) (value : List Char) (key : Key) :
    (conf.withDerived superblock pageAllocation).set value key =
      (conf.set value key).withDerived superblock pageAllocation := by
  cases key
  all_goals rfl

def planeMask (conf : Config) : UInt8 :=
  if conf.useMultiPlaneOperation then Index.plane.code else 0

def order (conf : Config) : List Index :=
  let parsing := Parsing.run conf.pageAllocationText ⟨[], 0, false⟩
  if conf.useMultiPlaneOperation then
    planeFirst parsing.pageAllocation
  else
    parsing.pageAllocation

def mask (conf : Config) (superblock : UInt8) : UInt8 :=
  (if conf.superblockText.length > 0 then
    superblockOf conf.superblockText
  else
    superblock) ||| conf.planeMask

/-- Whether `update` returns depends on the keys only, and so does all it
computes but for the mask that it may keep. -/
theorem update_withDerived {conf updated : Config}
    (h : conf.update = .ok updated) (superblock : UInt8)
    (pageAllocation : List Index) :
    (conf.withDerived superblock pageAllocation).update =
      .ok (conf.withDerived (conf.mask superblock) conf.order) := by
  unfold update at h ⊢
  split at h
  · cases h
  · rename_i hwidth
    rw [if_neg (by exact hwidth)]
    dsimp only at h ⊢
    split at h
    · cases h
    · rename_i hfail
      rw [if_neg (by exact hfail)]
      unfold mask planeMask order withDerived
      dsimp only
      cases hplane : conf.useMultiPlaneOperation with
      | true => rfl
      | false =>
          simp only [Bool.false_eq_true, if_false, UInt8.or_zero]
          rfl

theorem withDerived_self (conf : Config) :
    conf.withDerived conf.superblock conf.pageAllocation = conf :=
  rfl

theorem update_eq {conf updated : Config} (h : conf.update = .ok updated) :
    updated = conf.withDerived (conf.mask conf.superblock) conf.order := by
  have heq := update_withDerived h conf.superblock conf.pageAllocation
  rw [withDerived_self, h] at heq
  exact Except.ok.inj heq

theorem mask_mask (conf : Config) (superblock : UInt8) :
    conf.mask (conf.mask superblock) = conf.mask superblock := by
  unfold mask
  split
  · rfl
  · rw [UInt8.or_assoc, UInt8.or_self]

theorem update_idempotent {conf updated : Config}
    (h : conf.update = .ok updated) : updated.update = .ok updated := by
  rw [update_eq h, update_withDerived h, mask_mask]

/-- A new configuration does not know a mask from before. -/
theorem mask_fresh (conf : Config) :
    conf.mask make.superblock =
      superblockOf conf.superblockText ||| conf.planeMask := by
  unfold mask
  split
  · rfl
  · rename_i hempty
    have hnil : conf.superblockText = [] :=
      List.eq_nil_of_length_eq_zero (by omega)
    rw [hnil]
    rfl

theorem or_or_eq_right {first second mask : UInt8} :
    first ||| second ||| mask = mask ↔
      first ||| mask = mask ∧ second ||| mask = mask := by
  constructor
  · intro h
    have hfirst : first ||| (first ||| second ||| mask) =
        first ||| second ||| mask := by
      rw [← UInt8.or_assoc, ← UInt8.or_assoc, UInt8.or_self]
    have hsecond : second ||| (first ||| second ||| mask) =
        first ||| second ||| mask := by
      rw [UInt8.or_comm first second, ← UInt8.or_assoc, ← UInt8.or_assoc,
        UInt8.or_self]
    rw [h] at hfirst hsecond
    exact ⟨hfirst, hsecond⟩
  · rintro ⟨hfirst, hsecond⟩
    rw [UInt8.or_assoc, hsecond, hfirst]

theorem letters_or {letters : List Char} {superblock mask : UInt8} :
    letters.foldl (fun superblock letter =>
        ((Index.ofChar letter).map (superblock ||| ·.code)).getD superblock)
        superblock ||| mask = mask ↔
      superblock ||| mask = mask ∧
        ∀ letter ∈ letters, ∀ index, Index.ofChar letter = some index →
          index.code ||| mask = mask := by
  induction letters generalizing superblock with
  | nil => simp
  | cons letter letters ih =>
      rw [List.foldl_cons, ih, List.forall_mem_cons]
      cases hletter : Index.ofChar letter with
      | none => simp
      | some index => simp [or_or_eq_right, and_assoc]

theorem superblockOf_or {letters : List Char} {mask : UInt8} :
    superblockOf letters ||| mask = mask ↔
      ∀ letter ∈ letters, ∀ index, Index.ofChar letter = some index →
        index.code ||| mask = mask := by
  have hfold : superblockOf letters =
      letters.foldl (fun superblock letter =>
        ((Index.ofChar letter).map (superblock ||| ·.code)).getD superblock)
        0 := by
    unfold superblockOf
    congr 1
    funext superblock letter
    cases Index.ofChar letter <;> rfl
  rw [hfold, letters_or, UInt8.zero_or]
  simp

theorem code_or_planeMask {conf : Config} {index : Index} :
    index.code ||| conf.planeMask = conf.planeMask ↔
      conf.useMultiPlaneOperation = true ∧ index = .plane := by
  unfold planeMask
  cases conf.useMultiPlaneOperation <;> cases index <;> decide

end Config

namespace ConfigReader

def withDerived (reader : ConfigReader) (superblock : UInt8)
    (pageAllocation : List Index) : ConfigReader :=
  { reader with
    palConfig := reader.palConfig.withDerived superblock pageAllocation }

theorem parserHandler_withDerived (reader : ConfigReader) (superblock : UInt8)
    (pageAllocation : List Index) (item : Item) :
    (reader.withDerived superblock pageAllocation).parserHandler item =
      (reader.parserHandler item).withDerived superblock pageAllocation := by
  unfold parserHandler
  split
  · split
    · rfl
    · rfl
  split
  · unfold withDerived Config.setConfig
    cases Config.names.lookup item.name with
    | none => rfl
    | some key =>
        dsimp only [Option.map, Option.getD]
        rw [Config.set_withDerived]
  · rfl

theorem parse_withDerived (reader : ConfigReader) (superblock : UInt8)
    (pageAllocation : List Index) (items : List Item) :
    (reader.withDerived superblock pageAllocation).parse items =
      (reader.parse items).withDerived superblock pageAllocation := by
  induction items generalizing reader with
  | nil => rfl
  | cons item items ih =>
      unfold parse at ih ⊢
      rw [List.foldl_cons, List.foldl_cons, parserHandler_withDerived, ih]

end ConfigReader

structure FilePair where
  file : List Char
  common : List Char
  fileItems : List Item
  commonItems : List Item
  common_ne : common ≠ file
  common_named : common ≠ []
  leads : (ConfigReader.make.parse fileItems).commonConfigPath = common
  /-- The common file leads to no third one. -/
  stays : ((ConfigReader.make.parse fileItems).parse
    commonItems).commonConfigPath ∈ [[], common]

namespace FilePair

def files (pair : FilePair) (path : List Char) : Option (List Item) :=
  if path = pair.file then
    some pair.fileItems
  else if path = pair.common then
    some pair.commonItems
  else
    none

def first (pair : FilePair) : Config :=
  ((ConfigReader.make.parse pair.fileItems).parse pair.commonItems).palConfig

def last (pair : FilePair) : Config :=
  (((ConfigReader.make.parse pair.fileItems).parse pair.commonItems).parse
    pair.fileItems).palConfig

theorem first_superblock (pair : FilePair) :
    pair.first.superblock = Config.make.superblock := by
  unfold first
  have hmake : ConfigReader.make =
      ConfigReader.make.withDerived Config.make.superblock
        Config.make.pageAllocation :=
    rfl
  rw [hmake, ConfigReader.parse_withDerived, ConfigReader.parse_withDerived]
  rfl

theorem update_ok {reader updated : ConfigReader}
    (h : reader.update = .ok updated) :
    reader.palConfig.update = .ok updated.palConfig ∧
      updated = reader.withDerived updated.palConfig.superblock
        updated.palConfig.pageAllocation := by
  unfold ConfigReader.update at h
  split at h
  · cases h
  · rename_i palConfig hupdate
    obtain rfl := Except.ok.inj h
    refine ⟨hupdate, ?_⟩
    unfold ConfigReader.withDerived
    dsimp only
    rw [Config.update_eq hupdate]
    rfl

theorem init_updates {pair : FilePair} {fuel : Nat} {reader : ConfigReader}
    (h : ConfigReader.init pair.files (fuel + 2) pair.file .make = .ok reader) :
    ∃ updated, pair.first.update = .ok updated ∧
      (pair.last.withDerived updated.superblock
        updated.pageAllocation).update = .ok reader.palConfig := by
  have hfile : pair.files pair.file = some pair.fileItems := if_pos rfl
  have hcommon : pair.files pair.common = some pair.commonItems := by
    unfold files
    rw [if_neg pair.common_ne, if_pos rfl]
  unfold ConfigReader.init at h
  rw [hfile] at h
  dsimp only at h
  rw [pair.leads, if_pos ⟨pair.common_named, pair.common_ne⟩] at h
  unfold ConfigReader.init at h
  rw [hcommon] at h
  dsimp only at h
  have hstays : ¬ (((ConfigReader.make.parse pair.fileItems).parse
        pair.commonItems).commonConfigPath ≠ [] ∧
      ((ConfigReader.make.parse pair.fileItems).parse
        pair.commonItems).commonConfigPath ≠ pair.common) := by
    have hmem := pair.stays
    rw [List.mem_cons, List.mem_singleton] at hmem
    tauto
  rw [if_neg hstays] at h
  split at h
  · cases h
  · rename_i middle hmiddle
    obtain ⟨hfirst, heq⟩ := update_ok hmiddle
    rw [heq, ConfigReader.parse_withDerived] at h
    exact ⟨middle.palConfig, hfirst, (update_ok h).1⟩

/-- The PAL has the settings that a new configuration gets from the keys at the
end when these name a superblock, or when nothing has set a bit of the mask
before that the keys at the end do not set. -/
theorem settings_fresh {pair : FilePair} {fuel : Nat} {reader : ConfigReader}
    (h : ConfigReader.init pair.files (fuel + 2) pair.file .make = .ok reader) :
    (pair.last.fresh.update = .ok reader.palConfig ∧
        reader.palConfig.update = .ok reader.palConfig) ↔
      pair.last.superblockText ≠ [] ∨
        (∀ letter ∈ pair.first.superblockText, ∀ index,
          Index.ofChar letter = some index →
            pair.last.useMultiPlaneOperation = true ∧ index = .plane) ∧
        (pair.first.useMultiPlaneOperation = true →
          pair.last.useMultiPlaneOperation = true) := by
  obtain ⟨updated, hfirst, hlast⟩ := init_updates h
  have hmask : updated.superblock =
      Config.superblockOf pair.first.superblockText |||
        pair.first.planeMask := by
    rw [Config.update_eq hfirst, pair.first_superblock, ← Config.mask_fresh]
    rfl
  have hreader : reader.palConfig =
      pair.last.withDerived (pair.last.mask updated.superblock)
        pair.last.order :=
    Config.update_eq hlast
  have hfresh : pair.last.fresh.update =
      .ok (pair.last.withDerived (pair.last.mask Config.make.superblock)
        pair.last.order) :=
    Config.update_withDerived hlast Config.make.superblock
      Config.make.pageAllocation
  have hplane : pair.first.planeMask ||| pair.last.planeMask =
        pair.last.planeMask ↔
      (pair.first.useMultiPlaneOperation = true →
        pair.last.useMultiPlaneOperation = true) := by
    unfold Config.planeMask
    cases pair.first.useMultiPlaneOperation <;>
      cases pair.last.useMultiPlaneOperation <;> decide
  have hsame : pair.last.withDerived (pair.last.mask Config.make.superblock)
        pair.last.order =
        pair.last.withDerived (pair.last.mask updated.superblock)
          pair.last.order ↔
      pair.last.mask Config.make.superblock =
        pair.last.mask updated.superblock :=
    ⟨congrArg Config.superblock, fun heq => by rw [heq]⟩
  rw [and_iff_left (Config.update_idempotent hlast), hfresh, hreader,
    Except.ok.injEq, hsame]
  by_cases htext : pair.last.superblockText = []
  · have hkept : ∀ superblock, pair.last.mask superblock =
        superblock ||| pair.last.planeMask := by
      intro superblock
      unfold Config.mask
      rw [htext]
      rfl
    rw [hkept, hkept, hmask, ← hplane]
    simp only [← Config.code_or_planeMask]
    rw [← Config.superblockOf_or, ← Config.or_or_eq_right, eq_comm]
    simp [htext, Config.make]
  · have hparsed : ∀ superblock, pair.last.mask superblock =
        Config.superblockOf pair.last.superblockText |||
          pair.last.planeMask := by
      intro superblock
      unfold Config.mask
      rw [if_pos (List.length_pos_iff.mpr htext)]
    rw [hparsed, hparsed]
    exact iff_of_true rfl (.inl htext)

end FilePair

def namingFile : FilePair where
  file := ['f']
  common := ['c']
  fileItems :=
    [⟨"global", "CommonConfig", ['c']⟩, ⟨"pal", "SuperblockSize", ['C', 'D']⟩]
  commonItems :=
    [⟨"pal", "EnableMultiPlaneOperation", ['1']⟩,
      ⟨"pal", "PageAllocation", ['C', 'W', 'D', 'P']⟩]
  common_ne := nofun
  common_named := nofun
  leads := rfl
  stays := .tail _ (.head _)

theorem settings_fresh_named :
    ∃ reader, ConfigReader.init namingFile.files 2 namingFile.file .make =
        .ok reader ∧
      namingFile.last.fresh.update = .ok reader.palConfig := by
  have hreturns : (ConfigReader.init namingFile.files 2 namingFile.file
      .make).toOption.isSome = true := by
    decide +kernel
  cases hinit : ConfigReader.init namingFile.files 2 namingFile.file .make with
  | error fault =>
      rw [hinit] at hreturns
      cases hreturns
  | ok reader =>
      exact ⟨reader, rfl,
        ((@FilePair.settings_fresh namingFile 0 reader hinit).mpr
          (.inl (by decide +kernel))).1⟩

def singlePlaneFile : FilePair where
  file := ['f']
  common := ['c']
  fileItems :=
    [⟨"global", "CommonConfig", ['c']⟩,
      ⟨"pal", "EnableMultiPlaneOperation", ['0']⟩]
  commonItems :=
    [⟨"pal", "EnableMultiPlaneOperation", ['1']⟩,
      ⟨"pal", "PageAllocation", ['C', 'W', 'D', 'P']⟩]
  common_ne := nofun
  common_named := nofun
  leads := rfl
  stays := .tail _ (.head _)

/-- The plane of the first update stays in the superblock. -/
theorem settings_keep_plane :
    ∃ reader, ConfigReader.init singlePlaneFile.files 2 singlePlaneFile.file
        .make = .ok reader ∧
      singlePlaneFile.last.fresh.update ≠ .ok reader.palConfig := by
  have hreturns : (ConfigReader.init singlePlaneFile.files 2
      singlePlaneFile.file .make).toOption.map (·.palConfig.superblock) =
        some 8 := by
    decide +kernel
  have hfresh : singlePlaneFile.last.fresh.update.toOption.map
      Config.superblock = some 0 := by
    decide +kernel
  cases hinit : ConfigReader.init singlePlaneFile.files 2
      singlePlaneFile.file .make with
  | error fault =>
      rw [hinit] at hreturns
      cases hreturns
  | ok reader =>
      rw [hinit] at hreturns
      refine ⟨reader, rfl, fun heq => ?_⟩
      rw [heq] at hfresh
      have hmasks := hreturns.symm.trans hfresh
      exact absurd hmasks (by decide)

end SimpleSSD.PAL
