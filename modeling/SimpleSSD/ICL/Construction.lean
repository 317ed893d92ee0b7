import SimpleSSD.ICL.Structure

namespace SimpleSSD.ICL

open GenericCache (scanOldest_cases)

/-! The constructor of the cache.  Members are initialised in the order of their
declaration, so `dist` has the way size of the configuration. -/

/-- What the constructor reads of `FTL::Parameter`. -/
structure Geometry where
  pageSize : UInt32
  pageCountToMaxPerf : UInt32
  ioUnitInPage : UInt32
  deriving DecidableEq, Repr

/-- What it reads of the configuration.  The enumerations are the numbers of
the file. -/
structure Settings where
  useReadCaching : Bool
  useWriteCaching : Bool
  useReadPrefetch : Bool
  prefetchCount : UInt64
  prefetchMode : UInt32
  evictMode : UInt32
  evictPolicy : UInt32
  cacheSize : UInt64
  waySize : UInt64
  useRandomIOTweak : Bool
  deriving DecidableEq, Repr

inductive Refusal where
  | divisionByZero
  | undefinedPolicy
  deriving DecidableEq, Repr

def Refusal.message : Refusal → String
  | .divisionByZero => ""
  | .undefinedPolicy => "Undefined cache evict policy"

/-- The members that are set after the test of `useReadCaching` and
`useWriteCaching`. -/
structure Tables where
  setSize : UInt32
  waySize : UInt32
  evictMode : UInt32
  prefetchMode : UInt32
  policy : Policy

/-- The members.  Without caching there are no tables, and `evictFunction` is
empty. -/
structure Built where
  superPageSize : UInt32
  parallelIO : UInt32
  lineCountInSuperPage : UInt32
  lineCountInMaxIO : UInt32
  lineSize : UInt32
  prefetchIOCount : UInt32
  useReadCaching : Bool
  useWriteCaching : Bool
  useReadPrefetch : Bool
  bSuperPage : Bool
  tables : Option Tables

namespace Construction

def definedPolicy (waySize distMax : UInt32) (evictPolicy : UInt32) :
    Option Policy :=
  if evictPolicy = 0 then some (.random waySize.toNat distMax.toNat)
  else if evictPolicy = 1 then some .fifo
  else if evictPolicy = 2 then some .leastRecentlyUsed
  else none

/-- `MAX(…, 1)`. -/
def atLeastOne (count : UInt64) : UInt64 := if count > 1 then count else 1

def shape (settings : Settings) (lineSize : UInt32) : UInt32 × UInt32 :=
  let lines := settings.cacheSize / lineSize.toUInt64
  if settings.waySize.toUInt32 = 0 then (1, (atLeastOne lines).toUInt32)
  else
    ((atLeastOne (lines / settings.waySize.toUInt32.toUInt64)).toUInt32,
      settings.waySize.toUInt32)

def makeTables (settings : Settings) (lineSize : UInt32) :
    Except Refusal Tables :=
  if lineSize = 0 then .error .divisionByZero
  else
    let setSize := (shape settings lineSize).1
    let waySize := (shape settings lineSize).2
    -- `dist` was initialised before `waySize` got its second value.
    match definedPolicy waySize (settings.waySize.toUInt32 - 1)
        settings.evictPolicy with
    | none => .error .undefinedPolicy
    | some policy =>
        .ok { setSize := setSize, waySize := waySize
              evictMode := settings.evictMode
              prefetchMode := settings.prefetchMode, policy := policy }

def lineSize (geometry : Geometry) (settings : Settings) : UInt32 :=
  if settings.useRandomIOTweak then
    geometry.pageSize / geometry.ioUnitInPage
  else geometry.pageSize

/-- `GenericCache::GenericCache`; `residue` is what the memory of `bSuperPage`
had before. -/
def construct (geometry : Geometry) (settings : Settings) (residue : Bool) :
    Except Refusal Built :=
  if geometry.ioUnitInPage = 0 then .error .divisionByZero
  else
    let lineSize := lineSize geometry settings
    let built (tables : Option Tables) : Built :=
      { superPageSize := geometry.pageSize
        parallelIO := geometry.pageCountToMaxPerf
        lineCountInSuperPage :=
          if settings.useRandomIOTweak then geometry.ioUnitInPage else 1
        lineCountInMaxIO :=
          if settings.useRandomIOTweak then
            geometry.pageCountToMaxPerf * geometry.ioUnitInPage
          else geometry.pageCountToMaxPerf
        lineSize := lineSize
        prefetchIOCount := settings.prefetchCount.toUInt32
        useReadCaching := settings.useReadCaching
        useWriteCaching := settings.useWriteCaching
        useReadPrefetch := settings.useReadPrefetch
        bSuperPage :=
          if geometry.pageSize / geometry.ioUnitInPage ≠ geometry.pageSize then
            true
          else residue
        tables := tables }
    if !settings.useReadCaching && !settings.useWriteCaching then
      .ok (built none)
    else
      match makeTables settings lineSize with
      | .error refused => .error refused
      | .ok tables => .ok (built (some tables))

end Construction

/-- Every way that `evictFunction` names is there, whatever the lines of the set
and the draws are. -/
def Built.NamesWays (built : Built) : Prop :=
  ∀ tables, built.tables = some tables →
    ∀ setIdx, setIdx < tables.setSize.toNat →
      tables.policy.InRange tables.waySize.toNat

def lineBytes (geometry : Geometry) (settings : Settings) : Nat :=
  if settings.useRandomIOTweak then
    geometry.pageSize.toNat / geometry.ioUnitInPage.toNat
  else geometry.pageSize.toNat

/-- A configured way size, or a policy that does not draw and a number of lines
that a way size can have. -/
def HasWays (geometry : Geometry) (settings : Settings) : Prop :=
  (settings.useReadCaching = false ∧ settings.useWriteCaching = false) ∨
    settings.waySize.toNat % 2 ^ 32 ≠ 0 ∨
      settings.evictPolicy ≠ 0 ∧
        (settings.cacheSize.toNat < lineBytes geometry settings ∨
          settings.cacheSize.toNat / lineBytes geometry settings %
            2 ^ 32 ≠ 0)

instance (geometry : Geometry) (settings : Settings) :
    Decidable (HasWays geometry settings) :=
  inferInstanceAs (Decidable (_ ∨ _))

namespace Policy

theorem random_inRange {waySize distMax : Nat} :
    (random waySize distMax).InRange waySize ↔ distMax < waySize := by
  constructor
  · intro inRange
    have drawn := inRange (List.replicate waySize Line.empty) distMax
      List.length_replicate
    have same : distMax % (distMax + 1) = distMax :=
      Nat.mod_eq_of_lt (Nat.lt_succ_self distMax)
    unfold random at drawn
    dsimp only at drawn
    rwa [same] at drawn
  · intro bound lines draw _
    have below : draw % (distMax + 1) < distMax + 1 :=
      Nat.mod_lt draw (Nat.succ_pos distMax)
    unfold random
    dsimp only
    omega

theorem oldest_inRange (stamp : Line → Nat) {lines : List Line}
    (some : 0 < lines.length) :
    scanOldest (fun _ => true) stamp lines 0 0 maxTick < lines.length := by
  rcases scanOldest_cases (fun _ => true) stamp lines 0 0 maxTick with
    none | ⟨offset, line, there, _, result⟩
  · rw [none]
    exact some
  · obtain ⟨inside, _⟩ := List.getElem?_eq_some_iff.mp there
    omega

theorem fifo_inRange {waySize : Nat} :
    fifo.InRange waySize ↔ 0 < waySize := by
  constructor
  · intro inRange
    exact Nat.zero_lt_of_lt (inRange (List.replicate waySize Line.empty) 0
      List.length_replicate)
  · intro some lines draw length
    have found := oldest_inRange (·.insertedAt) (length ▸ some)
    rwa [length] at found

theorem leastRecentlyUsed_inRange {waySize : Nat} :
    leastRecentlyUsed.InRange waySize ↔ 0 < waySize := by
  constructor
  · intro inRange
    exact Nat.zero_lt_of_lt (inRange (List.replicate waySize Line.empty) 0
      List.length_replicate)
  · intro some lines draw length
    have found := oldest_inRange (·.lastAccessed) (length ▸ some)
    rwa [length] at found

end Policy

namespace Construction

variable {geometry : Geometry} {settings : Settings} {residue : Bool}
  {built : Built} {tables : Tables}

theorem lineSize_toNat (geometry : Geometry) (settings : Settings) :
    (lineSize geometry settings).toNat = lineBytes geometry settings := by
  unfold lineSize lineBytes
  split
  · exact UInt32.toNat_div _ _
  · rfl

structure Tabled (geometry : Geometry) (settings : Settings)
    (tables : Tables) : Prop where
  lines : lineBytes geometry settings ≠ 0
  setSize : tables.setSize = (shape settings (lineSize geometry settings)).1
  waySize : tables.waySize = (shape settings (lineSize geometry settings)).2
  policy : definedPolicy tables.waySize (settings.waySize.toUInt32 - 1)
    settings.evictPolicy = some tables.policy

theorem construct_tables
    (accepted : construct geometry settings residue = .ok built) :
    (∃ tables, built.tables = some tables ∧ Tabled geometry settings tables ∧
      (settings.useReadCaching || settings.useWriteCaching) = true) ∨
    built.tables = none ∧ settings.useReadCaching = false ∧
      settings.useWriteCaching = false := by
  unfold construct at accepted
  split at accepted
  · cases accepted
  dsimp only at accepted
  split at accepted
  · next uncached =>
      cases accepted
      rw [Bool.and_eq_true, Bool.not_eq_true', Bool.not_eq_true'] at uncached
      exact .inr ⟨rfl, uncached⟩
  · next cached =>
      split at accepted
      · cases accepted
      · next tables made =>
          cases accepted
          refine .inl ⟨tables, rfl, ?_, ?_⟩
          · unfold makeTables at made
            split at made
            · cases made
            · next nonzero =>
                dsimp only at made
                split at made
                · cases made
                · next policy defined =>
                    cases made
                    refine ⟨?_, rfl, rfl, defined⟩
                    rw [← lineSize_toNat]
                    intro zero
                    exact nonzero (UInt32.toNat_inj.mp zero)
          · revert cached
            cases settings.useReadCaching <;> cases settings.useWriteCaching <;>
              decide

theorem construct_lineCountInSuperPage
    (accepted : construct geometry settings residue = .ok built) :
    built.lineCountInSuperPage =
      if settings.useRandomIOTweak then geometry.ioUnitInPage else 1 := by
  unfold construct at accepted
  split at accepted
  · cases accepted
  dsimp only at accepted
  split at accepted
  · cases accepted
    rfl
  · split at accepted
    · cases accepted
    · cases accepted
      rfl

theorem Tabled.configured (tabled : Tabled geometry settings tables)
    (given : settings.waySize.toUInt32 ≠ 0) :
    tables.waySize = settings.waySize.toUInt32 := by
  rw [tabled.waySize]
  unfold shape
  dsimp only
  rw [if_neg given]

theorem Tabled.associative (tabled : Tabled geometry settings tables)
    (zero : settings.waySize.toUInt32 = 0) :
    tables.setSize = 1 ∧ tables.waySize.toNat =
      max (settings.cacheSize.toNat / lineBytes geometry settings) 1 %
        2 ^ 32 := by
  rw [tabled.setSize, tabled.waySize]
  unfold shape
  dsimp only
  rw [if_pos zero]
  refine ⟨rfl, ?_⟩
  have lines : (settings.cacheSize /
      (lineSize geometry settings).toUInt64).toNat =
        settings.cacheSize.toNat / lineBytes geometry settings := by
    rw [UInt64.toNat_div, UInt32.toNat_toUInt64, lineSize_toNat]
  dsimp only
  rw [UInt64.toNat_toUInt32, ← lines]
  congr 1
  unfold atLeastOne
  split
  · next more =>
      have above : 1 < (settings.cacheSize /
          (lineSize geometry settings).toUInt64).toNat := more
      omega
  · next few =>
      have below : ¬ 1 < (settings.cacheSize /
          (lineSize geometry settings).toUInt64).toNat := few
      have one : (1 : UInt64).toNat = 1 := rfl
      omega

/-- `waySize - 1` is the greatest draw; for zero it is the greatest number. -/
theorem draws_below (waySize : UInt32) :
    (waySize - 1).toNat < waySize.toNat ↔ waySize ≠ 0 := by
  constructor
  · intro below zero
    rw [zero] at below
    exact absurd below (by decide)
  · intro nonzero
    have some : waySize.toNat ≠ 0 := by
      intro zero
      exact nonzero (UInt32.toNat_inj.mp zero)
    have one : (1 : UInt32) ≤ waySize := by
      rw [UInt32.le_iff_toNat_le]
      exact Nat.one_le_iff_ne_zero.mpr some
    have less := UInt32.toNat_sub_of_le waySize 1 one
    have single : (1 : UInt32).toNat = 1 := rfl
    omega

theorem Tabled.policy_inRange (tabled : Tabled geometry settings tables) :
    tables.policy.InRange tables.waySize.toNat ↔
      if settings.evictPolicy = 0 then
        (settings.waySize.toUInt32 - 1).toNat < tables.waySize.toNat
      else 0 < tables.waySize.toNat := by
  have defined := tabled.policy
  unfold definedPolicy at defined
  split at defined
  · next drawn =>
      rw [if_pos drawn, ← Option.some.inj defined]
      exact Policy.random_inRange
  · next searched =>
      rw [if_neg searched]
      split at defined
      · rw [← Option.some.inj defined]
        exact Policy.fifo_inRange
      · split at defined
        · rw [← Option.some.inj defined]
          exact Policy.leastRecentlyUsed_inRange
        · cases defined

theorem configured_iff (waySize : UInt64) :
    waySize.toNat % 2 ^ 32 ≠ 0 ↔ waySize.toUInt32 ≠ 0 := by
  rw [← UInt64.toNat_toUInt32, Ne, Ne, ← UInt32.toNat_inj]
  rfl

theorem lines_pos {size lineBytes : Nat} (nonzero : lineBytes ≠ 0) :
    0 < max (size / lineBytes) 1 % 2 ^ 32 ↔
      size < lineBytes ∨ size / lineBytes % 2 ^ 32 ≠ 0 := by
  have none : size / lineBytes = 0 ↔ size < lineBytes :=
    Nat.div_eq_zero_iff_lt (Nat.pos_of_ne_zero nonzero)
  rw [← none]
  generalize size / lineBytes = lines
  rcases Nat.eq_zero_or_pos lines with zero | some
  · simp [zero]
  · rw [Nat.max_eq_left some]
    omega

theorem Tabled.inRange_iff (tabled : Tabled geometry settings tables)
    (cached : (settings.useReadCaching || settings.useWriteCaching) = true) :
    tables.policy.InRange tables.waySize.toNat ↔
      HasWays geometry settings := by
  have uses : ¬ (settings.useReadCaching = false ∧
      settings.useWriteCaching = false) := by
    intro ⟨noReads, noWrites⟩
    rw [noReads, noWrites] at cached
    exact absurd cached (by decide)
  rw [tabled.policy_inRange]
  unfold HasWays
  rw [configured_iff]
  by_cases given : settings.waySize.toUInt32 = 0
  · have drawn : ¬ (settings.waySize.toUInt32 - 1).toNat <
        tables.waySize.toNat := by
      have bound := tables.waySize.toNat_lt
      have greatest : (settings.waySize.toUInt32 - 1).toNat = 2 ^ 32 - 1 := by
        rw [given]
        rfl
      omega
    have ways := (tabled.associative given).2
    split
    · next random =>
        refine iff_of_false drawn ?_
        intro has
        rcases has with uncached | configured | ⟨searched, _⟩
        · exact uses uncached
        · exact configured given
        · exact searched random
    · next searched =>
        rw [ways, lines_pos tabled.lines]
        constructor
        · intro some
          exact .inr (.inr ⟨searched, some⟩)
        · intro has
          rcases has with uncached | configured | ⟨_, some⟩
          · exact absurd uncached uses
          · exact absurd given configured
          · exact some
  · have ways := tabled.configured given
    have some : 0 < tables.waySize.toNat := by
      rw [ways, Nat.pos_iff_ne_zero]
      intro zero
      exact given (UInt32.toNat_inj.mp zero)
    have drawn : (settings.waySize.toUInt32 - 1).toNat <
        tables.waySize.toNat := by
      rw [ways]
      exact (draws_below _).mpr given
    have range : (if settings.evictPolicy = 0 then
        (settings.waySize.toUInt32 - 1).toNat < tables.waySize.toNat
      else 0 < tables.waySize.toNat) := by
      split
      · exact drawn
      · exact some
    exact iff_of_true range (.inr (.inl given))

end Construction

/-- An accepted configuration names existing ways exactly if a set has ways by
the configuration, or by a number of lines for a policy that does not draw. -/
theorem eviction_in_range {geometry : Geometry} {settings : Settings}
    {residue : Bool} {built : Built}
    (accepted : Construction.construct geometry settings residue = .ok built) :
    built.NamesWays ↔ HasWays geometry settings := by
  rcases Construction.construct_tables accepted with
    ⟨tables, there, tabled, cached⟩ | ⟨none, noReads, noWrites⟩
  · rw [← tabled.inRange_iff cached]
    constructor
    · intro names
      by_cases given : settings.waySize.toUInt32 = 0
      · have one := (tabled.associative given).1
        refine names tables there 0 ?_
        rw [one]
        decide
      · exact (tabled.inRange_iff cached).mpr
          (.inr (.inl ((Construction.configured_iff _).mpr given)))
    · intro inRange other same setIdx _
      rw [there] at same
      cases same
      exact inRange
  · refine iff_of_true ?_ (.inl ⟨noReads, noWrites⟩)
    intro tables there
    rw [none] at there
    cases there

def associativeSettings : Settings where
  useReadCaching := true
  useWriteCaching := true
  useReadPrefetch := false
  prefetchCount := 1
  prefetchMode := 1
  evictMode := 1
  evictPolicy := 0
  cacheSize := 8192
  waySize := 0
  useRandomIOTweak := false

def smallGeometry : Geometry where
  pageSize := 4096
  pageCountToMaxPerf := 4
  ioUnitInPage := 1

/-- The same cache with the search for the line used least recently. -/
theorem eviction_in_range_associative :
    ∃ built, Construction.construct smallGeometry
        { associativeSettings with evictPolicy := 2 } false = .ok built ∧
      built.NamesWays := by
  have accepted : Construction.construct smallGeometry
      { associativeSettings with evictPolicy := 2 } false = .ok _ := rfl
  exact ⟨_, accepted, (eviction_in_range accepted).mpr (by decide)⟩

/-- Random eviction draws way 7 of 2. -/
theorem eviction_out_of_range :
    ∃ built, Construction.construct smallGeometry associativeSettings false =
        .ok built ∧
      ∃ tables, built.tables = some tables ∧ tables.setSize = 1 ∧
        tables.waySize = 2 ∧
        tables.policy.evictFunction [Line.empty, Line.empty] 7 = 7 :=
  ⟨_, rfl, _, rfl, rfl, rfl, rfl⟩

/-- The members as the calls use them, once there are lines and columns. -/
def Built.config? (built : Built) : Option Config :=
  match built.tables with
  | none => none
  | some tables =>
      if counts : 0 < built.parallelIO.toNat ∧
          0 < built.lineCountInSuperPage.toNat ∧
          0 < tables.setSize.toNat ∧ 0 < tables.waySize.toNat then
        some
          { superPageSize := built.superPageSize.toNat
            parallelIO := built.parallelIO.toNat
            lineCountInSuperPage := built.lineCountInSuperPage.toNat
            lineSize := built.lineSize.toNat
            setSize := tables.setSize.toNat
            waySize := tables.waySize.toNat
            prefetchIOCount := built.prefetchIOCount.toNat
            useReadCaching := built.useReadCaching
            useWriteCaching := built.useWriteCaching
            useReadPrefetch := built.useReadPrefetch
            bSuperPage := built.bSuperPage
            prefetchMode := if tables.prefetchMode = 1 then .all else .superPage
            evictMode := if tables.evictMode = 0 then .superPage else .all
            policy := tables.policy
            parallel := counts.1
            lines := counts.2.1
            sets := counts.2.2.1
            ways := counts.2.2.2 }
      else none

theorem construct_stays_in_set {geometry : Geometry} {settings : Settings}
    {residue : Bool} {built : Built} {cfg : Config} (env : Environment)
    (accepted : Construction.construct geometry settings residue = .ok built)
    (has : HasWays geometry settings) (used : built.config? = some cfg)
    (lastPrefetched : Nat) (calls : List Call) :
    Call.performAll cfg env calls (GenericCache.make lastPrefetched) ≠
      .error .wayOutOfRange := by
  intro raised
  have outside := (Call.performAll_error raised).resolve_left (by decide)
  apply outside
  have names := (eviction_in_range accepted).mpr has
  unfold Built.config? at used
  split at used
  · cases used
  · next tables there =>
      split at used
      · next counts =>
          cases used
          exact names tables there 0 counts.2.2.1
      · cases used

end SimpleSSD.ICL
