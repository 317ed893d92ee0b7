import Mathlib.Algebra.Ring.Nat
import Mathlib.Data.Finset.Insert
import Mathlib.Logic.Function.Basic
import Mathlib.Tactic.Common

namespace SimpleSSD.ICL

/-! The write-back cache in front of the FTL.  Addresses are line addresses. -/

structure Line where
  tag : Nat
  lastAccessed : Nat
  insertedAt : Nat
  dirty : Bool
  valid : Bool
  deriving DecidableEq, Repr

def Line.empty : Line where
  tag := 0
  lastAccessed := 0
  insertedAt := 0
  dirty := false
  valid := false

inductive Panic where
  | cacheCorrupted
  /-- The eviction policy has named a way that the set does not have. -/
  | wayOutOfRange
  deriving DecidableEq, Repr

def Panic.message : Panic → String
  | .cacheCorrupted => "Cache corrupted!"
  | .wayOutOfRange => ""

/-- `PREFETCH_MODE` and `EVICT_MODE`. -/
inductive Granularity where
  | superPage
  | all
  deriving DecidableEq, Repr

def scanOldest (eligible : Line → Bool) (stamp : Line → Nat) :
    (lines : List Line) → (wayIdx retIdx min : Nat) → Nat
  | [], _, retIdx, _ => retIdx
  | line :: rest, wayIdx, retIdx, min =>
      if eligible line ∧ stamp line < min then
        scanOldest eligible stamp rest (wayIdx + 1) wayIdx (stamp line)
      else scanOldest eligible stamp rest (wayIdx + 1) retIdx min

/-- `std::numeric_limits<uint64_t>::max()`. -/
def maxTick : Nat := 2 ^ 64 - 1

/-- What a policy decides: the way to take of a full set, and whether the first
of two lines goes. -/
structure Policy where
  evictFunction : (lines : List Line) → (draw : Nat) → Nat
  compareFunction : (draw : Nat) → (first second : Line) → Bool

namespace Policy

/-- `dist` draws from `0` to `distMax`. -/
def random (waySize distMax : Nat) : Policy where
  evictFunction _ draw := draw % (distMax + 1)
  compareFunction draw _ _ := decide (waySize / 2 < draw % (distMax + 1))

def fifo : Policy where
  evictFunction lines _ :=
    scanOldest (fun _ => true) (·.insertedAt) lines 0 0 maxTick
  compareFunction _ first second :=
    decide (first.insertedAt < second.insertedAt)

def leastRecentlyUsed : Policy where
  evictFunction lines _ :=
    scanOldest (fun _ => true) (·.lastAccessed) lines 0 0 maxTick
  compareFunction _ first second :=
    decide (first.lastAccessed < second.lastAccessed)

end Policy

structure Config where
  superPageSize : Nat
  parallelIO : Nat
  lineCountInSuperPage : Nat
  lineSize : Nat
  setSize : Nat
  waySize : Nat
  prefetchIOCount : Nat
  useReadCaching : Bool
  useWriteCaching : Bool
  useReadPrefetch : Bool
  bSuperPage : Bool
  prefetchMode : Granularity
  evictMode : Granularity
  policy : Policy
  parallel : 0 < parallelIO
  lines : 0 < lineCountInSuperPage
  sets : 0 < setSize
  ways : 0 < waySize

def Config.lineCountInMaxIO (cfg : Config) : Nat :=
  cfg.parallelIO * cfg.lineCountInSuperPage

/-- What the cache cannot know: time stamps, random numbers, and the comparison
of `accessCounter / superPageSize` with `prefetchIORatio`. -/
structure Environment where
  tick : Nat → Nat
  draw : Nat → Nat
  prefetchDue : (accessCounter : Nat) → Bool

structure Request where
  reqID : Nat
  slpn : Nat
  nlp : Nat
  offset : Nat
  length : Nat
  deriving DecidableEq, Repr

structure LPNRange where
  slpn : Nat
  nlp : Nat
  deriving DecidableEq, Repr

structure SequentialDetect where
  enabled : Bool
  lastRequest : Request
  hitCounter : Nat
  accessCounter : Nat
  deriving DecidableEq, Repr

inductive Event where
  /-- A host write, and whether it is shorter than a line. -/
  | hostWrite (lca : Nat) (short : Bool)
  | ftlRead (lpn : Nat) (ioFlag : Finset Nat)
  | ftlWrite (lpn : Nat) (ioFlag : Finset Nat)
  | ftlTrim (lpn : Nat) (ioFlag : Finset Nat)
  | ftlFormat (slpn nlp : Nat)
  deriving DecidableEq

abbrev Place := Nat × Nat

/-- The members of `GenericCache`.  `clock` counts what was taken from the
environment; `log`, newest first, and `overwritten` are history. -/
structure GenericCache where
  cacheData : Place → Line
  evictData : (row col : Nat) → Option Place
  readDetect : SequentialDetect
  prefetchTrigger : Nat
  lastPrefetched : Nat
  clock : Nat
  log : List Event
  /-- Tags of valid dirty lines whose way a read has taken. -/
  overwritten : List Nat

namespace GenericCache

variable (cfg : Config) (env : Environment)

/-- The constructor; `lastPrefetched` is not initialised. -/
def make (lastPrefetched : Nat) : GenericCache where
  cacheData _ := Line.empty
  evictData _ _ := none
  readDetect :=
    { enabled := false
      lastRequest := { reqID := 1, slpn := 0, nlp := 0, offset := 0, length := 0 }
      hitCounter := 0, accessCounter := 0 }
  prefetchTrigger := maxTick
  lastPrefetched := lastPrefetched
  clock := 0
  log := []
  overwritten := []

def calcSetIndex (lca : Nat) : Nat := lca % cfg.setSize

def calcIOPosition (lca : Nat) : Nat × Nat :=
  let tmp := lca % cfg.lineCountInMaxIO
  (tmp % cfg.lineCountInSuperPage, tmp / cfg.lineCountInSuperPage)

def setLines (cache : GenericCache) (setIdx : Nat) : List Line :=
  (List.range cfg.waySize).map fun wayIdx => cache.cacheData (setIdx, wayIdx)

def getEmptyWay (cache : GenericCache) (setIdx : Nat) : Nat :=
  scanOldest (fun line => !line.valid) (·.insertedAt)
    (setLines cfg cache setIdx) 0 cfg.waySize maxTick

def getValidWay (cache : GenericCache) (lca : Nat) : Nat :=
  (setLines cfg cache (calcSetIndex cfg lca)).findIdx fun line =>
    line.valid && line.tag == lca

def checkSequential (req : Request) (data : SequentialDetect) :
    SequentialDetect :=
  if data.lastRequest.reqID = req.reqID then
    { data with lastRequest := { req with reqID := data.lastRequest.reqID } }
  else if (data.lastRequest.slpn * cfg.lineSize + data.lastRequest.offset +
      data.lastRequest.length) % 2 ^ 64 =
        (req.slpn * cfg.lineSize + req.offset) % 2 ^ 64 then
    if data.enabled then { data with lastRequest := req }
    else
      let hitCounter := (data.hitCounter + 1) % 2 ^ 32
      let accessCounter := (data.accessCounter + data.lastRequest.offset +
        data.lastRequest.length) % 2 ^ 32
      { enabled := cfg.prefetchIOCount ≤ hitCounter ∧
          env.prefetchDue accessCounter
        lastRequest := req
        hitCounter := hitCounter, accessCounter := accessCounter }
  else
    { enabled := false, lastRequest := req, hitCounter := 0, accessCounter := 0 }

def record (cache : GenericCache) (event : Event) : GenericCache :=
  { cache with log := event :: cache.log }

def setLine (cache : GenericCache) (place : Place) (line : Line) :
    GenericCache :=
  { cache with cacheData := Function.update cache.cacheData place line }

def setEvict (cache : GenericCache) (row col : Nat) (place : Option Place) :
    GenericCache :=
  { cache with
    evictData := Function.update cache.evictData row
      (Function.update (cache.evictData row) col place) }

def advance (cache : GenericCache) : GenericCache :=
  { cache with clock := cache.clock + 1 }

/-- The rows and columns of `evictData`. -/
def evictPositions : List (Nat × Nat) :=
  List.product (List.range cfg.lineCountInSuperPage) (List.range cfg.parallelIO)

def evictEntry (flush : Bool) (cache : GenericCache) (position : Nat × Nat) :
    GenericCache :=
  match cache.evictData position.1 position.2 with
  | none => cache
  | some place =>
      let line := cache.cacheData place
      let written :=
        if line.valid ∧ line.dirty then
          cache.record (.ftlWrite (line.tag / cfg.lineCountInSuperPage)
            {position.1})
        else cache
      let beginAt := env.tick cache.clock
      ((written.setLine place
        { tag := if flush then 0 else line.tag
          lastAccessed := beginAt, insertedAt := beginAt
          dirty := false
          valid := if flush then false else line.valid }).setEvict
            position.1 position.2 none).advance

def evictCache (flush : Bool) (cache : GenericCache) : GenericCache :=
  (evictPositions cfg).foldl (evictEntry cfg env flush) cache

/-- The line that a miss is given: an empty way of its set, or the one that the
policy names. -/
def takeWay (cache : GenericCache) (lca : Nat) :
    Except Panic (GenericCache × Place) :=
  let setIdx := calcSetIndex cfg lca
  let emptyWay := getEmptyWay cfg cache setIdx
  if emptyWay ≠ cfg.waySize then .ok (cache, (setIdx, emptyWay))
  else
    let wayIdx := cfg.policy.evictFunction (setLines cfg cache setIdx)
      (env.draw cache.clock)
    if cfg.waySize ≤ wayIdx then .error .wayOutOfRange
    else
      let line := cache.cacheData (setIdx, wayIdx)
      let position := calcIOPosition cfg line.tag
      .ok ((if line.dirty then
        cache.setEvict position.1 position.2 (some (setIdx, wayIdx))
      else cache).advance, (setIdx, wayIdx))

def loses (cache : GenericCache) (place : Place) : GenericCache :=
  let line := cache.cacheData place
  if line.valid ∧ line.dirty then
    { cache with overwritten := line.tag :: cache.overwritten }
  else cache

/-- The line is marked before its data are there; it keeps its tag. -/
def claimLine (cache : GenericCache) (place : Place) : GenericCache :=
  let beginAt := env.tick cache.clock
  ((cache.loses place).setLine place
    { cache.cacheData place with
      insertedAt := beginAt, lastAccessed := beginAt
      valid := true, dirty := false }).advance

def claimWay (cache : GenericCache) (lca : Nat) :
    Except Panic (GenericCache × List (Nat × Place)) :=
  if getValidWay cfg cache lca ≠ cfg.waySize then .ok (cache, [])
  else
    match takeWay cfg env cache lca with
    | .error raised => .error raised
    | .ok (taken, place) => .ok (claimLine env taken place, [(lca, place)])

/-- The loop that looks for places; the result has the `readList`. -/
def claimWays : (lcas : List Nat) → GenericCache →
    Except Panic (GenericCache × List (Nat × Place))
  | [], cache => .ok (cache, [])
  | lca :: rest, cache =>
      match claimWay cfg env cache lca with
      | .error raised => .error raised
      | .ok (claimed, entry) =>
          match claimWays rest claimed with
          | .error raised => .error raised
          | .ok (final, readList) => .ok (final, entry ++ readList)

def fillLine (cache : GenericCache) (entry : Nat × Place) : GenericCache :=
  let beginAt := env.tick cache.clock
  ((cache.record (.ftlRead (entry.1 / cfg.lineCountInSuperPage)
    {entry.1 % cfg.lineCountInSuperPage})).setLine entry.2
      { cache.cacheData entry.2 with
        insertedAt := beginAt, lastAccessed := beginAt
        tag := entry.1 }).advance

/-- The code at `ICL_GENERIC_CACHE_READ`. -/
def readMissing (cache : GenericCache) (slpn : Nat) :
    Except Panic GenericCache :=
  let lineCount :=
    if cfg.prefetchMode = .all ∨ cfg.bSuperPage = false then
      cfg.lineCountInMaxIO
    else cfg.lineCountInSuperPage
  let beginLCA := slpn
  let endLCA :=
    if cache.readDetect.enabled then (beginLCA + lineCount) % 2 ^ 64
    else (beginLCA + 1) % 2 ^ 64
  let cache :=
    if cache.readDetect.enabled then
      { cache with
        prefetchTrigger := (beginLCA + lineCount / 2) % 2 ^ 64
        lastPrefetched := endLCA }
    else cache
  match claimWays cfg env (List.range' beginLCA (endLCA - beginLCA)) cache with
  | .error raised => .error raised
  | .ok (claimed, readList) =>
      .ok (readList.foldl (fillLine cfg env) (evictCache cfg env true claimed))

/-- Every read takes part in the detection of sequential access. -/
def detect (req : Request) (cache : GenericCache) : GenericCache :=
  if cfg.useReadPrefetch then
    { cache with readDetect := checkSequential cfg env req cache.readDetect }
  else cache

def touchLine (cache : GenericCache) (place : Place) : GenericCache :=
  (cache.setLine place
    { cache.cacheData place with
      lastAccessed := env.tick cache.clock }).advance

def read (req : Request) (cache : GenericCache) : Except Panic GenericCache :=
  if cfg.useReadCaching then
    let cache := detect cfg env req cache
    let wayIdx := getValidWay cfg cache req.slpn
    if wayIdx ≠ cfg.waySize then
      let hit := touchLine env cache (calcSetIndex cfg req.slpn, wayIdx)
      if cfg.useReadPrefetch ∧ req.slpn = hit.prefetchTrigger then
        readMissing cfg env hit hit.lastPrefetched
      else .ok hit
    else readMissing cfg env cache req.slpn
  else
    .ok (cache.record (.ftlRead (req.slpn / cfg.lineCountInSuperPage)
      {req.slpn % cfg.lineCountInSuperPage}))

/-- `compareFunction`, with null pointers. -/
def compareFunction (cache : GenericCache) :
    (first second : Option Place) → Option Place
  | some first, some second =>
      if cfg.policy.compareFunction (env.draw cache.clock)
          (cache.cacheData first) (cache.cacheData second) then some first
      else some second
  | some first, none => some first
  | none, second => second

def allPlaces : List Place :=
  List.product (List.range cfg.setSize) (List.range cfg.waySize)

/-- One round of the loop that chooses a line for each row and column. -/
def propose (cache : GenericCache) (place : Place) : GenericCache :=
  let line := cache.cacheData place
  if line.valid then
    let position := calcIOPosition cfg line.tag
    (cache.setEvict position.1 position.2 (compareFunction cfg env cache
      (cache.evictData position.1 position.2) (some place))).advance
  else cache

/-- One round of the loop that leaves a line for each row. -/
def mergeColumn (cache : GenericCache) (position : Nat × Nat) :
    GenericCache :=
  let row := position.1
  let col := position.2
  ((cache.setEvict row (col + 1) (compareFunction cfg env cache
    (cache.evictData row col) (cache.evictData row (col + 1)))).setEvict
      row col none).advance

def mergeColumns (cache : GenericCache) : GenericCache :=
  (List.product (List.range cfg.lineCountInSuperPage)
    (List.range (cfg.parallelIO - 1))).foldl (mergeColumn cfg env) cache

/-- `have`: a line of the set is going. -/
def evictsSet (cache : GenericCache) (setToFlush : Nat) : Bool :=
  (evictPositions cfg).any fun position =>
    match cache.evictData position.1 position.2 with
    | none => false
    | some place =>
        calcSetIndex cfg (cache.cacheData place).tag == setToFlush

/-- One round of the loop that chooses a line of the set. -/
def proposeOfSet (setToFlush : Nat) (chosen : GenericCache × Option Place)
    (wayIdx : Nat) : GenericCache × Option Place :=
  if (chosen.1.cacheData (setToFlush, wayIdx)).valid then
    (chosen.1.advance, compareFunction cfg env chosen.1 chosen.2
      (some (setToFlush, wayIdx)))
  else chosen

def includeSet (cache : GenericCache) (setToFlush : Nat) : GenericCache :=
  if evictsSet cfg cache setToFlush then cache
  else
    match (List.range cfg.waySize).foldl (proposeOfSet cfg env setToFlush)
        (cache, none) with
    | (chosen, none) => chosen
    | (chosen, some place) =>
        let position := calcIOPosition cfg (chosen.cacheData place).tag
        chosen.setEvict position.1 position.2 (some place)

def chooseEvicted (cache : GenericCache) (setToFlush : Nat) : GenericCache :=
  let proposed := (allPlaces cfg).foldl (propose cfg env) cache
  let merged :=
    match cfg.evictMode with
    | .superPage => mergeColumns cfg env proposed
    | .all => proposed
  includeSet cfg env merged setToFlush

def storeLine (cache : GenericCache) (place : Place) (lca : Nat)
    (dirty : Bool) : GenericCache :=
  let stamp := env.tick cache.clock
  (cache.setLine place
    { tag := lca, lastAccessed := stamp, insertedAt := stamp
      dirty := dirty, valid := true }).advance

/-- `dirty` of `write`. -/
def isShort (req : Request) : Bool := decide (req.length < cfg.lineSize)

/-- `reqInternal`. -/
def directWrite (req : Request) : Event :=
  .ftlWrite (req.slpn / cfg.lineCountInSuperPage)
    {req.slpn % cfg.lineCountInSuperPage}

/-- A write of a whole line goes to the FTL at once. -/
def accept (req : Request) (cache : GenericCache) : GenericCache :=
  if isShort cfg req then cache.record (.hostWrite req.slpn true)
  else (cache.record (.hostWrite req.slpn false)).record (directWrite cfg req)

def write (req : Request) (cache : GenericCache) :
    Except Panic GenericCache :=
  let lca := req.slpn
  let dirty := isShort cfg req
  let cache := accept cfg req cache
  if cfg.useWriteCaching then
    let setIdx := calcSetIndex cfg lca
    let wayIdx := getValidWay cfg cache lca
    if wayIdx ≠ cfg.waySize then
      .ok (storeLine env cache (setIdx, wayIdx) lca dirty)
    else
      let wayIdx := getEmptyWay cfg cache setIdx
      if wayIdx ≠ cfg.waySize then
        .ok (storeLine env cache (setIdx, wayIdx) lca dirty)
      else
        let evicted := evictCache cfg env true
          (chooseEvicted cfg env cache setIdx)
        let wayIdx := getEmptyWay cfg evicted setIdx
        if wayIdx = cfg.waySize then .error .cacheCorrupted
        else .ok (storeLine env evicted (setIdx, wayIdx) lca true)
  else .ok (if dirty then cache.record (directWrite cfg req) else cache)

/-- `line.tag >= range.slpn && line.tag < range.slpn + range.nlp`. -/
def inRange (range : LPNRange) (tag : Nat) : Prop :=
  range.slpn ≤ tag ∧ tag < (range.slpn + range.nlp) % 2 ^ 64

instance (range : LPNRange) (tag : Nat) : Decidable (inRange range tag) :=
  inferInstanceAs (Decidable (_ ∧ _))

/-- One round of `flush`.  Bits of earlier lines stay set in `ioFlag`. -/
def flushLine (range : LPNRange) (state : GenericCache × Finset Nat)
    (place : Place) : GenericCache × Finset Nat :=
  let cache := state.1
  let line := cache.cacheData place
  if inRange range line.tag then
    let ioFlag :=
      if line.dirty then insert (line.tag % cfg.lineCountInSuperPage) state.2
      else state.2
    let written :=
      if line.dirty then
        cache.record (.ftlWrite (line.tag / cfg.lineCountInSuperPage) ioFlag)
      else cache
    (written.setLine place { line with valid := false }, ioFlag)
  else state

def flush (range : LPNRange) (cache : GenericCache) : GenericCache :=
  if cfg.useReadCaching ∨ cfg.useWriteCaching then
    ((allPlaces cfg).foldl (flushLine cfg range) (cache, ∅)).1
  else cache

def trimLine (range : LPNRange) (state : GenericCache × Finset Nat)
    (place : Place) : GenericCache × Finset Nat :=
  let cache := state.1
  let line := cache.cacheData place
  if inRange range line.tag then
    let ioFlag := insert (line.tag % cfg.lineCountInSuperPage) state.2
    ((cache.record (.ftlTrim (line.tag / cfg.lineCountInSuperPage)
      ioFlag)).setLine place { line with valid := false }, ioFlag)
  else state

def trim (range : LPNRange) (cache : GenericCache) : GenericCache :=
  if cfg.useReadCaching ∨ cfg.useWriteCaching then
    ((allPlaces cfg).foldl (trimLine cfg range) (cache, ∅)).1
  else cache

/-- One round of `format`. -/
def invalidateLCA (cache : GenericCache) (lca : Nat) : GenericCache :=
  let wayIdx := getValidWay cfg cache lca
  let place := (calcSetIndex cfg lca, wayIdx)
  if wayIdx ≠ cfg.waySize then
    cache.setLine place { cache.cacheData place with valid := false }
  else cache

def format (range : LPNRange) (cache : GenericCache) : GenericCache :=
  let cleared :=
    if cfg.useReadCaching ∨ cfg.useWriteCaching then
      ((List.range range.nlp).map fun i => (range.slpn + i) % 2 ^ 64).foldl
        (invalidateLCA cfg) cache
    else cache
  cleared.record (.ftlFormat (range.slpn / cfg.lineCountInSuperPage)
    (((range.nlp + (2 ^ 64 - 1)) % 2 ^ 64 / cfg.lineCountInSuperPage + 1) %
      2 ^ 64))

end GenericCache

inductive Call where
  | read (req : Request)
  | write (req : Request)
  | flush (range : LPNRange)
  | trim (range : LPNRange)
  | format (range : LPNRange)
  deriving DecidableEq, Repr

def Call.perform (cfg : Config) (env : Environment) :
    Call → GenericCache → Except Panic GenericCache
  | .read req, cache => GenericCache.read cfg env req cache
  | .write req, cache => GenericCache.write cfg env req cache
  | .flush range, cache => .ok (GenericCache.flush cfg range cache)
  | .trim range, cache => .ok (GenericCache.trim cfg range cache)
  | .format range, cache => .ok (GenericCache.format cfg range cache)

def Call.performAll (cfg : Config) (env : Environment) :
    (calls : List Call) → GenericCache → Except Panic GenericCache
  | [], cache => .ok cache
  | call :: rest, cache =>
      match call.perform cfg env cache with
      | .error raised => .error raised
      | .ok next => Call.performAll cfg env rest next

end SimpleSSD.ICL
