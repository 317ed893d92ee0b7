import SimpleSSD.BIL.BIO
import SimpleSSD.ICL.Interface
import SimpleSSD.Util.Algorithm

namespace SimpleSSD.SIL.None

open BIL
open ICL.Interface (Tiles)
open Util (divCeil)

/-! The driver that has no protocol: I/Os become requests to the HIL. -/

/-- Members of `Driver`, as `getLPNInfo` sets them. -/
structure Driver where
  totalLogicalPages : UInt64
  logicalPageSize : UInt32
  logicalPageSize_ne_zero : logicalPageSize ≠ 0

structure Request where
  reqID : UInt64
  reqSubID : UInt64
  offset : UInt64
  length : UInt64
  slpn : UInt64
  nlp : UInt64
  deriving DecidableEq, Repr

inductive Call where
  | read (req : Request)
  | write (req : Request)
  | flush (req : Request)
  | trim (req : Request)
  deriving DecidableEq, Repr

namespace Driver

def request (driver : Driver) (bio : BIO) : Request where
  reqID := bio.id
  reqSubID := 0
  offset := bio.offset % driver.logicalPageSize.toUInt64
  length := bio.length
  slpn := bio.offset / driver.logicalPageSize.toUInt64
  nlp := divCeil bio.length driver.logicalPageSize.toUInt64

def submitIO (driver : Driver) (bio : BIO) : Option Call :=
  let req := driver.request bio
  match bio.type with
  | .read => some (.read req)
  | .write => some (.write req)
  | .flush => some (.flush req)
  | .trim => some (.trim req)
  | .num => none

end Driver

/-- `ICL::Request(HIL::Request &)`, after the HIL has numbered the request. -/
def Request.internal (req : Request) (reqCount : UInt64) :
    ICL.Interface.Request where
  reqID := reqCount + 1
  reqSubID := req.reqSubID
  offset := req.offset
  length := req.length
  slpn := req.slpn
  nlp := req.nlp

/-- The reads and writes of the cache on a call of the HIL. -/
def Call.lines (logicalPageSize : UInt32) (reqCount : UInt64) :
    Call → List ICL.Interface.Request
  | .read req => ICL.Interface.read logicalPageSize (req.internal reqCount)
  | .write req => ICL.Interface.write logicalPageSize (req.internal reqCount)
  | .flush _ | .trim _ => []

namespace Driver

def lines (driver : Driver) (reqCount : UInt64) (bio : BIO) :
    List ICL.Interface.Request :=
  ((driver.submitIO bio).map
    (Call.lines driver.logicalPageSize reqCount)).getD []

variable {driver : Driver} {bio : BIO} {reqCount : UInt64}

theorem logicalPageSize_toUInt64_ne_zero (driver : Driver) :
    driver.logicalPageSize.toUInt64 ≠ 0 := by
  intro hzero
  apply driver.logicalPageSize_ne_zero
  apply UInt32.toNat_inj.mp
  rw [← UInt32.toNat_toUInt64, hzero]
  rfl

/-- The lines of an I/O begin where it does and end at the end of the last page
that the length of the I/O gives, or before. -/
theorem requests_tile (hlength : bio.length ≠ 0)
    (hfits : bio.offset.toNat + bio.length.toNat ≤
      driver.totalLogicalPages.toNat * driver.logicalPageSize.toNat) :
    let req := (driver.request bio).internal reqCount
    Tiles driver.logicalPageSize.toNat
      (ICL.Interface.requestsFrom driver.logicalPageSize req req.nlp.toNat 0
        req.length req.offset)
      bio.offset.toNat
      (bio.offset.toNat + min bio.length.toNat
        ((divCeil bio.length driver.logicalPageSize.toUInt64).toNat *
            driver.logicalPageSize.toNat -
          bio.offset.toNat % driver.logicalPageSize.toNat)) := by
  intro req
  obtain ⟨units, hunits, hfew, -⟩ := Util.divCeil_spec hlength
    driver.logicalPageSize_toUInt64_ne_zero
  rw [UInt32.toNat_toUInt64] at hfew
  have hsize : 0 < driver.logicalPageSize.toNat :=
    Nat.pos_of_ne_zero fun hzero =>
      driver.logicalPageSize_ne_zero (UInt32.toNat_inj.mp hzero)
  have hslpn : req.slpn.toNat =
      bio.offset.toNat / driver.logicalPageSize.toNat := by
    change (bio.offset / driver.logicalPageSize.toUInt64).toNat = _
    rw [UInt64.toNat_div, UInt32.toNat_toUInt64]
  have hoffset : req.offset.toNat =
      bio.offset.toNat % driver.logicalPageSize.toNat := by
    change (bio.offset % driver.logicalPageSize.toUInt64).toNat = _
    rw [UInt64.toNat_mod, UInt32.toNat_toUInt64]
  have hsplit := Nat.div_add_mod' bio.offset.toNat driver.logicalPageSize.toNat
  have hpages : req.slpn.toNat + 0 + req.nlp.toNat ≤ 2 ^ 64 := by
    have hlast : (req.slpn.toNat + units) * driver.logicalPageSize.toNat <
        driver.totalLogicalPages.toNat * driver.logicalPageSize.toNat := by
      rw [Nat.add_mul, hslpn]
      omega
    have hlt := Nat.lt_of_mul_lt_mul_right hlast
    have hbound := driver.totalLogicalPages.toNat_lt
    change _ + 0 + (divCeil bio.length _).toNat ≤ _
    omega
  have hmod := Nat.mod_lt bio.offset.toNat hsize
  have htiles := @ICL.Interface.requestsFrom_tiles driver.logicalPageSize req
    req.nlp.toNat 0 req.length req.offset (by omega) hpages
  rw [Nat.add_zero, hslpn, hoffset, hsplit] at htiles
  exact htiles

theorem lines_eq (htype : bio.type = .read ∨ bio.type = .write) :
    let req := (driver.request bio).internal reqCount
    driver.lines reqCount bio =
      ICL.Interface.requestsFrom driver.logicalPageSize req req.nlp.toNat 0
        req.length req.offset := by
  obtain htype | htype := htype
  all_goals
    unfold lines submitIO
    rw [htype]
    rfl

/-- The lines of a read or write are its bytes when the pages that its length
takes still hold it after what stands before it in its first page. -/
theorem lines_tile_bytes (htype : bio.type = .read ∨ bio.type = .write)
    (hlength : 1 ≤ bio.length)
    (hfits : bio.offset.toNat + bio.length.toNat ≤
      driver.totalLogicalPages.toNat * driver.logicalPageSize.toNat) :
    Tiles driver.logicalPageSize.toNat (driver.lines reqCount bio)
        bio.offset.toNat (bio.offset.toNat + bio.length.toNat) ↔
      bio.offset.toNat % driver.logicalPageSize.toNat + bio.length.toNat ≤
        (divCeil bio.length driver.logicalPageSize.toUInt64).toNat *
          driver.logicalPageSize.toNat := by
  have hpos : 1 ≤ bio.length.toNat := UInt64.le_iff_toNat_le.mp hlength
  have hne : bio.length ≠ 0 := by
    intro hzero
    rw [hzero] at hpos
    exact absurd hpos (by decide)
  have htiles := @requests_tile driver bio reqCount hne hfits
  dsimp only at htiles
  rw [← lines_eq htype] at htiles
  constructor
  · intro hexact
    have hle := htiles.last_unique hexact (by omega)
    omega
  · intro hroom
    rw [Nat.min_eq_left (by omega)] at htiles
    exact htiles

end Driver

/-- A write of two and a half pages from the second page on. -/
theorem lines_tile_bytes_aligned :
    let driver : Driver :=
      { totalLogicalPages := 1024, logicalPageSize := 4096
        logicalPageSize_ne_zero := by decide }
    let bio : BIO := { id := 1, type := .write, offset := 4096, length := 10240 }
    Tiles 4096 (driver.lines 0 bio) 4096 14336 := by
  intro driver bio
  exact (@Driver.lines_tile_bytes driver bio 0 (.inr rfl) (by decide)
    (by decide)).mpr (by decide)

/-- A read of one page from the middle of a page on asks for one line only. -/
theorem lines_miss_bytes :
    let driver : Driver :=
      { totalLogicalPages := 1024, logicalPageSize := 4096
        logicalPageSize_ne_zero := by decide }
    let bio : BIO := { id := 1, type := .read, offset := 2048, length := 4096 }
    ¬ Tiles 4096 (driver.lines 0 bio) 2048 6144 := by
  intro driver bio htiles
  obtain ⟨req, hreq, hhas⟩ := (htiles.covered 4096).mpr (by decide)
  have honly : driver.lines 0 bio =
      [{ reqID := 1, reqSubID := 1, offset := 2048, length := 2048, slpn := 0
         nlp := 0 }] := by
    decide +kernel
  rw [honly, List.mem_singleton] at hreq
  rw [hreq] at hhas
  exact absurd hhas.2 (by decide)

end SimpleSSD.SIL.None
