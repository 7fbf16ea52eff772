-- SUMMARY: `MemConfigBinTool.c`: checksum, feature hash, and the two passes of `main` over the block list, on a heap of blocks.
import Edk2NonOsi.Bytes.Packing
import Edk2NonOsi.C.Stdio
import Edk2NonOsi.MemConfig.ConfigurationTable

namespace MemConfig

-- ---------------------------------------------------------------------------
-- Helpers of the tool
-- ---------------------------------------------------------------------------

/-- `SIZE_16B_ALIGN (size)`. -/
def size16BAlign (size : Nat) : Nat :=
  if size % 16 = 0 then size else ((size >>> 4) + 1) <<< 4

/-- `CDCB_BLOCK_ENTRY`. -/
structure CdcbBlockEntry (Ptr : Type) where
  guid : UInt16
  ptr : Ptr

/-- The sum `GenCheckSum` complements. -/
def byteSum (data : Bytes) : UInt8 :=
  data.foldl (fun checkSum b => checkSum + b) 0

/-- `GenCheckSum (buf, size)`. -/
def genCheckSum (buf : Bytes) (size : Nat) : Except C.Fault UInt8 := do
  let data ← C.load buf 0 size
  return ~~~ byteSum data

/-- One call of `DJBHash` on the bytes it reads. -/
def djb (hash : UInt32) (data : Bytes) : UInt32 :=
  data.foldl (fun hash b => ((hash <<< 5) + hash) + b.toUInt32) (if hash = 0 then 5381 else hash)

/-- `DJBHash (buf + pos, size, &hash)`: the new value of `hash`. -/
def djbHash (buf : Bytes) (pos size : Nat) (hash : UInt32) : Except C.Fault UInt32 := do
  let data ← C.load buf pos size
  return djb hash data

/-- `BlockHeader->BlockSize`. -/
def readBlockSize (obj : Bytes) : Except C.Fault UInt16 := do
  return Layout.u16.dec (← C.load obj blockSizeOffset 2)

-- ---------------------------------------------------------------------------
-- First pass
-- ---------------------------------------------------------------------------

variable {Ptr : Type} [DecidableEq Ptr]

/-- The memory of the first pass: the listed objects, the table, and `offset`. -/
structure TableState (Ptr : Type) where
  heap : Ptr → Bytes
  table : Bytes
  offset : UInt16

/-- The checksum update of one object: `BlockChecksum` is cleared, and then set. -/
def updateChecksum (obj : Bytes) : Except C.Fault Bytes := do
  let obj ← C.memcpy obj blockChecksumOffset [0] 1
  let size ← readBlockSize obj
  let checksum ← genCheckSum obj size.toNat
  C.memcpy obj blockChecksumOffset [checksum] 1

/-- The body of the first loop behind the GUID test. -/
def addEntry (index : Nat) (e : CdcbBlockEntry Ptr) (s : TableState Ptr) :
    Except C.Fault (TableState Ptr) := do
  let obj ← updateChecksum (s.heap e.ptr)
  let size ← readBlockSize obj
  let entry := MemConfigBlockTableEntry.layout.enc ⟨e.guid, s.offset⟩
  let table ← C.memcpy s.table (4 * index) entry 4
  return {
    heap := Function.update s.heap e.ptr obj
    table := table
    offset := s.offset + UInt16.ofNat (size16BAlign size.toNat) }

/-- The first loop, from `index` on; `none` when it returns at an invalid GUID. -/
def firstPass : List (CdcbBlockEntry Ptr) → Nat → TableState Ptr →
    Except C.Fault (Option (TableState Ptr))
  | [], _, s => return some s
  | e :: rest, index, s =>
    if e.guid = guidInvalid then return none
    else do
      let s ← addEntry index e s
      firstPass rest (index + 1) s

-- ---------------------------------------------------------------------------
-- Second pass
-- ---------------------------------------------------------------------------

/-- The memory of the second pass: the image buffer, `offset` and `FeatHash`. -/
structure CopyState where
  buf : Bytes
  offset : UInt16
  featHash : UInt32

/-- The body of the second loop. -/
def copyBlock (heap : Ptr → Bytes) (e : CdcbBlockEntry Ptr) (s : CopyState) :
    Except C.Fault CopyState := do
  let size ← readBlockSize (heap e.ptr)
  let buf ← C.memcpy s.buf s.offset.toNat (heap e.ptr) size.toNat
  let featHash ←
    if e.guid = memConfigBlockFeatureGuid then
      djbHash buf s.offset.toNat (size16BAlign size.toNat) s.featHash
    else pure s.featHash
  return {
    buf := buf
    offset := s.offset + UInt16.ofNat (size16BAlign size.toNat)
    featHash := featHash }

/-- The second loop. -/
def secondPass (heap : Ptr → Bytes) : List (CdcbBlockEntry Ptr) → CopyState →
    Except C.Fault CopyState
  | [], s => return s
  | e :: rest, s => do
    let s ← copyBlock heap e s
    secondPass heap rest s

-- ---------------------------------------------------------------------------
-- `main`
-- ---------------------------------------------------------------------------

/-- `CdcbHeader` before the first pass, for a list of `n` blocks. -/
def initHeader (n : Nat) : MemConfigHeader :=
  { MemConfigHeader.layout.filled 0 with
    signature := memConfigHeaderSignature
    majorVer := memConfigMajorVer
    minorVer := memConfigMinorVer
    blockTbOffset := UInt16.ofNat MemConfigHeader.layout.size
    headerSize := UInt8.ofNat MemConfigHeader.layout.size
    blockCount := UInt8.ofNat n
    headerCheckSum := 0 }

/-- `BlockTableSize`. -/
def blockTableSize (n : Nat) : Nat :=
  size16BAlign ((initHeader n).blockCount.toNat * MemConfigBlockTableEntry.layout.size)

/-- The header with its total size and checksum. -/
def finishHeader (n : Nat) (totalSize : UInt16) : Except C.Fault MemConfigHeader := do
  let header := { initHeader n with totalSize := totalSize }
  let checksum ← genCheckSum (MemConfigHeader.layout.enc header) header.headerSize.toNat
  return { header with headerCheckSum := checksum }

/-- The buffer with the quick config, the header and the table in front. -/
def startImage (quick : MemQuickConfig) (header : MemConfigHeader) (table : Bytes) :
    Except C.Fault CopyState := do
  let buf := List.replicate (MemQuickConfig.layout.size + header.totalSize.toNat) 0
  let buf ← C.memcpy buf 0 (MemQuickConfig.layout.enc quick) MemQuickConfig.layout.size
  let offset := UInt16.ofNat MemQuickConfig.layout.size
  let buf ← C.memcpy buf offset.toNat (MemConfigHeader.layout.enc header)
    MemConfigHeader.layout.size
  let offset := offset + UInt16.ofNat MemConfigHeader.layout.size
  let buf ← C.memcpy buf offset.toNat table table.length
  let offset := offset + UInt16.ofNat table.length
  return { buf := buf, offset := offset, featHash := 0 }

/-- How a run ends: at an invalid GUID, or with the bytes of `memory_config.bin`. -/
inductive Outcome where
  | invalidGuid
  | written (image : Bytes)
deriving DecidableEq

/-- `main`, on the objects of the configuration; every library call succeeds. -/
def main (quick : MemQuickConfig) (heap : Ptr → Bytes) (entries : List (CdcbBlockEntry Ptr)) :
    Except C.Fault Outcome := do
  let tableSize := blockTableSize entries.length
  let offset := UInt16.ofNat (MemConfigHeader.layout.size + tableSize)
  match ← firstPass entries 0 ⟨heap, List.replicate tableSize 0, offset⟩ with
  | none => return .invalidGuid
  | some s =>
    let header ← finishHeader entries.length s.offset
    let c ← startImage quick header s.table
    let c ← secondPass s.heap entries c
    let image ← C.memcpy c.buf MemQuickConfig.featHashField.offset (Layout.u32.enc c.featHash) 4
    return .written image

/-- `MemConfigBinOutprint`, which looks at none of its calls. A file that is not opened is
    written to all the same. -/
def memConfigBinOutprint (io : C.Stdio) (buf : Bytes) : Except C.Fault Bytes :=
  if io.fopen then
    match io.fwrite 0 with
    | some k => return io.closed (buf.take k)
    | none => return io.closed buf
  else .error .nullPointer

end MemConfig
