-- SUMMARY: The parts of the Python runtime the tools use: files by path, file objects with a position, the `struct` format 'I', and integers as byte strings.
import Edk2NonOsi.Bytes.BigEndian
import Edk2NonOsi.Bytes.Span

namespace Python

-- ---------------------------------------------------------------------------
-- Files
-- ---------------------------------------------------------------------------

/-- The exceptions a run can end with. -/
inductive Error where
  | fileNotFound
  | structError
  | valueError (message : String)
deriving DecidableEq, Repr

/-- The contents of the files that exist, by path. -/
abbrev Files (Path : Type) : Type := Path → Option Bytes

/-- A file object opened in binary mode. -/
structure FileObj where
  data : Bytes
  pos : Nat

namespace FileObj

/-- `f.seek (pos)`. -/
def seek (f : FileObj) (pos : Nat) : FileObj :=
  { f with pos := pos }

/-- `f.read (n)`: at most `n` bytes, and the file object behind them. -/
def read (f : FileObj) (n : Nat) : Bytes × FileObj :=
  let bs := Span.read f.data f.pos n
  (bs, { f with pos := f.pos + bs.length })

/-- `f.write (bs)`. A gap between the end of the file and the position reads as
    zeros. -/
def write (f : FileObj) (bs : Bytes) : FileObj :=
  { data := Span.writeFill 0 f.data f.pos bs, pos := f.pos + bs.length }

end FileObj

/-- `struct.unpack ('I', bs) [0]` with four-byte little-endian integers. -/
def unpackI (bs : Bytes) : Except Error Nat :=
  if bs.length = 4 then .ok (LittleEndian.toNat bs) else .error .structError

/-- `struct.pack ('I', v)`. -/
def packI (v : Nat) : Except Error Bytes :=
  if v < 2 ^ 32 then .ok (LittleEndian.ofNat 4 v) else .error .structError

-- ---------------------------------------------------------------------------
-- Integers
-- ---------------------------------------------------------------------------

/-- `n.bit_length ()`. -/
def bitLength (n : Nat) : Nat :=
  n.size

/-- The `byteorder` argument of `to_bytes`. -/
inductive ByteOrder where
  | big
  | little

/-- `n.to_bytes (length, byteorder)`; `none` for an `OverflowError`. -/
def toBytes (n length : Nat) (byteorder : ByteOrder) : Option Bytes :=
  if n < 256 ^ length then
    match byteorder with
    | .big => some (BigEndian.ofNat length n)
    | .little => some (LittleEndian.ofNat length n)
  else none

/-- The length computed from `bit_length` is enough, and no more. -/
theorem toBytes_bitLength (n : Nat) :
    toBytes n ((bitLength n + 7) / 8) .big = some (BigEndian.shortest n) :=
  if_pos (BigEndian.lt_pow_byteLength n)

theorem toBytes_two (v : UInt16) :
    toBytes v.toNat 2 .little = some (LittleEndian.ofNat 2 v.toNat) :=
  if_pos v.toNat_lt

end Python
