-- SUMMARY: `parse_binary_file` of `CixBiosReplaceSubImage.py`: the sub-image table of a flash file, with its reader and what the reader returns.
import Edk2NonOsi.Python.Runtime

open Python

namespace FlashImage

-- ---------------------------------------------------------------------------
-- Data
-- ---------------------------------------------------------------------------

/-- One entry of the sub-image table. -/
structure Record where
  imageType : Nat
  offset : Nat
  size : Nat
  reserve : Nat
deriving DecidableEq

/-- What `parse_binary_file` returns when it finds a header. -/
structure Table where
  cfsVersion : Nat
  imagineCount : Nat
  reserve : Nat
  records : List Record
deriving DecidableEq

def magic : Bytes := [0xAA, 0x55, 0xAA, 0x55]

/-- The record of the EC image, which every table gets appended. -/
def ecRecord : Record where
  imageType := 0x0
  offset := 0x10000
  size := 0x20000
  reserve := 0

-- ---------------------------------------------------------------------------
-- The reader
-- ---------------------------------------------------------------------------

/-- `struct.unpack ('IIII', raw)`. -/
def unpackRecord (raw : Bytes) : Except Error Record :=
  if raw.length = 16 then
    .ok
      { imageType := LittleEndian.toNat (Span.read raw 0 4)
        offset := LittleEndian.toNat (Span.read raw 4 4)
        size := LittleEndian.toNat (Span.read raw 8 4)
        reserve := LittleEndian.toNat (Span.read raw 12 4) }
  else .error .structError

/-- The loop over `imagine_count` records. -/
def readRecords : Nat → FileObj → Except Error (List Record)
  | 0, _ => .ok []
  | n + 1, f => do
    let (raw, f) := f.read 16
    let record ← unpackRecord raw
    let records ← readRecords n f
    return record :: records

/-- `parse_binary_file` on an open file. -/
def parseFile (f : FileObj) (startOffset : Nat) : Except Error (Option Table) :=
  let f := f.seek startOffset
  let (header, f) := f.read 4
  if header ≠ magic then .ok none
  else do
    let (raw, f) := f.read 4
    let cfsVersion ← unpackI raw
    let (raw, f) := f.read 4
    let imagineCount ← unpackI raw
    let (raw, f) := f.read 4
    let reserve ← unpackI raw
    let records ← readRecords imagineCount f
    return some ⟨cfsVersion, imagineCount, reserve, records ++ [ecRecord]⟩

/-- `parse_binary_file (file_path, start_offset)`. -/
def parseBinaryFile {Path : Type} (files : Files Path) (filePath : Path) (startOffset : Nat) :
    Except Error (Option Table) :=
  match files filePath with
  | none => .error .fileNotFound
  | some data => parseFile ⟨data, 0⟩ startOffset

-- ---------------------------------------------------------------------------
-- The table as spans of the file
-- ---------------------------------------------------------------------------

/-- The 32-bit word of the file at `pos`. -/
def wordAt (data : Bytes) (pos : Nat) : Nat :=
  LittleEndian.toNat (Span.read data pos 4)

def recordAt (data : Bytes) (pos : Nat) : Record where
  imageType := wordAt data pos
  offset := wordAt data (pos + 4)
  size := wordAt data (pos + 8)
  reserve := wordAt data (pos + 12)

/-- The record count in the header at `h`. -/
def countAt (data : Bytes) (h : Nat) : Nat :=
  wordAt data (h + 8)

/-- The first position behind the table of the header at `h`. -/
def tableEnd (data : Bytes) (h : Nat) : Nat :=
  h + 16 + 16 * countAt data h

/-- The entries of the table of the header at `h`, in file order, then the EC
    record. -/
def recordsAt (data : Bytes) (h : Nat) : List Record :=
  (List.range (countAt data h)).map (fun i => recordAt data (h + 16 + 16 * i)) ++ [ecRecord]

def tableAt (data : Bytes) (h : Nat) : Table where
  cfsVersion := wordAt data (h + 4)
  imagineCount := countAt data h
  reserve := wordAt data (h + 12)
  records := recordsAt data h

theorem length_recordsAt (data : Bytes) (h : Nat) :
    (recordsAt data h).length = countAt data h + 1 := by
  simp [recordsAt]

theorem getElem?_recordsAt {data : Bytes} {h i : Nat} (hi : i < countAt data h) :
    (recordsAt data h)[i]? = some (recordAt data (h + 16 + 16 * i)) := by
  rw [recordsAt, List.getElem?_append_left (by simpa using hi), List.getElem?_map,
    List.getElem?_range hi]
  rfl

theorem getElem?_recordsAt_count (data : Bytes) (h : Nat) :
    (recordsAt data h)[countAt data h]? = some ecRecord := by
  simp [recordsAt]

/-- A header behind `pre` reads as the header alone. -/
theorem wordAt_append (pre hdr : Bytes) (p : Nat) :
    wordAt (pre ++ hdr) (pre.length + p) = wordAt hdr p := by
  rw [wordAt, Span.read_append_right, wordAt]

theorem countAt_append (pre hdr : Bytes) : countAt (pre ++ hdr) pre.length = countAt hdr 0 := by
  rw [countAt, wordAt_append, countAt, Nat.zero_add]

theorem recordsAt_append (pre hdr : Bytes) :
    recordsAt (pre ++ hdr) pre.length = recordsAt hdr 0 := by
  simp only [recordsAt, recordAt, countAt_append, Nat.add_assoc, wordAt_append, Nat.zero_add]

-- ---------------------------------------------------------------------------
-- What the reader returns
-- ---------------------------------------------------------------------------

theorem unpackRecord_read {data : Bytes} {pos : Nat} (h : pos + 16 ≤ data.length) :
    unpackRecord (Span.read data pos 16) = .ok (recordAt data pos) := by
  have hread (p : Nat) (hp : p + 4 ≤ 16) :
      Span.read (Span.read data pos 16) p 4 = Span.read data (pos + p) 4 :=
    Span.read_read hp
  rw [unpackRecord, if_pos (Span.length_read_of_le h), hread 0 (by omega), hread 4 (by omega),
    hread 8 (by omega), hread 12 (by omega)]
  rfl

theorem unpackRecord_short {data : Bytes} {pos : Nat} (h : data.length < pos + 16) :
    unpackRecord (Span.read data pos 16) = .error .structError := by
  rw [unpackRecord, if_neg]
  rw [Span.length_read]
  omega

theorem readRecords_eq (data : Bytes) (n pos : Nat) (hpos : pos ≤ data.length) :
    readRecords n ⟨data, pos⟩ =
      if pos + 16 * n ≤ data.length then
        .ok ((List.range n).map fun i => recordAt data (pos + 16 * i))
      else .error .structError := by
  induction n generalizing pos with
  | zero =>
    rw [if_pos (by omega)]
    rfl
  | succ n ih =>
    simp only [readRecords, FileObj.read]
    by_cases hlen : pos + 16 ≤ data.length
    · have hread : (Span.read data pos 16).length = 16 := Span.length_read_of_le hlen
      have hcond : pos + 16 + 16 * n ≤ data.length ↔ pos + 16 * (n + 1) ≤ data.length := by omega
      have hidx (i : Nat) : pos + 16 * (i + 1) = pos + 16 + 16 * i := by ring
      rw [unpackRecord_read hlen, hread, ih (pos + 16) hlen, if_congr hcond rfl rfl]
      split
      · show Except.ok _ = Except.ok _
        rw [List.range_succ_eq_map, List.map_cons, List.map_map]
        simp only [Nat.mul_zero, Nat.add_zero, Function.comp_def, Nat.succ_eq_add_one, hidx]
      · rfl
    · rw [unpackRecord_short (by omega), if_neg (by omega)]
      rfl

theorem unpackI_read {data : Bytes} {pos : Nat} (h : pos + 4 ≤ data.length) :
    unpackI (Span.read data pos 4) = .ok (wordAt data pos) := by
  rw [unpackI, if_pos (Span.length_read_of_le h), wordAt]

theorem unpackI_short {data : Bytes} {pos : Nat} (h : data.length < pos + 4) :
    unpackI (Span.read data pos 4) = .error .structError := by
  rw [unpackI, if_neg]
  rw [Span.length_read]
  omega

/-- Exactly when `parse_binary_file` finds a table, finds none, and raises. -/
theorem parseFile_eq (data : Bytes) (p h : Nat) :
    parseFile ⟨data, p⟩ h =
      if Span.read data h 4 ≠ magic then .ok none
      else if data.length < tableEnd data h then .error .structError
      else .ok (some (tableAt data h)) := by
  unfold parseFile
  simp only [FileObj.seek, FileObj.read]
  by_cases hmagic : Span.read data h 4 = magic
  · have hlen : (Span.read data h 4).length = 4 := by rw [hmagic]; rfl
    have h4 : h + 4 ≤ data.length := by
      rw [Span.length_read] at hlen
      omega
    simp only [hmagic, ne_eq, not_true_eq_false, if_false]
    rw [hmagic] at hlen
    rw [hlen]
    by_cases h16 : h + 16 ≤ data.length
    · have hread (pos : Nat) (hp : pos + 4 ≤ h + 16) : (Span.read data pos 4).length = 4 :=
        Span.length_read_of_le (by omega)
      rw [hread (h + 4) (by omega), hread (h + 4 + 4) (by omega), hread (h + 4 + 4 + 4) (by omega),
        unpackI_read (by omega), unpackI_read (by omega), unpackI_read (by omega)]
      show (readRecords (countAt data h) ⟨data, h + 16⟩ >>= _) = _
      rw [readRecords_eq data _ _ h16]
      by_cases hend : h + 16 + 16 * countAt data h ≤ data.length
      · rw [if_pos hend, if_neg (by rw [tableEnd]; omega)]
        rfl
      · rw [if_neg hend, if_pos (by rw [tableEnd]; omega)]
        rfl
    · -- The header is cut: whichever of its words is the first to be short raises.
      rw [if_pos (by rw [tableEnd]; omega)]
      by_cases h8 : h + 4 + 4 ≤ data.length
      · rw [unpackI_read h8, Span.length_read_of_le h8]
        by_cases h12 : h + 4 + 4 + 4 ≤ data.length
        · rw [unpackI_read h12, Span.length_read_of_le h12, unpackI_short (by omega)]
          rfl
        · rw [unpackI_short (by omega)]
          rfl
      · rw [unpackI_short (by omega)]
        rfl
  · simp only [hmagic, ne_eq, not_false_eq_true, if_true]

end FlashImage
