-- SUMMARY: `replace_image` of `CixBiosReplaceSubImage.py`: header selection, target lookup, the three writes, and the bytes it leaves in the output.
import Edk2NonOsi.FlashImage.Table

open Python

namespace FlashImage

-- ---------------------------------------------------------------------------
-- The program
-- ---------------------------------------------------------------------------

/-- `header_offsets`. -/
def headerOffsets : List Nat := [0x100000, 0x200000]

/-- The `for ... else` loop: the first offset where `parse_binary_file` returns a
    table, with that table. An exception of the parser ends the loop. -/
def findTable {Path : Type} (files : Files Path) (inFile : Path) :
    List Nat → Except Error (Option (Nat × Table))
  | [] => .ok none
  | headerOffset :: rest => do
    match ← parseBinaryFile files inFile headerOffset with
    | some table => return some (headerOffset, table)
    | none => findTable files inFile rest

/-- The writes to the open output file: its contents when the file is closed, and
    how the block ends. `target` is the record of `records` at `index`, and its
    `Size` is updated in place before `records.index` looks it up. -/
def writeImage (headerOffset : Nat) (records : List Record) (index : Nat) (target : Record)
    (originalData replacementData : Bytes) : Except Error Unit × Bytes :=
  let f : FileObj := ⟨[], 0⟩
  let f := f.write originalData
  let f := f.seek target.offset
  let f := f.write (List.replicate target.size 0xFF)
  let f := f.seek target.offset
  let f := f.write replacementData
  let target := { target with size := replacementData.length }
  let records := records.set index target
  if target.imageType ≠ 0 then
    let recordStartOffset := headerOffset + 16 + 16 * records.idxOf target
    let f := f.seek (recordStartOffset + 8)
    match packI target.size with
    | .error e => (.error e, f.data)
    | .ok size => (.ok (), (f.write size).data)
  else (.ok (), f.data)

/-- `replace_image (in_file, re_file, re_image_type, out_file)`: how it ends and
    the files afterwards. Opening the output truncates it, and everything before
    that only reads. -/
def replaceImage {Path : Type} [DecidableEq Path] (files : Files Path) (inFile reFile : Path)
    (reImageType : Int) (outFile : Path) : Except Error Unit × Files Path :=
  match findTable files inFile headerOffsets with
  | .error e => (.error e, files)
  | .ok none =>
    (.error (.valueError
      "Invalid header at all specified offsets\n Please check the file Image."), files)
  | .ok (some (headerOffset, table)) =>
    match table.records.findIdx? (fun r => (r.imageType : Int) = reImageType) with
    | none => (.error (.valueError "ImageType not found in "), files)
    | some index =>
      let target := table.records.getD index ecRecord
      match files reFile, files inFile with
      | some replacementData, some originalData =>
        let (result, data) :=
          writeImage headerOffset table.records index target originalData replacementData
        (result, Function.update files outFile (some data))
      | _, _ => (.error .fileNotFound, files)

-- ---------------------------------------------------------------------------
-- Header and target of a file
-- ---------------------------------------------------------------------------

/-- The first of the two offsets that holds the magic. -/
def headerOffset? (data : Bytes) : Option Nat :=
  headerOffsets.find? fun h => Span.read data h 4 = magic

/-- The index of the first record of type `t`. -/
def targetIndex? (data : Bytes) (h : Nat) (t : Int) : Option Nat :=
  (recordsAt data h).findIdx? fun r => (r.imageType : Int) = t

/-- `h` is the header of the file, its table is complete, and record `i`, `r`, is
    the first of type `t`. -/
structure IsTarget (data : Bytes) (t : Int) (h i : Nat) (r : Record) : Prop where
  header : headerOffset? data = some h
  complete : tableEnd data h ≤ data.length
  index : targetIndex? data h t = some i
  record : (recordsAt data h)[i]? = some r

namespace IsTarget

variable {data : Bytes} {t : Int} {h i : Nat} {r : Record}

theorem getElem_eq (ht : IsTarget data t h i r) :
    ∃ hi : i < (recordsAt data h).length, (recordsAt data h)[i] = r :=
  List.getElem?_eq_some_iff.mp ht.record

theorem imageType_eq (ht : IsTarget data t h i r) : (r.imageType : Int) = t := by
  obtain ⟨hi, hr⟩ := ht.getElem_eq
  obtain ⟨_, htype, -⟩ := List.findIdx?_eq_some_iff_getElem.mp ht.index
  rw [hr] at htype
  simpa using htype

/-- No record in front of the target has its type. -/
theorem imageType_ne (ht : IsTarget data t h i r) {j : Nat} (hlt : j < (recordsAt data h).length)
    (hj : j < i) : ((recordsAt data h)[j].imageType : Int) ≠ t := by
  obtain ⟨_, -, hfirst⟩ := List.findIdx?_eq_some_iff_getElem.mp ht.index
  simpa using hfirst j hj

/-- A target of a type other than 0 is an entry of the table. -/
theorem index_lt (ht : IsTarget data t h i r) (hne : t ≠ 0) : i < countAt data h := by
  obtain ⟨hi, -⟩ := ht.getElem_eq
  rw [length_recordsAt] at hi
  by_contra hge
  have hlast : i = countAt data h := by omega
  have hr := ht.record
  rw [hlast, getElem?_recordsAt_count] at hr
  apply hne
  rw [← ht.imageType_eq, ← Option.some.inj hr]
  rfl

theorem record_eq_recordAt (ht : IsTarget data t h i r) (hi : i < countAt data h) :
    r = recordAt data (h + 16 + 16 * i) := by
  have hr := ht.record
  rw [getElem?_recordsAt hi] at hr
  exact (Option.some.inj hr).symm

end IsTarget

-- ---------------------------------------------------------------------------
-- What the program does on a file with a target
-- ---------------------------------------------------------------------------

/-- The slot of a record: the positions `[Offset, Offset + Size)`. -/
def slot (r : Record) : Set Nat :=
  Set.Ico r.offset (r.offset + r.size)

/-- The position of the `Size` field of entry `i`. -/
def sizeOffset (h i : Nat) : Nat :=
  h + 16 + 16 * i + 8

/-- The output before the header is synchronised. -/
def overwritten (data : Bytes) (r : Record) (repl : Bytes) : Bytes :=
  Span.writeFill 0 (Span.writeFill 0 data r.offset (List.replicate r.size 0xFF)) r.offset repl

/-- The output when the run completes. -/
def replaced (data : Bytes) (t : Int) (h i : Nat) (r : Record) (repl : Bytes) : Bytes :=
  if t = 0 then overwritten data r repl
  else Span.writeFill 0 (overwritten data r repl) (sizeOffset h i)
    (LittleEndian.ofNat 4 repl.length)

theorem findTable_eq {Path : Type} {files : Files Path} {inFile : Path} {data : Bytes}
    (hin : files inFile = some data) (offsets : List Nat) :
    findTable files inFile offsets =
      match offsets.find? fun h => Span.read data h 4 = magic with
      | none => .ok none
      | some h =>
        if data.length < tableEnd data h then .error .structError
        else .ok (some (h, tableAt data h)) := by
  induction offsets with
  | nil => rfl
  | cons h rest ih =>
    rw [findTable, parseBinaryFile, hin]
    simp only [parseFile_eq]
    by_cases hmagic : Span.read data h 4 = magic
    · rw [List.find?_cons_of_pos (by simpa using hmagic)]
      simp only [hmagic, ne_eq, not_true_eq_false, if_false]
      split
      · rfl
      · rfl
    · rw [List.find?_cons_of_neg (by simpa using hmagic), ← ih]
      simp only [hmagic, ne_eq, not_false_eq_true, if_true]
      rfl

/-- The mutated target is still the first record equal to itself: no earlier
    record has its type. -/
theorem idxOf_set_target {records : List Record} {i : Nat} {r : Record} (n : Nat)
    (hi : records[i]? = some r)
    (hfirst : ∀ (j : Nat) (hj : j < records.length), j < i →
      records[j].imageType ≠ r.imageType) :
    (records.set i { r with size := n }).idxOf { r with size := n } = i := by
  have hlt : i < records.length := (List.getElem?_eq_some_iff.mp hi).1
  have hlt' : i < (records.set i { r with size := n }).length := by simpa using hlt
  apply Nat.le_antisymm
  · by_contra hgt
    have hne := List.not_of_lt_findIdx (Nat.lt_of_not_le hgt)
    simp at hne
  · by_contra hlt''
    have hj := Nat.lt_of_not_le hlt''
    have hjlen : (records.set i { r with size := n }).idxOf { r with size := n } <
        (records.set i { r with size := n }).length := by omega
    have heq := List.getElem_idxOf hjlen
    have hne := hfirst _ (by simpa using hjlen) hj
    apply hne
    rw [List.getElem_set_ne (by omega)] at heq
    rw [heq]

theorem writeImage_eq {data : Bytes} {t : Int} {h i : Nat} {r : Record}
    (ht : IsTarget data t h i r) {repl : Bytes} (hpack : t = 0 ∨ repl.length < 2 ^ 32) :
    writeImage h (recordsAt data h) i r data repl = (.ok (), replaced data t h i r repl) := by
  have htype : r.imageType ≠ 0 ↔ t ≠ 0 := by
    rw [← ht.imageType_eq]
    simp
  have hstart : Span.writeFill 0 ([] : Bytes) 0 data = data := by
    unfold Span.writeFill
    split
    next hnil => exact hnil.symm
    next => simp [Span.write]
  have hidx : ((recordsAt data h).set i { r with size := repl.length }).idxOf
      { r with size := repl.length } = i := by
    apply idxOf_set_target _ ht.record
    intro j hj hji
    have := ht.imageType_ne hj hji
    rw [← ht.imageType_eq] at this
    simpa using this
  unfold writeImage replaced
  simp only [FileObj.write, FileObj.seek, hstart, hidx]
  by_cases hzero : t = 0
  · rw [if_neg (by simpa using fun hr => (htype.mp hr) hzero), if_pos hzero]
    rfl
  · have hlen : repl.length < 2 ^ 32 := hpack.resolve_left hzero
    rw [if_pos (htype.mpr hzero), if_neg hzero, packI, if_pos hlen]
    rfl

/-- A length that does not fit the `Size` field raises, after the other writes. -/
theorem writeImage_error (records : List Record) (h i : Nat) {r : Record} (data : Bytes)
    {repl : Bytes} (htype : r.imageType ≠ 0) (hlen : ¬ repl.length < 2 ^ 32) :
    (writeImage h records i r data repl).1 = .error .structError := by
  unfold writeImage
  simp only [htype, ne_eq, not_false_eq_true, if_true, packI, if_neg hlen]

/-- The table a run on a file with a target works on. -/
theorem findTable_of_isTarget {Path : Type} {files : Files Path} {inFile : Path} {data : Bytes}
    {t : Int} {h i : Nat} {r : Record} (hin : files inFile = some data)
    (ht : IsTarget data t h i r) :
    findTable files inFile headerOffsets = .ok (some (h, tableAt data h)) := by
  have hheader := ht.header
  unfold headerOffset? at hheader
  rw [findTable_eq hin, hheader]
  exact if_neg (Nat.not_lt.mpr ht.complete)

/-- On a file with a target the run gets to the writes. -/
theorem replaceImage_of_isTarget {Path : Type} [DecidableEq Path] {files : Files Path}
    {inFile reFile : Path} (outFile : Path) {data repl : Bytes} {t : Int} {h i : Nat} {r : Record}
    (hin : files inFile = some data) (hre : files reFile = some repl)
    (ht : IsTarget data t h i r) :
    replaceImage files inFile reFile t outFile =
      ((writeImage h (recordsAt data h) i r data repl).1,
        Function.update files outFile
          (some (writeImage h (recordsAt data h) i r data repl).2)) := by
  have htable := findTable_of_isTarget hin ht
  have hindex : (tableAt data h).records.findIdx?
      (fun r => decide ((r.imageType : Int) = t)) = some i := ht.index
  have hrecord : (tableAt data h).records.getD i ecRecord = r := by
    rw [List.getD_eq_getElem?_getD]
    show (recordsAt data h)[i]?.getD ecRecord = r
    rw [ht.record]
    rfl
  unfold replaceImage
  simp only [htable, hindex, hrecord, hin, hre]
  rfl

/-- On a file with a target the run completes and the output is `replaced`. -/
theorem replaceImage_eq {Path : Type} [DecidableEq Path] {files : Files Path}
    {inFile reFile : Path} (outFile : Path) {data repl : Bytes} {t : Int} {h i : Nat} {r : Record}
    (hin : files inFile = some data) (hre : files reFile = some repl)
    (ht : IsTarget data t h i r) (hpack : t = 0 ∨ repl.length < 2 ^ 32) :
    replaceImage files inFile reFile t outFile =
      (.ok (), Function.update files outFile (some (replaced data t h i r repl))) := by
  rw [replaceImage_of_isTarget outFile hin hre ht, writeImage_eq ht hpack]

end FlashImage
