-- SUMMARY: `parse_binary_file` on the output of `replace_image`: the same header and table, with the `Size` of the target brought up to date.
import Edk2NonOsi.FlashImage.Frame

open Python

namespace FlashImage

/-- The positions a replacement that fits may change: the slot, and the `Size`
    field unless the image is the EC one. -/
def touched (t : Int) (h i : Nat) (r : Record) : Set Nat :=
  if t = 0 then slot r else slot r ∪ Set.Ico (sizeOffset h i) (sizeOffset h i + 4)

/-- The records of the output. -/
def syncedRecords (data : Bytes) (t : Int) (h i : Nat) (r : Record) (n : Nat) : List Record :=
  if t = 0 then recordsAt data h else (recordsAt data h).set i { r with size := n }

/-- The table of the output. -/
def syncedTable (data : Bytes) (t : Int) (h i : Nat) (r : Record) (n : Nat) : Table :=
  { tableAt data h with records := syncedRecords data t h i r n }

/-- The slot of `r` overlaps neither the header and table at `h` nor the magic at
    the first of the two header offsets. -/
structure SlotApart (data : Bytes) (h : Nat) (r : Record) : Prop where
  table : Disjoint (slot r) (Set.Ico h (tableEnd data h))
  firstMagic : Disjoint (slot r) (Set.Ico 0x100000 0x100004)

-- ---------------------------------------------------------------------------
-- The bytes of the output
-- ---------------------------------------------------------------------------

/-- A `Size` of the file is a 32-bit number. -/
theorem wordAt_lt {data : Bytes} {pos : Nat} : wordAt data pos < 2 ^ 32 := by
  have hlt := LittleEndian.toNat_lt (Span.read data pos 4)
  have hlen : (Span.read data pos 4).length ≤ 4 := by
    rw [Span.length_read]
    omega
  calc wordAt data pos < 256 ^ (Span.read data pos 4).length := hlt
    _ ≤ 256 ^ 4 := Nat.pow_le_pow_right (by decide) hlen

namespace IsTarget

variable {data repl : Bytes} {t : Int} {h i : Nat} {r : Record}

theorem size_lt (ht : IsTarget data t h i r) : r.size < 2 ^ 32 := by
  by_cases hi : i < countAt data h
  · rw [ht.record_eq_recordAt hi]
    exact wordAt_lt
  · obtain ⟨hlt, -⟩ := ht.getElem_eq
    rw [length_recordsAt] at hlt
    have hr := ht.record
    rw [show i = countAt data h by omega, getElem?_recordsAt_count] at hr
    rw [← Option.some.inj hr]
    decide

/-- A replacement that fits changes touched positions only, and not the length. -/
theorem replaced_touched (ht : IsTarget data t h i r) (hslot : SlotInside data r)
    (hfit : repl.length ≤ r.size) :
    Span.AgreeOff (touched t h i r) (replaced data t h i r repl) data ∧
      (replaced data t h i r repl).length = data.length := by
  have hinside : repl = [] ∨ r.offset + repl.length ≤ data.length := by
    obtain hempty | hle := hslot.empty_or_le
    · left
      exact List.length_eq_zero_iff.mp (by omega)
    · right
      omega
  obtain ⟨hover, hlen⟩ := overwritten_agreeOff hslot hinside
  have hspan : Set.Ico r.offset (r.offset + repl.length) ∪ slot r = slot r :=
    Set.union_eq_self_of_subset_left (Set.Ico_subset_Ico_right (by omega))
  rw [hspan] at hover
  unfold replaced touched
  split
  next => exact ⟨hover, hlen⟩
  next hne =>
    have hend := ht.sizeOffset_le (ht.index_lt hne)
    rw [Span.writeFill_eq_write (by omega)]
    constructor
    · have hsync := Span.write_agreeOff (LittleEndian.ofNat 4 repl.length)
        (show sizeOffset h i ≤ (overwritten data r repl).length by omega)
      rw [LittleEndian.length_ofNat] at hsync
      exact (hsync.trans hover).mono (Set.union_comm _ _).subset
    · rw [Span.length_write_of_le, hlen]
      rw [LittleEndian.length_ofNat]
      omega

end IsTarget

theorem read_slot_overwritten {data repl : Bytes} {r : Record} (hslot : SlotInside data r)
    (hfit : repl.length ≤ r.size) :
    Span.read (overwritten data r repl) r.offset r.size =
      repl ++ List.replicate (r.size - repl.length) 0xFF := by
  obtain hsize | hend := hslot.empty_or_le
  · have hnil : repl = [] := List.length_eq_zero_iff.mp (by omega)
    subst hnil
    simp [Span.read, hsize]
  · have herased : (List.replicate r.size (0xFF : UInt8)).length = r.size := List.length_replicate
    rw [overwritten, Span.writeFill_eq_write (by omega : r.offset ≤ data.length),
      Span.writeFill_eq_write (by rw [Span.length_write_of_le] <;> omega),
      Span.read_write_prefix (by rw [Span.length_write_of_le] <;> omega) hfit]
    have hrest : Span.read (Span.write data r.offset (List.replicate r.size 0xFF)) r.offset
        (List.replicate r.size (0xFF : UInt8)).length = List.replicate r.size 0xFF :=
      Span.read_write_self (by omega)
    rw [herased] at hrest
    rw [← Span.read_read (show repl.length + (r.size - repl.length) ≤ r.size by omega), hrest,
      Span.read_replicate (by omega)]

/-- A word off the slot and off the `Size` field is not touched. -/
theorem disjoint_touched {t : Int} {h i : Nat} {r : Record} {pos : Nat}
    (hslot : Disjoint (slot r) (Set.Ico pos (pos + 4)))
    (hsize : t = 0 ∨ pos + 4 ≤ sizeOffset h i ∨ sizeOffset h i + 4 ≤ pos) :
    Disjoint (Set.Ico pos (pos + 4)) (touched t h i r) := by
  unfold touched
  split
  next => exact hslot.symm
  next hne =>
    rw [Set.disjoint_union_right]
    refine ⟨hslot.symm, ?_⟩
    rw [Set.disjoint_left]
    intro p hp hp'
    rw [Set.mem_Ico] at hp hp'
    omega

theorem SlotApart.disjoint {data : Bytes} {h : Nat} {r : Record} (hapart : SlotApart data h r)
    {pos : Nat} (hpos : h ≤ pos) (hend : pos + 4 ≤ tableEnd data h) :
    Disjoint (slot r) (Set.Ico pos (pos + 4)) :=
  hapart.table.mono_right (Set.Ico_subset_Ico hpos hend)

-- ---------------------------------------------------------------------------
-- The header of the output
-- ---------------------------------------------------------------------------

theorem headerOffset?_eq_some_iff (data : Bytes) (h : Nat) :
    headerOffset? data = some h ↔
      Span.read data h 4 = magic ∧
        (h = 0x100000 ∨ (h = 0x200000 ∧ Span.read data 0x100000 4 ≠ magic)) := by
  unfold headerOffset? headerOffsets
  by_cases hfirst : Span.read data 0x100000 4 = magic
  · rw [List.find?_cons_of_pos (by simpa using hfirst)]
    constructor
    · rintro ⟨⟩
      exact ⟨hfirst, Or.inl rfl⟩
    · rintro ⟨-, rfl | ⟨-, hne⟩⟩
      · rfl
      · exact (hne hfirst).elim
  · rw [List.find?_cons_of_neg (by simpa using hfirst)]
    by_cases hsecond : Span.read data 0x200000 4 = magic
    · rw [List.find?_cons_of_pos (by simpa using hsecond)]
      constructor
      · rintro ⟨⟩
        exact ⟨hsecond, Or.inr ⟨rfl, hfirst⟩⟩
      · rintro ⟨hmagic, rfl | ⟨rfl, -⟩⟩
        · exact (hfirst hmagic).elim
        · rfl
    · rw [List.find?_cons_of_neg (by simpa using hsecond)]
      constructor
      · rintro ⟨⟩
      · rintro ⟨hmagic, rfl | ⟨rfl, -⟩⟩
        · exact (hfirst hmagic).elim
        · exact (hsecond hmagic).elim

section Output

variable {data repl : Bytes} {t : Int} {h i : Nat} {r : Record}

/-- What the run leaves of the words in front of the table and in it. -/
theorem read_replaced (ht : IsTarget data t h i r) (hslot : SlotInside data r)
    (hapart : SlotApart data h r) (hfit : repl.length ≤ r.size) {pos : Nat} (hpos : h ≤ pos)
    (hend : pos + 4 ≤ tableEnd data h)
    (hsize : t = 0 ∨ pos + 4 ≤ sizeOffset h i ∨ sizeOffset h i + 4 ≤ pos) :
    Span.read (replaced data t h i r repl) pos 4 = Span.read data pos 4 :=
  (ht.replaced_touched hslot hfit).1.read_eq
    (disjoint_touched (hapart.disjoint hpos hend) hsize)

theorem wordAt_replaced (ht : IsTarget data t h i r) (hslot : SlotInside data r)
    (hapart : SlotApart data h r) (hfit : repl.length ≤ r.size) {pos : Nat} (hpos : h ≤ pos)
    (hend : pos + 4 ≤ tableEnd data h)
    (hsize : t = 0 ∨ pos + 4 ≤ sizeOffset h i ∨ sizeOffset h i + 4 ≤ pos) :
    wordAt (replaced data t h i r repl) pos = wordAt data pos := by
  rw [wordAt, read_replaced ht hslot hapart hfit hpos hend hsize, wordAt]

/-- A word of the header in front of the table. -/
theorem wordAt_replaced_header (ht : IsTarget data t h i r) (hslot : SlotInside data r)
    (hapart : SlotApart data h r) (hfit : repl.length ≤ r.size) {p : Nat} (hp : p + 4 ≤ 16) :
    wordAt (replaced data t h i r repl) (h + p) = wordAt data (h + p) := by
  apply wordAt_replaced ht hslot hapart hfit
  · omega
  · rw [tableEnd]
    omega
  · right
    left
    rw [sizeOffset]
    omega

/-- The header is found where it was. -/
theorem headerOffset?_replaced (ht : IsTarget data t h i r) (hslot : SlotInside data r)
    (hapart : SlotApart data h r) (hfit : repl.length ≤ r.size) :
    headerOffset? (replaced data t h i r repl) = some h := by
  obtain ⟨hmagic, hwhich⟩ := (headerOffset?_eq_some_iff data h).mp ht.header
  rw [headerOffset?_eq_some_iff]
  constructor
  · rw [read_replaced ht hslot hapart hfit (Nat.le_refl h) (by rw [tableEnd]; omega)
      (Or.inr (Or.inl (by rw [sizeOffset]; omega)))]
    exact hmagic
  · refine hwhich.imp_right ?_
    rintro ⟨hh, hfirst⟩
    refine ⟨hh, ?_⟩
    have hread : Span.read (replaced data t h i r repl) 0x100000 4 = Span.read data 0x100000 4 := by
      apply (ht.replaced_touched hslot hfit).1.read_eq
      apply disjoint_touched hapart.firstMagic
      right
      left
      rw [sizeOffset]
      omega
    rw [hread]
    exact hfirst

theorem countAt_replaced (ht : IsTarget data t h i r) (hslot : SlotInside data r)
    (hapart : SlotApart data h r) (hfit : repl.length ≤ r.size) :
    countAt (replaced data t h i r repl) h = countAt data h :=
  wordAt_replaced_header ht hslot hapart hfit (by decide)

-- ---------------------------------------------------------------------------
-- The records of the output
-- ---------------------------------------------------------------------------

/-- An entry that is not the synchronised one reads as before. -/
theorem recordAt_replaced (ht : IsTarget data t h i r) (hslot : SlotInside data r)
    (hapart : SlotApart data h r) (hfit : repl.length ≤ r.size) {j : Nat}
    (hj : j < countAt data h) (hne : t = 0 ∨ j ≠ i) :
    recordAt (replaced data t h i r repl) (h + 16 + 16 * j) =
      recordAt data (h + 16 + 16 * j) := by
  have hword (p : Nat) (hp : p + 4 ≤ 16) :
      wordAt (replaced data t h i r repl) (h + 16 + 16 * j + p) =
        wordAt data (h + 16 + 16 * j + p) := by
    apply wordAt_replaced ht hslot hapart hfit
    · omega
    · rw [tableEnd]
      omega
    · rw [sizeOffset]
      omega
  have hzero := hword 0 (by decide)
  rw [Nat.add_zero] at hzero
  rw [recordAt, recordAt, hzero, hword 4 (by decide), hword 8 (by decide), hword 12 (by decide)]

/-- The entry of the target reads as before but for its `Size`. -/
theorem recordAt_replaced_target (ht : IsTarget data t h i r) (hslot : SlotInside data r)
    (hapart : SlotApart data h r) (hfit : repl.length ≤ r.size) (hne : t ≠ 0) :
    recordAt (replaced data t h i r repl) (h + 16 + 16 * i) = { r with size := repl.length } := by
  have hi := ht.index_lt hne
  have hword (p : Nat) (hp : p + 4 ≤ 16) (hsize : p + 4 ≤ 8 ∨ 12 ≤ p) :
      wordAt (replaced data t h i r repl) (h + 16 + 16 * i + p) =
        wordAt data (h + 16 + 16 * i + p) := by
    apply wordAt_replaced ht hslot hapart hfit
    · omega
    · rw [tableEnd]
      omega
    · rw [sizeOffset]
      omega
  have hnew : wordAt (replaced data t h i r repl) (h + 16 + 16 * i + 8) = repl.length := by
    have hend := ht.sizeOffset_le hi
    have hover := length_le_overwritten data r repl
    have hread : Span.read (Span.write (overwritten data r repl) (sizeOffset h i)
        (LittleEndian.ofNat 4 repl.length)) (sizeOffset h i)
        (LittleEndian.ofNat 4 repl.length).length = LittleEndian.ofNat 4 repl.length :=
      Span.read_write_self (by omega)
    rw [LittleEndian.length_ofNat] at hread
    rw [wordAt, replaced, if_neg hne, Span.writeFill_eq_write (by omega)]
    rw [show h + 16 + 16 * i + 8 = sizeOffset h i from rfl, hread]
    have hlt := ht.size_lt
    rw [LittleEndian.toNat_ofNat]
    exact Nat.mod_eq_of_lt (by omega)
  have hzero := hword 0 (by decide) (by decide)
  rw [Nat.add_zero] at hzero
  rw [recordAt, hzero, hword 4 (by decide) (by decide), hnew, hword 12 (by decide) (by decide)]
  have hr := ht.record_eq_recordAt hi
  generalize repl.length = n
  rw [hr]
  rfl

theorem recordsAt_replaced (ht : IsTarget data t h i r) (hslot : SlotInside data r)
    (hapart : SlotApart data h r) (hfit : repl.length ≤ r.size) :
    recordsAt (replaced data t h i r repl) h = syncedRecords data t h i r repl.length := by
  have hcount := countAt_replaced ht hslot hapart hfit
  apply List.ext_getElem?
  intro j
  obtain hj | rfl | hj := lt_trichotomy j (countAt data h)
  · -- An entry of the table: the target's or another one.
    rw [getElem?_recordsAt (by rw [hcount]; exact hj)]
    unfold syncedRecords
    split
    next hzero =>
      rw [recordAt_replaced ht hslot hapart hfit hj (Or.inl hzero), getElem?_recordsAt hj]
    next hne =>
      rw [List.getElem?_set]
      split
      next hij =>
        subst hij
        rw [if_pos (by rw [length_recordsAt]; omega),
          recordAt_replaced_target ht hslot hapart hfit hne]
      next hij =>
        rw [recordAt_replaced ht hslot hapart hfit hj (Or.inr (Ne.symm hij)), getElem?_recordsAt hj]
  · -- The EC record, which every table gets.
    have hlast := getElem?_recordsAt_count (replaced data t h i r repl) h
    rw [hcount] at hlast
    rw [hlast]
    unfold syncedRecords
    split
    next => exact (getElem?_recordsAt_count data h).symm
    next hne =>
      have hi := ht.index_lt hne
      rw [List.getElem?_set_ne (by omega), getElem?_recordsAt_count]
  · have hlen : (syncedRecords data t h i r repl.length).length = countAt data h + 1 := by
      unfold syncedRecords
      split
      next => exact length_recordsAt data h
      next => rw [List.length_set, length_recordsAt]
    rw [List.getElem?_eq_none (by rw [length_recordsAt, hcount]; omega),
      List.getElem?_eq_none (by omega)]

theorem tableAt_replaced (ht : IsTarget data t h i r) (hslot : SlotInside data r)
    (hapart : SlotApart data h r) (hfit : repl.length ≤ r.size) :
    tableAt (replaced data t h i r repl) h = syncedTable data t h i r repl.length := by
  rw [tableAt, countAt_replaced ht hslot hapart hfit, recordsAt_replaced ht hslot hapart hfit,
    wordAt_replaced_header ht hslot hapart hfit (by decide),
    wordAt_replaced_header ht hslot hapart hfit (by decide)]
  rfl

theorem tableEnd_replaced (ht : IsTarget data t h i r) (hslot : SlotInside data r)
    (hapart : SlotApart data h r) (hfit : repl.length ≤ r.size) :
    tableEnd (replaced data t h i r repl) h = tableEnd data h := by
  rw [tableEnd, countAt_replaced ht hslot hapart hfit, tableEnd]

/-- The slot of the output: the replacement, then erased flash. -/
theorem read_slot_replaced (ht : IsTarget data t h i r) (hslot : SlotInside data r)
    (hapart : SlotApart data h r) (hfit : repl.length ≤ r.size) :
    Span.read (replaced data t h i r repl) r.offset r.size =
      repl ++ List.replicate (r.size - repl.length) 0xFF := by
  have hsync := (ht.replaced_agreeOff (length_le_overwritten data r repl)).1
  have hfield : Disjoint (slot r) (sizeField data h i) := by
    unfold sizeField
    split
    next hi =>
      apply hapart.disjoint
      · rw [sizeOffset]
        omega
      · rw [sizeOffset, tableEnd]
        omega
    next => exact Set.disjoint_empty _
  rw [hsync.read_eq hfield]
  exact read_slot_overwritten hslot hfit

end Output

/-- **Replace, then parse.** On a file with a target whose slot lies inside the
    file, off the table and off the first magic, a replacement that fits the slot
    leaves a file that parses to the same table but for the `Size` of the target;
    the slot holds the replacement and erased flash, and nothing else changes. -/
theorem replaceImage_reparse {Path : Type} [DecidableEq Path] {files : Files Path}
    {inFile reFile : Path} (outFile : Path) {data repl : Bytes} {t : Int} {h i : Nat} {r : Record}
    (hin : files inFile = some data) (hre : files reFile = some repl)
    (ht : IsTarget data t h i r) (hslot : SlotInside data r) (hapart : SlotApart data h r)
    (hfit : repl.length ≤ r.size) :
    ∃ files' output, replaceImage files inFile reFile t outFile = (.ok (), files') ∧
      files' outFile = some output ∧
      findTable files' outFile headerOffsets =
        .ok (some (h, syncedTable data t h i r repl.length)) ∧
      parseBinaryFile files' outFile h = .ok (some (syncedTable data t h i r repl.length)) ∧
      Span.read output r.offset r.size = repl ++ List.replicate (r.size - repl.length) 0xFF ∧
      output.length = data.length ∧ Span.AgreeOff (touched t h i r) output data := by
  obtain ⟨hagree, hlen⟩ := ht.replaced_touched hslot hfit
  have hrun := replaceImage_eq outFile hin hre ht
    (Or.inr (Nat.lt_of_le_of_lt hfit ht.size_lt))
  have hout : Function.update files outFile (some (replaced data t h i r repl)) outFile =
      some (replaced data t h i r repl) := Function.update_self ..
  have hcomplete : ¬ (replaced data t h i r repl).length <
      tableEnd (replaced data t h i r repl) h := by
    rw [tableEnd_replaced ht hslot hapart hfit, hlen]
    exact Nat.not_lt.mpr ht.complete
  have hheader := headerOffset?_replaced ht hslot hapart hfit
  have hmagic := ((headerOffset?_eq_some_iff _ h).mp hheader).1
  unfold headerOffset? at hheader
  refine ⟨_, _, hrun, hout, ?_, ?_, read_slot_replaced ht hslot hapart hfit, hlen, hagree⟩
  · rw [findTable_eq hout, hheader]
    simp only [if_neg hcomplete, tableAt_replaced ht hslot hapart hfit]
  · rw [parseBinaryFile, hout]
    simp only [parseFile_eq, hmagic, ne_eq, not_true_eq_false, if_false, if_neg hcomplete,
      tableAt_replaced ht hslot hapart hfit]

theorem disjoint_slot_oneByteRecord {a : Nat} (b : Nat) (ha : 1 ≤ a) :
    Disjoint (slot oneByteRecord) (Set.Ico a b) := by
  rw [Set.disjoint_left]
  intro p hp hp'
  have hlt : p < 0 + 1 := (Set.mem_Ico.mp hp).2
  have hge := (Set.mem_Ico.mp hp').1
  omega

theorem slotApart_oneByteFlash : SlotApart oneByteFlash 0x100000 oneByteRecord where
  table := disjoint_slot_oneByteRecord _ (by decide)
  firstMagic := disjoint_slot_oneByteRecord _ (by decide)

theorem replaceImage_reparse_one_byte :
    ∃ files' output,
      replaceImage (oneByteFiles [1]) "flash.bin" "sub.bin" 1 "out.bin" = (.ok (), files') ∧
        files' "out.bin" = some output ∧
        findTable files' "out.bin" headerOffsets =
          .ok (some (0x100000, syncedTable oneByteFlash 1 0x100000 0 oneByteRecord 1)) := by
  obtain ⟨files', output, hrun, hout, hfind, -⟩ := replaceImage_reparse "out.bin"
    (oneByteFiles_flash [1]) (oneByteFiles_sub [1]) isTarget_oneByteFlash slotInside_oneByteFlash
    slotApart_oneByteFlash (by decide)
  exact ⟨files', output, hrun, hout, hfind⟩

end FlashImage
