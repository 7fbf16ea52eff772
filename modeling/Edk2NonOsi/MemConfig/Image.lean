-- SUMMARY: The image `MemConfigBinTool.c` writes, in closed form, for a list that fits the 8-bit block count and the 16-bit offsets.
import Edk2NonOsi.MemConfig.Positions

namespace MemConfig

-- ---------------------------------------------------------------------------
-- Header
-- ---------------------------------------------------------------------------

/-- The count keeps the low eight bits. -/
theorem toNat_blockCount (n : Nat) : (initHeader n).blockCount.toNat = n % 256 :=
  UInt8.toNat_ofNat'

/-- The tool sizes the table by the 8-bit block count of the header. -/
theorem blockTableSize_eq_mod (n : Nat) : blockTableSize n = tableRoom (n % 256) := by
  rw [blockTableSize, size16BAlign_eq, toNat_blockCount, MemConfigBlockTableEntry.layout_size,
    Nat.mul_comm, tableRoom]

theorem blockTableSize_eq {n : Nat} (h : n < 256) : blockTableSize n = tableRoom n := by
  rw [blockTableSize_eq_mod, Nat.mod_eq_of_lt h]

/-- The first pass stays in the table exactly when the count is exact. -/
theorem tableWrites_iff (n : Nat) :
    (∀ index < n, 4 * index + 4 ≤ blockTableSize n) ↔ n ≤ 255 := by
  constructor
  · intro h
    by_contra hlong
    have hlast := h (n - 1) (by omega)
    have hup := Nat.mod_lt (4 * (n % 256) + 15) (by decide : 0 < 16)
    rw [blockTableSize_eq_mod, tableRoom, Packing.alignUp] at hlast
    omega
  · intro h index hindex
    have hroom := le_tableRoom n
    rw [blockTableSize_eq (by omega)]
    omega

/-- `CdcbHeader` as it is written. -/
def finalHeader (n : Nat) (totalSize : UInt16) : MemConfigHeader :=
  { initHeader n with
    totalSize := totalSize
    headerCheckSum :=
      ~~~ byteSum (MemConfigHeader.layout.enc { initHeader n with totalSize := totalSize }) }

theorem finishHeader_eq (n : Nat) (totalSize : UInt16) :
    finishHeader n totalSize = .ok (finalHeader n totalSize) := by
  have hsize : (initHeader n).headerSize.toNat = MemConfigHeader.layout.size := by
    rw [initHeader]
    dsimp only
    rw [MemConfigHeader.layout_size]
    rfl
  have hlen := MemConfigHeader.layout.length_enc { initHeader n with totalSize := totalSize }
  unfold finishHeader genCheckSum
  dsimp only
  rw [hsize, C.load_of_le (by rw [hlen]; omega), ← hlen, Span.read_all]
  rfl

/-- The three copies in front of the second loop. -/
theorem startImage_eq (quick : MemQuickConfig) (header : MemConfigHeader) (table : Bytes)
    (h : 64 + table.length ≤ header.totalSize.toNat) :
    startImage quick header table =
      .ok ⟨MemQuickConfig.layout.enc quick ++ MemConfigHeader.layout.enc header ++ table ++
          List.replicate (header.totalSize.toNat - (64 + table.length)) 0,
        UInt16.ofNat (96 + table.length), 0⟩ := by
  have hquick := MemQuickConfig.length_enc quick
  have hheader := MemConfigHeader.length_enc header
  have hfirst := C.memcpy_fill [] (MemQuickConfig.layout.enc quick) 0 hquick.symm
    (m := 32 + header.totalSize.toNat) (by omega)
  have hsecond := C.memcpy_fill (MemQuickConfig.layout.enc quick)
    (MemConfigHeader.layout.enc header) 0 hheader.symm
    (m := 32 + header.totalSize.toNat - 32) (by omega)
  have hthird := C.memcpy_fill
    (MemQuickConfig.layout.enc quick ++ MemConfigHeader.layout.enc header) table 0 rfl
    (m := 32 + header.totalSize.toNat - 32 - 64) (by omega)
  have hfront : (MemQuickConfig.layout.enc quick ++ MemConfigHeader.layout.enc header).length =
      96 := by
    rw [List.length_append]
    omega
  rw [hquick, List.nil_append, List.nil_append, List.length_nil] at hfirst
  rw [hquick, hheader] at hsecond
  rw [hfront] at hthird
  have h32 : (UInt16.ofNat 32).toNat = 32 := rfl
  have h96 : (UInt16.ofNat 32 + UInt16.ofNat 64).toNat = 96 := rfl
  have hleft : 32 + header.totalSize.toNat - 32 - 64 - table.length =
      header.totalSize.toNat - (64 + table.length) := by omega
  unfold startImage
  rw [MemQuickConfig.layout_size, MemConfigHeader.layout_size]
  dsimp only
  rw [hfirst, C.ok_bind, h32, hsecond, C.ok_bind, h96,
    hthird, C.ok_bind, hleft, UInt16.ofNat_add]
  rfl

-- ---------------------------------------------------------------------------
-- Table and front
-- ---------------------------------------------------------------------------

variable {Ptr : Type} {heap : Ptr → Bytes} {entries : List (CdcbBlockEntry Ptr)}

/-- The block table as it is written. -/
def tableBytes (heap : Ptr → Bytes) (entries : List (CdcbBlockEntry Ptr)) : Bytes :=
  entryBytes (tableEntries heap entries (UInt16.ofNat (blockStart heap entries 0))) ++
    List.replicate (tableRoom entries.length - 4 * entries.length) 0

/-- The header as it is written. -/
def writtenHeader (heap : Ptr → Bytes) (entries : List (CdcbBlockEntry Ptr)) : MemConfigHeader :=
  finalHeader entries.length (UInt16.ofNat (packedSize heap entries))

/-- The image up to the first block. -/
def front (quick : MemQuickConfig) (heap : Ptr → Bytes) (entries : List (CdcbBlockEntry Ptr)) :
    Bytes :=
  MemQuickConfig.layout.enc quick ++
    MemConfigHeader.layout.enc (writtenHeader heap entries) ++
    tableBytes heap entries

@[simp] theorem length_tableEntries (heap : Ptr → Bytes) (entries : List (CdcbBlockEntry Ptr))
    (offset : UInt16) : (tableEntries heap entries offset).length = entries.length := by
  induction entries generalizing offset with
  | nil => rfl
  | cons e rest ih => rw [tableEntries, List.length_cons, ih, List.length_cons]

/-- Entry `i` of the table. -/
theorem getElem?_tableEntries (heap : Ptr → Bytes) (entries : List (CdcbBlockEntry Ptr))
    (base i : Nat) :
    (tableEntries heap entries (UInt16.ofNat base))[i]? =
      entries[i]?.map fun e =>
        ⟨e.guid, UInt16.ofNat (base + Packing.start 16 (sizes heap entries) i)⟩ := by
  induction entries generalizing base i with
  | nil => rfl
  | cons e rest ih =>
    rw [tableEntries, ← UInt16.ofNat_add]
    cases i with
    | zero => rfl
    | succ i =>
      rw [List.getElem?_cons_succ, List.getElem?_cons_succ, ih, sizes, sizes, List.map_cons,
        Packing.start_cons_succ, Nat.add_assoc]

theorem read_entryBytes (es : List MemConfigBlockTableEntry) (rest : Bytes) {i : Nat}
    {e : MemConfigBlockTableEntry} (he : es[i]? = some e) :
    Span.read (entryBytes es ++ rest) (4 * i) 4 = MemConfigBlockTableEntry.layout.enc e := by
  induction es generalizing i with
  | nil => cases he
  | cons d ds ih =>
    have hcons : entryBytes (d :: ds) ++ rest =
        MemConfigBlockTableEntry.layout.enc d ++ (entryBytes ds ++ rest) := by
      rw [← List.append_assoc]
      rfl
    rw [hcons]
    cases i with
    | zero =>
      obtain rfl := Option.some.inj he
      have hread := Span.read_append_self [] (MemConfigBlockTableEntry.layout.enc d)
        (entryBytes ds ++ rest)
      rw [MemConfigBlockTableEntry.length_enc] at hread
      exact hread
    | succ i =>
      have hright := Span.read_append_right (MemConfigBlockTableEntry.layout.enc d)
        (entryBytes ds ++ rest) (4 * i) 4
      have hpos : 4 * (i + 1) = 4 + 4 * i := by omega
      rw [MemConfigBlockTableEntry.length_enc] at hright
      rw [hpos, hright]
      exact ih he

/-- Entry `i` of the table holds block `i`'s GUID and start. -/
theorem read_tableBytes (heap : Ptr → Bytes) {i : Nat} (hi : i < entries.length) (rest : Bytes) :
    Span.read (tableBytes heap entries ++ rest) (4 * i) 4 =
      MemConfigBlockTableEntry.layout.enc
        ⟨entries[i].guid, UInt16.ofNat (blockStart heap entries i)⟩ := by
  have hentry : (tableEntries heap entries (UInt16.ofNat (blockStart heap entries 0)))[i]? =
      some ⟨entries[i].guid, UInt16.ofNat (blockStart heap entries i)⟩ := by
    rw [getElem?_tableEntries, List.getElem?_eq_getElem hi]
    rfl
  rw [tableBytes, List.append_assoc, read_entryBytes _ _ hentry]

theorem length_tableBytes (heap : Ptr → Bytes) (entries : List (CdcbBlockEntry Ptr)) :
    (tableBytes heap entries).length = tableRoom entries.length := by
  have hroom := le_tableRoom entries.length
  rw [tableBytes, List.length_append, length_entryBytes, length_tableEntries,
    List.length_replicate]
  omega

theorem length_front (quick : MemQuickConfig) (heap : Ptr → Bytes)
    (entries : List (CdcbBlockEntry Ptr)) :
    (front quick heap entries).length = 32 + blockStart heap entries 0 := by
  rw [front, List.length_append, List.length_append, MemQuickConfig.length_enc,
    MemConfigHeader.length_enc, length_tableBytes, blockStart_zero, Nat.add_assoc]

/-- The store of `FeatHash` into the finished image. -/
theorem memcpy_featHash (quick : MemQuickConfig) (heap : Ptr → Bytes)
    (entries : List (CdcbBlockEntry Ptr)) (rest : Bytes) (hash : UInt32) :
    C.memcpy (front quick heap entries ++ rest) MemQuickConfig.featHashField.offset
      (Layout.u32.enc hash) 4 =
        .ok (front { quick with featHash := hash } heap entries ++ rest) := by
  rw [front, List.append_assoc, List.append_assoc]
  have hstore := C.memcpy_field_append MemQuickConfig.featHashField quick hash
    (MemConfigHeader.layout.enc (writtenHeader heap entries) ++
        (tableBytes heap entries ++ rest))
  rw [MemQuickConfig.featHashField_set] at hstore
  rw [front, List.append_assoc, List.append_assoc]
  exact hstore

/-- `TotalSize` is exact. -/
theorem TableFits.totalSize_writtenHeader (h : TableFits heap entries) :
    (writtenHeader heap entries).totalSize.toNat = packedSize heap entries :=
  h.toNat_packedSize

/-- What the second pass of `main` starts from. -/
theorem TableFits.startImage_eq (h : TableFits heap entries) (quick : MemQuickConfig) :
    startImage quick (writtenHeader heap entries) (tableBytes heap entries) =
        .ok ⟨front quick heap entries ++
            List.replicate (Packing.extent 16 (sizes heap entries)) 0,
          UInt16.ofNat (front quick heap entries).length, 0⟩ := by
  have hheader := h.totalSize_writtenHeader
  have hlen := length_tableBytes heap entries
  have hroom : 64 + (tableBytes heap entries).length ≤ packedSize heap entries := by
    rw [hlen, packedSize]
    omega
  have hleft : packedSize heap entries - (64 + tableRoom entries.length) =
      Packing.extent 16 (sizes heap entries) := by
    rw [packedSize]
    omega
  have hstart : 96 + tableRoom entries.length = 32 + blockStart heap entries 0 := by
    rw [blockStart_zero]
    omega
  rw [MemConfig.startImage_eq _ _ _ (by rw [hheader]; exact hroom), hheader, hlen, hleft, hstart,
    length_front, front]

variable [DecidableEq Ptr]

/-- The quick config as it is written. -/
def writtenQuick (quick : MemQuickConfig) (heap : Ptr → Bytes)
    (entries : List (CdcbBlockEntry Ptr)) : MemQuickConfig :=
  { quick with featHash := featHashAfter (sealedHeap heap entries) entries 0 }

/-- The image as it is written. -/
def image (quick : MemQuickConfig) (heap : Ptr → Bytes) (entries : List (CdcbBlockEntry Ptr)) :
    Bytes :=
  front (writtenQuick quick heap entries) heap entries ++
    Packing.pack 16 0 (blocks (sealedHeap heap entries) entries)

theorem sealedHeap_readable (h : ∀ e ∈ entries, Readable (heap e.ptr)) :
    ∀ e ∈ entries, Readable (sealedHeap heap entries e.ptr) := by
  intro e he
  rw [sealedHeap_of_mem heap he]
  exact (h e he).sealed

theorem sizes_sealedHeap (heap : Ptr → Bytes) (entries : List (CdcbBlockEntry Ptr)) :
    sizes (sealedHeap heap entries) entries = sizes heap entries :=
  sizes_congr entries (blockSize_sealedHeap heap entries)

/-- The first pass of `main`. -/
theorem TableFits.firstPass_eq (h : TableFits heap entries) :
    firstPass entries 0 ⟨heap, List.replicate (blockTableSize entries.length) 0,
      UInt16.ofNat (MemConfigHeader.layout.size + blockTableSize entries.length)⟩ =
        .ok (some ⟨sealedHeap heap entries, tableBytes heap entries,
          UInt16.ofNat (packedSize heap entries)⟩) := by
  have hroom := le_tableRoom entries.length
  rw [blockTableSize_eq h.count, MemConfigHeader.layout_size,
    ← List.nil_append (List.replicate _ _),
    MemConfig.firstPass_eq entries _ h.guid h.readable List.length_nil hroom, ← UInt16.ofNat_add]
  rfl

/-- The second pass of `main`, up to any block. -/
theorem TableFits.secondPass_take_eq (h : TableFits heap entries) (quick : MemQuickConfig) {i : Nat}
    (hstarts : ∀ k < i, k < entries.length → 32 + blockStart heap entries k < 65536) :
    secondPass (sealedHeap heap entries) (entries.take i)
      ⟨front quick heap entries ++ List.replicate (Packing.extent 16 (sizes heap entries)) 0,
        UInt16.ofNat (front quick heap entries).length, 0⟩ =
      .ok ⟨front quick heap entries ++
          Packing.pack 16 0 (blocks (sealedHeap heap entries) (entries.take i)) ++
          List.replicate (Packing.extent 16 (sizes heap entries) -
            Packing.start 16 (sizes heap entries) i) 0,
        UInt16.ofNat (32 + blockStart heap entries i),
        featHashAfter (sealedHeap heap entries) (entries.take i) 0⟩ := by
  have hsizes : sizes (sealedHeap heap entries) (entries.take i) = (sizes heap entries).take i := by
    rw [← sizes_sealedHeap heap entries, sizes, sizes, List.map_take]
  have hread : ∀ e ∈ entries.take i, Readable (sealedHeap heap entries e.ptr) :=
    fun e he => sealedHeap_readable h.readable e (List.mem_of_mem_take he)
  have hlen := length_front quick heap entries
  have hstart : ∀ k < (entries.take i).length, (front quick heap entries).length +
      Packing.start 16 (sizes (sealedHeap heap entries) (entries.take i)) k < 65536 := by
    intro k hk
    rw [List.length_take] at hk
    have hk' := hstarts k (by omega) (by omega)
    rw [hsizes, Packing.start_take 16 _ (by omega), hlen, Nat.add_assoc, ← blockStart_eq_add]
    exact hk'
  have hextent : Packing.extent 16 ((sizes heap entries).take i) =
      Packing.start 16 (sizes heap entries) i := rfl
  have hle := Packing.start_le_extent 16 (sizes heap entries) i
  rw [secondPass_eq hread 0 hstart (by rw [hsizes, hextent]; exact hle), hsizes, hextent, hlen,
    Nat.add_assoc, ← blockStart_eq_add]

/-- `main` on a list that fits. -/
theorem main_eq (h : Fits heap entries) (quick : MemQuickConfig) :
    main quick heap entries = .ok (.written (image quick heap entries)) := by
  have hcopy := h.secondPass_take_eq quick (i := entries.length) fun k hk _ => h.starts k hk
  rw [List.take_length] at hcopy
  have hend := Packing.start_length 16 (sizes heap entries)
  rw [length_sizes] at hend
  rw [hend, Nat.sub_self, List.replicate_zero, List.append_nil] at hcopy
  unfold main
  dsimp only
  rw [h.firstPass_eq, C.ok_bind]
  dsimp only
  rw [finishHeader_eq, C.ok_bind, ← writtenHeader, h.startImage_eq quick, C.ok_bind, hcopy,
    C.ok_bind, memcpy_featHash, C.ok_bind, image]
  rfl

-- ---------------------------------------------------------------------------
-- Reading the image
-- ---------------------------------------------------------------------------

theorem length_image (h : ∀ e ∈ entries, Readable (heap e.ptr)) (quick : MemQuickConfig) :
    (image quick heap entries).length = 32 + packedSize heap entries := by
  rw [image, List.length_append, length_front, Packing.length_pack (by decide),
    length_blocks (sealedHeap_readable h), sizes_sealedHeap, blockStart_zero, Nat.add_assoc,
    packedSize]

theorem read_image_quick (quick : MemQuickConfig) (heap : Ptr → Bytes)
    (entries : List (CdcbBlockEntry Ptr)) :
    Span.read (image quick heap entries) 0 32 =
      MemQuickConfig.layout.enc (writtenQuick quick heap entries) := by
  have hread := Span.read_append_self []
    (MemQuickConfig.layout.enc (writtenQuick quick heap entries))
    (MemConfigHeader.layout.enc (writtenHeader heap entries) ++
      (tableBytes heap entries ++ Packing.pack 16 0 (blocks (sealedHeap heap entries) entries)))
  rw [MemQuickConfig.length_enc] at hread
  rw [image, front, List.append_assoc, List.append_assoc]
  exact hread

theorem read_image_header (quick : MemQuickConfig) (heap : Ptr → Bytes)
    (entries : List (CdcbBlockEntry Ptr)) :
    Span.read (image quick heap entries) 32 64 =
      MemConfigHeader.layout.enc (writtenHeader heap entries) := by
  have hread := Span.read_append_self
    (MemQuickConfig.layout.enc (writtenQuick quick heap entries))
    (MemConfigHeader.layout.enc (writtenHeader heap entries))
    (tableBytes heap entries ++ Packing.pack 16 0 (blocks (sealedHeap heap entries) entries))
  rw [MemQuickConfig.length_enc, MemConfigHeader.length_enc] at hread
  rw [image, front, List.append_assoc]
  exact hread

/-- Entry `i` of the table in the image. -/
theorem read_image_entry (quick : MemQuickConfig) {i : Nat} (hi : i < entries.length) :
    Span.read (image quick heap entries) (96 + 4 * i) 4 =
      MemConfigBlockTableEntry.layout.enc
        ⟨entries[i].guid, UInt16.ofNat (blockStart heap entries i)⟩ := by
  have hright := Span.read_append_right
    (MemQuickConfig.layout.enc (writtenQuick quick heap entries) ++
      MemConfigHeader.layout.enc (writtenHeader heap entries))
    (tableBytes heap entries ++ Packing.pack 16 0 (blocks (sealedHeap heap entries) entries))
    (4 * i) 4
  rw [List.length_append, MemQuickConfig.length_enc, MemConfigHeader.length_enc] at hright
  rw [image, front, List.append_assoc, hright, read_tableBytes heap hi]

/-- Block `i` reads back where it starts, as it was copied. -/
theorem read_image_block (h : ∀ e ∈ entries, Readable (heap e.ptr)) (quick : MemQuickConfig)
    {i : Nat} (hi : i < entries.length) :
    Span.read (image quick heap entries) (32 + blockStart heap entries i)
      (blockSize (heap entries[i].ptr)) = blockBytes (sealed (heap entries[i].ptr)) := by
  have hblock : i < (blocks (sealedHeap heap entries) entries).length := by
    rw [blocks, List.length_map]
    exact hi
  have hget : (blocks (sealedHeap heap entries) entries)[i] =
      blockBytes (sealed (heap entries[i].ptr)) := by
    rw [getElem_blocks hblock hi, sealedHeap_of_mem heap (List.getElem_mem hi)]
  have hlen : (blocks (sealedHeap heap entries) entries)[i].length =
      blockSize (heap entries[i].ptr) := by
    rw [hget, length_blockBytes (h _ (List.getElem_mem hi)).sealed, blockSize_sealed]
  have hread := Packing.read_pack (by decide : 0 < 16) (0 : UInt8) hblock
  rw [length_blocks (sealedHeap_readable h), sizes_sealedHeap, hlen, hget] at hread
  rw [image, blockStart_eq_add, ← Nat.add_assoc,
    ← length_front (writtenQuick quick heap entries) heap entries, Span.read_append_right]
  exact hread

end MemConfig
