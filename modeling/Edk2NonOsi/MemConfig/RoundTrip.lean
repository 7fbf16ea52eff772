-- SUMMARY: Reading back `memory_config.bin`: a reader of the header, the table and the blocks, and what it recovers from an image the tool wrote.
import Mathlib.Data.List.Forall2
import Edk2NonOsi.MemConfig.Image

namespace MemConfig

-- ---------------------------------------------------------------------------
-- The reader
-- ---------------------------------------------------------------------------

/-- `BLOCK_OFFSET (offset)`. -/
def blockOffset (offset : UInt16) : Nat :=
  MemQuickConfig.layout.size + offset.toNat

/-- A block as it is found in an image. -/
structure FoundBlock where
  guid : UInt16
  pos : Nat
  bytes : Bytes

/-- The positions a found block takes up. -/
def FoundBlock.range (b : FoundBlock) : Set Nat :=
  Set.Ico b.pos (b.pos + b.bytes.length)

def readHeader (img : Bytes) : Except C.Fault MemConfigHeader := do
  let bs ← C.load img MemQuickConfig.layout.size MemConfigHeader.layout.size
  return MemConfigHeader.layout.dec bs

def readEntry (img : Bytes) (header : MemConfigHeader) (i : Nat) :
    Except C.Fault MemConfigBlockTableEntry := do
  let size := MemConfigBlockTableEntry.layout.size
  let bs ← C.load img (blockOffset header.blockTbOffset + size * i) size
  return MemConfigBlockTableEntry.layout.dec bs

/-- The block an entry points to, as long as the block's own header says. -/
def readBlock (img : Bytes) (e : MemConfigBlockTableEntry) : Except C.Fault FoundBlock := do
  let size ← C.load img (blockOffset e.offset + blockSizeOffset) 2
  let bs ← C.load img (blockOffset e.offset) (Layout.u16.dec size).toNat
  return ⟨e.guid, blockOffset e.offset, bs⟩

/-- The blocks of an image, in the order of its table. -/
def readBlocks (img : Bytes) (header : MemConfigHeader) : Except C.Fault (List FoundBlock) :=
  (List.range header.blockCount.toNat).mapM fun i => do
    let e ← readEntry img header i
    readBlock img e

-- ---------------------------------------------------------------------------
-- Lists of headered blocks
-- ---------------------------------------------------------------------------

variable {Ptr : Type}

/-- An object that starts with a `MEM_CONFIG_BLOCK_HEADER` and states its own size. -/
structure Headered (obj : Bytes) : Prop where
  header : MemConfigBlockHeader.layout.size ≤ obj.length
  size : blockSize obj = obj.length

theorem Headered.le_length {obj : Bytes} (h : Headered obj) : 16 ≤ obj.length := by
  have hsize : MemConfigBlockHeader.layout.size = 16 := by decide +kernel
  rw [← hsize]
  exact h.header

theorem Headered.readable {obj : Bytes} (h : Headered obj) : Readable obj where
  header := by
    have := h.le_length
    rw [blockChecksumOffset]
    omega
  size := Nat.le_of_eq h.size

/-- A sealed headered object is copied whole. -/
theorem Headered.blockBytes_sealed {obj : Bytes} (h : Headered obj) :
    blockBytes (sealed obj) = sealed obj := by
  rw [blockBytes, blockSize_sealed, List.take_of_length_le]
  rw [length_sealed]
  exact Nat.le_of_eq h.size.symm

/-- The size of the image of a list, with every block at its full length. -/
def imageSize (heap : Ptr → Bytes) (entries : List (CdcbBlockEntry Ptr)) : Nat :=
  MemQuickConfig.layout.size + MemConfigHeader.layout.size +
    size16BAlign (MemConfigBlockTableEntry.layout.size * entries.length) +
    (entries.map fun e => size16BAlign (heap e.ptr).length).sum

variable {heap : Ptr → Bytes} {entries : List (CdcbBlockEntry Ptr)}

theorem imageSize_eq (h : ∀ e ∈ entries, blockSize (heap e.ptr) = (heap e.ptr).length) :
    imageSize heap entries = 32 + packedSize heap entries := by
  have hsum : (entries.map fun e => size16BAlign (heap e.ptr).length).sum =
      Packing.extent 16 (sizes heap entries) := by
    rw [Packing.extent, sizes, List.map_map]
    congr 1
    apply List.map_congr_left
    intro e he
    rw [size16BAlign_eq, ← h e he]
    rfl
  rw [imageSize, hsum, size16BAlign_eq, MemQuickConfig.layout_size, MemConfigHeader.layout_size,
    MemConfigBlockTableEntry.layout_size, packedSize, tableRoom]
  omega

/-- A list of headered blocks whose image has at most 64 KiB fits. -/
theorem fits_of_headered (hcount : entries.length ≤ 255)
    (hguid : ∀ e ∈ entries, e.guid ≠ guidInvalid) (hblocks : ∀ e ∈ entries, Headered (heap e.ptr))
    (hsize : imageSize heap entries ≤ 65536) : Fits heap entries := by
  refine fits_of_packedSize hcount hguid (fun e he => (hblocks e he).readable) ?_ ?_
  · intro e he
    rw [(hblocks e he).size]
    exact (hblocks e he).le_length
  · rw [← imageSize_eq fun e he => (hblocks e he).size]
    exact hsize

/-- The lists the tool is meant for: at most 255 headered blocks of valid GUIDs, whose
    image has at most 64 KiB. An object may be listed more than once. -/
structure Packable (heap : Ptr → Bytes) (entries : List (CdcbBlockEntry Ptr)) : Prop where
  count : entries.length ≤ 255
  guid : ∀ e ∈ entries, e.guid ≠ guidInvalid
  headered : ∀ e ∈ entries, Headered (heap e.ptr)
  size : imageSize heap entries ≤ 65536

theorem Packable.fits (h : Packable heap entries) : Fits heap entries :=
  fits_of_headered h.count h.guid h.headered h.size

-- ---------------------------------------------------------------------------
-- Reading a written image
-- ---------------------------------------------------------------------------

theorem blockOffset_eq (offset : UInt16) : blockOffset offset = 32 + offset.toNat := by
  rw [blockOffset, MemQuickConfig.layout_size]

theorem blockOffset_blockTbOffset : blockOffset (writtenHeader heap entries).blockTbOffset = 96 := by
  have hoffset : (writtenHeader heap entries).blockTbOffset =
      UInt16.ofNat MemConfigHeader.layout.size := rfl
  rw [hoffset, MemConfigHeader.layout_size, blockOffset_eq]
  rfl

/-- The offset of an entry is exact. -/
theorem TableFits.blockOffset_blockStart (h : TableFits heap entries) {i : Nat}
    (hi : i < entries.length) :
    blockOffset (UInt16.ofNat (blockStart heap entries i)) = 32 + blockStart heap entries i := by
  rw [blockOffset_eq, h.toNat_blockStart (Nat.le_of_lt hi)]

/-- The blocks the reader finds. -/
def foundBlocks (heap : Ptr → Bytes) (entries : List (CdcbBlockEntry Ptr)) : List FoundBlock :=
  entries.mapIdx fun i e => ⟨e.guid, 32 + blockStart heap entries i, sealed (heap e.ptr)⟩

@[simp] theorem length_foundBlocks (heap : Ptr → Bytes) (entries : List (CdcbBlockEntry Ptr)) :
    (foundBlocks heap entries).length = entries.length :=
  List.length_mapIdx

theorem lt_length_foundBlocks {i : Nat} :
    i < (foundBlocks heap entries).length ↔ i < entries.length := by
  rw [length_foundBlocks]

theorem getElem_foundBlocks {i : Nat} (hf : i < (foundBlocks heap entries).length)
    (hi : i < entries.length) :
    (foundBlocks heap entries)[i] =
      ⟨entries[i].guid, 32 + blockStart heap entries i, sealed (heap entries[i].ptr)⟩ := by
  simp only [foundBlocks, List.getElem_mapIdx]

/-- A found block is one of the listed ones. -/
theorem mem_foundBlocks {b : FoundBlock} (hb : b ∈ foundBlocks heap entries) :
    ∃ i, ∃ hi : i < entries.length, b.pos = 32 + blockStart heap entries i ∧
      b.bytes.length = (heap entries[i].ptr).length := by
  obtain ⟨i, hi, rfl⟩ := List.getElem_of_mem hb
  have hi' := lt_length_foundBlocks.mp hi
  rw [getElem_foundBlocks hi hi']
  exact ⟨i, hi', rfl, length_sealed _⟩

theorem foundBlocks_recovered (heap : Ptr → Bytes) (entries : List (CdcbBlockEntry Ptr)) :
    List.Forall₂ (fun e b => b.guid = e.guid ∧ b.bytes.length = (heap e.ptr).length ∧
      Span.AgreeOff {blockChecksumOffset} b.bytes (heap e.ptr)) entries
        (foundBlocks heap entries) := by
  rw [List.forall₂_iff_get]
  refine ⟨(length_foundBlocks heap entries).symm, ?_⟩
  intro i hi hf
  rw [List.get_eq_getElem, List.get_eq_getElem, getElem_foundBlocks hf hi]
  exact ⟨rfl, length_sealed _, sealed_agreeOff _⟩

theorem foundBlocks_disjoint
    (hblocks : ∀ e ∈ entries, blockSize (heap e.ptr) = (heap e.ptr).length) :
    (foundBlocks heap entries).Pairwise fun b c => Disjoint b.range c.range := by
  rw [List.pairwise_iff_getElem]
  intro i j hi hj hij
  have hi' := lt_length_foundBlocks.mp hi
  have hj' := lt_length_foundBlocks.mp hj
  have hend := blockEnd_le_blockStart heap hi' hij
  rw [hblocks _ (List.getElem_mem hi')] at hend
  rw [getElem_foundBlocks hi hi', getElem_foundBlocks hj hj']
  simp only [FoundBlock.range, length_sealed]
  rw [Set.Ico_disjoint_Ico]
  omega

variable [DecidableEq Ptr]

theorem readHeader_image (h : ∀ e ∈ entries, Readable (heap e.ptr)) (quick : MemQuickConfig) :
    readHeader (image quick heap entries) = .ok (writtenHeader heap entries) := by
  have hlen := length_image h quick
  have hbound : 32 + 64 ≤ (image quick heap entries).length := by
    rw [hlen, packedSize]
    omega
  rw [readHeader, MemQuickConfig.layout_size, MemConfigHeader.layout_size, C.load_of_le hbound,
    read_image_header, C.ok_bind, Layout.dec_enc]
  rfl

theorem readEntry_image (h : ∀ e ∈ entries, Readable (heap e.ptr)) (quick : MemQuickConfig)
    {i : Nat} (hi : i < entries.length) :
    readEntry (image quick heap entries) (writtenHeader heap entries) i =
      .ok ⟨entries[i].guid, UInt16.ofNat (blockStart heap entries i)⟩ := by
  have hlen := length_image h quick
  have hroom := le_tableRoom entries.length
  have hbound : 96 + 4 * i + 4 ≤ (image quick heap entries).length := by
    rw [hlen, packedSize]
    omega
  unfold readEntry
  rw [MemConfigBlockTableEntry.layout_size, blockOffset_blockTbOffset]
  dsimp only
  rw [C.load_of_le hbound, read_image_entry quick hi, C.ok_bind, Layout.dec_enc]
  rfl

/-- The `BlockSize` bytes of a block in the image. -/
theorem read_image_blockSize (h : ∀ e ∈ entries, Readable (heap e.ptr)) (quick : MemQuickConfig)
    {i : Nat} (hi : i < entries.length) (hblock : Headered (heap entries[i].ptr)) :
    Span.read (image quick heap entries) (32 + blockStart heap entries i + blockSizeOffset) 2 =
      Span.read (sealed (heap entries[i].ptr)) blockSizeOffset 2 := by
  have hmin := hblock.le_length
  have hsize := hblock.size
  rw [← Span.read_read (n := blockSize (heap entries[i].ptr)), read_image_block h quick hi,
    hblock.blockBytes_sealed]
  rw [blockSizeOffset]
  omega

/-- The block an entry points to is the sealed object, whole. -/
theorem Fits.readBlock_image (h : Fits heap entries) (quick : MemQuickConfig) {i : Nat}
    (hi : i < entries.length) (hblock : Headered (heap entries[i].ptr)) :
    readBlock (image quick heap entries)
        ⟨entries[i].guid, UInt16.ofNat (blockStart heap entries i)⟩ =
      .ok ⟨entries[i].guid, 32 + blockStart heap entries i, sealed (heap entries[i].ptr)⟩ := by
  have hlen := length_image h.readable quick
  have hend := blockEnd_le_packedSize heap hi
  have hmin := hblock.le_length
  have hsize := hblock.size
  have hread := read_image_block h.readable quick hi
  unfold readBlock
  dsimp only
  rw [h.blockOffset_blockStart hi, C.load_of_le (by rw [hlen, blockSizeOffset]; omega),
    read_image_blockSize h.readable quick hi hblock, C.ok_bind]
  rw [← blockSize, blockSize_sealed, C.load_of_le (by omega), hread, hblock.blockBytes_sealed]
  rfl

theorem Fits.readBlocks_image (h : Fits heap entries) (quick : MemQuickConfig)
    (hblocks : ∀ e ∈ entries, Headered (heap e.ptr)) :
    readBlocks (image quick heap entries) (writtenHeader heap entries) =
      .ok (foundBlocks heap entries) := by
  have hcount : (writtenHeader heap entries).blockCount.toNat =
      (foundBlocks heap entries).length := by
    have hmod : (writtenHeader heap entries).blockCount.toNat = entries.length % 256 :=
      toNat_blockCount _
    rw [hmod, length_foundBlocks, Nat.mod_eq_of_lt h.count]
  rw [readBlocks, hcount, List.range_eq_range']
  apply C.mapM_range'_eq_ok
  intro i hi
  have hi' := lt_length_foundBlocks.mp hi
  rw [Nat.zero_add, readEntry_image h.readable quick hi', C.ok_bind,
    h.readBlock_image quick hi' (hblocks _ (List.getElem_mem hi')), getElem_foundBlocks hi hi']

-- ---------------------------------------------------------------------------
-- Padding
-- ---------------------------------------------------------------------------

/-- The fill behind the last table entry. -/
theorem getElem?_image_table_gap (quick : MemQuickConfig) {k : Nat}
    (hk : 96 + 4 * entries.length ≤ k) (hend : k < 32 + blockStart heap entries 0) :
    (image quick heap entries)[k]? = some 0 := by
  have hfront : k < (front (writtenQuick quick heap entries) heap entries).length := by
    rw [length_front]
    exact hend
  have hlen : (MemQuickConfig.layout.enc (writtenQuick quick heap entries) ++
      MemConfigHeader.layout.enc (writtenHeader heap entries)).length = 96 := by
    rw [List.length_append, MemQuickConfig.length_enc, MemConfigHeader.length_enc]
  rw [blockStart_zero] at hend
  rw [image, List.getElem?_append_left hfront, front, List.getElem?_append_right (by omega), hlen,
    tableBytes, List.getElem?_append_right (by rw [length_entryBytes, length_tableEntries]; omega),
    length_entryBytes, length_tableEntries, List.getElem?_replicate_of_lt (by omega)]

/-- The fill between and behind the blocks. -/
theorem getElem?_image_block_gap (h : ∀ e ∈ entries, Readable (heap e.ptr)) (quick : MemQuickConfig)
    {k : Nat} (hk : 32 + blockStart heap entries 0 ≤ k)
    (hend : k < (image quick heap entries).length)
    (hgap : ∀ i (hi : i < entries.length), ¬ (32 + blockStart heap entries i ≤ k ∧
      k < 32 + blockStart heap entries i + blockSize (heap entries[i].ptr))) :
    (image quick heap entries)[k]? = some 0 := by
  have hfront := length_front (writtenQuick quick heap entries) heap entries
  have hread := sealedHeap_readable h
  rw [image, List.length_append] at hend
  rw [image, List.getElem?_append_right (by omega)]
  apply Packing.getElem?_pack_gap (by decide) (by omega)
  intro i hi
  have hi' : i < entries.length := by
    rw [blocks, List.length_map] at hi
    exact hi
  have hout := hgap i hi'
  rw [blockStart_eq_add] at hout
  rw [length_blocks hread, sizes_sealedHeap, getElem_blocks hi hi',
    length_blockBytes (hread _ (List.getElem_mem hi')), blockSize_sealedHeap, hfront]
  omega

-- ---------------------------------------------------------------------------
-- The round trip
-- ---------------------------------------------------------------------------

/-- What `img` is to the reader, for the list it was written from: `header` and
    `found` are what is read back. -/
structure RoundTrip (quick : MemQuickConfig) (heap : Ptr → Bytes)
    (entries : List (CdcbBlockEntry Ptr)) (img : Bytes) (header : MemConfigHeader)
    (found : List FoundBlock) : Prop where
  readsHeader : readHeader img = .ok header
  readsBlocks : readBlocks img header = .ok found
  recovered : List.Forall₂ (fun e b => b.guid = e.guid ∧
    b.bytes.length = (heap e.ptr).length ∧
    Span.AgreeOff {blockChecksumOffset} b.bytes (heap e.ptr)) entries found
  aligned : ∀ b ∈ found, 16 ∣ b.pos
  between : ∀ b ∈ found,
    blockOffset header.blockTbOffset + blockTableSize entries.length ≤ b.pos ∧
      b.pos + b.bytes.length ≤ MemQuickConfig.layout.size + header.totalSize.toNat
  disjoint : found.Pairwise fun b c => Disjoint b.range c.range
  keepsQuick : ∃ hash, Span.read img 0 MemQuickConfig.layout.size =
    MemQuickConfig.layout.enc { quick with featHash := hash }
  gaps : ∀ k < img.length, MemQuickConfig.layout.size + MemConfigHeader.layout.size ≤ k →
    k ∉ Set.Ico (blockOffset header.blockTbOffset)
      (blockOffset header.blockTbOffset +
        MemConfigBlockTableEntry.layout.size * entries.length) →
    (∀ b ∈ found, k ∉ b.range) → img[k]? = some 0
  length : img.length = MemQuickConfig.layout.size + header.totalSize.toNat

/-- The image of a fitting list reads back as that list. -/
theorem Fits.roundTrip (h : Fits heap entries) (quick : MemQuickConfig)
    (hblocks : ∀ e ∈ entries, Headered (heap e.ptr)) :
    RoundTrip quick heap entries (image quick heap entries) (writtenHeader heap entries)
      (foundBlocks heap entries) where
  readsHeader := readHeader_image h.readable quick
  readsBlocks := h.readBlocks_image quick hblocks
  recovered := foundBlocks_recovered heap entries
  aligned := by
    intro b hb
    obtain ⟨i, -, hpos, -⟩ := mem_foundBlocks hb
    have hstart := dvd_blockStart heap entries i
    rw [hpos]
    omega
  between := by
    intro b hb
    obtain ⟨i, hi, hpos, hlen⟩ := mem_foundBlocks hb
    have hend := blockEnd_le_packedSize heap hi
    rw [(hblocks _ (List.getElem_mem hi)).size] at hend
    rw [blockOffset_blockTbOffset, blockTableSize_eq h.count, h.totalSize_writtenHeader,
      MemQuickConfig.layout_size, hpos, hlen]
    have hstart := blockStart_mono heap entries (Nat.zero_le i)
    rw [blockStart_zero] at hstart
    omega
  disjoint := foundBlocks_disjoint fun e he => (hblocks e he).size
  keepsQuick := by
    refine ⟨featHashAfter (sealedHeap heap entries) entries 0, ?_⟩
    rw [MemQuickConfig.layout_size, read_image_quick, writtenQuick]
  gaps := by
    intro k hk hheader htable hfound
    rw [MemQuickConfig.layout_size, MemConfigHeader.layout_size] at hheader
    rw [blockOffset_blockTbOffset, MemConfigBlockTableEntry.layout_size, Set.mem_Ico] at htable
    by_cases hfront : k < 32 + blockStart heap entries 0
    · exact getElem?_image_table_gap quick (by omega) hfront
    · refine getElem?_image_block_gap h.readable quick (by omega) hk ?_
      intro i hi hrange
      have hb : i < (foundBlocks heap entries).length := lt_length_foundBlocks.mpr hi
      apply hfound _ (List.getElem_mem hb)
      rw [getElem_foundBlocks hb hi]
      simp only [FoundBlock.range, length_sealed, Set.mem_Ico]
      rw [← (hblocks _ (List.getElem_mem hi)).size]
      exact hrange
  length := by
    rw [length_image h.readable, h.totalSize_writtenHeader, MemQuickConfig.layout_size]

/-- Packing round-trips: a run on at most 255 blocks of valid GUIDs whose image has
    at most 64 KiB writes an image that reads back as the list. -/
theorem main_roundTrip (quick : MemQuickConfig) (heap : Ptr → Bytes)
    (entries : List (CdcbBlockEntry Ptr)) (hcount : entries.length ≤ 255)
    (hguid : ∀ e ∈ entries, e.guid ≠ guidInvalid) (hblocks : ∀ e ∈ entries, Headered (heap e.ptr))
    (hsize : imageSize heap entries ≤ 65536) :
    ∃ img header found, main quick heap entries = .ok (.written img) ∧
      RoundTrip quick heap entries img header found := by
  have hfits := fits_of_headered hcount hguid hblocks hsize
  exact ⟨_, _, _, main_eq hfits quick, hfits.roundTrip quick hblocks⟩

/-- Two blocks, of 16 and of 18 bytes. -/
def sampleBlocks : Bool → Bytes
  | false => [0x4D, 0x42, 0x49, 0x44, 0, 0, 0, 0, 16, 0, 0, 0, 0, 0, 0, 0]
  | true => [0x4D, 0x43, 0x46, 0x47, 0, 0, 0, 0, 18, 0, 0, 0, 0, 0, 0, 0, 1, 2]

/-- The second block is listed twice. -/
def sampleEntries : List (CdcbBlockEntry Bool) :=
  [⟨0x1001, true⟩, ⟨0x1000, false⟩, ⟨0x1001, true⟩]

theorem sampleBlocks_headered (b : Bool) : Headered (sampleBlocks b) := by
  cases b with
  | false => exact ⟨by decide +kernel, by decide +kernel⟩
  | true => exact ⟨by decide +kernel, by decide +kernel⟩

theorem packable_sample : Packable sampleBlocks sampleEntries where
  count := by decide
  guid := by decide
  headered e _ := sampleBlocks_headered e.ptr
  size := by decide +kernel

theorem main_roundTrip_sample :
    ∃ img header found,
      main (MemQuickConfig.layout.filled 0) sampleBlocks sampleEntries = .ok (.written img) ∧
        RoundTrip (MemQuickConfig.layout.filled 0) sampleBlocks sampleEntries img header found :=
  main_roundTrip (MemQuickConfig.layout.filled 0) sampleBlocks sampleEntries (by decide)
    (by decide) (fun e _ => sampleBlocks_headered e.ptr) (by decide +kernel)

end MemConfig
