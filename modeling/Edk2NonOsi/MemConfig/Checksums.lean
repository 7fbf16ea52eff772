-- SUMMARY: The checksums of an image the tool wrote: header and blocks verify as emitted, and a change of a single byte shows.
import Edk2NonOsi.Checksum.RunningSum
import Edk2NonOsi.MemConfig.RoundTrip

namespace MemConfig

-- ---------------------------------------------------------------------------
-- The checks
-- ---------------------------------------------------------------------------

/-- `GenCheckSum` over the header of an image, as long as the header says. -/
def headerCheckSum (img : Bytes) : Except C.Fault UInt8 := do
  let header ← readHeader img
  genCheckSum (img.drop MemQuickConfig.layout.size) header.headerSize.toNat

/-- `GenCheckSum` over the block an entry points to, as long as the block says. -/
def blockCheckSum (e : MemConfigBlockTableEntry) (img : Bytes) : Except C.Fault UInt8 := do
  let size ← readBlockSize (img.drop (blockOffset e.offset))
  genCheckSum (img.drop (blockOffset e.offset)) size.toNat

/-- `check` verifies the positions `range` of `img`, and fails once one of them holds
    another byte; those of `size` delimit the range and are excepted. -/
structure Guarded (check : Bytes → Except C.Fault UInt8) (img : Bytes) (range size : Set Nat) :
    Prop where
  inside : range ⊆ Set.Iio img.length
  verifies : check img = .ok 0
  detects : ∀ k ∈ range, k ∉ size → ∀ b, img[k]? ≠ some b →
    ∃ c, check (img.set k b) = .ok c ∧ c ≠ 0

-- ---------------------------------------------------------------------------
-- Sums of bytes
-- ---------------------------------------------------------------------------

theorem not_eq_sub (a : UInt8) : ~~~ a = 0xFF - a := by
  rw [UInt8.not_eq_neg_sub]
  have hff : (0xFF : UInt8) = -1 := rfl
  rw [hff]
  abel

theorem not_eq_zero_iff (a : UInt8) : ~~~ a = 0 ↔ a = 0xFF := by
  rw [not_eq_sub, sub_eq_zero, eq_comm]

/-- Storing the complement of the sum makes the sum 0xFF. -/
theorem byteSum_set_not {obj : Bytes} {k : Nat} (hk : k < obj.length) :
    byteSum (obj.set k (~~~ byteSum (obj.set k 0))) = 0xFF := by
  rw [not_eq_sub, byteSum_eq_sum, byteSum_eq_sum, PlainSum.sum_set_target hk]

/-- A sealed object sums to 0xFF over its `BlockSize` bytes. -/
theorem Headered.byteSum_sealed {obj : Bytes} (h : Headered obj) : byteSum (sealed obj) = 0xFF := by
  have hmin := h.le_length
  have hk : blockChecksumOffset < obj.length := h.readable.header
  have hwhole : (obj.set blockChecksumOffset 0).take (blockSize obj) =
      obj.set blockChecksumOffset 0 := by
    rw [List.take_of_length_le]
    rw [List.length_set, h.size]
  rw [sealed, checksumOf, hwhole, byteSum_set_not hk]

/-- The header sums to 0xFF as it is written. -/
theorem byteSum_finalHeader (n : Nat) (totalSize : UInt16) :
    byteSum (MemConfigHeader.layout.enc (finalHeader n totalSize)) = 0xFF := by
  let F := MemConfigHeader.headerCheckSumField
  let header : MemConfigHeader := { initHeader n with totalSize := totalSize }
  have hlt : F.offset < (MemConfigHeader.layout.enc header).length := by
    rw [MemConfigHeader.layout.length_enc]
    exact F.bound
  -- The checksum was zero when the sum was taken.
  have hzero : (MemConfigHeader.layout.enc header).set F.offset 0 =
      MemConfigHeader.layout.enc header := by
    rw [← F.enc_set_u8]
    rfl
  have hfinal : finalHeader n totalSize =
      F.set header (~~~ byteSum (MemConfigHeader.layout.enc header)) := rfl
  have hsum := byteSum_set_not hlt
  rw [hzero] at hsum
  rw [hfinal, F.enc_set_u8, hsum]

-- ---------------------------------------------------------------------------
-- Guarded ranges
-- ---------------------------------------------------------------------------

theorem genCheckSum_drop {img : Bytes} {pos n : Nat} (h : pos + n ≤ img.length) :
    genCheckSum (img.drop pos) n = .ok (~~~ byteSum (Span.read img pos n)) := by
  have hload : 0 + n ≤ (img.drop pos).length := by
    rw [List.length_drop]
    omega
  rw [genCheckSum, C.load_of_le hload, C.ok_bind]
  rfl

/-- A range that sums to 0xFF is guarded by a check that adds it up, on every image
    with the same bytes in `size`. -/
theorem guarded_of_byteSum {check : Bytes → Except C.Fault UInt8} {img : Bytes} {pos n : Nat}
    {size : Set Nat} (hend : pos + n ≤ img.length) (hsum : byteSum (Span.read img pos n) = 0xFF)
    (hcheck : ∀ img' : Bytes, img'.length = img.length → Span.AgreeOff sizeᶜ img' img →
      check img' = .ok (~~~ byteSum (Span.read img' pos n))) :
    Guarded check img (Set.Ico pos (pos + n)) size where
  inside := by
    intro k hk
    have hlt := (Set.mem_Ico.mp hk).2
    exact Set.mem_Iio.mpr (by omega)
  verifies := by
    rw [hcheck img rfl (Span.AgreeOff.refl _ _), hsum]
    rfl
  detects := by
    intro k hk hsize b hb
    have hk' := Set.mem_Ico.mp hk
    have hagree : Span.AgreeOff sizeᶜ (img.set k b) img :=
      (Span.set_agreeOff img k b).mono (Set.singleton_subset_iff.mpr hsize)
    refine ⟨_, hcheck _ List.length_set hagree, ?_⟩
    have hidx : k - pos < (Span.read img pos n).length := by
      rw [Span.length_read_of_le hend]
      omega
    rw [Ne, not_eq_zero_iff, ← hsum, Span.read_set_of_le hk'.1, byteSum_eq_sum, byteSum_eq_sum,
      PlainSum.sum_set_eq_iff hidx]
    intro hsame
    apply hb
    have hget : (Span.read img pos n)[k - pos]? = img[k]? := by
      rw [Span.getElem?_read, if_pos (by omega), Nat.add_sub_cancel' hk'.1]
    rw [← hget, hsame, List.getElem?_eq_getElem hidx]

-- ---------------------------------------------------------------------------
-- The image
-- ---------------------------------------------------------------------------

/-- The position of `HeaderSize` in an image. -/
def headerSizePos : Nat :=
  MemQuickConfig.layout.size + MemConfigHeader.headerSizeField.offset

theorem headerSizePos_eq : headerSizePos = 48 := by
  decide +kernel

/-- The header of an image is read where it is written. -/
theorem readHeader_eq {img : Bytes} (h : 96 ≤ img.length) :
    readHeader img = .ok (MemConfigHeader.layout.dec (Span.read img 32 64)) := by
  rw [readHeader, MemQuickConfig.layout_size, MemConfigHeader.layout_size, C.load_of_le h]
  rfl

theorem headerSize_dec {bs : Bytes} (h : bs.length = 64) :
    (MemConfigHeader.layout.dec bs).headerSize = Layout.u8.dec (Span.read bs 16 1) :=
  MemConfigHeader.headerSizeField.get_dec (h.trans MemConfigHeader.layout_size.symm)

variable {Ptr : Type} {heap : Ptr → Bytes} {entries : List (CdcbBlockEntry Ptr)}
  [DecidableEq Ptr]

/-- The check of the header adds up the 64 bytes behind the quick config. -/
theorem headerCheckSum_eq (h : ∀ e ∈ entries, Readable (heap e.ptr)) (quick : MemQuickConfig)
    {img : Bytes} (hlen : img.length = (image quick heap entries).length)
    (hagree : Span.AgreeOff {headerSizePos}ᶜ img (image quick heap entries)) :
    headerCheckSum img = .ok (~~~ byteSum (Span.read img 32 64)) := by
  have himage := length_image h quick
  have h96 : 96 ≤ img.length := by
    rw [hlen, himage, packedSize]
    omega
  have hsize : (MemConfigHeader.layout.dec (Span.read img 32 64)).headerSize = 64 := by
    have hread : Span.read img 48 1 = Span.read (image quick heap entries) 48 1 := by
      apply hagree.read_eq
      rw [headerSizePos_eq, Set.disjoint_compl_right_iff_subset]
      intro k hk
      rw [Set.mem_Ico] at hk
      exact Set.mem_singleton_iff.mpr (by omega)
    have hlen64 : (Span.read (image quick heap entries) 32 64).length = 64 :=
      Span.length_read_of_le (by omega)
    have hbyte : Span.read (Span.read (image quick heap entries) 32 64) 16 1 =
        Span.read (image quick heap entries) 48 1 := Span.read_read (by decide)
    have hwritten := headerSize_dec hlen64
    rw [hbyte, read_image_header, Layout.dec_enc] at hwritten
    rw [headerSize_dec (Span.length_read_of_le (by omega)), Span.read_read (by decide), hread,
      ← hwritten]
    rfl
  have h64 : (64 : UInt8).toNat = 64 := rfl
  rw [headerCheckSum, readHeader_eq h96, C.ok_bind, hsize, MemQuickConfig.layout_size, h64,
    genCheckSum_drop h96]

theorem guarded_header (h : ∀ e ∈ entries, Readable (heap e.ptr)) (quick : MemQuickConfig) :
    Guarded headerCheckSum (image quick heap entries) (Set.Ico 32 (32 + 64)) {headerSizePos} := by
  apply guarded_of_byteSum
  · rw [length_image h, packedSize]
    omega
  · rw [read_image_header, writtenHeader, byteSum_finalHeader]
  · intro img hlen hagree
    exact headerCheckSum_eq h quick hlen hagree

/-- The positions of the `BlockSize` of a block at `pos`. -/
def blockSizeRange (pos : Nat) : Set Nat :=
  Set.Ico (pos + blockSizeOffset) (pos + blockSizeOffset + 2)

/-- The check of a block adds up the bytes it was emitted as. -/
theorem Fits.blockCheckSum_eq (h : Fits heap entries) (quick : MemQuickConfig) {i : Nat}
    (hi : i < entries.length) (hblock : Headered (heap entries[i].ptr)) {img : Bytes}
    (hlen : img.length = (image quick heap entries).length)
    (hagree : Span.AgreeOff (blockSizeRange (32 + blockStart heap entries i))ᶜ img
      (image quick heap entries)) :
    blockCheckSum ⟨entries[i].guid, UInt16.ofNat (blockStart heap entries i)⟩ img =
      .ok (~~~ byteSum (Span.read img (32 + blockStart heap entries i)
        (blockSize (heap entries[i].ptr)))) := by
  have himage := length_image h.readable quick
  have hend := blockEnd_le_packedSize heap hi
  have hmin := hblock.le_length
  have hsize := hblock.size
  have hread : Span.read img (32 + blockStart heap entries i + blockSizeOffset) 2 =
      Span.read (sealed (heap entries[i].ptr)) blockSizeOffset 2 := by
    rw [← read_image_blockSize h.readable quick hi hblock]
    apply hagree.read_eq
    rw [Set.disjoint_compl_right_iff_subset]
    exact Set.Subset.rfl
  have hheader : blockChecksumOffset ≤ (img.drop (32 + blockStart heap entries i)).length := by
    rw [List.length_drop, blockChecksumOffset]
    omega
  have hblockSize : blockSize (img.drop (32 + blockStart heap entries i)) =
      blockSize (heap entries[i].ptr) := by
    rw [blockSize, Span.read_drop, hread, ← blockSize, blockSize_sealed]
  rw [blockCheckSum, h.blockOffset_blockStart hi, readBlockSize_eq hheader, C.ok_bind,
    toNat_ofNat_blockSize, hblockSize, genCheckSum_drop (by omega)]

theorem Fits.guarded_block (h : Fits heap entries) (quick : MemQuickConfig) {i : Nat}
    (hi : i < entries.length) (hblock : Headered (heap entries[i].ptr)) :
    Guarded (blockCheckSum ⟨entries[i].guid, UInt16.ofNat (blockStart heap entries i)⟩)
      (image quick heap entries)
      (Set.Ico (32 + blockStart heap entries i)
        (32 + blockStart heap entries i + blockSize (heap entries[i].ptr)))
      (blockSizeRange (32 + blockStart heap entries i)) := by
  apply guarded_of_byteSum
  · have hend := blockEnd_le_packedSize heap hi
    rw [length_image h.readable]
    omega
  · rw [read_image_block h.readable quick hi, hblock.blockBytes_sealed, hblock.byteSum_sealed]
  · intro img hlen hagree
    exact h.blockCheckSum_eq quick hi hblock hlen hagree

/-- **Every checksum verifies and guards its range.** On a packable list the tool
    writes an image in which the header and every block sum up right, and in each
    of them a change of any one byte, other than those that say how long it is,
    shows. -/
theorem main_checksums (h : Packable heap entries) (quick : MemQuickConfig) :
    ∃ img header, main quick heap entries = .ok (.written img) ∧ readHeader img = .ok header ∧
      Guarded headerCheckSum img
        (Set.Ico MemQuickConfig.layout.size
          (MemQuickConfig.layout.size + MemConfigHeader.layout.size)) {headerSizePos} ∧
      ∀ i (hi : i < entries.length), ∃ e, readEntry img header i = .ok e ∧
        Guarded (blockCheckSum e) img
          (Set.Ico (blockOffset e.offset)
            (blockOffset e.offset + blockSize (heap entries[i].ptr)))
          (blockSizeRange (blockOffset e.offset)) := by
  have hfits := h.fits
  refine ⟨_, _, main_eq hfits quick, readHeader_image hfits.readable quick, ?_, ?_⟩
  · rw [MemQuickConfig.layout_size, MemConfigHeader.layout_size]
    exact guarded_header hfits.readable quick
  · intro i hi
    refine ⟨_, readEntry_image hfits.readable quick hi, ?_⟩
    dsimp only
    rw [hfits.blockOffset_blockStart hi]
    exact hfits.guarded_block quick hi (h.headered _ (List.getElem_mem hi))

theorem main_checksums_sample :
    ∃ img header,
      main (MemQuickConfig.layout.filled 0) sampleBlocks sampleEntries = .ok (.written img) ∧
        readHeader img = .ok header ∧ headerCheckSum img = .ok 0 := by
  obtain ⟨img, header, hmain, hheader, hguarded, -⟩ :=
    main_checksums packable_sample (MemQuickConfig.layout.filled 0)
  exact ⟨img, header, hmain, hheader, hguarded.verifies⟩

end MemConfig
