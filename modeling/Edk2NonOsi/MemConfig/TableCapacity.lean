-- SUMMARY: The capacity of the block table: which of the lists that fit the flash slot the table can hold.
import Edk2NonOsi.MemConfig.BlockTypes

namespace MemConfig

variable {Ptr : Type} [DecidableEq Ptr]

/-- The bytes reserved for `memory_config.bin` in `spi_flash_config_all.json`. -/
def memoryConfigSlotSize : Nat := 0x4000

/-- The table of a run has room for every entry of the list: the header counts them
    all, every `BlockTableEntry[index]` is inside the allocation, and in the image
    each entry is where a reader looks for it. -/
structure TableHolds (quick : MemQuickConfig) (heap : Ptr → Bytes)
    (entries : List (CdcbBlockEntry Ptr)) : Prop where
  count : (initHeader entries.length).blockCount.toNat = entries.length
  writes : ∀ index < entries.length,
    MemConfigBlockTableEntry.layout.size * index + MemConfigBlockTableEntry.layout.size ≤
      blockTableSize entries.length
  region : ∃ img header, main quick heap entries = .ok (.written img) ∧
    readHeader img = .ok header ∧ header.blockCount.toNat = entries.length ∧
    ∀ i (hi : i < entries.length), readEntry img header i =
      .ok ⟨entries[i].guid, UInt16.ofNat (blockStart heap entries i)⟩

variable {heap : Ptr → Bytes} {entries : List (CdcbBlockEntry Ptr)}

theorem blockCount_exact_iff (n : Nat) : (initHeader n).blockCount.toNat = n ↔ n ≤ 255 := by
  rw [toNat_blockCount]
  omega

theorem Packable.tableHolds (h : Packable heap entries) (quick : MemQuickConfig) :
    TableHolds quick heap entries where
  count := (blockCount_exact_iff _).mpr h.count
  writes := by
    rw [MemConfigBlockTableEntry.layout_size]
    exact (tableWrites_iff _).mpr h.count
  region := by
    have hfits := h.fits
    refine ⟨_, _, main_eq hfits quick, readHeader_image hfits.readable quick, ?_, ?_⟩
    · exact (blockCount_exact_iff _).mpr h.count
    · intro i hi
      exact readEntry_image hfits.readable quick hi

/-- **When the table holds a list that fits the slot.** The slot admits lists of
    several hundred headered blocks, and the table holds those of at most 255. -/
theorem tableHolds_iff (quick : MemQuickConfig) (hguid : ∀ e ∈ entries, e.guid ≠ guidInvalid)
    (hblocks : ∀ e ∈ entries, Headered (heap e.ptr))
    (hsize : imageSize heap entries ≤ memoryConfigSlotSize) :
    TableHolds quick heap entries ↔ entries.length ≤ 255 := by
  constructor
  · intro h
    exact (blockCount_exact_iff _).mp h.count
  · intro hcount
    have hslot : memoryConfigSlotSize ≤ 65536 := by decide
    have hpackable : Packable heap entries :=
      ⟨hcount, hguid, hblocks, Nat.le_trans hsize hslot⟩
    exact hpackable.tableHolds quick

theorem tableHolds_iff_sample :
    TableHolds (MemQuickConfig.layout.filled 0) sampleBlocks sampleEntries ↔
      sampleEntries.length ≤ 255 :=
  tableHolds_iff (MemQuickConfig.layout.filled 0) packable_sample.guid packable_sample.headered
    (by decide +kernel)

/-- 256 entries, all for one block of 16 bytes. -/
def manyEntries : List (CdcbBlockEntry Bool) :=
  List.replicate 256 ⟨0x1000, false⟩

/-- They fit the slot, but are counted as none: the first write of the table is
    outside, and nothing is written to the file. -/
theorem tableHolds_fails_many :
    (∀ e ∈ manyEntries, e.guid ≠ guidInvalid ∧ Headered (sampleBlocks e.ptr)) ∧
      imageSize sampleBlocks manyEntries ≤ memoryConfigSlotSize ∧
      (initHeader manyEntries.length).blockCount = 0 ∧ blockTableSize manyEntries.length = 0 ∧
      (∀ quick img, main quick sampleBlocks manyEntries ≠ .ok (.written img)) ∧
      ∀ quick, ¬ TableHolds quick sampleBlocks manyEntries := by
  have hlen : manyEntries.length = 256 := List.length_replicate
  refine ⟨?_, ?_, ?_, ?_, ?_, ?_⟩
  · intro e he
    rw [List.eq_of_mem_replicate he]
    exact ⟨by decide, sampleBlocks_headered false⟩
  · decide +kernel
  · rw [hlen]
    rfl
  · rw [hlen]
    decide +kernel
  · intro quick img hmain
    have hle := length_le_of_written hmain
    omega
  · intro quick h
    have hle := (blockCount_exact_iff _).mp h.count
    omega

end MemConfig
