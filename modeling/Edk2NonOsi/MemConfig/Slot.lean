-- SUMMARY: A memory configuration in a slot it does not fill: the reader recovers it, and a list with an invalid GUID is refused before anything is written.
import Edk2NonOsi.MemConfig.FeatHash

namespace MemConfig

-- ---------------------------------------------------------------------------
-- Reading does not look behind the image
-- ---------------------------------------------------------------------------

theorem readHeader_append {img : Bytes} {header : MemConfigHeader} (h : readHeader img = .ok header)
    (rest : Bytes) : readHeader (img ++ rest) = .ok header := by
  obtain ⟨bs, hload, hdec⟩ := C.bind_eq_ok_iff.mp h
  rw [readHeader, C.load_append hload, C.ok_bind]
  exact hdec

theorem readEntry_append {img : Bytes} {header : MemConfigHeader} {i : Nat}
    {e : MemConfigBlockTableEntry} (h : readEntry img header i = .ok e) (rest : Bytes) :
    readEntry (img ++ rest) header i = .ok e := by
  obtain ⟨bs, hload, hdec⟩ := C.bind_eq_ok_iff.mp h
  unfold readEntry
  dsimp only
  rw [C.load_append hload, C.ok_bind]
  exact hdec

theorem readBlock_append {img : Bytes} {e : MemConfigBlockTableEntry} {b : FoundBlock}
    (h : readBlock img e = .ok b) (rest : Bytes) : readBlock (img ++ rest) e = .ok b := by
  obtain ⟨size, hsize, h⟩ := C.bind_eq_ok_iff.mp h
  obtain ⟨bs, hload, hfound⟩ := C.bind_eq_ok_iff.mp h
  rw [readBlock, C.load_append hsize, C.ok_bind, C.load_append hload, C.ok_bind]
  exact hfound

theorem readBlocks_append {img : Bytes} {header : MemConfigHeader} {found : List FoundBlock}
    (h : readBlocks img header = .ok found) (rest : Bytes) :
    readBlocks (img ++ rest) header = .ok found := by
  refine C.mapM_ok_mono ?_ h
  intro i b hread
  obtain ⟨e, hentry, hblock⟩ := C.bind_eq_ok_iff.mp hread
  rw [readEntry_append hentry, C.ok_bind]
  exact readBlock_append hblock rest

theorem readQuick_append {img : Bytes} {quick : MemQuickConfig} (h : readQuick img = .ok quick)
    (rest : Bytes) : readQuick (img ++ rest) = .ok quick := by
  obtain ⟨bs, hload, hdec⟩ := C.bind_eq_ok_iff.mp h
  rw [readQuick, C.load_append hload, C.ok_bind]
  exact hdec

variable {Ptr : Type}

/-- What is read from a slot that starts with the image of a list: the image round-trips,
    and the reader of the slot finds in it what the reader of the image finds. -/
structure ReadsBack (quick : MemQuickConfig) (heap : Ptr → Bytes)
    (entries : List (CdcbBlockEntry Ptr)) (slot : Bytes) : Prop where
  reads : ∃ img header found written, img <+: slot ∧
    RoundTrip quick heap entries img header found ∧ readHeader slot = .ok header ∧
    readBlocks slot header = .ok found ∧ readQuick slot = .ok written ∧
    written = { quick with featHash := hashBlocks (foundFeatures found) }

variable [DecidableEq Ptr] {heap : Ptr → Bytes} {entries : List (CdcbBlockEntry Ptr)}

theorem Packable.writtenQuick_eq (h : Packable heap entries) (quick : MemQuickConfig) :
    writtenQuick quick heap entries =
      { quick with featHash := hashBlocks (foundFeatures (foundBlocks heap entries)) } := by
  rw [foundFeatures_foundBlocks, ← h.featHash_writtenQuick quick]
  rfl

theorem Packable.readsBack (h : Packable heap entries) (quick : MemQuickConfig) (rest : Bytes) :
    ReadsBack quick heap entries (image quick heap entries ++ rest) where
  reads := by
    have htrip := h.fits.roundTrip quick h.headered
    refine ⟨_, _, _, _, List.prefix_append _ _, htrip, readHeader_append htrip.readsHeader rest,
      readBlocks_append htrip.readsBlocks rest,
      readQuick_append (readQuick_image h.readable quick) rest, h.writtenQuick_eq quick⟩

-- ---------------------------------------------------------------------------
-- Invalid GUIDs
-- ---------------------------------------------------------------------------

/-- The first pass stops at an invalid GUID, whatever it did to the blocks in front. -/
theorem firstPass_invalid {index : Nat} {done : Bytes} {m : Nat} (offset : UInt16)
    (hread : ∀ e ∈ entries, Readable (heap e.ptr)) (hdone : done.length = 4 * index)
    (hm : 4 * entries.length ≤ m) (hinvalid : ∃ e ∈ entries, e.guid = guidInvalid) :
    firstPass entries index ⟨heap, done ++ List.replicate m 0, offset⟩ = .ok none := by
  induction entries generalizing index heap done m offset with
  | nil =>
    obtain ⟨e, he, -⟩ := hinvalid
    cases he
  | cons e rest ih =>
    rw [List.length_cons] at hm
    rw [firstPass]
    split
    next => rfl
    next hguid =>
      have hrest : ∃ d ∈ rest, d.guid = guidInvalid := by
        obtain ⟨d, hd, hd'⟩ := hinvalid
        obtain rfl | hmem := List.mem_cons.mp hd
        · exact (hguid hd').elim
        · exact ⟨d, hmem, hd'⟩
      have hnext : (done ++ MemConfigBlockTableEntry.layout.enc ⟨e.guid, offset⟩).length =
          4 * (index + 1) := by
        rw [List.length_append, MemConfigBlockTableEntry.length_enc]
        omega
      rw [addEntry_eq (hread e List.mem_cons_self) offset hdone (by omega), C.ok_bind]
      refine ih _ ?_ hnext (by omega) hrest
      exact fun d hd => (hread d (List.mem_cons_of_mem e hd)).update_sealed e.ptr

theorem main_invalidGuid (hcount : entries.length ≤ 255)
    (hread : ∀ e ∈ entries, Readable (heap e.ptr)) (hinvalid : ∃ e ∈ entries, e.guid = guidInvalid)
    (quick : MemQuickConfig) : main quick heap entries = .ok .invalidGuid := by
  have hroom := le_tableRoom entries.length
  unfold main
  dsimp only
  rw [blockTableSize_eq (by omega), ← List.nil_append (List.replicate _ _),
    firstPass_invalid _ hread List.length_nil hroom hinvalid]
  rfl

end MemConfig
