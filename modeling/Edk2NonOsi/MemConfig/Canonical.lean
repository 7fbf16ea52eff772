-- SUMMARY: Images and lists determine each other: two runs write the same image exactly for the same contents, and packing what is read from an image gives the image again.
import Edk2NonOsi.MemConfig.Slot

namespace MemConfig

variable {Ptr Ptr' : Type} {heap : Ptr → Bytes} {heap' : Ptr' → Bytes}
  {entries : List (CdcbBlockEntry Ptr)} {entries' : List (CdcbBlockEntry Ptr')}

/-- Two entries list the same: the GUID, and the object but for its checksum. -/
def SameEntry (heap : Ptr → Bytes) (heap' : Ptr' → Bytes) (e : CdcbBlockEntry Ptr)
    (e' : CdcbBlockEntry Ptr') : Prop :=
  e.guid = e'.guid ∧ SameContents (heap e.ptr) (heap' e'.ptr)

/-- Two lists with the same contents, whatever their objects are called and wherever they
    share one. -/
abbrev SameEntries (heap : Ptr → Bytes) (heap' : Ptr' → Bytes)
    (entries : List (CdcbBlockEntry Ptr)) (entries' : List (CdcbBlockEntry Ptr')) : Prop :=
  List.Forall₂ (SameEntry heap heap') entries entries'

/-- The same quick config, but for `FeatHash`, which the tool sets. -/
def SameQuick (quick quick' : MemQuickConfig) : Prop :=
  { quick with featHash := 0 } = { quick' with featHash := 0 }

-- ---------------------------------------------------------------------------
-- Sealed objects
-- ---------------------------------------------------------------------------

theorem sameContents_iff {obj obj' : Bytes} : SameContents obj obj' ↔ sealed obj = sealed obj' := by
  constructor
  · intro h
    exact sealed_congr h.1 h.2
  · intro h
    refine ⟨?_, ?_⟩
    · rw [← length_sealed obj, h, length_sealed]
    · have hagree := sealed_agreeOff obj
      rw [h] at hagree
      have hoff := hagree.symm.trans (sealed_agreeOff obj')
      rwa [Set.union_self] at hoff

theorem sameContents_sealed (obj : Bytes) : SameContents (sealed obj) obj :=
  sameContents_iff.mpr (sealed_sealed obj)

theorem SameContents.blockSize_eq {obj obj' : Bytes} (h : SameContents obj obj') :
    blockSize obj = blockSize obj' := by
  rw [← blockSize_sealed obj, sameContents_iff.mp h, blockSize_sealed]

theorem SameContents.headered {obj obj' : Bytes} (h : SameContents obj obj')
    (hobj : Headered obj') : Headered obj := by
  obtain ⟨hheader, hsize⟩ := hobj
  rw [← h.1] at hheader hsize
  rw [← h.blockSize_eq] at hsize
  exact ⟨hheader, hsize⟩

-- ---------------------------------------------------------------------------
-- The parts of an image
-- ---------------------------------------------------------------------------

section Parts

variable (h : SameEntries heap heap' entries entries')
include h

theorem SameEntries.sizes_eq : sizes heap entries = sizes heap' entries' := by
  induction h with
  | nil => rfl
  | cons hsame _ ih =>
    rw [sizes, sizes, List.map_cons, List.map_cons, hsame.2.blockSize_eq]
    exact congrArg _ ih

theorem SameEntries.tableEntries_eq (offset : UInt16) :
    tableEntries heap entries offset = tableEntries heap' entries' offset := by
  induction h generalizing offset with
  | nil => rfl
  | cons hsame _ ih =>
    rw [tableEntries, tableEntries, hsame.1, hsame.2.blockSize_eq, ih]

theorem SameEntries.packedSize_eq : packedSize heap entries = packedSize heap' entries' := by
  rw [packedSize, packedSize, h.length_eq, h.sizes_eq]

theorem SameEntries.writtenHeader_eq :
    writtenHeader heap entries = writtenHeader heap' entries' := by
  rw [writtenHeader, writtenHeader, h.length_eq, h.packedSize_eq]

theorem SameEntries.tableBytes_eq : tableBytes heap entries = tableBytes heap' entries' := by
  rw [tableBytes, tableBytes, blockStart_zero, blockStart_zero, h.length_eq, h.tableEntries_eq]

/-- The objects as they are written. -/
theorem SameEntries.sealed_eq :
    (entries.map fun e => sealed (heap e.ptr)) = entries'.map fun e => sealed (heap' e.ptr) := by
  induction h with
  | nil => rfl
  | cons hsame _ ih => rw [List.map_cons, List.map_cons, sameContents_iff.mp hsame.2, ih]

/-- The feature blocks are in the same places. -/
theorem SameEntries.features_eq :
    (features heap entries).map sealed = (features heap' entries').map sealed := by
  induction h with
  | nil => rfl
  | @cons e e' rest rest' hsame _ ih =>
    by_cases hguid : e.guid = memConfigBlockFeatureGuid
    · have hguid' : e'.guid = memConfigBlockFeatureGuid := hsame.1.symm.trans hguid
      rw [features, features, List.filter_cons_of_pos (by simpa using hguid),
        List.filter_cons_of_pos (by simpa using hguid'), List.map_cons, List.map_cons,
        List.map_cons, List.map_cons, sameContents_iff.mp hsame.2]
      exact congrArg _ ih
    · have hguid' : ¬ e'.guid = memConfigBlockFeatureGuid := by
        rw [← hsame.1]
        exact hguid
      rw [features, features, List.filter_cons_of_neg (by simpa using hguid),
        List.filter_cons_of_neg (by simpa using hguid')]
      exact ih

theorem SameEntries.headered (hblocks : ∀ e ∈ entries', Headered (heap' e.ptr)) :
    ∀ e ∈ entries, Headered (heap e.ptr) := by
  induction h with
  | nil => exact fun e he => absurd he List.not_mem_nil
  | cons hsame _ ih =>
    rw [List.forall_mem_cons] at hblocks ⊢
    exact ⟨hsame.2.headered hblocks.1, ih hblocks.2⟩

theorem SameEntries.guid_ne (hguid : ∀ e ∈ entries', e.guid ≠ guidInvalid) :
    ∀ e ∈ entries, e.guid ≠ guidInvalid := by
  induction h with
  | nil => exact fun e he => absurd he List.not_mem_nil
  | cons hsame _ ih =>
    rw [List.forall_mem_cons] at hguid ⊢
    refine ⟨?_, ih hguid.2⟩
    rw [hsame.1]
    exact hguid.1

/-- What can be packed can be packed from other objects with the same contents. -/
theorem SameEntries.packable (hpack : Packable heap' entries') : Packable heap entries where
  count := by
    rw [h.length_eq]
    exact hpack.count
  guid := h.guid_ne hpack.guid
  headered := h.headered hpack.headered
  size := by
    have hblocks := h.headered hpack.headered
    rw [imageSize_eq fun e he => (hblocks e he).size, h.packedSize_eq,
      ← imageSize_eq fun e he => (hpack.headered e he).size]
    exact hpack.size

end Parts

-- ---------------------------------------------------------------------------
-- The image
-- ---------------------------------------------------------------------------

section Image

variable [DecidableEq Ptr] [DecidableEq Ptr'] {quick quick' : MemQuickConfig}

/-- The blocks of an image are the sealed objects, whole. -/
theorem Packable.blocks_sealedHeap (h : Packable heap entries) :
    blocks (sealedHeap heap entries) entries = entries.map fun e => sealed (heap e.ptr) := by
  apply List.map_congr_left
  intro e he
  rw [sealedHeap_of_mem heap he, (h.headered e he).blockBytes_sealed]

theorem image_eq_of_same (hpack : Packable heap entries) (hpack' : Packable heap' entries')
    (hquick : SameQuick quick quick') (h : SameEntries heap heap' entries entries') :
    image quick heap entries = image quick' heap' entries' := by
  have hhash : featHashAfter (sealedHeap heap entries) entries 0 =
      featHashAfter (sealedHeap heap' entries') entries' 0 := by
    rw [featHashAfter_sealed hpack.headered, featHashAfter_sealed hpack'.headered, h.features_eq]
  have hwritten : writtenQuick quick heap entries = writtenQuick quick' heap' entries' := by
    rw [writtenQuick, writtenQuick, hhash]
    exact congrArg (fun q : MemQuickConfig =>
      { q with featHash := featHashAfter (sealedHeap heap' entries') entries' 0 }) hquick
  rw [image, image, front, front, hwritten, h.writtenHeader_eq, h.tableBytes_eq,
    hpack.blocks_sealedHeap, hpack'.blocks_sealedHeap, h.sealed_eq]

omit [DecidableEq Ptr] [DecidableEq Ptr'] in
/-- The found blocks tell the lists apart. -/
theorem sameEntries_of_foundBlocks (h : foundBlocks heap entries = foundBlocks heap' entries') :
    SameEntries heap heap' entries entries' := by
  have hlen : entries.length = entries'.length := by
    rw [← length_foundBlocks heap, h, length_foundBlocks]
  rw [SameEntries, List.forall₂_iff_get]
  refine ⟨hlen, ?_⟩
  intro i hi hi'
  have hf : i < (foundBlocks heap entries).length := lt_length_foundBlocks.mpr hi
  have hf' : i < (foundBlocks heap' entries').length := lt_length_foundBlocks.mpr hi'
  have hsame : (foundBlocks heap entries)[i]? = (foundBlocks heap' entries')[i]? := by rw [h]
  rw [List.getElem?_eq_getElem hf, getElem_foundBlocks hf hi, List.getElem?_eq_getElem hf',
    getElem_foundBlocks hf' hi'] at hsame
  obtain ⟨hguid, -, hbytes⟩ := FoundBlock.mk.inj (Option.some.inj hsame)
  exact ⟨hguid, sameContents_iff.mpr hbytes⟩

/-- Equal images read alike. -/
theorem same_of_image_eq (hpack : Packable heap entries) (hpack' : Packable heap' entries')
    (h : image quick heap entries = image quick' heap' entries') :
    SameQuick quick quick' ∧ SameEntries heap heap' entries entries' := by
  have hheader := readHeader_image hpack.readable quick
  have hfound := hpack.fits.readBlocks_image quick hpack.headered
  have hquick := readQuick_image hpack.readable quick
  rw [h, readHeader_image hpack'.readable] at hheader
  rw [h, ← Except.ok.inj hheader, hpack'.fits.readBlocks_image quick' hpack'.headered] at hfound
  rw [h, readQuick_image hpack'.readable] at hquick
  refine ⟨?_, sameEntries_of_foundBlocks (Except.ok.inj hfound).symm⟩
  exact congrArg (fun q : MemQuickConfig => { q with featHash := 0 }) (Except.ok.inj hquick).symm

/-- **The image is canonical.** Two runs on lists the tool is meant for write the same image
    exactly when they are given the same quick config, up to `FeatHash`, and lists with the
    same GUIDs and contents, up to `BlockChecksum`; which objects are shared does not show. -/
theorem main_eq_iff (quick quick' : MemQuickConfig) (hpack : Packable heap entries)
    (hpack' : Packable heap' entries') :
    main quick heap entries = main quick' heap' entries' ↔
      SameQuick quick quick' ∧ SameEntries heap heap' entries entries' := by
  rw [main_eq hpack.fits, main_eq hpack'.fits]
  constructor
  · intro h
    exact same_of_image_eq hpack hpack' (Outcome.written.inj (Except.ok.inj h))
  · rintro ⟨hquick, h⟩
    rw [image_eq_of_same hpack hpack' hquick h]

end Image

-- ---------------------------------------------------------------------------
-- Packing again
-- ---------------------------------------------------------------------------

/-- The blocks found in an image, as objects and as a list. -/
def foundHeap (found : List FoundBlock) (i : Nat) : Bytes :=
  match found[i]? with
  | none => []
  | some b => b.bytes

def foundEntries (found : List FoundBlock) : List (CdcbBlockEntry Nat) :=
  found.mapIdx fun i b => ⟨b.guid, i⟩

theorem sameEntries_found (heap : Ptr → Bytes) (entries : List (CdcbBlockEntry Ptr)) :
    SameEntries (foundHeap (foundBlocks heap entries)) heap
      (foundEntries (foundBlocks heap entries)) entries := by
  have hlen : (foundEntries (foundBlocks heap entries)).length = entries.length := by
    rw [foundEntries, List.length_mapIdx, length_foundBlocks]
  rw [SameEntries, List.forall₂_iff_get]
  refine ⟨hlen, ?_⟩
  intro i hi hi'
  have hf : i < (foundBlocks heap entries).length := lt_length_foundBlocks.mpr hi'
  have hbytes : foundHeap (foundBlocks heap entries) i = sealed (heap entries[i].ptr) := by
    rw [foundHeap, List.getElem?_eq_getElem hf, getElem_foundBlocks hf hi']
  have hentry : (foundEntries (foundBlocks heap entries))[i] = ⟨entries[i].guid, i⟩ := by
    simp only [foundEntries, List.getElem_mapIdx, getElem_foundBlocks hf hi']
  rw [List.get_eq_getElem, List.get_eq_getElem, hentry]
  refine ⟨rfl, ?_⟩
  rw [hbytes]
  exact sameContents_sealed _

/-- **Reading and packing again.** From an image the tool wrote, the reader recovers a quick
    config and a list from which the tool writes the same image. -/
theorem main_repack [DecidableEq Ptr] (quick : MemQuickConfig) (hpack : Packable heap entries) :
    ∃ img header found written, main quick heap entries = .ok (.written img) ∧
      readHeader img = .ok header ∧ readBlocks img header = .ok found ∧
      readQuick img = .ok written ∧
      main written (foundHeap found) (foundEntries found) = .ok (.written img) := by
  have hsame := sameEntries_found heap entries
  have hagain := hsame.packable hpack
  have hquick : SameQuick (writtenQuick quick heap entries) quick := rfl
  refine ⟨_, _, _, _, main_eq hpack.fits quick, readHeader_image hpack.readable quick,
    hpack.fits.readBlocks_image quick hpack.headered, readQuick_image hpack.readable quick, ?_⟩
  rw [main_eq hagain.fits, image_eq_of_same hagain hpack hquick hsame]

/-- The second object of the list under another name, with a checksum already in it. -/
def renamedBlocks (i : Nat) : Bytes :=
  if i = 0 then sampleBlocks false else sealed (sampleBlocks true)

def renamedEntries : List (CdcbBlockEntry Nat) :=
  [⟨0x1001, 1⟩, ⟨0x1000, 0⟩, ⟨0x1001, 2⟩]

theorem sameEntries_renamed :
    SameEntries renamedBlocks sampleBlocks renamedEntries sampleEntries := by
  refine .cons ⟨rfl, sameContents_sealed _⟩ (.cons ⟨rfl, sameContents_iff.mpr rfl⟩
    (.cons ⟨rfl, sameContents_sealed _⟩ .nil))

theorem main_eq_iff_renamed :
    main (MemQuickConfig.layout.filled 0) renamedBlocks renamedEntries =
      main (MemQuickConfig.layout.filled 0) sampleBlocks sampleEntries :=
  (main_eq_iff _ _ (sameEntries_renamed.packable packable_sample) packable_sample).mpr
    ⟨rfl, sameEntries_renamed⟩

theorem main_repack_sample :
    ∃ img written found, main (MemQuickConfig.layout.filled 0) sampleBlocks sampleEntries =
        .ok (.written img) ∧ readQuick img = .ok written ∧
      main written (foundHeap found) (foundEntries found) = .ok (.written img) := by
  obtain ⟨img, -, found, written, hmain, -, -, hquick, hagain⟩ :=
    main_repack (MemQuickConfig.layout.filled 0) packable_sample
  exact ⟨img, written, found, hmain, hquick, hagain⟩

end MemConfig
