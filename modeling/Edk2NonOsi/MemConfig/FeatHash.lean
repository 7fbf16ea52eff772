-- SUMMARY: `FeatHash` of a written image: the hash of its feature blocks, whatever else is in it.
import Edk2NonOsi.MemConfig.RoundTrip

namespace MemConfig

/-- The quick config at the start of an image. -/
def readQuick (img : Bytes) : Except C.Fault MemQuickConfig := do
  let bs ← C.load img 0 MemQuickConfig.layout.size
  return MemQuickConfig.layout.dec bs

/-- `DJBHash` over one block after another, each padded to 16 bytes. -/
def hashBlocks (blocks : List Bytes) : UInt32 :=
  blocks.foldl (fun hash block => djb hash (Packing.padded 16 0 block)) 0

/-- The feature blocks among those found in an image. -/
def foundFeatures (found : List FoundBlock) : List Bytes :=
  (found.filter fun b => b.guid = memConfigBlockFeatureGuid).map FoundBlock.bytes

variable {Ptr : Type}

/-- The feature blocks of a list. -/
def features (heap : Ptr → Bytes) (entries : List (CdcbBlockEntry Ptr)) : List Bytes :=
  (entries.filter fun e => e.guid = memConfigBlockFeatureGuid).map fun e => heap e.ptr

/-- The same bytes, except for `BlockChecksum`. -/
def SameContents (obj obj' : Bytes) : Prop :=
  obj.length = obj'.length ∧ Span.AgreeOff {blockChecksumOffset} obj obj'

/-! ## The hash of the second pass -/

variable {heap : Ptr → Bytes} {entries : List (CdcbBlockEntry Ptr)}

/-- The second pass hashes the feature blocks in list order. -/
theorem featHashAfter_eq_foldl (heap : Ptr → Bytes) (entries : List (CdcbBlockEntry Ptr))
    (hash : UInt32) :
    featHashAfter heap entries hash =
      ((features heap entries).map blockBytes).foldl
        (fun hash block => djb hash (Packing.padded 16 0 block)) hash := by
  induction entries generalizing hash with
  | nil => rfl
  | cons e rest ih =>
    rw [featHashAfter, ih, features, features]
    by_cases hguid : e.guid = memConfigBlockFeatureGuid
    · rw [if_pos hguid, List.filter_cons_of_pos (by simpa using hguid)]
      rfl
    · rw [if_neg hguid, List.filter_cons_of_neg (by simpa using hguid)]

theorem features_congr {heap' : Ptr → Bytes} (h : ∀ e ∈ entries, heap' e.ptr = heap e.ptr) :
    features heap' entries = features heap entries :=
  List.map_congr_left fun e he => h e (List.mem_of_mem_filter he)

/-- The hash that is stored is that of the sealed feature blocks. -/
theorem featHashAfter_sealed [DecidableEq Ptr] (h : ∀ e ∈ entries, Headered (heap e.ptr)) :
    featHashAfter (sealedHeap heap entries) entries 0 =
      hashBlocks ((features heap entries).map sealed) := by
  have hsealed : features (sealedHeap heap entries) entries =
      features (fun p => sealed (heap p)) entries :=
    features_congr fun e he => sealedHeap_of_mem heap he
  have hbytes : (features (fun p => sealed (heap p)) entries).map blockBytes =
      (features heap entries).map sealed := by
    rw [features, features, List.map_map, List.map_map]
    apply List.map_congr_left
    intro e he
    exact (h e (List.mem_of_mem_filter he)).blockBytes_sealed
  rw [featHashAfter_eq_foldl, hsealed, hbytes, hashBlocks]

/-- The feature blocks of a written image are the sealed ones of the list. -/
theorem foundFeatures_foundBlocks (heap : Ptr → Bytes) (entries : List (CdcbBlockEntry Ptr)) :
    foundFeatures (foundBlocks heap entries) = (features heap entries).map sealed := by
  let view : FoundBlock → UInt16 × Bytes := fun b => (b.guid, b.bytes)
  have hview : (foundBlocks heap entries).map view =
      entries.map fun e => (e.guid, sealed (heap e.ptr)) := by
    apply List.ext_getElem?
    intro i
    simp only [foundBlocks, List.getElem?_map, List.getElem?_mapIdx, Option.map_map]
    rfl
  have hfound (found : List FoundBlock) : foundFeatures found =
      ((found.map view).filter fun p => p.1 = memConfigBlockFeatureGuid).map Prod.snd := by
    rw [List.filter_map, List.map_map]
    rfl
  rw [hfound, hview, List.filter_map, List.map_map, features, List.map_map]
  rfl

/-! ## The hash in an image -/

theorem map_sealed_congr {blocks blocks' : List Bytes}
    (h : List.Forall₂ SameContents blocks blocks') : blocks.map sealed = blocks'.map sealed := by
  induction h with
  | nil => rfl
  | cons hsame _ ih => rw [List.map_cons, List.map_cons, sealed_congr hsame.1 hsame.2, ih]

theorem Packable.readable (h : Packable heap entries) : ∀ e ∈ entries, Readable (heap e.ptr) :=
  fun e he => (h.headered e he).readable

variable [DecidableEq Ptr]

theorem readQuick_image (h : ∀ e ∈ entries, Readable (heap e.ptr)) (quick : MemQuickConfig) :
    readQuick (image quick heap entries) = .ok (writtenQuick quick heap entries) := by
  have hlen := length_image h quick
  have hbound : 0 + 32 ≤ (image quick heap entries).length := by
    rw [hlen]
    omega
  rw [readQuick, MemQuickConfig.layout_size, C.load_of_le hbound, read_image_quick, C.ok_bind,
    Layout.dec_enc]
  rfl

theorem Packable.featHash_writtenQuick (h : Packable heap entries) (quick : MemQuickConfig) :
    (writtenQuick quick heap entries).featHash =
      hashBlocks ((features heap entries).map sealed) :=
  featHashAfter_sealed h.headered

/-- **`FeatHash` is a function of the feature blocks.** What a run stores is the hash
    of the feature blocks that are found in its image, and two runs on lists with the
    same feature blocks store the same, whatever else they are given. -/
theorem main_featHash (h : Packable heap entries) (quick : MemQuickConfig) :
    ∃ img header found written, main quick heap entries = .ok (.written img) ∧
      readHeader img = .ok header ∧ readBlocks img header = .ok found ∧
      readQuick img = .ok written ∧ written.featHash = hashBlocks (foundFeatures found) ∧
      ∀ (Ptr' : Type) [DecidableEq Ptr'] (quick' : MemQuickConfig) (heap' : Ptr' → Bytes)
        (entries' : List (CdcbBlockEntry Ptr')), Packable heap' entries' →
        List.Forall₂ SameContents (features heap entries) (features heap' entries') →
        ∃ img' written', main quick' heap' entries' = .ok (.written img') ∧
          readQuick img' = .ok written' ∧ written'.featHash = written.featHash := by
  refine ⟨_, _, _, _, main_eq h.fits quick, readHeader_image h.readable quick,
    h.fits.readBlocks_image quick h.headered, readQuick_image h.readable quick, ?_, ?_⟩
  · rw [h.featHash_writtenQuick, foundFeatures_foundBlocks]
  · intro Ptr' _ quick' heap' entries' h' hsame
    refine ⟨_, _, main_eq h'.fits quick', readQuick_image h'.readable quick', ?_⟩
    rw [h'.featHash_writtenQuick, h.featHash_writtenQuick, map_sealed_congr hsame]

/-- A feature block that is listed twice. -/
def sampleFeatures : List (CdcbBlockEntry Bool) :=
  [⟨memConfigBlockFeatureGuid, true⟩, ⟨memConfigBlockFeatureGuid, true⟩]

theorem packable_sampleFeatures : Packable sampleBlocks sampleFeatures where
  count := by decide
  guid := by decide
  headered e _ := sampleBlocks_headered e.ptr
  size := by decide +kernel

theorem packable_sampleEntries_append : Packable sampleBlocks (sampleEntries ++ sampleFeatures) where
  count := by decide
  guid := by decide
  headered e _ := sampleBlocks_headered e.ptr
  size := by decide +kernel

/-- The runs with any other quick config, and with other blocks in front. -/
theorem main_featHash_sample :
    ∃ img written,
      main (MemQuickConfig.layout.filled 0) sampleBlocks sampleFeatures = .ok (.written img) ∧
        readQuick img = .ok written ∧
        ∀ quick', ∃ img' written',
          main quick' sampleBlocks (sampleEntries ++ sampleFeatures) = .ok (.written img') ∧
            readQuick img' = .ok written' ∧ written'.featHash = written.featHash := by
  obtain ⟨img, -, -, written, hmain, -, -, hquick, -, hruns⟩ :=
    main_featHash packable_sampleFeatures (MemQuickConfig.layout.filled 0)
  refine ⟨img, written, hmain, hquick, fun quick' => ?_⟩
  apply hruns Bool quick' sampleBlocks (sampleEntries ++ sampleFeatures)
    packable_sampleEntries_append
  have hsame : features sampleBlocks (sampleEntries ++ sampleFeatures) =
      features sampleBlocks sampleFeatures := rfl
  rw [hsame]
  exact List.forall₂_same.mpr fun _ _ => ⟨rfl, Span.AgreeOff.refl _ _⟩

end MemConfig
