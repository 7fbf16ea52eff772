-- SUMMARY: Where the 16-bit offsets of the two passes part: the second pass counts from 32 bytes further on, and wraps in a window of total sizes in which the first does not.
import Edk2NonOsi.MemConfig.RoundTrip

namespace MemConfig

-- ---------------------------------------------------------------------------
-- Agreement of the passes
-- ---------------------------------------------------------------------------

variable {Ptr : Type}

/-- Entry `i` of the table the first pass filled. -/
def tableEntry (table : Bytes) (i : Nat) : MemConfigBlockTableEntry :=
  MemConfigBlockTableEntry.layout.dec
    (Span.read table (MemConfigBlockTableEntry.layout.size * i)
      MemConfigBlockTableEntry.layout.size)

/-- The buffer position the second pass copies block `i` to. -/
def copyPosition (heap : Ptr → Bytes) (entries : List (CdcbBlockEntry Ptr)) (c : CopyState)
    (i : Nat) : Except C.Fault Nat := do
  let c ← secondPass heap (entries.take i) c
  return c.offset.toNat

/-- The buffer positions block `i` is copied over, when it is copied to `pos`. -/
def copyRange (heap : Ptr → Bytes) (entries : List (CdcbBlockEntry Ptr)) {i : Nat}
    (hi : i < entries.length) (pos : Nat) : Set Nat :=
  Set.Ico pos (pos + blockSize (heap entries[i].ptr))

/-- The second pass from `c` copies every block to where the table of `s` says, clear
    of the bytes in front of the blocks and of the other blocks. -/
structure CopiesAgree (entries : List (CdcbBlockEntry Ptr)) (s : TableState Ptr)
    (c : CopyState) : Prop where
  position : ∀ i < entries.length,
    copyPosition s.heap entries c i = .ok (blockOffset (tableEntry s.table i).offset)
  clear : ∀ i (hi : i < entries.length),
    Disjoint (copyRange s.heap entries hi (blockOffset (tableEntry s.table i).offset))
      (Set.Ico 0 (MemQuickConfig.layout.size + MemConfigHeader.layout.size + s.table.length))
  apart : ∀ i j (hi : i < entries.length) (hj : j < entries.length), i ≠ j →
    Disjoint (copyRange s.heap entries hi (blockOffset (tableEntry s.table i).offset))
      (copyRange s.heap entries hj (blockOffset (tableEntry s.table j).offset))

/-- `main` reaches its second pass, and the copies there agree with the table. -/
def PassesAgree [DecidableEq Ptr] (quick : MemQuickConfig) (heap : Ptr → Bytes)
    (entries : List (CdcbBlockEntry Ptr)) : Prop :=
  ∃ s header c,
    firstPass entries 0 ⟨heap, List.replicate (blockTableSize entries.length) 0,
      UInt16.ofNat (MemConfigHeader.layout.size + blockTableSize entries.length)⟩ =
        .ok (some s) ∧
    finishHeader entries.length s.offset = .ok header ∧
    startImage quick header s.table = .ok c ∧
    CopiesAgree entries s c

-- ---------------------------------------------------------------------------
-- The window
-- ---------------------------------------------------------------------------

/-- The lists on which the second pass wraps before its last copy and the first pass
    does not. -/
def WrapsBeforeLast (heap : Ptr → Bytes) (entries : List (CdcbBlockEntry Ptr)) : Prop :=
  packedSize heap entries = 65520 ∧ (sizes heap entries).getLast? = some 16

variable {heap : Ptr → Bytes} {entries : List (CdcbBlockEntry Ptr)}

/-- Every block but the last starts below the limit of the second pass. -/
theorem blockStart_lt_of_not_last (hmin : ∀ e ∈ entries, 16 ≤ blockSize (heap e.ptr))
    (htotal : packedSize heap entries ≤ 65535) {i : Nat} (hi : i + 1 < entries.length) :
    32 + blockStart heap entries i < 65536 := by
  have hfirst := hmin entries[i] (List.getElem_mem _)
  have hsecond := hmin entries[i + 1] (List.getElem_mem _)
  have hnext := blockEnd_le_succ heap (Nat.lt_of_succ_lt hi)
  have hend := blockEnd_le_packedSize heap hi
  omega

/-- The last block starts there too, except in the window. -/
theorem blockStart_lt_iff_of_last (hmin : ∀ e ∈ entries, 16 ≤ blockSize (heap e.ptr))
    (htotal : packedSize heap entries ≤ 65535) {i : Nat} (hi : i < entries.length)
    (hlast : i + 1 = entries.length) :
    32 + blockStart heap entries i < 65536 ↔ ¬ WrapsBeforeLast heap entries := by
  have hsize := hmin entries[i] (List.getElem_mem hi)
  have hend := blockStart_succ heap hi
  have hdvd := dvd_packedSize heap entries
  have halign := Packing.dvd_alignUp 16 (blockSize (heap entries[i].ptr))
  have hle := Packing.le_alignUp (by decide : 0 < 16) (blockSize (heap entries[i].ptr))
  have hself : Packing.alignUp 16 16 = 16 := by decide
  have hget : (sizes heap entries).getLast? = some (blockSize (heap entries[i].ptr)) := by
    rw [List.getLast?_eq_getElem?]
    have hpred : (sizes heap entries).length - 1 = i := by
      rw [length_sizes]
      omega
    rw [hpred]
    simp [sizes, hi]
  rw [hlast, blockStart_length] at hend
  rw [WrapsBeforeLast, hget, Option.some_inj]
  constructor
  · rintro hlt ⟨htop, h16⟩
    rw [h16, hself] at hend
    omega
  · intro hwindow
    by_contra hge
    apply hwindow
    omega

theorem blockStarts_lt_iff (hmin : ∀ e ∈ entries, 16 ≤ blockSize (heap e.ptr))
    (htotal : packedSize heap entries ≤ 65535) :
    (∀ i < entries.length, 32 + blockStart heap entries i < 65536) ↔
      ¬ WrapsBeforeLast heap entries := by
  by_cases hempty : entries = []
  · subst hempty
    simp [WrapsBeforeLast, sizes]
  · have hpos := List.length_pos_iff.mpr hempty
    have hlast : entries.length - 1 < entries.length := by omega
    have hiff := blockStart_lt_iff_of_last hmin htotal hlast (by omega)
    rw [← hiff]
    constructor
    · exact fun h => h _ hlast
    · intro h i hi
      by_cases hnext : i + 1 < entries.length
      · exact blockStart_lt_of_not_last hmin htotal hnext
      · have hi' : i = entries.length - 1 := by omega
        rw [hi']
        exact h

-- ---------------------------------------------------------------------------
-- The copies
-- ---------------------------------------------------------------------------

theorem TableFits.blockOffset_tableEntry (h : TableFits heap entries) {i : Nat}
    (hi : i < entries.length) :
    blockOffset (tableEntry (tableBytes heap entries) i).offset =
      32 + blockStart heap entries i := by
  have hread := read_tableBytes heap hi []
  rw [List.append_nil] at hread
  rw [tableEntry, MemConfigBlockTableEntry.layout_size, hread, Layout.dec_enc,
    h.blockOffset_blockStart hi]

variable [DecidableEq Ptr]

/-- The state the second pass of `main` starts from. -/
def secondPassStart (quick : MemQuickConfig) (heap : Ptr → Bytes)
    (entries : List (CdcbBlockEntry Ptr)) : CopyState where
  buf := front quick heap entries ++ List.replicate (Packing.extent 16 (sizes heap entries)) 0
  offset := UInt16.ofNat (front quick heap entries).length
  featHash := 0

/-- The state the first pass of `main` ends in. -/
def firstPassEnd (heap : Ptr → Bytes) (entries : List (CdcbBlockEntry Ptr)) : TableState Ptr where
  heap := sealedHeap heap entries
  table := tableBytes heap entries
  offset := UInt16.ofNat (packedSize heap entries)

theorem TableFits.passesAgree_iff_copiesAgree (h : TableFits heap entries) (quick : MemQuickConfig) :
    PassesAgree quick heap entries ↔
      CopiesAgree entries (firstPassEnd heap entries) (secondPassStart quick heap entries) := by
  have hfirst := h.firstPass_eq
  have hfinish : finishHeader entries.length (firstPassEnd heap entries).offset =
      .ok (writtenHeader heap entries) := finishHeader_eq _ _
  have hstart : startImage quick (writtenHeader heap entries) (firstPassEnd heap entries).table =
      .ok (secondPassStart quick heap entries) := h.startImage_eq quick
  constructor
  · rintro ⟨s, header, c, hs, hheader, hc, hagree⟩
    obtain rfl := Option.some.inj (Except.ok.inj (hfirst.symm.trans hs))
    obtain rfl := Except.ok.inj (hfinish.symm.trans hheader)
    obtain rfl := Except.ok.inj (hstart.symm.trans hc)
    exact hagree
  · exact fun hagree => ⟨_, _, _, hfirst, hfinish, hstart, hagree⟩

/-- Where a block is copied to, when the offset was exact for those before it. -/
theorem TableFits.copyPosition_eq (h : TableFits heap entries) (quick : MemQuickConfig) {i : Nat}
    (hstarts : ∀ k < i, k < entries.length → 32 + blockStart heap entries k < 65536) :
    copyPosition (sealedHeap heap entries) entries (secondPassStart quick heap entries) i =
      .ok ((32 + blockStart heap entries i) % 65536) := by
  rw [copyPosition, secondPassStart, h.secondPass_take_eq quick hstarts, C.ok_bind]
  dsimp only
  rw [UInt16.toNat_ofNat']
  rfl

/-- The copies agree with the table while the second offset does not wrap. -/
theorem TableFits.copiesAgree (h : TableFits heap entries) (quick : MemQuickConfig)
    (hstarts : ∀ i < entries.length, 32 + blockStart heap entries i < 65536) :
    CopiesAgree entries (firstPassEnd heap entries) (secondPassStart quick heap entries) where
  position := by
    intro i hi
    have hpos := h.copyPosition_eq quick (i := i) fun k _ hk => hstarts k hk
    rw [Nat.mod_eq_of_lt (hstarts i hi)] at hpos
    rw [firstPassEnd, h.blockOffset_tableEntry hi]
    exact hpos
  clear := by
    intro i hi
    rw [firstPassEnd, h.blockOffset_tableEntry hi, length_tableBytes, MemQuickConfig.layout_size,
      MemConfigHeader.layout_size, copyRange, Set.Ico_disjoint_Ico]
    have hstart := blockStart_mono heap entries (Nat.zero_le i)
    rw [blockStart_zero] at hstart
    omega
  apart := by
    intro i j hi hj hij
    wlog hlt : i < j generalizing i j with hsymm
    · exact (hsymm j i hj hi hij.symm (by omega)).symm
    have hend := blockEnd_le_blockStart heap hi hlt
    rw [firstPassEnd, h.blockOffset_tableEntry hi, h.blockOffset_tableEntry hj, copyRange,
      copyRange, Set.Ico_disjoint_Ico, blockSize_sealedHeap]
    omega

/-- Where they agree, the second offset has not wrapped. -/
theorem TableFits.blockStarts_lt (h : TableFits heap entries) (quick : MemQuickConfig)
    (hmin : ∀ e ∈ entries, 16 ≤ blockSize (heap e.ptr))
    (hagree : CopiesAgree entries (firstPassEnd heap entries)
      (secondPassStart quick heap entries)) :
    ∀ i < entries.length, 32 + blockStart heap entries i < 65536 := by
  have htotal := h.total
  intro i hi
  have hbefore : ∀ k < i, k < entries.length → 32 + blockStart heap entries k < 65536 :=
    fun k hk _ => blockStart_lt_of_not_last hmin (by omega) (by omega)
  have hpos := hagree.position i hi
  rw [firstPassEnd, h.blockOffset_tableEntry hi] at hpos
  have hmod := Except.ok.inj ((h.copyPosition_eq quick hbefore).symm.trans hpos)
  have hlt := Nat.mod_lt (32 + blockStart heap entries i) (by decide : 0 < 65536)
  omega

/-- The two passes agree on every list of blocks whose packed size fits in 16 bits,
    except where the last block starts at 65536 of the image. -/
theorem passesAgree_iff (quick : MemQuickConfig) (heap : Ptr → Bytes)
    (entries : List (CdcbBlockEntry Ptr)) (hcount : entries.length ≤ 255)
    (hguid : ∀ e ∈ entries, e.guid ≠ guidInvalid) (hread : ∀ e ∈ entries, Readable (heap e.ptr))
    (hmin : ∀ e ∈ entries, 16 ≤ blockSize (heap e.ptr))
    (htotal : packedSize heap entries ≤ 65535) :
    PassesAgree quick heap entries ↔ ¬ WrapsBeforeLast heap entries := by
  have hfits : TableFits heap entries :=
    ⟨Nat.lt_succ_of_le hcount, hguid, hread, Nat.lt_succ_of_le htotal⟩
  rw [hfits.passesAgree_iff_copiesAgree quick, ← blockStarts_lt_iff hmin htotal]
  exact ⟨hfits.blockStarts_lt quick hmin, hfits.copiesAgree quick⟩

theorem passesAgree_iff_sample :
    PassesAgree (MemQuickConfig.layout.filled 0) sampleBlocks sampleEntries :=
  (passesAgree_iff (MemQuickConfig.layout.filled 0) sampleBlocks sampleEntries (by decide)
    (by decide) (fun e _ => (sampleBlocks_headered e.ptr).readable)
    (fun e _ => by
      rw [(sampleBlocks_headered e.ptr).size]
      exact (sampleBlocks_headered e.ptr).le_length)
    (by decide +kernel)).mpr (fun hwindow => absurd hwindow.1 (by decide +kernel))

/-- A block of 65424 bytes, and one of 16. -/
def windowBlocks : Bool → Bytes
  | false => [0, 0, 0, 0, 0, 0, 0, 0, 16, 0, 0, 0, 0, 0, 0, 0]
  | true => [0, 0, 0, 0, 0, 0, 0, 0, 0x90, 0xFF] ++ List.replicate 65414 0

def windowEntries : List (CdcbBlockEntry Bool) :=
  [⟨0x1001, true⟩, ⟨0x1000, false⟩]

theorem blockSize_windowBlocks (b : Bool) :
    blockSize (windowBlocks b) = (windowBlocks b).length := by
  cases b with
  | false => decide +kernel
  | true =>
    have hlen : (windowBlocks true).length = 65424 := by
      rw [windowBlocks, List.length_append, List.length_replicate]
      rfl
    have hread : Span.read (windowBlocks true) blockSizeOffset 2 = [0x90, 0xFF] :=
      Span.read_append_left (by decide)
    rw [hlen, blockSize, hread]
    decide +kernel

theorem sizes_windowEntries : sizes windowBlocks windowEntries = [65424, 16] := by
  have hlen : (windowBlocks true).length = 65424 := by
    rw [windowBlocks, List.length_append, List.length_replicate]
    rfl
  simp only [sizes, windowEntries, List.map_cons, List.map_nil, blockSize_windowBlocks, hlen]
  rfl

theorem windowBlocks_headered (b : Bool) : Headered (windowBlocks b) := by
  refine ⟨?_, blockSize_windowBlocks b⟩
  cases b with
  | false => decide +kernel
  | true =>
    rw [windowBlocks, List.length_append, List.length_replicate]
    decide +kernel

/-- Two blocks whose packed size fits in 16 bits, and on which the passes part. -/
theorem secondPass_wraps_in_window :
    (∀ e ∈ windowEntries, e.guid ≠ guidInvalid ∧ Headered (windowBlocks e.ptr)) ∧
      packedSize windowBlocks windowEntries ≤ 65535 ∧
      ¬ PassesAgree (MemQuickConfig.layout.filled 0) windowBlocks windowEntries := by
  have htotal : packedSize windowBlocks windowEntries = 65520 := by
    rw [packedSize, sizes_windowEntries]
    decide +kernel
  have hguid : ∀ e ∈ windowEntries, e.guid ≠ guidInvalid := by decide
  have hfits : TableFits windowBlocks windowEntries :=
    ⟨by decide, hguid, fun e _ => (windowBlocks_headered e.ptr).readable, by omega⟩
  have hmin : ∀ e ∈ windowEntries, 16 ≤ blockSize (windowBlocks e.ptr) := by
    intro e _
    rw [blockSize_windowBlocks]
    exact (windowBlocks_headered e.ptr).le_length
  refine ⟨fun e he => ⟨hguid e he, windowBlocks_headered e.ptr⟩, by omega, ?_⟩
  rw [hfits.passesAgree_iff_copiesAgree]
  intro hagree
  have hstarts := hfits.blockStarts_lt _ hmin hagree
  apply (blockStarts_lt_iff hmin (by omega)).mp hstarts
  refine ⟨htotal, ?_⟩
  rw [sizes_windowEntries]
  rfl

end MemConfig
