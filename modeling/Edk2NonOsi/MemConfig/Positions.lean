-- SUMMARY: Where the table and the blocks of a packed list lie, as numbers, and the lists for which the 8-bit count and the 16-bit offsets hold these numbers.
import Edk2NonOsi.MemConfig.Passes

namespace MemConfig

-- ---------------------------------------------------------------------------
-- Positions
-- ---------------------------------------------------------------------------

/-- The size of the table for `n` entries. -/
def tableRoom (n : Nat) : Nat :=
  Packing.alignUp 16 (4 * n)

variable {Ptr : Type}

/-- The size of a packed list, counted from the header as `TotalSize` is. -/
def packedSize (heap : Ptr → Bytes) (entries : List (CdcbBlockEntry Ptr)) : Nat :=
  64 + tableRoom entries.length + Packing.extent 16 (sizes heap entries)

/-- Where block `i` starts, counted from the header as the table does. -/
def blockStart (heap : Ptr → Bytes) (entries : List (CdcbBlockEntry Ptr)) (i : Nat) : Nat :=
  64 + tableRoom entries.length + Packing.start 16 (sizes heap entries) i

variable {entries : List (CdcbBlockEntry Ptr)}

theorem le_tableRoom (n : Nat) : 4 * n ≤ tableRoom n :=
  Packing.le_alignUp (by decide) (4 * n)

@[simp] theorem length_sizes (heap : Ptr → Bytes) (entries : List (CdcbBlockEntry Ptr)) :
    (sizes heap entries).length = entries.length :=
  List.length_map _

theorem blockStart_zero (heap : Ptr → Bytes) (entries : List (CdcbBlockEntry Ptr)) :
    blockStart heap entries 0 = 64 + tableRoom entries.length := rfl

theorem blockStart_eq_add (heap : Ptr → Bytes) (entries : List (CdcbBlockEntry Ptr)) (i : Nat) :
    blockStart heap entries i =
      blockStart heap entries 0 + Packing.start 16 (sizes heap entries) i := rfl

theorem blockStart_length (heap : Ptr → Bytes) (entries : List (CdcbBlockEntry Ptr)) :
    blockStart heap entries entries.length = packedSize heap entries := by
  have hend := Packing.start_length 16 (sizes heap entries)
  rw [length_sizes] at hend
  rw [blockStart, hend, packedSize]

theorem blockStart_succ (heap : Ptr → Bytes) {i : Nat} (hi : i < entries.length) :
    blockStart heap entries (i + 1) =
      blockStart heap entries i + Packing.alignUp 16 (blockSize (heap entries[i].ptr)) := by
  have hlt : i < (sizes heap entries).length := by
    rw [length_sizes]
    exact hi
  have hget : (sizes heap entries)[i] = blockSize (heap entries[i].ptr) := List.getElem_map _
  rw [blockStart, Packing.start_succ 16 hlt, hget, ← Nat.add_assoc, ← blockStart]

theorem blockStart_mono (heap : Ptr → Bytes) (entries : List (CdcbBlockEntry Ptr)) {i j : Nat}
    (h : i ≤ j) : blockStart heap entries i ≤ blockStart heap entries j :=
  Nat.add_le_add_left (Packing.start_mono 16 _ h) _

theorem blockStart_le_packedSize (heap : Ptr → Bytes) {i : Nat} (hi : i ≤ entries.length) :
    blockStart heap entries i ≤ packedSize heap entries := by
  rw [← blockStart_length]
  exact blockStart_mono heap entries hi

/-- The padded size of a block is its distance from the next one. -/
theorem blockEnd_le_succ (heap : Ptr → Bytes) {i : Nat} (hi : i < entries.length) :
    blockStart heap entries i + blockSize (heap entries[i].ptr) ≤
      blockStart heap entries (i + 1) := by
  rw [blockStart_succ heap hi]
  exact Nat.add_le_add_left (Packing.le_alignUp (by decide) _) _

/-- A block ends before a later one starts. -/
theorem blockEnd_le_blockStart (heap : Ptr → Bytes) {i j : Nat} (hi : i < entries.length)
    (hij : i < j) :
    blockStart heap entries i + blockSize (heap entries[i].ptr) ≤ blockStart heap entries j :=
  (blockEnd_le_succ heap hi).trans (blockStart_mono heap entries hij)

theorem blockEnd_le_packedSize (heap : Ptr → Bytes) {i : Nat} (hi : i < entries.length) :
    blockStart heap entries i + blockSize (heap entries[i].ptr) ≤ packedSize heap entries :=
  (blockEnd_le_succ heap hi).trans (blockStart_le_packedSize heap hi)

theorem dvd_blockStart (heap : Ptr → Bytes) (entries : List (CdcbBlockEntry Ptr)) (i : Nat) :
    16 ∣ blockStart heap entries i := by
  have hroom : 16 ∣ tableRoom entries.length := Packing.dvd_alignUp 16 _
  have hstart := Packing.dvd_start 16 (sizes heap entries) i
  rw [blockStart]
  omega

theorem dvd_packedSize (heap : Ptr → Bytes) (entries : List (CdcbBlockEntry Ptr)) :
    16 ∣ packedSize heap entries := by
  rw [← blockStart_length]
  exact dvd_blockStart heap entries _

-- ---------------------------------------------------------------------------
-- Lists that fit
-- ---------------------------------------------------------------------------

/-- The lists on which the first pass is exact: the count fits in 8 bits and the end
    of the last block in 16. -/
structure TableFits (heap : Ptr → Bytes) (entries : List (CdcbBlockEntry Ptr)) : Prop where
  count : entries.length < 256
  guid : ∀ e ∈ entries, e.guid ≠ guidInvalid
  readable : ∀ e ∈ entries, Readable (heap e.ptr)
  total : packedSize heap entries < 65536

/-- The lists on which the second pass is exact too. It counts from the start of
    the image, 32 bytes before the header. -/
structure Fits (heap : Ptr → Bytes) (entries : List (CdcbBlockEntry Ptr)) : Prop
    extends TableFits heap entries where
  starts : ∀ i < entries.length, 32 + blockStart heap entries i < 65536

variable {heap : Ptr → Bytes}

theorem TableFits.toNat_blockStart (h : TableFits heap entries) {i : Nat}
    (hi : i ≤ entries.length) :
    (UInt16.ofNat (blockStart heap entries i)).toNat = blockStart heap entries i :=
  UInt16.toNat_ofNat_of_lt' ((blockStart_le_packedSize heap hi).trans_lt h.total)

theorem TableFits.toNat_packedSize (h : TableFits heap entries) :
    (UInt16.ofNat (packedSize heap entries)).toNat = packedSize heap entries :=
  UInt16.toNat_ofNat_of_lt' h.total

/-- A list of blocks of at least 16 bytes whose image has at most 64 KiB fits. -/
theorem fits_of_packedSize (hcount : entries.length ≤ 255)
    (hguid : ∀ e ∈ entries, e.guid ≠ guidInvalid) (hread : ∀ e ∈ entries, Readable (heap e.ptr))
    (hmin : ∀ e ∈ entries, 16 ≤ blockSize (heap e.ptr))
    (hsize : 32 + packedSize heap entries ≤ 65536) : Fits heap entries where
  count := Nat.lt_succ_of_le hcount
  guid := hguid
  readable := hread
  total := by omega
  starts := by
    intro i hi
    have hblock := hmin entries[i] (List.getElem_mem hi)
    have hend := blockEnd_le_packedSize heap hi
    omega

end MemConfig
