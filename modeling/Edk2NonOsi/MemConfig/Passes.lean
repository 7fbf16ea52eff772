-- SUMMARY: What the two passes of `MemConfigBinTool.c` compute while no offset wraps: the sealed objects, the block table, and the packed blocks.
import Mathlib.Data.UInt
import Edk2NonOsi.MemConfig.BinTool

namespace MemConfig

variable {Ptr : Type}

theorem size16BAlign_eq (n : Nat) : size16BAlign n = Packing.alignUp 16 n := by
  unfold size16BAlign Packing.alignUp
  rw [Nat.shiftRight_eq_div_pow, Nat.shiftLeft_eq]
  split
  next h => omega
  next h => omega

-- ---------------------------------------------------------------------------
-- One object
-- ---------------------------------------------------------------------------

/-- `BlockSize`, as a number. -/
def blockSize (obj : Bytes) : Nat :=
  (Layout.u16.dec (Span.read obj blockSizeOffset 2)).toNat

/-- An object the tool can work on: the header fields it uses and the `BlockSize`
    bytes it reads lie inside the object. -/
structure Readable (obj : Bytes) : Prop where
  header : blockChecksumOffset < obj.length
  size : blockSize obj ≤ obj.length

/-- The checksum the first pass stores in an object. -/
def checksumOf (obj : Bytes) : UInt8 :=
  ~~~ byteSum ((obj.set blockChecksumOffset 0).take (blockSize obj))

/-- The object after the first pass. -/
def sealed (obj : Bytes) : Bytes :=
  obj.set blockChecksumOffset (checksumOf obj)

theorem readBlockSize_eq {obj : Bytes} (h : blockChecksumOffset ≤ obj.length) :
    readBlockSize obj = .ok (UInt16.ofNat (blockSize obj)) := by
  have hread : blockSizeOffset + 2 ≤ obj.length := h
  rw [readBlockSize, C.load_of_le hread, blockSize, UInt16.ofNat_toNat]
  rfl

theorem toNat_ofNat_blockSize (obj : Bytes) :
    (UInt16.ofNat (blockSize obj)).toNat = blockSize obj := by
  rw [blockSize, UInt16.ofNat_toNat]

/-- `BlockSize` does not depend on the checksum byte. -/
@[simp] theorem blockSize_set (obj : Bytes) (c : UInt8) :
    blockSize (obj.set blockChecksumOffset c) = blockSize obj := by
  have hread : Span.read (obj.set blockChecksumOffset c) blockSizeOffset 2 =
      Span.read obj blockSizeOffset 2 := by
    apply List.ext_getElem?
    intro k
    rw [Span.getElem?_read, Span.getElem?_read]
    split
    next hk =>
      have hne : blockChecksumOffset ≠ blockSizeOffset + k := by
        rw [blockChecksumOffset, blockSizeOffset]
        omega
      rw [List.getElem?_set_ne hne]
    next => rfl
  rw [blockSize, hread, blockSize]

@[simp] theorem blockSize_sealed (obj : Bytes) : blockSize (sealed obj) = blockSize obj :=
  blockSize_set obj _

@[simp] theorem length_sealed (obj : Bytes) : (sealed obj).length = obj.length :=
  List.length_set

theorem sealed_agreeOff (obj : Bytes) : Span.AgreeOff {blockChecksumOffset} (sealed obj) obj :=
  Span.set_agreeOff obj _ _

/-- Sealing ignores the checksum that is there. -/
theorem sealed_set (obj : Bytes) (c : UInt8) :
    sealed (obj.set blockChecksumOffset c) = sealed obj := by
  have hset (c' : UInt8) : (obj.set blockChecksumOffset c).set blockChecksumOffset c' =
      obj.set blockChecksumOffset c' := List.set_set ..
  rw [sealed, checksumOf, blockSize_set, hset, hset, sealed, checksumOf]

@[simp] theorem sealed_sealed (obj : Bytes) : sealed (sealed obj) = sealed obj :=
  sealed_set obj _

/-- Objects that differ in their checksum only are sealed to the same bytes. -/
theorem sealed_congr {obj obj' : Bytes} (hlen : obj.length = obj'.length)
    (hagree : Span.AgreeOff {blockChecksumOffset} obj obj') : sealed obj = sealed obj' := by
  rw [← sealed_set obj 0, hagree.set_eq_set hlen, sealed_set]

theorem byteSum_eq_sum (data : Bytes) : byteSum data = data.sum :=
  List.sum_eq_foldl.symm

/-- The checksum, from the sum of the bytes with the old one among them. -/
theorem checksumOf_eq {obj : Bytes} {b : UInt8} (hb : obj[blockChecksumOffset]? = some b)
    (hsize : blockChecksumOffset < blockSize obj) :
    checksumOf obj = b - byteSum (obj.take (blockSize obj)) - 1 := by
  have hlt : blockChecksumOffset < obj.length := (List.getElem?_eq_some_iff.mp hb).1
  have hget : obj[blockChecksumOffset] = b := (List.getElem?_eq_some_iff.mp hb).2
  have hcut : blockChecksumOffset < (obj.take (blockSize obj)).length := by
    rw [List.length_take]
    omega
  rw [checksumOf, List.take_set, byteSum_eq_sum, byteSum_eq_sum, List.sum_set', dif_pos hcut,
    List.getElem_take, hget, UInt8.not_eq_neg_sub]
  abel

/-- Sealing changes nothing exactly when the bytes already sum to 0xFF. -/
theorem sealed_eq_self_iff {obj : Bytes} (h : blockChecksumOffset < obj.length)
    (hsize : blockChecksumOffset < blockSize obj) :
    sealed obj = obj ↔ byteSum (obj.take (blockSize obj)) = 0xFF := by
  have hb := List.getElem?_eq_getElem h
  have hset : sealed obj = obj ↔ checksumOf obj = obj[blockChecksumOffset] := by
    constructor
    · intro hself
      have hstored : (sealed obj)[blockChecksumOffset]? = some (checksumOf obj) :=
        List.getElem?_set_self h
      rw [hself, hb] at hstored
      exact (Option.some.inj hstored).symm
    · intro hsum
      rw [sealed, hsum, List.set_getElem_self]
  have hff : (0xFF : UInt8) = -1 := rfl
  rw [hset, checksumOf_eq hb hsize, hff, sub_sub, sub_eq_self, add_eq_zero_iff_eq_neg]

theorem Readable.sealed {obj : Bytes} (h : Readable obj) : Readable (sealed obj) where
  header := by
    rw [length_sealed]
    exact h.header
  size := by
    rw [blockSize_sealed, length_sealed]
    exact h.size

theorem updateChecksum_eq {obj : Bytes} (h : Readable obj) :
    updateChecksum obj = .ok (MemConfig.sealed obj) := by
  have hstore (bs : Bytes) (hbs : bs.length = obj.length) (c : UInt8) :
      C.memcpy bs blockChecksumOffset [c] 1 = .ok (bs.set blockChecksumOffset c) := by
    have hlt : blockChecksumOffset < bs.length := by
      rw [hbs]
      exact h.header
    rw [C.memcpy_of_le (Nat.le_refl 1) hlt, List.take_of_length_le (Nat.le_refl 1),
      Span.write_singleton hlt]
  have hsize := h.size
  have hheader := h.header
  rw [updateChecksum, hstore obj rfl, C.ok_bind, readBlockSize_eq (by rw [List.length_set]; omega),
    C.ok_bind, toNat_ofNat_blockSize, blockSize_set, genCheckSum,
    C.load_of_le (by rw [List.length_set]; omega), Span.read_zero]
  show C.memcpy _ _ _ _ = _
  rw [hstore _ List.length_set, List.set_set]
  rfl

/-- The update of an object succeeds only on a readable one. -/
theorem Readable.of_updateChecksum {obj obj' : Bytes} (h : updateChecksum obj = .ok obj') :
    Readable obj := by
  obtain ⟨cleared, hclear, h⟩ := C.bind_eq_ok_iff.mp h
  obtain ⟨size, hsize, h⟩ := C.bind_eq_ok_iff.mp h
  obtain ⟨checksum, hsum, -⟩ := C.bind_eq_ok_iff.mp h
  obtain ⟨⟨-, hheader⟩, hcleared⟩ := C.memcpy_eq_ok_iff.mp hclear
  have hlt : blockChecksumOffset < obj.length := hheader
  rw [List.take_of_length_le (Nat.le_refl 1), Span.write_singleton hlt] at hcleared
  subst hcleared
  rw [readBlockSize_eq (by rw [List.length_set]; omega)] at hsize
  obtain rfl := Except.ok.inj hsize
  obtain ⟨data, hload, -⟩ := C.bind_eq_ok_iff.mp hsum
  have hread := (C.load_eq_ok_iff.mp hload).1
  rw [toNat_ofNat_blockSize, blockSize_set, List.length_set] at hread
  exact ⟨hlt, by omega⟩

-- ---------------------------------------------------------------------------
-- First pass
-- ---------------------------------------------------------------------------

/-- The sizes of the listed blocks. -/
def sizes (heap : Ptr → Bytes) (entries : List (CdcbBlockEntry Ptr)) : List Nat :=
  entries.map fun e => blockSize (heap e.ptr)

/-- The table entries of a list whose first block is at `offset`. -/
def tableEntries (heap : Ptr → Bytes) : List (CdcbBlockEntry Ptr) → UInt16 →
    List MemConfigBlockTableEntry
  | [], _ => []
  | e :: rest, offset =>
    ⟨e.guid, offset⟩ ::
      tableEntries heap rest
        (offset + UInt16.ofNat (Packing.alignUp 16 (blockSize (heap e.ptr))))

/-- The bytes of table entries in a row. -/
def entryBytes (es : List MemConfigBlockTableEntry) : Bytes :=
  (es.map MemConfigBlockTableEntry.layout.enc).flatten

/-- Changing blocks without changing their sizes changes no table entry. -/
theorem tableEntries_congr {heap heap' : Ptr → Bytes} (entries : List (CdcbBlockEntry Ptr))
    (offset : UInt16) (h : ∀ p, blockSize (heap' p) = blockSize (heap p)) :
    tableEntries heap' entries offset = tableEntries heap entries offset := by
  induction entries generalizing offset with
  | nil => rfl
  | cons e rest ih => rw [tableEntries, tableEntries, h, ih]

theorem sizes_congr {heap heap' : Ptr → Bytes} (entries : List (CdcbBlockEntry Ptr))
    (h : ∀ p, blockSize (heap' p) = blockSize (heap p)) :
    sizes heap' entries = sizes heap entries := by
  simp only [sizes, h]

section FirstPass

variable [DecidableEq Ptr]

/-- The heap after the first pass: every listed object is sealed, however often it
    is listed. -/
def sealedHeap (heap : Ptr → Bytes) (entries : List (CdcbBlockEntry Ptr)) (p : Ptr) : Bytes :=
  if p ∈ entries.map CdcbBlockEntry.ptr then sealed (heap p) else heap p

theorem blockSize_update_sealed (heap : Ptr → Bytes) (q p : Ptr) :
    blockSize (Function.update heap q (sealed (heap q)) p) = blockSize (heap p) := by
  by_cases hp : p = q
  · rw [hp, Function.update_self, blockSize_sealed]
  · rw [Function.update_of_ne hp]

/-- Sealing an object leaves every object readable. -/
theorem Readable.update_sealed {heap : Ptr → Bytes} {p : Ptr} (h : Readable (heap p)) (q : Ptr) :
    Readable (Function.update heap q (MemConfig.sealed (heap q)) p) := by
  by_cases hp : p = q
  · rw [← hp, Function.update_self]
    exact h.sealed
  · rw [Function.update_of_ne hp]
    exact h

theorem sealedHeap_of_mem (heap : Ptr → Bytes) {entries : List (CdcbBlockEntry Ptr)}
    {e : CdcbBlockEntry Ptr} (he : e ∈ entries) :
    sealedHeap heap entries e.ptr = sealed (heap e.ptr) :=
  if_pos (List.mem_map_of_mem he)

theorem blockSize_sealedHeap (heap : Ptr → Bytes) (entries : List (CdcbBlockEntry Ptr)) (p : Ptr) :
    blockSize (sealedHeap heap entries p) = blockSize (heap p) := by
  unfold sealedHeap
  split
  next => exact blockSize_sealed _
  next => rfl

/-- Sealing the first object and then the rest seals the whole list. -/
theorem sealedHeap_cons (heap : Ptr → Bytes) (e : CdcbBlockEntry Ptr)
    (rest : List (CdcbBlockEntry Ptr)) :
    sealedHeap (Function.update heap e.ptr (sealed (heap e.ptr))) rest =
      sealedHeap heap (e :: rest) := by
  funext p
  unfold sealedHeap
  rw [List.map_cons]
  by_cases hp : p = e.ptr
  · rw [hp, Function.update_self, if_pos List.mem_cons_self, sealed_sealed, ite_self]
  · simp only [Function.update_of_ne hp, List.mem_cons, hp, false_or]

@[simp] theorem length_entryBytes (es : List MemConfigBlockTableEntry) :
    (entryBytes es).length = 4 * es.length := by
  induction es with
  | nil => rfl
  | cons e rest ih =>
    rw [entryBytes, List.map_cons, List.flatten_cons, List.length_append,
      MemConfigBlockTableEntry.length_enc]
    rw [entryBytes] at ih
    rw [ih, List.length_cons]
    omega

/-- One step of the first pass, with the table filled up to `done`. -/
theorem addEntry_eq {e : CdcbBlockEntry Ptr} {heap : Ptr → Bytes} (h : Readable (heap e.ptr))
    {index : Nat} {done : Bytes} {m : Nat} (offset : UInt16) (hdone : done.length = 4 * index)
    (hm : 4 ≤ m) :
    addEntry index e ⟨heap, done ++ List.replicate m 0, offset⟩ =
      .ok ⟨Function.update heap e.ptr (sealed (heap e.ptr)),
        done ++ MemConfigBlockTableEntry.layout.enc ⟨e.guid, offset⟩ ++ List.replicate (m - 4) 0,
        offset + UInt16.ofNat (Packing.alignUp 16 (blockSize (heap e.ptr)))⟩ := by
  have henc := MemConfigBlockTableEntry.length_enc ⟨e.guid, offset⟩
  have hheader := h.sealed.header
  unfold addEntry
  rw [updateChecksum_eq h, C.ok_bind, readBlockSize_eq (by omega), C.ok_bind]
  dsimp only
  rw [← hdone, C.memcpy_fill _ _ _ henc.symm (henc.trans_le hm), C.ok_bind, henc,
    toNat_ofNat_blockSize, blockSize_sealed, size16BAlign_eq]
  rfl

/-- The first pass on readable objects with a table that has room for the list. -/
theorem firstPass_eq (entries : List (CdcbBlockEntry Ptr)) {index : Nat} {heap : Ptr → Bytes}
    {done : Bytes} {m : Nat} (offset : UInt16) (hguid : ∀ e ∈ entries, e.guid ≠ guidInvalid)
    (hread : ∀ e ∈ entries, Readable (heap e.ptr)) (hdone : done.length = 4 * index)
    (hm : 4 * entries.length ≤ m) :
    firstPass entries index ⟨heap, done ++ List.replicate m 0, offset⟩ =
      .ok (some ⟨sealedHeap heap entries,
        done ++ entryBytes (tableEntries heap entries offset) ++
          List.replicate (m - 4 * entries.length) 0,
        offset + UInt16.ofNat (Packing.extent 16 (sizes heap entries))⟩) := by
  induction entries generalizing index heap done m offset with
  | nil =>
    have hheap : sealedHeap heap [] = heap := rfl
    simp [firstPass, hheap, entryBytes, tableEntries, sizes, Packing.extent]
    rfl
  | cons e rest ih =>
    have he := hread e List.mem_cons_self
    rw [List.length_cons] at hm
    have hrest : ∀ d ∈ rest,
        Readable (Function.update heap e.ptr (sealed (heap e.ptr)) d.ptr) :=
      fun d hd => (hread d (List.mem_cons_of_mem e hd)).update_sealed e.ptr
    have hnext : (done ++ MemConfigBlockTableEntry.layout.enc ⟨e.guid, offset⟩).length =
        4 * (index + 1) := by
      rw [List.length_append, MemConfigBlockTableEntry.length_enc]
      omega
    rw [firstPass, if_neg (hguid e List.mem_cons_self), addEntry_eq he offset hdone (by omega),
      C.ok_bind, ih _ (fun d hd => hguid d (List.mem_cons_of_mem e hd)) hrest hnext (by omega),
      sealedHeap_cons, tableEntries_congr _ _ (blockSize_update_sealed heap e.ptr),
      sizes_congr _ (blockSize_update_sealed heap e.ptr)]
    have hentries : entryBytes (tableEntries heap (e :: rest) offset) =
        MemConfigBlockTableEntry.layout.enc ⟨e.guid, offset⟩ ++ entryBytes (tableEntries heap rest
          (offset + UInt16.ofNat (Packing.alignUp 16 (blockSize (heap e.ptr))))) := rfl
    have hextent : Packing.extent 16 (sizes heap (e :: rest)) =
        Packing.alignUp 16 (blockSize (heap e.ptr)) + Packing.extent 16 (sizes heap rest) := rfl
    have hleft : m - 4 - 4 * rest.length = m - 4 * (rest.length + 1) := by omega
    rw [hentries, hextent, UInt16.ofNat_add, ← UInt16.add_assoc, List.length_cons, hleft,
      ← List.append_assoc done]

/-- What a successful step of the first pass shows: the object is readable, and the
    entry lies inside the table. -/
theorem addEntry_ok {index : Nat} {e : CdcbBlockEntry Ptr} {s s' : TableState Ptr}
    (h : addEntry index e s = .ok s') :
    Readable (s.heap e.ptr) ∧ 4 * index + 4 ≤ s.table.length ∧
      s'.heap = Function.update s.heap e.ptr (sealed (s.heap e.ptr)) ∧
      s'.table.length = s.table.length := by
  obtain ⟨obj, hobj, h⟩ := C.bind_eq_ok_iff.mp h
  obtain ⟨size, -, h⟩ := C.bind_eq_ok_iff.mp h
  obtain ⟨table, htable, h⟩ := C.bind_eq_ok_iff.mp h
  have hread := Readable.of_updateChecksum hobj
  rw [updateChecksum_eq hread] at hobj
  obtain rfl := Except.ok.inj hobj
  obtain rfl := Except.ok.inj h
  obtain ⟨⟨hsrc, hdst⟩, rfl⟩ := C.memcpy_eq_ok_iff.mp htable
  refine ⟨hread, hdst, rfl, ?_⟩
  apply Span.length_write_of_le
  rw [List.length_take]
  omega

/-- A first pass that ends has found room for every entry. -/
theorem firstPass_room {entries : List (CdcbBlockEntry Ptr)} {index : Nat}
    {s s' : TableState Ptr} (h : firstPass entries index s = .ok (some s')) :
    ∀ k < entries.length, 4 * (index + k) + 4 ≤ s.table.length := by
  induction entries generalizing index s with
  | nil => exact fun k hk => absurd hk (Nat.not_lt_zero k)
  | cons e rest ih =>
    rw [firstPass] at h
    split at h
    next => cases h
    next =>
      obtain ⟨s₁, hstep, hrest⟩ := C.bind_eq_ok_iff.mp h
      obtain ⟨-, hroom, -, hlen⟩ := addEntry_ok hstep
      intro k hk
      cases k with
      | zero => exact hroom
      | succ k =>
        have hlater := ih hrest k (Nat.lt_of_succ_lt_succ hk)
        omega

end FirstPass

-- ---------------------------------------------------------------------------
-- Second pass
-- ---------------------------------------------------------------------------

/-- The bytes of an object that the second pass copies. -/
def blockBytes (obj : Bytes) : Bytes :=
  obj.take (blockSize obj)

theorem length_blockBytes {obj : Bytes} (h : Readable obj) :
    (blockBytes obj).length = blockSize obj := by
  rw [blockBytes, List.length_take, Nat.min_eq_left h.size]

/-- The blocks of a list, as they are copied. -/
def blocks (heap : Ptr → Bytes) (entries : List (CdcbBlockEntry Ptr)) : List Bytes :=
  entries.map fun e => blockBytes (heap e.ptr)

/-- `FeatHash` after the blocks of a list. -/
def featHashAfter (heap : Ptr → Bytes) : List (CdcbBlockEntry Ptr) → UInt32 → UInt32
  | [], hash => hash
  | e :: rest, hash =>
    featHashAfter heap rest
      (if e.guid = memConfigBlockFeatureGuid then
        djb hash (Packing.padded 16 0 (blockBytes (heap e.ptr)))
      else hash)

theorem getElem_blocks {heap : Ptr → Bytes} {entries : List (CdcbBlockEntry Ptr)} {i : Nat}
    (hb : i < (blocks heap entries).length) (hi : i < entries.length) :
    (blocks heap entries)[i] = blockBytes (heap entries[i].ptr) :=
  List.getElem_map _

theorem length_blocks {heap : Ptr → Bytes} {entries : List (CdcbBlockEntry Ptr)}
    (h : ∀ e ∈ entries, Readable (heap e.ptr)) :
    (blocks heap entries).map List.length = sizes heap entries := by
  rw [blocks, sizes, List.map_map]
  exact List.map_congr_left fun e he => length_blockBytes (h e he)

/-- The copy of one block, with the image filled up to `front`. -/
theorem memcpy_block {obj : Bytes} (h : Readable obj) (front : Bytes) {m : Nat}
    (hm : Packing.alignUp 16 (blockSize obj) ≤ m) :
    C.memcpy (front ++ List.replicate m 0) front.length obj (blockSize obj) =
      .ok (front ++ Packing.padded 16 0 (blockBytes obj) ++
        List.replicate (m - Packing.alignUp 16 (blockSize obj)) 0) := by
  have h16 : 0 < 16 := by decide
  have hle := Packing.le_alignUp h16 (blockSize obj)
  have hdst : front.length + blockSize obj ≤
      (front ++ List.replicate m (0 : UInt8)).length := by
    rw [List.length_append, List.length_replicate]
    omega
  rw [← length_blockBytes h] at hm ⊢
  rw [← Packing.write_fill h16 front (blockBytes obj) 0 hm, length_blockBytes h,
    C.memcpy_of_le h.size hdst, blockBytes]

/-- Hashing a block where it lies in the image takes in its padding. -/
theorem djbHash_padded (front block rest : Bytes) (hash : UInt32) :
    djbHash (front ++ Packing.padded 16 0 block ++ rest) front.length
      (Packing.alignUp 16 block.length) hash =
        .ok (djb hash (Packing.padded 16 0 block)) := by
  have h16 : 0 < 16 := by decide
  rw [← Packing.length_padded h16 (0 : UInt8) block, djbHash, C.load_of_le, C.ok_bind,
    Span.read_append_self]
  · rfl
  · rw [List.length_append, List.length_append]
    omega

/-- One step of the second pass, with the image filled up to `front`. -/
theorem copyBlock_eq {heap : Ptr → Bytes} {e : CdcbBlockEntry Ptr} (h : Readable (heap e.ptr))
    {front : Bytes} {m : Nat} (hash : UInt32) (hfront : front.length < 65536)
    (hm : Packing.alignUp 16 (blockSize (heap e.ptr)) ≤ m) :
    copyBlock heap e ⟨front ++ List.replicate m 0, UInt16.ofNat front.length, hash⟩ =
      .ok ⟨front ++ Packing.padded 16 0 (blockBytes (heap e.ptr)) ++
          List.replicate (m - Packing.alignUp 16 (blockSize (heap e.ptr))) 0,
        UInt16.ofNat (front.length + Packing.alignUp 16 (blockSize (heap e.ptr))),
        if e.guid = memConfigBlockFeatureGuid then
          djb hash (Packing.padded 16 0 (blockBytes (heap e.ptr)))
        else hash⟩ := by
  have hheader := h.header
  have hoffset := UInt16.toNat_ofNat_of_lt' hfront
  have hhash := djbHash_padded front (blockBytes (heap e.ptr))
    (List.replicate (m - Packing.alignUp 16 (blockSize (heap e.ptr))) 0) hash
  rw [length_blockBytes h] at hhash
  unfold copyBlock
  rw [readBlockSize_eq (by omega), C.ok_bind, toNat_ofNat_blockSize, size16BAlign_eq]
  dsimp only
  rw [hoffset, memcpy_block h front hm, C.ok_bind, UInt16.ofNat_add]
  split
  next =>
    rw [hhash]
    rfl
  next => rfl

/-- The second pass while its offset stays exact, on a buffer that has room for the
    blocks: they end up packed behind `front`. -/
theorem secondPass_eq {heap : Ptr → Bytes} {entries : List (CdcbBlockEntry Ptr)}
    (hread : ∀ e ∈ entries, Readable (heap e.ptr)) {front : Bytes} {m : Nat} (hash : UInt32)
    (hstart : ∀ i < entries.length,
      front.length + Packing.start 16 (sizes heap entries) i < 65536)
    (hm : Packing.extent 16 (sizes heap entries) ≤ m) :
    secondPass heap entries ⟨front ++ List.replicate m 0, UInt16.ofNat front.length, hash⟩ =
      .ok ⟨front ++ Packing.pack 16 0 (blocks heap entries) ++
          List.replicate (m - Packing.extent 16 (sizes heap entries)) 0,
        UInt16.ofNat (front.length + Packing.extent 16 (sizes heap entries)),
        featHashAfter heap entries hash⟩ := by
  induction entries generalizing front m hash with
  | nil =>
    simp [secondPass, sizes, blocks, Packing.extent, Packing.pack, featHashAfter]
    rfl
  | cons e rest ih =>
    have h16 : 0 < 16 := by decide
    have he := hread e List.mem_cons_self
    have hextent : Packing.extent 16 (sizes heap (e :: rest)) =
        Packing.alignUp 16 (blockSize (heap e.ptr)) + Packing.extent 16 (sizes heap rest) := rfl
    have hpack : Packing.pack 16 (0 : UInt8) (blocks heap (e :: rest)) =
        Packing.padded 16 0 (blockBytes (heap e.ptr)) ++ Packing.pack 16 0 (blocks heap rest) := rfl
    have hfront : front.length < 65536 := hstart 0 (Nat.succ_pos _)
    have hnext : (front ++ Packing.padded 16 0 (blockBytes (heap e.ptr))).length =
        front.length + Packing.alignUp 16 (blockSize (heap e.ptr)) := by
      rw [List.length_append, Packing.length_padded h16, length_blockBytes he]
    have hlater : ∀ i < rest.length,
        (front ++ Packing.padded 16 0 (blockBytes (heap e.ptr))).length +
          Packing.start 16 (sizes heap rest) i < 65536 := by
      intro i hi
      have hi' := hstart (i + 1) (Nat.succ_lt_succ hi)
      rw [sizes, List.map_cons, Packing.start_cons_succ] at hi'
      rw [hnext, sizes]
      omega
    rw [hextent] at hm
    rw [secondPass, copyBlock_eq he hash hfront (by omega), C.ok_bind, ← hnext,
      ih (fun d hd => hread d (List.mem_cons_of_mem e hd)) _ hlater (by omega), hnext, hextent,
      hpack, ← Nat.add_assoc, Nat.sub_sub, featHashAfter, ← List.append_assoc front]

end MemConfig
