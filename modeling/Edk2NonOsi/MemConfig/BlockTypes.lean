-- SUMMARY: The object types a block list can be built from, and for which of them the tool emits an object unchanged.
import Edk2NonOsi.MemConfig.RoundTrip

namespace MemConfig

-- ---------------------------------------------------------------------------
-- Typed objects
-- ---------------------------------------------------------------------------

/-- The bytes an object of a type can hold: one with a header states its own size
    there, and an SPD is `spdSize` bytes of any contents. -/
def BlockType.Admits (t : BlockType) (obj : Bytes) : Prop :=
  (t.hasHeader = true → Headered obj) ∧ (t = .spd → obj.length = spdSize)

/-- The objects of a configuration, with their types. -/
structure Objects (Ptr : Type) where
  type : Ptr → BlockType
  heap : Ptr → Bytes
  admits : ∀ p, (type p).Admits (heap p)

variable {Ptr : Type}

/-- `CDCB_BLOCK (b)`. -/
def cdcbBlock (o : Objects Ptr) (p : Ptr) : CdcbBlockEntry Ptr :=
  ⟨(o.type p).guid, p⟩

/-- A type with a GUID has a header, unless it is the SPD. -/
theorem BlockType.hasHeader_or_spd {t : BlockType} (h : t.guid ≠ guidInvalid) :
    t.hasHeader = true ∨ t = .spd := by
  cases t with
  | spd => exact .inr rfl
  | other => exact absurd rfl h
  | _ => exact .inl rfl

-- ---------------------------------------------------------------------------
-- What the tool emits
-- ---------------------------------------------------------------------------

/-- What the tool emits for entry `i`, an object `obj`: the bytes it copies, where the
    table of the image says. How many it copies is the `BlockSize` that it reads; behind
    them may lie padding that looks like the rest of the object. -/
def emitted (img : Bytes) (header : MemConfigHeader) (obj : Bytes) (i : Nat) :
    Except C.Fault Bytes := do
  let e ← readEntry img header i
  C.load img (blockOffset e.offset) (blockSize obj)

/-- `bs` is the object, except for `BlockChecksum` where its type has one. -/
def BlockType.Intact (t : BlockType) (obj bs : Bytes) : Prop :=
  bs.length = obj.length ∧
    if t.hasHeader = true then Span.AgreeOff {blockChecksumOffset} bs obj else bs = obj

/-- The bytes of an image at the offset of entry `i`, as many as the object `obj` has. -/
def inPlace (img : Bytes) (header : MemConfigHeader) (obj : Bytes) (i : Nat) :
    Except C.Fault Bytes := do
  let e ← readEntry img header i
  C.load img (blockOffset e.offset) obj.length

/-- The tool writes an image, and in it every listed object is emitted intact. An SPD that
    the tool copies in part is not, also where the zeros behind the copied part happen to be
    those of the object. -/
def PackedIntact [DecidableEq Ptr] (quick : MemQuickConfig) (o : Objects Ptr)
    (ps : List Ptr) : Prop :=
  ∃ img header, main quick o.heap (ps.map (cdcbBlock o)) = .ok (.written img) ∧
    readHeader img = .ok header ∧
    ∀ i (hi : i < ps.length), ∃ bs, emitted img header (o.heap ps[i]) i = .ok bs ∧
      (o.type ps[i]).Intact (o.heap ps[i]) bs

/-- An SPD that the tool takes for what it is: where the tool expects a block header
    there is the SPD's size, and its checksum already. -/
def SpdFitsHeader (obj : Bytes) : Prop :=
  blockSize obj = spdSize ∧ byteSum obj = 0xFF

/-- An object the tool copies whole is headered, as far as the tool can tell. -/
theorem Objects.headered {o : Objects Ptr} {p : Ptr}
    (hguid : (o.type p).guid ≠ guidInvalid)
    (hspd : o.type p = .spd → blockSize (o.heap p) = spdSize) : Headered (o.heap p) := by
  obtain hheader | htype := BlockType.hasHeader_or_spd hguid
  · exact (o.admits p).1 hheader
  · have hlen := (o.admits p).2 htype
    refine ⟨?_, (hspd htype).trans hlen.symm⟩
    rw [hlen]
    decide +kernel

/-- A list of typed objects fits, when its SPDs state their size. -/
theorem Objects.fits {o : Objects Ptr} {ps : List Ptr} (hcount : ps.length ≤ 255)
    (hguid : ∀ p ∈ ps, (o.type p).guid ≠ guidInvalid)
    (hsize : imageSize o.heap (ps.map (cdcbBlock o)) ≤ 65536)
    (hspd : ∀ p ∈ ps, o.type p = .spd → blockSize (o.heap p) = spdSize) :
    Fits o.heap (ps.map (cdcbBlock o)) := by
  have hheadered : ∀ e ∈ ps.map (cdcbBlock o), Headered (o.heap e.ptr) := by
    intro e he
    obtain ⟨p, hp, rfl⟩ := List.mem_map.mp he
    exact Objects.headered (hguid p hp) (hspd p hp)
  refine fits_of_headered ?_ ?_ hheadered hsize
  · rw [List.length_map]
    exact hcount
  · intro e he
    obtain ⟨p, hp, rfl⟩ := List.mem_map.mp he
    exact hguid p hp

/-- Sealing an object leaves it intact exactly when it changes no SPD. -/
theorem BlockType.intact_sealed_iff {t : BlockType} {obj : Bytes} (hguid : t.guid ≠ guidInvalid)
    (hobj : Headered obj) :
    t.Intact obj (sealed obj) ↔
      (t = .spd → byteSum obj = 0xFF) := by
  have hheader := hobj.readable.header
  have hself := sealed_eq_self_iff hheader (hheader.trans_eq hobj.size.symm)
  rw [hobj.size, List.take_length] at hself
  rw [BlockType.Intact, length_sealed]
  obtain hheader | htype := BlockType.hasHeader_or_spd hguid
  · have hne : t ≠ .spd := by
      rintro rfl
      cases hheader
    simp [hheader, hne, sealed_agreeOff]
  · subst htype
    have hnone : BlockType.spd.hasHeader = false := rfl
    simp [hnone, hself]

variable [DecidableEq Ptr] {heap : Ptr → Bytes} {entries : List (CdcbBlockEntry Ptr)}

/-- A run that writes an image has had room in the table for every entry. -/
theorem length_le_of_written {quick : MemQuickConfig} {img : Bytes}
    (h : main quick heap entries = .ok (.written img)) : entries.length ≤ 255 := by
  obtain ⟨o, hfirst, hrest⟩ := C.bind_eq_ok_iff.mp h
  cases o with
  | none => cases hrest
  | some s =>
    rw [← tableWrites_iff]
    intro index hindex
    have hroom := firstPass_room hfirst index hindex
    rw [List.length_replicate, Nat.zero_add] at hroom
    exact hroom

/-- On headered blocks the tool emits the sealed objects. -/
theorem Fits.emitted_image (h : Fits heap entries) (quick : MemQuickConfig) {i : Nat}
    (hi : i < entries.length) (hblock : Headered (heap entries[i].ptr)) :
    emitted (image quick heap entries) (writtenHeader heap entries) (heap entries[i].ptr) i =
      .ok (sealed (heap entries[i].ptr)) := by
  have hlen := length_image h.readable quick
  have hend := blockEnd_le_packedSize heap hi
  rw [emitted, readEntry_image h.readable quick hi, C.ok_bind]
  dsimp only
  rw [h.blockOffset_blockStart hi, C.load_of_le (by omega), read_image_block h.readable quick hi,
    hblock.blockBytes_sealed]

-- ---------------------------------------------------------------------------
-- Lists of typed objects
-- ---------------------------------------------------------------------------

variable {o : Objects Ptr} {ps : List Ptr} {quick : MemQuickConfig}

/-- Every listed SPD states its size where the tool reads one, if the list is packed
    intact. -/
theorem PackedIntact.blockSize_spd (h : PackedIntact quick o ps) {p : Ptr} (hp : p ∈ ps)
    (hspd : o.type p = .spd) : blockSize (o.heap p) = spdSize := by
  obtain ⟨img, header, -, -, hemitted⟩ := h
  obtain ⟨i, hi, rfl⟩ := List.getElem_of_mem hp
  obtain ⟨bs, hbs, hlen, -⟩ := hemitted i hi
  obtain ⟨e, -, hload⟩ := C.bind_eq_ok_iff.mp hbs
  obtain ⟨hbound, rfl⟩ := C.load_eq_ok_iff.mp hload
  rw [Span.length_read_of_le hbound, (o.admits ps[i]).2 hspd] at hlen
  exact hlen

/-- Where every object is emitted intact, it lies in the image with all its bytes. -/
theorem PackedIntact.inPlace (h : PackedIntact quick o ps) :
    ∃ img header, main quick o.heap (ps.map (cdcbBlock o)) = .ok (.written img) ∧
      readHeader img = .ok header ∧
      ∀ i (hi : i < ps.length), ∃ bs, MemConfig.inPlace img header (o.heap ps[i]) i = .ok bs ∧
        (o.type ps[i]).Intact (o.heap ps[i]) bs := by
  obtain ⟨img, header, hmain, hheader, hemitted⟩ := h
  refine ⟨img, header, hmain, hheader, fun i hi => ?_⟩
  obtain ⟨bs, hbs, hintact⟩ := hemitted i hi
  obtain ⟨e, hentry, hload⟩ := C.bind_eq_ok_iff.mp hbs
  obtain ⟨hbound, rfl⟩ := C.load_eq_ok_iff.mp hload
  -- All bytes of the object were copied, so reading as many as it has reads the copy.
  have hlen := hintact.1
  rw [Span.length_read_of_le hbound] at hlen
  refine ⟨_, ?_, hintact⟩
  rw [MemConfig.inPlace, hentry, C.ok_bind, ← hlen]
  exact C.load_of_le hbound

/-- What the tool emits for a listed object. -/
theorem Objects.emitted_image (h : Fits o.heap (ps.map (cdcbBlock o))) (quick : MemQuickConfig)
    {i : Nat} (hi : i < ps.length) (hblock : Headered (o.heap ps[i])) :
    emitted (image quick o.heap (ps.map (cdcbBlock o)))
      (writtenHeader o.heap (ps.map (cdcbBlock o))) (o.heap ps[i]) i =
        .ok (sealed (o.heap ps[i])) := by
  have hi' : i < (ps.map (cdcbBlock o)).length := by
    rw [List.length_map]
    exact hi
  have hget : (ps.map (cdcbBlock o))[i] = cdcbBlock o ps[i] := List.getElem_map _
  have himage := h.emitted_image quick hi'
  rw [hget] at himage
  exact himage hblock

/-- A list of typed objects whose image has at most 64 KiB is packed intact exactly
    when it has at most 255 objects and every SPD in it fits a block header. -/
theorem packedIntact_iff (quick : MemQuickConfig) (o : Objects Ptr) (ps : List Ptr)
    (hguid : ∀ p ∈ ps, (o.type p).guid ≠ guidInvalid)
    (hsize : imageSize o.heap (ps.map (cdcbBlock o)) ≤ 65536) :
    PackedIntact quick o ps ↔
      ps.length ≤ 255 ∧ ∀ p ∈ ps, o.type p = .spd → SpdFitsHeader (o.heap p) := by
  constructor
  · intro h
    have hspd : ∀ p ∈ ps, o.type p = .spd → blockSize (o.heap p) = spdSize :=
      fun p hp => h.blockSize_spd hp
    obtain ⟨img, header, hmain, hheader, hemitted⟩ := h
    have hcount := length_le_of_written hmain
    rw [List.length_map] at hcount
    have hfits := Objects.fits hcount hguid hsize hspd
    obtain rfl := Outcome.written.inj (Except.ok.inj ((main_eq hfits quick).symm.trans hmain))
    obtain rfl := Except.ok.inj ((readHeader_image hfits.readable quick).symm.trans hheader)
    refine ⟨hcount, fun p hp htype => ⟨hspd p hp htype, ?_⟩⟩
    obtain ⟨i, hi, rfl⟩ := List.getElem_of_mem hp
    have hblock := Objects.headered (hguid _ hp) (hspd _ hp)
    obtain ⟨bs, hbs, hintact⟩ := hemitted i hi
    obtain rfl := Except.ok.inj ((Objects.emitted_image hfits quick hi hblock).symm.trans hbs)
    exact (BlockType.intact_sealed_iff (hguid _ hp) hblock).mp hintact htype
  · rintro ⟨hcount, hall⟩
    have hspd : ∀ p ∈ ps, o.type p = .spd → blockSize (o.heap p) = spdSize :=
      fun p hp htype => (hall p hp htype).1
    have hfits := Objects.fits hcount hguid hsize hspd
    refine ⟨_, _, main_eq hfits quick, readHeader_image hfits.readable quick, ?_⟩
    intro i hi
    have hp := List.getElem_mem hi
    have hblock := Objects.headered (hguid _ hp) (hspd _ hp)
    refine ⟨_, Objects.emitted_image hfits quick hi hblock, ?_⟩
    exact (BlockType.intact_sealed_iff (hguid _ hp) hblock).mpr fun htype => (hall _ hp htype).2

/-- A configuration block of 16 bytes, and an SPD that fits a block header. -/
def spdSample : Objects Bool where
  type b := if b then .spd else .config
  heap b :=
    if b then [0, 0, 0, 0, 0, 0, 0, 0, 0x00, 0x02, 0xFD] ++ List.replicate 501 0
    else [0, 0, 0, 0, 0, 0, 0, 0, 16, 0, 0, 0, 0, 0, 0, 0]
  admits b := by
    cases b with
    | false =>
      refine ⟨fun _ => ⟨by decide +kernel, by decide +kernel⟩, fun h => ?_⟩
      cases h
    | true =>
      refine ⟨fun h => ?_, fun _ => by decide +kernel⟩
      cases h

theorem packedIntact_iff_sample :
    PackedIntact (MemQuickConfig.layout.filled 0) spdSample [true, false, true] := by
  refine (packedIntact_iff (MemQuickConfig.layout.filled 0) spdSample [true, false, true]
    (by decide) (by decide +kernel)).mpr ⟨by decide, ?_⟩
  intro p _ htype
  cases p with
  | false => cases htype
  | true => exact ⟨by decide +kernel, by decide +kernel⟩

/-- An SPD of zeros. -/
def blankSpd : Objects Unit where
  type _ := .spd
  heap _ := List.replicate spdSize 0
  admits _ := by
    refine ⟨fun h => ?_, fun _ => List.length_replicate⟩
    cases h

/-- A list of one SPD that the tool does not emit. -/
theorem blankSpd_not_packedIntact :
    (∀ p ∈ [()], (blankSpd.type p).guid ≠ guidInvalid) ∧
      imageSize blankSpd.heap ([()].map (cdcbBlock blankSpd)) ≤ 65536 ∧
      ¬ PackedIntact (MemQuickConfig.layout.filled 0) blankSpd [()] := by
  refine ⟨by decide, by decide +kernel, ?_⟩
  intro h
  have hsize := h.blockSize_spd (p := ()) List.mem_cons_self rfl
  have hzero : blockSize (blankSpd.heap ()) = 0 := by decide +kernel
  rw [hzero] at hsize
  cases hsize

end MemConfig
