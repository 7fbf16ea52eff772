-- SUMMARY: A replacement that fits as a list of patches, and the overwrite laws: putting back what a slot holds, and replacing an image twice.
import Edk2NonOsi.Bytes.Patch
import Edk2NonOsi.FlashImage.Reparse

open Python

namespace FlashImage

/-- Replacing the image of type `t` turns `data` into `output`: wherever the two
    inputs are and wherever the output goes, the run completes and changes no
    file but the output. -/
def Replaces (t : Int) (data repl output : Bytes) : Prop :=
  ∀ (Path : Type) [DecidableEq Path] (files : Files Path) (inFile reFile outFile : Path),
    files inFile = some data → files reFile = some repl →
      replaceImage files inFile reFile t outFile =
        (.ok (), Function.update files outFile (some output))

/-- What a replacement that fits leaves in the slot. -/
def slotBytes (r : Record) (repl : Bytes) : Bytes :=
  repl ++ List.replicate (r.size - repl.length) 0xFF

/-- `bs` from the start of the slot on. -/
def putPatch (r : Record) (bs : Bytes) : Patch UInt8 :=
  ⟨r.offset, bs⟩

/-- `n` in the `Size` field of entry `i`. -/
def syncPatch (h i n : Nat) : Patch UInt8 :=
  ⟨sizeOffset h i, LittleEndian.ofNat 4 n⟩

/-- The slot, and the `Size` field unless the image is the EC one. -/
def patches (t : Int) (h i : Nat) (r : Record) (repl : Bytes) : List (Patch UInt8) :=
  putPatch r (slotBytes r repl) :: if t = 0 then [] else [syncPatch h i repl.length]

/-- The record of the target after a replacement of `n` bytes. -/
def resized (t : Int) (r : Record) (n : Nat) : Record :=
  if t = 0 then r else { r with size := n }

-- ---------------------------------------------------------------------------
-- A replacement as patches
-- ---------------------------------------------------------------------------

theorem length_slotBytes {r : Record} {repl : Bytes} (hfit : repl.length ≤ r.size) :
    (slotBytes r repl).length = r.size := by
  rw [slotBytes, List.length_append, List.length_replicate]
  omega

theorem SlotInside.putPatch {data bs : Bytes} {r : Record} (hslot : SlotInside data r)
    (hfit : bs.length ≤ r.size) : (putPatch r bs).Inside data.length := by
  obtain hsize | hend := hslot.empty_or_le
  · left
    exact List.length_eq_zero_iff.mp (Nat.le_zero.mp (hfit.trans_eq hsize))
  · right
    exact (Nat.add_le_add_left hfit r.offset).trans hend

/-- The two writes to the data of the image. -/
theorem overwritten_eq_apply {data repl : Bytes} {r : Record}
    (herase : (putPatch r (List.replicate r.size 0xFF)).Inside data.length)
    (hput : (putPatch r repl).Inside data.length) :
    overwritten data r repl =
      (putPatch r repl).apply ((putPatch r (List.replicate r.size 0xFF)).apply data) := by
  have hput' := hput
  rw [← herase.length_apply] at hput'
  rw [← hput'.writeFill 0, ← herase.writeFill 0]
  rfl

/-- The slot is erased and then overwritten from its start. -/
theorem overwritten_eq_slotBytes {data repl : Bytes} {r : Record} (hslot : SlotInside data r)
    (hfit : repl.length ≤ r.size) :
    overwritten data r repl = (putPatch r (slotBytes r repl)).apply data := by
  have hlen : (List.replicate r.size (0xFF : UInt8)).length = r.size := List.length_replicate
  have herase := hslot.putPatch (Nat.le_of_eq hlen)
  rw [overwritten_eq_apply herase (hslot.putPatch hfit), putPatch, putPatch,
    herase.apply_apply (hfit.trans_eq hlen.symm), List.drop_replicate]
  rfl

namespace IsTarget

variable {data repl : Bytes} {t : Int} {h i : Nat} {r : Record}

theorem syncPatch (ht : IsTarget data t h i r) (hne : t ≠ 0) (n : Nat) :
    (syncPatch h i n).Inside data.length := by
  right
  rw [FlashImage.syncPatch, LittleEndian.length_ofNat]
  exact ht.sizeOffset_le (ht.index_lt hne)

/-- The last write of a run that synchronises. -/
theorem replaced_eq_syncPatch (ht : IsTarget data t h i r) (hne : t ≠ 0)
    (hlen : (overwritten data r repl).length = data.length) :
    replaced data t h i r repl =
      (FlashImage.syncPatch h i repl.length).apply (overwritten data r repl) := by
  have hsync := ht.syncPatch hne repl.length
  rw [← hlen] at hsync
  rw [replaced, if_neg hne, ← hsync.writeFill 0]
  rfl

theorem replaced_eq_applyAll (ht : IsTarget data t h i r) (hslot : SlotInside data r)
    (hfit : repl.length ≤ r.size) :
    replaced data t h i r repl = Patch.applyAll (patches t h i r repl) data := by
  have hover := overwritten_eq_slotBytes hslot hfit
  have hlen := (hslot.putPatch (Nat.le_of_eq (length_slotBytes hfit))).length_apply
  rw [← hover] at hlen
  unfold patches
  split
  next hzero =>
    rw [replaced, if_pos hzero, hover]
    rfl
  next hne =>
    rw [ht.replaced_eq_syncPatch hne hlen, hover]
    rfl

/-- The `Size` field of the target holds its `Size`. -/
theorem read_sizeOffset (ht : IsTarget data t h i r) (hne : t ≠ 0) :
    Span.read data (sizeOffset h i) 4 = LittleEndian.ofNat 4 r.size := by
  have hi := ht.index_lt hne
  have hlen : (Span.read data (sizeOffset h i) 4).length = 4 :=
    Span.length_read_of_le (ht.sizeOffset_le hi)
  have hsize : r.size = LittleEndian.toNat (Span.read data (sizeOffset h i) 4) := by
    rw [ht.record_eq_recordAt hi]
    rfl
  have hback := LittleEndian.ofNat_toNat (Span.read data (sizeOffset h i) 4)
  rw [hlen] at hback
  rw [hsize, hback]

end IsTarget

theorem replaces_replaced {data repl : Bytes} {t : Int} {h i : Nat} {r : Record}
    (ht : IsTarget data t h i r) (hpack : t = 0 ∨ repl.length < 2 ^ 32) :
    Replaces t data repl (replaced data t h i r repl) :=
  fun _ _ _ _ _ outFile hin hre => replaceImage_eq outFile hin hre ht hpack

-- ---------------------------------------------------------------------------
-- Targets of the output
-- ---------------------------------------------------------------------------

section Output

variable {data repl : Bytes} {t : Int} {h i : Nat} {r : Record}

/-- A replacement changes no image type. -/
theorem map_imageType_syncedRecords (ht : IsTarget data t h i r) (n : Nat) :
    (syncedRecords data t h i r n).map Record.imageType =
      (recordsAt data h).map Record.imageType := by
  unfold syncedRecords
  split
  next => rfl
  next =>
    obtain ⟨hi, hr⟩ := ht.getElem_eq
    have hi' : i < ((recordsAt data h).map Record.imageType).length := by
      rw [List.length_map]
      exact hi
    have htype : ((recordsAt data h).map Record.imageType)[i] = r.imageType := by
      rw [List.getElem_map, hr]
    rw [List.map_set, ← htype, List.set_getElem_self]

/-- The first record of every type stays where it is. -/
theorem targetIndex?_replaced (ht : IsTarget data t h i r) (hslot : SlotInside data r)
    (hapart : SlotApart data h r) (hfit : repl.length ≤ r.size) (t' : Int) :
    targetIndex? (replaced data t h i r repl) h t' = targetIndex? data h t' := by
  have htypes (records : List Record) :
      records.findIdx? (fun r => (r.imageType : Int) = t') =
        (records.map Record.imageType).findIdx? fun n : Nat => (n : Int) = t' := by
    rw [List.findIdx?_map]
    rfl
  unfold targetIndex?
  rw [recordsAt_replaced ht hslot hapart hfit, htypes, map_imageType_syncedRecords ht, ← htypes]

/-- What is a target of the output. -/
theorem isTarget_replaced (ht : IsTarget data t h i r) (hslot : SlotInside data r)
    (hapart : SlotApart data h r) (hfit : repl.length ≤ r.size) {t' : Int} {i' : Nat} {r' : Record}
    (hindex : targetIndex? data h t' = some i')
    (hrecord : (syncedRecords data t h i r repl.length)[i']? = some r') :
    IsTarget (replaced data t h i r repl) t' h i' r' where
  header := headerOffset?_replaced ht hslot hapart hfit
  complete := by
    rw [tableEnd_replaced ht hslot hapart hfit, (ht.replaced_touched hslot hfit).2]
    exact ht.complete
  index := by
    rw [targetIndex?_replaced ht hslot hapart hfit, hindex]
  record := by
    rw [recordsAt_replaced ht hslot hapart hfit, hrecord]

/-- The target is still the target, with its new `Size`. -/
theorem isTarget_replaced_self (ht : IsTarget data t h i r) (hslot : SlotInside data r)
    (hapart : SlotApart data h r) (hfit : repl.length ≤ r.size) :
    IsTarget (replaced data t h i r repl) t h i (resized t r repl.length) := by
  apply isTarget_replaced ht hslot hapart hfit ht.index
  unfold syncedRecords resized
  split
  next => exact ht.record
  next =>
    obtain ⟨hi, -⟩ := ht.getElem_eq
    exact List.getElem?_set_self hi

/-- The slot does not meet the `Size` field of an entry. -/
theorem SlotApart.disjoint_sizeOffset (hapart : SlotApart data h r) {j : Nat}
    (hj : j < countAt data h) :
    Disjoint (slot r) (Set.Ico (sizeOffset h j) (sizeOffset h j + 4)) := by
  apply hapart.disjoint
  · rw [sizeOffset]
    omega
  · rw [sizeOffset, tableEnd]
    omega

theorem range_putPatch_subset {bs : Bytes} (hfit : bs.length ≤ r.size) :
    (putPatch r bs).range ⊆ slot r :=
  Set.Ico_subset_Ico_right (Nat.add_le_add_left hfit r.offset)

theorem range_syncPatch (h i n : Nat) :
    (syncPatch h i n).range = Set.Ico (sizeOffset h i) (sizeOffset h i + 4) := by
  rw [Patch.range, syncPatch, LittleEndian.length_ofNat]

/-- Writing to the slot does not meet synchronising an entry. -/
theorem SlotApart.disjoint_syncPatch (hapart : SlotApart data h r) {j : Nat}
    (hj : j < countAt data h) {bs : Bytes} (hfit : bs.length ≤ r.size) (n : Nat) :
    Disjoint (putPatch r bs).range (syncPatch h j n).range := by
  rw [range_syncPatch]
  exact (hapart.disjoint_sizeOffset hj).mono_left (range_putPatch_subset hfit)

end Output

-- ---------------------------------------------------------------------------
-- The laws
-- ---------------------------------------------------------------------------

section Laws

variable {data A B : Bytes} {t : Int} {h i : Nat} {r : Record}

/-- Putting back what the slot holds changes nothing, wherever the slot is. -/
theorem replaced_read_slot (ht : IsTarget data t h i r) (hslot : SlotInside data r) :
    replaced data t h i r (Span.read data r.offset r.size) = data := by
  have hlen : (Span.read data r.offset r.size).length = r.size := by
    obtain hsize | hend := hslot.empty_or_le
    · rw [Span.length_read, hsize, Nat.zero_min]
    · exact Span.length_read_of_le hend
  have hback : (putPatch r (Span.read data r.offset r.size)).apply data = data := by
    obtain hsize | hend := hslot.empty_or_le
    · have hnil : Span.read data r.offset r.size = [] :=
        List.length_eq_zero_iff.mp (hlen.trans hsize)
      rw [hnil]
      exact Span.write_nil data r.offset
    · exact Span.write_read_self data r.offset r.size hend
  have hbytes : slotBytes r (Span.read data r.offset r.size) = Span.read data r.offset r.size := by
    rw [slotBytes, hlen, Nat.sub_self, List.replicate_zero, List.append_nil]
  rw [ht.replaced_eq_applyAll hslot (Nat.le_of_eq hlen), patches, Patch.applyAll_cons, hbytes,
    hback, hlen]
  split
  next => rfl
  next hne =>
    rw [Patch.applyAll_cons, Patch.applyAll_nil, syncPatch, ← ht.read_sizeOffset hne]
    exact Span.write_read_self data (sizeOffset h i) 4 (ht.sizeOffset_le (ht.index_lt hne))

/-- Erasing the front of a slot that holds a replacement of that length erases the
    slot: the rest is erased already. -/
theorem erase_slotBytes (hslot : SlotInside data r) (hA : A.length ≤ r.size) :
    (putPatch r (List.replicate A.length 0xFF)).apply ((putPatch r (slotBytes r A)).apply data) =
      (putPatch r (List.replicate r.size 0xFF)).apply data := by
  have hlen : (List.replicate A.length (0xFF : UInt8)).length = A.length := List.length_replicate
  have hbytes := length_slotBytes hA
  have hinside := hslot.putPatch (Nat.le_of_eq hbytes)
  have hdrop : (slotBytes r A).drop A.length = List.replicate (r.size - A.length) 0xFF :=
    List.drop_left' rfl
  have hsum : A.length + (r.size - A.length) = r.size := by omega
  rw [putPatch, putPatch, hinside.apply_apply (by omega), hlen, hdrop,
    List.replicate_append_replicate, hsum]
  rfl

/-- A write to the slot moves past a synchronisation. -/
theorem putPatch_syncPatch (ht : IsTarget data t h i r) (hslot : SlotInside data r)
    (hapart : SlotApart data h r) (hne : t ≠ 0) {xs bs : Bytes} (hlen : xs.length = data.length)
    (hfit : bs.length ≤ r.size) (n : Nat) :
    (putPatch r bs).apply ((syncPatch h i n).apply xs) =
      (syncPatch h i n).apply ((putPatch r bs).apply xs) := by
  have hput := hslot.putPatch hfit
  have hsync := ht.syncPatch hne n
  rw [← hlen] at hput hsync
  exact Patch.apply_comm hsync hput (hapart.disjoint_syncPatch (ht.index_lt hne) hfit n).symm

/-- The data of the image after two replacements, when the first one shrank the
    recorded `Size`. -/
theorem overwritten_replaced (ht : IsTarget data t h i r) (hslot : SlotInside data r)
    (hapart : SlotApart data h r) (hA : A.length ≤ r.size) (hB : B.length ≤ r.size) (hne : t ≠ 0) :
    overwritten (replaced data t h i r A) { r with size := A.length } B =
      (syncPatch h i A.length).apply (overwritten data r B) := by
  have hlenX := (ht.replaced_touched hslot hA).2
  have hslot' : SlotInside (replaced data t h i r A) r := by
    rw [SlotInside, hlenX]
    exact hslot
  have hfront : (List.replicate A.length (0xFF : UInt8)).length ≤ r.size := by
    rw [List.length_replicate]
    exact hA
  have hwhole : (List.replicate r.size (0xFF : UInt8)).length ≤ r.size := by
    rw [List.length_replicate]
  have hlenW := (hslot.putPatch (Nat.le_of_eq (length_slotBytes hA))).length_apply
  have hlenE := (hslot.putPatch hwhole).length_apply
  have hX : replaced data t h i r A =
      (syncPatch h i A.length).apply ((putPatch r (slotBytes r A)).apply data) := by
    rw [ht.replaced_eq_applyAll hslot hA, patches, if_neg hne]
    rfl
  calc overwritten (replaced data t h i r A) { r with size := A.length } B
      = (putPatch r B).apply ((putPatch r (List.replicate A.length 0xFF)).apply
          (replaced data t h i r A)) :=
        overwritten_eq_apply (hslot'.putPatch hfront) (hslot'.putPatch hB)
    _ = (putPatch r B).apply ((syncPatch h i A.length).apply
          ((putPatch r (List.replicate r.size 0xFF)).apply data)) := by
        rw [hX, putPatch_syncPatch ht hslot hapart hne hlenW hfront, erase_slotBytes hslot hA]
    _ = (syncPatch h i A.length).apply (overwritten data r B) := by
        rw [putPatch_syncPatch ht hslot hapart hne hlenE hB,
          overwritten_eq_apply (hslot.putPatch hwhole) (hslot.putPatch hB)]

/-- The second of two replacements wins where the table is synchronised. -/
theorem replaced_replaced_synced (ht : IsTarget data t h i r) (hslot : SlotInside data r)
    (hapart : SlotApart data h r) (hA : A.length ≤ r.size) (hB : B.length ≤ r.size) (hne : t ≠ 0) :
    replaced (replaced data t h i r A) t h i { r with size := A.length } B =
      replaced data t h i r B := by
  have ht' := isTarget_replaced_self ht hslot hapart hA
  rw [resized, if_neg hne] at ht'
  have hlenX := (ht.replaced_touched hslot hA).2
  have hbytes := hslot.putPatch (Nat.le_of_eq (length_slotBytes hB))
  have hlen : (overwritten data r B).length = data.length := by
    rw [overwritten_eq_slotBytes hslot hB, hbytes.length_apply]
  have hsync := ht.syncPatch hne A.length
  rw [← hlen] at hsync
  have hover := overwritten_replaced ht hslot hapart hA hB hne
  have hlen' : (overwritten (replaced data t h i r A) { r with size := A.length } B).length =
      (replaced data t h i r A).length := by
    rw [hover, hsync.length_apply, hlen, hlenX]
  rw [ht'.replaced_eq_syncPatch hne hlen', hover, ht.replaced_eq_syncPatch hne hlen]
  exact hsync.apply_apply_self (by rw [LittleEndian.length_ofNat, LittleEndian.length_ofNat])

/-- The second of two replacements wins. The second run erases as much as the first
    wrote, and the first had erased the rest. -/
theorem replaced_replaced (ht : IsTarget data t h i r) (hslot : SlotInside data r)
    (hapart : SlotApart data h r) (hA : A.length ≤ r.size) (hB : B.length ≤ r.size) :
    replaced (replaced data t h i r A) t h i (resized t r A.length) B =
      replaced data t h i r B := by
  unfold resized
  split
  next hzero =>
    -- The recorded `Size` has not changed, and the second run erases the whole slot.
    have ht' := isTarget_replaced_self ht hslot hapart hA
    have hslot' : SlotInside (replaced data t h i r A) r := by
      rw [SlotInside, (ht.replaced_touched hslot hA).2]
      exact hslot
    have hinside := hslot.putPatch (Nat.le_of_eq (length_slotBytes hA))
    rw [resized, if_pos hzero] at ht'
    rw [ht'.replaced_eq_applyAll hslot' hB, ht.replaced_eq_applyAll hslot hA,
      ht.replaced_eq_applyAll hslot hB, patches, patches, if_pos hzero, if_pos hzero]
    exact hinside.apply_apply_self (by rw [length_slotBytes hA, length_slotBytes hB])
  next hne => exact replaced_replaced_synced ht hslot hapart hA hB hne

/-- **The overwrite laws.** Replacing an image by what its slot holds reproduces the
    file. Where the slot is off the table and off the first magic, replacing twice is
    replacing once by the second image, also when the first was the shorter one. -/
theorem replaceImage_overwrite (ht : IsTarget data t h i r) (hslot : SlotInside data r) :
    Replaces t data (Span.read data r.offset r.size) data ∧
      (SlotApart data h r → ∀ A B : Bytes, A.length ≤ r.size → B.length ≤ r.size →
        ∃ dataA output, Replaces t data A dataA ∧ Replaces t dataA B output ∧
          Replaces t data B output) := by
  have hsize := ht.size_lt
  constructor
  · have hshort : (Span.read data r.offset r.size).length < 2 ^ 32 := by
      rw [Span.length_read]
      omega
    have hrun := replaces_replaced ht (Or.inr hshort)
    rwa [replaced_read_slot ht hslot] at hrun
  · intro hapart A B hA hB
    refine ⟨replaced data t h i r A, replaced data t h i r B, ?_, ?_, ?_⟩
    · exact replaces_replaced ht (Or.inr (by omega))
    · have hrun := replaces_replaced (isTarget_replaced_self ht hslot hapart hA)
        (Or.inr (by omega : B.length < 2 ^ 32))
      rwa [replaced_replaced ht hslot hapart hA hB] at hrun
    · exact replaces_replaced ht (Or.inr (by omega))

end Laws

theorem replaceImage_overwrite_one_byte :
    Replaces 1 oneByteFlash (Span.read oneByteFlash 0 1) oneByteFlash ∧
      ∃ dataA output, Replaces 1 oneByteFlash [] dataA ∧ Replaces 1 dataA [1] output ∧
        Replaces 1 oneByteFlash [1] output := by
  obtain ⟨hput, htwice⟩ := replaceImage_overwrite isTarget_oneByteFlash slotInside_oneByteFlash
  exact ⟨hput, htwice slotApart_oneByteFlash [] [1] (by decide) (by decide)⟩

end FlashImage
