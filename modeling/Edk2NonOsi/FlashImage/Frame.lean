-- SUMMARY: What `replace_image` leaves alone: exactly when a completed run changes nothing outside the slot and the `Size` field of its target.
import Edk2NonOsi.FlashImage.Refusal

open Python

namespace FlashImage

/-- The positions of the `Size` field of the target; the EC record, which is not
    an entry of the table, has none. -/
def sizeField (data : Bytes) (h i : Nat) : Set Nat :=
  if i < countAt data h then Set.Ico (sizeOffset h i) (sizeOffset h i + 4) else ∅

/-- The slot lies inside the file. -/
def SlotInside (data : Bytes) (r : Record) : Prop :=
  slot r ⊆ Set.Iio data.length

/-- A completed run kept every byte outside the target's slot and `Size` field,
    and the length of the file. -/
def RestKept {Path : Type} (files' : Files Path) (outFile : Path) (data : Bytes) (h i : Nat)
    (r : Record) : Prop :=
  ∃ output, files' outFile = some output ∧ output.length = data.length ∧
    Span.AgreeOff (slot r ∪ sizeField data h i) output data

theorem SlotInside.empty_or_le {data : Bytes} {r : Record} (hslot : SlotInside data r) :
    r.size = 0 ∨ r.offset + r.size ≤ data.length := by
  by_cases hsize : r.size = 0
  · exact Or.inl hsize
  · right
    have hlast : r.offset + r.size - 1 ∈ slot r := by
      rw [slot, Set.mem_Ico]
      omega
    have := Set.mem_Iio.mp (hslot hlast)
    omega

namespace IsTarget

variable {data repl : Bytes} {t : Int} {h i : Nat} {r : Record}

theorem sizeOffset_le (ht : IsTarget data t h i r) (hi : i < countAt data h) :
    sizeOffset h i + 4 ≤ data.length := by
  have hend := ht.complete
  rw [tableEnd] at hend
  rw [sizeOffset]
  omega

theorem sizeField_lt (ht : IsTarget data t h i r) {p : Nat} (hp : p ∈ sizeField data h i) :
    p < data.length := by
  unfold sizeField at hp
  split at hp
  next hi =>
    have hend := ht.sizeOffset_le hi
    have hlt := (Set.mem_Ico.mp hp).2
    omega
  next => exact hp.elim

/-- Synchronising the header changes at most the `Size` field. -/
theorem replaced_agreeOff (ht : IsTarget data t h i r) (hlen : data.length ≤
    (overwritten data r repl).length) :
    Span.AgreeOff (sizeField data h i) (replaced data t h i r repl) (overwritten data r repl) ∧
      (replaced data t h i r repl).length = (overwritten data r repl).length := by
  unfold replaced
  split
  next => exact ⟨Span.AgreeOff.refl _ _, rfl⟩
  next hne =>
    have hi := ht.index_lt hne
    have hend := ht.sizeOffset_le hi
    rw [Span.writeFill_eq_write (by omega), sizeField, if_pos hi]
    constructor
    · have := Span.write_agreeOff (LittleEndian.ofNat 4 repl.length)
        (show sizeOffset h i ≤ (overwritten data r repl).length by omega)
      rwa [LittleEndian.length_ofNat] at this
    · rw [Span.length_write_of_le]
      rw [LittleEndian.length_ofNat]
      omega

end IsTarget

theorem length_le_overwritten (data : Bytes) (r : Record) (repl : Bytes) :
    data.length ≤ (overwritten data r repl).length :=
  (Span.length_le_writeFill _ _ _ _).trans (Span.length_le_writeFill _ _ _ _)

theorem getElem?_overwritten_of_lt (data : Bytes) (r : Record) {repl : Bytes} {k : Nat}
    (hk : k < repl.length) : (overwritten data r repl)[r.offset + k]? = repl[k]? :=
  Span.getElem?_writeFill_of_lt _ _ _ hk

/-- Erasing a slot inside the file changes the slot only. -/
theorem erased_agreeOff {data : Bytes} {r : Record} (hslot : SlotInside data r) :
    Span.AgreeOff (slot r) (Span.writeFill 0 data r.offset (List.replicate r.size 0xFF)) data ∧
      (Span.writeFill 0 data r.offset (List.replicate r.size 0xFF)).length = data.length := by
  obtain hsize | hend := hslot.empty_or_le
  · rw [hsize, List.replicate_zero, Span.writeFill_nil]
    exact ⟨Span.AgreeOff.refl _ _, rfl⟩
  · rw [Span.writeFill_eq_write (by omega)]
    constructor
    · have := Span.write_agreeOff (List.replicate r.size 0xFF)
        (show r.offset ≤ data.length by omega)
      rwa [List.length_replicate] at this
    · rw [Span.length_write_of_le]
      rw [List.length_replicate]
      exact hend

/-- Overwriting a slot inside the file changes the span of the replacement and
    the slot only, as long as the replacement ends inside the file. -/
theorem overwritten_agreeOff {data repl : Bytes} {r : Record} (hslot : SlotInside data r)
    (hend : repl = [] ∨ r.offset + repl.length ≤ data.length) :
    Span.AgreeOff (Set.Ico r.offset (r.offset + repl.length) ∪ slot r)
        (overwritten data r repl) data ∧
      (overwritten data r repl).length = data.length := by
  obtain ⟨herased, hlen⟩ := erased_agreeOff hslot
  unfold overwritten
  obtain rfl | hend := hend
  · rw [Span.writeFill_nil]
    exact ⟨herased.mono Set.subset_union_right, hlen⟩
  · rw [Span.writeFill_eq_write (by omega)]
    constructor
    · exact (Span.write_agreeOff repl (by omega)).trans herased
    · rw [Span.length_write_of_le (by omega), hlen]

/-- What a completed run says about its inputs: a target, and a replacement whose
    length fits the `Size` field it is packed into. -/
theorem isTarget_of_ok {Path : Type} [DecidableEq Path] {files files' : Files Path}
    {inFile reFile outFile : Path} {data repl : Bytes} {t : Int}
    (hin : files inFile = some data) (hre : files reFile = some repl)
    (hrun : replaceImage files inFile reFile t outFile = (.ok (), files')) :
    ∃ h i r, IsTarget data t h i r ∧ (t = 0 ∨ repl.length < 2 ^ 32) := by
  cases hrefusal : refusal data t with
  | some e =>
    rw [replaceImage_refused reFile outFile hin hrefusal] at hrun
    cases (Prod.mk.inj hrun).1
  | none =>
    obtain ⟨h, i, r, ht⟩ := exists_isTarget hrefusal
    refine ⟨h, i, r, ht, ?_⟩
    by_contra hpack
    rw [not_or] at hpack
    -- Packing the length is the last step, and the only one left that raises.
    have htype : r.imageType ≠ 0 := by
      intro hzero
      apply hpack.1
      rw [← ht.imageType_eq, hzero]
      rfl
    have herror := writeImage_error (recordsAt data h) h i data htype hpack.2
    rw [replaceImage_of_isTarget outFile hin hre ht, herror] at hrun
    cases (Prod.mk.inj hrun).1

/-- The byte a completed run leaves at a position of the replacement. -/
theorem getElem?_replaced {data repl : Bytes} {t : Int} {h i : Nat} {r : Record}
    (ht : IsTarget data t h i r) {k : Nat} (hk : k < repl.length)
    (hfield : r.offset + k ∉ sizeField data h i) :
    (replaced data t h i r repl)[r.offset + k]? = repl[k]? := by
  have hsync := (ht.replaced_agreeOff (length_le_overwritten data r repl)).1
  rw [hsync _ hfield, getElem?_overwritten_of_lt data r hk]

theorem output_eq {Path : Type} [DecidableEq Path] {files files' : Files Path}
    {inFile reFile outFile : Path} {data repl : Bytes} {t : Int} {h i : Nat} {r : Record}
    (hin : files inFile = some data) (hre : files reFile = some repl)
    (hrun : replaceImage files inFile reFile t outFile = (.ok (), files'))
    (ht : IsTarget data t h i r) : files' outFile = some (replaced data t h i r repl) := by
  obtain ⟨-, -, -, -, hpack⟩ := isTarget_of_ok hin hre hrun
  rw [replaceImage_eq outFile hin hre ht hpack] at hrun
  rw [← (Prod.mk.inj hrun).2, Function.update_self]

/-- The replacement ends inside the file when none of its bytes past the slot
    changes the rest: its last byte is in the slot, in the field, or equal to a
    byte of the file. -/
theorem replacement_inside {data repl : Bytes} {t : Int} {h i : Nat} {r : Record}
    (ht : IsTarget data t h i r) (hslot : SlotInside data r)
    (hexcess : ∀ k, r.size ≤ k → k < repl.length →
      r.offset + k ∈ sizeField data h i ∨ data[r.offset + k]? = repl[k]?) :
    repl = [] ∨ r.offset + repl.length ≤ data.length := by
  by_cases hnil : repl = []
  · exact Or.inl hnil
  · right
    have hpos : 0 < repl.length := List.length_pos_iff.mpr hnil
    by_cases hsize : r.size ≤ repl.length - 1
    · obtain hfield | hsame := hexcess (repl.length - 1) hsize (by omega)
      · have := ht.sizeField_lt hfield
        omega
      · rw [List.getElem?_eq_getElem (by omega : repl.length - 1 < repl.length)] at hsame
        have := (List.getElem?_eq_some_iff.mp hsame).1
        omega
    · obtain hempty | hle := hslot.empty_or_le
      · omega
      · omega

/-- **When the rest of the flash image survives.** A completed run keeps every
    byte outside the target's slot and `Size` field, and the length, exactly when
    no byte of the replacement past the recorded `Size` changes the file: it
    falls into the `Size` field, or the file holds that byte there already. -/
theorem restKept_iff {Path : Type} [DecidableEq Path] {files files' : Files Path}
    {inFile reFile outFile : Path} {data repl : Bytes} {t : Int} {h i : Nat} {r : Record}
    (hin : files inFile = some data) (hre : files reFile = some repl)
    (hrun : replaceImage files inFile reFile t outFile = (.ok (), files'))
    (ht : IsTarget data t h i r) (hslot : SlotInside data r) :
    RestKept files' outFile data h i r ↔
      ∀ k, r.size ≤ k → k < repl.length →
        r.offset + k ∈ sizeField data h i ∨ data[r.offset + k]? = repl[k]? := by
  have hout := output_eq hin hre hrun ht
  obtain ⟨hsync, hsyncLen⟩ := ht.replaced_agreeOff (length_le_overwritten data r repl)
  constructor
  · rintro ⟨output, houtput, -, hagree⟩ k hsize hk
    obtain rfl : replaced data t h i r repl = output := by
      rw [hout] at houtput
      exact Option.some.inj houtput
    by_cases hfield : r.offset + k ∈ sizeField data h i
    · exact Or.inl hfield
    · right
      have hnot : r.offset + k ∉ slot r ∪ sizeField data h i := by
        rintro (hin | hin)
        · have := (Set.mem_Ico.mp hin).2
          omega
        · exact hfield hin
      rw [← hagree _ hnot, getElem?_replaced ht hk hfield]
  · intro hexcess
    obtain ⟨hover, hoverLen⟩ :=
      overwritten_agreeOff hslot (replacement_inside ht hslot hexcess)
    refine ⟨_, hout, hsyncLen.trans hoverLen, ?_⟩
    intro p hp
    have hpslot : p ∉ slot r := fun h => hp (Or.inl h)
    have hpfield : p ∉ sizeField data h i := fun h => hp (Or.inr h)
    by_cases hspan : p ∈ Set.Ico r.offset (r.offset + repl.length)
    · have hp' := Set.mem_Ico.mp hspan
      obtain ⟨k, rfl⟩ := Nat.exists_eq_add_of_le hp'.1
      have hge : r.size ≤ k := by
        by_contra hlt
        exact hpslot (Set.mem_Ico.mpr (by omega))
      obtain hfield | hsame := hexcess k hge (by omega)
      · exact (hpfield hfield).elim
      · rw [hsame, getElem?_replaced ht (by omega) hpfield]
    · rw [hsync p hpfield]
      exact hover p fun h => h.elim hspan hpslot

-- ---------------------------------------------------------------------------
-- A neighbour overwritten
-- ---------------------------------------------------------------------------

/-- A file with its header at 0x100000 has the targets of the header. -/
theorem isTarget_of_header {pre hdr : Bytes} {t : Int} {i : Nat} {r : Record}
    (hpre : pre.length = 0x100000) (hmagic : Span.read hdr 0 4 = magic)
    (hend : tableEnd hdr 0 ≤ hdr.length) (hindex : targetIndex? hdr 0 t = some i)
    (hrecord : (recordsAt hdr 0)[i]? = some r) : IsTarget (pre ++ hdr) t 0x100000 i r := by
  have hread : Span.read (pre ++ hdr) pre.length 4 = magic :=
    (Span.read_append_right pre hdr 0 4).trans hmagic
  rw [← hpre]
  constructor
  · unfold headerOffset? headerOffsets
    rw [← hpre]
    exact List.find?_cons_of_pos (by simpa using hread)
  · rw [tableEnd] at hend ⊢
    rw [countAt_append, List.length_append]
    omega
  · unfold targetIndex? at hindex ⊢
    rw [recordsAt_append, hindex]
  · rw [recordsAt_append, hrecord]

/-- A header with one entry, of type 1 and with the one-byte slot at 0. -/
def oneByteHeader : Bytes :=
  magic ++ LittleEndian.ofNat 4 1 ++ LittleEndian.ofNat 4 1 ++ LittleEndian.ofNat 4 0 ++
    LittleEndian.ofNat 4 1 ++ LittleEndian.ofNat 4 0 ++ LittleEndian.ofNat 4 1 ++
    LittleEndian.ofNat 4 0

def oneByteFlash : Bytes :=
  List.replicate 0x100000 0 ++ oneByteHeader

def oneByteRecord : Record where
  imageType := 1
  offset := 0
  size := 1
  reserve := 0

theorem isTarget_oneByteFlash : IsTarget oneByteFlash 1 0x100000 0 oneByteRecord :=
  isTarget_of_header List.length_replicate (by decide) (by decide) (by decide) (by decide)

theorem slotInside_oneByteFlash : SlotInside oneByteFlash oneByteRecord := by
  intro p hp
  have hlt : p < 0 + 1 := (Set.mem_Ico.mp hp).2
  rw [Set.mem_Iio, oneByteFlash, List.length_append, List.length_replicate]
  omega

/-- The flash file and the replacement, as the tool is given them. -/
def oneByteFiles (repl : Bytes) : Files String := fun path =>
  if path = "flash.bin" then some oneByteFlash
  else if path = "sub.bin" then some repl
  else none

theorem oneByteFiles_flash (repl : Bytes) : oneByteFiles repl "flash.bin" = some oneByteFlash :=
  if_pos rfl

theorem oneByteFiles_sub (repl : Bytes) : oneByteFiles repl "sub.bin" = some repl :=
  (if_neg (by decide)).trans (if_pos rfl)

/-- Two bytes for the one-byte slot: the run completes and overwrites the byte
    behind the slot. -/
theorem replaceImage_overwrites_neighbour :
    ∃ files', replaceImage (oneByteFiles [1, 1]) "flash.bin" "sub.bin" 1 "out.bin" =
        (.ok (), files') ∧
      IsTarget oneByteFlash 1 0x100000 0 oneByteRecord ∧
      SlotInside oneByteFlash oneByteRecord ∧
      ¬ RestKept files' "out.bin" oneByteFlash 0x100000 0 oneByteRecord := by
  have ht := isTarget_oneByteFlash
  have hrun := replaceImage_eq "out.bin" (oneByteFiles_flash [1, 1]) (oneByteFiles_sub [1, 1]) ht
    (Or.inr (by decide))
  refine ⟨_, hrun, ht, slotInside_oneByteFlash, ?_⟩
  rintro ⟨output, houtput, -, hagree⟩
  rw [output_eq (oneByteFiles_flash _) (oneByteFiles_sub _) hrun ht] at houtput
  obtain rfl := Option.some.inj houtput
  have hfield : oneByteRecord.offset + 1 ∉ sizeField oneByteFlash 0x100000 0 := by
    unfold sizeField
    split
    next =>
      rw [Set.mem_Ico]
      decide
    next => exact id
  have hslot : oneByteRecord.offset + 1 ∉ slot oneByteRecord := by
    rw [slot, Set.mem_Ico]
    decide
  have hsame := hagree (oneByteRecord.offset + 1) fun h => h.elim hslot hfield
  rw [getElem?_replaced ht (by decide) hfield, oneByteFlash,
    List.getElem?_append_left (by rw [List.length_replicate]; decide),
    List.getElem?_replicate_of_lt (by decide)] at hsame
  revert hsame
  decide

theorem restKept_iff_one_byte :
    ∃ files', RestKept files' "out.bin" oneByteFlash 0x100000 0 oneByteRecord := by
  have ht := isTarget_oneByteFlash
  have hrun := replaceImage_eq "out.bin" (oneByteFiles_flash [1]) (oneByteFiles_sub [1]) ht
    (Or.inr (by decide))
  refine ⟨_, (restKept_iff (oneByteFiles_flash [1]) (oneByteFiles_sub [1]) hrun ht
    slotInside_oneByteFlash).mpr ?_⟩
  intro k hsize hk
  have hge : 1 ≤ k := hsize
  have hlt : k < 1 := hk
  omega

end FlashImage
