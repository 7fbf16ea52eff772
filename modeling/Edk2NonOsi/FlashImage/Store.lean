-- SUMMARY: A flash file as a store of sub-images: what it holds when each type was last given some image, and that `replace_image` gives a type its image.
import Edk2NonOsi.Bytes.Overlay
import Edk2NonOsi.FlashImage.Commute

open Python

namespace FlashImage

/-- A file with a complete table in which the slots of the first records of the types
    lie inside the file, off the table and the first magic, and off each other. -/
structure WellLaidOut (data : Bytes) (h : Nat) : Prop where
  header : headerOffset? data = some h
  complete : tableEnd data h ≤ data.length
  inside : ∀ {t i r}, IsTarget data t h i r → SlotInside data r
  apart : ∀ {t i r}, IsTarget data t h i r → SlotApart data h r
  disjoint : ∀ {t₁ t₂ i₁ i₂ r₁ r₂}, IsTarget data t₁ h i₁ r₁ → IsTarget data t₂ h i₂ r₂ →
    t₁ ≠ t₂ → Disjoint (slot r₁) (slot r₂)

-- ---------------------------------------------------------------------------
-- Layouts by the ends of their slots
-- ---------------------------------------------------------------------------

/-- The slot of `r` ends in front of `a` or starts at `b` or behind, or is empty. -/
def Clear (r : Record) (a b : Nat) : Prop :=
  r.size = 0 ∨ r.offset + r.size ≤ a ∨ b ≤ r.offset

instance (r : Record) (a b : Nat) : Decidable (Clear r a b) :=
  inferInstanceAs (Decidable (_ ∨ _))

/-- The slots of the records, in a file of length `len` with its table at `[a, b)`. -/
structure LaidOut (records : List Record) (a b len : Nat) : Prop where
  inside : ∀ r ∈ records, r.size = 0 ∨ r.offset + r.size ≤ len
  table : ∀ r ∈ records, Clear r a b
  firstMagic : ∀ r ∈ records, Clear r 0x100000 0x100004
  apart : records.Pairwise fun r s =>
    r.imageType = s.imageType ∨ Clear r s.offset (s.offset + s.size)

theorem Clear.disjoint {r : Record} {a b : Nat} (h : Clear r a b) :
    Disjoint (slot r) (Set.Ico a b) := by
  rw [slot, Set.disjoint_left]
  intro q hq hq'
  rw [Set.mem_Ico] at hq hq'
  obtain hsize | hend | hstart := h
  · omega
  · omega
  · omega

theorem slotInside_of_le {data : Bytes} {r : Record}
    (h : r.size = 0 ∨ r.offset + r.size ≤ data.length) : SlotInside data r := by
  intro q hq
  have hq' := Set.mem_Ico.mp hq
  rw [Set.mem_Iio]
  omega

/-- A table whose slots are laid out by their ends. -/
theorem wellLaidOut_of_records {data : Bytes} {h : Nat} (hheader : headerOffset? data = some h)
    (hcomplete : tableEnd data h ≤ data.length)
    (hrecords : LaidOut (recordsAt data h) h (tableEnd data h) data.length) :
    WellLaidOut data h where
  header := hheader
  complete := hcomplete
  inside ht := slotInside_of_le (hrecords.inside _ (List.mem_of_getElem? ht.record))
  apart ht :=
    ⟨(hrecords.table _ (List.mem_of_getElem? ht.record)).disjoint,
      (hrecords.firstMagic _ (List.mem_of_getElem? ht.record)).disjoint⟩
  disjoint := by
    intro t₁ t₂ i₁ i₂ r₁ r₂ ht₁ ht₂ hne
    obtain ⟨hi₁, hr₁⟩ := ht₁.getElem_eq
    obtain ⟨hi₂, hr₂⟩ := ht₂.getElem_eq
    have htypes : r₁.imageType ≠ r₂.imageType := by
      intro heq
      apply hne
      rw [← ht₁.imageType_eq, ← ht₂.imageType_eq, heq]
    have hpairs := List.pairwise_iff_getElem.mp hrecords.apart
    obtain hlt | heq | hgt := lt_trichotomy i₁ i₂
    · have hpair := hpairs i₁ i₂ hi₁ hi₂ hlt
      rw [hr₁, hr₂] at hpair
      exact (hpair.resolve_left htypes).disjoint
    · exact (ht₁.index_ne ht₂ hne heq).elim
    · have hpair := hpairs i₂ i₁ hi₂ hi₁ hgt
      rw [hr₁, hr₂] at hpair
      exact (hpair.resolve_left htypes.symm).disjoint.symm

-- ---------------------------------------------------------------------------
-- The groups of a flash file
-- ---------------------------------------------------------------------------

/-- The first record of type `t`, with its index. -/
def target? (data : Bytes) (h : Nat) (t : Int) : Option (Nat × Record) := do
  let i ← targetIndex? data h t
  let r ← (recordsAt data h)[i]?
  return (i, r)

/-- The patches that put `image` into the slot of type `t` and its length into the
    `Size` field. An image is cut to its slot; those that fit are not. -/
def putPatches (data : Bytes) (h : Nat) (t : Int) (image : Bytes) : List (Patch UInt8) :=
  match target? data h t with
  | none => []
  | some (i, r) => patches t h i r (image.take r.size)

section Keys

variable {data : Bytes} {h : Nat} {t : Int} {i : Nat} {r : Record}

theorem IsTarget.target?_eq (ht : IsTarget data t h i r) : target? data h t = some (i, r) := by
  rw [target?, ht.index]
  show ((recordsAt data h)[i]? >>= fun r => some (i, r)) = _
  rw [ht.record]
  rfl

theorem IsTarget.putPatches_eq (ht : IsTarget data t h i r) (image : Bytes) :
    putPatches data h t image = patches t h i r (image.take r.size) := by
  rw [putPatches, ht.target?_eq]

theorem WellLaidOut.isTarget_of_index (hl : WellLaidOut data h)
    (hindex : targetIndex? data h t = some i) (hrecord : (recordsAt data h)[i]? = some r) :
    IsTarget data t h i r :=
  ⟨hl.header, hl.complete, hindex, hrecord⟩

/-- A type has a target, or no place in the file. -/
theorem WellLaidOut.target_cases (hl : WellLaidOut data h) (t : Int) :
    (∃ i r, IsTarget data t h i r) ∨
      (targetIndex? data h t = none ∧ ∀ image, putPatches data h t image = []) := by
  cases hindex : targetIndex? data h t with
  | none =>
    right
    refine ⟨rfl, fun image => ?_⟩
    rw [putPatches, target?, hindex]
    rfl
  | some i =>
    obtain ⟨hi, -, -⟩ := List.findIdx?_eq_some_iff_getElem.mp hindex
    exact Or.inl ⟨i, _, hl.isTarget_of_index hindex (List.getElem?_eq_getElem hi)⟩

theorem length_take_le (r : Record) (image : Bytes) : (image.take r.size).length ≤ r.size := by
  rw [List.length_take]
  omega

/-- The patches of a replacement write the touched positions. -/
theorem covered_patches {image : Bytes} (hfit : image.length ≤ r.size) :
    Patch.covered (patches t h i r image) = touched t h i r := by
  have hslot : (putPatch r (slotBytes r image)).range = slot r := by
    rw [Patch.range, putPatch, length_slotBytes hfit, slot]
  unfold patches touched
  rw [Patch.covered_cons, hslot]
  split
  next => rw [Patch.covered_nil, Set.union_empty]
  next => rw [Patch.covered_cons, Patch.covered_nil, Set.union_empty, range_syncPatch]

theorem IsTarget.covered_putPatches (ht : IsTarget data t h i r) (image : Bytes) :
    Patch.covered (putPatches data h t image) = touched t h i r := by
  rw [ht.putPatches_eq, covered_patches (length_take_le r image)]

theorem pairwise_patches (hapart : SlotApart data h r) (ht : IsTarget data t h i r) {image : Bytes}
    (hfit : image.length ≤ r.size) :
    (patches t h i r image).Pairwise fun p q => Disjoint p.range q.range := by
  unfold patches
  split
  next => exact List.pairwise_singleton _ _
  next hne =>
    refine List.pairwise_cons.mpr ⟨fun q hq => ?_, List.pairwise_singleton _ _⟩
    obtain rfl := List.mem_singleton.mp hq
    exact hapart.disjoint_syncPatch (ht.index_lt hne) (Nat.le_of_eq (length_slotBytes hfit)) _

/-- The types of a well laid out file as keys, and images as their values. -/
def WellLaidOut.groups (hl : WellLaidOut data h) : Groups Int Bytes UInt8 data.length where
  patches := putPatches data h
  inside := by
    intro t image
    obtain ⟨i, r, ht⟩ | ⟨-, hnil⟩ := hl.target_cases t
    · rw [ht.putPatches_eq]
      exact ht.inside_patches (hl.inside ht) (length_take_le r image)
    · rw [hnil]
      exact fun p hp => absurd hp List.not_mem_nil
  shape := by
    intro t image image'
    obtain ⟨i, r, ht⟩ | ⟨-, hnil⟩ := hl.target_cases t
    · rw [ht.covered_putPatches, ht.covered_putPatches]
    · rw [hnil, hnil]
  within := by
    intro t image
    obtain ⟨i, r, ht⟩ | ⟨-, hnil⟩ := hl.target_cases t
    · rw [ht.putPatches_eq]
      exact pairwise_patches (hl.apart ht) ht (length_take_le r image)
    · rw [hnil]
      exact List.Pairwise.nil
  between := by
    intro t₁ t₂ hne image₁ image₂
    obtain ⟨i₁, r₁, ht₁⟩ | ⟨-, hnil⟩ := hl.target_cases t₁
    · obtain ⟨i₂, r₂, ht₂⟩ | ⟨-, hnil⟩ := hl.target_cases t₂
      · rw [ht₁.putPatches_eq, ht₂.putPatches_eq, Set.disjoint_left]
        rintro k ⟨p, hp, hkp⟩ ⟨q, hq, hkq⟩
        have hd := disjoint_patches ht₁ ht₂ hne (hl.apart ht₁) (hl.apart ht₂)
          (hl.disjoint ht₁ ht₂ hne) (length_take_le r₁ image₁) (length_take_le r₂ image₂) p hp q hq
        exact Set.disjoint_left.mp hd hkp hkq
      · rw [hnil, Patch.covered_nil]
        exact Set.disjoint_empty _
    · rw [hnil, Patch.covered_nil]
      exact Set.empty_disjoint _

@[simp] theorem WellLaidOut.groups_patches (hl : WellLaidOut data h) (t : Int) (image : Bytes) :
    hl.groups.patches t image = putPatches data h t image := rfl

end Keys

-- ---------------------------------------------------------------------------
-- The table of a file that holds images
-- ---------------------------------------------------------------------------

/-- The record of a target when its type was last given `image?`. -/
def stored (t : Int) (r : Record) (image? : Option Bytes) : Record :=
  match image? with
  | none => r
  | some image => resized t r (image.take r.size).length

/-- Record `j`, `r`, when `m` says which image each type was last given: only the first
    record of a type follows its image. -/
def storedRecord (data : Bytes) (h : Nat) (m : Int → Option Bytes) (j : Nat) (r : Record) :
    Record :=
  if targetIndex? data h r.imageType = some j then stored r.imageType r (m r.imageType) else r

/-- The table under the images of `m`. -/
def storedTable (data : Bytes) (h : Nat) (m : Int → Option Bytes) : Table :=
  { tableAt data h with records := (recordsAt data h).mapIdx (storedRecord data h m) }

theorem imageType_stored (t : Int) (r : Record) (image? : Option Bytes) :
    (stored t r image?).imageType = r.imageType := by
  cases image? with
  | none => rfl
  | some image =>
    rw [stored, resized]
    split
    next => rfl
    next => rfl

theorem imageType_storedRecord (data : Bytes) (h : Nat) (m : Int → Option Bytes) (j : Nat)
    (r : Record) : (storedRecord data h m j r).imageType = r.imageType := by
  unfold storedRecord
  split
  next => exact imageType_stored _ _ _
  next => rfl

section Overlay

variable {data xs : Bytes} {h : Nat} {hl : WellLaidOut data h} {m : Int → Option Bytes}

theorem mem_written {q : Nat} :
    q ∈ hl.groups.written m ↔
      ∃ t i r image, IsTarget data t h i r ∧ m t = some image ∧ q ∈ touched t h i r := by
  constructor
  · rintro ⟨t, image, hm, hq⟩
    obtain ⟨i, r, ht⟩ | ⟨-, hnil⟩ := hl.target_cases t
    · rw [hl.groups_patches,
        ht.covered_putPatches] at hq
      exact ⟨t, i, r, image, ht, hm, hq⟩
    · rw [hl.groups_patches, hnil,
        Patch.covered_nil] at hq
      exact hq.elim
  · rintro ⟨t, i, r, image, ht, hm, hq⟩
    refine ⟨t, image, hm, ?_⟩
    rw [hl.groups_patches,
      ht.covered_putPatches]
    exact hq

/-- A word of the header or the table reads as in the original file, unless it is the
    `Size` of a type that was given an image. -/
theorem read_overlay (hx : hl.groups.Overlay data m xs) {pos : Nat} (hpos : h ≤ pos)
    (hend : pos + 4 ≤ tableEnd data h)
    (hsize : ∀ t i r image, IsTarget data t h i r → m t = some image →
      t = 0 ∨ pos + 4 ≤ sizeOffset h i ∨ sizeOffset h i + 4 ≤ pos) :
    Span.read xs pos 4 = Span.read data pos 4 := by
  apply hx.rest.read_eq
  rw [Set.disjoint_right]
  intro q hq
  obtain ⟨t, i, r, image, ht, hm, hq⟩ := mem_written.mp hq
  have hd := disjoint_touched ((hl.apart ht).disjoint hpos hend) (hsize t i r image ht hm)
  exact Set.disjoint_right.mp hd hq

/-- A word of the header, in front of the records. -/
theorem wordAt_overlay_header (hx : hl.groups.Overlay data m xs) {p : Nat} (hp : p + 4 ≤ 16) :
    wordAt xs (h + p) = wordAt data (h + p) := by
  rw [wordAt, read_overlay hx (by omega) (by rw [tableEnd]; omega), wordAt]
  intro t i r image _ _
  right
  left
  rw [sizeOffset]
  omega

theorem countAt_overlay (hx : hl.groups.Overlay data m xs) : countAt xs h = countAt data h :=
  wordAt_overlay_header hx (by decide)

theorem headerOffset?_overlay (hx : hl.groups.Overlay data m xs) : headerOffset? xs = some h := by
  obtain ⟨hmagic, hwhich⟩ := (headerOffset?_eq_some_iff data h).mp hl.header
  rw [headerOffset?_eq_some_iff]
  constructor
  · rw [read_overlay hx (Nat.le_refl h) (by rw [tableEnd]; omega), hmagic]
    intro t i r image _ _
    right
    left
    rw [sizeOffset]
    omega
  · refine hwhich.imp_right ?_
    rintro ⟨hh, hfirst⟩
    refine ⟨hh, ?_⟩
    have hread : Span.read xs 0x100000 4 = Span.read data 0x100000 4 := by
      apply hx.rest.read_eq
      rw [Set.disjoint_right]
      intro q hq
      obtain ⟨t, i, r, image, ht, -, hq⟩ := mem_written.mp hq
      have hd : Disjoint (Set.Ico 0x100000 0x100004) (touched t h i r) := by
        apply disjoint_touched (hl.apart ht).firstMagic
        right
        left
        rw [sizeOffset]
        omega
      exact Set.disjoint_right.mp hd hq
    rw [hread]
    exact hfirst

/-- The words of an entry other than its `Size` never change. -/
theorem wordAt_overlay_entry (hx : hl.groups.Overlay data m xs) {j p : Nat}
    (hj : j < countAt data h) (hp : p + 4 ≤ 8 ∨ (12 ≤ p ∧ p + 4 ≤ 16)) :
    wordAt xs (h + 16 + 16 * j + p) = wordAt data (h + 16 + 16 * j + p) := by
  rw [wordAt, read_overlay hx (by omega) (by rw [tableEnd]; omega), wordAt]
  intro t i r image _ _
  right
  rw [sizeOffset]
  omega

/-- The `Size` of an entry that is not the target of a type with an image. -/
theorem wordAt_overlay_size (hx : hl.groups.Overlay data m xs) {j : Nat} (hj : j < countAt data h)
    (hfree : ∀ t r image, IsTarget data t h j r → m t = some image → t = 0) :
    wordAt xs (sizeOffset h j) = wordAt data (sizeOffset h j) := by
  rw [wordAt, read_overlay hx (by rw [sizeOffset]; omega) (by rw [sizeOffset, tableEnd]; omega),
    wordAt]
  intro t i r image ht hm
  by_cases hij : i = j
  · subst hij
    exact Or.inl (hfree t r image ht hm)
  · right
    rw [sizeOffset, sizeOffset]
    omega

/-- The `Size` of the target of a type with an image. -/
theorem wordAt_overlay_target (hx : hl.groups.Overlay data m xs) {t : Int} {i : Nat} {r : Record}
    {image : Bytes} (ht : IsTarget data t h i r) (hm : m t = some image) (hne : t ≠ 0) :
    wordAt xs (sizeOffset h i) = (image.take r.size).length := by
  have hholds := hx.holds t image hm (syncPatch h i (image.take r.size).length) (by
    rw [hl.groups_patches, ht.putPatches_eq,
      patches, if_neg hne]
    exact List.mem_cons_of_mem _ List.mem_cons_self)
  rw [Patch.Holds, syncPatch, LittleEndian.length_ofNat] at hholds
  have hlt := ht.size_lt
  have hfit := length_take_le r image
  rw [wordAt, hholds, LittleEndian.toNat_ofNat]
  exact Nat.mod_eq_of_lt (by omega)

/-- The entry of a target reads as the stored record. -/
theorem recordAt_overlay_target (hx : hl.groups.Overlay data m xs) {t : Int} {i : Nat} {r : Record}
    (ht : IsTarget data t h i r) (hi : i < countAt data h) :
    recordAt xs (h + 16 + 16 * i) = stored t r (m t) := by
  have htype := wordAt_overlay_entry hx hi (Or.inl (by decide : 0 + 4 ≤ 8))
  have hoffset := wordAt_overlay_entry hx hi (Or.inl (by decide : 4 + 4 ≤ 8))
  have hreserve := wordAt_overlay_entry hx hi (Or.inr (by decide : 12 ≤ 12 ∧ 12 + 4 ≤ 16))
  rw [Nat.add_zero] at htype
  have hsame (hsize : wordAt xs (sizeOffset h i) = r.size) :
      recordAt xs (h + 16 + 16 * i) = r := by
    rw [recordAt, htype, hoffset, hreserve, show h + 16 + 16 * i + 8 = sizeOffset h i from rfl,
      hsize, ht.record_eq_recordAt hi]
    rfl
  have hold : wordAt data (sizeOffset h i) = r.size := by
    rw [ht.record_eq_recordAt hi]
    rfl
  -- The type is the only one with its target at `i`.
  have hfree (hm : t = 0 ∨ m t = none) :
      ∀ t' r' image, IsTarget data t' h i r' → m t' = some image → t' = 0 := by
    intro t' r' image ht' hm'
    have htt' : t' = t := by
      by_contra hne
      exact ht'.index_ne ht hne rfl
    subst htt'
    obtain hzero | hnone := hm
    · exact hzero
    · rw [hnone] at hm'
      cases hm'
  unfold stored
  split
  next hnone => exact hsame ((wordAt_overlay_size hx hi (hfree (Or.inr hnone))).trans hold)
  next image himage =>
    unfold resized
    split
    next hzero => exact hsame ((wordAt_overlay_size hx hi (hfree (Or.inl hzero))).trans hold)
    next hne =>
      rw [recordAt, htype, hoffset, hreserve, show h + 16 + 16 * i + 8 = sizeOffset h i from rfl,
        wordAt_overlay_target hx ht himage hne]
      generalize (image.take r.size).length = n
      rw [ht.record_eq_recordAt hi]
      rfl

/-- An entry that is not the target of its type reads as in the original file. -/
theorem recordAt_overlay_other (hx : hl.groups.Overlay data m xs) {j : Nat}
    (hj : j < countAt data h)
    (hother : targetIndex? data h (recordAt data (h + 16 + 16 * j)).imageType ≠ some j) :
    recordAt xs (h + 16 + 16 * j) = recordAt data (h + 16 + 16 * j) := by
  have htype := wordAt_overlay_entry hx hj (Or.inl (by decide : 0 + 4 ≤ 8))
  have hoffset := wordAt_overlay_entry hx hj (Or.inl (by decide : 4 + 4 ≤ 8))
  have hreserve := wordAt_overlay_entry hx hj (Or.inr (by decide : 12 ≤ 12 ∧ 12 + 4 ≤ 16))
  have hsize : wordAt xs (sizeOffset h j) = wordAt data (sizeOffset h j) := by
    apply wordAt_overlay_size hx hj
    intro t r image ht _
    exfalso
    apply hother
    rw [← ht.record_eq_recordAt hj, ht.imageType_eq]
    exact ht.index
  rw [Nat.add_zero] at htype
  rw [recordAt, htype, hoffset, hreserve, show h + 16 + 16 * j + 8 = sizeOffset h j from rfl, hsize]
  rfl

theorem recordsAt_overlay (hx : hl.groups.Overlay data m xs) :
    recordsAt xs h = (recordsAt data h).mapIdx (storedRecord data h m) := by
  have hcount := countAt_overlay hx
  apply List.ext_getElem?
  intro j
  rw [List.getElem?_mapIdx]
  obtain hj | rfl | hj := lt_trichotomy j (countAt data h)
  · rw [getElem?_recordsAt (by rw [hcount]; exact hj), getElem?_recordsAt hj, Option.map_some]
    unfold storedRecord
    split
    next hindex =>
      have ht := hl.isTarget_of_index hindex (getElem?_recordsAt hj)
      rw [recordAt_overlay_target hx ht hj]
    next hother => rw [recordAt_overlay_other hx hj hother]
  · -- The EC record has no entry, and no `Size` to follow its image.
    have hlast := getElem?_recordsAt_count xs h
    rw [hcount] at hlast
    rw [hlast, getElem?_recordsAt_count, Option.map_some, storedRecord]
    split
    next => cases m ecRecord.imageType <;> rfl
    next => rfl
  · rw [List.getElem?_eq_none (by rw [length_recordsAt, hcount]; omega),
      List.getElem?_eq_none (by rw [length_recordsAt]; omega), Option.map_none]

theorem tableAt_overlay (hx : hl.groups.Overlay data m xs) :
    tableAt xs h = storedTable data h m := by
  rw [tableAt, countAt_overlay hx, recordsAt_overlay hx, wordAt_overlay_header hx (by decide),
    wordAt_overlay_header hx (by decide)]
  rfl

theorem complete_overlay (hx : hl.groups.Overlay data m xs) : tableEnd xs h ≤ xs.length := by
  rw [tableEnd, countAt_overlay hx, hx.length_eq]
  exact hl.complete

/-- The first record of every type stays where it is. -/
theorem targetIndex?_overlay (hx : hl.groups.Overlay data m xs) (t : Int) :
    targetIndex? xs h t = targetIndex? data h t := by
  have htypes (records : List Record) :
      records.findIdx? (fun r => (r.imageType : Int) = t) =
        (records.map Record.imageType).findIdx? fun n : Nat => (n : Int) = t := by
    rw [List.findIdx?_map]
    rfl
  have hmap : (recordsAt xs h).map Record.imageType = (recordsAt data h).map Record.imageType := by
    rw [recordsAt_overlay hx]
    apply List.ext_getElem?
    intro j
    rw [List.getElem?_map, List.getElem?_map, List.getElem?_mapIdx, Option.map_map]
    congr 1
    funext r
    exact imageType_storedRecord data h m j r
  rw [targetIndex?, htypes, hmap, ← htypes, targetIndex?]

/-- The targets of the original file are the targets of the overlay, with the `Size` of
    their image. -/
theorem IsTarget.overlay (hx : hl.groups.Overlay data m xs) {t : Int} {i : Nat} {r : Record}
    (ht : IsTarget data t h i r) : IsTarget xs t h i (stored t r (m t)) where
  header := headerOffset?_overlay hx
  complete := complete_overlay hx
  index := by rw [targetIndex?_overlay hx, ht.index]
  record := by
    have htype := ht.imageType_eq
    have hindex : targetIndex? data h r.imageType = some i := by
      rw [htype]
      exact ht.index
    rw [recordsAt_overlay hx, List.getElem?_mapIdx, ht.record, Option.map_some, storedRecord,
      if_pos hindex, htype]

-- ---------------------------------------------------------------------------
-- One more replacement
-- ---------------------------------------------------------------------------

/-- Erasing the recorded front of a slot whose rest is erased already erases the slot. -/
theorem overwritten_of_erased {xs repl : Bytes} {r : Record} {n : Nat} (hslot : SlotInside xs r)
    (hn : n ≤ r.size) (hfit : repl.length ≤ r.size)
    (hrest : Span.read xs (r.offset + n) (r.size - n) = List.replicate (r.size - n) 0xFF) :
    overwritten xs { r with size := n } repl = (putPatch r (slotBytes r repl)).apply xs := by
  have hwhole : (List.replicate r.size (0xFF : UInt8)).length = r.size := List.length_replicate
  have hfront : (List.replicate n (0xFF : UInt8)).length = n := List.length_replicate
  have hsum : n + (r.size - n) = r.size := by omega
  have herase : (putPatch r (List.replicate n 0xFF)).apply xs =
      (putPatch r (List.replicate r.size 0xFF)).apply xs := by
    have hsplit : Span.read xs r.offset r.size =
        Span.read xs r.offset n ++ List.replicate (r.size - n) 0xFF := by
      rw [← hrest, ← Span.read_add, hsum]
    have hinside : (putPatch r (Span.read xs r.offset r.size)).Inside xs.length :=
      hslot.putPatch (by rw [Span.length_read]; omega)
    have hback : (putPatch r (Span.read xs r.offset r.size)).apply xs = xs := by
      obtain hsize | hend := hslot.empty_or_le
      · rw [hsize]
        exact Span.write_nil xs r.offset
      · exact Span.write_read_self xs r.offset r.size hend
    have hlen : (Span.read xs r.offset n).length = n := by
      obtain hsize | hend := hslot.empty_or_le
      · rw [Span.length_read]
        omega
      · exact Span.length_read_of_le (by omega)
    calc (putPatch r (List.replicate n 0xFF)).apply xs
        = (putPatch r (List.replicate n 0xFF)).apply
            ((putPatch r (Span.read xs r.offset r.size)).apply xs) := by rw [hback]
      _ = (putPatch r (List.replicate n 0xFF ++
            (Span.read xs r.offset r.size).drop n)).apply xs := by
          rw [putPatch, putPatch, hinside.apply_apply, hfront]
          · rfl
          · rw [hfront, hsplit, List.length_append, hlen, List.length_replicate]
            omega
      _ = (putPatch r (List.replicate r.size 0xFF)).apply xs := by
          rw [hsplit, List.drop_left' hlen, List.replicate_append_replicate, hsum]
  have hinside := hslot.putPatch (Nat.le_of_eq hwhole)
  calc overwritten xs { r with size := n } repl
      = (putPatch r repl).apply ((putPatch r (List.replicate n 0xFF)).apply xs) :=
        overwritten_eq_apply (hslot.putPatch (by rw [hfront]; exact hn)) (hslot.putPatch hfit)
    _ = overwritten xs r repl := by
        rw [herase, ← overwritten_eq_apply hinside (hslot.putPatch hfit)]
    _ = (putPatch r (slotBytes r repl)).apply xs := overwritten_eq_slotBytes hslot hfit

/-- What a file holds behind the recorded `Size` of a target, up to the end of the slot it
    had at first, is erased. -/
theorem exists_stored_eq (hx : hl.groups.Overlay data m xs) {t : Int} {i : Nat} {r : Record}
    (ht : IsTarget data t h i r) :
    ∃ n, n ≤ r.size ∧ stored t r (m t) = { r with size := n } ∧
      Span.read xs (r.offset + n) (r.size - n) = List.replicate (r.size - n) 0xFF := by
  have hwhole : Span.read xs (r.offset + r.size) (r.size - r.size) =
      List.replicate (r.size - r.size) 0xFF := by
    rw [Nat.sub_self]
    rfl
  unfold stored
  split
  next => exact ⟨r.size, Nat.le_refl _, rfl, hwhole⟩
  next image himage =>
    unfold resized
    split
    next => exact ⟨r.size, Nat.le_refl _, rfl, hwhole⟩
    next hne =>
      have hfit := length_take_le r image
      have hholds := hx.holds t image himage (putPatch r (slotBytes r (image.take r.size))) (by
        rw [hl.groups_patches,
          ht.putPatches_eq, patches]
        exact List.mem_cons_self)
      rw [Patch.Holds, putPatch, length_slotBytes hfit] at hholds
      refine ⟨_, hfit, rfl, ?_⟩
      rw [← Span.read_read (show (image.take r.size).length +
        (r.size - (image.take r.size).length) ≤ r.size by omega), hholds, slotBytes, Span.read,
        List.drop_left' rfl, List.take_of_length_le (by rw [List.length_replicate])]

/-- **One more replacement.** However small the recorded `Size` has become, a replacement
    that fits the slot the type had at first writes that slot and the `Size` field. -/
theorem replaced_overlay (hx : hl.groups.Overlay data m xs) {t : Int} {i : Nat} {r : Record}
    (ht : IsTarget data t h i r) {repl : Bytes} (hfit : repl.length ≤ r.size) :
    replaced xs t h i (stored t r (m t)) repl = Patch.applyAll (putPatches data h t repl) xs := by
  have hslot : SlotInside xs r := by
    rw [SlotInside, hx.length_eq]
    exact hl.inside ht
  have ht' := ht.overlay hx
  obtain ⟨n, hn, hstored, hrest⟩ := exists_stored_eq hx ht
  have hover := overwritten_of_erased hslot hn hfit hrest
  have hlen := (hslot.putPatch (Nat.le_of_eq (length_slotBytes hfit))).length_apply
  rw [← hover, ← hstored] at hlen
  rw [ht.putPatches_eq, List.take_of_length_le hfit, patches, Patch.applyAll_cons, ← hover,
    ← hstored]
  split
  next hzero =>
    rw [replaced, if_pos hzero]
    rfl
  next hne =>
    rw [ht'.replaced_eq_syncPatch hne hlen]
    rfl

/-- The file after one more replacement, as the store with one more image. -/
theorem overlay_replaced (hx : hl.groups.Overlay data m xs) {t : Int} {i : Nat} {r : Record}
    (ht : IsTarget data t h i r) {repl : Bytes} (hfit : repl.length ≤ r.size) :
    hl.groups.Overlay data (Function.update m t (some repl))
      (replaced xs t h i (stored t r (m t)) repl) := by
  rw [replaced_overlay hx ht hfit]
  exact hx.put t repl

end Overlay

end FlashImage
