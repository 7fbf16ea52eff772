-- SUMMARY: Replacements of two different sub-images in either order: each run finds the table as the other one would have, and their writes do not meet.
import Edk2NonOsi.FlashImage.Overwrite

open Python

namespace FlashImage

variable {data A B : Bytes} {t₁ t₂ : Int} {h i₁ i₂ : Nat} {r₁ r₂ : Record}

/-- The first records of two types are different entries. -/
theorem IsTarget.index_ne (ht₁ : IsTarget data t₁ h i₁ r₁) (ht₂ : IsTarget data t₂ h i₂ r₂)
    (hne : t₁ ≠ t₂) : i₁ ≠ i₂ := by
  rintro rfl
  have hr : r₁ = r₂ := Option.some.inj (ht₁.record.symm.trans ht₂.record)
  apply hne
  rw [← ht₁.imageType_eq, ← ht₂.imageType_eq, hr]

/-- A replacement leaves the targets of the other types alone. -/
theorem isTarget_replaced_other (ht₁ : IsTarget data t₁ h i₁ r₁)
    (ht₂ : IsTarget data t₂ h i₂ r₂) (hne : t₁ ≠ t₂) (hslot : SlotInside data r₁)
    (hapart : SlotApart data h r₁) (hfit : A.length ≤ r₁.size) :
    IsTarget (replaced data t₁ h i₁ r₁ A) t₂ h i₂ r₂ := by
  apply isTarget_replaced ht₁ hslot hapart hfit ht₂.index
  unfold syncedRecords
  split
  next => exact ht₂.record
  next =>
    rw [List.getElem?_set_ne (ht₁.index_ne ht₂ hne)]
    exact ht₂.record

/-- The patches of a replacement that fits stay inside the file. -/
theorem IsTarget.inside_patches (ht : IsTarget data t₁ h i₁ r₁) (hslot : SlotInside data r₁)
    (hfit : A.length ≤ r₁.size) : ∀ p ∈ patches t₁ h i₁ r₁ A, p.Inside data.length := by
  intro p hp
  unfold patches at hp
  obtain rfl | hp := List.mem_cons.mp hp
  · exact hslot.putPatch (Nat.le_of_eq (length_slotBytes hfit))
  · split at hp
    next => cases hp
    next hzero =>
      obtain rfl := List.mem_singleton.mp hp
      exact ht.syncPatch hzero A.length

/-- A patch of a replacement that fits is the slot, or the `Size` field of an entry. -/
theorem IsTarget.patches_cases (ht : IsTarget data t₁ h i₁ r₁) (hfit : A.length ≤ r₁.size)
    {p : Patch UInt8} (hp : p ∈ patches t₁ h i₁ r₁ A) :
    p.range ⊆ slot r₁ ∨
      (i₁ < countAt data h ∧ p.range = Set.Ico (sizeOffset h i₁) (sizeOffset h i₁ + 4)) := by
  unfold patches at hp
  obtain rfl | hp := List.mem_cons.mp hp
  · exact Or.inl (range_putPatch_subset (Nat.le_of_eq (length_slotBytes hfit)))
  · right
    split at hp
    next => cases hp
    next hzero =>
      obtain rfl := List.mem_singleton.mp hp
      exact ⟨ht.index_lt hzero, range_syncPatch h i₁ A.length⟩

/-- No patch of one replacement meets a patch of the other. -/
theorem disjoint_patches (ht₁ : IsTarget data t₁ h i₁ r₁) (ht₂ : IsTarget data t₂ h i₂ r₂)
    (hne : t₁ ≠ t₂) (hapart₁ : SlotApart data h r₁) (hapart₂ : SlotApart data h r₂)
    (hslots : Disjoint (slot r₁) (slot r₂)) (hA : A.length ≤ r₁.size) (hB : B.length ≤ r₂.size) :
    ∀ p ∈ patches t₁ h i₁ r₁ A, ∀ q ∈ patches t₂ h i₂ r₂ B, Disjoint p.range q.range := by
  intro p hp q hq
  have hindex := ht₁.index_ne ht₂ hne
  obtain hp | ⟨hi₁, hp⟩ := ht₁.patches_cases hA hp
  · obtain hq | ⟨hi₂, hq⟩ := ht₂.patches_cases hB hq
    · exact hslots.mono hp hq
    · rw [hq]
      exact (hapart₁.disjoint_sizeOffset hi₂).mono_left hp
  · obtain hq | ⟨hi₂, hq⟩ := ht₂.patches_cases hB hq
    · rw [hp]
      exact ((hapart₂.disjoint_sizeOffset hi₁).mono_left hq).symm
    · -- The `Size` fields of two entries.
      rw [hp, hq, Set.Ico_disjoint_Ico, sizeOffset, sizeOffset]
      omega

/-- Both runs together, as patches of the original file. -/
theorem replaced_other_eq_applyAll (ht₁ : IsTarget data t₁ h i₁ r₁)
    (ht₂ : IsTarget data t₂ h i₂ r₂) (hne : t₁ ≠ t₂) (hslot₁ : SlotInside data r₁)
    (hslot₂ : SlotInside data r₂) (hapart₁ : SlotApart data h r₁) (hA : A.length ≤ r₁.size)
    (hB : B.length ≤ r₂.size) :
    replaced (replaced data t₁ h i₁ r₁ A) t₂ h i₂ r₂ B =
      Patch.applyAll (patches t₂ h i₂ r₂ B) (Patch.applyAll (patches t₁ h i₁ r₁ A) data) := by
  have hslot : SlotInside (replaced data t₁ h i₁ r₁ A) r₂ := by
    rw [SlotInside, (ht₁.replaced_touched hslot₁ hA).2]
    exact hslot₂
  rw [(isTarget_replaced_other ht₁ ht₂ hne hslot₁ hapart₁ hA).replaced_eq_applyAll hslot hB,
    ht₁.replaced_eq_applyAll hslot₁ hA]

/-- Replacing one image and then another completes. -/
theorem replaces_other (ht₁ : IsTarget data t₁ h i₁ r₁) (ht₂ : IsTarget data t₂ h i₂ r₂)
    (hne : t₁ ≠ t₂) (hslot₁ : SlotInside data r₁) (hapart₁ : SlotApart data h r₁)
    (hA : A.length ≤ r₁.size) (hB : B.length ≤ r₂.size) :
    Replaces t₁ data A (replaced data t₁ h i₁ r₁ A) ∧
      Replaces t₂ (replaced data t₁ h i₁ r₁ A) B
        (replaced (replaced data t₁ h i₁ r₁ A) t₂ h i₂ r₂ B) := by
  have hsize₁ := ht₁.size_lt
  have hsize₂ := ht₂.size_lt
  have ht := isTarget_replaced_other ht₁ ht₂ hne hslot₁ hapart₁ hA
  exact ⟨replaces_replaced ht₁ (Or.inr (by omega)), replaces_replaced ht (Or.inr (by omega))⟩

/-- **Replacements commute.** Two replacements that fit, of images of different
    types whose slots are apart from each other and from the table, give the same
    file in either order. -/
theorem replaceImage_comm (ht₁ : IsTarget data t₁ h i₁ r₁) (ht₂ : IsTarget data t₂ h i₂ r₂)
    (hne : t₁ ≠ t₂) (hslot₁ : SlotInside data r₁) (hslot₂ : SlotInside data r₂)
    (hapart₁ : SlotApart data h r₁) (hapart₂ : SlotApart data h r₂)
    (hslots : Disjoint (slot r₁) (slot r₂)) (hA : A.length ≤ r₁.size) (hB : B.length ≤ r₂.size) :
    ∃ data₁ data₂ output, Replaces t₁ data A data₁ ∧ Replaces t₂ data₁ B output ∧
      Replaces t₂ data B data₂ ∧ Replaces t₁ data₂ A output := by
  obtain ⟨hrun₁, hrun₂⟩ := replaces_other ht₁ ht₂ hne hslot₁ hapart₁ hA hB
  obtain ⟨hrun₂', hrun₁'⟩ := replaces_other ht₂ ht₁ hne.symm hslot₂ hapart₂ hB hA
  have hsame : replaced (replaced data t₁ h i₁ r₁ A) t₂ h i₂ r₂ B =
      replaced (replaced data t₂ h i₂ r₂ B) t₁ h i₁ r₁ A := by
    rw [replaced_other_eq_applyAll ht₁ ht₂ hne hslot₁ hslot₂ hapart₁ hA hB,
      replaced_other_eq_applyAll ht₂ ht₁ hne.symm hslot₂ hslot₁ hapart₂ hB hA]
    exact Patch.applyAll_comm (ht₁.inside_patches hslot₁ hA) (ht₂.inside_patches hslot₂ hB)
      (disjoint_patches ht₁ ht₂ hne hapart₁ hapart₂ hslots hA hB)
  rw [← hsame] at hrun₁'
  exact ⟨_, _, _, hrun₁, hrun₂, hrun₂', hrun₁'⟩

-- ---------------------------------------------------------------------------
-- The EC image
-- ---------------------------------------------------------------------------

theorem isTarget_oneByteFlash_ec : IsTarget oneByteFlash 0 0x100000 1 ecRecord :=
  isTarget_of_header List.length_replicate (by decide) (by decide) (by decide) (by decide)

theorem slot_ecRecord_subset : slot ecRecord ⊆ Set.Ico 0x10000 0x30000 :=
  Set.Subset.rfl

theorem slotInside_oneByteFlash_ec : SlotInside oneByteFlash ecRecord := by
  intro p hp
  have hlt := (Set.mem_Ico.mp (slot_ecRecord_subset hp)).2
  rw [Set.mem_Iio, oneByteFlash, List.length_append, List.length_replicate]
  omega

theorem slotApart_oneByteFlash_ec : SlotApart oneByteFlash 0x100000 ecRecord where
  table := by
    refine Disjoint.mono_left slot_ecRecord_subset ?_
    rw [Set.Ico_disjoint_Ico]
    omega
  firstMagic := by
    refine Disjoint.mono_left slot_ecRecord_subset ?_
    rw [Set.Ico_disjoint_Ico]
    decide

theorem replaceImage_comm_ec :
    ∃ data₁ data₂ output, Replaces 1 oneByteFlash [1] data₁ ∧ Replaces 0 data₁ [2, 3] output ∧
      Replaces 0 oneByteFlash [2, 3] data₂ ∧ Replaces 1 data₂ [1] output :=
  replaceImage_comm isTarget_oneByteFlash isTarget_oneByteFlash_ec (by decide)
    slotInside_oneByteFlash slotInside_oneByteFlash_ec slotApart_oneByteFlash
    slotApart_oneByteFlash_ec
    ((disjoint_slot_oneByteRecord 0x30000 (by decide)).mono_right slot_ecRecord_subset)
    (by decide) (by decide)

end FlashImage
