-- SUMMARY: `spi_flash_config_all.json` and the flash files that `cix_package_tool` packages with it: the table, its entries, and what leaves a file packaged.
import Edk2NonOsi.FlashImage.Session

open Python

namespace FlashImage

/-! # Packaged flash files

`cix_package_tool` sorts the groups of the configuration by their addresses,
writes a table of them behind the firmware header, and each image to the address
of its group. It fills nothing: what lies between the images are the zeros of a
file that was written with gaps, and the file ends with the last image. -/

-- ---------------------------------------------------------------------------
-- The configuration
-- ---------------------------------------------------------------------------

/-- An element of `image_header_groups`. -/
structure ImageHeader where
  imageType : Nat
  address : Nat
  size : Nat
deriving DecidableEq

def firmwareHeaderAddr : Nat := 0x100000

/-- The header and its table, as the tool writes them: zeros behind the entries. -/
def firmwareHeaderSize : Nat := 0x1010

/-- `image_header_groups` of `spi_flash_config_all.json`. -/
def imageHeaderGroups : List ImageHeader :=
  [⟨1, 0x188000, 0x100000⟩,
    ⟨2, 0x288000, 0x100000⟩,
    ⟨100, 0x388000, 0x78000⟩,
    ⟨3, 0x400000, 0x4000⟩,
    ⟨4, 0x404000, 0x1000⟩,
    ⟨6, 0x405000, 0x1000⟩,
    ⟨7, 0x406000, 0x229000⟩,
    ⟨8, 0x101000, 0x6000⟩,
    ⟨9, 0xF0000, 0x1000⟩]

/-- The groups in the order of the table. -/
def tableGroups : List ImageHeader :=
  imageHeaderGroups.insertionSort fun g g' => g.address ≤ g'.address

/-- Entry `j` of the table of a packaged file. -/
abbrev entryAt (data : Bytes) (j : Nat) : Record :=
  recordAt data (firmwareHeaderAddr + 16 + 16 * j)

/-- The entry of a group: its type and address, and an image no longer than the group's size,
    which the file is long enough for. -/
structure Entry (data : Bytes) (r : Record) (g : ImageHeader) : Prop where
  imageType : r.imageType = g.imageType
  offset : r.offset = g.address
  size : r.size ≤ g.size
  inside : g.address + r.size ≤ data.length

/-- A flash file of the configuration: the header at `firmware_header_addr`, and one entry
    for each group. Nothing is said about what is behind an image. -/
structure Packaged (data : Bytes) : Prop where
  header : Span.read data firmwareHeaderAddr 4 = magic
  count : countAt data firmwareHeaderAddr = tableGroups.length
  length_le : firmwareHeaderAddr + firmwareHeaderSize ≤ data.length
  entry : ∀ j g, tableGroups[j]? = some g → Entry data (entryAt data j) g

/-- The types of a packaged table, the appended EC record included. -/
def groupTypes : List Nat :=
  tableGroups.map ImageHeader.imageType ++ [ecRecord.imageType]

-- ---------------------------------------------------------------------------
-- The layout
-- ---------------------------------------------------------------------------

theorem mem_tableGroups {g : ImageHeader} : g ∈ tableGroups ↔ g ∈ imageHeaderGroups :=
  (List.perm_insertionSort _ imageHeaderGroups).mem_iff

theorem length_tableGroups : tableGroups.length = 9 := by
  decide

/-- Each type has one place in the table. -/
theorem findIdx?_groupTypes :
    ∀ j < tableGroups.length, ∀ g, tableGroups[j]? = some g →
      groupTypes.findIdx? (fun n : Nat => (n : Int) = g.imageType) = some j ∧ g.imageType ≠ 0 := by
  decide

theorem findIdx?_groupTypes_ec :
    groupTypes.findIdx? (fun n : Nat => (n : Int) = 0) = some tableGroups.length := by
  decide

/-- The areas of the groups are apart. -/
theorem areas_apart :
    tableGroups.Pairwise fun g g' => g.address + g.size ≤ g'.address := by
  decide

/-- They are off the table and behind the EC image. -/
theorem areas_off_table :
    ∀ g ∈ tableGroups, (g.address + g.size ≤ firmwareHeaderAddr ∨
        firmwareHeaderAddr + 160 ≤ g.address) ∧
      ecRecord.offset + ecRecord.size ≤ g.address ∧ g.size < 2 ^ 32 := by
  decide

/-- The positions of entry `j` in the file: the area of its group, and its `Size` field. -/
def region (j : Nat) (g : ImageHeader) : Set Nat :=
  Set.Ico g.address (g.address + g.size) ∪
    Set.Ico (sizeOffset firmwareHeaderAddr j) (sizeOffset firmwareHeaderAddr j + 4)

section Layout

variable {j j' : Nat} {g g' : ImageHeader}

theorem lt_of_tableGroups (hg : tableGroups[j]? = some g) : j < 9 := by
  rw [← length_tableGroups]
  exact (List.getElem?_eq_some_iff.mp hg).1

theorem areas_disjoint (hg : tableGroups[j]? = some g) (hg' : tableGroups[j']? = some g')
    (hne : j ≠ j') : g.address + g.size ≤ g'.address ∨ g'.address + g'.size ≤ g.address := by
  obtain ⟨hj, rfl⟩ := List.getElem?_eq_some_iff.mp hg
  obtain ⟨hj', rfl⟩ := List.getElem?_eq_some_iff.mp hg'
  have hpairs := List.pairwise_iff_getElem.mp areas_apart
  obtain hlt | hgt := Nat.lt_or_gt_of_ne hne
  · exact Or.inl (hpairs j j' hj hj' hlt)
  · exact Or.inr (hpairs j' j hj' hj hgt)

/-- What a region has in common with the table is the `Size` field. -/
theorem region_table {q : Nat} (hg : tableGroups[j]? = some g) (hq : q ∈ region j g)
    (hlow : firmwareHeaderAddr ≤ q) (hhigh : q < firmwareHeaderAddr + 160) :
    q ∈ Set.Ico (sizeOffset firmwareHeaderAddr j) (sizeOffset firmwareHeaderAddr j + 4) := by
  obtain harea | hsize := hq
  · obtain ⟨hoff, -⟩ := areas_off_table g (List.mem_of_getElem? hg)
    have harea' := Set.mem_Ico.mp harea
    omega
  · exact hsize

/-- No `Size` field lies in an area. -/
theorem area_off_sizeOffset (hg : tableGroups[j]? = some g) (hg' : tableGroups[j']? = some g') :
    g.address + g.size ≤ sizeOffset firmwareHeaderAddr j' ∨
      sizeOffset firmwareHeaderAddr j' + 4 ≤ g.address := by
  have hj' := lt_of_tableGroups hg'
  obtain ⟨hoff, -⟩ := areas_off_table g (List.mem_of_getElem? hg)
  rw [sizeOffset]
  omega

theorem disjoint_area_region (hg : tableGroups[j]? = some g) (hg' : tableGroups[j']? = some g')
    (hne : j ≠ j') : Disjoint (Set.Ico g.address (g.address + g.size)) (region j' g') := by
  rw [Set.disjoint_left]
  intro q hq hq'
  have hareas := areas_disjoint hg hg' hne
  have hoff := area_off_sizeOffset hg hg'
  rw [Set.mem_Ico] at hq
  obtain hq' | hq' := hq'
  · rw [Set.mem_Ico] at hq'
    omega
  · rw [Set.mem_Ico] at hq'
    omega

theorem disjoint_ec_region (hg : tableGroups[j]? = some g) :
    Disjoint (slot ecRecord) (region j g) := by
  rw [Set.disjoint_left]
  intro q hq hq'
  have hend : ecRecord.offset + ecRecord.size ≤ firmwareHeaderAddr := by decide
  obtain ⟨-, hec, -⟩ := areas_off_table g (List.mem_of_getElem? hg)
  rw [slot, Set.mem_Ico] at hq
  obtain hq' | hq' := hq'
  · rw [Set.mem_Ico] at hq'
    omega
  · rw [Set.mem_Ico, sizeOffset] at hq'
    omega

theorem disjoint_size_region (hne : j ≠ j') (hg' : tableGroups[j']? = some g') (hj : j < 9) :
    Disjoint (Set.Ico (sizeOffset firmwareHeaderAddr j) (sizeOffset firmwareHeaderAddr j + 4))
      (region j' g') := by
  rw [Set.disjoint_left]
  intro q hq hq'
  rw [Set.mem_Ico, sizeOffset] at hq
  have hsize := Set.mem_Ico.mp (region_table hg' hq' (by omega) (by omega))
  rw [sizeOffset] at hsize
  omega

theorem disjoint_size_ec (j : Nat) :
    Disjoint (Set.Ico (sizeOffset firmwareHeaderAddr j) (sizeOffset firmwareHeaderAddr j + 4))
      (slot ecRecord) := by
  rw [Set.disjoint_left]
  intro q hq hq'
  have hend : ecRecord.offset + ecRecord.size ≤ firmwareHeaderAddr := by decide
  rw [Set.mem_Ico, sizeOffset] at hq
  rw [slot, Set.mem_Ico] at hq'
  omega

end Layout

-- ---------------------------------------------------------------------------
-- The targets
-- ---------------------------------------------------------------------------

namespace Packaged

variable {data : Bytes} (hp : Packaged data)
include hp

theorem headerOffset?_eq : headerOffset? data = some firmwareHeaderAddr :=
  (headerOffset?_eq_some_iff data _).mpr ⟨hp.header, Or.inl rfl⟩

theorem tableEnd_eq : tableEnd data firmwareHeaderAddr = firmwareHeaderAddr + 160 := by
  rw [tableEnd, hp.count, length_tableGroups]

theorem complete : tableEnd data firmwareHeaderAddr ≤ data.length := by
  have hle := hp.length_le
  have hsize : 160 ≤ firmwareHeaderSize := by decide
  rw [hp.tableEnd_eq]
  omega

theorem sizeOffset_le {j : Nat} (hj : j < 9) :
    sizeOffset firmwareHeaderAddr j + 4 ≤ data.length := by
  have hle := hp.length_le
  have hsize : 160 ≤ firmwareHeaderSize := by decide
  rw [sizeOffset]
  omega

theorem ec_inside : ecRecord.offset + ecRecord.size ≤ data.length := by
  have hle := hp.length_le
  have hend : ecRecord.offset + ecRecord.size ≤ firmwareHeaderAddr := by decide
  omega

theorem map_imageType :
    (recordsAt data firmwareHeaderAddr).map Record.imageType = groupTypes := by
  apply List.ext_getElem?
  intro j
  have hcount := hp.count
  rw [List.getElem?_map, groupTypes]
  obtain hj | rfl | hj := lt_trichotomy j tableGroups.length
  · have hg := List.getElem?_eq_getElem hj
    rw [getElem?_recordsAt (hcount.symm ▸ hj), List.getElem?_append_left (by simpa using hj),
      List.getElem?_map, hg, Option.map_some, Option.map_some, (hp.entry j _ hg).imageType]
  · have hlast := getElem?_recordsAt_count data firmwareHeaderAddr
    rw [hcount] at hlast
    rw [hlast, List.getElem?_append_right (by simp)]
    simp
  · rw [List.getElem?_eq_none (by rw [length_recordsAt, hcount]; omega),
      List.getElem?_eq_none (by simp; omega), Option.map_none]

theorem targetIndex?_eq (t : Int) :
    targetIndex? data firmwareHeaderAddr t = groupTypes.findIdx? fun n : Nat => (n : Int) = t := by
  rw [targetIndex?, ← hp.map_imageType, List.findIdx?_map]
  rfl

/-- The target of the type of a group is its entry. -/
theorem isTarget {j : Nat} {g : ImageHeader} (hg : tableGroups[j]? = some g) :
    IsTarget data g.imageType firmwareHeaderAddr j (entryAt data j) := by
  obtain ⟨hj, -⟩ := List.getElem?_eq_some_iff.mp hg
  refine ⟨hp.headerOffset?_eq, hp.complete, ?_, getElem?_recordsAt (hp.count.symm ▸ hj)⟩
  rw [hp.targetIndex?_eq, (findIdx?_groupTypes j hj g hg).1]

theorem isTarget_ec : IsTarget data 0 firmwareHeaderAddr tableGroups.length ecRecord := by
  refine ⟨hp.headerOffset?_eq, hp.complete, ?_, ?_⟩
  · rw [hp.targetIndex?_eq, findIdx?_groupTypes_ec]
  · rw [← hp.count]
    exact getElem?_recordsAt_count data firmwareHeaderAddr

/-- A type is that of a group, that of the EC image, or of neither, and then it has no
    target. -/
theorem type_cases (t : Int) :
    (∃ (j : Nat) (g : ImageHeader), tableGroups[j]? = some g ∧ t = g.imageType) ∨ t = 0 ∨
      (targetIndex? data firmwareHeaderAddr t = none ∧ ∀ n ∈ groupTypes, (n : Int) ≠ t) := by
  by_cases hmem : ∃ n ∈ groupTypes, (n : Int) = t
  · obtain ⟨n, hn, rfl⟩ := hmem
    rw [groupTypes, List.mem_append, List.mem_map] at hn
    obtain ⟨g, hg, rfl⟩ | hn := hn
    · obtain ⟨j, hj⟩ := List.mem_iff_getElem?.mp hg
      exact Or.inl ⟨j, g, hj, rfl⟩
    · obtain rfl := List.mem_singleton.mp hn
      exact Or.inr (Or.inl rfl)
  · have hnone : ∀ n ∈ groupTypes, (n : Int) ≠ t := fun n hn ht => hmem ⟨n, hn, ht⟩
    refine Or.inr (Or.inr ⟨?_, hnone⟩)
    rw [hp.targetIndex?_eq, List.findIdx?_eq_none_iff]
    simpa using hnone

end Packaged

-- ---------------------------------------------------------------------------
-- What leaves a file packaged
-- ---------------------------------------------------------------------------

/-- Of the table, only `Size` fields are among the positions. -/
def SizesOnly (s : Set Nat) : Prop :=
  ∀ q ∈ s, firmwareHeaderAddr ≤ q → q < firmwareHeaderAddr + 160 →
    ∃ j, q ∈ Set.Ico (sizeOffset firmwareHeaderAddr j) (sizeOffset firmwareHeaderAddr j + 4)

theorem sizesOnly_region {j : Nat} {g : ImageHeader} (hg : tableGroups[j]? = some g) :
    SizesOnly (region j g) :=
  fun _ hq hlow hhigh => ⟨j, region_table hg hq hlow hhigh⟩

theorem sizesOnly_ec : SizesOnly (slot ecRecord) := by
  intro q hq hlow _
  have hend : ecRecord.offset + ecRecord.size ≤ firmwareHeaderAddr := by decide
  rw [slot, Set.mem_Ico] at hq
  omega

section Rewritten

variable {data out : Bytes} {s : Set Nat}

/-- A word of the table that is no `Size` field. -/
theorem wordAt_of_sizesOnly (hs : SizesOnly s) (hagree : Span.AgreeOff s out data) {p : Nat}
    (hp : p + 4 ≤ 160) (hword : ∀ j, p + 4 ≤ 16 * j + 24 ∨ 16 * j + 28 ≤ p) :
    wordAt out (firmwareHeaderAddr + p) = wordAt data (firmwareHeaderAddr + p) := by
  rw [wordAt, wordAt, hagree.read_eq]
  rw [Set.disjoint_left]
  intro q hq hqs
  rw [Set.mem_Ico] at hq
  obtain ⟨j, hj⟩ := hs q hqs (by omega) (by omega)
  rw [Set.mem_Ico, sizeOffset] at hj
  have hword := hword j
  omega

/-- An entry keeps everything but its `Size`. -/
theorem entryAt_of_sizesOnly (hs : SizesOnly s) (hagree : Span.AgreeOff s out data) {j : Nat}
    (hj : j < 9) : entryAt out j = { entryAt data j with size := (entryAt out j).size } := by
  have hword (p : Nat) (hp : p = 0 ∨ p = 4 ∨ p = 12) :
      wordAt out (firmwareHeaderAddr + 16 + 16 * j + p) =
        wordAt data (firmwareHeaderAddr + 16 + 16 * j + p) := by
    rw [Nat.add_assoc, Nat.add_assoc]
    apply wordAt_of_sizesOnly hs hagree
    · omega
    · intro j'
      omega
  have htype := hword 0 (by decide)
  rw [Nat.add_zero] at htype
  simp only [entryAt, recordAt, htype, hword 4 (by decide), hword 12 (by decide)]

theorem countAt_of_sizesOnly (hs : SizesOnly s) (hagree : Span.AgreeOff s out data) :
    countAt out firmwareHeaderAddr = countAt data firmwareHeaderAddr :=
  wordAt_of_sizesOnly hs hagree (by decide) fun j => by omega

/-- A change that leaves every image with its room, and of the table all but `Size` fields. -/
theorem Packaged.of_agreeOff (hp : Packaged data) (hs : SizesOnly s)
    (hagree : Span.AgreeOff s out data) (hlen : data.length ≤ out.length)
    (hsize : ∀ j g, tableGroups[j]? = some g → (entryAt out j).size ≤ g.size ∧
      g.address + (entryAt out j).size ≤ out.length) : Packaged out where
  header := by
    rw [hagree.read_eq, hp.header]
    rw [Set.disjoint_left]
    intro q hq hqs
    rw [Set.mem_Ico] at hq
    obtain ⟨j, hj⟩ := hs q hqs hq.1 (by omega)
    rw [Set.mem_Ico, sizeOffset] at hj
    omega
  count := (countAt_of_sizesOnly hs hagree).trans hp.count
  length_le := hp.length_le.trans hlen
  entry j g hg := by
    have hentry := hp.entry j g hg
    have hsame := entryAt_of_sizesOnly hs hagree (lt_of_tableGroups hg)
    obtain ⟨hle, hinside⟩ := hsize j g hg
    refine ⟨?_, ?_, hle, hinside⟩
    · rw [hsame]
      exact hentry.imageType
    · rw [hsame]
      exact hentry.offset

end Rewritten

end FlashImage
