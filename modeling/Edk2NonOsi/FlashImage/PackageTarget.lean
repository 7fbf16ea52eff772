-- SUMMARY: `package_target_image` of `cix_package_tool`: the parts it writes into the flash file, and that the file is packaged.
import Edk2NonOsi.FlashImage.FlashConfig

namespace FlashImage

/-! # Packaging a flash file

The tool writes the EC image, the firmware header with the table, the xip image
and then the image of each group, in the order of the table, each after a seek to
its address. Nothing else is written. -/

-- ---------------------------------------------------------------------------
-- The tool
-- ---------------------------------------------------------------------------

def cfsVersion : Nat := 1

def fipVersion : Nat := 1234

def xipAddr : Nat := 0x108000

/-- The contents of the files that the configuration names. A missing xip file counts as an
    empty one. -/
structure PackageFiles where
  ec : Bytes
  xip : Bytes
  group : ImageHeader → Bytes

/-- The entry of a group, with the length of its file. -/
def entryBytes (files : PackageFiles) (g : ImageHeader) : Bytes :=
  [g.imageType, g.address, (files.group g).length, 0].flatMap (LittleEndian.ofNat 4)

/-- The header and the table. -/
def headerTable (files : PackageFiles) : Bytes :=
  [0x55AA55AA, cfsVersion, tableGroups.length, 0].flatMap (LittleEndian.ofNat 4) ++
    tableGroups.flatMap (entryBytes files)

/-- They are stored into a buffer of zeros. -/
def firmwareHeader (files : PackageFiles) : Bytes :=
  Span.write (List.replicate firmwareHeaderSize 0) 0 (headerTable files)

/-- The image of a group as it is written: the one of type 2 gets `fip_version` as its second
    word. -/
def fixedImage (g : ImageHeader) (image : Bytes) : Bytes :=
  if g.imageType = 2 then
    (Span.write image 4 (LittleEndian.ofNat 4 fipVersion)).take image.length
  else image

/-- The parts of the file, in the order of the calls of `fwrite`. -/
def targetParts (files : PackageFiles) : List (Nat × Bytes) :=
  [(ecRecord.offset, files.ec), (firmwareHeaderAddr, firmwareHeader files), (xipAddr, files.xip)] ++
    tableGroups.map fun g => (g.address, fixedImage g (files.group g))

/-- The file, unless an image has no room. -/
def packageTargetImage (files : PackageFiles) : Option Bytes :=
  if firmwareHeaderAddr - ecRecord.offset < files.ec.length ∨
      ∃ g ∈ tableGroups, g.size < (files.group g).length then
    none
  else
    some (Span.writeParts 0 [] (targetParts files))

-- ---------------------------------------------------------------------------
-- The header
-- ---------------------------------------------------------------------------

theorem length_entryBytes (files : PackageFiles) (g : ImageHeader) :
    (entryBytes files g).length = 16 :=
  Span.length_flatMap (LittleEndian.length_ofNat 4) _

theorem length_fixedImage (g : ImageHeader) (image : Bytes) :
    (fixedImage g image).length = image.length := by
  rw [fixedImage]
  split
  next =>
    rw [List.length_take, Span.write]
    simp
    omega
  next => rfl

theorem length_headerTable (files : PackageFiles) : (headerTable files).length = 160 := by
  rw [headerTable, List.length_append, Span.length_flatMap (LittleEndian.length_ofNat 4),
    Span.length_flatMap (length_entryBytes files), length_tableGroups]
  rfl

theorem length_firmwareHeader (files : PackageFiles) :
    (firmwareHeader files).length = firmwareHeaderSize := by
  have hsize : 160 ≤ firmwareHeaderSize := by decide
  rw [firmwareHeader, Span.length_write_of_le]
  · exact List.length_replicate
  · rw [length_headerTable, List.length_replicate, Nat.zero_add]
    exact hsize

theorem firmwareHeader_ne_nil (files : PackageFiles) : firmwareHeader files ≠ [] := by
  intro hnil
  have hlen := length_firmwareHeader files
  rw [hnil] at hlen
  exact absurd hlen (by decide)

theorem read_firmwareHeader (files : PackageFiles) {p n : Nat} (h : p + n ≤ 160) :
    Span.read (firmwareHeader files) p n = Span.read (headerTable files) p n := by
  have hlen := length_headerTable files
  have hfront := @Span.read_write_self _ (List.replicate firmwareHeaderSize 0)
    (headerTable files) 0 (Nat.zero_le _)
  rw [firmwareHeader, ← hfront, Span.read_read (by omega), Nat.zero_add]
  rw [hfront]

/-- The four words in front of the table. -/
theorem read_headerTable (files : PackageFiles) {i w : Nat}
    (h : [0x55AA55AA, cfsVersion, tableGroups.length, 0][i]? = some w) :
    Span.read (headerTable files) (4 * i) 4 = LittleEndian.ofNat 4 w := by
  have hi : i < 4 := (List.getElem?_eq_some_iff.mp h).1
  rw [headerTable, Span.read_append_left, Span.read_flatMap (LittleEndian.length_ofNat 4) h]
  rw [Span.length_flatMap (LittleEndian.length_ofNat 4)]
  simp only [List.length_cons, List.length_nil]
  omega

/-- The words of entry `j`. -/
theorem read_headerTable_entry (files : PackageFiles) {j k w : Nat} {g : ImageHeader}
    (hg : tableGroups[j]? = some g)
    (h : [g.imageType, g.address, (files.group g).length, 0][k]? = some w) :
    Span.read (headerTable files) (16 + 16 * j + 4 * k) 4 = LittleEndian.ofNat 4 w := by
  have hk : k < 4 := (List.getElem?_eq_some_iff.mp h).1
  have hfront : ([0x55AA55AA, cfsVersion, tableGroups.length, 0].flatMap
      (LittleEndian.ofNat 4)).length = 16 := Span.length_flatMap (LittleEndian.length_ofNat 4) _
  have hrow := Span.read_flatMap (length_entryBytes files) hg
  rw [headerTable, Nat.add_assoc, ← hfront, Span.read_append_right, hfront,
    ← Span.read_read (n := 16) (by omega), hrow]
  exact Span.read_flatMap (LittleEndian.length_ofNat 4) h

-- ---------------------------------------------------------------------------
-- The file
-- ---------------------------------------------------------------------------

section Target

variable {files : PackageFiles} {data : Bytes}

theorem packageTargetImage_eq_some (h : packageTargetImage files = some data) :
    data = Span.writeParts 0 [] (targetParts files) ∧
      ∀ g ∈ tableGroups, (files.group g).length ≤ g.size := by
  rw [packageTargetImage] at h
  split at h
  next => exact absurd h (Option.some_ne_none _).symm
  next hroom =>
    refine ⟨(Option.some.inj h).symm, fun g hg => ?_⟩
    by_contra hlong
    exact hroom (Or.inr ⟨g, hg, Nat.lt_of_not_le hlong⟩)

/-- The table is in the file as the tool stored it: what is written behind it is off it. -/
theorem read_target_header (h : packageTargetImage files = some data) {p n : Nat}
    (hin : p + n ≤ 160) :
    Span.read data (firmwareHeaderAddr + p) n = Span.read (headerTable files) p n := by
  obtain ⟨rfl, hroom⟩ := packageTargetImage_eq_some h
  have hsize : 160 ≤ firmwareHeaderSize := by decide
  have hfirst : targetParts files = [(ecRecord.offset, files.ec)] ++
      ([(firmwareHeaderAddr, firmwareHeader files)] ++ ((xipAddr, files.xip) ::
        tableGroups.map fun g => (g.address, fixedImage g (files.group g)))) := rfl
  rw [hfirst, Span.writeParts_append, Span.writeParts_append]
  generalize Span.writeParts 0 [] [(ecRecord.offset, files.ec)] = front
  have hwritten : Span.writeParts 0 front [(firmwareHeaderAddr, firmwareHeader files)] =
      Span.writeFill 0 front firmwareHeaderAddr (firmwareHeader files) := rfl
  have hlen := Span.le_length_writeFill 0 front firmwareHeaderAddr (firmwareHeader_ne_nil files)
  have hread := Span.read_writeFill_self 0 front firmwareHeaderAddr (firmwareHeader files)
  have hhead := length_firmwareHeader files
  rw [hwritten, Span.read_writeParts_of_disjoint (by omega), ← read_firmwareHeader files hin]
  · have hinner := @Span.read_read _ (Span.writeFill 0 front firmwareHeaderAddr
      (firmwareHeader files)) firmwareHeaderAddr (firmwareHeader files).length p n (by omega)
    rw [← hinner, hread]
  · intro part hpart
    obtain rfl | hpart := List.mem_cons.mp hpart
    · have hxip : firmwareHeaderAddr + 160 ≤ xipAddr := by decide
      exact Or.inl (by omega)
    · obtain ⟨g, hg, rfl⟩ := List.mem_map.mp hpart
      obtain ⟨hoff, -⟩ := areas_off_table g hg
      have hle := hroom g hg
      rw [length_fixedImage]
      omega

/-- The entry of a group has the length of its file. -/
theorem entryAt_target (h : packageTargetImage files = some data) {j : Nat} {g : ImageHeader}
    (hg : tableGroups[j]? = some g) :
    (entryAt data j).imageType = g.imageType ∧ (entryAt data j).offset = g.address ∧
      (entryAt data j).size = (files.group g).length := by
  have hmem := List.mem_of_getElem? hg
  have hj := lt_of_tableGroups hg
  have hsmall : ∀ g ∈ tableGroups, g.imageType < 256 ^ 4 ∧ g.address < 256 ^ 4 ∧
      g.size < 256 ^ 4 := by decide
  obtain ⟨htype, haddr, hsize⟩ := hsmall g hmem
  have hle := (packageTargetImage_eq_some h).2 g hmem
  have hword (k w : Nat) (hk : [g.imageType, g.address, (files.group g).length, 0][k]? = some w)
      (hw : w < 256 ^ 4) : wordAt data (firmwareHeaderAddr + 16 + 16 * j + 4 * k) = w := by
    have hk4 : k < 4 := (List.getElem?_eq_some_iff.mp hk).1
    have hread := read_target_header h (p := 16 + 16 * j + 4 * k) (n := 4) (by omega)
    have hassoc : firmwareHeaderAddr + 16 + 16 * j + 4 * k =
        firmwareHeaderAddr + (16 + 16 * j + 4 * k) := by omega
    rw [wordAt, hassoc, hread, read_headerTable_entry files hg hk, LittleEndian.toNat_ofNat,
      Nat.mod_eq_of_lt hw]
  exact ⟨hword 0 _ rfl htype, hword 1 _ rfl haddr, hword 2 _ rfl (by omega)⟩

/-- Each image is in front of the area of its group. -/
theorem read_target_image (h : packageTargetImage files = some data) {g : ImageHeader}
    (hg : g ∈ tableGroups) :
    Span.read data g.address (files.group g).length = fixedImage g (files.group g) := by
  obtain ⟨rfl, hroom⟩ := packageTargetImage_eq_some h
  have hpairs : (tableGroups.map fun g => (g.address, fixedImage g (files.group g))).Pairwise
      fun a b => a.1 + a.2.length ≤ b.1 ∨ b.1 + b.2.length ≤ a.1 := by
    rw [List.pairwise_map]
    refine areas_apart.imp_of_mem fun {a b} ha _ hab => Or.inl ?_
    have hle := hroom a ha
    rw [length_fixedImage]
    omega
  have hread := Span.read_writeParts_of_mem 0 (Span.writeParts 0 []
    [(ecRecord.offset, files.ec), (firmwareHeaderAddr, firmwareHeader files),
      (xipAddr, files.xip)]) hpairs (List.mem_map_of_mem hg)
  rw [← Span.writeParts_append, length_fixedImage] at hread
  exact hread

/-- Every group starts inside the file, when the last one has an image. -/
theorem address_lt_length_target (h : packageTargetImage files = some data)
    (hlast : ∀ g, tableGroups.getLast? = some g → files.group g ≠ []) {g : ImageHeader}
    (hg : g ∈ tableGroups) : g.address < data.length := by
  obtain ⟨rfl, -⟩ := packageTargetImage_eq_some h
  have hgroup : tableGroups.getLast? = some ⟨7, 0x406000, 0x229000⟩ := by decide
  have hbelow : ∀ g ∈ tableGroups, g.address ≤ 0x406000 := by decide
  have hmem := List.mem_of_getLast? hgroup
  have hne := hlast _ hgroup
  have hpos := List.length_pos_of_ne_nil hne
  generalize hg₇ : (⟨7, 0x406000, 0x229000⟩ : ImageHeader) = g₇ at hmem hne hpos
  have haddr : g₇.address = 0x406000 := by rw [← hg₇]
  have hlen := length_fixedImage g₇ (files.group g₇)
  have hin : (g₇.address, fixedImage g₇ (files.group g₇)) ∈ targetParts files :=
    List.mem_append_right _ (List.mem_map.mpr ⟨g₇, hmem, rfl⟩)
  have hfixed : fixedImage g₇ (files.group g₇) ≠ [] := List.ne_nil_of_length_pos (by omega)
  have hle := Span.le_length_writeParts 0 [] hin hfixed
  have hbelow := hbelow g hg
  simp only at hle
  omega

/-- **Packaged files.** What `package_target_image` writes is packaged, each image in front of
    the area of its group, as soon as the file of the last group is not empty. -/
theorem packageTargetImage_packaged (h : packageTargetImage files = some data)
    (hlast : ∀ g, tableGroups.getLast? = some g → files.group g ≠ []) :
    Packaged data ∧ ∀ g ∈ tableGroups,
      Span.read data g.address (files.group g).length = fixedImage g (files.group g) := by
  obtain ⟨hdata, hroom⟩ := packageTargetImage_eq_some h
  refine ⟨⟨?_, ?_, ?_, ?_⟩, fun g hg => read_target_image h hg⟩
  · have hmagic := read_target_header h (p := 4 * 0) (n := 4) (by omega)
    rw [read_headerTable files rfl] at hmagic
    exact hmagic
  · have hcount := read_target_header h (p := 4 * 2) (n := 4) (by omega)
    rw [read_headerTable files rfl] at hcount
    rw [countAt, wordAt, hcount]
    rfl
  · have hin : (firmwareHeaderAddr, firmwareHeader files) ∈ targetParts files :=
      List.mem_append_left _ (List.mem_cons_of_mem _ List.mem_cons_self)
    have hle := Span.le_length_writeParts 0 [] hin (firmwareHeader_ne_nil files)
    rw [hdata, ← length_firmwareHeader files]
    exact hle
  · intro j g hg
    have hmem := List.mem_of_getElem? hg
    have hle := hroom g hmem
    obtain ⟨htype, haddr, hlen⟩ := entryAt_target h hg
    refine ⟨htype, haddr, hlen.trans_le hle, ?_⟩
    have hlt := address_lt_length_target h hlast hmem
    have hread := congrArg List.length (read_target_image h hmem)
    rw [Span.length_read, length_fixedImage] at hread
    rw [hlen]
    omega

end Target

/-- Three bytes for every group, and no EC or xip image. -/
def sampleFiles : PackageFiles := ⟨[], [], fun _ => [1, 2, 3]⟩

/-- The flash file of these. -/
def sampleTarget : Bytes :=
  Span.writeParts 0 [] (targetParts sampleFiles)

theorem packageTargetImage_sampleFiles : packageTargetImage sampleFiles = some sampleTarget :=
  if_neg (by decide)

theorem packaged_sampleTarget : Packaged sampleTarget :=
  (packageTargetImage_packaged packageTargetImage_sampleFiles fun _ _ => List.cons_ne_nil _ _).1

end FlashImage
