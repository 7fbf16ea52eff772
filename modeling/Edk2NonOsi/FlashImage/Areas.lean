-- SUMMARY: Update sessions on packaged flash files: what each image leaves in the area of its group, call by call, and what a session leaves of the file.
import Edk2NonOsi.FlashImage.PackageTarget

open Python

namespace FlashImage

/-! # Areas

The script erases a slot up to its recorded `Size` only, and the `Size` follows
each image. So an image may also be longer than the one in front of it, as far as
the group reserves room; and behind an image that is shorter lie erased bytes,
then whatever the area held there before. -/

-- ---------------------------------------------------------------------------
-- What images leave in an area
-- ---------------------------------------------------------------------------

/-- The area of a group: the `Size` of its entry, and its bytes, as far as the file goes. -/
structure Area where
  size : Nat
  bytes : Bytes

/-- Erased up to the recorded `Size`, and overwritten from the start. -/
def Area.put (a : Area) (image : Bytes) : Area where
  size := image.length
  bytes := image ++ (List.replicate a.size 0xFF ++ a.bytes.drop a.size).drop image.length

/-- The area of entry `j`, whose group is `g`. -/
def areaAt (data : Bytes) (j : Nat) (g : ImageHeader) : Area where
  size := (entryAt data j).size
  bytes := Span.read data g.address g.size

/-- The area of the EC image. -/
def ecAt (data : Bytes) : Bytes :=
  Span.read data ecRecord.offset ecRecord.size

/-- The EC image and erased flash, or what there was when none was given. -/
def ecContents (data : Bytes) (images : List Bytes) : Bytes :=
  match images.getLast? with
  | none => ecAt data
  | some image => slotBytes ecRecord image

theorem Area.foldl_put_concat (a : Area) (images : List Bytes) (image : Bytes) :
    (images ++ [image]).foldl Area.put a = (images.foldl Area.put a).put image := by
  rw [List.foldl_append]
  rfl

/-- The last image is in front, with its length as the `Size`. -/
theorem Area.foldl_put_last (a : Area) {images : List Bytes} {image : Bytes}
    (hlast : images.getLast? = some image) :
    ∃ rest, images.foldl Area.put a = ⟨image.length, image ++ rest⟩ := by
  obtain ⟨front, rfl⟩ := List.getLast?_eq_some_iff.mp hlast
  rw [Area.foldl_put_concat]
  exact ⟨_, rfl⟩

-- ---------------------------------------------------------------------------
-- One replacement
-- ---------------------------------------------------------------------------

/-- An image no longer than the configuration reserves for its type. -/
def FitsType (t : Int) (image : Bytes) : Prop :=
  (∀ g ∈ imageHeaderGroups, (g.imageType : Int) = t → image.length ≤ g.size) ∧
    (t = 0 → image.length ≤ ecRecord.size)

section Replacement

variable {data image : Bytes} {j : Nat} {g : ImageHeader}

theorem FitsType.group (hg : tableGroups[j]? = some g) (hfit : FitsType g.imageType image) :
    image.length ≤ g.size :=
  hfit.1 g (mem_tableGroups.mp (List.mem_of_getElem? hg)) rfl

theorem imageType_ne_zero (hg : tableGroups[j]? = some g) : (g.imageType : Int) ≠ 0 := by
  obtain ⟨hj, -⟩ := List.getElem?_eq_some_iff.mp hg
  exact_mod_cast (findIdx?_groupTypes j hj g hg).2

/-- What a replacement leaves of a packaged file: the area of its group erased and overwritten,
    and everything off the region of its entry. -/
structure PutAt (data : Bytes) (j : Nat) (g : ImageHeader) (image out : Bytes) : Prop where
  area : areaAt out j g = (areaAt data j g).put image
  rest : Span.AgreeOff (region j g) out data
  length_le : data.length ≤ out.length
  inside : g.address + image.length ≤ out.length

/-- The three writes of a replacement, none of which starts behind the end of the file. -/
theorem Packaged.replaced_eq (hp : Packaged data) (hg : tableGroups[j]? = some g) :
    replaced data g.imageType firmwareHeaderAddr j (entryAt data j) image =
      Span.write (Span.write (Span.write data g.address
        (List.replicate (entryAt data j).size 0xFF)) g.address image)
        (sizeOffset firmwareHeaderAddr j) (LittleEndian.ofNat 4 image.length) := by
  have hentry := hp.entry j g hg
  have hinside := hentry.inside
  have herase : Span.writeFill 0 data g.address (List.replicate (entryAt data j).size 0xFF) =
      Span.write data g.address (List.replicate (entryAt data j).size 0xFF) :=
    Span.writeFill_eq_write (by omega)
  have herased := Span.length_write data g.address (List.replicate (entryAt data j).size 0xFF)
    (by omega)
  have hfilled := Span.length_write _ g.address image (show g.address ≤ (Span.write data g.address
    (List.replicate (entryAt data j).size 0xFF)).length by omega)
  have hfield := hp.sizeOffset_le (lt_of_tableGroups hg)
  rw [replaced, if_neg (imageType_ne_zero hg), overwritten, hentry.offset, herase,
    Span.writeFill_eq_write (show g.address ≤ _ by omega), Span.writeFill_eq_write (by omega)]

theorem Packaged.putAt (hp : Packaged data) (hg : tableGroups[j]? = some g)
    (hfit : image.length ≤ g.size) :
    PutAt data j g image
      (replaced data g.imageType firmwareHeaderAddr j (entryAt data j) image) := by
  have hinside := (hp.entry j g hg).inside
  have hle := (hp.entry j g hg).size
  have hfield := hp.sizeOffset_le (lt_of_tableGroups hg)
  have hoff := area_off_sizeOffset hg hg
  have hsize := (areas_off_table g (List.mem_of_getElem? hg)).2.2
  rw [hp.replaced_eq hg]
  set p := sizeOffset firmwareHeaderAddr j with hpos
  have hnlen : (List.replicate (entryAt data j).size (0xFF : UInt8)).length =
      (entryAt data j).size := List.length_replicate
  have hword : (LittleEndian.ofNat 4 image.length).length = 4 := LittleEndian.length_ofNat 4 _
  generalize hfill : List.replicate (entryAt data j).size (0xFF : UInt8) = fill at hnlen ⊢
  have herased := Span.length_write data g.address fill (by omega)
  have hfilled := Span.length_write (Span.write data g.address fill) g.address image (by omega)
  have hout := Span.length_write (Span.write (Span.write data g.address fill) g.address image) p
    (LittleEndian.ofNat 4 image.length) (by omega)
  constructor
  · rw [Area.put, areaAt, areaAt, hfill, ← hnlen]
    congr 1
    · -- The `Size` field is written last.
      have hread := @Span.read_write_self _ (Span.write (Span.write data g.address fill) g.address
        image) (LittleEndian.ofNat 4 image.length) p (by omega)
      rw [hword] at hread
      show LittleEndian.toNat (Span.read _ p 4) = _
      rw [hread, LittleEndian.toNat_ofNat]
      exact Nat.mod_eq_of_lt (by omega)
    · rw [Span.read_write_of_disjoint (by omega) (by omega),
        Span.read_write_write (by omega) (by omega) hfit]
  · have hfirst := Span.write_agreeOff fill (show g.address ≤ data.length by omega)
    have hsecond := Span.write_agreeOff image
      (show g.address ≤ (Span.write data g.address fill).length by omega)
    have hthird := Span.write_agreeOff (LittleEndian.ofNat 4 image.length)
      (show p ≤ (Span.write (Span.write data g.address fill) g.address image).length by omega)
    refine (hthird.trans (hsecond.trans hfirst)).mono ?_
    rintro q (hq | hq | hq)
    · rw [hword] at hq
      exact Or.inr hq
    · exact Or.inl (Set.Ico_subset_Ico_right (by omega) hq)
    · exact Or.inl (Set.Ico_subset_Ico_right (by omega) hq)
  · omega
  · omega

theorem Packaged.ec_slotInside (hp : Packaged data) : SlotInside data ecRecord :=
  slotInside_of_le (Or.inr hp.ec_inside)

/-- The EC image has a slot of fixed size and no `Size` field. -/
theorem Packaged.putEc (hp : Packaged data) (hfit : image.length ≤ ecRecord.size) (i : Nat) :
    ecAt (replaced data 0 firmwareHeaderAddr i ecRecord image) = slotBytes ecRecord image ∧
      Span.AgreeOff (slot ecRecord) (replaced data 0 firmwareHeaderAddr i ecRecord image) data ∧
      (replaced data 0 firmwareHeaderAddr i ecRecord image).length = data.length := by
  have htouched := hp.isTarget_ec.replaced_touched hp.ec_slotInside hfit
  have hsame : replaced data 0 firmwareHeaderAddr i ecRecord image =
      replaced data 0 firmwareHeaderAddr tableGroups.length ecRecord image := by
    rw [replaced, replaced, if_pos rfl, if_pos rfl]
  rw [touched, if_pos rfl] at htouched
  rw [hsame]
  refine ⟨?_, htouched⟩
  rw [replaced, if_pos rfl]
  exact read_slot_overwritten hp.ec_slotInside hfit

end Replacement

-- ---------------------------------------------------------------------------
-- Files with images in their areas
-- ---------------------------------------------------------------------------

/-- The positions that images for the types of `m` may change in a packaged file. -/
def changeable (m : Int → List Bytes) : Set Nat :=
  {q | (∃ (j : Nat) (g : ImageHeader), tableGroups[j]? = some g ∧ m g.imageType ≠ [] ∧
      q ∈ region j g) ∨ (m 0 ≠ [] ∧ q ∈ slot ecRecord)}

/-- `out` is what is left of the packaged file `data` when the types were given the images of
    `m`, one after another. -/
structure Carries (data : Bytes) (m : Int → List Bytes) (out : Bytes) : Prop where
  packaged : Packaged out
  area : ∀ j g, tableGroups[j]? = some g →
    areaAt out j g = (m g.imageType).foldl Area.put (areaAt data j g)
  ec : ecAt out = ecContents data (m 0)
  rest : Span.AgreeOff (changeable m) out data
  length_le : data.length ≤ out.length

section Carries

variable {data out out' image : Bytes} {m m' : Int → List Bytes} {j : Nat} {g : ImageHeader}

/-- No image was given yet. -/
theorem Carries.self (hp : Packaged data) : Carries data (fun _ => []) data where
  packaged := hp
  area _ _ _ := rfl
  ec := rfl
  rest := Span.AgreeOff.refl _ _
  length_le := Nat.le_refl _

/-- Types without a place in the file do not matter. -/
theorem Carries.congr (h : Carries data m out) (hm : ∀ n ∈ groupTypes, m n = m' n) :
    Carries data m' out := by
  have hgroup : ∀ (j : Nat) (g : ImageHeader), tableGroups[j]? = some g →
      m g.imageType = m' g.imageType := fun j g hg =>
    hm _ (List.mem_append_left _ (List.mem_map.mpr ⟨g, List.mem_of_getElem? hg, rfl⟩))
  have hec : m 0 = m' 0 := hm 0 (List.mem_append_right _ (List.mem_singleton.mpr rfl))
  refine ⟨h.packaged, fun j g hg => ?_, ?_, ?_, h.length_le⟩
  · rw [← hgroup j g hg]
    exact h.area j g hg
  · rw [← hec]
    exact h.ec
  · refine h.rest.mono ?_
    rintro q (⟨j, g, hg, hne, hq⟩ | ⟨hne, hq⟩)
    · rw [hgroup j g hg] at hne
      exact Or.inl ⟨j, g, hg, hne, hq⟩
    · rw [hec] at hne
      exact Or.inr ⟨hne, hq⟩

/-- One more image for a type. -/
def pushed (m : Int → List Bytes) (t : Int) (image : Bytes) : Int → List Bytes :=
  Function.update m t (m t ++ [image])

theorem pushed_self (m : Int → List Bytes) (t : Int) (image : Bytes) :
    pushed m t image t = m t ++ [image] :=
  Function.update_self ..

theorem pushed_of_ne {t t' : Int} (h : t' ≠ t) (m : Int → List Bytes) (image : Bytes) :
    pushed m t image t' = m t' :=
  Function.update_of_ne h _ _

theorem pushed_ne_nil {t t' : Int} {image : Bytes} (h : m t' ≠ []) : pushed m t image t' ≠ [] := by
  by_cases ht : t' = t
  · rw [ht, pushed_self]
    exact List.append_ne_nil_of_right_ne_nil _ (List.cons_ne_nil _ _)
  · rw [pushed_of_ne ht]
    exact h

theorem changeable_subset_pushed (m : Int → List Bytes) (t : Int) (image : Bytes) :
    changeable m ⊆ changeable (pushed m t image) := by
  rintro q (⟨j, g, hg, hne, hq⟩ | ⟨hne, hq⟩)
  · exact Or.inl ⟨j, g, hg, pushed_ne_nil hne, hq⟩
  · exact Or.inr ⟨pushed_ne_nil hne, hq⟩

/-- Two groups of one type are one. -/
theorem eq_of_imageType {j' : Nat} {g' : ImageHeader} (hg : tableGroups[j]? = some g)
    (hg' : tableGroups[j']? = some g') (htype : (g'.imageType : Int) = g.imageType) : j' = j := by
  obtain ⟨hj, -⟩ := List.getElem?_eq_some_iff.mp hg
  obtain ⟨hj', -⟩ := List.getElem?_eq_some_iff.mp hg'
  have hindex := (findIdx?_groupTypes j hj g hg).1
  have hindex' := (findIdx?_groupTypes j' hj' g' hg').1
  rw [htype, hindex] at hindex'
  exact (Option.some.inj hindex').symm

/-- A replacement on the entry of another group does not show in an area. -/
theorem PutAt.areaAt_other (h : PutAt data j g image out) (hg : tableGroups[j]? = some g)
    {j' : Nat} {g' : ImageHeader} (hg' : tableGroups[j']? = some g') (hne : j' ≠ j) :
    areaAt out j' g' = areaAt data j' g' := by
  have hword : wordAt out (sizeOffset firmwareHeaderAddr j') =
      wordAt data (sizeOffset firmwareHeaderAddr j') := by
    rw [wordAt, wordAt, h.rest.read_eq (disjoint_size_region hne hg (lt_of_tableGroups hg'))]
  rw [areaAt, areaAt, h.rest.read_eq (disjoint_area_region hg' hg hne)]
  congr 1

/-- A replacement for a group. -/
theorem Carries.put (h : Carries data m out) (hg : tableGroups[j]? = some g)
    (hfit : image.length ≤ g.size) :
    Carries data (pushed m g.imageType image)
      (replaced out g.imageType firmwareHeaderAddr j (entryAt out j) image) := by
  have hput := h.packaged.putAt hg hfit
  generalize replaced out g.imageType firmwareHeaderAddr j (entryAt out j) image = next at hput
  have harea : ∀ j' g', tableGroups[j']? = some g' → areaAt next j' g' =
      (pushed m g.imageType image g'.imageType).foldl Area.put (areaAt data j' g') := by
    intro j' g' hg'
    by_cases hj : j' = j
    · subst hj
      obtain rfl := Option.some.inj (hg.symm.trans hg')
      rw [pushed_self, Area.foldl_put_concat, ← h.area j' g hg, hput.area]
    · have htype : (g'.imageType : Int) ≠ g.imageType := fun ht => hj (eq_of_imageType hg hg' ht)
      rw [pushed_of_ne htype, ← h.area j' g' hg', hput.areaAt_other hg hg' hj]
  refine ⟨?_, harea, ?_, ?_, h.length_le.trans hput.length_le⟩
  · refine h.packaged.of_agreeOff (sizesOnly_region hg) hput.rest hput.length_le ?_
    intro j' g' hg'
    by_cases hj : j' = j
    · subst hj
      obtain rfl := Option.some.inj (hg.symm.trans hg')
      have hsize : (entryAt next j').size = image.length := congrArg Area.size hput.area
      rw [hsize]
      exact ⟨hfit, hput.inside⟩
    · have hsize : (entryAt next j').size = (entryAt out j').size :=
        congrArg Area.size (hput.areaAt_other hg hg' hj)
      have hentry := h.packaged.entry j' g' hg'
      rw [hsize]
      exact ⟨hentry.size, hentry.inside.trans hput.length_le⟩
  · rw [pushed_of_ne (imageType_ne_zero hg).symm, ← h.ec]
    exact hput.rest.read_eq (disjoint_ec_region hg)
  · refine (hput.rest.trans h.rest).mono ?_
    rintro q (hq | hq)
    · left
      refine ⟨j, g, hg, ?_, hq⟩
      rw [pushed_self]
      exact List.append_ne_nil_of_right_ne_nil _ (List.cons_ne_nil _ _)
    · exact changeable_subset_pushed m _ image hq

/-- A replacement for the EC image. -/
theorem Carries.put_ec (h : Carries data m out) (hfit : image.length ≤ ecRecord.size) (i : Nat) :
    Carries data (pushed m 0 image) (replaced out 0 firmwareHeaderAddr i ecRecord image) := by
  obtain ⟨hec, hrest, hlen⟩ := h.packaged.putEc hfit i
  generalize replaced out 0 firmwareHeaderAddr i ecRecord image = next at hec hrest hlen
  have harea : ∀ j' g', tableGroups[j']? = some g' → areaAt next j' g' = areaAt out j' g' := by
    intro j' g' hg'
    have hword : wordAt next (sizeOffset firmwareHeaderAddr j') =
        wordAt out (sizeOffset firmwareHeaderAddr j') := by
      rw [wordAt, wordAt, hrest.read_eq (disjoint_size_ec j')]
    have hd : Disjoint (Set.Ico g'.address (g'.address + g'.size)) (slot ecRecord) :=
      ((disjoint_ec_region hg').mono_right Set.subset_union_left).symm
    rw [areaAt, areaAt, hrest.read_eq hd]
    congr 1
  refine ⟨?_, ?_, ?_, ?_, h.length_le.trans hlen.ge⟩
  · refine h.packaged.of_agreeOff sizesOnly_ec hrest hlen.ge ?_
    intro j' g' hg'
    have hsize : (entryAt next j').size = (entryAt out j').size :=
      congrArg Area.size (harea j' g' hg')
    have hentry := h.packaged.entry j' g' hg'
    rw [hsize, hlen]
    exact ⟨hentry.size, hentry.inside⟩
  · intro j' g' hg'
    rw [harea j' g' hg', pushed_of_ne (imageType_ne_zero hg')]
    exact h.area j' g' hg'
  · rw [hec, pushed_self, ecContents, List.getLast?_append_of_ne_nil _ (List.cons_ne_nil _ _)]
    rfl
  · refine (hrest.trans h.rest).mono ?_
    rintro q (hq | hq)
    · right
      refine ⟨?_, hq⟩
      rw [pushed_self]
      exact List.append_ne_nil_of_right_ne_nil _ (List.cons_ne_nil _ _)
    · exact changeable_subset_pushed m 0 image hq

/-- The images determine the file. -/
theorem Carries.unique (h : Carries data m out) (h' : Carries data m out') : out = out' := by
  apply List.ext_getElem?
  intro q
  by_cases hq : q ∈ changeable m
  · obtain ⟨j, g, hg, -, hq | hq⟩ | ⟨-, hq⟩ := hq
    · have hbytes := congrArg Area.bytes ((h.area j g hg).trans (h'.area j g hg).symm)
      exact Span.getElem?_eq_of_read_eq hbytes hq
    · have hword := congrArg Area.size ((h.area j g hg).trans (h'.area j g hg).symm)
      refine Span.getElem?_eq_of_read_eq ?_ hq
      have hbytes : ∀ {bs : Bytes}, Packaged bs → LittleEndian.ofNat 4
          (wordAt bs (sizeOffset firmwareHeaderAddr j)) =
            Span.read bs (sizeOffset firmwareHeaderAddr j) 4 := by
        intro bs hp
        have hlen := Span.length_read_of_le (hp.sizeOffset_le (lt_of_tableGroups hg))
        have hback := LittleEndian.ofNat_toNat (Span.read bs (sizeOffset firmwareHeaderAddr j) 4)
        rw [hlen] at hback
        exact hback
      have hsame : wordAt out (sizeOffset firmwareHeaderAddr j) =
          wordAt out' (sizeOffset firmwareHeaderAddr j) := hword
      rw [← hbytes h.packaged, ← hbytes h'.packaged, hsame]
    · exact Span.getElem?_eq_of_read_eq (h.ec.trans h'.ec.symm) hq
  · exact (h.rest q hq).trans (h'.rest q hq).symm

/-- The last image is in front of its area, with its length as the `Size` of its entry. -/
theorem Carries.front (h : Carries data m out) (hg : tableGroups[j]? = some g)
    (hlast : (m g.imageType).getLast? = some image) :
    (entryAt out j).size = image.length ∧
      ∃ rest, Span.read out g.address g.size = image ++ rest := by
  obtain ⟨rest, hrest⟩ := Area.foldl_put_last (areaAt data j g) hlast
  have harea := (h.area j g hg).trans hrest
  exact ⟨congrArg Area.size harea, rest, congrArg Area.bytes harea⟩

theorem sizesOnly_changeable (m : Int → List Bytes) : SizesOnly (changeable m) := by
  rintro q (⟨j, g, hg, -, hq⟩ | ⟨-, hq⟩) hlow hhigh
  · exact sizesOnly_region hg q hq hlow hhigh
  · exact sizesOnly_ec q hq hlow hhigh

/-- The table follows the last image of each type. -/
theorem Carries.table_eq (h : Carries data m out) (hp : Packaged data) :
    tableAt out firmwareHeaderAddr =
      updatedTable data firmwareHeaderAddr fun t => (m t).getLast? := by
  have hsizes := sizesOnly_changeable m
  have hcount := countAt_of_sizesOnly hsizes h.rest
  have hrecords : recordsAt out firmwareHeaderAddr = (recordsAt data firmwareHeaderAddr).mapIdx
      (updatedRecord data firmwareHeaderAddr fun t => (m t).getLast?) := by
    apply List.ext_getElem?
    intro j
    rw [List.getElem?_mapIdx]
    obtain hj | rfl | hj := lt_trichotomy j tableGroups.length
    · have hg := List.getElem?_eq_getElem hj
      have htype := (hp.entry j _ hg).imageType
      have hzero := imageType_ne_zero hg
      have hout : (recordsAt out firmwareHeaderAddr)[j]? = some (entryAt out j) :=
        getElem?_recordsAt (by rw [hcount, hp.count]; exact hj)
      have hdata : (recordsAt data firmwareHeaderAddr)[j]? = some (entryAt data j) :=
        getElem?_recordsAt (by rw [hp.count]; exact hj)
      rw [hout, hdata, Option.map_some, updatedRecord, htype, if_pos (hp.isTarget hg).index,
        entryAt_of_sizesOnly hsizes h.rest (lt_of_tableGroups hg)]
      cases hlast : (m tableGroups[j].imageType).getLast? with
      | none =>
        have hnil := List.getLast?_eq_none_iff.mp hlast
        have harea := h.area j _ hg
        rw [hnil] at harea
        exact congrArg (fun n => some { entryAt data j with size := n }) (congrArg Area.size harea)
      | some image => simp only [(h.front hg hlast).1, resized, if_neg hzero]
    · have hout := getElem?_recordsAt_count out firmwareHeaderAddr
      rw [hcount, hp.count] at hout
      rw [hout, hp.isTarget_ec.record, Option.map_some, updatedRecord]
      split
      next =>
        cases (m ecRecord.imageType).getLast? with
        | none => rfl
        | some image => rfl
      next => rfl
    · rw [List.getElem?_eq_none (by rw [length_recordsAt, hcount, hp.count]; omega),
        List.getElem?_eq_none (by rw [length_recordsAt, hp.count]; omega), Option.map_none]
  rw [tableAt, updatedTable, hrecords, hcount,
    wordAt_of_sizesOnly hsizes h.rest (by decide) fun j => by omega,
    wordAt_of_sizesOnly hsizes h.rest (by decide) fun j => by omega]
  rfl

end Carries

-- ---------------------------------------------------------------------------
-- Sessions
-- ---------------------------------------------------------------------------

/-- A call that updates a packaged `flash` in place with an image, if there is one, no longer
    than the configuration reserves for its type. -/
structure PackagedUpdate {Path : Type} (files : Files Path) (flash : Path) (args : Args Path) :
    Prop where
  inputFile : args.inputFile = flash
  outPutFile : args.outPutFile = flash
  subImageFile : args.subImageFile ≠ flash
  fits : ∀ image, files args.subImageFile = some image → FitsType args.replaceSubImageType image

/-- The images after a call. -/
def pushedFile {Path : Type} (files : Files Path) (m : Int → List Bytes) (args : Args Path) :
    Int → List Bytes :=
  match files args.subImageFile with
  | none => m
  | some image => pushed m args.replaceSubImageType image

theorem pushedFile_none {Path : Type} {files : Files Path} {m : Int → List Bytes}
    {args : Args Path} (h : files args.subImageFile = none) : pushedFile files m args = m := by
  rw [pushedFile, h]

theorem pushedFile_some {Path : Type} {files : Files Path} {m : Int → List Bytes}
    {args : Args Path} {image : Bytes} (h : files args.subImageFile = some image) :
    pushedFile files m args = pushed m args.replaceSubImageType image := by
  rw [pushedFile, h]

/-- The images a list of calls gives to each type, one after another. -/
def imagesOf {Path : Type} (files : Files Path) (calls : List (Args Path)) : Int → List Bytes :=
  calls.foldl (pushedFile files) fun _ => []

section Sessions

variable {Path : Type} [DecidableEq Path] {files : Files Path} {flash : Path} {data out : Bytes}
  {m : Int → List Bytes} {args : Args Path} {calls : List (Args Path)}

theorem Carries.targetIndex?_eq (hp : Packaged data) (h : Carries data m out) (t : Int) :
    targetIndex? out firmwareHeaderAddr t = targetIndex? data firmwareHeaderAddr t := by
  rw [h.packaged.targetIndex?_eq, hp.targetIndex?_eq]

/-- A call whose type has a place in the file: without an image to read it does nothing, and
    with one the image is put there. -/
theorem Carries.main_of_target {i : Nat} {r : Record} (hp : Packaged data)
    (h : Carries data m out) (hu : PackagedUpdate files flash args)
    (ht : IsTarget out args.replaceSubImageType firmwareHeaderAddr i r)
    (hput : ∀ image, files args.subImageFile = some image →
      (args.replaceSubImageType = 0 ∨ image.length < 2 ^ 32) ∧
      Carries data (pushed m args.replaceSubImageType image)
        (replaced out args.replaceSubImageType firmwareHeaderAddr i r image)) :
    ∃ next, FlashImage.main (Function.update files flash (some out)) args =
        (expectedReport files data firmwareHeaderAddr args,
          Function.update files flash (some next)) ∧
      Carries data (pushedFile files m args) next := by
  have hin : Function.update files flash (some out) args.inputFile = some out := by
    rw [hu.inputFile, Function.update_self]
  have hsub : Function.update files flash (some out) args.subImageFile =
      files args.subImageFile := Function.update_of_ne hu.subImageFile _ _
  have hpresent : targetIndex? data firmwareHeaderAddr args.replaceSubImageType ≠ none := by
    rw [← h.targetIndex?_eq hp, ht.index]
    exact Option.some_ne_none i
  cases himage : files args.subImageFile with
  | none =>
    refine ⟨out, ?_, ?_⟩
    · rw [FlashImage.main, replaceImage_missing _ hin (hsub.trans himage) ht, expectedReport,
        if_neg hpresent, if_pos himage]
    · rw [pushedFile_none himage]
      exact h
  | some image =>
    obtain ⟨hpack, hcarries⟩ := hput image himage
    have hfound : files args.subImageFile ≠ none := by
      rw [himage]
      exact Option.some_ne_none image
    refine ⟨replaced out args.replaceSubImageType firmwareHeaderAddr i r image, ?_, ?_⟩
    · rw [FlashImage.main, replaceImage_eq _ hin (hsub.trans himage) ht hpack, expectedReport,
        if_neg hpresent, if_neg hfound, hu.outPutFile, Function.update_idem]
    · rw [pushedFile_some himage]
      exact hcarries

/-- What a call does to a packaged file. -/
theorem Carries.main (hp : Packaged data) (h : Carries data m out)
    (hu : PackagedUpdate files flash args) :
    ∃ next, FlashImage.main (Function.update files flash (some out)) args =
        (expectedReport files data firmwareHeaderAddr args,
          Function.update files flash (some next)) ∧
      Carries data (pushedFile files m args) next := by
  obtain ⟨j, g, hg, htype⟩ | hzero | ⟨hnone, hother⟩ :=
    h.packaged.type_cases args.replaceSubImageType
  · have ht := h.packaged.isTarget hg
    rw [← htype] at ht
    apply h.main_of_target hp hu ht
    intro image himage
    have hfit := hu.fits image himage
    rw [htype] at hfit ⊢
    have hle := hfit.group hg
    have hsize := (areas_off_table g (List.mem_of_getElem? hg)).2.2
    exact ⟨Or.inr (by omega), h.put hg hle⟩
  · have ht := h.packaged.isTarget_ec
    rw [← hzero] at ht
    apply h.main_of_target hp hu ht
    intro image himage
    have hfit := hu.fits image himage
    rw [hzero] at hfit ⊢
    exact ⟨Or.inl rfl, h.put_ec (hfit.2 rfl) _⟩
  · -- No entry has the type: the call is refused.
    have hin : Function.update files flash (some out) args.inputFile = some out := by
      rw [hu.inputFile, Function.update_self]
    have hrefused : refusal out args.replaceSubImageType =
        some (.valueError "ImageType not found in ") := by
      rw [refusal, h.packaged.headerOffset?_eq]
      simp only [if_neg (Nat.not_lt.mpr h.packaged.complete), hnone]
    refine ⟨out, ?_, ?_⟩
    · rw [FlashImage.main, replaceImage_refused _ _ hin hrefused, expectedReport,
        ← h.targetIndex?_eq hp, if_pos hnone]
    · apply h.congr
      intro n hn
      rw [pushedFile]
      cases files args.subImageFile with
      | none => rfl
      | some image => exact (pushed_of_ne (hother n hn) m image).symm

/-- By induction on the calls: the file is left with the images given so far. -/
theorem Carries.session (hp : Packaged data) (h : Carries data m out)
    (hcalls : ∀ args ∈ calls, PackagedUpdate files flash args) :
    ∃ next, FlashImage.session (Function.update files flash (some out)) calls =
        (calls.map (expectedReport files data firmwareHeaderAddr),
          Function.update files flash (some next)) ∧
      Carries data (calls.foldl (pushedFile files) m) next := by
  induction calls generalizing m out with
  | nil => exact ⟨out, rfl, h⟩
  | cons args rest ih =>
    obtain ⟨next, hmain, hnext⟩ := h.main hp (hcalls args List.mem_cons_self)
    obtain ⟨last, hrest, hlast⟩ := ih hnext fun a ha => hcalls a (List.mem_cons_of_mem args ha)
    refine ⟨last, ?_, hlast⟩
    rw [FlashImage.session, hmain]
    simp only [hrest]
    rfl

/-- **Packaged flash files.** Any session of in-place updates of a flash file that is packaged
    with the shipped configuration, each image no longer than the configuration reserves for
    its type: the calls report as they should, only the flash file changes, and it is packaged
    again. Each area holds what its images leave there, put one after another: the last one in
    front, with its length as the `Size`. Nothing else of the file changes, and the script
    finds the updated table. -/
theorem packaged_session (hin : files flash = some data) (hp : Packaged data)
    (hcalls : ∀ args ∈ calls, PackagedUpdate files flash args) :
    ∃ out, FlashImage.session files calls =
        (calls.map (expectedReport files data firmwareHeaderAddr),
          Function.update files flash (some out)) ∧
      Carries data (imagesOf files calls) out ∧
      (∀ j g image, tableGroups[j]? = some g →
        (imagesOf files calls g.imageType).getLast? = some image →
          (entryAt out j).size = image.length ∧
            ∃ rest, Span.read out g.address g.size = image ++ rest) ∧
      findTable (Function.update files flash (some out)) flash headerOffsets =
        .ok (some (firmwareHeaderAddr, updatedTable data firmwareHeaderAddr
          fun t => (imagesOf files calls t).getLast?)) := by
  have hfiles : Function.update files flash (some data) = files := by
    rw [← hin, Function.update_eq_self]
  obtain ⟨out, hrun, hout⟩ := (Carries.self hp).session hp hcalls
  rw [hfiles] at hrun
  have hheader := hout.packaged.headerOffset?_eq
  unfold headerOffset? at hheader
  refine ⟨out, hrun, hout, fun j g image hg hlast => hout.front hg hlast, ?_⟩
  rw [findTable_eq (Function.update_self ..), hheader]
  simp only [if_neg (Nat.not_lt.mpr hout.packaged.complete), hout.table_eq hp]
  rfl

end Sessions

/-- A packaged file and two images of a kind. -/
def sampleUpdates : Files Nat := fun path =>
  if path = 0 then some sampleTarget
  else if path = 1 then some [9, 9]
  else if path = 2 then some [7]
  else none

/-- The last byte of the first image is erased, the byte behind it was erased before. -/
theorem packaged_session_sample :
    ∃ out, FlashImage.session sampleUpdates [⟨0, 1, 0, 4⟩, ⟨0, 2, 0, 4⟩] =
        ([.success, .success], Function.update sampleUpdates 0 (some out)) ∧
      Packaged out ∧ Span.read out 0x404000 3 = [7, 0xFF, 0xFF] := by
  have hcalls : ∀ args ∈ ([⟨0, 1, 0, 4⟩, ⟨0, 2, 0, 4⟩] : List (Args Nat)),
      PackagedUpdate sampleUpdates 0 args := by
    have hfits : ∀ image, image.length ≤ 2 → FitsType 4 image := by
      intro image hle
      refine ⟨fun g hg _ => hle.trans ?_, fun h => absurd h (by decide)⟩
      have hall : ∀ g ∈ imageHeaderGroups, 2 ≤ g.size := by decide
      exact hall g hg
    simp only [List.forall_mem_cons]
    refine ⟨⟨rfl, rfl, by decide, ?_⟩, ⟨rfl, rfl, by decide, ?_⟩, fun _ h =>
      absurd h List.not_mem_nil⟩
    · rintro image himage
      obtain rfl := Option.some.inj himage
      exact hfits _ (by decide)
    · rintro image himage
      obtain rfl := Option.some.inj himage
      exact hfits _ (by decide)
  have hin : sampleUpdates 0 = some sampleTarget := rfl
  obtain ⟨out, hrun, hout, -, -⟩ := packaged_session hin packaged_sampleTarget hcalls
  have hindex : targetIndex? sampleTarget firmwareHeaderAddr 4 ≠ none := by
    rw [packaged_sampleTarget.targetIndex?_eq]
    decide
  have hreports : ∀ args : Args Nat, args.replaceSubImageType = 4 →
      sampleUpdates args.subImageFile ≠ none →
      expectedReport sampleUpdates sampleTarget firmwareHeaderAddr args = .success := by
    intro args htype hfile
    rw [expectedReport, htype, if_neg hindex, if_neg hfile]
  refine ⟨out, ?_, hout.packaged, ?_⟩
  · rw [hrun, List.map_cons, List.map_cons, List.map_nil, hreports ⟨0, 1, 0, 4⟩ rfl (by decide),
      hreports ⟨0, 2, 0, 4⟩ rfl (by decide)]
  · have hg : tableGroups[6]? = some ⟨4, 0x404000, 0x1000⟩ := by decide
    obtain ⟨-, -, hentry⟩ := entryAt_target packageTargetImage_sampleFiles hg
    have hthree : (sampleFiles.group ⟨4, 0x404000, 0x1000⟩).length = 3 := rfl
    have hsize : (areaAt sampleTarget 6 ⟨4, 0x404000, 0x1000⟩).size = 3 := by
      rw [areaAt, hentry, hthree]
    have himages : imagesOf sampleUpdates [⟨0, 1, 0, 4⟩, ⟨0, 2, 0, 4⟩] 4 = [[9, 9], [7]] := rfl
    have harea := hout.area 6 _ hg
    simp only [Nat.cast_ofNat, himages, List.foldl_cons, List.foldl_nil] at harea
    generalize areaAt sampleTarget 6 ⟨4, 0x404000, 0x1000⟩ = area at hsize harea
    have hfront := @Span.read_read _ out 0x404000 0x1000 0 3 (by decide)
    have hbytes : Span.read out 0x404000 0x1000 = ((area.put [9, 9]).put [7]).bytes :=
      congrArg Area.bytes harea
    rw [← hfront, hbytes, Area.put, Area.put, hsize]
    rfl

end FlashImage
