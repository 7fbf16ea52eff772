-- SUMMARY: From the build to the field: what is read from the slots of a flash image that a run made, before and after it was updated.
import Edk2NonOsi.PackageTool.Makefiles
import Edk2NonOsi.PackageTool.Workbench

open Shell Python FlashImage

namespace PackageTool

-- ---------------------------------------------------------------------------
-- The flash image of a run
-- ---------------------------------------------------------------------------

/-- The `file` of a group, in `Firmwares`. -/
def groupFile (g : ImageHeader) : String :=
  match g.imageType with
  | 1 => "bootloader1.img"
  | 2 => "bootloader2.img"
  | 100 => "dummy.bin"
  | 3 => "memory_config.bin"
  | 4 => "csu_pm_config.bin"
  | 6 => "se_config.bin"
  | 7 => "bootloader3.img"
  | 8 => "sfh_fw.bin"
  | 9 => "trustzone_config.bin"
  | _ => ""

/-- What is in `Firmwares`, by name. -/
def stagedFirmware (k : KeyType) (t : Workspace) (name : String) : Option Bytes :=
  t.read ⟨.tempFirmwares k, name⟩

/-- The files that `spi_flash_config_all.json` names. -/
def readFiles (ec : Bytes) (firmware : String → Option Bytes) : PackageFiles where
  ec := ec
  xip := (firmware "dummy.bin").getD []
  group g := (firmware (groupFile g)).getD []

/-- They are read if those are there that have to be. -/
def packageFiles (firmware : String → Option Bytes) : Option PackageFiles :=
  match firmware "ec_fw.bin" with
  | none => none
  | some ec =>
    if tableGroups.all fun g => (firmware (groupFile g)).isSome then some (readFiles ec firmware)
    else none

/-- What is known of the tools that make the flash image, where `layout` is the text of
    `spi_flash_config_all.json`: `fiptool` leaves no empty file, and `cix_package_tool` what
    `package_target_image` makes of the files. -/
structure Tools.Packages (tools : Tools) (layout : Bytes) : Prop where
  fiptool : ∀ k t fip, (tools.fiptool k t).1 = 0 →
    (tools.fiptool k t).2.read ⟨.tempFirmwares k, "bootloader3.img"⟩ = some fip → fip ≠ []
  cixPackageTool : ∀ k t image, t.read ⟨.temp k, "spi_flash_config_all.json"⟩ = some layout →
    (tools.cixPackageTool k .all t).1 = 0 →
      (tools.cixPackageTool k .all t).2.read ⟨.temp k, FlashFile.name k .all⟩ = some image →
        (packageFiles (stagedFirmware k t)).bind packageTargetImage = some image

section Files

variable {k : KeyType} {t t' : Workspace} {files : PackageFiles}

theorem packageFiles_group (h : packageFiles (stagedFirmware k t) = some files) {g : ImageHeader}
    (hg : g ∈ tableGroups) : t.read ⟨.tempFirmwares k, groupFile g⟩ = some (files.group g) := by
  unfold packageFiles at h
  split at h
  next => cases h
  next =>
    split at h
    next hall =>
      obtain ⟨file, hfile⟩ := Option.isSome_iff_exists.mp (List.all_eq_true.mp hall g hg)
      have hgroup : files.group g = file := by
        rw [← Option.some.inj h]
        exact congrArg (Option.getD · []) hfile
      rw [hgroup]
      exact hfile
    next => cases h

theorem groupFile_group (kind : ConfigKind) : groupFile kind.group = kind.file := by
  cases kind <;> rfl

/-- The image of a configuration is not changed where it is written. -/
theorem fixedImage_group (kind : ConfigKind) (image : Bytes) :
    fixedImage kind.group image = image := by
  cases kind <;> exact if_neg (by decide)

/-- The files of a run, and the flash image that is made of them. -/
theorem Leaves.packaged {tools : Tools} {staged : String → Option Bytes}
    {layoutOf : FlashFile → Option Bytes} {layout : Bytes}
    (hleaves : Leaves tools k staged layoutOf t') (hpackages : tools.Packages layout)
    (hlayout : layoutOf .all = some layout) :
    ∃ base files, t'.read ⟨.out, FlashFile.name k .all⟩ = some base ∧
      packageFiles (stagedFirmware k t') = some files ∧ packageTargetImage files = some base ∧
      Packaged base := by
  obtain ⟨t₀, base, hfirmwares, hconfig, hstatus, hmade, -, hout⟩ := hleaves.flash .all
  obtain ⟨t₁, fip, hfip, hleft, hread⟩ := hleaves.bootloader3
  have hpackaged := hpackages.cixPackageTool k t₀ base (hconfig.trans hlayout) hstatus hmade
  obtain ⟨files, hfiles, hbase⟩ := Option.bind_eq_some_iff.mp hpackaged
  have hsame : stagedFirmware k t₀ = stagedFirmware k t' := funext hfirmwares
  rw [hsame] at hfiles
  refine ⟨base, files, hout, hfiles, hbase, ?_⟩
  refine (packageTargetImage_packaged hbase fun g hg => ?_).1
  have hgroup : tableGroups.getLast? = some ⟨7, 0x406000, 0x229000⟩ := by decide
  obtain rfl := Option.some.inj (hgroup.symm.trans hg)
  have hlast := packageFiles_group hfiles (List.mem_of_getLast? hg)
  obtain rfl : fip = files.group _ := Option.some.inj (hread.symm.trans hlast)
  exact hpackages.fiptool k t₁ _ hfip hleft

/-- What the reader of a configuration gets from the slot that was packaged with it. -/
theorem readsBack_packaged {Ptr : Type} [DecidableEq Ptr] {kind : ConfigKind} {g : Generator Ptr}
    {base : Bytes} (hfiles : packageFiles (stagedFirmware k t) = some files)
    (hbase : packageTargetImage files = some base) (hsuits : g.Suits kind) (hv : g.config.Valid)
    (hfile : t.read ⟨.tempFirmwares k, kind.file⟩ = some g.config.image) :
    g.config.ReadsBack (Span.read base kind.group.address kind.group.size) := by
  have hgroup := mem_tableGroups.mpr kind.group_mem
  have hread := packageFiles_group hfiles hgroup
  rw [groupFile_group] at hread
  have himage : files.group kind.group = g.config.image :=
    Option.some.inj (hread.symm.trans hfile)
  have hfront := read_target_image hbase hgroup
  rw [fixedImage_group, himage] at hfront
  have hfits := (packageTargetImage_eq_some hbase).2 _ hgroup
  rw [himage] at hfits
  rw [← Nat.add_sub_cancel' hfits, Span.read_add, hfront]
  exact Config.readsBack_image hsuits.admissible hv _

end Files

-- ---------------------------------------------------------------------------
-- In the field
-- ---------------------------------------------------------------------------

section Release

variable {Ptr : Type} [DecidableEq Ptr] {Path : Type} [DecidableEq Path] {tools : Tools}
  {machine : Machine} {t t' : Workspace} {arg : String} {s : Settings} {layout : Bytes}
  {compiler : Compiler Ptr}

/-- **From the build to the field.** Take the flash image of a key type that a run has left, and
    update it in place with the generators and the replacement script, in whatever order and
    as often as one likes. No run faults, the image stays a packaged one, and what is read
    from the slot of each configuration is at every time the last one that was placed, or the
    one that was compiled in the build; a valid one in either case. -/
theorem buildAndPackage_field (hc : tools.Confined) (hmake : tools.Makefiles compiler)
    (hsuits : compiler.Suits) (hrefuses : compiler.RefusesGuid) (hpackages : tools.Packages layout)
    (hs : Settings.ofProject? (if arg = "" then "Merak" else arg) = some s)
    (hlayout : layoutFile s.pathProject t .all = some layout)
    (h : buildAndPackage tools machine arg t = .ok () t') (k : KeyType) :
    ∃ base, t'.read ⟨.out, FlashFile.name k .all⟩ = some base ∧ Packaged base ∧
      ∀ (w : Workbench Path) (files : Files Path) (steps : List (Step Path Ptr)),
        files w.flash = some base → (∀ kind, files (w.file kind) = none) →
        (∀ step ∈ steps, w.Admits files step) →
          ∃ now out, w.run files steps = .ok now ∧ now w.flash = some out ∧ Packaged out ∧
            ∀ kind, t.hasDir (.project s.pathProject (ConfigKind.dir kind)) →
              ¬ t.has ⟨.project s.pathProject .firmwares, kind.file⟩ →
                ∃ c, (((State.after files steps).placed kind).getLast? = some c ∨
                    (State.after files steps).placed kind = [] ∧
                      ∃ l g, configDir tools s.pathProject kind t k = some l ∧
                        compiler k kind l = some g ∧ g.config = c) ∧
                  c.kind = kind ∧ c.Valid ∧
                  c.ReadsBack (Span.read out kind.group.address kind.group.size) := by
  obtain ⟨s', hs', hleaves⟩ := (wp_of_ok h).mp (wp_buildAndPackage hc machine arg t)
  obtain rfl := Option.some.inj (hs.symm.trans hs')
  obtain ⟨base, packed, hbase, hpacked, htarget, hpackaged⟩ :=
    (hleaves k).1.packaged hpackages hlayout
  refine ⟨base, hbase, hpackaged, fun w files steps hflash hfresh hsteps => ?_⟩
  obtain ⟨now, hrun, hrepresents⟩ := w.run_represents hflash hpackaged hfresh hsteps
  obtain ⟨out, hout, houtpackaged, hslot, hplaced⟩ := hrepresents.slots
  refine ⟨now, out, hrun, hout, houtpackaged, fun kind hdir hoverride => ?_⟩
  cases hstate : ((State.after files steps).placed kind).getLast? with
  | some c =>
    obtain ⟨hkind, hv, -, hback⟩ := hplaced kind c hstate
    exact ⟨c, Or.inl rfl, hkind, hv, hback⟩
  | none =>
    have hnil := List.getLast?_eq_none_iff.mp hstate
    obtain ⟨l, g, hl, hg, hor⟩ :=
      (hleaves k).1.configures hmake hsuits ((hleaves k).2 kind) hdir hoverride
    obtain ⟨hv, himage⟩ := hrefuses.made hg hor
    have hsuit := hsuits k kind l g hg
    have hkept : Span.read out kind.group.address kind.group.size =
        Span.read base kind.group.address kind.group.size := by
      obtain ⟨j, hj⟩ := List.mem_iff_getElem?.mp (mem_tableGroups.mpr kind.group_mem)
      have harea := hslot kind j hj
      have hnone : (steps.foldl (State.next files) State.initial).placed kind = [] := hnil
      rw [hnone] at harea
      exact congrArg Area.bytes harea
    refine ⟨g.config, Or.inr ⟨hnil, l, g, hl, hg, rfl⟩, hsuit.kind, hv, ?_⟩
    rw [hkept]
    exact readsBack_packaged hpacked htarget hsuit hv himage

end Release

-- ---------------------------------------------------------------------------
-- A tool that packages
-- ---------------------------------------------------------------------------

/-- There is room for the file in the flash image. -/
def RoomFor (name : String) (file : Bytes) : Prop :=
  (name = "ec_fw.bin" → file.length ≤ firmwareHeaderAddr - ecRecord.offset) ∧
    ∀ g ∈ tableGroups, groupFile g = name → file.length ≤ g.size

theorem roomFor_dummy : RoomFor "dummy.bin" (List.replicate 8192 0xFF) := by
  have hsize : ∀ g ∈ tableGroups, groupFile g = "dummy.bin" → 8192 ≤ g.size := by decide
  refine ⟨fun h => absurd h (by decide), fun g hg hname => ?_⟩
  rw [List.length_replicate]
  exact hsize g hg hname

theorem roomFor_short (name : String) (file : Bytes) (h : file.length ≤ 1) : RoomFor name file := by
  have hsize : ∀ g ∈ tableGroups, 1 ≤ g.size := by decide
  exact ⟨fun _ => h.trans (by decide), fun g hg _ => h.trans (hsize g hg)⟩

theorem roomFor_image (k : KeyType) (kind : ConfigKind) :
    RoomFor kind.file (sampleGenerators 0 k kind).config.image := by
  have hsuits := sampleGenerators_suits 0 k kind
  have hfits := Config.length_image_le hsuits.admissible (sampleGenerators_valid 0 k kind)
  rw [hsuits.kind] at hfits
  have hgroup : kind.file ≠ "ec_fw.bin" ∧
      ∀ g ∈ tableGroups, groupFile g = kind.file → g = kind.group := by
    cases kind <;> decide
  refine ⟨fun h => absurd h hgroup.1, fun g hg hname => ?_⟩
  rw [hgroup.2 g hg hname]
  exact hfits

theorem exists_packageTargetImage {k : KeyType} {t : Workspace}
    (h : HoldsAll RoomFor (.tempFirmwares k) FlashFile.all.firmwares t) :
    ∃ image, (packageFiles (stagedFirmware k t)).bind packageTargetImage = some image := by
  have hnames : ∀ g ∈ tableGroups, groupFile g ∈ FlashFile.all.firmwares := by decide
  obtain ⟨ec, hec, hroom⟩ := h "ec_fw.bin" (by decide)
  have hall : (tableGroups.all fun g => (stagedFirmware k t (groupFile g)).isSome) = true :=
    List.all_eq_true.mpr fun g hg => h.has (hnames g hg)
  have hread : stagedFirmware k t "ec_fw.bin" = some ec := hec
  have hfiles : packageFiles (stagedFirmware k t) = some (readFiles ec (stagedFirmware k t)) := by
    simp only [packageFiles, hread, hall, if_true]
  refine ⟨Span.writeParts 0 [] (targetParts (readFiles ec (stagedFirmware k t))), ?_⟩
  rw [hfiles, Option.bind_some, packageTargetImage, if_neg]
  rintro (hlong | ⟨g, hg, hlong⟩)
  · exact absurd (hroom.1 rfl) (Nat.not_le_of_lt hlong)
  · obtain ⟨file, hfile, hfits⟩ := h _ (hnames g hg)
    have hgroup := Option.some.inj (hfile.symm.trans (packageFiles_group hfiles hg))
    rw [← hgroup] at hlong
    exact absurd (hfits.2 g hg rfl) (Nat.not_le_of_lt hlong)

/-- `cix_package_tool` with `spi_flash_config_all.json`. -/
def packageCommand (k : KeyType) : Command Workspace := fun t =>
  match t (.temp k), (packageFiles (stagedFirmware k t)).bind packageTargetImage with
  | some l, some image =>
    if t.has ⟨.temp k, "spi_flash_config_all.json"⟩ then
      (0, t.setDir (.temp k) (l.write (FlashFile.name k .all) image))
    else (1, t)
  | _, _ => (1, t)

/-- The tools with the makefiles, and one that makes the flash image out of what was staged. -/
def releaseTools : Tools :=
  { makefileTools 0 with
    cixPackageTool := fun k f =>
      match f with
      | .all => packageCommand k
      | .ota => sampleTools.cixPackageTool k .ota }

theorem writes_packageCommand (k : KeyType) :
    Command.Writes {⟨.temp k, FlashFile.name k .all⟩} (packageCommand k) := by
  intro t
  unfold packageCommand
  split
  next l image hl _ =>
    split
    next =>
      refine Tree.agreesOff_setDir_file
        (p := (⟨.temp k, FlashFile.name k .all⟩ : Shell.Path Dir)) rfl hl ?_
      intro name hne
      simp [hne]
    next => exact .refl _ t
  next => exact .refl _ t

theorem makes_packageCommand (k : KeyType) : Command.Makes (packageCommand k)
    (fun t => t.Holds RoomFor ⟨.temp k, FlashFile.config .all⟩ ∧
      HoldsAll RoomFor (.tempFirmwares k) (FlashFile.firmwares .all) t)
    (fun t => t.has ⟨.temp k, FlashFile.name k .all⟩) := by
  have hrun : ∀ t : Workspace, t.Holds RoomFor ⟨.temp k, FlashFile.config .all⟩ ∧
      HoldsAll RoomFor (.tempFirmwares k) (FlashFile.firmwares .all) t → ∃ (l : Listing Bytes) (image : Bytes),
        packageCommand k t = (0, t.setDir (.temp k) (l.write (FlashFile.name k .all) image)) := by
    rintro t ⟨hlayout, hfirmwares⟩
    obtain ⟨l, hl⟩ := exists_of_hasDir (hasDir_of_has hlayout.has)
    obtain ⟨image, himage⟩ := exists_packageTargetImage hfirmwares
    refine ⟨l, image, ?_⟩
    have hthere : t.has ⟨.temp k, "spi_flash_config_all.json"⟩ = true := hlayout.has
    simp only [packageCommand, hl, himage, hthere, if_true]
  constructor
  · intro t ht
    obtain ⟨l, image, h⟩ := hrun t ht
    rw [h]
  · intro t
    unfold packageCommand
    split
    next =>
      split
      next => exact keepsDirs_setDir _ _ _
      next => exact fun _ hd => hd
    next => exact fun _ hd => hd
  · intro t ht
    obtain ⟨l, image, h⟩ := hrun t ht
    rw [h]
    simp [Tree.has]

theorem releaseTools_confined : releaseTools.Confined :=
  { makefileTools_confined 0 with
    cixPackageTool := fun k f =>
      match f with
      | .all => writes_packageCommand k
      | .ota => sampleTools_confined.cixPackageTool k .ota }

theorem releaseTools_work :
    releaseTools.Work RoomFor (fun kind l => hasSource kind l = true) :=
  { makefileTools_work 0 roomFor_dummy roomFor_short roomFor_image with
    cixPackageTool := fun k f =>
      match f with
      | .all => makes_packageCommand k
      | .ota => (sampleTools_work roomFor_dummy roomFor_short).cixPackageTool k .ota }

theorem releaseTools_packages (layout : Bytes) : releaseTools.Packages layout where
  fiptool k t fip hstatus hfip := by
    have hmade : releaseTools.fiptool k = makeFiles
        (⟨.out, "SKY1_BL33_UEFI.fd"⟩ :: certNames.map fun name => ⟨.tempCerts k, name⟩)
        (.tempFirmwares k) [("bootloader3.img", [6])] := rfl
    rw [hmade] at hstatus hfip
    unfold makeFiles at hstatus hfip
    cases hl : t (.tempFirmwares k) with
    | none =>
      simp only [hl] at hstatus
      exact absurd hstatus (by decide)
    | some l =>
      simp only [hl] at hstatus hfip
      split at hstatus
      next hinputs =>
        rw [if_pos hinputs, Tree.read_setDir_self, Listing.read_append] at hfip
        rw [← Option.some.inj hfip]
        exact List.cons_ne_nil _ _
      next => exact absurd (show (1 : UInt8) = 0 from hstatus) (by decide)
  cixPackageTool k t image _ hstatus himage := by
    have hmade : releaseTools.cixPackageTool k .all = packageCommand k := rfl
    rw [hmade] at hstatus himage
    unfold packageCommand at hstatus himage
    cases hl : t (.temp k) with
    | none =>
      simp only [hl] at hstatus
      exact absurd hstatus (by decide)
    | some l =>
      cases hpack : (packageFiles (stagedFirmware k t)).bind packageTargetImage with
      | none =>
        simp only [hl, hpack] at hstatus
        exact absurd hstatus (by decide)
      | some packed =>
        simp only [hl, hpack] at hstatus himage
        split at hstatus
        next hlayout =>
          rw [if_pos hlayout, Tree.read_setDir_self, Listing.read_write, if_pos rfl] at himage
          exact himage
        next => exact absurd (show (1 : UInt8) = 0 from hstatus) (by decide)

theorem exists_ok_releaseTools :
    ∃ t', buildAndPackage releaseTools .other "O6" sampleWorkspace = .ok () t' :=
  (exists_ok_buildAndPackage releaseTools_confined releaseTools_work
    (s := sampleSettings) rfl rfl (stocked_sampleWorkspace roomFor_short _)
    (fit_sampleWorkspace _)).mpr ⟨_, rfl⟩

/-- An update of the TrustZone configuration. -/
def sampleSteps : List (Step String Bool) :=
  [.generate (.trustzone (some TrustZone.trustzoneConfig) 0), .update .trustzone]

theorem placed_sampleSteps (files : Files String) :
    (State.after files sampleSteps).placed .csuPm = [] := by
  let c : Config Bool := .trustzone (some TrustZone.trustzoneConfig) 0
  have hv : c.Valid := sampleGenerators_valid 0 .pr .trustzone
  have hstaged : (State.initial.stage c).staged .trustzone = some c := State.stage_staged _ c
  show ((State.initial.next files (.generate c)).next files (.update .trustzone)).placed .csuPm =
    []
  have hne : ConfigKind.csuPm ≠ .trustzone := by decide
  rw [State.next_generate_valid hv, State.next_update_some hstaged, State.place]
  simp only [Function.update_of_ne hne]
  rfl

/-- The PM configuration of the build is read after that update. -/
theorem buildAndPackage_field_sample :
    ∃ t' now out, buildAndPackage releaseTools .other "O6" sampleWorkspace = .ok () t' ∧
      namedFiles.run (fun path => if path = "flash.bin" then
          t'.read ⟨.out, "cix_flash_all.bin"⟩ else none) sampleSteps = .ok now ∧
      now "flash.bin" = some out ∧
      PmConfig.ReadsBack PmConfig.sampleConfig 0 (Span.read out 0x404000 0x1000) := by
  obtain ⟨t', hrun⟩ := exists_ok_releaseTools
  obtain ⟨base, hbase, -, hfield⟩ := @buildAndPackage_field Bool _ String _ _ _ _ _ _ _ _ _
    releaseTools_confined (makefileTools_makefiles 0) (sampleCompiler_suits 0)
    (sampleCompiler_refusesGuid 0) (releaseTools_packages [])
    (show _ = some sampleSettings from rfl) rfl hrun .pr
  have hsteps : ∀ step ∈ sampleSteps, namedFiles.Admits (fun path =>
      if path = "flash.bin" then t'.read ⟨.out, "cix_flash_all.bin"⟩ else none) step := by
    simp only [sampleSteps, List.forall_mem_cons]
    exact ⟨trivial, trivial, fun _ h => absurd h List.not_mem_nil⟩
  obtain ⟨now, out, hnow, hout, -, hslots⟩ := hfield namedFiles _ sampleSteps
    ((if_pos rfl).trans hbase) (fun kind => if_neg (namedFiles.file_ne_flash kind)) hsteps
  obtain ⟨c, hc, -, -, hback⟩ := hslots .csuPm rfl (by decide)
  refine ⟨t', now, out, hrun, hnow, hout, ?_⟩
  rw [placed_sampleSteps] at hc
  obtain hplaced | ⟨-, l, g, -, hg, rfl⟩ := hc
  · cases hplaced
  · obtain rfl := sampleCompiler_eq 0 hg
    exact hback

end PackageTool
