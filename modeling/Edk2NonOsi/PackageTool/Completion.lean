-- SUMMARY: How runs of `build_and_package.sh` end: what lets them go through, why none does on `aarch64`, what they leave and touch.
import Edk2NonOsi.PackageTool.Packaging

open Shell

namespace PackageTool

-- ---------------------------------------------------------------------------
-- A workspace with one file of each sort
-- ---------------------------------------------------------------------------

/-- A tool that makes these files in a directory, where the files are that it reads. -/
def makeFiles (inputs : List (Path Dir)) (d : Dir) (files : Listing Bytes) : Command Workspace :=
  fun t =>
    match t d with
    | some l => if inputs.all t.has then (0, t.setDir d (files ++ l)) else (1, t)
    | none => (1, t)

theorem writes_makeFiles {inputs : List (Path Dir)} {d : Dir} {file : String × Bytes}
    {files : Listing Bytes} {W : Set (Path Dir)}
    (h : ∀ name, (Listing.read (file :: files) name).isSome → ⟨d, name⟩ ∈ W) :
    Command.Writes W (makeFiles inputs d (file :: files)) := by
  intro t
  unfold makeFiles
  split
  next l hl =>
    split
    next =>
      constructor
      · intro d' hd'
        refine Tree.setDir_of_ne _ ?_ _
        rintro rfl
        exact hd' file.1 (h file.1 (by simp [Listing.read_cons]))
      · rintro ⟨d', name⟩ hq
        by_cases hd : d' = d
        · subst hd
          have hnone : Listing.read (file :: files) name = none := by
            by_contra hsome
            exact hq (h name (Option.isSome_iff_ne_none.mpr hsome))
          rw [Tree.read_setDir_self, Listing.read_append, hnone, Option.none_or,
            Tree.read_eq (p := ⟨d', name⟩) hl]
        · exact Tree.read_setDir_of_ne _ hd _
    next => exact .refl W t
  next => exact .refl W t

theorem makes_makeFiles {usable : String → Bytes → Prop} {inputs : List (Path Dir)} {d : Dir}
    {files : Listing Bytes} {names : List String} {needs : Workspace → Prop}
    (hneeds : ∀ t, needs t → t.hasDir d ∧ ∀ q ∈ inputs, t.has q)
    (hfiles : ∀ name file, files.read name = some file → usable name file)
    (hnames : ∀ t, needs t → ∀ name ∈ names,
      (files.read name).isSome ∨ t.Holds usable ⟨d, name⟩) :
    Command.Makes (makeFiles inputs d files) needs (HoldsAll usable d names) where
  succeeds t ht := by
    obtain ⟨hdir, hinputs⟩ := hneeds t ht
    obtain ⟨l, hl⟩ := exists_of_hasDir hdir
    rw [makeFiles, hl]
    simp [List.all_eq_true.mpr hinputs]
  keepsDirs t := by
    unfold makeFiles
    split
    next =>
      split
      next => exact keepsDirs_setDir _ _ _
      next => exact fun _ hd => hd
    next => exact fun _ hd => hd
  leaves t ht name hname := by
    obtain ⟨hdir, hinputs⟩ := hneeds t ht
    obtain ⟨l, hl⟩ := exists_of_hasDir hdir
    have hmade : (makeFiles inputs d files t).2 = t.setDir d (files ++ l) := by
      rw [makeFiles, hl]
      simp [List.all_eq_true.mpr hinputs]
    rw [hmade, Tree.Holds, Tree.read_setDir_self, Listing.read_append]
    cases hfile : files.read name with
    | some file => exact ⟨file, rfl, hfiles name file hfile⟩
    | none =>
      obtain hsome | ⟨file, hread, hgood⟩ := hnames t ht name hname
      · rw [hfile] at hsome
        cases hsome
      · rw [Tree.read_eq (p := ⟨d, name⟩) hl] at hread
        exact ⟨file, by rw [hread, Option.none_or], hgood⟩

/-- What the makefile of a configuration compiles. -/
def ConfigKind.source : ConfigKind → String
  | .memory => "MemConfigBinTool.c"
  | .csuPm => "csupm_bin_config.c"
  | .trustzone => "trustzone_bin_config.c"

/-- There is something to run `make` on. -/
def hasSource (kind : ConfigKind) (l : Listing Bytes) : Bool :=
  (l.read "Makefile").isSome && (l.read kind.source).isSome

theorem hasSource_write (kind : ConfigKind) (l : Listing Bytes) (file : Bytes) :
    hasSource kind (l.write kind.file file) = hasSource kind l := by
  cases kind <;> simp [hasSource, ConfigKind.source, ConfigKind.file]

def keyFiles (k : KeyType) : List (Path Dir) :=
  keyNames.map fun name => ⟨.tempKeys k, name⟩

/-- Tools that leave files of one byte, where they find what they need. -/
def sampleTools : Tools where
  updateSubmodules t := (0, t)
  makeBaseTools t := (0, t)
  makeAcpica t := (0, t)
  edksetup t := (0, t)
  build s t := (0, t.setDir (fvDir s.uefiProject) [("SKY1_BL33_UEFI.fd", [1])])
  genAblCap := makeFiles [] .sky1Abl [("LinuxLoader.efi.cap", [2])]
  make _ kind l := if hasSource kind l then (0, l.write kind.file [3]) else (2, l)
  cixRegenTrustedKeyCert k := makeFiles (keyFiles k) (.tempCerts k) [("trusted_key_no.crt", [4])]
  certUefiCreateRsa k := makeFiles (⟨.out, "SKY1_BL33_UEFI.fd"⟩ :: keyFiles k) (.tempCerts k)
    [("nt_fw_key.crt", [5]), ("nt_fw_cert.crt", [5])]
  fiptool k := makeFiles
    (⟨.out, "SKY1_BL33_UEFI.fd"⟩ :: certNames.map fun name => ⟨.tempCerts k, name⟩)
    (.tempFirmwares k) [("bootloader3.img", [6])]
  cixPackageTool k f := makeFiles
    (⟨.temp k, f.config⟩ :: f.firmwares.map fun name => ⟨.tempFirmwares k, name⟩)
    (.temp k) [(f.name k, [7])]

def sampleWorkspace : Workspace
  | .edk2 "" => some []
  | .workspace "edk2-platforms" => some []
  | .packageTool => some [("build_and_package.sh", []), ("cert_uefi_create_rsa", []),
      ("cix_package_tool", []), ("fiptool", []), ("cix_regen_trusted_key_cert", []),
      ("spi_flash_config_all.json", []), ("spi_flash_config_ota.json", [])]
  | .packageToolFirmwares => some [("bootloader1.img", [11]), ("bootloader2.img", [12]),
      ("csu_pm_config.bin", [13]), ("ec_fw.bin", [14]), ("memory_config.bin", [15]),
      ("se_config.bin", [16]), ("sfh_fw.bin", [17]), ("trustzone_config.bin", [18])]
  | .packageToolFirmwares2 => some [("bootloader1.img", [21]), ("bootloader2.img", [22]),
      ("sfh_fw.bin", [23])]
  | .packageToolKeys => some [("oem_publickey.pem", [31]), ("oem_privatekey.pem", [32])]
  | .project _ .pmConfig => some [("Makefile", []), ("csupm_bin_config.c", [])]
  | _ => none

/-- The settings of `O6`. -/
def sampleSettings : Settings where
  uefiProject := "O6"
  uefiProjectPath := "Platform/Radxa/Orion"
  fastbootLoadType := "nvme"

theorem sampleTools_confined : sampleTools.Confined where
  updateSubmodules t := .refl _ t
  makeBaseTools t := .refl _ t
  makeAcpica t := .refl _ t
  edksetup t := .refl _ t
  build s t := by
    refine Tree.agreesOff_setDir ?_ _
    intro q hq
    have hdir : q.dir = fvDir s.uefiProject := hq
    left
    rw [hdir]
    rfl
  genAblCap := writes_makeFiles (by simp)
  cixRegenTrustedKeyCert k := writes_makeFiles (by simp)
  certUefiCreateRsa k := writes_makeFiles (by simp)
  fiptool k := writes_makeFiles (by simp [Listing.read_cons])
  cixPackageTool k f := writes_makeFiles (by simp [Listing.read_cons])

theorem HoldsAll.has {usable : String → Bytes → Prop} {d : Dir} {names : List String}
    {t : Workspace} (h : HoldsAll usable d names t) {name : String} (hname : name ∈ names) :
    t.has ⟨d, name⟩ :=
  (h name hname).has

theorem hasDir_of_has {t : Workspace} {q : Path Dir} (h : t.has q) : t.hasDir q.dir := by
  obtain ⟨file, hfile⟩ := Option.isSome_iff_exists.mp h
  obtain ⟨l, hl, -⟩ := Option.bind_eq_some_iff.mp hfile
  rw [Tree.hasDir, hl]
  rfl

section Usable

variable {usable : String → Bytes → Prop} (hdummy : usable "dummy.bin" (List.replicate 8192 0xFF))
  (hshort : ∀ name file, file.length ≤ 1 → usable name file)

include hshort in
theorem usable_of_read {files : Listing Bytes} (hfiles : ∀ e ∈ files, e.2.length ≤ 1)
    {name : String} {file : Bytes} (h : files.read name = some file) : usable name file := by
  induction files with
  | nil => cases h
  | cons e files ih =>
    rw [Listing.read_cons] at h
    split at h
    next =>
      rw [← Option.some.inj h]
      exact hshort name e.2 (hfiles e List.mem_cons_self)
    next => exact ih (fun e' he' => hfiles e' (List.mem_cons_of_mem e he')) h

include hdummy hshort in
theorem sampleTools_work : sampleTools.Work usable (fun kind l => hasSource kind l = true) where
  build s t image _ hread := by
    have hbuild : (sampleTools.build s t).2.read ⟨fvDir s.uefiProject, "SKY1_BL33_UEFI.fd"⟩ =
        some [1] := Tree.read_setDir_self _ _ _ _
    rw [hbuild] at hread
    rw [← Option.some.inj hread]
    exact hshort _ _ le_rfl
  dummy := hdummy
  make k kind l hl := by
    have hmake : sampleTools.make k kind l = (0, l.write kind.file [3]) := if_pos hl
    rw [hmake]
    exact ⟨rfl, (hasSource_write kind l _).trans hl, [3], by simp, hshort _ _ le_rfl⟩
  cixRegenTrustedKeyCert k := by
    refine makes_makeFiles (fun t ht => ⟨ht.2, ?_⟩)
      (fun name file => usable_of_read hshort (by simp)) (by simp [Listing.read_cons])
    simpa [keyFiles] using fun name hname => ht.1.has hname
  certUefiCreateRsa k := by
    refine makes_makeFiles (fun t ht => ⟨hasDir_of_has (ht.2.2.has (List.mem_singleton_self _)), ?_⟩)
      (fun name file => usable_of_read hshort (by simp)) ?_
    · simpa [keyFiles] using ⟨ht.2.1.has, fun name hname => ht.1.has hname⟩
    · simp only [certNames]
      intro t ht name hname
      fin_cases hname
      · exact Or.inr (ht.2.2 _ (List.mem_singleton_self _))
      · exact Or.inl rfl
      · exact Or.inl rfl
  fiptool k := by
    refine makes_makeFiles (fun t ht => ⟨ht.2.2, ?_⟩)
      (fun name file => usable_of_read hshort (by simp)) (by simp [Listing.read_cons])
    simpa using ⟨ht.2.1.has, fun name hname => ht.1.has hname⟩
  cixPackageTool k f := by
    have hmakes : Command.Makes (sampleTools.cixPackageTool k f)
        (fun t => t.Holds usable ⟨.temp k, f.config⟩ ∧
          HoldsAll usable (.tempFirmwares k) f.firmwares t)
        (HoldsAll usable (.temp k) [f.name k]) := by
      refine makes_makeFiles (fun t ht => ⟨hasDir_of_has ht.1.has, ?_⟩)
        (fun name file => usable_of_read hshort (by simp)) (by simp [Listing.read_cons])
      simpa using ⟨ht.1.has, fun name hname => ht.2.has hname⟩
    exact ⟨hmakes.succeeds, hmakes.keepsDirs,
      fun t ht => (hmakes.leaves t ht _ (List.mem_singleton_self _)).has⟩

theorem sampleTools_work_all :
    sampleTools.Work (fun _ _ => True) (fun kind l => hasSource kind l = true) :=
  sampleTools_work trivial fun _ _ _ => trivial

theorem short_sampleWorkspace {d : Dir} {l : Listing Bytes} (h : sampleWorkspace d = some l) :
    ∀ e ∈ l, e.2.length ≤ 1 := by
  unfold sampleWorkspace at h
  split at h <;> cases h <;> simp

include hshort in
theorem stocked_sampleWorkspace (p : PathProject) : Stocked usable p sampleWorkspace where
  files := by decide
  projectFirmwares h := by cases h
  usable q file _ hread := by
    obtain ⟨l, hl, hfile⟩ := Option.bind_eq_some_iff.mp hread
    exact usable_of_read hshort (short_sampleWorkspace hl) hfile

end Usable

-- ---------------------------------------------------------------------------
-- Whole runs
-- ---------------------------------------------------------------------------

section Script

variable {usable : String → Bytes → Prop} {fit : ConfigKind → Listing Bytes → Prop}
  {tools : Tools} {t : Workspace} {arg : String} {s : Settings}

/-- After a build that goes through, everything is in place. -/
theorem ready_of_build (hc : tools.Confined) (hwork : tools.Work usable fit)
    (hstock : Stocked usable s.pathProject t)
    (hfit : ∀ kind l, t (.project s.pathProject (ConfigKind.dir kind)) = some l → fit kind l)
    {t₁ : Workspace} (h : execBuildUefi tools s (prepareOutput t) = .ok () t₁) :
    Ready usable fit s.pathProject t₁ := by
  have hagree : Tree.AgreesOff buildFiles (prepareOutput t) t₁ := (writes_execBuildUefi hc s).of_ok h
  have huefi : HoldsUefi usable t₁ :=
    (wp_of_ok h).mp (wp_execBuildUefi s (hwork.build s) hc.genAblCap _)
  have hbuild : ∀ d : Dir, d.isBuild = false → d.isPrepared = false → d ≠ .sky1Abl → d ≠ .out →
      t₁ d = prepareOutput t d := by
    intro d hb hp habl hout
    refine hagree.dir d fun name hname => ?_
    rcases hname with ((hd | hd) | hd) | hd | hd
    · exact absurd hd (by simp [hb])
    · exact absurd hd (by simp [hp])
    · exact habl hd
    · exact hout (congrArg Path.dir hd)
    · exact hout (congrArg Path.dir hd)
  have hkept : ∀ d : Dir, d.inOut = false → prepareOutput t d = t d := by
    intro d hd
    simp [prepareOutput_apply, hd]
  constructor
  · refine hstock.of_source fun d hd => ?_
    obtain ⟨hout, hb, hp, habl, -⟩ := isSource_ne hd
    refine (hbuild d hb hp habl ?_).trans (hkept d hout)
    rintro rfl
    cases hout
  · intro kind l hl
    rw [hbuild _ rfl rfl (by simp) (by simp), hkept _ rfl] at hl
    exact hfit kind l hl
  · intro d hd
    by_cases hout : d = .out
    · subst hout
      exact hasDir_of_has huefi.has
    · rw [Tree.hasDir, hbuild d (by cases d <;> first | rfl | cases hd)
        (by cases d <;> first | rfl | cases hd) (by rintro rfl; cases hd) hout, prepareOutput_apply,
        if_pos hd]
      rfl
  · exact huefi

/-- A run for a project that there is. -/
theorem buildAndPackage_eq {machine : Machine}
    (hs : Settings.ofProject? (if arg = "" then "Merak" else arg) = some s)
    (hscript : t.has ⟨.packageTool, "build_and_package.sh"⟩) :
    buildAndPackage tools machine arg t = (do
      execBuildUefi tools s
      execCixMkimage tools machine s .pr
      execCixMkimage tools machine s .pr2) (prepareOutput t) := by
  have hrequire : require ⟨.packageTool, "build_and_package.sh"⟩ t = .ok () t := by
    simp [require, when, hscript]
  simp only [buildAndPackage, bind, EStateM.bind, hrequire, update, hs]

/-- With everything in its place, the script goes through on a machine that is not `aarch64`
    where the build does. -/
theorem exists_ok_buildAndPackage (hc : tools.Confined) (hwork : tools.Work usable fit)
    (hs : Settings.ofProject? (if arg = "" then "Merak" else arg) = some s)
    (hscript : t.has ⟨.packageTool, "build_and_package.sh"⟩) (hstock : Stocked usable s.pathProject t)
    (hfit : ∀ kind l, t (.project s.pathProject (ConfigKind.dir kind)) = some l → fit kind l) :
    (∃ t', buildAndPackage tools .other arg t = .ok () t') ↔
      ∃ t₁, execBuildUefi tools s (prepareOutput t) = .ok () t₁ := by
  rw [buildAndPackage_eq hs hscript]
  constructor
  · rintro ⟨t', h⟩
    cases hbuild : execBuildUefi tools s (prepareOutput t) with
    | ok a t₁ => exact ⟨t₁, rfl⟩
    | error status t₁ =>
      simp only [bind, EStateM.bind, hbuild] at h
      cases h
  · rintro ⟨t₁, hbuild⟩
    have hruns : Script.Runs (Ready usable fit s.pathProject) (do
        execCixMkimage tools .other s .pr
        execCixMkimage tools .other s .pr2) (Ready usable fit s.pathProject) :=
      .bind (runs_execCixMkimage hc hwork s .pr) fun _ => runs_execCixMkimage hc hwork s .pr2
    obtain ⟨_, t', h⟩ := hruns.exists_ok (ready_of_build hc hwork hstock hfit hbuild)
    exact ⟨t', (bind_of_ok hbuild).trans h⟩

theorem fit_sampleWorkspace (p : PathProject) (kind : ConfigKind) (l : Listing Bytes)
    (hl : sampleWorkspace (.project p kind.dir) = some l) : hasSource kind l = true := by
  cases kind with
  | memory => cases hl
  | csuPm =>
    obtain rfl := Option.some.inj hl
    decide
  | trustzone => cases hl

theorem exists_ok_sample : ∃ t', buildAndPackage sampleTools .other "O6" sampleWorkspace = .ok () t' :=
  (exists_ok_buildAndPackage sampleTools_confined sampleTools_work_all (s := sampleSettings) rfl rfl
    (stocked_sampleWorkspace (fun _ _ _ => trivial) _) (fit_sampleWorkspace _)).mpr ⟨_, rfl⟩

/-- What is staged on `aarch64`, where `cix_regen_trusted_key_cert` is missing. -/
def aarch64Files (p : PathProject) (k : KeyType) : Set (Path Dir) :=
  configFiles p ∪ filesIn (.tempFirmwares k) ∪ filesIn (.tempKeys k) ∪
    {q | q.dir = .temp k ∧ q.name ≠ "cix_regen_trusted_key_cert"}

theorem writes_stage_aarch64 (p : PathProject) (k : KeyType) :
    Script.Writes (aarch64Files p k) (stage tools .aarch64 p k) := by
  have hconfig : configFiles p ⊆ aarch64Files p k := fun q hq => Or.inl (Or.inl (Or.inl hq))
  have hfirmwares : filesIn (.tempFirmwares k) ⊆ aarch64Files p k :=
    fun q hq => Or.inl (Or.inl (Or.inr hq))
  have hkeys : filesIn (.tempKeys k) ⊆ aarch64Files p k := fun q hq => Or.inl (Or.inr hq)
  have htemp : ∀ name, name ≠ "cix_regen_trusted_key_cert" →
      (⟨.temp k, name⟩ : Path Dir) ∈ aarch64Files p k := fun name hname => Or.inr ⟨rfl, hname⟩
  have hcp : ∀ (src : Path Dir) (name : String), name ≠ "cix_regen_trusted_key_cert" →
      Script.Writes (aarch64Files p k) (exec (cp src ⟨.temp k, name⟩) : Script Workspace Unit) :=
    fun src name hname => .exec (writes_cp (htemp name hname))
  rw [stage_eq]
  refine .bind (writes_copyShipped k hfirmwares hkeys) fun _ => ?_
  refine .bind (writes_buildConfigs p k hconfig hfirmwares) fun _ => ?_
  refine .bind (writes_copyProjectFirmwares p k hfirmwares) fun _ => ?_
  refine .bind (writes_require _) fun _ => .bind (writes_require _) fun _ => .bind ?_ fun _ => ?_
  · exact .bind (hcp _ _ (by decide)) fun _ => .bind (hcp _ _ (by decide)) fun _ =>
      hcp _ _ (by decide)
  · exact .bind (hcp _ _ (by decide)) fun _ => .bind (hcp _ _ (by decide)) fun _ =>
      .bind (.when (hcp _ _ (by decide)) _) fun _ => .bind (.when (hcp _ _ (by decide)) _) fun _ =>
        .bind (writes_copyOverride (hkeys rfl)) fun _ => writes_copyOverride (hkeys rfl)

/-- The run for a key type ends at the missing tool at the latest. -/
theorem wp_execCixMkimage_aarch64 (s : Settings) (k : KeyType)
    (hmissing : t.read ⟨.temp k, "cix_regen_trusted_key_cert"⟩ = none) :
    wp (execCixMkimage tools .aarch64 s k) (fun _ _ => False)
      (fun _ t' => Tree.AgreesOff (aarch64Files s.pathProject k) t t') t := by
  rw [execCixMkimage, wp_bind]
  refine (writes_stage_aarch64 s.pathProject k t).mono ?_ fun _ _ h => h
  intro _ t₁ hagree
  have hnone : t₁.has ⟨.temp k, "cix_regen_trusted_key_cert"⟩ = false := by
    rw [Tree.has, hagree.file _ (by simp [aarch64Files, configFiles]), hmissing]
    rfl
  rw [wp_bind, generateBootloader3, wp_bind, wp_exec]
  simp [runTool, hnone, hagree]

/-- **On `aarch64` no run goes through**, whatever is in the workspace and whatever the tools do.
    Where the output directory is made again, no flash image is in it afterwards. -/
theorem buildAndPackage_aarch64 (hc : tools.Confined) (arg : String) (t : Workspace) :
    ∃ status t', buildAndPackage tools .aarch64 arg t = .error status t' ∧
      (t.has ⟨.packageTool, "build_and_package.sh"⟩ →
        ∀ k (f : FlashFile), t'.read ⟨.out, f.name k⟩ = none) := by
  have hrun : wp (buildAndPackage tools .aarch64 arg) (fun _ _ => False)
      (fun _ t' => t.has ⟨.packageTool, "build_and_package.sh"⟩ →
        ∀ k (f : FlashFile), t'.read ⟨.out, f.name k⟩ = none) t := by
    have hnames : ∀ k (f : FlashFile), f.name k ≠ "SKY1_BL33_UEFI.fd" ∧
        f.name k ≠ "LinuxLoader.efi.cap" := by
      intro k f
      cases k <;> cases f <;> decide
    have hempty : ∀ {t₁ : Workspace}, Tree.AgreesOff buildFiles (prepareOutput t) t₁ →
        ∀ k (f : FlashFile), t₁.read ⟨.out, f.name k⟩ = none := by
      intro t₁ hagree k f
      obtain ⟨huefi, hcap⟩ := hnames k f
      rw [hagree.file _ (by simp [buildFiles, Dir.isBuild, Dir.isPrepared, huefi, hcap]), read_prepareOutput rfl]
    rw [buildAndPackage, wp_bind, require, wp_when]
    split
    next h =>
      rw [wp_exit]
      intro hscript
      simp [hscript] at h
    next =>
      rw [wp_bind, wp_update]
      split
      next =>
        rw [wp_exit]
        exact fun _ k f => read_prepareOutput rfl t
      next s hs =>
        rw [wp_bind]
        refine (writes_execBuildUefi hc s (prepareOutput t)).mono ?_ fun _ t₁ h _ => hempty h
        intro _ t₁ hagree
        have hmissing : t₁.read ⟨.temp .pr, "cix_regen_trusted_key_cert"⟩ = none := by
          rw [hagree.file _ (by simp [buildFiles, Dir.isBuild, Dir.isPrepared]), read_prepareOutput rfl]
        rw [wp_bind]
        refine (wp_execCixMkimage_aarch64 s .pr hmissing).mono (fun _ _ h => h.elim) ?_
        intro _ t₂ hagree₂ _ k f
        rw [hagree₂.file _ (by simp [aarch64Files, configFiles]), hempty hagree]
  cases h : buildAndPackage tools .aarch64 arg t with
  | ok a t' => exact ((wp_of_ok h).mp hrun).elim
  | error status t' => exact ⟨status, t', rfl, (wp_of_error h).mp hrun⟩

theorem buildAndPackage_aarch64_sample :
    ∃ status t', buildAndPackage sampleTools .aarch64 "O6" sampleWorkspace = .error status t' ∧
      t'.read ⟨.out, "cix_flash_all.bin"⟩ = none := by
  obtain ⟨status, t', hrun, hnone⟩ :=
    buildAndPackage_aarch64 sampleTools_confined "O6" sampleWorkspace
  exact ⟨status, t', hrun, hnone rfl .pr .all⟩

/-- **A run that goes through.** For each key type, the firmware files from which the flash
    images are packaged are, but for the `bootloader3.img` that is made of the build: the
    files of the project, its configurations as `make` left them in this run, and the
    files of the tool, the first of these that has the name. Every `make` went through and
    left its file, and all four flash images are in the output directory as
    `cix_package_tool` made them, of these files and the flash layout of the project, or else
    of the tool. -/
theorem buildAndPackage_leaves (hc : tools.Confined) {machine : Machine} {t' : Workspace}
    (h : buildAndPackage tools machine arg t = .ok () t') :
    ∃ s, Settings.ofProject? (if arg = "" then "Merak" else arg) = some s ∧
      ∀ k, Leaves tools k (stagedFiles tools s.pathProject t k)
        (layoutFile s.pathProject t) t' ∧
        ∀ kind l, configDir tools s.pathProject kind t k = some l →
          (tools.make k kind l).1 = 0 ∧ ((tools.make k kind l).2.read kind.file).isSome :=
  (wp_of_ok h).mp (wp_buildAndPackage hc machine arg t)

/-- The configuration of the project is in front of the file that comes with the tool, and the
    bootloaders are those of the key type. -/
theorem buildAndPackage_leaves_sample :
    ∃ t', buildAndPackage sampleTools .other "O6" sampleWorkspace = .ok () t' ∧
      t'.read ⟨.tempFirmwares .pr2, "csu_pm_config.bin"⟩ = some [3] ∧
      t'.read ⟨.tempFirmwares .pr2, "bootloader1.img"⟩ = some [21] := by
  obtain ⟨t', hrun⟩ := exists_ok_sample
  obtain ⟨s, hs, hleaves⟩ := buildAndPackage_leaves sampleTools_confined hrun
  obtain rfl : sampleSettings = s := Option.some.inj hs
  refine ⟨t', hrun, ?_, ?_⟩
  · rw [(hleaves .pr2).1.firmware _ (by decide)]
    decide +kernel
  · rw [(hleaves .pr2).1.firmware _ (by decide)]
    decide +kernel

/-- The files that a run may touch, those of its own project. -/
def runFiles (arg : String) : Set (Path Dir) :=
  {q | q.dir.inOut ∨ (q.dir.isBuild ∨ q.dir.isPrepared) ∨ q.dir = .sky1Abl ∨
    ∃ s kind, Settings.ofProject? (if arg = "" then "Merak" else arg) = some s ∧
      q.dir = .project s.pathProject (ConfigKind.dir kind)}

theorem writes_buildAndPackage (hc : tools.Confined) (machine : Machine) (arg : String) :
    Script.Writes (runFiles arg) (buildAndPackage tools machine arg) := by
  refine .bind (writes_require _) fun _ => ?_
  refine .bind (fun t => prepareOutput_agreesOff (fun q hq => Or.inl hq) t) fun _ => ?_
  split
  next => exact .exit 1
  next s hs =>
    have htouched : touchedFiles s.pathProject ⊆ runFiles arg := by
      rintro q (⟨kind, h⟩ | h | h | h)
      · exact Or.inr (Or.inr (Or.inr ⟨s, kind, hs, h⟩))
      · exact Or.inl h
      · exact Or.inr (Or.inl h)
      · exact Or.inr (Or.inr (Or.inl h))
    have hmkimage : ∀ k, Script.Writes (runFiles arg) (execCixMkimage tools machine s k) :=
      fun k => (writes_execCixMkimage hc machine s k).mono
        ((mkimageFiles_subset _ k).trans htouched)
    exact .bind ((writes_execBuildUefi hc s).mono ((buildFiles_subset _).trans htouched))
      fun _ => .bind (hmkimage .pr) fun _ => hmkimage .pr2

/-- Nothing of the old output directory is left to look at. -/
theorem prepareOutput_congr {t₂ : Workspace} (h : ∀ d : Dir, d.inOut = false → t₂ d = t d) :
    prepareOutput t₂ = prepareOutput t := by
  funext d
  rw [prepareOutput_apply, prepareOutput_apply]
  split
  next => rfl
  next hd => exact h d (by simpa using hd)

/-- **What a run touches and what it depends on.** However a run ends, a file that it has changed
    is in the output directory, in what the build and what comes before it bring up to date, or
    in the directory of a configuration of the project; and how it ends does not depend on what
    an earlier run left in the output directory. -/
theorem buildAndPackage_touches (hc : tools.Confined) (machine : Machine) (arg : String)
    (t : Workspace) :
    (∀ t', (buildAndPackage tools machine arg t = .ok () t' ∨
        ∃ status, buildAndPackage tools machine arg t = .error status t') →
      ∀ q, t'.read q ≠ t.read q → q ∈ runFiles arg) ∧
      ∀ t₂ : Workspace, (∀ d : Dir, d.inOut = false → t₂ d = t d) →
        t.has ⟨.packageTool, "build_and_package.sh"⟩ →
          buildAndPackage tools machine arg t₂ = buildAndPackage tools machine arg t := by
  have hwrites := writes_buildAndPackage hc machine arg
  constructor
  · rintro t' hrun q hq
    have hagree : Tree.AgreesOff (runFiles arg) t t' := by
      rcases hrun with h | ⟨status, h⟩
      · exact hwrites.of_ok h
      · exact hwrites.of_error h
    by_contra hmem
    exact hq (hagree.file q hmem)
  · intro t₂ heq hscript
    have hrequire : ∀ {t₁ : Workspace}, t₁.has ⟨.packageTool, "build_and_package.sh"⟩ →
        require ⟨.packageTool, "build_and_package.sh"⟩ t₁ = .ok () t₁ := by
      intro t₁ h
      simp [require, when, h]
    have hscript₂ : t₂.has ⟨.packageTool, "build_and_package.sh"⟩ := by
      rw [Tree.has, Tree.read_congr (heq .packageTool rfl)]
      exact hscript
    simp only [buildAndPackage, bind, EStateM.bind, hrequire hscript, hrequire hscript₂, update,
      prepareOutput_congr heq]

/-- A run leaves the tools alone, and the same when there is an old flash image. -/
theorem buildAndPackage_touches_sample :
    ∃ t', buildAndPackage sampleTools .other "O6" sampleWorkspace = .ok () t' ∧
      t'.read ⟨.packageTool, "fiptool"⟩ = some [] ∧
      buildAndPackage sampleTools .other "O6"
        (sampleWorkspace.setDir .out [("cix_flash_all.bin", [0])]) = .ok () t' := by
  obtain ⟨t', hrun⟩ := exists_ok_sample
  obtain ⟨htouches, hfresh⟩ :=
    buildAndPackage_touches sampleTools_confined .other "O6" sampleWorkspace
  refine ⟨t', hrun, ?_, ?_⟩
  · by_contra hne
    have hmem := htouches t' (Or.inl hrun) ⟨.packageTool, "fiptool"⟩ hne
    simp [runFiles, Dir.inOut, Dir.isBuild, Dir.isPrepared] at hmem
  · rw [hfresh _ ?_ rfl, hrun]
    intro d hd
    refine Tree.setDir_of_ne _ ?_ _
    rintro rfl
    cases hd

end Script

end PackageTool
