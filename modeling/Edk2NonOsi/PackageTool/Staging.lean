-- SUMMARY: What `build_and_package.sh` stages for each key type, from which directories, and what it leaves alone.
import Edk2NonOsi.PackageTool.BuildAndPackage

open Shell

namespace PackageTool

/-- Every tool changes its own output only. For what runs before the build and for the build
    itself, that is in `edk2`, `tools/acpica`, `Conf`, the data of git and `Build`. -/
structure Tools.Confined (tools : Tools) : Prop where
  updateSubmodules : Command.Writes {q | q.dir.isPrepared} tools.updateSubmodules
  makeBaseTools : Command.Writes {q | q.dir.isPrepared} tools.makeBaseTools
  makeAcpica : Command.Writes {q | q.dir.isPrepared} tools.makeAcpica
  edksetup : Command.Writes {q | q.dir.isPrepared} tools.edksetup
  build : ∀ s, Command.Writes {q | q.dir.isBuild ∨ q.dir.isPrepared} (tools.build s)
  genAblCap : Command.Writes (filesIn .sky1Abl) tools.genAblCap
  cixRegenTrustedKeyCert : ∀ k,
    Command.Writes (filesIn (.tempCerts k)) (tools.cixRegenTrustedKeyCert k)
  certUefiCreateRsa : ∀ k, Command.Writes (filesIn (.tempCerts k)) (tools.certUefiCreateRsa k)
  fiptool : ∀ k, Command.Writes {⟨.tempFirmwares k, "bootloader3.img"⟩} (tools.fiptool k)
  cixPackageTool : ∀ k f, Command.Writes {⟨.temp k, f.name k⟩} (tools.cixPackageTool k f)

-- ---------------------------------------------------------------------------
-- The files that are written
-- ---------------------------------------------------------------------------

/-- The files of the configurations, which `make` may change. -/
def configFiles (p : PathProject) : Set (Path Dir) :=
  {q | ∃ kind : ConfigKind, q.dir = .project p kind.dir}

/-- What is staged for a key type besides the firmware files. -/
def toolFiles (k : KeyType) : Set (Path Dir) := filesIn (.temp k) ∪ filesIn (.tempKeys k)

/-- What the tools make of the staged files. -/
def madeFiles (k : KeyType) : Set (Path Dir) :=
  filesIn (.tempCerts k) ∪ {⟨.tempFirmwares k, "bootloader3.img"⟩} ∪
    {q | ∃ f : FlashFile, q = ⟨.temp k, f.name k⟩ ∨ q = ⟨.out, f.name k⟩}

/-- What the build of the firmware image writes. -/
def buildFiles : Set (Path Dir) :=
  {q | q.dir.isBuild ∨ q.dir.isPrepared} ∪ filesIn .sky1Abl ∪
    {⟨.out, "SKY1_BL33_UEFI.fd"⟩, ⟨.out, "LinuxLoader.efi.cap"⟩}

section Writes

variable {tools : Tools} (hc : tools.Confined) (machine : Machine) (s : Settings)
  (p : PathProject) (k : KeyType) {W : Set (Path Dir)}

theorem writes_execBlankfile {file : Path Dir} (hfile : file ∈ W) (size : Nat) :
    Script.Writes W (execBlankfile file size) :=
  .bind (.when (.exec (writes_rmFile hfile)) _)
    fun _ => .rounds (.exec (writes_append hfile _)) _

theorem writes_require (file : Path Dir) : Script.Writes W (require file) :=
  .when (.exit 1) _

theorem writes_copyOverride {src dst : Path Dir} (hdst : dst ∈ W) :
    Script.Writes W (copyOverride src dst) :=
  .when (.exec (writes_cp hdst)) _

theorem writes_buildCfg {kind : ConfigKind} {target : Path Dir}
    (hdir : filesIn (.project p kind.dir) ⊆ W) (htarget : target ∈ W) :
    Script.Writes W (buildCfg tools p k kind target) :=
  .bind (.execOrExit (writes_inDir hdir _) 1) fun _ =>
    .bind (.exec (writes_cp htarget)) fun _ => .when (.exit 1) _

theorem writes_copyShipped (hfirmwares : filesIn (.tempFirmwares k) ⊆ W)
    (hkeys : filesIn (.tempKeys k) ⊆ W) : Script.Writes W (copyShipped k) := by
  refine .bind (.exec (writes_cp (hfirmwares rfl))) fun _ => ?_
  refine .bind (.exec (writes_cp (hfirmwares rfl))) fun _ => ?_
  refine .bind (.exec (writes_cpGlob hfirmwares _)) fun _ => ?_
  refine .bind (.exec (writes_cpDir hkeys)) fun _ => ?_
  exact writes_execBlankfile (hfirmwares rfl) _

theorem writes_buildConfigs (hconfig : configFiles p ⊆ W)
    (hfirmwares : filesIn (.tempFirmwares k) ⊆ W) :
    Script.Writes W (buildConfigs tools p k) := by
  have hdir : ∀ kind : ConfigKind, filesIn (.project p kind.dir) ⊆ W :=
    fun kind q hq => hconfig ⟨kind, hq⟩
  refine .bind (.when (writes_buildCfg p k (hdir .memory) (hfirmwares rfl)) _) fun _ => ?_
  refine .bind (.when (writes_buildCfg p k (hdir .csuPm) (hfirmwares rfl)) _) fun _ => ?_
  exact .when (writes_buildCfg p k (hdir .trustzone) (hfirmwares rfl)) _

theorem writes_copyProjectFirmwares (hfirmwares : filesIn (.tempFirmwares k) ⊆ W) :
    Script.Writes W (copyProjectFirmwares p k) :=
  .when (.exec (writes_cpGlob hfirmwares _)) _

theorem writes_copyTools (htemp : filesIn (.temp k) ⊆ W) :
    Script.Writes W (copyTools machine k) := by
  have hcp : ∀ (src : Path Dir) (name : String),
      Script.Writes W (exec (cp src ⟨.temp k, name⟩) : Script Workspace Unit) :=
    fun src name => .exec (writes_cp (htemp rfl))
  cases machine with
  | aarch64 => exact .bind (hcp _ _) fun _ => .bind (hcp _ _) fun _ => hcp _ _
  | other =>
    exact .bind (hcp _ _) fun _ => .bind (hcp _ _) fun _ => .bind (hcp _ _) fun _ => hcp _ _

theorem writes_copyLayoutsAndKeys (htemp : filesIn (.temp k) ⊆ W)
    (hkeys : filesIn (.tempKeys k) ⊆ W) : Script.Writes W (copyLayoutsAndKeys p k) := by
  refine .bind (.exec (writes_cp (htemp rfl))) fun _ => ?_
  refine .bind (.exec (writes_cp (htemp rfl))) fun _ => ?_
  refine .bind (writes_copyOverride (htemp rfl)) fun _ => ?_
  refine .bind (writes_copyOverride (htemp rfl)) fun _ => ?_
  exact .bind (writes_copyOverride (hkeys rfl)) fun _ => writes_copyOverride (hkeys rfl)

include hc

theorem writes_generateBootloader3 :
    Script.Writes (madeFiles k) (generateBootloader3 tools k) := by
  have hcerts : filesIn (.tempCerts k) ⊆ madeFiles k := fun q hq => Or.inl (Or.inl hq)
  have hfip : {⟨.tempFirmwares k, "bootloader3.img"⟩} ⊆ madeFiles k :=
    fun q hq => Or.inl (Or.inr hq)
  refine .bind (Script.Writes.mono (.exec (writes_runTool (hc.cixRegenTrustedKeyCert k) _)) hcerts)
    fun _ => ?_
  refine .bind (Script.Writes.mono (.exec (writes_runTool (hc.certUefiCreateRsa k) _)) hcerts) fun _ => ?_
  exact .bind (Script.Writes.mono (.exec (writes_runTool (hc.fiptool k) _)) hfip) fun _ => writes_require _

theorem writes_generateFlashImage {f : FlashFile} (htemp : ⟨.temp k, f.name k⟩ ∈ W)
    (hout : ⟨.out, f.name k⟩ ∈ W) : Script.Writes W (generateFlashImage tools k f) :=
  .bind (Script.Writes.mono (.exec (writes_runTool (hc.cixPackageTool k f) _))
    (Set.singleton_subset_iff.mpr htemp)) fun _ => .exec (writes_cp hout)

theorem writes_prepareBuild : Script.Writes {q | q.dir.isPrepared} (prepareBuild tools) := by
  have hcd : ∀ d, Script.Writes {q : Path Dir | q.dir.isPrepared} (cd d) :=
    fun d => .when (.exit 1) _
  refine .bind (.when (.bind (hcd _) fun _ => .exec hc.updateSubmodules) _) fun _ => ?_
  refine .bind (hcd _) fun _ => .bind (.when (.exec hc.makeBaseTools) _) fun _ => ?_
  exact .bind (.when (.exec hc.makeAcpica) _) fun _ => .exec hc.edksetup

theorem writes_execBuildUefi : Script.Writes buildFiles (execBuildUefi tools s) := by
  have hbuild : {q : Path Dir | q.dir.isBuild ∨ q.dir.isPrepared} ⊆ buildFiles :=
    fun q hq => Or.inl (Or.inl hq)
  have habl : filesIn .sky1Abl ⊆ buildFiles := fun q hq => Or.inl (Or.inr hq)
  refine .bind ((writes_prepareBuild hc).mono fun q hq => hbuild (Or.inr hq)) fun _ => ?_
  refine .bind (writes_rmDirs fun q hq => hbuild (Or.inl hq)) fun _ => ?_
  refine .bind (Script.Writes.mono (.exec (hc.build s)) hbuild) fun _ => ?_
  refine .bind (.exec (writes_cp (Or.inr (Or.inl rfl)))) fun _ => ?_
  refine .when ?_ _
  refine .bind (.exec (writes_cp (habl rfl))) fun _ => ?_
  refine .bind (Script.Writes.mono (.exec hc.genAblCap) habl) fun _ => ?_
  exact .exec (writes_cp (Or.inr (Or.inr rfl)))

end Writes

/-- What is staged, apart from the firmware files. -/
def finishStage (machine : Machine) (p : PathProject) (k : KeyType) : Script Workspace Unit := do
  require ⟨.tempFirmwares k, "bootloader1.img"⟩
  require ⟨.tempFirmwares k, "bootloader2.img"⟩
  copyTools machine k
  copyLayoutsAndKeys p k

theorem writes_finishStage (machine : Machine) (p : PathProject) (k : KeyType) :
    Script.Writes (toolFiles k) (finishStage machine p k) := by
  have htemp : filesIn (.temp k) ⊆ toolFiles k := fun q hq => Or.inl hq
  have hkeys : filesIn (.tempKeys k) ⊆ toolFiles k := fun q hq => Or.inr hq
  exact .bind (writes_require _) fun _ => .bind (writes_require _) fun _ =>
    .bind (writes_copyTools machine k htemp) fun _ =>
      writes_copyLayoutsAndKeys p k htemp hkeys

-- ---------------------------------------------------------------------------
-- Layers of firmware files
-- ---------------------------------------------------------------------------

/-- The bootloaders of the key type. -/
def bootloaderLayer (k : KeyType) : Layer Dir Bytes :=
  (Layer.file ⟨bootloaderDir k, "bootloader2.img"⟩ "bootloader2.img").onTop
    (.file ⟨bootloaderDir k, "bootloader1.img"⟩ "bootloader1.img")

/-- `Firmwares/*.bin` of the tool. -/
def shippedLayer : Layer Dir Bytes := .glob .packageToolFirmwares globBin

def dummyLayer : Layer Dir Bytes := .const "dummy.bin" (List.replicate 8192 0xFF)

/-- The file that `make` leaves in the directory of a configuration, if there is one. -/
def configLayer (tools : Tools) (p : PathProject) (k : KeyType) (kind : ConfigKind) :
    Layer Dir Bytes := fun t name =>
  if name = kind.file then
    (t (.project p kind.dir)).bind fun l => (tools.make k kind l).2.read kind.file
  else none

/-- `Firmwares/*` of the project. -/
def projectLayer (p : PathProject) : Layer Dir Bytes := .glob (.project p .firmwares) globAll

/-- The configurations of the project. -/
def configLayers (tools : Tools) (p : PathProject) (k : KeyType) : Layer Dir Bytes :=
  (configLayer tools p k .trustzone).onTop
    ((configLayer tools p k .csuPm).onTop (configLayer tools p k .memory))

/-- The files that come with the tool, and `dummy.bin`. -/
def toolLayers (k : KeyType) : Layer Dir Bytes :=
  dummyLayer.onTop (shippedLayer.onTop (bootloaderLayer k))

/-- The programs that make the flash images. -/
def programLayer : Machine → Layer Dir Bytes
  | .aarch64 => (Layer.file ⟨.packageToolAarch64, "fiptool"⟩ "fiptool").onTop
      ((Layer.file ⟨.packageToolAarch64, "cix_package_tool"⟩ "cix_package_tool").onTop
        (.file ⟨.packageToolAarch64, "cert_uefi_create_rsa"⟩ "cert_uefi_create_rsa"))
  | .other => (Layer.file ⟨.packageTool, "cix_regen_trusted_key_cert"⟩
      "cix_regen_trusted_key_cert").onTop
      ((Layer.file ⟨.packageTool, "fiptool"⟩ "fiptool").onTop
        ((Layer.file ⟨.packageTool, "cix_package_tool"⟩ "cix_package_tool").onTop
          (.file ⟨.packageTool, "cert_uefi_create_rsa"⟩ "cert_uefi_create_rsa")))

/-- The flash layouts in a directory. -/
def layoutLayer (d : Dir) : Layer Dir Bytes :=
  (Layer.file ⟨d, "spi_flash_config_ota.json"⟩ "spi_flash_config_ota.json").onTop
    (.file ⟨d, "spi_flash_config_all.json"⟩ "spi_flash_config_all.json")

/-- The flash layouts of the project, before those of the tool. -/
def layoutLayers (p : PathProject) : Layer Dir Bytes :=
  (layoutLayer (.project p .root)).onTop (layoutLayer .packageTool)

/-- The keys of the project, before those of the tool. -/
def keyLayers (p : PathProject) : Layer Dir Bytes :=
  (Layer.file ⟨.project p .keys, "oem_publickey.pem"⟩ "oem_publickey.pem").onTop
    ((Layer.file ⟨.project p .keys, "oem_privatekey.pem"⟩ "oem_privatekey.pem").onTop
      (.glob .packageToolKeys fun _ => true))

section Lays

variable (tools : Tools) (machine : Machine) (p : PathProject) (k : KeyType)
  {W : Set (Path Dir)}

theorem readsOff_configLayer {kind : ConfigKind}
    (h : ∀ name, ⟨.project p kind.dir, name⟩ ∉ W) :
    (configLayer tools p k kind).ReadsOff W := by
  intro t t' hagree
  funext name
  rw [configLayer, configLayer, hagree.dir _ h]

theorem lays_execBlankfile (d : Dir) (name : String) {n : Nat} (hn : 0 < n) :
    Script.Lays d (.const name (List.replicate n 0xFF)) (execBlankfile ⟨d, name⟩ n) := by
  have hremoved : ∀ t, wp (when (·.has ⟨d, name⟩) (exec (rmFile ⟨d, name⟩)))
      (fun _ t' => t'.read ⟨d, name⟩ = (none : Option Bytes)) (fun _ _ => True) t := by
    intro t
    rw [wp_when]
    split
    next h =>
      rw [wp_exec]
      unfold rmFile
      split
      next => simp
      next hd => simpa using Tree.read_of_none hd
    next h => simpa [Tree.has] using h
  have hfile : ∀ t, wp (execBlankfile ⟨d, name⟩ n)
      (fun _ t' => ∃ b, some (List.replicate n 0xFF) = some b ∧ t'.read ⟨d, name⟩ = some b)
      (fun _ _ => True) t := by
    intro t
    rw [execBlankfile, wp_bind]
    refine (hremoved t).mono ?_ fun _ _ _ => trivial
    intro _ t' hnone
    refine (wp_rounds_append _ _ n t').mono ?_ fun _ _ _ => trivial
    intro _ t'' hread
    refine ⟨_, rfl, ?_⟩
    rw [hnone, Option.getD_none, List.nil_append] at hread
    cases h : t''.read ⟨d, name⟩ with
    | none =>
      rw [h, Option.getD_none, List.nil_eq, List.replicate_eq_nil_iff] at hread
      exact absurd hread hn.ne'
    | some contents =>
      rw [h, Option.getD_some] at hread
      rw [hread]
  have hw : Script.Writes {⟨d, name⟩} (execBlankfile ⟨d, name⟩ n) :=
    writes_execBlankfile (Set.mem_singleton _) n
  refine .of_file hw ?_ hfile
  intro name' hne h
  exact hne (congrArg Path.name h)

theorem lays_copyShipped : Script.Lays (.tempFirmwares k) (toolLayers k) (copyShipped k) := by
  have hboot : bootloaderDir k ≠ .tempFirmwares k := by cases k <;> decide
  have hkeys : Script.Writes (filesIn (.tempKeys k))
      (exec (cpDir .packageToolKeys (.tempKeys k)) : Script Workspace Unit) :=
    .exec (writes_cpDir subset_rfl)
  have hfile : ∀ (src : Path Dir) (name : String),
      Script.Writes (filesIn (.tempFirmwares k))
        (exec (cp src ⟨.tempFirmwares k, name⟩) : Script Workspace Unit) :=
    fun src name => .exec (writes_cp rfl)
  have hglob : Script.Writes (filesIn (.tempFirmwares k))
      (exec (cpGlob .packageToolFirmwares globBin (.tempFirmwares k)) : Script Workspace Unit) :=
    .exec (writes_cpGlob subset_rfl _)
  have hdummy : Script.Lays (.tempFirmwares k) dummyLayer
      (execBlankfile ⟨.tempFirmwares k, "dummy.bin"⟩ 8192) :=
    lays_execBlankfile _ _ (by decide)
  have hro : ∀ {W : Set (Path Dir)}, dummyLayer.ReadsOff W := Layer.readsOff_const _ _
  have hlast := Script.Lays.bind (.of_writes hkeys fun name => by simp) (fun _ => hdummy) hkeys hro
  have hshipped := Script.Lays.bind (lays_cpGlob .packageToolFirmwares globBin _) (fun _ => hlast)
    hglob (hro.onTop Layer.readsOff_empty)
  have hsecond := Script.Lays.bind (lays_cp ⟨bootloaderDir k, "bootloader2.img"⟩ _ "bootloader2.img")
    (fun _ => hshipped) (hfile _ _)
    ((hro.onTop Layer.readsOff_empty).onTop (Layer.readsOff_glob (by simp) _))
  have hfirst := Script.Lays.bind (lays_cp ⟨bootloaderDir k, "bootloader1.img"⟩ _ "bootloader1.img")
    (fun _ => hsecond) (hfile _ _)
    (((hro.onTop Layer.readsOff_empty).onTop (Layer.readsOff_glob (by simp) _)).onTop
      (Layer.readsOff_file hboot _))
  simp only [Layer.onTop_assoc, Layer.empty_onTop] at hfirst
  exact hfirst

theorem lays_buildCfg (kind : ConfigKind) :
    Script.Lays (.tempFirmwares k) (configLayer tools p k kind)
      (buildCfg tools p k kind ⟨.tempFirmwares k, kind.file⟩) := by
  have hfile : ∀ t, wp (buildCfg tools p k kind ⟨.tempFirmwares k, kind.file⟩)
      (fun _ t' => ∃ b, (t (.project p kind.dir)).bind
          (fun l => (tools.make k kind l).2.read kind.file) = some b ∧
        t'.read ⟨.tempFirmwares k, kind.file⟩ = some b) (fun _ _ => True) t := by
    intro t
    rw [buildCfg, wp_bind, wp_execOrExit]
    unfold inDir
    split
    next l hl =>
      split
      next =>
        rw [wp_bind]
        refine wp_cp fun contents l' hsrc _ => ?_
        rw [Tree.read_setDir_self] at hsrc
        rw [wp_when]
        simp [Tree.has, hl, hsrc]
      next => trivial
    next => simp
  have hw : Script.Writes (filesIn (.project p kind.dir) ∪ {⟨.tempFirmwares k, kind.file⟩})
      (buildCfg tools p k kind ⟨.tempFirmwares k, kind.file⟩) :=
    writes_buildCfg p k Set.subset_union_left (Or.inr rfl)
  refine .of_file hw ?_ hfile
  rintro name' hne (h | h)
  · cases h
  · exact hne (congrArg Path.name h)

theorem configLayer_of_not_hasDir {kind : ConfigKind} (t : Workspace)
    (h : ¬ t.hasDir (.project p kind.dir)) (name : String) :
    configLayer tools p k kind t name = none := by
  have hnone : t (.project p kind.dir) = none := by simpa [Tree.hasDir] using h
  simp [configLayer, hnone]

theorem lays_buildConfigs :
    Script.Lays (.tempFirmwares k) (configLayers tools p k) (buildConfigs tools p k) := by
  have hcfg : ∀ kind : ConfigKind, Script.Lays (.tempFirmwares k) (configLayer tools p k kind)
      (when (·.hasDir (.project p kind.dir))
        (buildCfg tools p k kind ⟨.tempFirmwares k, kind.file⟩)) :=
    fun kind => .when (lays_buildCfg tools p k kind) (configLayer_of_not_hasDir tools p k)
  have hw : ∀ kind : ConfigKind, Script.Writes
      (filesIn (.project p kind.dir) ∪ filesIn (.tempFirmwares k))
      (when (·.hasDir (.project p kind.dir))
        (buildCfg tools p k kind ⟨.tempFirmwares k, kind.file⟩)) := by
    intro kind
    have htarget : (⟨.tempFirmwares k, kind.file⟩ : Path Dir) ∈
        filesIn (.project p kind.dir) ∪ filesIn (.tempFirmwares k) := Or.inr rfl
    exact .when (writes_buildCfg p k Set.subset_union_left htarget) _
  have hro : ∀ kind kind' : ConfigKind, kind ≠ kind' → (configLayer tools p k kind).ReadsOff
      (filesIn (.project p kind'.dir) ∪ filesIn (.tempFirmwares k)) := by
    intro kind kind' hne
    apply readsOff_configLayer
    cases kind <;> cases kind' <;> simp_all [ConfigKind.dir]
  have hlast := Script.Lays.bind (hcfg .csuPm) (fun _ => hcfg .trustzone) (hw .csuPm)
    (hro _ _ (by decide))
  have hall := Script.Lays.bind (hcfg .memory) (fun _ => hlast) (hw .memory)
    ((hro _ _ (by decide)).onTop (hro _ _ (by decide)))
  simp only [Layer.onTop_assoc] at hall
  exact hall

theorem lays_copyProjectFirmwares :
    Script.Lays (.tempFirmwares k) (projectLayer p) (copyProjectFirmwares p k) := by
  refine .when (lays_cpGlob _ _ _) ?_
  intro t h name
  have hnone : t (.project p .firmwares) = none := by simpa [Tree.hasDir] using h
  have hread : t.read ⟨.project p .firmwares, name⟩ = none := Tree.read_of_none hnone
  simp [projectLayer, Layer.glob, hread]

theorem buildConfigs_eq : buildConfigs tools p k = (do
    when (·.hasDir (.project p ConfigKind.memory.dir))
      (buildCfg tools p k .memory ⟨.tempFirmwares k, ConfigKind.memory.file⟩)
    when (·.hasDir (.project p ConfigKind.csuPm.dir))
      (buildCfg tools p k .csuPm ⟨.tempFirmwares k, ConfigKind.csuPm.file⟩)
    when (·.hasDir (.project p ConfigKind.trustzone.dir))
      (buildCfg tools p k .trustzone ⟨.tempFirmwares k, ConfigKind.trustzone.file⟩)) := rfl

theorem stage_eq : stage tools machine p k = (do
    copyShipped k
    buildConfigs tools p k
    copyProjectFirmwares p k
    finishStage machine p k) := rfl

/-- The firmware files of the project are not among its configurations. -/
theorem firmwares_not_mem_configFiles (name : String) :
    (⟨.project p .firmwares, name⟩ : Path Dir) ∉ configFiles p := by
  rintro ⟨kind, h⟩
  cases kind <;> cases h

theorem lays_copyOverride (src : Path Dir) (d : Dir) (name : String) :
    Script.Lays d (.file src name) (copyOverride src ⟨d, name⟩) := by
  refine .when (lays_cp src d name) ?_
  intro t h name'
  have hnone : t.read src = none := by simpa [Tree.has] using h
  simp [Layer.file, hnone]

theorem lays_copyLayoutsAndKeys :
    Script.Lays (.temp k) (layoutLayers p) (copyLayoutsAndKeys p k) := by
  have hkeys : ∀ (src : Path Dir) (name : String),
      Script.Writes (filesIn (.tempKeys k)) (copyOverride src ⟨.tempKeys k, name⟩) :=
    fun src name => writes_copyOverride rfl
  have hcp : ∀ (src : Path Dir) (name : String), Script.Writes (filesIn (.temp k))
      (exec (cp src ⟨.temp k, name⟩) : Script Workspace Unit) :=
    fun src name => .exec (writes_cp rfl)
  have hoverride : ∀ (src : Path Dir) (name : String),
      Script.Writes (filesIn (.temp k)) (copyOverride src ⟨.temp k, name⟩) :=
    fun src name => writes_copyOverride rfl
  have hlast : Script.Lays (.temp k) .empty (do
      copyOverride ⟨.project p .keys, "oem_privatekey.pem"⟩ ⟨.tempKeys k, "oem_privatekey.pem"⟩
      copyOverride ⟨.project p .keys, "oem_publickey.pem"⟩ ⟨.tempKeys k, "oem_publickey.pem"⟩) :=
    .of_writes (.bind (hkeys _ _) fun _ => hkeys _ _) fun name => by simp
  have hfile : ∀ (d : Dir) (name : String), d ≠ .temp k →
      (Layer.file ⟨d, name⟩ name : Layer Dir Bytes).ReadsOff (filesIn (.temp k)) :=
    fun d name hd => Layer.readsOff_file hd name
  have hroot : ∀ name, (Layer.file ⟨.project p .root, name⟩ name : Layer Dir Bytes).ReadsOff
      (filesIn (.temp k)) := fun name => hfile _ name (by simp)
  have hota := Script.Lays.bind (lays_copyOverride ⟨.project p .root, "spi_flash_config_ota.json"⟩
    (.temp k) "spi_flash_config_ota.json") (fun _ => hlast) (hoverride _ _) Layer.readsOff_empty
  have hall := Script.Lays.bind (lays_copyOverride ⟨.project p .root, "spi_flash_config_all.json"⟩
    (.temp k) "spi_flash_config_all.json") (fun _ => hota) (hoverride _ _)
    (Layer.readsOff_empty.onTop (hroot _))
  have htools := Script.Lays.bind (lays_cp ⟨.packageTool, "spi_flash_config_ota.json"⟩
    (.temp k) "spi_flash_config_ota.json") (fun _ => hall) (hcp _ _)
    ((Layer.readsOff_empty.onTop (hroot _)).onTop (hroot _))
  have hfirst := Script.Lays.bind (lays_cp ⟨.packageTool, "spi_flash_config_all.json"⟩
    (.temp k) "spi_flash_config_all.json") (fun _ => htools) (hcp _ _)
    (((Layer.readsOff_empty.onTop (hroot _)).onTop (hroot _)).onTop (hfile _ _ (by simp)))
  simp only [Layer.onTop_assoc, Layer.empty_onTop] at hfirst
  rw [layoutLayers, layoutLayer, layoutLayer, Layer.onTop_assoc]
  exact hfirst

theorem lays_copyTools :
    Script.Lays (.temp k) (programLayer machine) (copyTools machine k) := by
  have hcp : ∀ src : Path Dir, Script.Writes (filesIn (.temp k))
      (exec (cp src ⟨.temp k, src.name⟩) : Script Workspace Unit) :=
    fun src => .exec (writes_cp rfl)
  have hlays : ∀ src : Path Dir, Script.Lays (.temp k) (.file src src.name)
      (exec (cp src ⟨.temp k, src.name⟩) : Script Workspace Unit) :=
    fun src => lays_cp src _ _
  have hfile : ∀ src : Path Dir, src.dir ≠ .temp k →
      (Layer.file src src.name : Layer Dir Bytes).ReadsOff (filesIn (.temp k)) :=
    fun src hd => Layer.readsOff_file hd src.name
  cases machine with
  | aarch64 =>
    have hro : ∀ name, (Layer.file ⟨.packageToolAarch64, name⟩ name : Layer Dir Bytes).ReadsOff
        (filesIn (.temp k)) := fun name => hfile ⟨.packageToolAarch64, name⟩ (by simp)
    have hlast := Script.Lays.bind (hlays ⟨.packageToolAarch64, "cix_package_tool"⟩)
      (fun _ => hlays ⟨.packageToolAarch64, "fiptool"⟩) (hcp _) (hro _)
    have hall := Script.Lays.bind (hlays ⟨.packageToolAarch64, "cert_uefi_create_rsa"⟩)
      (fun _ => hlast) (hcp _) ((hro _).onTop (hro _))
    rw [Layer.onTop_assoc] at hall
    exact hall
  | other =>
    have hro : ∀ name, (Layer.file ⟨.packageTool, name⟩ name : Layer Dir Bytes).ReadsOff
        (filesIn (.temp k)) := fun name => hfile ⟨.packageTool, name⟩ (by simp)
    have hlast := Script.Lays.bind (hlays ⟨.packageTool, "fiptool"⟩)
      (fun _ => hlays ⟨.packageTool, "cix_regen_trusted_key_cert"⟩) (hcp _) (hro _)
    have hpackage := Script.Lays.bind (hlays ⟨.packageTool, "cix_package_tool"⟩)
      (fun _ => hlast) (hcp _) ((hro _).onTop (hro _))
    have hall := Script.Lays.bind (hlays ⟨.packageTool, "cert_uefi_create_rsa"⟩)
      (fun _ => hpackage) (hcp _) (((hro _).onTop (hro _)).onTop (hro _))
    simp only [Layer.onTop_assoc] at hall
    exact hall

theorem readsOff_layoutLayers {W : Set (Path Dir)}
    (hW : ∀ d, d = .packageTool ∨ d = .project p .root → ∀ name, ⟨d, name⟩ ∉ W) :
    (layoutLayers p).ReadsOff W := by
  have hlayer : ∀ d, d = Dir.packageTool ∨ d = .project p .root → (layoutLayer d).ReadsOff W :=
    fun d hd => (Layer.readsOff_file (hW d hd _) _).onTop (Layer.readsOff_file (hW d hd _) _)
  exact (hlayer _ (Or.inr rfl)).onTop (hlayer _ (Or.inl rfl))

/-- The program and the layout are read off `W` when none of the three directories they are
    copied from is in it. -/
theorem readsOff_layout_program {W : Set (Path Dir)} (hW : ∀ d name, ⟨d, name⟩ ∈ W →
    d ≠ .packageTool ∧ d ≠ .packageToolAarch64 ∧ d ≠ .project p .root) :
    ((layoutLayers p).onTop (programLayer machine)).ReadsOff W := by
  refine (readsOff_layoutLayers p ?_).onTop ?_
  · rintro d (rfl | rfl) name hmem
    · exact (hW _ name hmem).1 rfl
    · exact (hW _ name hmem).2.2 rfl
  · have haarch : ∀ name, (⟨.packageToolAarch64, name⟩ : Path Dir) ∉ W :=
      fun name hmem => (hW _ name hmem).2.1 rfl
    have hother : ∀ name, (⟨.packageTool, name⟩ : Path Dir) ∉ W :=
      fun name hmem => (hW _ name hmem).1 rfl
    cases machine with
    | aarch64 =>
      exact (Layer.readsOff_file (haarch _) _).onTop ((Layer.readsOff_file (haarch _) _).onTop
        (Layer.readsOff_file (haarch _) _))
    | other =>
      exact (Layer.readsOff_file (hother _) _).onTop ((Layer.readsOff_file (hother _) _).onTop
        ((Layer.readsOff_file (hother _) _).onTop (Layer.readsOff_file (hother _) _)))

theorem lays_finishStage : Script.Lays (.temp k) ((layoutLayers p).onTop (programLayer machine))
    (finishStage machine p k) := by
  have hrequire : ∀ file, Script.Lays (.temp k) .empty (require file) :=
    fun file => .of_writes (writes_require (W := ∅) file) fun name => by simp
  have hlayouts : (layoutLayers p).ReadsOff (filesIn (.temp k)) := by
    refine readsOff_layoutLayers p ?_
    rintro d (rfl | rfl) name <;> simp
  have htools := Script.Lays.bind (lays_copyTools machine k)
    (fun _ => lays_copyLayoutsAndKeys p k) (writes_copyTools machine k subset_rfl) hlayouts
  have hnowhere : ((layoutLayers p).onTop (programLayer machine)).ReadsOff ∅ :=
    readsOff_layout_program machine p fun d name h => absurd h (Set.notMem_empty _)
  have hsecond := Script.Lays.bind (hrequire ⟨.tempFirmwares k, "bootloader2.img"⟩)
    (fun _ => htools) (writes_require _) hnowhere
  rw [Layer.onTop_empty] at hsecond
  have hfirst := Script.Lays.bind (hrequire ⟨.tempFirmwares k, "bootloader1.img"⟩)
    (fun _ => hsecond) (writes_require _) hnowhere
  rw [Layer.onTop_empty] at hfirst
  exact hfirst

/-- **What is staged.** -/
theorem lays_stage : Script.Lays (.tempFirmwares k)
    ((projectLayer p).onTop ((configLayers tools p k).onTop (toolLayers k)))
    (stage tools machine p k) := by
  have hfinish : Script.Lays (.tempFirmwares k) .empty (finishStage machine p k) :=
    .of_writes (writes_finishStage machine p k) fun name => by simp [toolFiles]
  have hproject := Script.Lays.bind (lays_copyProjectFirmwares p k) (fun _ => hfinish)
    (writes_copyProjectFirmwares p k subset_rfl) Layer.readsOff_empty
  have hproject_off : (Layer.empty.onTop (projectLayer p)).ReadsOff
      (configFiles p ∪ filesIn (.tempFirmwares k)) := by
    refine Layer.readsOff_empty.onTop (Layer.readsOff_glob ?_ _)
    rintro name (h | h)
    · exact firmwares_not_mem_configFiles p name h
    · cases h
  have hconfigs := Script.Lays.bind (lays_buildConfigs tools p k) (fun _ => hproject)
    (writes_buildConfigs p k Set.subset_union_left Set.subset_union_right) hproject_off
  have hstaged_off : ((Layer.empty.onTop (projectLayer p)).onTop (configLayers tools p k)).ReadsOff
      (filesIn (.tempFirmwares k) ∪ filesIn (.tempKeys k)) := by
    have hconfig : ∀ kind, (configLayer tools p k kind).ReadsOff
        (filesIn (.tempFirmwares k) ∪ filesIn (.tempKeys k)) :=
      fun kind => readsOff_configLayer tools p k (by simp)
    exact (Layer.readsOff_empty.onTop (Layer.readsOff_glob (by simp) _)).onTop
      ((hconfig _).onTop ((hconfig _).onTop (hconfig _)))
  have hall := Script.Lays.bind (lays_copyShipped k) (fun _ => hconfigs)
    (writes_copyShipped k Set.subset_union_left Set.subset_union_right) hstaged_off
  simp only [Layer.onTop_assoc, Layer.empty_onTop] at hall
  exact hall

/-- What is staged where the flash image is made. -/
theorem lays_stage_temp :
    Script.Lays (.temp k) ((layoutLayers p).onTop (programLayer machine))
      (stage tools machine p k) := by
  have hproject : Script.Writes (filesIn (.tempFirmwares k)) (copyProjectFirmwares p k) :=
    writes_copyProjectFirmwares p k subset_rfl
  have hconfigs : Script.Writes (configFiles p ∪ filesIn (.tempFirmwares k))
      (buildConfigs tools p k) :=
    writes_buildConfigs p k Set.subset_union_left Set.subset_union_right
  have hshipped : Script.Writes (filesIn (.tempFirmwares k) ∪ filesIn (.tempKeys k))
      (copyShipped k) := writes_copyShipped k Set.subset_union_left Set.subset_union_right
  have hlast := Script.Lays.bind (.of_writes hproject fun name => by simp)
    (fun _ => lays_finishStage machine p k) hproject
    (readsOff_layout_program machine p fun d name h => by
      obtain rfl : d = .tempFirmwares k := h
      simp)
  have hmake := Script.Lays.bind (.of_writes hconfigs fun name => by simp [configFiles])
    (fun _ => hlast) hconfigs (by
      rw [Layer.onTop_empty]
      refine readsOff_layout_program machine p fun d name h => ?_
      rcases h with ⟨kind, rfl⟩ | rfl
      · cases kind <;> simp [ConfigKind.dir]
      · simp)
  have hall := Script.Lays.bind (.of_writes hshipped fun name => by simp) (fun _ => hmake)
    hshipped (by
      rw [Layer.onTop_empty, Layer.onTop_empty]
      refine readsOff_layout_program machine p fun d name h => ?_
      rcases h with rfl | rfl
      · simp
      · simp)
  simp only [Layer.onTop_empty] at hall
  exact hall

theorem lays_copyShipped_keys :
    Script.Lays (.tempKeys k) (.glob .packageToolKeys fun _ => true) (copyShipped k) := by
  have hfile : ∀ src name, Script.Writes (filesIn (.tempFirmwares k))
      (exec (cp src ⟨.tempFirmwares k, name⟩) : Script Workspace Unit) :=
    fun src name => .exec (writes_cp rfl)
  have hglob : Script.Writes (filesIn (.tempFirmwares k))
      (exec (cpGlob .packageToolFirmwares globBin (.tempFirmwares k)) : Script Workspace Unit) :=
    .exec (writes_cpGlob subset_rfl _)
  have hoff : ∀ {α : Type} {m : Script Workspace α}, Script.Writes (filesIn (.tempFirmwares k)) m →
      Script.Lays (.tempKeys k) .empty m := fun hw => .of_writes hw fun name => by simp
  have hkeys : ∀ {d : Dir}, d ≠ .packageToolKeys →
      (Layer.glob .packageToolKeys fun _ => true : Layer Dir Bytes).ReadsOff (filesIn d) :=
    fun hd => Layer.readsOff_glob (fun name h => hd (mem_filesIn.mp h).symm) _
  have hdummy : Script.Lays (.tempKeys k) .empty
      (execBlankfile ⟨.tempFirmwares k, "dummy.bin"⟩ 8192) :=
    hoff (writes_execBlankfile (mem_filesIn.mpr rfl) _)
  have hlast := Script.Lays.bind (lays_cpDir Dir.packageToolKeys (.tempKeys k)) (fun _ => hdummy)
    (.exec (writes_cpDir (subset_refl (filesIn (Dir.tempKeys k))))) Layer.readsOff_empty
  rw [Layer.empty_onTop] at hlast
  have hthird := Script.Lays.bind (hoff hglob) (fun _ => hlast) hglob (hkeys (by simp))
  have hsecond := Script.Lays.bind (hoff (hfile ⟨bootloaderDir k, "bootloader2.img"⟩
    "bootloader2.img")) (fun _ => hthird) (hfile _ _) (by
      rw [Layer.onTop_empty]
      exact hkeys (by simp))
  have hfirst := Script.Lays.bind (hoff (hfile ⟨bootloaderDir k, "bootloader1.img"⟩
    "bootloader1.img")) (fun _ => hsecond) (hfile _ _) (by
      rw [Layer.onTop_empty, Layer.onTop_empty]
      exact hkeys (by simp))
  simp only [Layer.onTop_empty] at hfirst
  exact hfirst

theorem readsOff_projectKeys {W : Set (Path Dir)} (hW : ∀ name, ⟨.project p .keys, name⟩ ∉ W)
    (name : String) : (Layer.file ⟨.project p .keys, name⟩ name : Layer Dir Bytes).ReadsOff W :=
  Layer.readsOff_file (hW name) _

/-- The copies of the keys come last. -/
theorem lays_finishStage_keys : Script.Lays (.tempKeys k)
    ((Layer.file ⟨.project p .keys, "oem_publickey.pem"⟩ "oem_publickey.pem").onTop
      (.file ⟨.project p .keys, "oem_privatekey.pem"⟩ "oem_privatekey.pem"))
    (finishStage machine p k) := by
  have hlast := Script.Lays.bind (lays_copyOverride ⟨.project p .keys, "oem_privatekey.pem"⟩
    (.tempKeys k) "oem_privatekey.pem")
    (fun _ => lays_copyOverride ⟨.project p .keys, "oem_publickey.pem"⟩ (.tempKeys k)
      "oem_publickey.pem") (writes_copyOverride (mem_filesIn.mpr rfl))
    (readsOff_projectKeys p (W := filesIn (.tempKeys k)) (by simp) _)
  have hrest : Script.Writes (filesIn (.temp k)) (do
      require ⟨.tempFirmwares k, "bootloader1.img"⟩
      require ⟨.tempFirmwares k, "bootloader2.img"⟩
      copyTools machine k
      exec (cp ⟨.packageTool, "spi_flash_config_all.json"⟩ ⟨.temp k, "spi_flash_config_all.json"⟩)
      exec (cp ⟨.packageTool, "spi_flash_config_ota.json"⟩ ⟨.temp k, "spi_flash_config_ota.json"⟩)
      copyOverride ⟨.project p .root, "spi_flash_config_all.json"⟩
        ⟨.temp k, "spi_flash_config_all.json"⟩
      copyOverride ⟨.project p .root, "spi_flash_config_ota.json"⟩
        ⟨.temp k, "spi_flash_config_ota.json"⟩) :=
    .bind (writes_require _) fun _ => .bind (writes_require _) fun _ =>
      .bind (writes_copyTools machine k subset_rfl) fun _ => .bind (.exec (writes_cp rfl)) fun _ =>
        .bind (.exec (writes_cp rfl)) fun _ => .bind (writes_copyOverride rfl) fun _ =>
          writes_copyOverride rfl
  have hkeys := Script.Lays.bind (.of_writes hrest fun name => by simp) (fun _ => hlast) hrest
    ((readsOff_projectKeys p (by simp) _).onTop (readsOff_projectKeys p (by simp) _))
  rw [Layer.onTop_empty] at hkeys
  simp only [bind_assoc] at hkeys
  exact hkeys

/-- The keys that are staged. -/
theorem lays_stage_keys :
    Script.Lays (.tempKeys k) (keyLayers p) (stage tools machine p k) := by
  have hproject : Script.Writes (filesIn (.tempFirmwares k)) (copyProjectFirmwares p k) :=
    writes_copyProjectFirmwares p k subset_rfl
  have hconfigs : Script.Writes (configFiles p ∪ filesIn (.tempFirmwares k))
      (buildConfigs tools p k) :=
    writes_buildConfigs p k Set.subset_union_left Set.subset_union_right
  have hshipped : Script.Writes (filesIn (.tempFirmwares k) ∪ filesIn (.tempKeys k))
      (copyShipped k) := writes_copyShipped k Set.subset_union_left Set.subset_union_right
  have hoff : ∀ {W : Set (Path Dir)}, (∀ name, ⟨.project p .keys, name⟩ ∉ W) →
      ((Layer.file ⟨.project p .keys, "oem_publickey.pem"⟩ "oem_publickey.pem").onTop
        (.file ⟨.project p .keys, "oem_privatekey.pem"⟩ "oem_privatekey.pem") :
          Layer Dir Bytes).ReadsOff W := fun hW =>
    (readsOff_projectKeys p hW _).onTop (readsOff_projectKeys p hW _)
  have hlast := Script.Lays.bind (.of_writes hproject fun name => by simp)
    (fun _ => lays_finishStage_keys machine p k) hproject (hoff (by simp))
  have hmake := Script.Lays.bind (.of_writes hconfigs fun name => by simp [configFiles])
    (fun _ => hlast) hconfigs (by
      rw [Layer.onTop_empty]
      refine hoff fun name h => ?_
      rcases h with ⟨kind, h⟩ | h
      · cases kind <;> cases h
      · cases h)
  have hall := Script.Lays.bind (lays_copyShipped_keys k) (fun _ => hmake) hshipped (by
    rw [Layer.onTop_empty, Layer.onTop_empty]
    exact hoff (by simp))
  simp only [Layer.onTop_empty, Layer.onTop_assoc] at hall
  exact hall

end Lays

end PackageTool
