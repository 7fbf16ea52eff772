-- SUMMARY: `build_and_package.sh`: the build, the staging of the firmware files for each key type, and the packaging of the flash images.
import Edk2NonOsi.PackageTool.Configs
import Edk2NonOsi.Shell.Script

open Shell

namespace PackageTool

-- ---------------------------------------------------------------------------
-- Directories
-- ---------------------------------------------------------------------------

/-- The `build_key_type` of a flash image. -/
inductive KeyType where
  | pr
  | pr2
deriving DecidableEq

/-- What `uname -m` says. -/
inductive Machine where
  | aarch64
  | other
deriving DecidableEq

/-- The parts of `PATH_PROJECT`. -/
structure PathProject where
  uefiProjectFolder : String
  uefiProjectPath : String
  uefiProject : String
deriving DecidableEq

/-- The directories of a project. -/
inductive ProjectDir where
  | root
  | memConfig
  | pmConfig
  | trustzoneConfig
  | firmwares
  | keys
deriving DecidableEq

/-- The directories of a workspace that the script and its tools look at or change. -/
inductive Dir where
  /-- `PATH_PACKAGE_TOOL`. -/
  | packageTool
  | packageToolAarch64
  | packageToolFirmwares
  | packageToolFirmwares2
  | packageToolKeys
  | project (p : PathProject) (d : ProjectDir)
  /-- A directory of `edk2`. -/
  | edk2 (path : String)
  /-- A directory where git keeps its data. -/
  | git (path : String)
  /-- A directory of `tools/acpica`. -/
  | acpica (path : String)
  /-- `Conf`. -/
  | conf
  /-- Another directory of the workspace. -/
  | workspace (path : String)
  /-- A directory of `Build`. -/
  | build (path : String)
  | linuxLoader
  | sky1Abl
  /-- `PATH_OUT`. -/
  | out
  /-- `PATH_OUT_PR` or `PATH_OUT_PR2`, the `path_out_temp` of a key type. -/
  | temp (k : KeyType)
  | tempFirmwares (k : KeyType)
  | tempKeys (k : KeyType)
  | tempCerts (k : KeyType)
deriving DecidableEq

/-- The directories inside `PATH_OUT`. -/
def Dir.inOut : Dir → Bool
  | .out => true
  | .temp _ => true
  | .tempFirmwares _ => true
  | .tempKeys _ => true
  | .tempCerts _ => true
  | _ => false

def Dir.isBuild : Dir → Bool
  | .build _ => true
  | _ => false

/-- The directories that are brought up to date before the build, and by it. -/
def Dir.isPrepared : Dir → Bool
  | .edk2 _ => true
  | .git _ => true
  | .acpica _ => true
  | .conf => true
  | _ => false

/-- `Build/${UEFI_PROJECT}/RELEASE_GCC5/FV`. -/
def fvDir (uefiProject : String) : Dir :=
  .build (uefiProject ++ "/RELEASE_GCC5/FV")

abbrev Workspace : Type := Tree Dir Bytes

def ConfigKind.dir : ConfigKind → ProjectDir
  | .memory => .memConfig
  | .csuPm => .pmConfig
  | .trustzone => .trustzoneConfig

def ConfigKind.file : ConfigKind → String
  | .memory => "memory_config.bin"
  | .csuPm => "csu_pm_config.bin"
  | .trustzone => "trustzone_config.bin"

/-- The two images that `cix_package_tool` makes. -/
inductive FlashFile where
  | all
  | ota
deriving DecidableEq

/-- The flash layout that `cix_package_tool` makes an image with. -/
def FlashFile.config : FlashFile → String
  | .all => "spi_flash_config_all.json"
  | .ota => "spi_flash_config_ota.json"

/-- `flash_all_file_name` and `flash_ota_file_name`, with `.bin`. -/
def FlashFile.name : KeyType → FlashFile → String
  | .pr, .all => "cix_flash_all.bin"
  | .pr, .ota => "cix_flash_ota.bin"
  | .pr2, .all => "cix_flash_all2.bin"
  | .pr2, .ota => "cix_flash_ota2.bin"

-- ---------------------------------------------------------------------------
-- Settings
-- ---------------------------------------------------------------------------

/-- The variables that depend on the project. -/
structure Settings where
  uefiProject : String
  uefiProjectFolder : String := "edk2-platforms"
  uefiProjectPath : String := "Platform/CIX/Sky1"
  osSupportType : String := "common"
  fastbootLoadType : String := "disable"
deriving DecidableEq

/-- The `case` on `UEFI_PROJECT`. -/
def Settings.ofProject? : String → Option Settings
  | "Merak" => some { uefiProject := "Merak", fastbootLoadType := "nvme" }
  | "Alcor" => some {
      uefiProject := "Alcor", uefiProjectFolder := "edk2-project", fastbootLoadType := "nvme" }
  | "OPI6" => some { uefiProject := "OPI6", uefiProjectFolder := "edk2-project" }
  | "Edge" => some { uefiProject := "Edge", fastbootLoadType := "nvme" }
  | "CloudBook" => some { uefiProject := "CloudBook", uefiProjectFolder := "edk2-project" }
  | "MGP1WSB" => some { uefiProject := "MGP1WSB", uefiProjectFolder := "edk2-project" }
  | "SixUnited" => some { uefiProject := "SixUnited", uefiProjectFolder := "edk2-project" }
  | "O6" => some {
      uefiProject := "O6", uefiProjectPath := "Platform/Radxa/Orion", fastbootLoadType := "nvme" }
  | "O6N" => some { uefiProject := "O6N", uefiProjectPath := "Platform/Radxa/Orion" }
  | "android" => some {
      uefiProject := "Merak", osSupportType := "android", fastbootLoadType := "nvme" }
  | "androidO6" => some {
      uefiProject := "O6", uefiProjectPath := "Platform/Radxa/Orion", osSupportType := "android",
      fastbootLoadType := "nvme" }
  | _ => none

/-- `PATH_PROJECT`. -/
def Settings.pathProject (s : Settings) : PathProject :=
  ⟨s.uefiProjectFolder, s.uefiProjectPath, s.uefiProject⟩

-- ---------------------------------------------------------------------------
-- Tools
-- ---------------------------------------------------------------------------

/-- The programs that the script runs. -/
structure Tools where
  /-- The commands of git in `edk2`. -/
  updateSubmodules : Command Workspace
  /-- `make -C edk2/BaseTools`. -/
  makeBaseTools : Command Workspace
  /-- `make -C tools/acpica`. -/
  makeAcpica : Command Workspace
  /-- `source edksetup.sh --reconfig`. -/
  edksetup : Command Workspace
  build : Settings → Command Workspace
  genAblCap : Command Workspace
  /-- `make` in the directory of a configuration, in the run for a key type. -/
  make : KeyType → ConfigKind → Listing Bytes → UInt8 × Listing Bytes
  cixRegenTrustedKeyCert : KeyType → Command Workspace
  certUefiCreateRsa : KeyType → Command Workspace
  fiptool : KeyType → Command Workspace
  cixPackageTool : KeyType → FlashFile → Command Workspace

/-- `*`, which leaves out hidden files. -/
def globAll (name : String) : Bool :=
  name.toList.head? ≠ some '.'

/-- `*.bin`. -/
def globBin (name : String) : Bool :=
  globAll name && ".bin".toList.isSuffixOf name.toList

-- ---------------------------------------------------------------------------
-- `exec_build_uefi`
-- ---------------------------------------------------------------------------

/-- `cd`. -/
def cd (d : Dir) : Script Workspace Unit :=
  when (fun t => !t.hasDir d) (exit 1)

/-- `-e` of the `.git` of a submodule of `edk2`, which is a file or a directory. -/
def hasGit (path : String) (t : Workspace) : Bool :=
  t.has ⟨.edk2 path, ".git"⟩ || t.hasDir (.edk2 (path ++ "/.git"))

/-- What comes before the build. -/
def prepareBuild (tools : Tools) : Script Workspace Unit := do
  when (fun t => !hasGit "MdeModulePkg/Library/BrotliCustomDecompressLib/brotli" t) do
    cd (.edk2 "")
    exec tools.updateSubmodules
  cd (.workspace "edk2-platforms")
  when (fun t => !t.hasDir (.workspace "Source/C/bin")) (exec tools.makeBaseTools)
  when (fun t => !t.hasDir (.acpica "generate/unix/bin")) (exec tools.makeAcpica)
  exec tools.edksetup

def execBuildUefi (tools : Tools) (s : Settings) : Script Workspace Unit := do
  prepareBuild tools
  update (rmDirs Dir.isBuild)
  exec (tools.build s)
  exec (cp ⟨fvDir s.uefiProject, "SKY1_BL33_UEFI.fd"⟩ ⟨.out, "SKY1_BL33_UEFI.fd"⟩)
  when (fun _ => s.osSupportType == "android") do
    exec (cp ⟨.linuxLoader, "LinuxLoader.efi"⟩ ⟨.sky1Abl, "LinuxLoader.efi"⟩)
    exec tools.genAblCap
    exec (cp ⟨.sky1Abl, "LinuxLoader.efi.cap"⟩ ⟨.out, "LinuxLoader.efi.cap"⟩)

-- ---------------------------------------------------------------------------
-- `exec_cix_mkimage`
-- ---------------------------------------------------------------------------

/-- `exec_blankfile`. -/
def execBlankfile (file : Path Dir) (size : Nat) : Script Workspace Unit := do
  when (·.has file) (exec (rmFile file))
  rounds size (exec (append file [0xFF]))

/-- The body of the `build_*cfg` functions. -/
def buildCfg (tools : Tools) (p : PathProject) (k : KeyType) (kind : ConfigKind)
    (target : Path Dir) : Script Workspace Unit := do
  execOrExit (inDir (.project p kind.dir) (tools.make k kind)) 1
  exec (cp ⟨.project p kind.dir, kind.file⟩ target)
  when (fun t => !t.has target) (exit 1)

/-- `build_memcfg`. -/
def buildMemcfg (tools : Tools) (p : PathProject) (k : KeyType) : Path Dir → Script Workspace Unit :=
  buildCfg tools p k .memory

/-- `build_pmcfg`. -/
def buildPmcfg (tools : Tools) (p : PathProject) (k : KeyType) : Path Dir → Script Workspace Unit :=
  buildCfg tools p k .csuPm

/-- `build_trustzonecfg`. -/
def buildTrustzonecfg (tools : Tools) (p : PathProject) (k : KeyType) :
    Path Dir → Script Workspace Unit :=
  buildCfg tools p k .trustzone

/-- Where the bootloaders of a key type are from. -/
def bootloaderDir : KeyType → Dir
  | .pr => .packageToolFirmwares
  | .pr2 => .packageToolFirmwares2

/-- The copies of the files that come with the tool. -/
def copyShipped (k : KeyType) : Script Workspace Unit := do
  exec (cp ⟨bootloaderDir k, "bootloader1.img"⟩ ⟨.tempFirmwares k, "bootloader1.img"⟩)
  exec (cp ⟨bootloaderDir k, "bootloader2.img"⟩ ⟨.tempFirmwares k, "bootloader2.img"⟩)
  exec (cpGlob .packageToolFirmwares globBin (.tempFirmwares k))
  exec (cpDir .packageToolKeys (.tempKeys k))
  execBlankfile ⟨.tempFirmwares k, "dummy.bin"⟩ 8192

/-- The project specific configurations. -/
def buildConfigs (tools : Tools) (p : PathProject) (k : KeyType) : Script Workspace Unit := do
  when (·.hasDir (.project p .memConfig))
    (buildMemcfg tools p k ⟨.tempFirmwares k, "memory_config.bin"⟩)
  when (·.hasDir (.project p .pmConfig))
    (buildPmcfg tools p k ⟨.tempFirmwares k, "csu_pm_config.bin"⟩)
  when (·.hasDir (.project p .trustzoneConfig))
    (buildTrustzonecfg tools p k ⟨.tempFirmwares k, "trustzone_config.bin"⟩)

/-- The project specific low level firmware. -/
def copyProjectFirmwares (p : PathProject) (k : KeyType) : Script Workspace Unit :=
  when (·.hasDir (.project p .firmwares))
    (exec (cpGlob (.project p .firmwares) globAll (.tempFirmwares k)))

/-- `if [[ ! -e file ]]; then exit 1; fi`. -/
def require (file : Path Dir) : Script Workspace Unit :=
  when (fun t => !t.has file) (exit 1)

/-- The tools, which differ by machine. -/
def copyTools (machine : Machine) (k : KeyType) : Script Workspace Unit :=
  match machine with
  | .aarch64 => do
    exec (cp ⟨.packageToolAarch64, "cert_uefi_create_rsa"⟩ ⟨.temp k, "cert_uefi_create_rsa"⟩)
    exec (cp ⟨.packageToolAarch64, "cix_package_tool"⟩ ⟨.temp k, "cix_package_tool"⟩)
    exec (cp ⟨.packageToolAarch64, "fiptool"⟩ ⟨.temp k, "fiptool"⟩)
  | .other => do
    exec (cp ⟨.packageTool, "cert_uefi_create_rsa"⟩ ⟨.temp k, "cert_uefi_create_rsa"⟩)
    exec (cp ⟨.packageTool, "cix_package_tool"⟩ ⟨.temp k, "cix_package_tool"⟩)
    exec (cp ⟨.packageTool, "fiptool"⟩ ⟨.temp k, "fiptool"⟩)
    exec (cp ⟨.packageTool, "cix_regen_trusted_key_cert"⟩
      ⟨.temp k, "cix_regen_trusted_key_cert"⟩)

/-- A file of the project over one that is there already. -/
def copyOverride (src dst : Path Dir) : Script Workspace Unit :=
  when (·.has src) (exec (cp src dst))

/-- The flash layouts and the keys. -/
def copyLayoutsAndKeys (p : PathProject) (k : KeyType) : Script Workspace Unit := do
  exec (cp ⟨.packageTool, "spi_flash_config_all.json"⟩ ⟨.temp k, "spi_flash_config_all.json"⟩)
  exec (cp ⟨.packageTool, "spi_flash_config_ota.json"⟩ ⟨.temp k, "spi_flash_config_ota.json"⟩)
  copyOverride ⟨.project p .root, "spi_flash_config_all.json"⟩
    ⟨.temp k, "spi_flash_config_all.json"⟩
  copyOverride ⟨.project p .root, "spi_flash_config_ota.json"⟩
    ⟨.temp k, "spi_flash_config_ota.json"⟩
  copyOverride ⟨.project p .keys, "oem_privatekey.pem"⟩ ⟨.tempKeys k, "oem_privatekey.pem"⟩
  copyOverride ⟨.project p .keys, "oem_publickey.pem"⟩ ⟨.tempKeys k, "oem_publickey.pem"⟩

/-- `bootloader3.img`. -/
def generateBootloader3 (tools : Tools) (k : KeyType) : Script Workspace Unit := do
  exec (runTool ⟨.temp k, "cix_regen_trusted_key_cert"⟩ (tools.cixRegenTrustedKeyCert k))
  exec (runTool ⟨.temp k, "cert_uefi_create_rsa"⟩ (tools.certUefiCreateRsa k))
  exec (runTool ⟨.temp k, "fiptool"⟩ (tools.fiptool k))
  require ⟨.tempFirmwares k, "bootloader3.img"⟩

/-- One flash image, which is copied to `PATH_OUT`. -/
def generateFlashImage (tools : Tools) (k : KeyType) (f : FlashFile) : Script Workspace Unit := do
  exec (runTool ⟨.temp k, "cix_package_tool"⟩ (tools.cixPackageTool k f))
  exec (cp ⟨.temp k, f.name k⟩ ⟨.out, f.name k⟩)

/-- `exec_cix_mkimage` before the first tool that makes a part of the flash image runs. -/
def stage (tools : Tools) (machine : Machine) (p : PathProject) (k : KeyType) :
    Script Workspace Unit := do
  copyShipped k
  buildConfigs tools p k
  copyProjectFirmwares p k
  require ⟨.tempFirmwares k, "bootloader1.img"⟩
  require ⟨.tempFirmwares k, "bootloader2.img"⟩
  copyTools machine k
  copyLayoutsAndKeys p k

/-- `exec_cix_mkimage`. -/
def execCixMkimage (tools : Tools) (machine : Machine) (s : Settings) (k : KeyType) :
    Script Workspace Unit := do
  stage tools machine s.pathProject k
  generateBootloader3 tools k
  generateFlashImage tools k .all
  generateFlashImage tools k .ota

-- ---------------------------------------------------------------------------
-- The script
-- ---------------------------------------------------------------------------

/-- `PATH_OUT` is removed and made again, with the directories of both key types. -/
def prepareOutput (t : Workspace) : Workspace :=
  [Dir.out, .temp .pr, .tempFirmwares .pr, .tempKeys .pr, .tempCerts .pr, .temp .pr2,
    .tempFirmwares .pr2, .tempKeys .pr2, .tempCerts .pr2].foldl (fun t d => mkdir d t)
    (rmDirs Dir.inOut t)

/-- `build_and_package.sh`, with its argument, which may be empty. -/
def buildAndPackage (tools : Tools) (machine : Machine) (arg : String) :
    Script Workspace Unit := do
  require ⟨.packageTool, "build_and_package.sh"⟩
  update prepareOutput
  match Settings.ofProject? (if arg = "" then "Merak" else arg) with
  | none => exit 1
  | some s =>
    -- `set -e` is on from here.
    execBuildUefi tools s
    execCixMkimage tools machine s .pr
    execCixMkimage tools machine s .pr2

end PackageTool
