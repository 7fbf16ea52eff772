-- SUMMARY: What the tools and the script need for the packaging of the flash images, and that it goes through when all of it is there.
import Edk2NonOsi.PackageTool.PackageRun
import Edk2NonOsi.Shell.Completion

open Shell

namespace PackageTool

/-! # Packaging

Two notions stand for what the tools can work with: `usable` says which contents a
file of a name may have, and `fit` in which directories `make` can be run. The
script copies files under their own names, so what is usable where it comes from
is usable where the tools look for it. -/

-- ---------------------------------------------------------------------------
-- What the tools need
-- ---------------------------------------------------------------------------

/-- The firmware files that the flash layouts of the tool name. -/
def FlashFile.firmwares : FlashFile → List String
  | .all => ["ec_fw.bin", "dummy.bin", "bootloader1.img", "bootloader2.img", "memory_config.bin",
      "csu_pm_config.bin", "se_config.bin", "bootloader3.img", "sfh_fw.bin",
      "trustzone_config.bin"]
  | .ota => ["bootloader3.img"]

def keyNames : List String :=
  ["oem_publickey.pem", "oem_privatekey.pem"]

def certNames : List String :=
  ["trusted_key_no.crt", "nt_fw_key.crt", "nt_fw_cert.crt"]

/-- All files with these names are in the directory, and can be worked with. -/
def HoldsAll (usable : String → Bytes → Prop) (d : Dir) (names : List String) (t : Workspace) :
    Prop :=
  ∀ name ∈ names, t.Holds usable ⟨d, name⟩

/-- The firmware image of the build, where `cert_uefi_create_rsa` and `fiptool` look for it. -/
def HoldsUefi (usable : String → Bytes → Prop) (t : Workspace) : Prop :=
  t.Holds usable ⟨.out, "SKY1_BL33_UEFI.fd"⟩

/-- The tools succeed where they find what they need, and what they make can be worked with. -/
structure Tools.Work (tools : Tools) (usable : String → Bytes → Prop)
    (fit : ConfigKind → Listing Bytes → Prop) : Prop where
  build : ∀ s t image, (tools.build s t).1 = 0 →
    (tools.build s t).2.read ⟨fvDir s.uefiProject, "SKY1_BL33_UEFI.fd"⟩ = some image →
      usable "SKY1_BL33_UEFI.fd" image
  dummy : usable "dummy.bin" (List.replicate 8192 0xFF)
  make : ∀ k kind l, fit kind l → (tools.make k kind l).1 = 0 ∧ fit kind (tools.make k kind l).2 ∧
    ∃ file, (tools.make k kind l).2.read kind.file = some file ∧ usable kind.file file
  cixRegenTrustedKeyCert : ∀ k, Command.Makes (tools.cixRegenTrustedKeyCert k)
    (fun t => HoldsAll usable (.tempKeys k) keyNames t ∧ t.hasDir (.tempCerts k))
    (HoldsAll usable (.tempCerts k) ["trusted_key_no.crt"])
  certUefiCreateRsa : ∀ k, Command.Makes (tools.certUefiCreateRsa k)
    (fun t => HoldsAll usable (.tempKeys k) keyNames t ∧ HoldsUefi usable t ∧
      HoldsAll usable (.tempCerts k) ["trusted_key_no.crt"] t)
    (HoldsAll usable (.tempCerts k) certNames)
  fiptool : ∀ k, Command.Makes (tools.fiptool k)
    (fun t => HoldsAll usable (.tempCerts k) certNames t ∧ HoldsUefi usable t ∧
      t.hasDir (.tempFirmwares k))
    (HoldsAll usable (.tempFirmwares k) ["bootloader3.img"])
  cixPackageTool : ∀ k f, Command.Makes (tools.cixPackageTool k f)
    (fun t => t.Holds usable ⟨.temp k, f.config⟩ ∧
      HoldsAll usable (.tempFirmwares k) f.firmwares t)
    (fun t => t.has ⟨.temp k, f.name k⟩)

-- ---------------------------------------------------------------------------
-- What the script needs
-- ---------------------------------------------------------------------------

/-- The files of the tool that the script copies by name, or a layout names. -/
def neededFiles : List (Path Dir) :=
  [⟨.packageToolFirmwares, "bootloader1.img"⟩, ⟨.packageToolFirmwares, "bootloader2.img"⟩,
    ⟨.packageToolFirmwares2, "bootloader1.img"⟩, ⟨.packageToolFirmwares2, "bootloader2.img"⟩,
    ⟨.packageToolFirmwares, "ec_fw.bin"⟩, ⟨.packageToolFirmwares, "memory_config.bin"⟩,
    ⟨.packageToolFirmwares, "csu_pm_config.bin"⟩, ⟨.packageToolFirmwares, "se_config.bin"⟩,
    ⟨.packageToolFirmwares, "sfh_fw.bin"⟩, ⟨.packageToolFirmwares, "trustzone_config.bin"⟩,
    ⟨.packageTool, "cert_uefi_create_rsa"⟩, ⟨.packageTool, "cix_package_tool"⟩,
    ⟨.packageTool, "fiptool"⟩, ⟨.packageTool, "cix_regen_trusted_key_cert"⟩,
    ⟨.packageTool, "spi_flash_config_all.json"⟩, ⟨.packageTool, "spi_flash_config_ota.json"⟩,
    ⟨.packageToolKeys, "oem_publickey.pem"⟩, ⟨.packageToolKeys, "oem_privatekey.pem"⟩]

/-- The directories that files are staged from. -/
def Dir.isSource (p : PathProject) : Dir → Prop
  | .packageTool => True
  | .packageToolFirmwares => True
  | .packageToolFirmwares2 => True
  | .packageToolKeys => True
  | .project p' .root => p' = p
  | .project p' .firmwares => p' = p
  | .project p' .keys => p' = p
  | _ => False

/-- The files that come with the tool are in place, there are some where a pattern of the
    script is to match, and all that can be staged is usable. -/
structure Stocked (usable : String → Bytes → Prop) (p : PathProject) (t : Workspace) : Prop where
  files : ∀ q ∈ neededFiles, t.has q
  projectFirmwares : t.hasDir (.project p .firmwares) →
    ∃ name, globAll name ∧ t.has ⟨.project p .firmwares, name⟩
  usable : ∀ q file, q.dir.isSource p → t.read q = some file → usable q.name file

/-- The workspace while the flash images are made: everything is in place, the output
    directories are there, and the firmware image of the build is in them. -/
structure Ready (usable : String → Bytes → Prop) (fit : ConfigKind → Listing Bytes → Prop)
    (p : PathProject) (t : Workspace) : Prop where
  stocked : Stocked usable p t
  fit : ∀ kind l, t (.project p (ConfigKind.dir kind)) = some l → fit kind l
  outDirs : ∀ d, d.inOut → t.hasDir d
  uefi : HoldsUefi usable t

/-- What is written while the flash images are made, `make` apart. -/
def packagingFiles : Set (Path Dir) :=
  {q | q.dir.inOut ∧ q ≠ ⟨.out, "SKY1_BL33_UEFI.fd"⟩}

section Stocked

variable {usable : String → Bytes → Prop} {fit : ConfigKind → Listing Bytes → Prop}
  {p : PathProject} {t t' : Workspace} {k : KeyType}

theorem isSource_ne {d : Dir} (hd : d.isSource p) :
    d.inOut = false ∧ d.isBuild = false ∧ d.isPrepared = false ∧ d ≠ .sky1Abl ∧
      ∀ p' kind, d ≠ .project p' (ConfigKind.dir kind) := by
  have hkind : ∀ (p' : PathProject) (d' : ProjectDir), d' = .root ∨ d' = .firmwares ∨ d' = .keys →
      ∀ p'' kind, Dir.project p' d' ≠ .project p'' (ConfigKind.dir kind) := by
    rintro p' d' (rfl | rfl | rfl) p'' kind h <;> cases kind <;> cases h
  cases d with
  | project p' d' =>
    refine ⟨rfl, rfl, rfl, by simp, hkind p' d' ?_⟩
    cases d' with
    | root => exact Or.inl rfl
    | firmwares => exact Or.inr (Or.inl rfl)
    | keys => exact Or.inr (Or.inr rfl)
    | _ => exact hd.elim
  | packageTool => exact ⟨rfl, rfl, rfl, by simp, by simp⟩
  | packageToolFirmwares => exact ⟨rfl, rfl, rfl, by simp, by simp⟩
  | packageToolFirmwares2 => exact ⟨rfl, rfl, rfl, by simp, by simp⟩
  | packageToolKeys => exact ⟨rfl, rfl, rfl, by simp, by simp⟩
  | _ => exact hd.elim

/-- No run changes what `Stocked` is about. -/
theorem not_mem_changingFiles {d : Dir} (hd : d.isSource p) (name : String) :
    (⟨d, name⟩ : Path Dir) ∉ changingFiles := by
  obtain ⟨hout, hbuild, hprepared, habl, hkind⟩ := isSource_ne hd
  rintro (⟨p', kind, h⟩ | h | (h | h) | h)
  · exact hkind p' kind h
  · exact absurd h (by simp [hout])
  · exact absurd h (by simp [hbuild])
  · exact absurd h (by simp [hprepared])
  · exact habl h

theorem isSource_of_mem_neededFiles {q : Path Dir} (hq : q ∈ neededFiles) :
    q.dir.isSource p := by
  have hdirs : ∀ q ∈ neededFiles, q.dir = .packageTool ∨ q.dir = .packageToolFirmwares ∨
      q.dir = .packageToolFirmwares2 ∨ q.dir = .packageToolKeys := by
    decide
  rcases hdirs q hq with h | h | h | h <;> rw [h] <;> trivial

theorem Stocked.holds (h : Stocked usable p t) {q : Path Dir} (hq : q ∈ neededFiles) :
    t.Holds usable q := by
  obtain ⟨file, hfile⟩ := Option.isSome_iff_exists.mp (h.files q hq)
  exact ⟨file, hfile, h.usable q file (isSource_of_mem_neededFiles hq) hfile⟩

theorem Stocked.of_source (h : Stocked usable p t) (heq : ∀ d, d.isSource p → t' d = t d) :
    Stocked usable p t' := by
  have hread : ∀ q : Path Dir, q.dir.isSource p → t'.read q = t.read q :=
    fun q hq => Tree.read_congr (heq q.dir hq)
  constructor
  · intro q hq
    rw [Tree.has, hread q (isSource_of_mem_neededFiles hq)]
    exact h.files q hq
  · intro hproject
    rw [Tree.hasDir, heq (.project p .firmwares) rfl] at hproject
    obtain ⟨name, hname, hfile⟩ := h.projectFirmwares hproject
    refine ⟨name, hname, ?_⟩
    rw [Tree.has, hread ⟨.project p .firmwares, name⟩ rfl]
    exact hfile
  · intro q file hq hfile
    rw [hread q hq] at hfile
    exact h.usable q file hq hfile

theorem inOut_ne_config {d : Dir} (hd : d.inOut) (p : PathProject) (kind : ConfigKind) :
    Dir.project p kind.dir ≠ d := by
  rintro rfl
  cases hd

theorem stableOff_ready (p : PathProject) : StableOff packagingFiles (Ready usable fit p) := by
  intro t t' h hdirs hagree
  constructor
  · refine h.stocked.of_source fun d hd => hagree.dir d fun name hname => ?_
    exact absurd hname.1 (by simp [(isSource_ne hd).1])
  · intro kind l hl
    rw [hagree.dir _ fun name hname => inOut_ne_config hname.1 p kind rfl] at hl
    exact h.fit kind l hl
  · intro d hd
    exact hdirs d (h.outDirs d hd)
  · exact stableOff_holds usable (fun hname => hname.2 rfl) t t' h.uefi hdirs hagree

theorem temp_subset_packagingFiles {d : Dir} (hd : d.inOut) (hne : d ≠ .out) :
    filesIn d ⊆ packagingFiles := by
  rintro q rfl
  exact ⟨hd, fun h => hne (congrArg Path.dir h)⟩

/-! ## What is staged is usable -/

theorem Stocked.good_file (h : Stocked usable p t) {q : Path Dir} (hq : q.dir.isSource p) :
    (Layer.file q q.name).Good usable t := by
  intro name file hfile
  rw [Layer.file] at hfile
  split at hfile
  next hname =>
    rw [hname]
    exact h.usable q file hq hfile
  next => cases hfile

theorem Stocked.good_glob (h : Stocked usable p t) {d : Dir} (hd : d.isSource p)
    (pattern : String → Bool) : (Layer.glob d pattern).Good usable t := by
  intro name file hfile
  rw [Layer.glob] at hfile
  split at hfile
  next => exact h.usable ⟨d, name⟩ file hd hfile
  next => cases hfile

theorem good_toolLayers (h : Stocked usable p t)
    (hdummy : usable "dummy.bin" (List.replicate 8192 0xFF)) : (toolLayers k).Good usable t := by
  have hboot : ∀ name, (⟨bootloaderDir k, name⟩ : Path Dir).dir.isSource p := by
    intro name
    cases k <;> trivial
  refine Layer.Good.onTop ?_ ((h.good_glob (d := .packageToolFirmwares) trivial _).onTop
    ((h.good_file (q := ⟨bootloaderDir k, "bootloader2.img"⟩) (hboot _)).onTop
      (h.good_file (q := ⟨bootloaderDir k, "bootloader1.img"⟩) (hboot _))))
  intro name file hfile
  rw [dummyLayer, Layer.const] at hfile
  split at hfile
  next hname =>
    obtain rfl := Option.some.inj hfile
    rw [hname]
    exact hdummy
  next => cases hfile

theorem good_configLayer {tools : Tools} (hwork : tools.Work usable fit) {kind : ConfigKind}
    (hfit : ∀ l, t (.project p kind.dir) = some l → fit kind l) :
    (configLayer tools p k kind).Good usable t := by
  intro name file hfile
  rw [configLayer] at hfile
  split at hfile
  next hname =>
    obtain ⟨l, hl, hread⟩ := Option.bind_eq_some_iff.mp hfile
    obtain ⟨-, -, made, hmade, husable⟩ := hwork.make k kind l (hfit l hl)
    obtain rfl := Option.some.inj (hmade.symm.trans hread)
    rw [hname]
    exact husable
  next => cases hfile

/-- The firmware files of a workspace that is ready. -/
theorem Ready.good_firmwares {tools : Tools} (hwork : tools.Work usable fit)
    (h : Ready usable fit p t) :
    ((projectLayer p).onTop ((configLayers tools p k).onTop (toolLayers k))).Good usable t :=
  Layer.Good.onTop (h.stocked.good_glob (d := .project p .firmwares) rfl _)
    (((good_configLayer hwork (h.fit .trustzone)).onTop ((good_configLayer hwork (h.fit .csuPm)).onTop
      (good_configLayer hwork (h.fit .memory)))).onTop (good_toolLayers h.stocked hwork.dummy))

theorem Stocked.good_temp (h : Stocked usable p t) :
    ((layoutLayers p).onTop (programLayer .other)).Good usable t := by
  have htool : ∀ name, (Layer.file ⟨.packageTool, name⟩ name : Layer Dir Bytes).Good usable t :=
    fun name => h.good_file (q := ⟨.packageTool, name⟩) trivial
  have hroot : ∀ name, (Layer.file ⟨.project p .root, name⟩ name : Layer Dir Bytes).Good usable t :=
    fun name => h.good_file (q := ⟨.project p .root, name⟩) rfl
  exact Layer.Good.onTop (((hroot _).onTop (hroot _)).onTop ((htool _).onTop (htool _)))
    ((htool _).onTop ((htool _).onTop ((htool _).onTop (htool _))))

theorem Stocked.good_keys (h : Stocked usable p t) : (keyLayers p).Good usable t := by
  have hproject : ∀ name,
      (Layer.file ⟨.project p .keys, name⟩ name : Layer Dir Bytes).Good usable t :=
    fun name => h.good_file (q := ⟨.project p .keys, name⟩) rfl
  exact (hproject _).onTop ((hproject _).onTop (h.good_glob (d := .packageToolKeys) trivial _))

end Stocked

-- ---------------------------------------------------------------------------
-- Staging
-- ---------------------------------------------------------------------------

section Staging

variable {usable : String → Bytes → Prop} {fit : ConfigKind → Listing Bytes → Prop}
  {tools : Tools} (hwork : tools.Work usable fit) (p : PathProject) (k : KeyType)
  {W : Set (Path Dir)} {P : Workspace → Prop}

/-- The bootloaders are staged. -/
def Bootable (usable : String → Bytes → Prop) (fit : ConfigKind → Listing Bytes → Prop)
    (p : PathProject) (k : KeyType) (t : Workspace) : Prop :=
  Ready usable fit p t ∧ t.has ⟨.tempFirmwares k, "bootloader1.img"⟩ ∧
    t.has ⟨.tempFirmwares k, "bootloader2.img"⟩

theorem temp_subset (k : KeyType) : filesIn (.temp k) ⊆ packagingFiles :=
  temp_subset_packagingFiles rfl (by simp)

theorem tempFirmwares_subset (k : KeyType) : filesIn (.tempFirmwares k) ⊆ packagingFiles :=
  temp_subset_packagingFiles rfl (by simp)

theorem tempKeys_subset (k : KeyType) : filesIn (.tempKeys k) ⊆ packagingFiles :=
  temp_subset_packagingFiles rfl (by simp)

theorem runs_execBlankfile {file : Path Dir} (h : ∀ t, P t → t.hasDir file.dir)
    (hP : StableOff W P) (hfile : file ∈ W) (n : Nat) :
    Script.Runs P (execBlankfile file n) P :=
  .bind (.when (.weaken (runs_rmFile hP hfile) fun _ ht => ht.1))
    fun _ => .rounds (runs_append h hP hfile _) n

/-- A copy of a file that is there into an output directory. -/
theorem runs_cpReady {src dst : Path Dir} (hdst : dst ∈ packagingFiles)
    (h : ∀ t, P t → Ready usable fit p t ∧ t.has src) :
    Script.Runs P (exec (cp src dst)) (Ready usable fit p) := by
  refine .exec fun t ht => ?_
  obtain ⟨hready, hsrc⟩ := h t ht
  obtain ⟨contents, hcontents⟩ := Option.isSome_iff_exists.mp hsrc
  obtain ⟨l, hl⟩ := exists_of_hasDir (hready.outDirs dst.dir hdst.1)
  have hcp : cp src dst t = (0, t.setDir dst.dir (l.write dst.name contents)) := by
    rw [cp, hcontents, hl]
  have hagree : Tree.AgreesOff packagingFiles t (cp src dst t).2 := writes_cp hdst t
  rw [hcp] at hagree ⊢
  exact ⟨rfl, stableOff_ready p t _ hready (keepsDirs_setDir _ _ _) hagree⟩

theorem runs_copyShipped :
    Script.Runs (Ready usable fit p) (copyShipped k) (Bootable usable fit p k) := by
  have hP : StableOff packagingFiles (Ready usable fit p) := stableOff_ready p
  have hboot : ∀ t, Ready usable fit p t →
      ∀ name, name = "bootloader1.img" ∨ name = "bootloader2.img" →
        t.has ⟨bootloaderDir k, name⟩ := by
    rintro t ht name (rfl | rfl)
    · exact ht.stocked.files _ (by cases k <;> simp [neededFiles, bootloaderDir])
    · exact ht.stocked.files _ (by cases k <;> simp [neededFiles, bootloaderDir])
  have hcp : ∀ name, name = "bootloader1.img" ∨ name = "bootloader2.img" →
      Script.Runs (Ready usable fit p)
        (exec (cp ⟨bootloaderDir k, name⟩ ⟨.tempFirmwares k, name⟩)) (Ready usable fit p) :=
    fun name hname => runs_cpReady p (tempFirmwares_subset k rfl)
      fun t ht => ⟨ht, hboot t ht name hname⟩
  have hglob : ∀ t, Ready usable fit p t →
      ∃ name, globBin name ∧ t.has ⟨.packageToolFirmwares, name⟩ := fun t ht =>
    ⟨"ec_fw.bin", by decide, ht.stocked.files _ (by simp [neededFiles])⟩
  have hkeys : ∀ t, Ready usable fit p t → t.hasDir .packageToolKeys := by
    intro t ht
    obtain ⟨file, hfile⟩ := Option.isSome_iff_exists.mp
      (ht.stocked.files ⟨.packageToolKeys, "oem_publickey.pem"⟩ (by simp [neededFiles]))
    obtain ⟨l, hl, -⟩ := Option.bind_eq_some_iff.mp hfile
    rw [Tree.hasDir, hl]
    rfl
  have hruns : Script.Runs (Ready usable fit p) (copyShipped k) (Ready usable fit p) :=
    .bind (hcp _ (Or.inl rfl)) fun _ => .bind (hcp _ (Or.inr rfl)) fun _ =>
      .bind (runs_cpGlob (fun t ht => ⟨hglob t ht, ht.outDirs _ rfl⟩) hP (tempFirmwares_subset k))
        fun _ => .bind (runs_cpDir hkeys hP (tempKeys_subset k))
          fun _ => runs_execBlankfile (fun t ht => ht.outDirs _ rfl) hP (tempFirmwares_subset k rfl) _
  refine hruns.with fun t ht => ?_
  have hlayer : ∀ name, name = "bootloader1.img" ∨ name = "bootloader2.img" →
      (toolLayers k t name).isSome := by
    intro name hname
    have hsome := hboot t ht name hname
    rcases hname with rfl | rfl
    · simpa [toolLayers, Layer.onTop, bootloaderLayer, Layer.file, Tree.has] using Or.inr (Or.inr hsome)
    · simpa [toolLayers, Layer.onTop, bootloaderLayer, Layer.file, Tree.has] using Or.inr (Or.inr hsome)
  exact ((lays_copyShipped k).has (Or.inl (hlayer _ (Or.inl rfl)))).and
    ((lays_copyShipped k).has (Or.inl (hlayer _ (Or.inr rfl)))) |>.mono (fun _ _ h => h)
      fun _ _ _ => trivial

include hwork

/-- `make` goes through, and leaves its directory fit for the next one. -/
theorem runs_buildCfg {kind : ConfigKind} {target : Path Dir} (htarget : target ∈ packagingFiles) :
    Script.Runs (fun t => Ready usable fit p t ∧ t.hasDir (.project p kind.dir))
      (buildCfg tools p k kind target) (Ready usable fit p) := by
  have hmake : Script.Runs (fun t => Ready usable fit p t ∧ t.hasDir (.project p kind.dir))
      (execOrExit (inDir (.project p kind.dir) (tools.make k kind)) 1)
      fun t => Ready usable fit p t ∧ t.has ⟨.project p kind.dir, kind.file⟩ := by
    refine runs_inDir (fun t l ht hl => ?_) 1
    obtain ⟨hstatus, hfit, file, hfile, -⟩ := hwork.make k kind l (ht.fit kind l hl)
    have hkept : ∀ d, d ≠ Dir.project p kind.dir →
        t.setDir (.project p kind.dir) (tools.make k kind l).2 d = t d :=
      fun d hd => Tree.setDir_of_ne _ hd _
    refine ⟨hstatus, ⟨?_, ?_, ?_, ?_⟩, ?_⟩
    · exact ht.stocked.of_source fun d hd => hkept d ((isSource_ne hd).2.2.2.2 p kind)
    · intro kind' l' hl'
      by_cases hkind : kind' = kind
      · subst hkind
        rw [Tree.setDir_self] at hl'
        obtain rfl := Option.some.inj hl'
        exact hfit
      · rw [hkept _ (by cases kind <;> cases kind' <;> simp_all [ConfigKind.dir])] at hl'
        exact ht.fit kind' l' hl'
    · intro d hd
      rw [Tree.hasDir, hkept d (inOut_ne_config hd p kind).symm]
      exact ht.outDirs d hd
    · rw [HoldsUefi, Tree.Holds, Tree.read_setDir_of_ne _ (by simp)]
      exact ht.uefi
    · rw [Tree.has, Tree.read_setDir_self, hfile]
      rfl
  refine .bind hmake fun _ => ?_
  intro t ht
  have hcopied : Script.Runs (fun t => Ready usable fit p t ∧ t.has ⟨.project p kind.dir, kind.file⟩)
      (exec (cp ⟨.project p kind.dir, kind.file⟩ target)) fun t => Ready usable fit p t ∧ t.has target :=
    .with (runs_cpReady p htarget fun t ht => ht) fun t ht => by
      refine wp_cp fun contents l _ _ => ?_
      obtain ⟨d, name⟩ := target
      simp [Tree.has]
  exact (Script.Runs.bind hcopied fun _ => .imp (.skip fun t ht => by simpa using ht.2)
    fun t ht => ht.1) t ht

theorem runs_buildConfigs :
    Script.Runs (Ready usable fit p) (buildConfigs tools p k) (Ready usable fit p) := by
  have hcfg : ∀ kind : ConfigKind, Script.Runs (Ready usable fit p)
      (when (·.hasDir (.project p kind.dir))
        (buildCfg tools p k kind ⟨.tempFirmwares k, kind.file⟩)) (Ready usable fit p) :=
    fun kind => .when (runs_buildCfg hwork p k (tempFirmwares_subset k rfl))
  rw [buildConfigs_eq]
  exact .bind (hcfg .memory) fun _ => .bind (hcfg .csuPm) fun _ => hcfg .trustzone

omit hwork in
theorem runs_copyProjectFirmwares :
    Script.Runs (Ready usable fit p) (copyProjectFirmwares p k) (Ready usable fit p) := by
  have hstable : StableOff packagingFiles
      fun t => Ready usable fit p t ∧ t.hasDir (.project p .firmwares) :=
    (stableOff_ready p).and (stableOff_hasDir _ _)
  refine .when (.imp (runs_cpGlob ?_ hstable (tempFirmwares_subset k)) fun t ht => ht.1)
  intro t ht
  exact ⟨ht.1.stocked.projectFirmwares ht.2, ht.1.outDirs _ rfl⟩

omit hwork in
theorem runs_copyTools :
    Script.Runs (Ready usable fit p) (copyTools .other k) (Ready usable fit p) := by
  have hcp : ∀ name, ⟨.packageTool, name⟩ ∈ neededFiles → Script.Runs (Ready usable fit p)
      (exec (cp ⟨.packageTool, name⟩ ⟨.temp k, name⟩)) (Ready usable fit p) := fun name hname =>
    runs_cpReady p (temp_subset k rfl) fun t ht => ⟨ht, ht.stocked.files _ hname⟩
  exact .bind (hcp _ (by simp [neededFiles])) fun _ => .bind (hcp _ (by simp [neededFiles]))
    fun _ => .bind (hcp _ (by simp [neededFiles])) fun _ => hcp _ (by simp [neededFiles])

omit hwork in
theorem runs_copyLayoutsAndKeys :
    Script.Runs (Ready usable fit p) (copyLayoutsAndKeys p k) (Ready usable fit p) := by
  have hcp : ∀ name, ⟨.packageTool, name⟩ ∈ neededFiles → Script.Runs (Ready usable fit p)
      (exec (cp ⟨.packageTool, name⟩ ⟨.temp k, name⟩)) (Ready usable fit p) := fun name hname =>
    runs_cpReady p (temp_subset k rfl) fun t ht => ⟨ht, ht.stocked.files _ hname⟩
  have hoverride : ∀ src dst : Path Dir, dst ∈ packagingFiles →
      Script.Runs (Ready usable fit p) (copyOverride src dst) (Ready usable fit p) :=
    fun src dst hdst => .when (runs_cpReady p hdst fun t ht => ht)
  refine .bind (hcp _ (by simp [neededFiles])) fun _ => ?_
  refine .bind (hcp _ (by simp [neededFiles])) fun _ => ?_
  refine .bind (hoverride _ _ (temp_subset k rfl)) fun _ => ?_
  refine .bind (hoverride _ _ (temp_subset k rfl)) fun _ => ?_
  refine .bind (hoverride _ _ (tempKeys_subset k rfl)) fun _ => ?_
  exact hoverride _ _ (tempKeys_subset k rfl)

/-- The names that are staged where the flash images are made. -/
def tempNames : List String :=
  ["cert_uefi_create_rsa", "cix_package_tool", "fiptool", "cix_regen_trusted_key_cert",
    "spi_flash_config_all.json", "spi_flash_config_ota.json"]

/-- Everything is staged but `bootloader3.img`. -/
structure Equipped (usable : String → Bytes → Prop) (fit : ConfigKind → Listing Bytes → Prop)
    (p : PathProject) (k : KeyType) (t : Workspace) : Prop where
  ready : Ready usable fit p t
  temp : HoldsAll usable (.temp k) tempNames t
  keys : HoldsAll usable (.tempKeys k) keyNames t
  firmwares : HoldsAll usable (.tempFirmwares k)
    (FlashFile.all.firmwares.filter (· ≠ "bootloader3.img")) t

omit hwork in
/-- The firmware files of a workspace that is ready are all there. -/
theorem Ready.isSome_firmwares {t : Workspace} (h : Ready usable fit p t) :
    ∀ name ∈ FlashFile.all.firmwares.filter (· ≠ "bootloader3.img"),
      (((projectLayer p).onTop ((configLayers tools p k).onTop (toolLayers k))) t name).isSome := by
  intro name hname
  have htool : (toolLayers k t name).isSome := by
    have hboot : ∀ name, name = "bootloader1.img" ∨ name = "bootloader2.img" →
        (t.read ⟨bootloaderDir k, name⟩).isSome := by
      rintro name (rfl | rfl)
      · exact h.stocked.files _ (by cases k <;> simp [neededFiles, bootloaderDir])
      · exact h.stocked.files _ (by cases k <;> simp [neededFiles, bootloaderDir])
    have hshipped : ∀ name, ⟨.packageToolFirmwares, name⟩ ∈ neededFiles → globBin name = true →
        (shippedLayer t name).isSome := by
      intro name hmem hglob
      rw [shippedLayer, Layer.glob, if_pos hglob]
      exact h.stocked.files _ hmem
    rw [toolLayers, Layer.onTop, Layer.onTop, Option.isSome_or, Option.isSome_or, bootloaderLayer,
      Layer.onTop, Option.isSome_or]
    have hcases : name = "dummy.bin" ∨ (name = "bootloader1.img" ∨ name = "bootloader2.img") ∨
        (⟨.packageToolFirmwares, name⟩ ∈ neededFiles ∧ globBin name = true) := by
      revert name
      decide +kernel
    rcases hcases with rfl | (rfl | rfl) | ⟨hmem, hglob⟩
    · rw [dummyLayer, Layer.const, if_pos rfl, Option.isSome_some, Bool.true_or]
    · rw [Layer.file, Layer.file, if_pos rfl, hboot _ (Or.inl rfl), Bool.or_true, Bool.or_true,
        Bool.or_true]
    · rw [Layer.file, if_pos rfl, hboot _ (Or.inr rfl), Bool.true_or, Bool.or_true, Bool.or_true]
    · rw [hshipped name hmem hglob, Bool.true_or, Bool.or_true]
  rw [Layer.onTop, Layer.onTop, Option.isSome_or, Option.isSome_or, htool]
  simp

omit hwork in
theorem Ready.isSome_temp {t : Workspace} (h : Ready usable fit p t) :
    ∀ name ∈ tempNames, (((layoutLayers p).onTop (programLayer .other)) t name).isSome := by
  intro name hname
  have hfile : ∀ name ∈ tempNames, (t.read ⟨.packageTool, name⟩).isSome := by
    intro name hname
    refine h.stocked.files ⟨.packageTool, name⟩ ?_
    simp only [tempNames] at hname
    fin_cases hname <;> simp [neededFiles]
  have hsome := hfile name hname
  rw [Layer.onTop, layoutLayers, Layer.onTop, Option.isSome_or, Option.isSome_or]
  simp only [tempNames] at hname
  fin_cases hname
  all_goals simp [layoutLayer, programLayer, Layer.onTop, Layer.file] at hsome ⊢; simp [hsome]

omit hwork in
theorem Ready.isSome_keys {t : Workspace} (h : Ready usable fit p t) :
    ∀ name ∈ keyNames, (keyLayers p t name).isSome := by
  intro name hname
  have hfile : (t.read ⟨.packageToolKeys, name⟩).isSome := by
    refine h.stocked.files ⟨.packageToolKeys, name⟩ ?_
    simp only [keyNames] at hname
    fin_cases hname <;> simp [neededFiles]
  rw [keyLayers, Layer.onTop, Layer.onTop, Option.isSome_or, Option.isSome_or, Layer.glob,
    if_pos rfl, hfile]
  simp

theorem runs_stage :
    Script.Runs (Ready usable fit p) (stage tools .other p k) (Equipped usable fit p k) := by
  have hconfigs : Script.Runs (Bootable usable fit p k) (buildConfigs tools p k)
      (Bootable usable fit p k) := by
    refine .with (.weaken (runs_buildConfigs hwork p k) fun t ht => ht.1) fun t ht => ?_
    exact ((lays_buildConfigs tools p k).has (Or.inr ht.2.1)).and
      ((lays_buildConfigs tools p k).has (Or.inr ht.2.2)) |>.mono (fun _ _ h => h)
        fun _ _ _ => trivial
  have hproject : Script.Runs (Bootable usable fit p k) (copyProjectFirmwares p k)
      (Bootable usable fit p k) := by
    refine .with (.weaken (runs_copyProjectFirmwares p k) fun t ht => ht.1) fun t ht => ?_
    exact ((lays_copyProjectFirmwares p k).has (Or.inr ht.2.1)).and
      ((lays_copyProjectFirmwares p k).has (Or.inr ht.2.2)) |>.mono (fun _ _ h => h)
        fun _ _ _ => trivial
  have hfinish : Script.Runs (Bootable usable fit p k) (finishStage .other p k)
      (Ready usable fit p) := by
    refine .bind (.skip fun t ht => by simpa using ht.2.1) fun _ => ?_
    refine .bind (.skip fun t ht => by simpa using ht.2.2) fun _ => ?_
    exact .bind (.weaken (runs_copyTools p k) fun t ht => ht.1) fun _ => runs_copyLayoutsAndKeys p k
  have hruns : Script.Runs (Ready usable fit p) (stage tools .other p k) (Ready usable fit p) := by
    rw [stage_eq]
    exact .bind (runs_copyShipped p k) fun _ => .bind hconfigs fun _ => .bind hproject fun _ => hfinish
  -- What the layers of the stage say about the three directories.
  have hlaid : ∀ t, Ready usable fit p t → wp (stage tools .other p k)
      (fun _ t' => HoldsAll usable (.temp k) tempNames t' ∧ HoldsAll usable (.tempKeys k) keyNames t' ∧
        HoldsAll usable (.tempFirmwares k)
          (FlashFile.all.firmwares.filter (· ≠ "bootloader3.img")) t') (fun _ _ => True) t := by
    intro t ht
    have htemp := (lays_stage_temp tools .other p k).holds ht.stocked.good_temp (ht.isSome_temp p)
    have hkeys := (lays_stage_keys tools .other p k).holds ht.stocked.good_keys (ht.isSome_keys p)
    have hfirmwares := (lays_stage tools .other p k).holds (ht.good_firmwares hwork)
      (ht.isSome_firmwares p k)
    exact (htemp.and (hkeys.and hfirmwares)).mono (fun _ _ h => h) fun _ _ _ => trivial
  exact .imp (hruns.with hlaid) fun t ht => ⟨ht.1, ht.2.1, ht.2.2.1, ht.2.2.2⟩

end Staging

-- ---------------------------------------------------------------------------
-- The tools
-- ---------------------------------------------------------------------------

section Make

variable {usable : String → Bytes → Prop} {fit : ConfigKind → Listing Bytes → Prop}
  {tools : Tools} (hc : tools.Confined) (hwork : tools.Work usable fit) (s : Settings)
  (p : PathProject) (k : KeyType)

theorem stableOff_holdsAll {W : Set (Path Dir)} {d : Dir} {names : List String}
    (h : ∀ name ∈ names, (⟨d, name⟩ : Path Dir) ∉ W) : StableOff W (HoldsAll usable d names) :=
  fun t t' ht hdirs hagree name hname =>
    stableOff_holds usable (h name hname) t t' (ht name hname) hdirs hagree

/-- What is staged does not depend on what is made of it. -/
theorem stableOff_equipped : StableOff (madeFiles k) (Equipped usable fit p k) := by
  have hsub : madeFiles k ⊆ packagingFiles := by
    rintro q ((h | rfl) | ⟨f, rfl | rfl⟩)
    · exact temp_subset_packagingFiles rfl (by simp) h
    · exact tempFirmwares_subset k rfl
    · exact temp_subset k rfl
    · refine ⟨rfl, fun h => ?_⟩
      have hname : ∀ k (f : FlashFile), f.name k ≠ "SKY1_BL33_UEFI.fd" := by
        intro k f
        cases k <;> cases f <;> decide
      exact hname k f (congrArg Path.name h)
  have htemp : ∀ name ∈ tempNames, (⟨.temp k, name⟩ : Path Dir) ∉ madeFiles k := by
    have hnames : ∀ k (f : FlashFile), ∀ name ∈ tempNames, name ≠ f.name k := by
      intro k f
      cases k <;> cases f <;> decide
    rintro name hname ((h | h) | ⟨f, h | h⟩)
    · cases h
    · cases h
    · exact hnames k f name hname (congrArg Path.name h)
    · cases h
  have hkeys : ∀ name ∈ keyNames, (⟨.tempKeys k, name⟩ : Path Dir) ∉ madeFiles k := by
    rintro name - ((h | h) | ⟨f, h | h⟩) <;> cases h
  have hfirmwares : ∀ name ∈ FlashFile.all.firmwares.filter (· ≠ "bootloader3.img"),
      (⟨.tempFirmwares k, name⟩ : Path Dir) ∉ madeFiles k := by
    rintro name hname ((h | h) | ⟨f, h | h⟩)
    · cases h
    · have hboot : name = "bootloader3.img" := congrArg Path.name h
      exact absurd (List.mem_filter.mp hname).2 (by simp [hboot])
    · cases h
    · cases h
  intro t t' ht hdirs hagree
  exact ⟨(stableOff_ready p).mono hsub t t' ht.ready hdirs hagree,
    stableOff_holdsAll htemp t t' ht.temp hdirs hagree,
    stableOff_holdsAll hkeys t t' ht.keys hdirs hagree,
    stableOff_holdsAll hfirmwares t t' ht.firmwares hdirs hagree⟩

theorem Equipped.has_tool {t : Workspace} (h : Equipped usable fit p k t) {name : String}
    (hname : name ∈ tempNames) : t.has ⟨.temp k, name⟩ :=
  (h.temp name hname).has

/-- Everything is there that `cix_package_tool` needs. -/
def Complete (usable : String → Bytes → Prop) (fit : ConfigKind → Listing Bytes → Prop)
    (p : PathProject) (k : KeyType) (t : Workspace) : Prop :=
  Equipped usable fit p k t ∧ HoldsAll usable (.tempFirmwares k) ["bootloader3.img"] t

theorem Complete.firmwares {t : Workspace} (h : Complete usable fit p k t) (f : FlashFile) :
    HoldsAll usable (.tempFirmwares k) f.firmwares t := by
  intro name hname
  by_cases hboot : name = "bootloader3.img"
  · rw [hboot]
    exact h.2 _ (List.mem_singleton_self _)
  · refine h.1.firmwares name (List.mem_filter.mpr ⟨?_, by simpa using hboot⟩)
    cases f with
    | all => exact hname
    | ota => exact absurd (List.mem_singleton.mp hname) hboot

include hc hwork

theorem runs_generateBootloader3 :
    Script.Runs (Equipped usable fit p k) (generateBootloader3 tools k)
      (Complete usable fit p k) := by
  have hcerts : filesIn (.tempCerts k) ⊆ madeFiles k := fun q hq => Or.inl (Or.inl hq)
  have hboot : {⟨.tempFirmwares k, "bootloader3.img"⟩} ⊆ madeFiles k :=
    fun q hq => Or.inl (Or.inr hq)
  have hstable : StableOff (madeFiles k) (Equipped usable fit p k) := stableOff_equipped p k
  have hregen := runs_runTool ⟨.temp k, "cix_regen_trusted_key_cert"⟩
    (hwork.cixRegenTrustedKeyCert k) (hc.cixRegenTrustedKeyCert k)
    (fun t ht => ⟨ht.has_tool p k (by simp [tempNames]), ⟨ht.keys, ht.ready.outDirs _ rfl⟩, ht⟩)
    (hstable.mono hcerts)
  have hcert := runs_runTool ⟨.temp k, "cert_uefi_create_rsa"⟩
    (P := fun t => Equipped usable fit p k t ∧
      HoldsAll usable (.tempCerts k) ["trusted_key_no.crt"] t)
    (hwork.certUefiCreateRsa k) (hc.certUefiCreateRsa k)
    (fun t ht => ⟨ht.1.has_tool p k (by simp [tempNames]), ⟨ht.1.keys, ht.1.ready.uefi, ht.2⟩, ht.1⟩)
    (hstable.mono hcerts)
  have hfip := runs_runTool ⟨.temp k, "fiptool"⟩
    (P := fun t => Equipped usable fit p k t ∧ HoldsAll usable (.tempCerts k) certNames t)
    (hwork.fiptool k) (hc.fiptool k)
    (fun t ht => ⟨ht.1.has_tool p k (by simp [tempNames]),
      ⟨ht.2, ht.1.ready.uefi, ht.1.ready.outDirs _ rfl⟩, ht.1⟩)
    (hstable.mono hboot)
  refine .bind hregen fun _ => .bind hcert fun _ => .bind hfip fun _ => .skip fun t ht => ?_
  have hthere := (ht.2 _ (List.mem_singleton_self _)).has
  simpa using hthere

theorem runs_generateFlashImage (f : FlashFile) :
    Script.Runs (Complete usable fit p k) (generateFlashImage tools k f)
      (Complete usable fit p k) := by
  have hstable : ∀ d, d = Dir.temp k ∨ d = .out →
      StableOff {⟨d, f.name k⟩} (Complete usable fit p k) := by
    intro d hd
    have hmade : {⟨d, f.name k⟩} ⊆ madeFiles k := by
      refine Set.singleton_subset_iff.mpr (Or.inr ⟨f, ?_⟩)
      rcases hd with rfl | rfl
      · exact Or.inl rfl
      · exact Or.inr rfl
    refine ((stableOff_equipped p k).mono hmade).and (stableOff_holdsAll ?_)
    rintro name - h
    rcases hd with rfl | rfl <;> cases h
  have himage : StableOff {⟨.out, f.name k⟩}
      fun t => Complete usable fit p k t ∧ t.has ⟨.temp k, f.name k⟩ :=
    (hstable _ (Or.inr rfl)).and (stableOff_has fun h => by cases h)
  have hlayout : f.config ∈ tempNames := by cases f <;> simp [tempNames, FlashFile.config]
  have hpackage := runs_runTool ⟨.temp k, "cix_package_tool"⟩
    (hwork.cixPackageTool k f) (hc.cixPackageTool k f)
    (fun t (ht : Complete usable fit p k t) => ⟨ht.1.has_tool p k (by simp [tempNames]),
      ⟨ht.1.temp _ hlayout, ht.firmwares p k f⟩, ht⟩) (hstable _ (Or.inl rfl))
  refine .bind hpackage fun _ => ?_
  exact .imp (runs_cp (fun t ht => ⟨ht.2, ht.1.1.ready.outDirs _ rfl⟩) himage rfl) fun t ht => ht.1.1

theorem runs_execCixMkimage :
    Script.Runs (Ready usable fit s.pathProject) (execCixMkimage tools .other s k)
      (Ready usable fit s.pathProject) :=
  .bind (runs_stage hwork _ k) fun _ => .bind (runs_generateBootloader3 hc hwork _ k) fun _ =>
    .bind (runs_generateFlashImage hc hwork _ k .all) fun _ =>
      .imp (runs_generateFlashImage hc hwork _ k .ota) fun _ ht => ht.1.ready

omit hc hwork in
/-- The firmware image that a build which goes through leaves. -/
theorem wp_execBuildUefi (hbuild : ∀ t image, (tools.build s t).1 = 0 →
    (tools.build s t).2.read ⟨fvDir s.uefiProject, "SKY1_BL33_UEFI.fd"⟩ = some image →
      usable "SKY1_BL33_UEFI.fd" image) (habl : Command.Writes (filesIn .sky1Abl) tools.genAblCap)
    (t : Workspace) :
    wp (execBuildUefi tools s) (fun _ t' => HoldsUefi usable t') (fun _ _ => True) t := by
  have hkept : ∀ {W : Set (Path Dir)} {m : Script Workspace Unit}, Script.Writes W m →
      ⟨.out, "SKY1_BL33_UEFI.fd"⟩ ∉ W → ∀ t, HoldsUefi usable t →
        wp m (fun _ t' => HoldsUefi usable t') (fun _ _ => True) t := by
    intro W m hw hout t ht
    refine (hw t).mono ?_ fun _ _ _ => trivial
    intro _ t' hagree
    rw [HoldsUefi, Tree.Holds, hagree.file _ hout]
    exact ht
  let W : Set (Path Dir) := filesIn .sky1Abl ∪ {⟨.out, "LinuxLoader.efi.cap"⟩}
  have hloader : filesIn .sky1Abl ⊆ W := fun q hq => Or.inl hq
  have hcap : ⟨.out, "LinuxLoader.efi.cap"⟩ ∈ W := Or.inr rfl
  have handroid : Script.Writes W (when (fun _ => s.osSupportType == "android") do
      exec (cp ⟨.linuxLoader, "LinuxLoader.efi"⟩ ⟨.sky1Abl, "LinuxLoader.efi"⟩)
      exec tools.genAblCap
      exec (cp ⟨.sky1Abl, "LinuxLoader.efi.cap"⟩ ⟨.out, "LinuxLoader.efi.cap"⟩)) := by
    refine .when (.bind (.exec (writes_cp (hloader rfl))) fun _ => ?_) _
    exact .bind (Script.Writes.mono (.exec habl) hloader) fun _ => .exec (writes_cp hcap)
  refine wp_bind_last fun _ t₁ => ?_
  refine wp_bind_last fun _ t₂ => ?_
  rw [wp_bind, wp_exec]
  split
  next hstatus =>
    rw [wp_bind]
    refine wp_cp fun image l himage hl => ?_
    refine hkept handroid (by simp [W]) _ ⟨image, ?_, hbuild t₂ image hstatus himage⟩
    simp
  next => trivial

end Make

end PackageTool
