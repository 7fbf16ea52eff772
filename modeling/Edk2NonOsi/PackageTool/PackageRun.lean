-- SUMMARY: Whole runs of `build_and_package.sh`: what each key type is packaged from in a run that goes through.
import Edk2NonOsi.PackageTool.Staging

open Shell

namespace PackageTool

-- ---------------------------------------------------------------------------
-- `exec_cix_mkimage`
-- ---------------------------------------------------------------------------

/-- What is left for a key type: the staged firmware files, which the `bootloader3.img` joins that
    `fiptool` made, and the flash images, which `cix_package_tool` made of these files and of a
    flash layout. -/
structure Leaves (tools : Tools) (k : KeyType) (staged : String → Option Bytes)
    (layout : FlashFile → Option Bytes) (t : Workspace) : Prop where
  firmware : ∀ name, name ≠ "bootloader3.img" → t.read ⟨.tempFirmwares k, name⟩ = staged name
  bootloader3 : ∃ t₀ fip, (tools.fiptool k t₀).1 = 0 ∧
    (tools.fiptool k t₀).2.read ⟨.tempFirmwares k, "bootloader3.img"⟩ = some fip ∧
      t.read ⟨.tempFirmwares k, "bootloader3.img"⟩ = some fip
  flash : ∀ f : FlashFile, ∃ t₀ image,
    (∀ name, t₀.read ⟨.tempFirmwares k, name⟩ = t.read ⟨.tempFirmwares k, name⟩) ∧
      t₀.read ⟨.temp k, f.config⟩ = layout f ∧ (tools.cixPackageTool k f t₀).1 = 0 ∧
      (tools.cixPackageTool k f t₀).2.read ⟨.temp k, f.name k⟩ = some image ∧
      t.read ⟨.temp k, f.name k⟩ = some image ∧ t.read ⟨.out, f.name k⟩ = some image

theorem Leaves.congr {tools : Tools} {k : KeyType} {staged staged' : String → Option Bytes}
    {layout layout' : FlashFile → Option Bytes} {t : Workspace} (h : Leaves tools k staged layout t)
    (heq : ∀ name, staged name = staged' name) (hlayout : ∀ f, layout f = layout' f) :
    Leaves tools k staged' layout' t := by
  have hstaged : staged = staged' := funext heq
  have hlayouts : layout = layout' := funext hlayout
  rwa [← hstaged, ← hlayouts]

/-- The flash layout of a run: that of the project, or that of the tool. -/
def layoutFile (p : PathProject) (t : Workspace) (f : FlashFile) : Option Bytes :=
  (t.read ⟨.project p .root, f.config⟩).or (t.read ⟨.packageTool, f.config⟩)

/-- The files that `exec_cix_mkimage` writes. -/
def mkimageFiles (p : PathProject) (k : KeyType) : Set (Path Dir) :=
  configFiles p ∪ filesIn (.tempFirmwares k) ∪ toolFiles k ∪ madeFiles k

theorem FlashFile.config_ne_name (f f' : FlashFile) (k : KeyType) : f.config ≠ f'.name k := by
  cases k <;> cases f <;> cases f' <;> decide

section Mkimage

variable {tools : Tools} (hc : tools.Confined) (machine : Machine) (s : Settings)
  (p : PathProject) (k : KeyType)

theorem writes_stage {W : Set (Path Dir)} (hconfig : configFiles p ⊆ W)
    (hfirmwares : filesIn (.tempFirmwares k) ⊆ W) (htools : toolFiles k ⊆ W) :
    Script.Writes W (stage tools machine p k) := by
  have hkeys : filesIn (.tempKeys k) ⊆ W := fun q hq => htools (Or.inr hq)
  rw [stage_eq]
  refine .bind (writes_copyShipped k hfirmwares hkeys) fun _ => ?_
  refine .bind (writes_buildConfigs p k hconfig hfirmwares) fun _ => ?_
  refine .bind (writes_copyProjectFirmwares p k hfirmwares) fun _ => ?_
  exact (writes_finishStage machine p k).mono htools

/-- The listing that `make` leaves. -/
def makeListing (tools : Tools) (k : KeyType) (kind : ConfigKind) :
    Option (Listing Bytes) → Option (Listing Bytes) :=
  Option.map fun l => (tools.make k kind l).2

theorem maps_buildCfg (kind : ConfigKind) :
    Script.Maps (.project p kind.dir) (makeListing tools k kind)
      (when (·.hasDir (.project p kind.dir))
        (buildCfg tools p k kind ⟨.tempFirmwares k, kind.file⟩)) := by
  have hcopy : Script.Writes {⟨.tempFirmwares k, kind.file⟩}
      (exec (cp ⟨.project p kind.dir, kind.file⟩ ⟨.tempFirmwares k, kind.file⟩) :
        Script Workspace Unit) :=
    .exec (writes_cp (Set.mem_singleton _))
  have hrest := hcopy.bind fun _ => Script.Keeps.when (.exit 1)
    fun t => !t.has ⟨.tempFirmwares k, kind.file⟩
  have hcfg := Script.Maps.bind (maps_inDir (.project p kind.dir) (tools.make k kind) 1)
    fun _ => .of_writes hrest fun name => by simp
  refine .when hcfg ?_
  intro t h
  have hnone : t (.project p kind.dir) = none := by simpa [Tree.hasDir] using h
  simp [hnone, makeListing]

theorem maps_buildConfigs (kind : ConfigKind) :
    Script.Maps (.project p kind.dir) (makeListing tools k kind) (buildConfigs tools p k) := by
  have hmaps : ∀ kind' : ConfigKind, Script.Maps (.project p kind.dir)
      (if kind' = kind then makeListing tools k kind else id)
      (when (·.hasDir (.project p kind'.dir))
        (buildCfg tools p k kind' ⟨.tempFirmwares k, kind'.file⟩)) := by
    intro kind'
    split
    next h =>
      subst h
      exact maps_buildCfg p k kind'
    next h =>
      have htarget : (⟨.tempFirmwares k, kind'.file⟩ : Path Dir) ∈
          filesIn (.project p kind'.dir) ∪ {⟨.tempFirmwares k, kind'.file⟩} := Or.inr rfl
      refine .of_writes (.when (writes_buildCfg p k Set.subset_union_left htarget) _) ?_
      intro name
      cases kind <;> cases kind' <;> simp_all [ConfigKind.dir]
  have hall := Script.Maps.bind (hmaps .memory) fun _ =>
    Script.Maps.bind (hmaps .csuPm) fun _ => hmaps .trustzone
  rw [buildConfigs_eq]
  cases kind <;> simpa using hall

/-- `make` goes through for a configuration that is there, and its file is there afterwards. -/
def Makes (tools : Tools) (p : PathProject) (k : KeyType) (kind : ConfigKind) (t : Workspace) :
    Prop :=
  ∀ l, t (.project p kind.dir) = some l →
    (tools.make k kind l).1 = 0 ∧ ((tools.make k kind l).2.read kind.file).isSome

theorem Makes.congr {p : PathProject} {k : KeyType} {kind : ConfigKind} {t t' : Workspace}
    (h : t' (.project p kind.dir) = t (.project p kind.dir)) (hm : Makes tools p k kind t') :
    Makes tools p k kind t :=
  fun l hl => hm l (h.trans hl)

theorem demands_buildCfg (kind : ConfigKind) :
    Script.Demands (Makes tools p k kind) (when (·.hasDir (.project p kind.dir))
      (buildCfg tools p k kind ⟨.tempFirmwares k, kind.file⟩)) := by
  have hmake : Script.Demands (Makes tools p k kind)
      (buildCfg tools p k kind ⟨.tempFirmwares k, kind.file⟩) := by
    intro t
    rw [buildCfg, wp_bind, wp_execOrExit]
    unfold inDir
    split
    next l hl =>
      split
      next hstatus =>
        rw [wp_bind]
        refine wp_cp fun contents _ hsrc _ => ?_
        refine wp_true.mono (fun _ _ _ => ?_) fun _ _ _ => trivial
        intro l' hl'
        obtain rfl := Option.some.inj (hl.symm.trans hl')
        rw [Tree.read_setDir_self] at hsrc
        exact ⟨hstatus, by rw [hsrc]; rfl⟩
      next => trivial
    next => simp
  refine .when hmake ?_
  intro t h l hl
  simp [Tree.hasDir, hl] at h

theorem demands_buildConfigs (kind : ConfigKind) :
    Script.Demands (Makes tools p k kind) (buildConfigs tools p k) := by
  have hw : ∀ kind' : ConfigKind, Script.Writes
      (filesIn (.project p kind'.dir) ∪ filesIn (.tempFirmwares k))
      (when (·.hasDir (.project p kind'.dir))
        (buildCfg tools p k kind' ⟨.tempFirmwares k, kind'.file⟩)) := by
    intro kind'
    have htarget : (⟨.tempFirmwares k, kind'.file⟩ : Path Dir) ∈
        filesIn (.project p kind'.dir) ∪ filesIn (.tempFirmwares k) := Or.inr rfl
    exact .when (writes_buildCfg p k Set.subset_union_left htarget) _
  have hback : ∀ kind' : ConfigKind, kind' ≠ kind → ∀ t t' : Workspace,
      Tree.AgreesOff (filesIn (.project p kind'.dir) ∪ filesIn (.tempFirmwares k)) t t' →
        Makes tools p k kind t' → Makes tools p k kind t := by
    intro kind' hne t t' hagree
    refine Makes.congr (hagree.dir _ ?_)
    intro name
    cases kind <;> cases kind' <;> simp_all [ConfigKind.dir]
  rw [buildConfigs_eq]
  cases kind with
  | memory => exact (demands_buildCfg p k .memory).bind_left
  | csuPm =>
    exact .bind_right (hw .memory) (fun _ => (demands_buildCfg p k .csuPm).bind_left)
      (hback _ (by decide))
  | trustzone =>
    exact .bind_right (hw .memory) (fun _ => .bind_right (hw .csuPm)
      (fun _ => demands_buildCfg p k .trustzone) (hback _ (by decide))) (hback _ (by decide))

theorem demands_execCixMkimage (kind : ConfigKind) :
    Script.Demands (Makes tools s.pathProject k kind) (execCixMkimage tools machine s k) := by
  have hshipped : Script.Writes (filesIn (.tempFirmwares k) ∪ filesIn (.tempKeys k))
      (copyShipped k) := writes_copyShipped k Set.subset_union_left Set.subset_union_right
  refine .bind_left (.bind_right hshipped
    (fun _ => (demands_buildConfigs s.pathProject k kind).bind_left) ?_)
  intro t t' hagree
  exact Makes.congr (hagree.dir _ fun name => by simp)

theorem maps_stage (kind : ConfigKind) :
    Script.Maps (.project p kind.dir) (makeListing tools k kind) (stage tools machine p k) := by
  have hshipped : Script.Maps (.project p kind.dir) id (copyShipped k) :=
    .of_writes (writes_copyShipped k Set.subset_union_left Set.subset_union_right)
      fun name => by simp
  have hproject : Script.Maps (.project p kind.dir) id (copyProjectFirmwares p k) :=
    .of_writes (writes_copyProjectFirmwares p k subset_rfl) fun name => by simp
  have hfinish : Script.Maps (.project p kind.dir) id (finishStage machine p k) :=
    .of_writes (writes_finishStage machine p k) fun name => by simp [toolFiles]
  exact .bind hshipped fun _ => .bind (maps_buildConfigs p k kind) fun _ =>
    .bind hproject fun _ => hfinish

theorem wp_generateFlashImage (f : FlashFile) (t : Workspace) :
    wp (generateFlashImage tools k f)
      (fun _ t' => (tools.cixPackageTool k f t).1 = 0 ∧ ∃ image,
        (tools.cixPackageTool k f t).2.read ⟨.temp k, f.name k⟩ = some image ∧
          t'.read ⟨.temp k, f.name k⟩ = some image ∧ t'.read ⟨.out, f.name k⟩ = some image)
      (fun _ _ => True) t := by
  rw [generateFlashImage, wp_bind, wp_exec]
  unfold runTool
  split
  next =>
    split
    next hstatus =>
      refine wp_cp fun image l hread _ => ⟨hstatus, image, hread, ?_, ?_⟩
      · rw [Tree.read_setDir_of_ne _ (by simp), hread]
      · simp
    next => trivial
  next => simp

include hc

theorem writes_execCixMkimage :
    Script.Writes (mkimageFiles s.pathProject k) (execCixMkimage tools machine s k) := by
  have hmade : madeFiles k ⊆ mkimageFiles s.pathProject k := fun q hq => Or.inr hq
  have hflash : ∀ f, Script.Writes (mkimageFiles s.pathProject k) (generateFlashImage tools k f) :=
    fun f => writes_generateFlashImage hc k (hmade (Or.inr ⟨f, Or.inl rfl⟩))
      (hmade (Or.inr ⟨f, Or.inr rfl⟩))
  refine .bind (writes_stage machine _ k (fun q hq => Or.inl (Or.inl (Or.inl hq)))
    (fun q hq => Or.inl (Or.inl (Or.inr hq))) fun q hq => Or.inl (Or.inr hq)) fun _ => ?_
  refine .bind ((writes_generateBootloader3 hc k).mono hmade) fun _ => ?_
  exact .bind (hflash .all) fun _ => hflash .ota

omit hc in
theorem wp_generateBootloader3 (t : Workspace) :
    wp (generateBootloader3 tools k)
      (fun _ t' => ∃ t₀ fip, (tools.fiptool k t₀).1 = 0 ∧
        (tools.fiptool k t₀).2.read ⟨.tempFirmwares k, "bootloader3.img"⟩ = some fip ∧
          t'.read ⟨.tempFirmwares k, "bootloader3.img"⟩ = some fip) (fun _ _ => True) t := by
  refine wp_bind_last fun _ _ => wp_bind_last fun _ t₀ => ?_
  rw [wp_bind, wp_exec, require]
  unfold runTool
  split
  next =>
    split
    next hstatus =>
      rw [wp_when]
      split
      next => trivial
      next hhas =>
        rw [Bool.not_eq_true', Bool.not_eq_false] at hhas
        obtain ⟨fip, hfip⟩ := Option.isSome_iff_exists.mp hhas
        exact ⟨t₀, fip, hstatus, hfip, hfip⟩
    next => trivial
  next => simp

/-- The flash images, each made of the firmware files and the layout as they are before. -/
theorem wp_generateFlashImages (t : Workspace) :
    wp (do
        generateFlashImage tools k .all
        generateFlashImage tools k .ota)
      (fun _ t' => (∀ name, t'.read ⟨.tempFirmwares k, name⟩ = t.read ⟨.tempFirmwares k, name⟩) ∧
        ∀ f : FlashFile, ∃ t₀ image,
          (∀ name, t₀.read ⟨.tempFirmwares k, name⟩ = t'.read ⟨.tempFirmwares k, name⟩) ∧
            t₀.read ⟨.temp k, f.config⟩ = t.read ⟨.temp k, f.config⟩ ∧
            (tools.cixPackageTool k f t₀).1 = 0 ∧
            (tools.cixPackageTool k f t₀).2.read ⟨.temp k, f.name k⟩ = some image ∧
            t'.read ⟨.temp k, f.name k⟩ = some image ∧ t'.read ⟨.out, f.name k⟩ = some image)
      (fun _ _ => True) t := by
  have hwrites : ∀ f, Script.Writes {⟨.temp k, f.name k⟩, ⟨.out, f.name k⟩}
      (generateFlashImage tools k f) :=
    fun f => writes_generateFlashImage hc k (Or.inl rfl) (Or.inr rfl)
  have hnames : FlashFile.all.name k ≠ FlashFile.ota.name k := by cases k <;> decide
  rw [wp_bind]
  refine ((wp_generateFlashImage k .all t).and (hwrites .all t)).mono ?_ fun _ _ _ => trivial
  rintro _ t₁ ⟨⟨hstatus, image, hmade, htemp, hout⟩, hagree₁⟩
  refine ((wp_generateFlashImage k .ota t₁).and (hwrites .ota t₁)).mono ?_ fun _ _ _ => trivial
  rintro _ t₂ ⟨⟨hstatus', image', hmade', htemp', hout'⟩, hagree₂⟩
  have hfirmwares₁ : ∀ name, t₁.read ⟨.tempFirmwares k, name⟩ = t.read ⟨.tempFirmwares k, name⟩ :=
    fun name => hagree₁.file _ (by simp)
  have hfirmwares₂ : ∀ name, t₂.read ⟨.tempFirmwares k, name⟩ = t₁.read ⟨.tempFirmwares k, name⟩ :=
    fun name => hagree₂.file _ (by simp)
  have hlayout : t₁.read ⟨.temp k, FlashFile.ota.config⟩ =
      t.read ⟨.temp k, FlashFile.ota.config⟩ := by
    refine hagree₁.file _ ?_
    rintro (h | h)
    · exact FlashFile.config_ne_name .ota .all k (congrArg Path.name h)
    · cases h
  refine ⟨fun name => (hfirmwares₂ name).trans (hfirmwares₁ name), fun f => ?_⟩
  cases f with
  | all =>
    refine ⟨t, image, fun name => ?_, rfl, hstatus, hmade, ?_, ?_⟩
    · rw [hfirmwares₂ name, hfirmwares₁ name]
    · rw [hagree₂.file _ (by simpa using hnames), htemp]
    · rw [hagree₂.file _ (by simpa using hnames), hout]
  | ota =>
    exact ⟨t₁, image', fun name => (hfirmwares₂ name).symm, hlayout, hstatus', hmade', htemp', hout'⟩

/-- The tools make `bootloader3.img` and the flash images out of what is staged. -/
theorem wp_make (t : Workspace) :
    wp (do
        generateBootloader3 tools k
        generateFlashImage tools k .all
        generateFlashImage tools k .ota)
      (fun _ t' => Leaves tools k (fun name => t.read ⟨.tempFirmwares k, name⟩)
        (fun f => t.read ⟨.temp k, f.config⟩) t') (fun _ _ => True) t := by
  rw [wp_bind]
  refine ((wp_generateBootloader3 k t).and (writes_generateBootloader3 hc k t)).mono ?_
    fun _ _ _ => trivial
  rintro _ t₁ ⟨⟨t₀, fip, hstatus, hmade, hfip⟩, hagree⟩
  refine (wp_generateFlashImages hc k t₁).mono ?_ fun _ _ _ => trivial
  rintro _ t₂ ⟨hfirmwares, hflash⟩
  have hlayout : ∀ f : FlashFile, t₁.read ⟨.temp k, f.config⟩ = t.read ⟨.temp k, f.config⟩ := by
    intro f
    refine hagree.file _ ?_
    rintro ((h | h) | ⟨f', h | h⟩)
    · cases h
    · cases h
    · exact FlashFile.config_ne_name f f' k (congrArg Path.name h)
    · cases h
  constructor
  · intro name hname
    rw [hfirmwares name, hagree.file _ ?_]
    simpa [madeFiles] using hname
  · exact ⟨t₀, fip, hstatus, hmade, (hfirmwares _).trans hfip⟩
  · intro f
    obtain ⟨t₀, image, hstaged, hconfig, hmade⟩ := hflash f
    exact ⟨t₀, image, hstaged, hconfig.trans (hlayout f), hmade⟩

omit hc in
theorem layers_layout (f : FlashFile) (t : Workspace) :
    ((layoutLayers p).onTop (programLayer machine)) t f.config = layoutFile p t f := by
  have hprogram : programLayer machine t f.config = none := by
    cases machine <;> cases f <;> simp [programLayer, Layer.onTop, Layer.file, FlashFile.config]
  rw [Layer.onTop, hprogram, Option.or_none, layoutFile]
  cases f <;> simp [layoutLayers, layoutLayer, Layer.onTop, Layer.file, FlashFile.config]

/-- What `exec_cix_mkimage` leaves. -/
theorem wp_execCixMkimage (t : Workspace) :
    wp (execCixMkimage tools machine s k)
      (fun _ t' => Leaves tools k (fun name =>
        (((projectLayer s.pathProject).onTop ((configLayers tools s.pathProject k).onTop
          (toolLayers k))) t name).or (t.read ⟨.tempFirmwares k, name⟩))
        (fun f => (layoutFile s.pathProject t f).or (t.read ⟨.temp k, f.config⟩)) t')
      (fun _ _ => True) t := by
  rw [execCixMkimage, wp_bind]
  refine ((lays_stage tools machine s.pathProject k t).and
    (lays_stage_temp tools machine s.pathProject k t)).mono ?_ fun _ _ _ => trivial
  rintro _ t₁ ⟨hstaged, htemp⟩
  refine (wp_make hc k t₁).mono ?_ fun _ _ _ => trivial
  intro _ t₂ hleaves
  refine hleaves.congr hstaged fun f => ?_
  rw [htemp f.config, layers_layout]

theorem maps_execCixMkimage (kind : ConfigKind) :
    Script.Maps (.project s.pathProject kind.dir) (makeListing tools k kind)
      (execCixMkimage tools machine s k) := by
  have hflash : ∀ f, Script.Maps (.project s.pathProject kind.dir) id
      (generateFlashImage tools k f) := by
    intro f
    have hw : Script.Writes {⟨.temp k, f.name k⟩, ⟨.out, f.name k⟩}
        (generateFlashImage tools k f) :=
      writes_generateFlashImage hc k (Or.inl rfl) (Or.inr rfl)
    exact .of_writes hw fun name => by simp
  have hboot3 : Script.Maps (.project s.pathProject kind.dir) id (generateBootloader3 tools k) :=
    .of_writes (writes_generateBootloader3 hc k) fun name => by simp [madeFiles]
  have hstage : Script.Maps (.project s.pathProject kind.dir) (makeListing tools k kind)
      (stage tools machine s.pathProject k) := maps_stage machine s.pathProject k kind
  have hall := hstage.bind fun _ => hboot3.bind fun _ => (hflash .all).bind fun _ => hflash .ota
  simp only [Function.id_comp] at hall
  exact hall

end Mkimage

-- ---------------------------------------------------------------------------
-- A run that goes through
-- ---------------------------------------------------------------------------

theorem prepareOutput_apply (t : Workspace) (d : Dir) :
    prepareOutput t d = if d.inOut then some [] else t d := by
  rw [prepareOutput, foldl_mkdir_apply]
  cases d with
  | temp k => cases k <;> simp [rmDirs, Dir.inOut]
  | tempFirmwares k => cases k <;> simp [rmDirs, Dir.inOut]
  | tempKeys k => cases k <;> simp [rmDirs, Dir.inOut]
  | tempCerts k => cases k <;> simp [rmDirs, Dir.inOut]
  | _ => simp [rmDirs, Dir.inOut]

/-- The directory of a configuration as the run for a key type finds it, which for `pr2` is as
    `make` left it in the run for `pr`. -/
def configDir (tools : Tools) (p : PathProject) (kind : ConfigKind) (t : Workspace) :
    KeyType → Option (Listing Bytes)
  | .pr => t (.project p kind.dir)
  | .pr2 => makeListing tools .pr kind (t (.project p kind.dir))

/-- The file of a configuration that `make` leaves in the run for a key type. -/
def configFile (tools : Tools) (p : PathProject) (t : Workspace) (k : KeyType)
    (kind : ConfigKind) : Option Bytes :=
  (configDir tools p kind t k).bind fun l => (tools.make k kind l).2.read kind.file

/-- The firmware files that a run stages for a key type, from the workspace as it was: the files
    of the project before its configurations, and these before the files of the tool. -/
def stagedFiles (tools : Tools) (p : PathProject) (t : Workspace) (k : KeyType)
    (name : String) : Option Bytes :=
  let config kind := if name = ConfigKind.file kind then configFile tools p t k kind else none
  (projectLayer p t name).or <| (config .trustzone).or <| (config .csuPm).or <|
    (config .memory).or <| toolLayers k t name

/-- The files that a run may touch. -/
def touchedFiles (p : PathProject) : Set (Path Dir) :=
  configFiles p ∪ {q | q.dir.inOut ∨ (q.dir.isBuild ∨ q.dir.isPrepared) ∨ q.dir = .sky1Abl}

/-- The files that runs may touch, for whichever project. -/
def changingFiles : Set (Path Dir) :=
  {q | (∃ p kind, q.dir = .project p (ConfigKind.dir kind)) ∨ q.dir.inOut ∨
    (q.dir.isBuild ∨ q.dir.isPrepared) ∨ q.dir = .sky1Abl}

theorem touchedFiles_subset (p : PathProject) : touchedFiles p ⊆ changingFiles := by
  rintro q (⟨kind, h⟩ | h)
  · exact Or.inl ⟨p, kind, h⟩
  · exact Or.inr h

theorem buildFiles_subset (p : PathProject) : buildFiles ⊆ touchedFiles p := by
  rintro q ((h | h) | (rfl | rfl))
  · exact Or.inr (Or.inr (Or.inl h))
  · exact Or.inr (Or.inr (Or.inr h))
  · exact Or.inr (Or.inl rfl)
  · exact Or.inr (Or.inl rfl)

theorem mkimageFiles_subset (p : PathProject) (k : KeyType) :
    mkimageFiles p k ⊆ touchedFiles p := by
  have hout : ∀ {q : Path Dir} {d : Dir}, d.inOut → q.dir = d → q ∈ touchedFiles p := by
    rintro q d hd rfl
    exact Or.inr (Or.inl hd)
  rintro q (((h | h) | (h | h)) | ((h | h) | ⟨f, h | h⟩))
  · exact Or.inl h
  · exact hout rfl h
  · exact hout rfl h
  · exact hout rfl h
  · exact hout rfl h
  · exact hout rfl (congrArg Path.dir h)
  · exact hout rfl (congrArg Path.dir h)
  · exact hout rfl (congrArg Path.dir h)

theorem prepareOutput_agreesOff {W : Set (Path Dir)} (hW : ∀ q : Path Dir, q.dir.inOut → q ∈ W)
    (t : Workspace) : Tree.AgreesOff W t (prepareOutput t) := by
  have hkept : ∀ d, d.inOut = false → prepareOutput t d = t d := by
    intro d hd
    rw [prepareOutput_apply, hd]
    rfl
  constructor
  · intro d hd
    apply hkept
    by_contra hout
    exact hd "" (hW ⟨d, ""⟩ (by simpa using hout))
  · intro q hq
    apply Tree.read_congr
    apply hkept
    by_contra hout
    exact hq (hW q (by simpa using hout))

section Run

variable {tools : Tools} {machine : Machine} {s : Settings} {p : PathProject} {k : KeyType}
  {t t₁ : Workspace} {arg : String}

theorem readsOff_toolLayers (k : KeyType) : (toolLayers k).ReadsOff changingFiles := by
  have hsource : ∀ (d : Dir) (name : String),
      d = .packageToolFirmwares ∨ d = .packageToolFirmwares2 →
        (⟨d, name⟩ : Path Dir) ∉ changingFiles := by
    rintro d name (rfl | rfl) (⟨p, kind, h⟩ | h | (h | h) | h) <;> cases h
  have hboot : bootloaderDir k = .packageToolFirmwares ∨
      bootloaderDir k = .packageToolFirmwares2 := by
    cases k <;> decide
  exact (Layer.readsOff_const _ _).onTop ((Layer.readsOff_glob
    (fun name => hsource _ name (Or.inl rfl)) _).onTop
      ((Layer.readsOff_file (hsource _ _ hboot) _).onTop
        (Layer.readsOff_file (hsource _ _ hboot) _)))

/-- The firmware files of a project are not among the configurations of any. -/
theorem firmwares_not_mem_changingFiles (p : PathProject) (name : String) :
    (⟨.project p .firmwares, name⟩ : Path Dir) ∉ changingFiles := by
  rintro (⟨p', kind, h⟩ | h | (h | h) | h)
  · cases kind <;> cases h
  all_goals cases h

theorem readsOff_projectLayer (p : PathProject) : (projectLayer p).ReadsOff changingFiles :=
  Layer.readsOff_glob (firmwares_not_mem_changingFiles p) _

theorem layoutFile_eq (hagree : Tree.AgreesOff (touchedFiles p) t t₁) (f : FlashFile) :
    layoutFile p t₁ f = layoutFile p t f := by
  have hoff : ∀ d name, d = Dir.project p .root ∨ d = .packageTool →
      (⟨d, name⟩ : Path Dir) ∉ touchedFiles p := by
    rintro d name (rfl | rfl) (⟨kind, h⟩ | h | (h | h) | h)
    · cases kind <;> cases h
    all_goals cases h
  rw [layoutFile, layoutFile, hagree.file _ (hoff _ _ (Or.inl rfl)),
    hagree.file _ (hoff _ _ (Or.inr rfl))]

/-- What a run for a key type stages from the workspace it finds. -/
theorem stagedFiles_eq (hagree : Tree.AgreesOff (touchedFiles p) t t₁)
    (hconfig : ∀ kind, t₁ (.project p (ConfigKind.dir kind)) = configDir tools p kind t k)
    (name : String) :
    ((projectLayer p).onTop ((configLayers tools p k).onTop (toolLayers k))) t₁ name =
      stagedFiles tools p t k name := by
  have hfile : ∀ kind, configLayer tools p k kind t₁ name =
      if name = kind.file then configFile tools p t k kind else none := by
    intro kind
    rw [configLayer, hconfig kind, configFile]
  have hchanging := hagree.mono (touchedFiles_subset p)
  simp only [Layer.onTop, configLayers, hfile, readsOff_projectLayer p t t₁ hchanging,
    readsOff_toolLayers k t t₁ hchanging, stagedFiles, Option.or_assoc]

/-- A run for the other key type leaves them alone. -/
theorem Leaves.of_other {staged : String → Option Bytes} {layout : FlashFile → Option Bytes}
    {k' : KeyType} (h : Leaves tools k staged layout t) (hne : k' ≠ k)
    (hagree : Tree.AgreesOff (mkimageFiles p k') t t₁) : Leaves tools k staged layout t₁ := by
  have hfirmwares : ∀ name, (⟨.tempFirmwares k, name⟩ : Path Dir) ∉ mkimageFiles p k' := by
    intro name
    simp [mkimageFiles, configFiles, toolFiles, madeFiles, hne.symm]
  have htemp : ∀ name, (⟨.temp k, name⟩ : Path Dir) ∉ mkimageFiles p k' := by
    intro name
    simp [mkimageFiles, configFiles, toolFiles, madeFiles, hne.symm]
  have hout : ∀ f : FlashFile, (⟨.out, f.name k⟩ : Path Dir) ∉ mkimageFiles p k' := by
    intro f
    have hnames : ∀ f' : FlashFile, f.name k ≠ f'.name k' := by
      intro f'
      cases k <;> cases k' <;> cases f <;> cases f' <;> first | decide | exact absurd rfl hne
    simp [mkimageFiles, configFiles, toolFiles, madeFiles, hnames]
  constructor
  · intro name hname
    rw [hagree.file _ (hfirmwares name)]
    exact h.firmware name hname
  · rw [hagree.file _ (hfirmwares _)]
    exact h.bootloader3
  · intro f
    obtain ⟨t₀, image, hfirm, hmade⟩ := h.flash f
    rw [hagree.file _ (htemp _), hagree.file _ (hout f)]
    exact ⟨t₀, image, fun name => (hfirm name).trans (hagree.file _ (hfirmwares name)).symm, hmade⟩

theorem read_prepareOutput {q : Path Dir} (hq : q.dir.inOut) (t : Workspace) :
    (prepareOutput t).read q = none := by
  rw [Tree.read, prepareOutput_apply, if_pos hq]
  rfl

/-- The run for one key type, from a workspace in which its output directory is still empty. -/
theorem wp_mkimage (hc : tools.Confined) (machine : Machine) (s : Settings) (k : KeyType)
    (hfrom : Tree.AgreesOff (touchedFiles s.pathProject) t t₁)
    (hempty : ∀ name, t₁.read ⟨.tempFirmwares k, name⟩ = none)
    (htemp : ∀ name, t₁.read ⟨.temp k, name⟩ = none)
    (hconfig : ∀ kind, t₁ (.project s.pathProject (ConfigKind.dir kind)) =
      configDir tools s.pathProject kind t k) :
    wp (execCixMkimage tools machine s k)
      (fun _ t₂ =>
        (Leaves tools k (stagedFiles tools s.pathProject t k) (layoutFile s.pathProject t) t₂ ∧
          ∀ kind l, configDir tools s.pathProject kind t k = some l →
            (tools.make k kind l).1 = 0 ∧ ((tools.make k kind l).2.read kind.file).isSome) ∧
        (∀ kind, t₂ (.project s.pathProject (ConfigKind.dir kind)) =
          makeListing tools k kind (configDir tools s.pathProject kind t k)) ∧
        Tree.AgreesOff (mkimageFiles s.pathProject k) t₁ t₂)
      (fun _ _ => True) t₁ := by
  refine ((wp_execCixMkimage hc machine s k t₁).and
    (wp_forall fun kind => (maps_execCixMkimage hc machine s k kind t₁).and
      (demands_execCixMkimage machine s k kind t₁) |>.mono (fun _ _ h => h)
        fun _ _ _ => trivial)).and
      (writes_execCixMkimage hc machine s k t₁) |>.mono ?_ fun _ _ _ => trivial
  rintro _ t₂ ⟨⟨hleaves, hmade⟩, hagree⟩
  refine ⟨⟨hleaves.congr (fun name => ?_) fun f => ?_, fun kind l hl => ?_⟩, fun kind => ?_, hagree⟩
  · rw [hempty, Option.or_none, stagedFiles_eq hfrom hconfig]
  · rw [htemp, Option.or_none, layoutFile_eq hfrom]
  · exact (hmade kind).2 l ((hconfig kind).trans hl)
  · rw [(hmade kind).1, hconfig kind]

/-- The part of a run that packages both key types. -/
theorem wp_package (hc : tools.Confined) (machine : Machine) (s : Settings)
    (hagree : Tree.AgreesOff buildFiles (prepareOutput t) t₁) :
    wp (do
        execCixMkimage tools machine s .pr
        execCixMkimage tools machine s .pr2)
      (fun _ t' => ∀ k,
        Leaves tools k (stagedFiles tools s.pathProject t k) (layoutFile s.pathProject t) t' ∧
        ∀ kind l, configDir tools s.pathProject kind t k = some l →
          (tools.make k kind l).1 = 0 ∧ ((tools.make k kind l).2.read kind.file).isSome)
      (fun _ _ => True) t₁ := by
  have hfrom : Tree.AgreesOff (touchedFiles s.pathProject) t t₁ :=
    (prepareOutput_agreesOff (fun _ hq => Or.inr (Or.inl hq)) t).trans
      (hagree.mono (buildFiles_subset _))
  have hempty : ∀ k name, t₁.read ⟨.tempFirmwares k, name⟩ = none := by
    intro k name
    rw [hagree.file _ (by simp [buildFiles, Dir.isBuild, Dir.isPrepared]), read_prepareOutput rfl]
  have htemp : ∀ k name, t₁.read ⟨.temp k, name⟩ = none := by
    intro k name
    rw [hagree.file _ (by simp [buildFiles, Dir.isBuild, Dir.isPrepared]), read_prepareOutput rfl]
  have hconfig : ∀ kind, t₁ (.project s.pathProject (ConfigKind.dir kind)) =
      configDir tools s.pathProject kind t .pr := by
    intro kind
    rw [hagree.dir _ (by simp [buildFiles, Dir.isBuild, Dir.isPrepared]), prepareOutput_apply]
    rfl
  rw [wp_bind]
  refine (wp_mkimage hc machine s .pr hfrom (hempty .pr) (htemp .pr) hconfig).mono ?_
    fun _ _ _ => trivial
  rintro _ t₂ ⟨⟨hpr, hmade⟩, hconfig₂, hagree₂⟩
  have hfrom₂ := hfrom.trans (hagree₂.mono (mkimageFiles_subset _ _))
  have hempty₂ : ∀ name, t₂.read ⟨.tempFirmwares .pr2, name⟩ = none := by
    intro name
    rw [hagree₂.file _ (by simp [mkimageFiles, configFiles, toolFiles, madeFiles]), hempty]
  have htemp₂ : ∀ name, t₂.read ⟨.temp .pr2, name⟩ = none := by
    intro name
    rw [hagree₂.file _ (by simp [mkimageFiles, configFiles, toolFiles, madeFiles]), htemp]
  refine (wp_mkimage hc machine s .pr2 hfrom₂ hempty₂ htemp₂ hconfig₂).mono ?_
    fun _ _ _ => trivial
  rintro _ t₃ ⟨hpr2, -, hagree₃⟩ k
  cases k with
  | pr => exact ⟨hpr.of_other (by decide) hagree₃, hmade⟩
  | pr2 => exact hpr2

/-- A run that goes through. -/
theorem wp_buildAndPackage (hc : tools.Confined) (machine : Machine) (arg : String)
    (t : Workspace) :
    wp (buildAndPackage tools machine arg)
      (fun _ t' => ∃ s, Settings.ofProject? (if arg = "" then "Merak" else arg) = some s ∧
        ∀ k, Leaves tools k (stagedFiles tools s.pathProject t k) (layoutFile s.pathProject t) t' ∧
          ∀ kind l, configDir tools s.pathProject kind t k = some l →
            (tools.make k kind l).1 = 0 ∧ ((tools.make k kind l).2.read kind.file).isSome)
      (fun _ _ => True) t := by
  rw [buildAndPackage, wp_bind, require, wp_when]
  split
  next => trivial
  next =>
    rw [wp_bind, wp_update]
    split
    next => trivial
    next s hs =>
      rw [wp_bind]
      refine (writes_execBuildUefi hc s (prepareOutput t)).mono ?_ fun _ _ _ => trivial
      intro _ t₁ hagree
      refine (wp_package hc machine s hagree).mono ?_ fun _ _ _ => trivial
      intro _ t' hleaves
      exact ⟨s, hs, hleaves⟩

end Run

end PackageTool
