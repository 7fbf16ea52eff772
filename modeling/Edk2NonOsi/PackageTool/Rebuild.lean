-- SUMMARY: Runs of `build_and_package.sh` one after another: what a run finds, whether it goes through and what it packages, whatever ran before.
import Edk2NonOsi.PackageTool.Makefiles
import Mathlib.Logic.Relation

open Shell

namespace PackageTool

-- ---------------------------------------------------------------------------
-- Histories
-- ---------------------------------------------------------------------------

/-- `make` leaves the directory of a configuration in a relation with what it found there. -/
def Tools.Respects (tools : Tools) (r : ConfigKind → Listing Bytes → Listing Bytes → Prop) :
    Prop :=
  ∀ k kind l, r kind l (tools.make k kind l).2

section History

variable (r : ConfigKind → Listing Bytes → Listing Bytes → Prop)

/-- A run of any tools that respect `r` on any machine, for whatever project, and however it
    ends. -/
def Run (t t' : Workspace) : Prop :=
  ∃ (tools : Tools) (machine : Machine) (arg : String), tools.Confined ∧ tools.Respects r ∧
    (buildAndPackage tools machine arg t = .ok () t' ∨
      ∃ status, buildAndPackage tools machine arg t = .error status t')

/-- Runs one after another. -/
def History : Workspace → Workspace → Prop := Relation.ReflTransGen (Run r)

/-- What runs start from is the same: the files that none of them touches, and the directories
    of the configurations up to `r`. -/
structure SameSources (t t' : Workspace) : Prop where
  agrees : Tree.AgreesOff changingFiles t t'
  configs : ∀ p kind, Tree.RelDir (.project p (ConfigKind.dir kind)) (r kind) t t'

end History

section Dirs

variable {r : ConfigKind → Listing Bytes → Listing Bytes → Prop}
  [∀ kind, Std.Refl (r kind)] [∀ kind, IsTrans _ (r kind)]

omit [∀ kind, IsTrans _ (r kind)] in
theorem SameSources.refl (t : Workspace) : SameSources r t t where
  agrees := .refl _ t
  configs _ _ := .of_eq rfl

omit [∀ kind, Std.Refl (r kind)] in
theorem SameSources.trans {t t' t'' : Workspace} (h : SameSources r t t')
    (h' : SameSources r t' t'') : SameSources r t t'' where
  agrees := h.agrees.trans h'.agrees
  configs p kind := (h.configs p kind).trans (h'.configs p kind)

variable {tools : Tools} (hc : tools.Confined) (hr : tools.Respects r) (machine : Machine)
  (s : Settings) (p p₀ : PathProject) (k : KeyType) (kind₀ : ConfigKind)

include hr

/-- `make` is run where a directory is, and leaves it there. -/
theorem relDir_buildCfg (kind : ConfigKind) :
    Script.Keeps (Tree.RelDir (.project p₀ kind₀.dir) (r kind₀))
      (when (·.hasDir (.project p kind.dir))
        (buildCfg tools p k kind ⟨.tempFirmwares k, kind.file⟩)) := by
  have hmake : ∀ t : Workspace, Tree.RelDir (.project p₀ kind₀.dir) (r kind₀) t
      (inDir (.project p kind.dir) (tools.make k kind) t).2 := by
    refine relDir_inDir fun hd l => ?_
    have hkind : kind₀ = kind := by
      cases kind₀ <;> cases kind <;> first | rfl | cases hd
    rw [hkind]
    exact hr k kind l
  have hcopy : Script.Writes {⟨.tempFirmwares k, kind.file⟩}
      (exec (cp ⟨.project p kind.dir, kind.file⟩ ⟨.tempFirmwares k, kind.file⟩) :
        Script Workspace Unit) :=
    .exec (writes_cp (Set.mem_singleton _))
  refine .when (.bind (.execOrExit hmake 1) fun _ => ?_) _
  exact .bind (hcopy.relDir fun name => by simp) fun _ => .when (.exit 1) _

theorem relDir_stage :
    Script.Keeps (Tree.RelDir (.project p₀ kind₀.dir) (r kind₀)) (stage tools machine p k) := by
  have hshipped := writes_copyShipped k (W := filesIn (.tempFirmwares k) ∪ filesIn (.tempKeys k))
    Set.subset_union_left Set.subset_union_right
  have hbuild := relDir_buildCfg hr p p₀ k kind₀
  rw [stage_eq, buildConfigs_eq]
  refine .bind (hshipped.relDir fun name => by simp) fun _ => ?_
  refine .bind (.bind (hbuild .memory) fun _ => .bind (hbuild .csuPm) fun _ => hbuild .trustzone)
    fun _ => ?_
  refine .bind ((writes_copyProjectFirmwares p k subset_rfl).relDir fun name => by simp)
    fun _ => ?_
  exact (writes_finishStage machine p k).relDir fun name => by simp [toolFiles]

include hc

theorem relDir_execCixMkimage :
    Script.Keeps (Tree.RelDir (.project p₀ kind₀.dir) (r kind₀))
      (execCixMkimage tools machine s k) := by
  have hflash : ∀ f, Script.Keeps (Tree.RelDir (.project p₀ kind₀.dir) (r kind₀))
      (generateFlashImage tools k f) := by
    intro f
    have hw : Script.Writes {⟨.temp k, f.name k⟩, ⟨.out, f.name k⟩}
        (generateFlashImage tools k f) :=
      writes_generateFlashImage hc k (Or.inl rfl) (Or.inr rfl)
    exact hw.relDir fun name => by simp
  refine .bind (relDir_stage hr machine s.pathProject p₀ k kind₀) fun _ => ?_
  refine .bind ((writes_generateBootloader3 hc k).relDir fun name => by simp [madeFiles])
    fun _ => ?_
  exact .bind (hflash .all) fun _ => hflash .ota

theorem relDir_buildAndPackage (arg : String) :
    Script.Keeps (Tree.RelDir (.project p₀ kind₀.dir) (r kind₀))
      (buildAndPackage tools machine arg) := by
  have hrequire := writes_require (W := ∅) ⟨.packageTool, "build_and_package.sh"⟩
  refine .bind (hrequire.relDir fun name => by simp) fun _ => .bind ?_ fun _ => ?_
  · intro t
    rw [wp_update]
    exact .of_eq (prepareOutput_apply t _)
  · split
    next => exact .exit 1
    next s _ =>
      refine .bind ((writes_execBuildUefi hc s).relDir
        fun name => by simp [buildFiles, Dir.isBuild, Dir.isPrepared]) fun _ => ?_
      exact .bind (relDir_execCixMkimage hc hr machine s p₀ .pr kind₀) fun _ =>
        relDir_execCixMkimage hc hr machine s p₀ .pr2 kind₀

omit hc hr

theorem Run.sameSources {t t' : Workspace} (h : Run r t t') : SameSources r t t' := by
  obtain ⟨tools, machine, arg, hc, hr, hrun⟩ := h
  have hwrites := writes_buildAndPackage hc machine arg
  have hsub : runFiles arg ⊆ changingFiles := by
    rintro q (h | h | h | ⟨s, kind, -, h⟩)
    · exact Or.inr (Or.inl h)
    · exact Or.inr (Or.inr (Or.inl h))
    · exact Or.inr (Or.inr (Or.inr h))
    · exact Or.inl ⟨_, kind, h⟩
  rcases hrun with h | ⟨status, h⟩
  · exact ⟨(hwrites.of_ok h).mono hsub,
      fun p kind => (relDir_buildAndPackage hc hr machine p kind arg).of_ok h⟩
  · exact ⟨(hwrites.of_error h).mono hsub,
      fun p kind => (relDir_buildAndPackage hc hr machine p kind arg).of_error h⟩

/-- No history changes what runs start from. -/
theorem History.sameSources {t t' : Workspace} (h : History r t t') : SameSources r t t' := by
  induction h with
  | refl => exact .refl t
  | tail _ hrun ih => exact ih.trans hrun.sameSources

end Dirs

section Same

variable {r : ConfigKind → Listing Bytes → Listing Bytes → Prop} {t t' : Workspace}

theorem SameSources.stocked {usable : String → Bytes → Prop} {p : PathProject}
    (h : SameSources r t t') (hstock : Stocked usable p t) : Stocked usable p t' :=
  hstock.of_source fun d hd => h.agrees.dir d (not_mem_changingFiles hd)

theorem SameSources.hasScript (h : SameSources r t t') :
    t'.has ⟨.packageTool, "build_and_package.sh"⟩ = t.has ⟨.packageTool, "build_and_package.sh"⟩ := by
  rw [Tree.has, Tree.has,
    h.agrees.file _ (by simp [changingFiles, Dir.inOut, Dir.isBuild, Dir.isPrepared])]

end Same

-- ---------------------------------------------------------------------------
-- Whether a run goes through
-- ---------------------------------------------------------------------------

/-- A directory in which `make` can be run stays one. -/
def KeepsFit (fit : ConfigKind → Listing Bytes → Prop) (kind : ConfigKind)
    (l l' : Listing Bytes) : Prop :=
  fit kind l → fit kind l'

instance (fit : ConfigKind → Listing Bytes → Prop) (kind : ConfigKind) :
    Std.Refl (KeepsFit fit kind) := ⟨fun _ h => h⟩

instance (fit : ConfigKind → Listing Bytes → Prop) (kind : ConfigKind) :
    IsTrans _ (KeepsFit fit kind) := ⟨fun _ _ _ h h' hl => h' (h hl)⟩

/-- **The script recovers.** Let its files and those of the project be in place and the tools do
    their work on what they can work with. Then it goes through on a machine that is not
    `aarch64` exactly when the build does, whatever runs there were before that left fit
    directories fit, and however they ended. -/
theorem buildAndPackage_other {usable : String → Bytes → Prop}
    {fit : ConfigKind → Listing Bytes → Prop} {tools : Tools} {arg : String} {s : Settings}
    {t t' : Workspace} (hc : tools.Confined) (hwork : tools.Work usable fit)
    (hs : Settings.ofProject? (if arg = "" then "Merak" else arg) = some s)
    (hscript : t.has ⟨.packageTool, "build_and_package.sh"⟩) (hstock : Stocked usable s.pathProject t)
    (hfit : ∀ kind l, t (.project s.pathProject (ConfigKind.dir kind)) = some l → fit kind l)
    (hist : History (KeepsFit fit) t t') :
    (∃ t'', buildAndPackage tools .other arg t' = .ok () t'') ↔
      ∃ t₁, execBuildUefi tools s (prepareOutput t') = .ok () t₁ := by
  have hsame := hist.sameSources
  refine exists_ok_buildAndPackage hc hwork hs (hsame.hasScript.trans hscript)
    (hsame.stocked hstock) fun kind l' hl' => ?_
  obtain ⟨l, hl, hkeeps⟩ := (hsame.configs s.pathProject kind).exists_of_eq_some hl'
  exact hkeeps (hfit kind l hl)

theorem sampleTools_respects :
    sampleTools.Respects (KeepsFit fun kind l => hasSource kind l = true) := by
  intro k kind l hl
  have hmake : sampleTools.make k kind l = (0, l.write kind.file [3]) := if_pos hl
  rw [hmake]
  exact (hasSource_write kind l _).trans hl

/-- After a run for a project that there is not. -/
theorem buildAndPackage_other_sample :
    ∃ t' t'', Run (KeepsFit fun kind l => hasSource kind l = true) sampleWorkspace t' ∧
      buildAndPackage sampleTools .other "O6" t' = .ok () t'' := by
  have hrun : Run (KeepsFit fun kind l => hasSource kind l = true) sampleWorkspace
      (prepareOutput sampleWorkspace) :=
    ⟨sampleTools, .other, "O7", sampleTools_confined, sampleTools_respects, Or.inr ⟨1, rfl⟩⟩
  have hgoes : ∃ t'', buildAndPackage sampleTools .other "O6" (prepareOutput sampleWorkspace) =
      .ok () t'' :=
    (buildAndPackage_other sampleTools_confined sampleTools_work_all (s := sampleSettings) rfl rfl
      (stocked_sampleWorkspace (fun _ _ _ => trivial) _) (fit_sampleWorkspace _)
      (.single hrun)).mpr ⟨_, rfl⟩
  obtain ⟨t'', h⟩ := hgoes
  exact ⟨_, t'', hrun, h⟩

-- ---------------------------------------------------------------------------
-- What is packaged again
-- ---------------------------------------------------------------------------

section Again

variable {Ptr : Type}

/-- The configuration as a generator that runs at that time stores it. -/
def Config.stamped (time : UInt32) : Config Ptr → Config Ptr
  | .memory quick heap entries => .memory quick heap entries
  | .csuPm user _ => .csuPm user time
  | .trustzone user _ => .trustzone user time

theorem Config.valid_stamped {c : Config Ptr} {time : UInt32} :
    (c.stamped time).Valid ↔ c.Valid := by
  cases c with
  | memory quick heap entries => rfl
  | csuPm user timestamp => rfl
  | trustzone user timestamp => rfl

/-- What is compiled of a directory is the configuration that its sources say. -/
def Compiler.Compiles (compiler : Compiler Ptr) (source : ConfigKind → Listing Bytes → Config Ptr) :
    Prop :=
  ∀ k kind l g, compiler k kind l = some g →
    (source kind l).kind = kind ∧ ∃ time, g.config = (source kind l).stamped time

/-- `make` does not change the sources. -/
def KeepsSource (source : ConfigKind → Listing Bytes → Config Ptr) (kind : ConfigKind)
    (l l' : Listing Bytes) : Prop :=
  source kind l' = source kind l

instance (source : ConfigKind → Listing Bytes → Config Ptr) (kind : ConfigKind) :
    Std.Refl (KeepsSource source kind) := ⟨fun _ => rfl⟩

instance (source : ConfigKind → Listing Bytes → Config Ptr) (kind : ConfigKind) :
    IsTrans _ (KeepsSource source kind) := ⟨fun _ _ _ h h' => h'.trans h⟩

variable [DecidableEq Ptr]

/-- The tools of a run: they are confined, `make` runs generators that the compiler makes of the
    sources, and leaves these alone, and the memory tool refuses an invalid GUID. -/
structure Tools.Builds (tools : Tools) (compiler : Compiler Ptr)
    (source : ConfigKind → Listing Bytes → Config Ptr) : Prop where
  confined : tools.Confined
  makefiles : tools.Makefiles compiler
  suits : compiler.Suits
  refusesGuid : compiler.RefusesGuid
  compiles : compiler.Compiles source
  keepsSource : tools.Respects (KeepsSource source)

variable {tools tools₁ tools₂ : Tools} {compiler compiler₁ compiler₂ : Compiler Ptr}
  {source : ConfigKind → Listing Bytes → Config Ptr} {p : PathProject} {t t' : Workspace}
  {k : KeyType} {kind : ConfigKind}

omit [DecidableEq Ptr] in
theorem configFile_of_none (h : t (.project p kind.dir) = none) :
    configFile tools p t k kind = none := by
  cases k with
  | pr => rw [configFile, configDir, h, Option.bind_none]
  | pr2 => rw [configFile, configDir, h, makeListing, Option.map_none, Option.bind_none]

/-- In a run that goes through, the file of a configuration is the image of what the sources
    say, with the time of the run. -/
theorem configFile_of_some (hb : tools.Builds compiler source)
    (hmade : ∀ l, configDir tools p kind t k = some l → (tools.make k kind l).1 = 0)
    {l : Listing Bytes} (hl : t (.project p kind.dir) = some l) :
    (source kind l).kind = kind ∧ (source kind l).Valid ∧
      ∃ time, configFile tools p t k kind = some ((source kind l).stamped time).image := by
  have hdir : ∃ l', configDir tools p kind t k = some l' ∧ source kind l' = source kind l := by
    cases k with
    | pr => exact ⟨l, hl, rfl⟩
    | pr2 => exact ⟨_, congrArg (makeListing tools .pr kind) hl, hb.keepsSource .pr kind l⟩
  obtain ⟨l', hl', hsource⟩ := hdir
  obtain ⟨g, hg, hor⟩ := hb.makefiles.made hb.suits (hmade l' hl')
  obtain ⟨hv, himage⟩ := hb.refusesGuid.made hg hor
  obtain ⟨hkind, time, hconfig⟩ := hb.compiles k kind l' g hg
  rw [hsource] at hkind hconfig
  rw [hconfig] at hv himage
  refine ⟨hkind, Config.valid_stamped.mp hv, time, ?_⟩
  rw [configFile, hl', Option.bind_some, himage]

/-- Two files are the same, or images of one configuration at two times. -/
def SameButTime (source : ConfigKind → Listing Bytes → Config Ptr) (p : PathProject)
    (t : Workspace) (kind : ConfigKind) (file file' : Option Bytes) : Prop :=
  file' = file ∨ ∃ l time time', kind ≠ .memory ∧ t (.project p kind.dir) = some l ∧
    (source kind l).Valid ∧ file = some ((source kind l).stamped time).image ∧
    file' = some ((source kind l).stamped time').image

/-- The files of a configuration in two runs that go through. -/
theorem configFile_again (hb₁ : tools₁.Builds compiler₁ source)
    (hb₂ : tools₂.Builds compiler₂ source) (hsame : SameSources (KeepsSource source) t t')
    (hmade₁ : ∀ l, configDir tools₁ p kind t k = some l → (tools₁.make k kind l).1 = 0)
    (hmade₂ : ∀ l, configDir tools₂ p kind t' k = some l → (tools₂.make k kind l).1 = 0) :
    SameButTime source p t kind (configFile tools₁ p t k kind) (configFile tools₂ p t' k kind) := by
  have hdir := (hsame.configs p kind).hasDir
  rw [Tree.hasDir, Tree.hasDir] at hdir
  cases hl : t (.project p kind.dir) with
  | none =>
    left
    rw [hl, Option.isSome_none, Option.isSome_eq_false_iff, Option.isNone_iff_eq_none] at hdir
    rw [configFile_of_none hl, configFile_of_none hdir]
  | some l =>
    rw [hl, Option.isSome_some] at hdir
    obtain ⟨l', hl'⟩ := Option.isSome_iff_exists.mp hdir
    have hsource : source kind l' = source kind l := by
      obtain ⟨l₀, hl₀, hkeeps⟩ := (hsame.configs p kind).exists_of_eq_some hl'
      obtain rfl := Option.some.inj (hl.symm.trans hl₀)
      exact hkeeps
    obtain ⟨hkind, hv, time₁, hfile₁⟩ := configFile_of_some hb₁ hmade₁ hl
    obtain ⟨-, -, time₂, hfile₂⟩ := configFile_of_some hb₂ hmade₂ hl'
    rw [hsource] at hfile₂
    by_cases hmemory : kind = .memory
    · -- A memory configuration has no time stamp.
      left
      rw [hfile₁, hfile₂]
      cases hconfig : source kind l with
      | memory quick heap entries => rfl
      | csuPm user timestamp =>
        rw [hconfig, hmemory] at hkind
        cases hkind
      | trustzone user timestamp =>
        rw [hconfig, hmemory] at hkind
        cases hkind
    · exact Or.inr ⟨l, time₁, time₂, hmemory, hl, hv, hfile₁, hfile₂⟩

omit [DecidableEq Ptr] in
theorem stagedFiles_file (kind : ConfigKind) :
    stagedFiles tools p t k kind.file =
      (projectLayer p t kind.file).or
        ((configFile tools p t k kind).or (toolLayers k t kind.file)) := by
  cases kind with
  | memory => simp [stagedFiles, ConfigKind.file]
  | csuPm => simp [stagedFiles, ConfigKind.file]
  | trustzone => simp [stagedFiles, ConfigKind.file]

omit [DecidableEq Ptr] in
theorem stagedFiles_of_ne {name : String} (h : ∀ kind, name ≠ ConfigKind.file kind) :
    stagedFiles tools p t k name = (projectLayer p t name).or (toolLayers k t name) := by
  simp [stagedFiles, h]

end Again

-- ---------------------------------------------------------------------------
-- A run, and another a minute later
-- ---------------------------------------------------------------------------

def sampleSource (kind : ConfigKind) (_ : Listing Bytes) : Config Bool := sampleConfigs 0 .pr kind

theorem sampleCompiler_compiles (now : UInt32) : (sampleCompiler now).Compiles sampleSource := by
  intro k kind l g hg
  rw [sampleCompiler_eq now hg]
  cases kind with
  | memory => cases k <;> exact ⟨rfl, 0, rfl⟩
  | csuPm => cases k <;> exact ⟨rfl, _, rfl⟩
  | trustzone => cases k <;> exact ⟨rfl, _, rfl⟩

theorem makefileTools_builds (now : UInt32) :
    (makefileTools now).Builds (sampleCompiler now) sampleSource where
  confined := makefileTools_confined now
  makefiles := makefileTools_makefiles now
  suits := sampleCompiler_suits now
  refusesGuid := sampleCompiler_refusesGuid now
  compiles := sampleCompiler_compiles now
  keepsSource _ _ _ := rfl

/-- The directories that are looked at before the sample build. -/
def BuildDirs (t : Workspace) : Prop :=
  t.hasDir (.edk2 "") ∧ t.hasDir (.workspace "edk2-platforms") ∧ t.hasDir .out

theorem runs_sampleBuild (now : UInt32) :
    Script.Runs BuildDirs (execBuildUefi (makefileTools now) sampleSettings) fun _ => True := by
  have hexec : ∀ c : Command Workspace, (∀ t, c t = (0, t)) →
      Script.Runs BuildDirs (exec c) BuildDirs := by
    intro c hc
    refine .exec fun t ht => ?_
    rw [hc t]
    exact ⟨rfl, ht⟩
  have hprepare : Script.Runs BuildDirs (prepareBuild (makefileTools now)) BuildDirs := by
    refine .bind (.when (.bind (Q := BuildDirs) ?_ fun _ => hexec _ fun _ => rfl)) fun _ => ?_
    · exact .imp (.skip fun t ht => by simp [ht.1.1]) fun t ht => ht.1
    · exact .bind (.skip fun t ht => by simp [ht.2.1]) fun _ =>
        .bind (.when (.weaken (hexec _ fun _ => rfl) fun t ht => ht.1)) fun _ =>
          .bind (.when (.weaken (hexec _ fun _ => rfl) fun t ht => ht.1)) fun _ => hexec _ fun _ => rfl
  have hbuild : Script.Runs BuildDirs (exec ((makefileTools now).build sampleSettings))
      fun t => t.has ⟨fvDir "O6", "SKY1_BL33_UEFI.fd"⟩ ∧ t.hasDir .out := by
    refine .exec fun t ht => ⟨rfl, rfl, ?_⟩
    exact keepsDirs_setDir _ _ _ _ ht.2.2
  have hcopy : Script.Runs (fun t : Workspace => t.has ⟨fvDir "O6", "SKY1_BL33_UEFI.fd"⟩ ∧ t.hasDir .out)
      (exec (cp ⟨fvDir "O6", "SKY1_BL33_UEFI.fd"⟩ ⟨.out, "SKY1_BL33_UEFI.fd"⟩)) fun _ => True :=
    .imp (runs_cp (W := filesIn Dir.out) (fun t ht => ht)
      ((stableOff_has (by simp [fvDir])).and (stableOff_hasDir _ _)) rfl) fun _ _ => trivial
  refine .bind hprepare fun _ => .bind (Q := BuildDirs) ?_ fun _ => .bind hbuild fun _ =>
    .bind hcopy fun _ => .skip fun _ _ => by decide
  intro t ht
  exact ht

/-- A run after the first one, which goes through as well. -/
theorem exists_ok_makefileTools_again (now : UInt32) {t₁ : Workspace}
    (h : buildAndPackage (makefileTools 0) .other "O6" sampleWorkspace = .ok () t₁) :
    ∃ t₂, buildAndPackage (makefileTools now) .other "O6" t₁ = .ok () t₂ := by
  have hr : (makefileTools 0).Respects (KeepsFit fun kind l => hasSource kind l = true) := by
    intro k kind l hl
    rw [makefileTools_make 0 hl]
    exact (hasSource_sampleListing 0 k kind l).trans hl
  have hrun : Run (KeepsFit fun kind l => hasSource kind l = true) sampleWorkspace t₁ :=
    ⟨makefileTools 0, .other, "O6", makefileTools_confined 0, hr, Or.inl h⟩
  have hsame := hrun.sameSources
  have hedk2 : t₁.hasDir (.edk2 "") := by
    obtain ⟨t₀, hbuild, hdir⟩ : ∃ t₀, execBuildUefi (makefileTools 0) sampleSettings
        (prepareOutput sampleWorkspace) = .ok () t₀ ∧ t₀.hasDir (.edk2 "") := ⟨_, rfl, rfl⟩
    have hmkimage : ∀ k, Script.Keeps (Tree.RelDir (.edk2 "") Eq)
        (execCixMkimage (makefileTools 0) .other sampleSettings k) := fun k =>
      (writes_execCixMkimage (makefileTools_confined 0) .other sampleSettings k).relDir
        fun name => by simp [mkimageFiles, configFiles, toolFiles, madeFiles]
    rw [buildAndPackage_eq (s := sampleSettings) rfl rfl, bind_of_ok hbuild] at h
    have hkept : Script.Keeps (Tree.RelDir (.edk2 "") Eq) (do
        execCixMkimage (makefileTools 0) .other sampleSettings .pr
        execCixMkimage (makefileTools 0) .other sampleSettings .pr2) :=
      .bind (hmkimage .pr) fun _ => hmkimage .pr2
    rw [(hkept.of_ok h).hasDir]
    exact hdir
  refine (exists_ok_buildAndPackage (makefileTools_confined now) (makefileTools_work_all now)
    (s := sampleSettings) rfl (hsame.hasScript.trans rfl)
    (hsame.stocked (stocked_sampleWorkspace (fun _ _ _ => trivial) _)) fun kind l' hl' => ?_).mpr ?_
  · obtain ⟨l, hl, hkeeps⟩ := (hsame.configs sampleSettings.pathProject kind).exists_of_eq_some hl'
    exact hkeeps (fit_sampleWorkspace _ kind l hl)
  · have hplatforms : t₁.hasDir (.workspace "edk2-platforms") := by
      rw [Tree.hasDir, hsame.agrees.dir _
        (by simp [changingFiles, Dir.inOut, Dir.isBuild, Dir.isPrepared])]
      rfl
    have hdirs : BuildDirs (prepareOutput t₁) := by
      simp only [BuildDirs, Tree.hasDir, prepareOutput_apply]
      exact ⟨hedk2, hplatforms, rfl⟩
    obtain ⟨_, t', h'⟩ := (runs_sampleBuild now).exists_ok hdirs
    exact ⟨t', h'⟩

end PackageTool
